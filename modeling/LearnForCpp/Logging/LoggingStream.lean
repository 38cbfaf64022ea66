import LearnForCpp.Reactor.TcpConnection

/-!
# The stream of a log record

`logging/LoggingStream.h` and `logging/LoggingStream.cc`: a buffer of 4000 bytes in which an item
that does not fit is dropped, and the insertions of the types that a program can log.

A text is copied when more bytes are free than it has; a number is written in place when 32 are
free.  The lengths are `int`, so that a text of `2 ^ 31` bytes has a negative one.  What `snprintf`
renders is an argument.

* `LoggingStream.put`: the `operator <<` of every type.
* `LoggingStream.put_eq`: what it does to the content, `Item.into`.
-/

namespace Jiangbo

/-- The bytes of a literal. -/
def ascii (s : String) : Bytes := s.toList.map Char.toUInt8

def kMinBufferSize : ℕ := 4000

def kMaxNumericSize : ℕ := 32

/-- `FixedBuffer<SIZE>`: the bytes of `data_`, and `cur_` as an offset. -/
structure FixedBuffer (SIZE : ℕ) where
  data : Bytes
  cur : ℕ
  length_data : data.length = SIZE
  deriving DecidableEq

namespace FixedBuffer

variable {SIZE : ℕ}

/-- A buffer after `bzero`. -/
def new (SIZE : ℕ) : FixedBuffer SIZE := ⟨List.replicate SIZE 0, 0, List.length_replicate⟩

def avail (b : FixedBuffer SIZE) : ℤ := SIZE - b.cur

/-- `data()` and `length()`: the bytes before `cur_`. -/
def content (b : FixedBuffer SIZE) : Bytes := b.data.take b.cur

def add (len : ℕ) (b : FixedBuffer SIZE) : FixedBuffer SIZE := { b with cur := b.cur + len }

/-- Stores at `cur_`. -/
def write (bytes : Bytes) (b : FixedBuffer SIZE) : Result (FixedBuffer SIZE) :=
  if b.cur + bytes.length ≤ SIZE then
    .ok { b with
      data := Copy.overwrite b.data b.cur bytes
      length_data := by rw [Copy.overwrite_length, b.length_data] }
  else .fault .outOfBounds b

/-- `memcpy(cur_, buf, len)`, where a negative `len` is an enormous `size_t`. -/
def memcpy (buf : Bytes) (len : ℤ) (b : FixedBuffer SIZE) : Result (FixedBuffer SIZE) :=
  if 0 ≤ len ∧ len ≤ buf.length then b.write (buf.take len.toNat) else .fault .outOfBounds b

def append (buf : Bytes) (len : ℤ) (b : FixedBuffer SIZE) : Result (FixedBuffer SIZE) :=
  if b.avail > len then (b.memcpy buf len).bind fun b => .ok (b.add len.toNat) else .ok b

end FixedBuffer

namespace FixedBuffer

variable {SIZE : ℕ} {b : FixedBuffer SIZE}

/-! ### Room -/

theorem content_length (h : b.cur ≤ SIZE) : b.content.length = b.cur := by
  rw [content, List.length_take, b.length_data, Nat.min_eq_left h]

/-- Bytes that fit are stored, and become content when `cur_` passes them. -/
theorem write_eq {d : Bytes} (h : b.cur + d.length ≤ SIZE) :
    ∃ b', b.write d = .ok b' ∧ b'.cur = b.cur ∧
      ∀ n ≤ d.length, (b'.add n).content = b.content ++ d.take n := by
  refine ⟨_, if_pos h, rfl, fun n hn => ?_⟩
  have hlen : (b.data.take b.cur).length = b.cur := content_length (by omega)
  show (Copy.overwrite b.data b.cur d).take (b.cur + n) = b.data.take b.cur ++ d.take n
  rw [Copy.overwrite_eq (by rw [b.length_data]; exact h), List.append_assoc,
    List.take_append, hlen, List.take_of_length_le (by omega), Nat.add_sub_cancel_left,
    List.take_append_of_le_length hn]

/-- A text is appended as a whole when more bytes are free, and dropped otherwise. -/
theorem append_eq {d : Bytes} {n : ℤ} (hb : b.cur < SIZE) (h0 : 0 ≤ n)
    (hlen : n ≤ d.length) : ∃ b', b.append d n = .ok b' ∧ b'.cur < SIZE ∧
      b'.content = if n.toNat + 1 + b.content.length ≤ SIZE then
        b.content ++ d.take n.toNat else b.content := by
  have hcur := content_length hb.le
  by_cases h : b.avail > n
  · have hroom : b.cur + n.toNat < SIZE := by
      unfold avail at h
      omega
    have htake : (d.take n.toNat).length = n.toNat := by
      rw [List.length_take]
      omega
    obtain ⟨b', hb', hcur', hcontent⟩ :=
      write_eq (b := b) (d := d.take n.toNat) (by omega)
    refine ⟨b'.add n.toNat, ?_, by simpa [add, hcur'] using hroom, ?_⟩
    · rw [append, if_pos h, memcpy, if_pos ⟨h0, hlen⟩, hb', Outcome.bind_ok]
    · rw [if_pos (by omega), hcontent _ htake.ge, List.take_of_length_le htake.le]
  · refine ⟨b, if_neg h, hb, ?_⟩
    unfold avail at h
    rw [if_neg (by omega)]

/-- A negative length is more than any buffer holds. -/
theorem append_neg {buf : Bytes} {len : ℤ} (hb : b.cur < SIZE) (h : len < 0) :
    b.append buf len = .fault .outOfBounds b := by
  have havail : b.avail > len := by
    unfold avail
    omega
  rw [append, if_pos havail, memcpy, if_neg (by omega), Outcome.bind_fault]

end FixedBuffer

/-- `T`: a text and its length, which the constructor has asserted. -/
structure T where
  str : Bytes
  len : ℕ
  strlen_eq : str.length = len

/-- `Fmt`: what `snprintf` wrote, which the constructor has asserted to fit its 32 bytes. -/
structure Fmt where
  buf : Bytes
  length_lt : buf.length < 32

/-- What `snprintf` renders a `double` as with `"%.12g"`. -/
structure DoubleText where
  text : Bytes
  length_lt : text.length < kMaxNumericSize

/-! ### The digits of a number -/

/-- `digits`, without its NUL; `zero` points to the middle. -/
def digits : Bytes := ascii "9876543210123456789"

/-- `zero[lsd]`. -/
def zero (lsd : ℤ) (h : -10 < lsd ∧ lsd < 10) : UInt8 :=
  digits.get ⟨(9 + lsd).toNat, by
    have : digits.length = 19 := rfl
    omega⟩

def digitsHex : Bytes := ascii "0123456789abcdef"

theorem tmod_ten (i : ℤ) : -10 < i.tmod 10 ∧ i.tmod 10 < 10 := by
  have h : (i.tmod 10).natAbs = i.natAbs % 10 := Int.natAbs_tmod i 10
  omega

theorem natAbs_tdiv_ten (i : ℤ) : (i.tdiv 10).natAbs = i.natAbs / 10 := Int.natAbs_tdiv i 10

/-- The loop of `convert`: the digits of `i`, the last one first. -/
def convertLoop (i : ℤ) : Bytes :=
  zero (i.tmod 10) (tmod_ten i) ::
    if i.tdiv 10 = 0 then [] else convertLoop (i.tdiv 10)
termination_by i.natAbs
decreasing_by
  have := natAbs_tdiv_ten i
  omega

/-- `convert`: the bytes before the NUL. -/
def convert (v : ℤ) : Bytes := (convertLoop v ++ if v < 0 then ascii "-" else []).reverse

/-- The loop of `convertHex`. -/
def convertHexLoop (i : ℕ) : Bytes :=
  digitsHex.get ⟨i % 16, Nat.mod_lt _ (by decide)⟩ ::
    if i / 16 = 0 then [] else convertHexLoop (i / 16)
termination_by i
decreasing_by omega

/-- `convertHex`: the bytes before the NUL. -/
def convertHex (value : ℕ) : Bytes := (convertHexLoop value).reverse

/-! ### The stream -/

/-- `LoggingStream`: its `buffer_`. -/
abbrev LoggingStream := FixedBuffer kMinBufferSize

/-- A value that is inserted. -/
inductive Item
  | bool (v : Bool)
  | char (v : UInt8)
  | short (v : Int16)
  | unsignedShort (v : UInt16)
  | int (v : Int32)
  | unsignedInt (v : UInt32)
  | long (v : Int64)
  | unsignedLong (v : UInt64)
  | longLong (v : Int64)
  | float (v : DoubleText)
  | double (v : DoubleText)
  /-- A `const char *`: the bytes before its NUL. -/
  | cstr (buf : Bytes)
  | string (str : StdString)
  | t (v : T)
  | pointer (p : UInt64)
  | fmt (v : Fmt)

namespace LoggingStream

/-- A number written at `current()`, and `add(len)`, when 32 bytes are free. -/
def putNumeric (bytes : Bytes) (len : ℕ) (b : LoggingStream) : Result LoggingStream :=
  if b.avail ≥ kMaxNumericSize then (b.write bytes).bind fun b => .ok (b.add len) else .ok b

def formatInteger (v : ℤ) : LoggingStream → Result LoggingStream :=
  putNumeric (convert v ++ [0]) (convert v).length

def formatPointer (p : UInt64) : LoggingStream → Result LoggingStream :=
  putNumeric (ascii "0x" ++ convertHex p.toNat ++ [0]) ((convertHex p.toNat).length + 2)

def formatDouble (v : DoubleText) : LoggingStream → Result LoggingStream :=
  putNumeric (v.text ++ [0]) v.text.length

/-- `operator <<`. -/
def put (b : LoggingStream) : Item → Result LoggingStream
  | .bool v => b.append (if v then ascii "1" else ascii "0") 1
  | .char v => b.append [v] 1
  | .short v => formatInteger v.toInt b
  | .unsignedShort v => formatInteger v.toNat b
  | .int v => formatInteger v.toInt b
  | .unsignedInt v => formatInteger v.toNat b
  | .long v => formatInteger v.toInt b
  | .unsignedLong v => formatInteger v.toNat b
  | .longLong v => formatInteger v.toInt b
  | .float v => formatDouble v b
  | .double v => formatDouble v b
  | .cstr buf => b.append buf (wrap32 buf.length)
  | .string str => b.append str.bytes (wrap32 str.size)
  | .t v => b.append v.str (wrap32 v.len)
  | .pointer p => formatPointer p b
  | .fmt v => b.append v.buf v.buf.length

/-- Insertions, one after another. -/
def putAll (b : LoggingStream) : List Item → Result LoggingStream
  | [] => .ok b
  | item :: items => (b.put item).bind fun b => putAll b items

end LoggingStream

/-! ### What an insertion does to the content -/

/-- The digits of a number below `10 ^ k` are `k` at most. -/
theorem convertLoop_length {k : ℕ} {i : ℤ} (hi : i.natAbs < 10 ^ k) (hk : 0 < k) :
    (convertLoop i).length ≤ k := by
  induction k generalizing i with
  | zero => omega
  | succ k ih =>
    have hdiv := natAbs_tdiv_ten i
    rw [pow_succ] at hi
    rw [convertLoop, List.length_cons]
    split_ifs with h
    · simp
    · have hk : 0 < k := by
        by_contra hk
        simp only [Nat.eq_zero_of_not_pos hk, pow_zero] at hi
        omega
      have := ih (i := i.tdiv 10) (by omega) hk
      omega

/-- A 64-bit integer has 20 characters at most. -/
theorem convert_length {v : ℤ} (h1 : -10 ^ 19 < v) (h2 : v < 10 ^ 20) :
    (convert v).length ≤ 20 := by
  rw [convert, List.length_reverse, List.length_append]
  split_ifs with hneg
  · have := convertLoop_length (k := 19) (i := v) (by omega) (by omega)
    have hminus : (ascii "-").length = 1 := rfl
    omega
  · have := convertLoop_length (k := 20) (i := v) (by omega) (by omega)
    simpa using this

theorem convertHexLoop_length {k i : ℕ} (hi : i < 16 ^ k) (hk : 0 < k) :
    (convertHexLoop i).length ≤ k := by
  induction k generalizing i with
  | zero => omega
  | succ k ih =>
    rw [pow_succ] at hi
    rw [convertHexLoop, List.length_cons]
    split_ifs with h
    · simp
    · have hk : 0 < k := by
        by_contra hk
        simp only [Nat.eq_zero_of_not_pos hk, pow_zero] at hi
        omega
      have := ih (i := i / 16) (by omega) hk
      omega

theorem convertHex_length (p : UInt64) : (convertHex p.toNat).length ≤ 16 := by
  rw [convertHex, List.length_reverse]
  exact convertHexLoop_length (k := 16) (by have := p.toNat_lt; omega) (by decide)

namespace Item

/-- The `int` that the length of a text becomes is not negative. -/
def Sized : Item → Prop
  | cstr buf => 0 ≤ wrap32 buf.length
  | string str => 0 ≤ wrap32 str.size
  | t v => 0 ≤ wrap32 v.len
  | _ => True

/-- What is written when there is room. -/
def render : Item → Bytes
  | bool v => if v then ascii "1" else ascii "0"
  | char v => [v]
  | short v => convert v.toInt
  | unsignedShort v => convert v.toNat
  | int v => convert v.toInt
  | unsignedInt v => convert v.toNat
  | long v => convert v.toInt
  | unsignedLong v => convert v.toNat
  | longLong v => convert v.toInt
  | float v => v.text
  | double v => v.text
  | cstr buf => buf.take (wrap32 buf.length).toNat
  | string str => str.bytes.take (wrap32 str.size).toNat
  | t v => v.str.take (wrap32 v.len).toNat
  | pointer p => ascii "0x" ++ convertHex p.toNat
  | fmt v => v.buf

/-- The free bytes that it takes. -/
def room : Item → ℕ
  | short _ | unsignedShort _ | int _ | unsignedInt _ | long _ | unsignedLong _ | longLong _
  | float _ | double _ | pointer _ => kMaxNumericSize
  | item => item.render.length + 1

/-- The content after an insertion: the item as a whole or nothing. -/
def into (text : Bytes) (item : Item) : Bytes :=
  if item.room + text.length ≤ kMinBufferSize then text ++ item.render else text

end Item

namespace LoggingStream

variable {b : LoggingStream}

/-- A number is written as a whole when 32 bytes are free, its NUL included. -/
theorem putNumeric_eq {d : Bytes} (hb : b.cur < kMinBufferSize)
    (htext : d.length < kMaxNumericSize) :
    ∃ b', putNumeric (d ++ [0]) d.length b = .ok b' ∧ b'.cur < kMinBufferSize ∧
      b'.content = if kMaxNumericSize + b.content.length ≤ kMinBufferSize then
        b.content ++ d else b.content := by
  have hcur := b.content_length hb.le
  by_cases h : b.avail ≥ kMaxNumericSize
  · have hroom : b.cur + kMaxNumericSize ≤ kMinBufferSize := by
      unfold FixedBuffer.avail at h
      omega
    obtain ⟨b', hb', hcur', hcontent⟩ := b.write_eq (d := d ++ [0])
      (by rw [List.length_append, List.length_singleton]; omega)
    refine ⟨b'.add d.length, ?_, by simp only [FixedBuffer.add, hcur']; omega, ?_⟩
    · rw [putNumeric, if_pos h, hb', Outcome.bind_ok]
    · rw [if_pos (by omega), hcontent _ (by simp), List.take_left]
  · refine ⟨b, if_neg h, hb, ?_⟩
    unfold FixedBuffer.avail at h
    rw [if_neg (by omega)]

theorem formatInteger_eq {v : ℤ} (hb : b.cur < kMinBufferSize) (h1 : -10 ^ 19 < v)
    (h2 : v < 10 ^ 20) : ∃ b', formatInteger v b = .ok b' ∧ b'.cur < kMinBufferSize ∧
      b'.content = if kMaxNumericSize + b.content.length ≤ kMinBufferSize then
        b.content ++ convert v else b.content :=
  putNumeric_eq hb (by have := convert_length h1 h2; unfold kMaxNumericSize; omega)

/-- A text whose `int` length is not negative. -/
theorem append_text {buf : Bytes} (hb : b.cur < kMinBufferSize) (h : 0 ≤ wrap32 buf.length) :
    ∃ b', b.append buf (wrap32 buf.length) = .ok b' ∧ b'.cur < kMinBufferSize ∧
      b'.content = if (buf.take (wrap32 buf.length).toNat).length + 1 + b.content.length ≤
        kMinBufferSize then b.content ++ buf.take (wrap32 buf.length).toNat else b.content := by
  have hle := wrap32_le buf.length
  obtain ⟨b', hb', hcur, hcontent⟩ := b.append_eq hb h hle
  refine ⟨b', hb', hcur, ?_⟩
  rw [hcontent, List.length_take, Nat.min_eq_left (by omega)]

/-- **Insertions.** An item is inserted as a whole or dropped; only a text whose `int` length is
negative does worse. -/
theorem put_eq {item : Item} (hb : b.cur < kMinBufferSize) (hitem : item.Sized) :
    ∃ b', b.put item = .ok b' ∧ b'.cur < kMinBufferSize ∧ b'.content = item.into b.content := by
  cases item with
  | bool v =>
    obtain ⟨b', hb', hcur, hcontent⟩ := b.append_eq (d := if v then ascii "1" else ascii "0")
      (n := 1) hb (by decide) (by cases v <;> decide)
    refine ⟨b', hb', hcur, ?_⟩
    cases v <;> exact hcontent
  | char v => exact b.append_eq (d := [v]) (n := 1) hb (by decide) (by simp)
  | short v =>
    exact formatInteger_eq hb (by have := v.le_toInt; omega) (by have := v.toInt_lt; omega)
  | unsignedShort v => exact formatInteger_eq hb (by omega) (by have := v.toNat_lt; omega)
  | int v =>
    exact formatInteger_eq hb (by have := v.le_toInt; omega) (by have := v.toInt_lt; omega)
  | unsignedInt v => exact formatInteger_eq hb (by omega) (by have := v.toNat_lt; omega)
  | long v =>
    exact formatInteger_eq hb (by have := v.le_toInt; omega) (by have := v.toInt_lt; omega)
  | unsignedLong v => exact formatInteger_eq hb (by omega) (by have := v.toNat_lt; omega)
  | longLong v =>
    exact formatInteger_eq hb (by have := v.le_toInt; omega) (by have := v.toInt_lt; omega)
  | float v => exact putNumeric_eq hb v.length_lt
  | double v => exact putNumeric_eq hb v.length_lt
  | cstr buf => exact append_text hb hitem
  | string str => exact append_text hb hitem
  | t v =>
    obtain ⟨str, len, rfl⟩ := v
    exact append_text hb hitem
  | pointer p =>
    have h : (ascii "0x" ++ convertHex p.toNat).length = (convertHex p.toNat).length + 2 := by
      rw [List.length_append, Nat.add_comm]
      rfl
    have hlt := convertHex_length p
    have := putNumeric_eq (d := ascii "0x" ++ convertHex p.toNat) hb
      (by rw [h]; unfold kMaxNumericSize; omega)
    rw [h] at this
    exact this
  | fmt v =>
    obtain ⟨b', hb', hcur, hcontent⟩ := b.append_eq (d := v.buf) (n := v.buf.length) hb
      (by omega) le_rfl
    refine ⟨b', hb', hcur, ?_⟩
    rw [hcontent, Int.toNat_natCast, List.take_length]
    rfl

/-- A text with a negative length is copied over whatever follows the buffer. -/
theorem put_of_not_sized {item : Item} (hb : b.cur < kMinBufferSize) (hitem : ¬item.Sized) :
    b.put item = .fault .outOfBounds b := by
  cases item with
  | cstr buf => exact b.append_neg hb (not_le.1 hitem)
  | string str => exact b.append_neg hb (not_le.1 hitem)
  | t v => exact b.append_neg hb (not_le.1 hitem)
  | _ => exact absurd trivial hitem

/-- Several insertions. -/
theorem putAll_eq {items : List Item} (hb : b.cur < kMinBufferSize)
    (hitems : ∀ item ∈ items, item.Sized) :
    ∃ b', b.putAll items = .ok b' ∧ b'.cur < kMinBufferSize ∧
      b'.content = items.foldl Item.into b.content := by
  induction items generalizing b with
  | nil => exact ⟨b, rfl, hb, rfl⟩
  | cons item items ih =>
    obtain ⟨hitem, hitems⟩ := List.forall_mem_cons.1 hitems
    obtain ⟨b₁, h₁, hb₁, hcontent₁⟩ := put_eq hb hitem
    obtain ⟨b', h', hb', hcontent'⟩ := ih hb₁ hitems
    refine ⟨b', ?_, hb', ?_⟩
    · rw [putAll, h₁, Outcome.bind_ok, h']
    · rw [hcontent', hcontent₁, List.foldl_cons]

/-- Insertions that all return had texts of non-negative lengths. -/
theorem sized_of_putAll {items : List Item} {b' : LoggingStream} (hb : b.cur < kMinBufferSize)
    (h : b.putAll items = .ok b') : ∀ item ∈ items, item.Sized := by
  induction items generalizing b with
  | nil => simp
  | cons item items ih =>
    obtain ⟨b₁, h₁, h'⟩ := Outcome.bind_eq_ok.1 h
    have hitem : item.Sized := by
      by_contra hitem
      rw [put_of_not_sized hb hitem] at h₁
      cases h₁
    obtain ⟨b₂, h₂, hb₂, -⟩ := put_eq hb hitem
    obtain rfl : b₁ = b₂ := Outcome.ok.inj (h₁.symm.trans h₂)
    exact List.forall_mem_cons.2 ⟨hitem, ih hb₂ h'⟩

end LoggingStream

end Jiangbo
