import LearnForCpp.Lib.Numeral
import LearnForCpp.Logging.LoggingStream

/-!
# The digits of an integer

`convert` and `convertHex` of `logging/LoggingStream.cc` as they work in a buffer: the loop divides
an integer of the machine by the base, with C++'s division that rounds to 0, looks the remainder up
in a table and stores the digits from the last one on; then they are reversed.  The remainders of a
negative number are negative, and `zero` points to the middle of the table.

`integer_rendering` says what is in the buffer afterwards.  It is what `convert` and `convertHex` of
`LoggingStream.lean` give, so that the insertions there write the right bytes.
-/

namespace Jiangbo

/-- An integer type of C++ as `convert` uses it: the value of an integer, and `/` and `%` by a
number greater than 1. -/
class Integral (T : Type) extends Div T, Mod T where
  value : T → ℤ
  ten : T
  value_ten : value ten = 10
  min_le : ∀ v, -2 ^ 63 ≤ value v
  lt_max : ∀ v, value v < 2 ^ 64
  value_div : ∀ {v w}, 1 < value w → value (v / w) = (value v).tdiv (value w)
  value_mod : ∀ {v w}, 1 < value w → value (v % w) = (value v).tmod (value w)

instance : Integral Int32 where
  value := Int32.toInt
  ten := 10
  value_ten := rfl
  min_le v := by have := v.le_toInt; omega
  lt_max v := by have := v.toInt_lt; omega
  value_div {v w} h := by
    refine Int32.toInt_div_of_ne_right v w ?_
    rintro rfl
    exact absurd h (by decide)
  value_mod {v w} _ := Int32.toInt_mod v w

instance : Integral UInt32 where
  value v := v.toNat
  ten := 10
  value_ten := rfl
  min_le v := by omega
  lt_max v := by have := v.toNat_lt; omega
  value_div {v w} _ := by
    rw [UInt32.toNat_div, Int.natCast_div, Int.tdiv_eq_ediv_of_nonneg (by omega)]
  value_mod {v w} _ := by
    rw [UInt32.toNat_mod, Int.natCast_mod, Int.tmod_eq_emod_of_nonneg (by omega)]

instance : Integral Int64 where
  value := Int64.toInt
  ten := 10
  value_ten := rfl
  min_le v := by have := v.le_toInt; omega
  lt_max v := by have := v.toInt_lt; omega
  value_div {v w} h := by
    refine Int64.toInt_div_of_ne_right v w ?_
    rintro rfl
    exact absurd h (by decide)
  value_mod {v w} _ := Int64.toInt_mod v w

instance : Integral UInt64 where
  value v := v.toNat
  ten := 10
  value_ten := rfl
  min_le v := by omega
  lt_max v := by have := v.toNat_lt; omega
  value_div {v w} _ := by
    rw [UInt64.toNat_div, Int.natCast_div, Int.tdiv_eq_ediv_of_nonneg (by omega)]
  value_mod {v w} _ := by
    rw [UInt64.toNat_mod, Int.natCast_mod, Int.tmod_eq_emod_of_nonneg (by omega)]

/-- The bytes from `buf` on, and `p` as an offset. -/
structure CharBuf where
  bytes : Bytes
  p : ℕ
  deriving DecidableEq

namespace CharBuf

/-- `*p = c`. -/
def store (c : UInt8) (s : CharBuf) : Result CharBuf :=
  if s.p < s.bytes.length then .ok { s with bytes := s.bytes.set s.p c } else .fault .outOfBounds s

/-- `*p ++ = c`. -/
def push (c : UInt8) (s : CharBuf) : Result CharBuf :=
  (s.store c).bind fun s => .ok { s with p := s.p + 1 }

/-- `*p ++ = table[i]`. -/
def pushEntry (table : Bytes) (i : ℤ) (s : CharBuf) : Result CharBuf :=
  if h : 0 ≤ i ∧ i.toNat < table.length then s.push (table.get ⟨i.toNat, h.2⟩)
  else .fault .outOfBounds s

/-- `*p = '\0'`, `std::reverse(buf, p)`. -/
def terminate (s : CharBuf) : Result CharBuf :=
  (s.store 0).bind fun s => .ok { s with bytes := (s.bytes.take s.p).reverse ++ s.bytes.drop s.p }

section Loop

variable {T : Type} [Integral T]

theorem natAbs_div_lt {i base : T} (hbase : 1 < Integral.value base)
    (h : Integral.value (i / base) ≠ 0) :
    (Integral.value (i / base)).natAbs < (Integral.value i).natAbs := by
  rw [Integral.value_div hbase] at h ⊢
  rw [Int.natAbs_tdiv]
  refine Nat.div_lt_self (Nat.pos_of_ne_zero fun h0 => h ?_) (by omega)
  rw [Int.natAbs_eq_zero.1 h0, Int.zero_tdiv]

/-- The loop: `lsd = i % base; i /= base; *p ++ = table[middle + lsd];` while `i != 0`. -/
def loop (table : Bytes) (middle : ℤ) (base : T) (hbase : 1 < Integral.value base) (i : T)
    (s : CharBuf) : Result CharBuf :=
  let lsd := wrap32 (Integral.value (i % base))
  (s.pushEntry table (middle + lsd)).bind fun s =>
    if _h : Integral.value (i / base) ≠ 0 then loop table middle base hbase (i / base) s else .ok s
termination_by (Integral.value i).natAbs
decreasing_by exact natAbs_div_lt hbase ‹_›

/-- `convert(buf, v)`; what it returns is `p`. -/
def convert (buf : Bytes) (v : T) : Result CharBuf :=
  (loop digits 9 (Integral.ten : T) (by rw [Integral.value_ten]; decide) v ⟨buf, 0⟩).bind fun s =>
    (if Integral.value v < 0 then s.push 45 else .ok s).bind terminate

/-- `convertHex(buf, value)`. -/
def convertHex (buf : Bytes) (value : UInt64) : Result CharBuf :=
  (loop digitsHex 0 (16 : UInt64) (by decide) value ⟨buf, 0⟩).bind terminate

end Loop

end CharBuf

/-! ### Numerals as texts -/

/-- The character of a digit. -/
def digitChar (d : ℕ) : UInt8 := if d < 10 then UInt8.ofNat (48 + d) else UInt8.ofNat (87 + d)

/-- The text is the canonical numeral of `v`: a minus sign for a negative number, and the digits of
its absolute value without superfluous zeros. -/
def IsNumeral (b : ℕ) (v : ℤ) (text : Bytes) : Prop :=
  ∃ ds, Numeral.Canonical b ds ∧ Numeral.value b ds = v.natAbs ∧
    text = (if v < 0 then ascii "-" else []) ++ ds.map digitChar

/-- The digit of a character. -/
def digitOf (c : UInt8) : Option ℕ :=
  if 48 ≤ c ∧ c ≤ 57 then some (c.toNat - 48)
  else if 97 ≤ c ∧ c ≤ 102 then some (c.toNat - 87) else none

/-- The number that a text of digits stands for. -/
def readDigits (b : ℕ) (text : Bytes) : Option ℕ :=
  if text = [] then none
  else (text.mapM digitOf).bind fun ds =>
    if ∀ d ∈ ds, d < b then some (Numeral.value b ds) else none

/-- The number that a text stands for, with a minus sign or without. -/
def readNumeral (b : ℕ) : Bytes → Option ℤ
  | 45 :: text => (readDigits b text).map fun n : ℕ => -(n : ℤ)
  | text => (readDigits b text).map fun n : ℕ => (n : ℤ)

theorem digitOf_digitChar : ∀ d : Fin 16, digitOf (digitChar d) = some d ∧ digitChar d ≠ 45 ∧
    digitChar d ≠ 0 := by
  decide

section Text

variable {b : ℕ} {v : ℤ} {ds : List ℕ} {text : Bytes}

theorem mapM_digitOf (hb : b ≤ 16) (hds : ∀ d ∈ ds, d < b) :
    (ds.map digitChar).mapM digitOf = some ds := by
  induction ds with
  | nil => rfl
  | cons d ds ih =>
    obtain ⟨hd, hds⟩ := List.forall_mem_cons.1 hds
    have hchar := (digitOf_digitChar ⟨d, by omega⟩).1
    dsimp only at hchar
    rw [List.map_cons, List.mapM_cons, hchar, ih hds]
    rfl

theorem readDigits_map (hb : b ≤ 16) (h : Numeral.Canonical b ds) :
    readDigits b (ds.map digitChar) = some (Numeral.value b ds) := by
  have hne : ds.map digitChar ≠ [] := by
    rw [ne_eq, List.map_eq_nil_iff]
    exact h.ne_nil
  rw [readDigits, if_neg hne, mapM_digitOf hb h.lt, Option.bind_some, if_pos h.lt]

/-- A numeral is read back as its number. -/
theorem IsNumeral.read (hb : b ≤ 16) (h : IsNumeral b v text) : readNumeral b text = some v := by
  obtain ⟨ds, hds, hvalue, rfl⟩ := h
  have hread := readDigits_map hb hds
  by_cases hv : v < 0
  · rw [if_pos hv]
    show readNumeral b (45 :: ds.map digitChar) = some v
    rw [readNumeral, hread, Option.map_some, hvalue]
    congr 1
    omega
  · rw [if_neg hv, List.nil_append]
    obtain ⟨d, rest, rfl⟩ := List.exists_cons_of_ne_nil hds.ne_nil
    have hd : digitChar d ≠ 45 :=
      (digitOf_digitChar ⟨d, by have := hds.lt d List.mem_cons_self; omega⟩).2.1
    rw [List.map_cons, readNumeral]
    · rw [← List.map_cons, hread, Option.map_some, hvalue]
      congr 1
      omega
    · rintro text htext
      exact hd (List.cons.inj htext).1

/-- There is no NUL in a numeral. -/
theorem IsNumeral.zero_notMem (hb : b ≤ 16) (h : IsNumeral b v text) : 0 ∉ text := by
  obtain ⟨ds, hds, -, rfl⟩ := h
  intro hmem
  rcases List.mem_append.1 hmem with hmem | hmem
  · split_ifs at hmem
    · exact absurd hmem (by decide)
    · exact absurd hmem List.not_mem_nil
  · obtain ⟨d, hd, hzero⟩ := List.mem_map.1 hmem
    exact (digitOf_digitChar ⟨d, by have := hds.lt d hd; omega⟩).2.2 hzero

end Text

/-! ### What the loop stores -/

namespace CharBuf

variable {pre rest : Bytes} {c x : UInt8}

theorem store_eq : store c ⟨pre ++ x :: rest, pre.length⟩ = .ok ⟨pre ++ c :: rest, pre.length⟩ := by
  have hlt : pre.length < (pre ++ x :: rest).length := by
    rw [List.length_append, List.length_cons]
    omega
  rw [store, if_pos hlt]
  simp

theorem push_eq : push c ⟨pre ++ x :: rest, pre.length⟩ =
    .ok ⟨(pre ++ [c]) ++ rest, (pre ++ [c]).length⟩ := by
  rw [push, store_eq, Outcome.bind_ok, List.length_append, List.append_assoc]
  rfl

theorem terminate_eq : terminate ⟨pre ++ x :: rest, pre.length⟩ =
    .ok ⟨pre.reverse ++ 0 :: rest, pre.length⟩ := by
  rw [terminate, store_eq, Outcome.bind_ok]
  simp

section Loop

variable {T : Type} [Integral T] {table : Bytes} {middle : ℤ} {base : T}

/-- The loop stores the numeral of the absolute value, from the last digit on. -/
theorem loop_eq {b : ℕ} (hb : Integral.value base = b) (hbase : 1 < Integral.value base)
    (htable : ∀ i : T, ∀ s : CharBuf,
      s.pushEntry table (middle + wrap32 (Integral.value (i % base))) =
        s.push (digitChar ((Integral.value i).natAbs % b)))
    (i : T) (pre rest : Bytes)
    (hroom : (Numeral.numeral b (Integral.value i).natAbs).length ≤ rest.length) :
    loop table middle base hbase i ⟨pre ++ rest, pre.length⟩ =
      let text := (Numeral.numeral b (Integral.value i).natAbs).reverse.map digitChar
      .ok ⟨(pre ++ text) ++ rest.drop text.length, (pre ++ text).length⟩ := by
  induction hm : (Integral.value i).natAbs using Nat.strong_induction_on
    generalizing i pre rest with
  | _ m ih =>
    subst hm
    have h1b : 1 < b := by omega
    obtain ⟨x, rest, rfl⟩ : ∃ x xs, rest = x :: xs := by
      cases rest with
      | nil =>
        have := List.length_pos_iff.2 (Numeral.numeral_ne_nil b (Integral.value i).natAbs)
        simp only [List.length_nil] at hroom
        omega
      | cons x xs => exact ⟨x, xs, rfl⟩
    have hdiv : (Integral.value (i / base)).natAbs = (Integral.value i).natAbs / b := by
      rw [Integral.value_div hbase, hb, Int.natAbs_tdiv, Int.natAbs_natCast]
      rfl
    rw [loop, htable, push_eq, Outcome.bind_ok]
    by_cases hzero : Integral.value (i / base) = 0
    · have hlt : (Integral.value i).natAbs < b := by
        rw [hzero, Int.natAbs_zero] at hdiv
        exact (Nat.div_eq_zero_iff_lt (by omega)).1 hdiv.symm
      rw [dif_neg (not_not.2 hzero), Numeral.numeral_of_lt hlt, Nat.mod_eq_of_lt hlt]
      simp
    · have hne : (Integral.value i).natAbs / b ≠ 0 := by
        rw [← hdiv]
        exact Int.natAbs_ne_zero.2 hzero
      have hdigits := Numeral.numeral_succ h1b hne
      rw [hdigits, List.length_append, List.length_singleton, List.length_cons] at hroom
      rw [dif_pos hzero, ih _ (natAbs_div_lt hbase hzero) _ _ _ (by rw [hdiv]; omega) rfl, hdiv,
        hdigits]
      simp

theorem pushEntry_eq {n : ℕ} {s : CharBuf} (h : table[n]? = some c) :
    s.pushEntry table n = s.push c := by
  obtain ⟨hlt, hget⟩ := List.getElem?_eq_some_iff.1 h
  rw [pushEntry, dif_pos ⟨Int.natCast_nonneg n, by rwa [Int.toNat_natCast]⟩]
  exact congrArg (push · s) hget

/-- `zero` has a digit for every remainder, negative ones too. -/
theorem digits_get : ∀ k : Fin 19, digits[k.1]? = some (digitChar (k.1 - 9 : ℤ).natAbs) := by decide

theorem digitsHex_get : ∀ k : Fin 16, digitsHex[k.1]? = some (digitChar k.1) := by decide

/-- `zero[i % 10]` is the last digit. -/
theorem zero_eq (i : ℤ) : zero (i.tmod 10) (tmod_ten i) = digitChar (i.natAbs % 10) := by
  have hlt := tmod_ten i
  have habs : (i.tmod 10).natAbs = i.natAbs % 10 := Int.natAbs_tmod i 10
  have hget := digits_get ⟨(9 + i.tmod 10).toNat, by omega⟩
  have hindex : (((9 + i.tmod 10).toNat : ℕ) : ℤ) = 9 + i.tmod 10 :=
    Int.toNat_of_nonneg (by omega)
  dsimp only at hget
  rw [hindex, add_sub_cancel_left, habs] at hget
  exact (List.getElem?_eq_some_iff.1 hget).2

/-- The table of `convert` at `zero[i % 10]`. -/
theorem pushEntry_digits (i : T) (s : CharBuf) :
    s.pushEntry digits (9 + wrap32 (Integral.value (i % Integral.ten))) =
      s.push (digitChar ((Integral.value i).natAbs % 10)) := by
  have hten : 1 < Integral.value (Integral.ten : T) := by
    rw [Integral.value_ten]
    decide
  have hlt := tmod_ten (Integral.value i)
  rw [Integral.value_mod hten, Integral.value_ten, wrap32_eq (by omega) (by omega), ← zero_eq]
  have hlen : digits.length = 19 := rfl
  rw [pushEntry, dif_pos ⟨by omega, by omega⟩]
  rfl

/-- The table of `convertHex` at `i % 16`. -/
theorem pushEntry_digitsHex (i : UInt64) (s : CharBuf) :
    s.pushEntry digitsHex (0 + wrap32 (Integral.value (i % 16))) =
      s.push (digitChar ((Integral.value i).natAbs % 16)) := by
  have hvalue : Integral.value (i % 16) = ((i.toNat % 16 : ℕ) : ℤ) := by
    show ((i % 16).toNat : ℤ) = _
    rw [UInt64.toNat_mod]
    rfl
  rw [hvalue, wrap32_eq (by omega) (by omega), zero_add]
  exact pushEntry_eq (digitsHex_get ⟨i.toNat % 16, Nat.mod_lt _ (by decide)⟩)

end Loop

end CharBuf

/-! ### The numerals of `LoggingStream.lean` -/

/-- The loop of `convert` finds the digits from the last one on. -/
theorem convertLoop_eq (i : ℤ) :
    convertLoop i = (Numeral.numeral 10 i.natAbs).reverse.map digitChar := by
  induction hm : i.natAbs using Nat.strong_induction_on generalizing i with
  | _ m ih =>
    subst hm
    have hdiv := natAbs_tdiv_ten i
    rw [convertLoop, CharBuf.zero_eq]
    by_cases hzero : i.tdiv 10 = 0
    · have hlt : i.natAbs < 10 := by
        rw [hzero, Int.natAbs_zero] at hdiv
        omega
      rw [if_pos hzero, Numeral.numeral_of_lt hlt, Nat.mod_eq_of_lt hlt]
      rfl
    · have hne : i.natAbs / 10 ≠ 0 := by omega
      rw [if_neg hzero, ih _ (by omega) (i.tdiv 10) rfl, hdiv,
        Numeral.numeral_succ (by decide) hne, List.reverse_append]
      rfl

theorem convertHexLoop_eq (n : ℕ) :
    convertHexLoop n = (Numeral.numeral 16 n).reverse.map digitChar := by
  induction n using Nat.strong_induction_on with
  | _ n ih =>
    have hget := CharBuf.digitsHex_get ⟨n % 16, Nat.mod_lt _ (by decide)⟩
    rw [convertHexLoop]
    refine (congrArg (· :: _) (List.getElem?_eq_some_iff.1 hget).2).trans ?_
    dsimp only
    by_cases hzero : n / 16 = 0
    · have hlt : n < 16 := by omega
      rw [if_pos hzero, Numeral.numeral_of_lt hlt, Nat.mod_eq_of_lt hlt]
      rfl
    · rw [if_neg hzero, ih _ (by omega), Numeral.numeral_succ (by decide) hzero,
        List.reverse_append]
      rfl

/-- `convert` gives the canonical decimal numeral. -/
theorem convert_isNumeral (v : ℤ) : IsNumeral 10 v (convert v) := by
  refine ⟨_, Numeral.numeral_canonical (by decide) v.natAbs, Numeral.value_numeral 10 _, ?_⟩
  rw [convert, convertLoop_eq, List.reverse_append, List.map_reverse, List.reverse_reverse]
  split_ifs <;> rfl

/-- `convertHex` gives the canonical hexadecimal numeral. -/
theorem convertHex_isNumeral (n : ℕ) : IsNumeral 16 n (convertHex n) := by
  refine ⟨_, Numeral.numeral_canonical (by decide) n, Numeral.value_numeral 16 _, ?_⟩
  rw [convertHex, convertHexLoop_eq, List.map_reverse, List.reverse_reverse,
    if_neg (by omega), List.nil_append]

namespace CharBuf

/-- What is in the buffer after a conversion: a text and a NUL, and then what was there before; `p`
is at the NUL. -/
def holding (buf text : Bytes) : CharBuf := ⟨text ++ 0 :: buf.drop (text.length + 1), text.length⟩

variable {T : Type} [Integral T]

/-- A text that is stored from its end on, reversed and terminated. -/
theorem terminate_holding (buf text : Bytes) (h : text.length < buf.length) :
    terminate ⟨text.reverse ++ buf.drop text.length, text.length⟩ = .ok (holding buf text) := by
  obtain ⟨x, hx⟩ : ∃ x, buf.drop text.length = x :: buf.drop (text.length + 1) :=
    ⟨_, List.drop_eq_getElem_cons h⟩
  have hterminate : terminate ⟨text.reverse ++ x :: buf.drop (text.length + 1),
      text.reverse.length⟩ = _ := terminate_eq
  rw [List.length_reverse, List.reverse_reverse] at hterminate
  rw [hx, hterminate]
  rfl

/-- `convert` writes the numeral of `LoggingStream.lean`. -/
theorem convert_eq {buf : Bytes} (h : 21 ≤ buf.length) (v : T) :
    convert buf v = .ok (holding buf (Jiangbo.convert (Integral.value v))) := by
  have hmin := Integral.min_le v
  have hmax := Integral.lt_max v
  have hlength := convert_length (v := Integral.value v) (by omega) (by omega)
  have hten : 1 < Integral.value (Integral.ten : T) := by
    rw [Integral.value_ten]
    decide
  have hroom : (convertLoop (Integral.value v)).length < buf.length := by
    rw [Jiangbo.convert, List.length_reverse, List.length_append] at hlength
    omega
  have hloop := loop_eq (b := 10) Integral.value_ten hten pushEntry_digits v [] buf (by
    rw [convertLoop_eq, List.length_map, List.length_reverse] at hroom
    exact hroom.le)
  rw [← convertLoop_eq] at hloop
  simp only [List.nil_append, List.length_nil] at hloop
  rw [convert, hloop, Outcome.bind_ok]
  by_cases hneg : Integral.value v < 0
  · have hminus : (ascii "-").length = 1 := rfl
    rw [Jiangbo.convert, if_pos hneg] at hlength ⊢
    rw [List.length_reverse, List.length_append] at hlength
    obtain ⟨x, hx⟩ : ∃ x, buf.drop (convertLoop (Integral.value v)).length =
        x :: buf.drop ((convertLoop (Integral.value v)).length + 1) :=
      ⟨_, List.drop_eq_getElem_cons hroom⟩
    rw [if_pos hneg, hx, push_eq, Outcome.bind_ok]
    have hterminate := terminate_holding buf (convertLoop (Integral.value v) ++ ascii "-").reverse
      (by rw [List.length_reverse, List.length_append]; omega)
    rw [List.reverse_reverse, List.length_reverse, List.length_append, hminus] at hterminate
    rw [List.length_append]
    exact hterminate
  · rw [if_neg hneg, Outcome.bind_ok, Jiangbo.convert, if_neg hneg, List.append_nil]
    have hterminate := terminate_holding buf (convertLoop (Integral.value v)).reverse
      (by rwa [List.length_reverse])
    rw [List.reverse_reverse, List.length_reverse] at hterminate
    exact hterminate

/-- `convertHex` writes the numeral of `LoggingStream.lean`. -/
theorem convertHex_eq {buf : Bytes} (h : 17 ≤ buf.length) (value : UInt64) :
    convertHex buf value = .ok (holding buf (Jiangbo.convertHex value.toNat)) := by
  have hlength := convertHex_length value
  rw [Jiangbo.convertHex, List.length_reverse] at hlength
  have hbase : Integral.value (16 : UInt64) = (16 : ℕ) := rfl
  have hloop := loop_eq hbase (by decide) pushEntry_digitsHex value [] buf (by
      rw [convertHexLoop_eq, List.length_map, List.length_reverse] at hlength
      exact hlength.trans (by omega))
  rw [show (Integral.value value).natAbs = value.toNat from rfl, ← convertHexLoop_eq] at hloop
  simp only [List.nil_append, List.length_nil] at hloop
  rw [convertHex, hloop, Outcome.bind_ok]
  have hterminate := terminate_holding buf (convertHexLoop value.toNat).reverse
    (by rw [List.length_reverse]; omega)
  rw [List.reverse_reverse, List.length_reverse] at hterminate
  exact hterminate

/-- `formatInteger` is `convert` at `current()`, and `add` of its length. -/
theorem formatInteger_eq_convert {b : LoggingStream} (h : b.avail ≥ kMaxNumericSize) (v : T) :
    ∃ b' s, LoggingStream.formatInteger (Integral.value v) b = .ok b' ∧
      convert (b.data.drop b.cur) v = .ok s ∧ b'.data = b.data.take b.cur ++ s.bytes ∧
      b'.cur = b.cur + s.p := by
  have hmin := Integral.min_le v
  have hmax := Integral.lt_max v
  have hlength := convert_length (v := Integral.value v) (by omega) (by omega)
  have hdata := b.length_data
  have hroom : b.cur + 32 ≤ kMinBufferSize := by
    unfold FixedBuffer.avail kMaxNumericSize at h
    omega
  have hconvert : convert (b.data.drop b.cur) v = _ :=
    convert_eq (by rw [List.length_drop]; omega) v
  have hwrite : b.cur + (Jiangbo.convert (Integral.value v) ++ [0]).length ≤ kMinBufferSize := by
    rw [List.length_append, List.length_singleton]
    omega
  rw [LoggingStream.formatInteger, LoggingStream.putNumeric, if_pos h, FixedBuffer.write,
    if_pos hwrite, Outcome.bind_ok]
  refine ⟨_, _, rfl, hconvert, ?_, rfl⟩
  show Copy.overwrite b.data b.cur _ = _
  rw [Copy.overwrite_eq (by rw [hdata]; exact hwrite), holding, List.drop_drop,
    List.length_append, List.length_singleton]
  simp only [List.append_assoc, List.singleton_append]

/-- What a conversion should do: the buffer holds the canonical numeral of `v`, of at most `size`
characters, and a NUL, which is the first one and where `p` is; the numeral is read back as `v`, and
the rest of the buffer is as before. -/
def Renders (b : ℕ) (v : ℤ) (size : ℕ) (buf : Bytes) (o : Result CharBuf) : Prop :=
  ∃ text, o = .ok ⟨text ++ 0 :: buf.drop (text.length + 1), text.length⟩ ∧
    IsNumeral b v text ∧ readNumeral b text = some v ∧ 0 ∉ text ∧ text.length ≤ size

theorem Renders.of_holding {b size : ℕ} {v : ℤ} {buf text : Bytes} {o : Result CharBuf}
    (hb : b ≤ 16) (ho : o = .ok (holding buf text)) (h : IsNumeral b v text)
    (hsize : text.length ≤ size) : Renders b v size buf o :=
  ⟨text, ho, h, h.read hb, h.zero_notMem hb, hsize⟩

theorem convert_renders {buf : Bytes} (h : 21 ≤ buf.length) (v : T) :
    Renders 10 (Integral.value v) 20 buf (convert buf v) := by
  have hmin := Integral.min_le v
  have hmax := Integral.lt_max v
  exact .of_holding (by decide) (convert_eq h v) (convert_isNumeral _)
    (convert_length (by omega) (by omega))

theorem convertHex_renders {buf : Bytes} (h : 17 ≤ buf.length) (value : UInt64) :
    Renders 16 value.toNat 16 buf (convertHex buf value) :=
  .of_holding (by decide) (convertHex_eq h value) (convertHex_isNumeral _) (convertHex_length value)

end CharBuf

/-- **Integers are rendered exactly.** Whatever is in the buffer, `convert` of an `int`, an
`unsigned int`, a `long` or `long long` and an `unsigned long`, and `convertHex` of a `uintptr_t`,
leave the numeral of the value there. -/
theorem integer_rendering (buf : Bytes) (h : 21 ≤ buf.length) :
    (∀ v : Int32, CharBuf.Renders 10 v.toInt 20 buf (CharBuf.convert buf v)) ∧
      (∀ v : UInt32, CharBuf.Renders 10 v.toNat 20 buf (CharBuf.convert buf v)) ∧
      (∀ v : Int64, CharBuf.Renders 10 v.toInt 20 buf (CharBuf.convert buf v)) ∧
      (∀ v : UInt64, CharBuf.Renders 10 v.toNat 20 buf (CharBuf.convert buf v)) ∧
      ∀ value : UInt64, CharBuf.Renders 16 value.toNat 16 buf (CharBuf.convertHex buf value) :=
  ⟨CharBuf.convert_renders h, CharBuf.convert_renders h, CharBuf.convert_renders h,
    CharBuf.convert_renders h, CharBuf.convertHex_renders (by omega)⟩

/-- The smallest `long`. -/
theorem integer_rendering_min :
    CharBuf.convert (List.replicate 32 7) Int64.minValue =
        .ok ⟨ascii "-9223372036854775808" ++ 0 :: List.replicate 11 7, 20⟩ ∧
      CharBuf.Renders 10 (-9223372036854775808) 20 (List.replicate 32 7)
        (CharBuf.convert (List.replicate 32 7) Int64.minValue) :=
  ⟨by decide +kernel, (integer_rendering (List.replicate 32 7) (by decide)).2.2.1 Int64.minValue⟩

end Jiangbo
