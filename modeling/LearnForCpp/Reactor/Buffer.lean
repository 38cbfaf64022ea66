import LearnForCpp.Fault
import LearnForCpp.Lib.Copy
import LearnForCpp.Lib.Word

/-!
# Buffer

`reactor/Buffer.h` and `reactor/Buffer.cc`: a vector of bytes with a reader index and a writer
index.  The bytes between the two are the readable ones; the front is slack for `prepend`, the
back is room for `append`.

The indices are `size_t` and every sum and difference is taken modulo `2 ^ 64`, as the code does.
A pointer into the buffer is its index.  Each operation is a statement on the buffer that may end
in a fault: an `assert`, the `std::length_error` of `resize`, or a copy outside the vector.

The specifications at the end are the only facts about the operations that the rest uses:
on a well-formed buffer each operation keeps `WF` and says what becomes of `content`.
-/

namespace Jiangbo

/-- A string of bytes. -/
abbrev Bytes := List UInt8

/-- `std::vector<char>::max_size()`. -/
def maxSize : ℕ := 2 ^ 63 - 1

/-- `std::vector<char>`: its bytes, never more than `max_size()`. -/
structure CharVector where
  bytes : Bytes
  size_le : bytes.length ≤ maxSize
  deriving DecidableEq

namespace CharVector

def size (v : CharVector) : ℕ := v.bytes.length

/-- `resize(n)`: cut or filled with zeros; `none` when it throws `std::length_error`. -/
def resize (v : CharVector) (n : ℕ) : Option CharVector :=
  if h : n ≤ maxSize then
    some ⟨v.bytes.take n ++ List.replicate (n - v.size) 0, by
      have := List.length_take_le n v.bytes
      simp only [List.length_append, List.length_take, List.length_replicate, size]; omega⟩
  else none

/-- `std::vector<char>(n)`; `none` when it throws `std::length_error`. -/
def ofSize (n : ℕ) : Option CharVector :=
  if h : n ≤ maxSize then some ⟨List.replicate n 0, by rwa [List.length_replicate]⟩ else none

/-- `std::copy(data, data + len, begin() + dst)`. -/
def overwrite (v : CharVector) (dst : ℕ) (data : Bytes) : CharVector :=
  ⟨Copy.overwrite v.bytes dst data, by rw [Copy.overwrite_length]; exact v.size_le⟩

/-- `std::copy(begin() + src, begin() + src + n, begin() + dst)`. -/
def copyForward (v : CharVector) (src dst n : ℕ) : CharVector :=
  ⟨Copy.copyForward v.bytes src dst n, by rw [Copy.copyForward_length]; exact v.size_le⟩

@[simp] theorem overwrite_size (v : CharVector) (dst : ℕ) (data : Bytes) :
    (v.overwrite dst data).size = v.size := Copy.overwrite_length _ _ _

@[simp] theorem copyForward_size (v : CharVector) (src dst n : ℕ) :
    (v.copyForward src dst n).size = v.size := Copy.copyForward_length _ _ _ _

theorem size_le_maxSize (v : CharVector) : v.size ≤ maxSize := v.size_le

/-- A `resize` that does not shrink keeps the bytes. -/
theorem resize_of_le {v : CharVector} {n : ℕ} (hv : v.size ≤ n) (hn : n ≤ maxSize) :
    ∃ u, v.resize n = some u ∧ u.bytes = v.bytes ++ List.replicate (n - v.size) 0 := by
  refine ⟨_, dif_pos hn, ?_⟩
  simp only [size] at hv ⊢
  rw [List.take_of_length_le hv]

theorem resize_of_gt {v : CharVector} {n : ℕ} (hn : maxSize < n) : v.resize n = none :=
  dif_neg (by omega)

end CharVector

/-- `Buffer`. -/
structure Buffer where
  buffer : CharVector
  readerIndex : ℕ
  writerIndex : ℕ
  deriving DecidableEq

namespace Buffer

def kCheapPrepend : ℕ := 8
def kInitialSize : ℕ := 1024

/-- The size of `extrabuf` in `readFd`. -/
def kExtraSize : ℕ := 65536

/-- The default constructor. -/
def new : Buffer where
  buffer := ⟨List.replicate (kCheapPrepend + kInitialSize) 0, by
    rw [List.length_replicate]; decide⟩
  readerIndex := kCheapPrepend
  writerIndex := kCheapPrepend

/-- `swap(rhs)`: both buffers after the call. -/
def swap (b rhs : Buffer) : Buffer × Buffer :=
  (⟨rhs.buffer, rhs.readerIndex, rhs.writerIndex⟩, ⟨b.buffer, b.readerIndex, b.writerIndex⟩)

def readableBytes (b : Buffer) : ℕ := SizeT.sub b.writerIndex b.readerIndex
def writableBytes (b : Buffer) : ℕ := SizeT.sub b.buffer.size b.writerIndex
def prependableBytes (b : Buffer) : ℕ := b.readerIndex

/-- The bytes a caller sees through `peek()` and `readableBytes()`. -/
def content (b : Buffer) : Bytes := (b.buffer.bytes.drop b.readerIndex).take b.readableBytes

def retrieve (len : ℕ) (b : Buffer) : Result Buffer :=
  (Outcome.check (len ≤ b.readableBytes) (.assertion .retrieveLen) b).bind fun b =>
    .ok { b with readerIndex := SizeT.add b.readerIndex len }

/-- `retrieveUntil(end)`, where `last` is the index of `end`. -/
def retrieveUntil (last : ℕ) (b : Buffer) : Result Buffer :=
  (Outcome.check (b.readerIndex ≤ last) (.assertion .retrieveUntilPeek) b).bind fun b =>
    (Outcome.check (last ≤ b.writerIndex) (.assertion .retrieveUntilBeginWrite) b).bind fun b =>
      b.retrieve (last - b.readerIndex)

def retrieveAll (b : Buffer) : Buffer :=
  { b with readerIndex := kCheapPrepend, writerIndex := kCheapPrepend }

/-- `retrieveAsString()`: the string and the buffer after it. -/
def retrieveAsString (b : Buffer) : Bytes × Buffer := (b.content, b.retrieveAll)

/-- The copy of the readable bytes down to `kCheapPrepend`, and the indices after it. -/
def moveToFront (b : Buffer) : Buffer where
  buffer := b.buffer.copyForward b.readerIndex kCheapPrepend (b.writerIndex - b.readerIndex)
  readerIndex := kCheapPrepend
  writerIndex := SizeT.add kCheapPrepend b.readableBytes

def makeSpace (len : ℕ) (b : Buffer) : Result Buffer :=
  if SizeT.add b.writableBytes b.prependableBytes < SizeT.add len kCheapPrepend then
    -- too little room even with what was read: the vector grows
    match b.buffer.resize (SizeT.add b.writerIndex len) with
    | some v => .ok { b with buffer := v }
    | none => .fault .lengthError b
  else
    -- the readable bytes move down to the front
    (Outcome.check (kCheapPrepend < b.readerIndex) (.assertion .makeSpaceReader) b).bind fun b =>
      (Outcome.check (b.readerIndex ≤ b.writerIndex ∧ b.writerIndex ≤ b.buffer.size)
        .outOfBounds b).bind fun b =>
        Outcome.check (b.readableBytes = b.moveToFront.readableBytes)
          (.assertion .makeSpaceReadable) b.moveToFront

def ensureWritableBytes (len : ℕ) (b : Buffer) : Result Buffer :=
  (if b.writableBytes < len then b.makeSpace len else .ok b).bind fun b =>
    Outcome.check (len ≤ b.writableBytes) (.assertion .ensureWritable) b

def hasWritten (len : ℕ) (b : Buffer) : Buffer :=
  { b with writerIndex := SizeT.add b.writerIndex len }

/-- A caller's store of `data` at `beginWrite()`. -/
def store (data : Bytes) (b : Buffer) : Result Buffer :=
  (Outcome.check (b.writerIndex + data.length ≤ b.buffer.size) .outOfBounds b).bind fun b =>
    .ok { b with buffer := b.buffer.overwrite b.writerIndex data }

def append (data : Bytes) (b : Buffer) : Result Buffer :=
  (b.ensureWritableBytes data.length).bind fun b =>
    (b.store data).bind fun b => .ok (b.hasWritten data.length)

def prepend (data : Bytes) (b : Buffer) : Result Buffer :=
  (Outcome.check (data.length ≤ b.prependableBytes) (.assertion .prependLen) b).bind fun b =>
    let b := { b with readerIndex := SizeT.sub b.readerIndex data.length }
    (Outcome.check (b.readerIndex + data.length ≤ b.buffer.size) .outOfBounds b).bind fun b =>
      .ok { b with buffer := b.buffer.overwrite b.readerIndex data }

/-- `shrink(reserve)`: the readable bytes move to a new vector, and the indices stay. -/
def shrink (reserve : ℕ) (b : Buffer) : Result Buffer :=
  match CharVector.ofSize (SizeT.add (SizeT.add kCheapPrepend b.readableBytes) reserve) with
  | some buf =>
      (Outcome.check (b.readerIndex ≤ b.writerIndex ∧ b.writerIndex ≤ b.buffer.size ∧
        kCheapPrepend + b.readableBytes ≤ buf.size) .outOfBounds b).bind fun b =>
          .ok { b with buffer := buf.overwrite kCheapPrepend b.content }
  | none => .fault .lengthError b

/-- `readFd`, where `received` is what `readv` stored, or `none` when it failed: the bytes go to
the tail of `buffer_` first, and what does not fit there went to `extrabuf`. -/
def readFd (received : Option Bytes) (b : Buffer) : Result Buffer :=
  let writable := b.writableBytes
  match received with
  | none => .ok b
  | some data =>
    -- `readv` fills the vector before `extrabuf`
    (b.store (data.take writable)).bind fun b =>
      if data.length ≤ writable then
        .ok { b with writerIndex := SizeT.add b.writerIndex data.length }
      else append (data.drop writable) { b with writerIndex := b.buffer.size }

/-! ### Well-formed buffers -/

/-- `readerIndex_ <= writerIndex_ <= buffer_.size()`. -/
structure WF (b : Buffer) : Prop where
  reader_le : b.readerIndex ≤ b.writerIndex
  writer_le : b.writerIndex ≤ b.buffer.size

theorem maxSize_lt_max : maxSize < SizeT.max := by decide

variable {b : Buffer}

theorem WF.writer_le_max (h : b.WF) : b.writerIndex ≤ SizeT.max := by
  have := h.writer_le; have := b.buffer.size_le_maxSize; have := maxSize_lt_max; omega

theorem WF.readableBytes_eq (h : b.WF) : b.readableBytes = b.writerIndex - b.readerIndex :=
  SizeT.sub_eq h.reader_le h.writer_le_max

theorem WF.writableBytes_eq (h : b.WF) : b.writableBytes = b.buffer.size - b.writerIndex :=
  SizeT.sub_eq h.writer_le (b.buffer.size_le_maxSize.trans maxSize_lt_max.le)

theorem WF.content_eq (h : b.WF) :
    b.content = (b.buffer.bytes.drop b.readerIndex).take (b.writerIndex - b.readerIndex) := by
  rw [content, h.readableBytes_eq]

theorem WF.content_length (h : b.WF) : b.content.length = b.readableBytes := by
  have h1 := h.reader_le
  have h2 := h.writer_le
  rw [h.content_eq, h.readableBytes_eq, List.length_take, List.length_drop]
  simp only [CharVector.size] at h2
  omega

/-- No byte is readable exactly when `readableBytes()` is zero. -/
theorem WF.readableBytes_eq_zero (h : b.WF) : b.readableBytes = 0 ↔ b.content = [] := by
  rw [← h.content_length, List.length_eq_zero_iff]

@[simp] theorem new_size : new.buffer.size = kCheapPrepend + kInitialSize := List.length_replicate

theorem new_wf : new.WF :=
  ⟨le_rfl, by rw [new_size]; exact Nat.le_add_right _ _⟩

theorem new_content : new.content = [] := new_wf.readableBytes_eq_zero.1 (by decide)

/-! ### The operations -/

/-- A normal end of an operation on `b`: well formed, no smaller, with the readable bytes `q`. -/
structure After (b : Buffer) (q : Bytes) (b' : Buffer) : Prop where
  wf : b'.WF
  size_le : b.buffer.size ≤ b'.buffer.size
  content_eq : b'.content = q

theorem retrieveAll_spec (h : kCheapPrepend ≤ b.buffer.size) : b.After [] b.retrieveAll := by
  have hwf : b.retrieveAll.WF := ⟨le_rfl, h⟩
  exact ⟨hwf, le_rfl, by rw [hwf.content_eq]; simp [retrieveAll]⟩

theorem retrieve_spec (h : b.WF) {len : ℕ} (hlen : len ≤ b.readableBytes) :
    ∃ b', b.retrieve len = .ok b' ∧ b.After (b.content.drop len) b' := by
  have h1 := h.reader_le
  have h2 := h.writer_le_max
  rw [h.readableBytes_eq] at hlen
  have hadd : SizeT.add b.readerIndex len = b.readerIndex + len := SizeT.add_eq (by omega)
  have hwf : ({ b with readerIndex := b.readerIndex + len } : Buffer).WF :=
    ⟨by simp only; omega, h.writer_le⟩
  refine ⟨{ b with readerIndex := b.readerIndex + len }, ?_, hwf, le_rfl, ?_⟩
  · rw [retrieve, Outcome.check_pos (by rw [h.readableBytes_eq]; simpa using hlen),
      Outcome.bind_ok, hadd]
  · rw [hwf.content_eq, h.content_eq, List.drop_take, List.drop_drop]
    congr 1
    simp only
    omega

theorem retrieveUntil_spec (h : b.WF) {len : ℕ} (hlen : len ≤ b.readableBytes) :
    ∃ b', b.retrieveUntil (b.readerIndex + len) = .ok b' ∧ b.After (b.content.drop len) b' := by
  obtain ⟨b', hb', hspec⟩ := retrieve_spec h hlen
  rw [h.readableBytes_eq] at hlen
  have h1 := h.reader_le
  refine ⟨b', ?_, hspec⟩
  rw [retrieveUntil, Outcome.check_pos (by simp), Outcome.bind_ok,
    Outcome.check_pos (by simp only [decide_eq_true_eq]; omega), Outcome.bind_ok,
    Nat.add_sub_cancel_left]
  exact hb'

/-- Storing at `beginWrite()` does not touch the readable bytes. -/
theorem store_spec (h : b.WF) (data : Bytes) (hlen : data.length ≤ b.writableBytes) :
    ∃ b', b.store data = .ok b' ∧ b'.readerIndex = b.readerIndex ∧
      b'.writerIndex = b.writerIndex ∧ b'.buffer.size = b.buffer.size ∧
      b'.buffer.bytes = b.buffer.bytes.take b.writerIndex ++ data ++
        b.buffer.bytes.drop (b.writerIndex + data.length) := by
  have h1 := h.writer_le
  rw [h.writableBytes_eq] at hlen
  refine ⟨{ b with buffer := b.buffer.overwrite b.writerIndex data }, ?_, rfl, rfl, by simp, ?_⟩
  · rw [store, Outcome.check_pos (by simp only [decide_eq_true_eq]; omega), Outcome.bind_ok]
  · exact Copy.overwrite_eq (by simp only [CharVector.size] at *; omega)

/-- What `hasWritten` announces becomes readable. -/
theorem store_hasWritten_spec (h : b.WF) (data : Bytes) (len : ℕ) (hlen : len ≤ data.length)
    (hroom : data.length ≤ b.writableBytes) :
    ∃ b', ((b.store data).bind fun b => .ok (b.hasWritten len)) = .ok b' ∧
      b.After (b.content ++ data.take len) b' := by
  obtain ⟨b', hb', hr, hw, hs, hbytes⟩ := store_spec h data hroom
  have h1 := h.reader_le
  have h2 := h.writer_le
  have h3 := b.buffer.size_le_maxSize
  have h4 := maxSize_lt_max
  rw [h.writableBytes_eq] at hroom
  have hadd : SizeT.add b'.writerIndex len = b.writerIndex + len := by
    rw [hw]; exact SizeT.add_eq (by omega)
  have hwf : (b'.hasWritten len).WF :=
    ⟨by simp only [hasWritten, hadd]; omega, by simp only [hasWritten, hadd]; omega⟩
  refine ⟨b'.hasWritten len, by rw [hb', Outcome.bind_ok], hwf, ?_, ?_⟩
  · simp only [hasWritten]; omega
  · have hlen' : b.writerIndex ≤ b.buffer.bytes.length := h2
    have htake : (b.buffer.bytes.take b.writerIndex).length = b.writerIndex := by
      rw [List.length_take]; omega
    rw [hwf.content_eq, h.content_eq]
    simp only [hasWritten, hadd, hr, hbytes]
    rw [List.append_assoc, List.drop_append_of_le_length (by omega), List.drop_take,
      show b.writerIndex + len - b.readerIndex =
        ((b.buffer.bytes.drop b.readerIndex).take (b.writerIndex - b.readerIndex)).length + len by
          rw [List.length_take, List.length_drop]; omega,
      List.take_length_add_append, List.take_append_of_le_length hlen]

/-- The move down, over a possible overlap, keeps the readable bytes. -/
theorem moveToFront_spec (h : b.WF) (hk : kCheapPrepend ≤ b.readerIndex) :
    b.After b.content b.moveToFront ∧
      b.moveToFront.writerIndex = kCheapPrepend + (b.writerIndex - b.readerIndex) := by
  have h1 := h.reader_le
  have h2 := h.writer_le
  have hadd : b.moveToFront.writerIndex = kCheapPrepend + (b.writerIndex - b.readerIndex) := by
    have := h.writer_le_max
    rw [moveToFront, h.readableBytes_eq]
    exact SizeT.add_eq (by omega)
  have hwf : b.moveToFront.WF :=
    ⟨by rw [hadd]; exact Nat.le_add_right _ _, by
      rw [hadd, moveToFront, CharVector.copyForward_size]; omega⟩
  refine ⟨⟨hwf, by simp [moveToFront], ?_⟩, hadd⟩
  simp only [CharVector.size] at h2
  rw [hwf.content_eq, h.content_eq, hadd]
  simp only [moveToFront, CharVector.copyForward]
  rw [Copy.copyForward_eq hk (by omega), List.append_assoc,
    List.drop_append_of_le_length (by rw [List.length_take]; omega), List.drop_take,
    Nat.sub_self, List.take_zero, List.nil_append, Nat.add_sub_cancel_left,
    List.take_append_of_le_length (by rw [List.length_take, List.length_drop]; omega),
    List.take_take, Nat.min_self]

/-- The two ways `makeSpace` ends when space is needed and no sum wraps. -/
theorem makeSpace_spec (h : b.WF) {len : ℕ} (hneed : b.writableBytes < len)
    (hsum : b.writerIndex + len ≤ SizeT.max) (hcheap : len + kCheapPrepend ≤ SizeT.max) :
    (b.makeSpace len).Ends (fun b' => b.After b.content b' ∧ len ≤ b'.writableBytes)
      (fun e b' => e = .lengthError ∧ b' = b ∧ maxSize < b.writerIndex + len) := by
  have h1 := h.reader_le
  have h2 := h.writer_le
  have h3 := b.buffer.size_le_maxSize
  have h4 := maxSize_lt_max
  have hw := h.writableBytes_eq
  have hfree : SizeT.add b.writableBytes b.prependableBytes =
      b.writableBytes + b.readerIndex := SizeT.add_eq (by unfold prependableBytes; omega)
  rw [makeSpace, hfree, SizeT.add_eq hcheap, SizeT.add_eq hsum]
  split_ifs with hgrow
  · -- the vector grows; the readable bytes stay where they are
    by_cases hmax : b.writerIndex + len ≤ maxSize
    · obtain ⟨v, hv, hbytes⟩ := CharVector.resize_of_le (v := b.buffer)
        (n := b.writerIndex + len) (by omega) hmax
      rw [hv]
      have hsize : v.size = b.writerIndex + len := by
        rw [CharVector.size, hbytes, List.length_append, List.length_replicate]
        simp only [CharVector.size] at *; omega
      have hwf : ({ b with buffer := v } : Buffer).WF := ⟨h1, by simp only [hsize]; omega⟩
      refine ⟨⟨hwf, by simp only [hsize]; omega, ?_⟩, ?_⟩
      · rw [hwf.content_eq, h.content_eq]
        simp only [hbytes]
        simp only [CharVector.size] at h2
        rw [List.drop_append_of_le_length (by omega),
          List.take_append_of_le_length (by rw [List.length_drop]; omega)]
      · rw [hwf.writableBytes_eq]; simp only [hsize]; omega
    · rw [CharVector.resize_of_gt (by omega)]
      exact ⟨rfl, rfl, by omega⟩
  · -- enough slack in front: the readable bytes move down, over a possible overlap
    have hk : kCheapPrepend < b.readerIndex := by omega
    obtain ⟨hafter, hwi⟩ := moveToFront_spec h hk.le
    have hroom := hafter.wf.writableBytes_eq
    have hsize := hafter.size_le
    rw [Outcome.check_pos (by simpa using hk), Outcome.bind_ok,
      Outcome.check_pos (by simpa using ⟨h1, h2⟩), Outcome.bind_ok,
      Outcome.check_pos (by
        simp only [decide_eq_true_eq]
        rw [← hafter.wf.content_length, hafter.content_eq, h.content_length])]
    exact ⟨hafter, by omega⟩

/-- `ensureWritableBytes` leaves the readable bytes alone, whichever way it ends. -/
theorem ensureWritableBytes_spec (h : b.WF) {len : ℕ}
    (hsum : b.writerIndex + len ≤ SizeT.max) (hcheap : len + kCheapPrepend ≤ SizeT.max) :
    (b.ensureWritableBytes len).Ends (fun b' => b.After b.content b' ∧ len ≤ b'.writableBytes)
      (fun e b' => e = .lengthError ∧ b' = b ∧ maxSize < b.writerIndex + len) := by
  have hspace : (if b.writableBytes < len then b.makeSpace len else .ok b).Ends
      (fun b' => b.After b.content b' ∧ len ≤ b'.writableBytes)
      (fun e b' => e = .lengthError ∧ b' = b ∧ maxSize < b.writerIndex + len) := by
    split_ifs with hneed
    · exact makeSpace_spec h hneed hsum hcheap
    · exact ⟨⟨h, le_rfl, rfl⟩, by omega⟩
  refine hspace.bind fun b' hb' => ?_
  rw [Outcome.check_pos (by simpa using hb'.2)]
  exact hb'

/-- `append` adds exactly the given bytes at the end. -/
theorem append_spec (h : b.WF) (data : Bytes) (hsum : b.writerIndex + data.length ≤ SizeT.max)
    (hcheap : data.length + kCheapPrepend ≤ SizeT.max) :
    (b.append data).Ends (b.After (b.content ++ data))
      (fun e b' => e = .lengthError ∧ b' = b ∧ maxSize < b.writerIndex + data.length) := by
  refine (ensureWritableBytes_spec h hsum hcheap).bind fun b1 ⟨hafter, hroom⟩ => ?_
  obtain ⟨b2, hb2, hspec⟩ := store_hasWritten_spec hafter.wf data _ le_rfl hroom
  rw [hb2, List.take_length, hafter.content_eq] at *
  exact ⟨hspec.wf, hafter.size_le.trans hspec.size_le, hspec.content_eq⟩

/-- `prepend` adds exactly the given bytes at the front. -/
theorem prepend_spec (h : b.WF) {data : Bytes} (hlen : data.length ≤ b.prependableBytes) :
    ∃ b', b.prepend data = .ok b' ∧ b.After (data ++ b.content) b' := by
  have h1 := h.reader_le
  have h2 := h.writer_le
  have hle : data.length ≤ b.readerIndex := hlen
  have hsub : SizeT.sub b.readerIndex data.length = b.readerIndex - data.length :=
    SizeT.sub_eq hle (h1.trans h.writer_le_max)
  have hback : b.readerIndex - data.length + data.length = b.readerIndex := by omega
  have hwf : ({ b with
      buffer := b.buffer.overwrite (b.readerIndex - data.length) data
      readerIndex := b.readerIndex - data.length } : Buffer).WF :=
    ⟨by simp only; omega, by simpa using h2⟩
  refine ⟨_, ?_, hwf, by simp, ?_⟩
  · rw [prepend, Outcome.check_pos (decide_eq_true hlen), Outcome.bind_ok]
    simp only [hsub]
    rw [Outcome.check_pos (by simp only [decide_eq_true_eq]; omega), Outcome.bind_ok]
  · rw [hwf.content_eq, h.content_eq]
    simp only [CharVector.overwrite, CharVector.size] at h2 ⊢
    rw [Copy.overwrite_eq (by omega), hback, List.append_assoc,
      List.drop_append_of_le_length (by rw [List.length_take]; omega), List.drop_take,
      Nat.sub_self, List.take_zero, List.nil_append,
      show b.writerIndex - (b.readerIndex - data.length) =
        data.length + (b.writerIndex - b.readerIndex) by omega, List.take_length_add_append]

/-- `readFd` adds exactly the received bytes at the end, wherever `readv` put them. -/
theorem readFd_spec (h : b.WF) {data : Bytes} (hlen : data.length ≤ b.writableBytes + kExtraSize) :
    (b.readFd (some data)).Ends (b.After (b.content ++ data))
      (fun e _ => e = .lengthError ∧ maxSize < b.writerIndex + data.length) := by
  have h2 := h.writer_le
  have h3 := b.buffer.size_le_maxSize
  have hk : kExtraSize + kCheapPrepend + maxSize ≤ SizeT.max := by decide
  have hw := h.writableBytes_eq
  by_cases hfit : data.length ≤ b.writableBytes
  · obtain ⟨b', hb', hspec⟩ := store_hasWritten_spec h data _ le_rfl hfit
    have heq : b.readFd (some data) = .ok b' := by
      simp only [readFd, List.take_of_length_le hfit, if_pos hfit]
      exact hb'
    rw [heq, List.take_length] at *
    exact hspec
  · -- the tail of the vector is filled and the spill is appended
    have htake : (data.take b.writableBytes).length = b.writableBytes := by
      rw [List.length_take]; omega
    obtain ⟨b1, hb1, hspec⟩ := store_hasWritten_spec h
      (data.take b.writableBytes) b.writableBytes htake.ge htake.le
    obtain ⟨b2, hb2, -, hw2, hs2, -⟩ := store_spec h (data.take b.writableBytes) htake.le
    rw [hb2, Outcome.bind_ok, Outcome.ok.injEq] at hb1
    have hb1' : b1 = { b2 with writerIndex := b2.buffer.size } := by
      rw [← hb1]
      simp only [hasWritten, hw2, hs2, Buffer.mk.injEq, true_and]
      rw [SizeT.add_eq (by omega)]; omega
    have heq : b.readFd (some data) = b1.append (data.drop b.writableBytes) := by
      simp only [readFd, hb2, Outcome.bind_ok, if_neg hfit, hb1']
    have hwi : b1.writerIndex = b.buffer.size := by rw [hb1']; exact hs2
    rw [heq]
    refine (append_spec hspec.wf (data.drop b.writableBytes) ?_ ?_).mono ?_ ?_
    · rw [hwi, List.length_drop]; omega
    · rw [List.length_drop]; omega
    · rintro b' ⟨hwf, hsize, hcontent⟩
      refine ⟨hwf, hspec.size_le.trans hsize, ?_⟩
      rw [hcontent, hspec.content_eq, List.take_take, Nat.min_self, List.append_assoc,
        List.take_append_drop]
    · rintro e b' ⟨he, -, hmax⟩
      refine ⟨he, ?_⟩
      rw [hwi, List.length_drop] at hmax
      omega

end Buffer

end Jiangbo
