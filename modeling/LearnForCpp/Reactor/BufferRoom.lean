import LearnForCpp.Reactor.Buffer

/-!
# Room in a buffer

What `shrink` and `ensureWritableBytes` do for every argument.  `shrink` moves the readable bytes to
`kCheapPrepend` of a new vector but leaves `readerIndex_` and `writerIndex_`, so that it is right
when the bytes were there before.  `ensureWritableBytes` adds to its argument twice, and is right
when neither sum wraps, or when the wrapped one makes `resize` throw.
-/

namespace Jiangbo

namespace Buffer

variable {b : Buffer} {len reserve : ℕ}

/-! ### `shrink` -/

/-- A list is what it was, after zeros in front and a cut at the end, when there are no zeros or it
has only zeros. -/
theorem take_replicate_append_eq_iff {l : Bytes} {k : ℕ} :
    (List.replicate k 0 ++ l).take l.length = l ↔ k = 0 ∨ ∀ x ∈ l, x = 0 := by
  constructor
  · intro h
    by_cases hk : k = 0
    · exact .inl hk
    -- each byte is zero, or the one `k` places before
    have hget : ∀ i, ∀ hi : i < l.length, l[i] = 0 := by
      intro i
      induction i using Nat.strong_induction_on with
      | _ i ih =>
        intro hi
        have hi' : i < ((List.replicate k 0 ++ l).take l.length).length := by rw [h]; exact hi
        have hshift : l[i] = ((List.replicate k 0 ++ l).take l.length)[i] := by simp only [h]
        rw [hshift, List.getElem_take]
        by_cases hik : i < k
        · rw [List.getElem_append_left (by simpa using hik), List.getElem_replicate]
        · rw [List.getElem_append_right (by simpa using hik)]
          simp only [List.length_replicate]
          exact ih (i - k) (by omega) (by omega)
    refine .inr fun x hx => ?_
    obtain ⟨i, hi, rfl⟩ := List.mem_iff_getElem.1 hx
    exact hget i hi
  · rintro (rfl | h)
    · simp
    · rw [List.eq_replicate_iff.2 ⟨rfl, h⟩]
      simp

/-- The buffer that `shrink` leaves. -/
theorem shrink_eq (h : b.WF) (hsum : kCheapPrepend + b.readableBytes + reserve ≤ maxSize) :
    ∃ v : CharVector, b.shrink reserve = .ok { b with buffer := v } ∧
      v.bytes = List.replicate kCheapPrepend 0 ++ b.content ++ List.replicate reserve 0 := by
  have hmax := maxSize_lt_max
  have hadd : SizeT.add (SizeT.add kCheapPrepend b.readableBytes) reserve =
      kCheapPrepend + b.readableBytes + reserve := by
    rw [SizeT.add_eq (a := kCheapPrepend) (by omega), SizeT.add_eq (by omega)]
  have hlen := h.content_length
  refine ⟨CharVector.overwrite ⟨List.replicate (kCheapPrepend + b.readableBytes + reserve) 0, by
    rwa [List.length_replicate]⟩ kCheapPrepend b.content, ?_, ?_⟩
  · rw [shrink, hadd, CharVector.ofSize, dif_pos hsum]
    dsimp only
    rw [Outcome.check_pos (decide_eq_true ⟨h.reader_le, h.writer_le, by
      rw [CharVector.size, List.length_replicate]; omega⟩), Outcome.bind_ok]
  · simp only [CharVector.overwrite]
    rw [Copy.overwrite_eq (by rw [List.length_replicate, hlen]; omega), List.take_replicate,
      List.drop_replicate, Nat.min_eq_left (by omega), hlen]
    congr 2
    omega

/-- The readable bytes move with the indices when these are at `kCheapPrepend`. -/
theorem shrink_ends_iff (h : b.WF) (hsum : kCheapPrepend + b.readableBytes + reserve ≤ maxSize) :
    (b.shrink reserve).Ends
        (fun b' => b'.content = b.content ∧ b'.readerIndex ≤ b'.writerIndex ∧
          b'.writerIndex ≤ b'.buffer.size ∧ reserve ≤ b'.writableBytes)
        (fun _ _ => False) ↔
      b.readerIndex = kCheapPrepend ∨ b.readerIndex < kCheapPrepend ∧ ∀ x ∈ b.content, x = 0 := by
  obtain ⟨v, hv, hbytes⟩ := shrink_eq h hsum
  have hreader := h.reader_le
  have hreadable := h.readableBytes_eq
  have hlen := h.content_length
  have hsize : v.size = kCheapPrepend + b.readableBytes + reserve := by
    rw [CharVector.size, hbytes]
    simp only [List.length_append, List.length_replicate, hlen]
  rw [hv, Outcome.ends_ok]
  by_cases hr : b.readerIndex ≤ kCheapPrepend
  · have hwf : ({ b with buffer := v } : Buffer).WF := ⟨hreader, by simp only [hsize]; omega⟩
    have hcontent : ({ b with buffer := v } : Buffer).content =
        (List.replicate (kCheapPrepend - b.readerIndex) 0 ++ b.content).take b.content.length := by
      rw [hwf.content_eq]
      simp only [hbytes]
      rw [List.append_assoc, List.drop_append_of_le_length (by simpa using hr),
        List.drop_replicate, ← List.append_assoc,
        List.take_append_of_le_length (by simp only [List.length_append]; omega), hlen, hreadable]
    have hroom : reserve ≤ ({ b with buffer := v } : Buffer).writableBytes := by
      rw [hwf.writableBytes_eq]
      simp only [hsize]
      omega
    rw [hcontent, take_replicate_append_eq_iff]
    constructor
    · rintro ⟨hk | hzero, -⟩
      · exact .inl (by omega)
      · exact (eq_or_lt_of_le hr).imp_right fun hlt => ⟨hlt, hzero⟩
    · rintro (hk | ⟨-, hzero⟩)
      · exact ⟨.inl (by omega), hwf.reader_le, hwf.writer_le, hroom⟩
      · exact ⟨.inr hzero, hwf.reader_le, hwf.writer_le, hroom⟩
  · -- the indices stand too far to the right for the new vector
    refine iff_of_false ?_ (by omega)
    rintro ⟨-, -, hwriter, hroom⟩
    have hwf : ({ b with buffer := v } : Buffer).WF := ⟨hreader, hwriter⟩
    rw [hwf.writableBytes_eq] at hroom
    simp only [hsize] at hroom hwriter
    omega

end Buffer

/-- **`shrink` keeps the queue** exactly if the readable bytes start at `kCheapPrepend`, or before
it and are all zero.  A `reserve` for which the vector would exceed `max_size()` throws and changes
nothing. -/
theorem shrink_preserves_iff {b : Buffer} (h : b.WF) {reserve : ℕ}
    (hsum : Buffer.kCheapPrepend + b.readableBytes + reserve ≤ SizeT.max) :
    (b.shrink reserve).Ends
        (fun b' => b'.content = b.content ∧ b'.readerIndex ≤ b'.writerIndex ∧
          b'.writerIndex ≤ b'.buffer.size ∧ reserve ≤ b'.writableBytes)
        (fun e b' => e = .lengthError ∧ b' = b) ↔
      b.readerIndex = Buffer.kCheapPrepend ∨
        (b.readerIndex < Buffer.kCheapPrepend ∧ ∀ x ∈ b.content, x = 0) ∨
        maxSize < Buffer.kCheapPrepend + b.readableBytes + reserve := by
  by_cases hmax : Buffer.kCheapPrepend + b.readableBytes + reserve ≤ maxSize
  · obtain ⟨v, hv, -⟩ := Buffer.shrink_eq h hmax
    have hiff := Buffer.shrink_ends_iff h hmax
    rw [hv, Outcome.ends_ok] at hiff ⊢
    rw [hiff]
    constructor
    · exact fun hb => hb.imp_right .inl
    · rintro (hb | hb | hb)
      · exact .inl hb
      · exact .inr hb
      · omega
  · have hfault : b.shrink reserve = .fault .lengthError b := by
      rw [Buffer.shrink, SizeT.add_eq (a := Buffer.kCheapPrepend) (by omega), SizeT.add_eq hsum,
        CharVector.ofSize, dif_neg hmax]
    rw [hfault, Outcome.ends_fault]
    exact iff_of_true ⟨rfl, rfl⟩ (.inr (.inr (by omega)))

/-- A buffer whose bytes have not been moved since they were appended. -/
theorem shrink_preserves_appended : ∃ b : Buffer, Buffer.new.append [1, 2, 3] = .ok b ∧
    (b.shrink 5).Ends
      (fun b' => b'.content = b.content ∧ b'.readerIndex ≤ b'.writerIndex ∧
        b'.writerIndex ≤ b'.buffer.size ∧ 5 ≤ b'.writableBytes)
      (fun e b' => e = .lengthError ∧ b' = b) := by
  have hok : (Buffer.new.append [1, 2, 3]).fault? = none := by decide +kernel
  have hreader : (Buffer.new.append [1, 2, 3]).state.readerIndex = Buffer.kCheapPrepend := by
    decide +kernel
  have hwriter : (Buffer.new.append [1, 2, 3]).state.writerIndex = 11 := by decide +kernel
  have hsize : (Buffer.new.append [1, 2, 3]).state.buffer.size = 1032 := by decide +kernel
  have heq := Outcome.eq_ok_state hok
  generalize (Buffer.new.append [1, 2, 3]).state = b at *
  have hwf : b.WF := ⟨by rw [hreader, hwriter]; decide, by rw [hwriter, hsize]; decide⟩
  refine ⟨b, heq, (shrink_preserves_iff hwf ?_).2 (.inl hreader)⟩
  rw [hwf.readableBytes_eq, hreader, hwriter]
  decide

/-- A byte is read before the buffer shrinks: its place is lost, and the next is not found. -/
theorem shrink_after_retrieve : ∃ b b' : Buffer,
    ((Buffer.new.append [1, 2, 3]).bind (Buffer.retrieve 1)) = .ok b ∧ b.shrink 0 = .ok b' ∧
      b.content = [2, 3] ∧ b'.content = [3] ∧ b'.buffer.size < b'.writerIndex := by
  have hok : ((Buffer.new.append [1, 2, 3]).bind (Buffer.retrieve 1)).fault? = none := by
    decide +kernel
  have hshrink : (((Buffer.new.append [1, 2, 3]).bind (Buffer.retrieve 1)).state.shrink 0).fault? =
      none := by decide +kernel
  exact ⟨_, _, Outcome.eq_ok_state hok, Outcome.eq_ok_state hshrink, by decide +kernel,
    by decide +kernel, by decide +kernel⟩

/-! ### `ensureWritableBytes` -/

namespace Buffer

variable {b : Buffer} {len : ℕ}

/-- Neither sum wraps, or the first one does and still asks for more than there is. -/
def RoomFits (b : Buffer) (len : ℕ) : Prop :=
  b.writerIndex + len ≤ SizeT.max ∧
    (len + kCheapPrepend ≤ SizeT.max ∨
      b.writableBytes + b.prependableBytes < SizeT.add len kCheapPrepend)

instance (b : Buffer) (len : ℕ) : Decidable (b.RoomFits len) := inferInstanceAs (Decidable (_ ∧ _))

/-- What a call that keeps the queue may do. -/
def KeepsQueue (b : Buffer) (len : ℕ) (o : Result Buffer) : Prop :=
  o.Ends (fun b' => len ≤ b'.writableBytes ∧ b'.content = b.content ∧
      b'.readerIndex ≤ b'.writerIndex ∧ b'.writerIndex ≤ b'.buffer.size)
    (fun e b' => e = .lengthError ∧ b' = b)

theorem WF.sum_eq (h : b.WF) : SizeT.add b.writableBytes b.prependableBytes =
    b.writableBytes + b.prependableBytes := by
  have h1 := h.reader_le
  have h2 := h.writer_le
  have h3 := b.buffer.size_le_maxSize
  have h4 := maxSize_lt_max
  have hw := h.writableBytes_eq
  exact SizeT.add_eq (by unfold prependableBytes; omega)

/-- More than a vector can hold is never there. -/
theorem WF.writableBytes_le (h : b.WF) : b.writableBytes ≤ maxSize := by
  have hw := h.writableBytes_eq
  have hmax := b.buffer.size_le_maxSize
  omega

/-- A move to the front does not make room for more than a vector can hold. -/
theorem ensureWritableBytes_front (h : b.WF) (hlen : maxSize < len)
    (hfront : ¬b.writableBytes + b.prependableBytes < SizeT.add len kCheapPrepend) :
    ¬KeepsQueue b len (b.ensureWritableBytes len) := by
  have hneed := h.writableBytes_le.trans_lt hlen
  rw [ensureWritableBytes, if_pos hneed, makeSpace, h.sum_eq, if_neg hfront]
  by_cases hr : kCheapPrepend < b.readerIndex
  · obtain ⟨hafter, -⟩ := moveToFront_spec h hr.le
    have hroom := hafter.wf.writableBytes_le
    rw [Outcome.check_pos (by simpa using hr), Outcome.bind_ok,
      Outcome.check_pos (by simpa using ⟨h.reader_le, h.writer_le⟩), Outcome.bind_ok,
      Outcome.check_pos (by
        simp only [decide_eq_true_eq]
        rw [← hafter.wf.content_length, hafter.content_eq, h.content_length]), Outcome.bind_ok,
      Outcome.check_neg (by simp only [decide_eq_false_iff_not]; omega)]
    rintro ⟨he, -⟩
    cases he
  · rw [Outcome.check_neg (by simpa using hr), Outcome.bind_fault, Outcome.bind_fault]
    rintro ⟨he, -⟩
    cases he

/-- A sum that wraps makes the vector smaller than `writerIndex_`. -/
theorem ensureWritableBytes_cut (h : b.WF) (hlen : len ≤ SizeT.max)
    (hsum : SizeT.max < b.writerIndex + len) :
    ¬KeepsQueue b len (b.ensureWritableBytes len) := by
  have h2 := h.writer_le
  have h3 := b.buffer.size_le_maxSize
  have hbig : maxSize < len := by
    unfold maxSize SizeT.max at *
    omega
  by_cases hfront : b.writableBytes + b.prependableBytes < SizeT.add len kCheapPrepend
  · have hneed := h.writableBytes_le.trans_lt hbig
    have hcut : SizeT.add b.writerIndex len < b.writerIndex := by
      unfold SizeT.add SizeT.max at *
      omega
    obtain ⟨v, hv⟩ : ∃ v, b.buffer.resize (SizeT.add b.writerIndex len) = some v :=
      ⟨_, dif_pos (by omega)⟩
    have hsize : v.size = SizeT.add b.writerIndex len := by
      rw [CharVector.resize, dif_pos (by omega)] at hv
      cases hv
      simp only [CharVector.size, List.length_append, List.length_take, List.length_replicate] at *
      omega
    rw [ensureWritableBytes, if_pos hneed, makeSpace, h.sum_eq, if_pos hfront, hv]
    dsimp only
    rw [Outcome.bind_ok]
    intro hkeeps
    by_cases hroom : len ≤ ({ b with buffer := v } : Buffer).writableBytes
    · rw [Outcome.check_pos (decide_eq_true hroom)] at hkeeps
      obtain ⟨-, -, -, hwriter⟩ := hkeeps
      simp only [hsize] at hwriter
      omega
    · rw [Outcome.check_neg (decide_eq_false hroom)] at hkeeps
      cases hkeeps.1
  · exact ensureWritableBytes_front h hbig hfront

/-- The vector is to grow by more than it can hold. -/
theorem ensureWritableBytes_throws (h : b.WF) (hbig : maxSize < len)
    (hsum : b.writerIndex + len ≤ SizeT.max)
    (hfront : b.writableBytes + b.prependableBytes < SizeT.add len kCheapPrepend) :
    b.ensureWritableBytes len = .fault .lengthError b := by
  have hneed := h.writableBytes_le.trans_lt hbig
  rw [ensureWritableBytes, if_pos hneed, makeSpace, h.sum_eq, if_pos hfront, SizeT.add_eq hsum,
    CharVector.resize_of_gt (by omega)]
  rfl

end Buffer

/-- **`ensureWritableBytes` keeps the queue** exactly if `writerIndex_ + len` does not wrap, and
`len + kCheapPrepend` does not either or is still more than the free bytes. -/
theorem ensureWritableBytes_safe_iff {b : Buffer} (h : b.WF) {len : ℕ} (hlen : len ≤ SizeT.max) :
    b.KeepsQueue len (b.ensureWritableBytes len) ↔ b.RoomFits len := by
  constructor
  · intro hkeeps
    have hsum : b.writerIndex + len ≤ SizeT.max := by
      by_contra hsum
      exact Buffer.ensureWritableBytes_cut h hlen (not_le.1 hsum) hkeeps
    refine ⟨hsum, or_iff_not_imp_left.2 fun hcheap => ?_⟩
    by_contra hfront
    refine Buffer.ensureWritableBytes_front h ?_ hfront hkeeps
    unfold Buffer.kCheapPrepend SizeT.max at hcheap
    unfold maxSize
    omega
  · rintro ⟨hsum, hcheap⟩
    by_cases hwraps : len + Buffer.kCheapPrepend ≤ SizeT.max
    · refine (Buffer.ensureWritableBytes_spec h hsum hwraps).mono (fun b' hb' => ?_)
        fun e b' hb' => ⟨hb'.1, hb'.2.1⟩
      exact ⟨hb'.2, hb'.1.content_eq, hb'.1.wf.reader_le, hb'.1.wf.writer_le⟩
    · have hbig : maxSize < len := by
        unfold Buffer.kCheapPrepend SizeT.max at hwraps
        unfold maxSize
        omega
      rw [Buffer.ensureWritableBytes_throws h hbig hsum (hcheap.resolve_left hwraps)]
      exact ⟨rfl, rfl⟩

/-- A new buffer makes room for two thousand bytes. -/
theorem ensureWritableBytes_grows : ∃ b : Buffer, b = .new ∧ b.writableBytes = 1024 ∧
    b.KeepsQueue 2000 (b.ensureWritableBytes 2000) := by
  have hwriter : Buffer.new.writerIndex = 8 := rfl
  have hroom : Buffer.new.writableBytes = 1024 := by decide +kernel
  have hwf := Buffer.new_wf
  generalize hb : Buffer.new = b at *
  refine ⟨b, rfl, hroom, (ensureWritableBytes_safe_iff hwf (by decide)).2 ⟨?_, .inl (by decide)⟩⟩
  rw [hwriter]
  decide

/-- With `len` at its largest the sum wraps, and a new buffer fails to move to the front. -/
theorem ensureWritableBytes_wraps :
    Buffer.new.ensureWritableBytes SizeT.max =
      .fault (.assertion .makeSpaceReader) Buffer.new := by
  decide +kernel

end Jiangbo
