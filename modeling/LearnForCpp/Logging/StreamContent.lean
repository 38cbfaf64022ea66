import LearnForCpp.Logging.LoggingStream

/-!
# The content of a stream

The calls of a `LoggingStream` between two resets, whatever their order: the content is what the
items that found room are rendered as, one after another and each as a whole.

A `Piece` is an item as the limit of the buffer sees it, a text or a number; `Piece.Drops` is the
rule by which it finds no room, and `keep` what remains of a sequence of pieces.
`stream_content` says that the stream is that, and that no write leaves `data_`.
-/

namespace Jiangbo

/-- A rendering, and whether it is written in place as that of a number or a pointer. -/
structure Piece where
  text : Bytes
  numeric : Bool
  deriving DecidableEq

namespace Piece

/-- There is no room for the piece behind `length` bytes. -/
def Drops (length : ℕ) (p : Piece) : Prop :=
  if p.numeric then kMinBufferSize - length < kMaxNumericSize
  else kMinBufferSize ≤ length + p.text.length

instance (length : ℕ) : (p : Piece) → Decidable (p.Drops length)
  | ⟨_, true⟩ => inferInstanceAs (Decidable (_ < _))
  | ⟨_, false⟩ => inferInstanceAs (Decidable (_ ≤ _))

/-- The texts, one after another. -/
def concat (ps : List Piece) : Bytes := (ps.map text).flatten

/-- A piece after those that were kept. -/
def keep (kept : List Piece) (p : Piece) : List Piece :=
  if p.Drops (concat kept).length then kept else kept ++ [p]

variable {ps kept : List Piece} {p : Piece}

@[simp] theorem concat_nil : concat [] = [] := rfl

@[simp] theorem concat_append (ps qs : List Piece) :
    concat (ps ++ qs) = concat ps ++ concat qs := by
  simp [concat]

theorem concat_keep : concat (keep kept p) =
    if p.Drops (concat kept).length then concat kept else concat kept ++ p.text := by
  unfold keep
  split_ifs
  · rfl
  · simp [concat]

/-- What is kept is a subsequence. -/
theorem keep_sublist (ps : List Piece) : (ps.foldl keep []).Sublist ps := by
  induction ps using List.reverseRecOn with
  | nil => exact List.Sublist.refl _
  | append_singleton ps p ih =>
    rw [List.foldl_append, List.foldl_cons, List.foldl_nil, keep]
    split_ifs
    · exact ih.trans (List.sublist_append_left ps [p])
    · exact ih.append (List.Sublist.refl [p])

end Piece

namespace Item

/-- A number or a pointer, formatted in place. -/
def numeric : Item → Bool
  | short _ | unsignedShort _ | int _ | unsignedInt _ | long _ | unsignedLong _ | longLong _
  | float _ | double _ | pointer _ => true
  | bool _ | char _ | cstr _ | string _ | t _ | fmt _ => false

/-- The item as a whole. -/
def rendering : Item → Bytes
  | cstr buf => buf
  | string str => str.bytes
  | t v => v.str
  | item => item.render

def piece (item : Item) : Piece := ⟨item.rendering, item.numeric⟩

/-- A text has less than `2 ^ 31` bytes. -/
def Short : Item → Prop
  | cstr buf => buf.length < 2 ^ 31
  | string str => str.size < 2 ^ 31
  | t v => v.len < 2 ^ 31
  | _ => True

variable {item : Item} {text : Bytes}

theorem Short.sized (h : item.Short) : item.Sized := by
  have hwrap : ∀ n : ℕ, n < 2 ^ 31 → 0 ≤ wrap32 n := by
    intro n hn
    rw [wrap32_eq (by omega) (by omega)]
    omega
  unfold Short at h
  cases item with
  | cstr buf => exact hwrap _ h
  | string str => exact hwrap _ h
  | t v => exact hwrap _ h
  | _ => trivial

/-- A short text is rendered as a whole. -/
theorem Short.render_eq (h : item.Short) : item.render = item.rendering := by
  have htake : ∀ l : Bytes, l.length < 2 ^ 31 → l.take (wrap32 l.length).toNat = l := by
    intro l hl
    rw [wrap32_eq (by omega) (by omega), Int.toNat_natCast, List.take_length]
  unfold Short at h
  cases item with
  | cstr buf => simpa only [render, rendering] using htake buf h
  | string str => simpa only [render, rendering, CharVector.size] using htake str.bytes h
  | t v =>
    obtain ⟨str, len, rfl⟩ := v
    simpa only [render, rendering] using htake str h
  | _ => rfl

/-- A text needs a byte more than it has, and a number needs 32. -/
theorem room_eq (item : Item) :
    item.room = if item.numeric then kMaxNumericSize else item.render.length + 1 := by
  cases item <;> rfl

/-- The two rules by which an item finds no room, as one. -/
theorem Short.into_eq (h : item.Short) (htext : text.length < kMinBufferSize) :
    item.into text =
      if item.piece.Drops text.length then text else text ++ item.rendering := by
  have hdrops : item.piece.Drops text.length ↔ ¬item.room + text.length ≤ kMinBufferSize := by
    rw [room_eq, h.render_eq]
    unfold Piece.Drops piece
    cases item.numeric
    · simp only [Bool.false_eq_true, if_false]
      omega
    · simp only [if_true]
      unfold kMaxNumericSize at *
      omega
  rw [into, h.render_eq]
  by_cases hroom : item.room + text.length ≤ kMinBufferSize
  · rw [if_pos hroom, if_neg (by rw [hdrops]; exact not_not.2 hroom)]
  · rw [if_neg hroom, if_pos (hdrops.2 hroom)]

end Item

/-- A call of a stream. -/
inductive StreamCall
  | put (item : Item)
  | append (buf : Bytes) (len : ℤ)
  | resetBuffer

namespace FixedBuffer

def reset {SIZE : ℕ} (b : FixedBuffer SIZE) : FixedBuffer SIZE := { b with cur := 0 }

end FixedBuffer

namespace StreamCall

/-- Texts are short, and `append` is given no more than there is. -/
def Legal : StreamCall → Prop
  | put item => item.Short
  | append buf len => 0 ≤ len ∧ len ≤ buf.length ∧ len < 2 ^ 31
  | resetBuffer => True

def apply (b : LoggingStream) : StreamCall → Result LoggingStream
  | put item => b.put item
  | append buf len => FixedBuffer.append buf len b
  | resetBuffer => .ok b.reset

/-- Calls, one after another. -/
def applyAll (b : LoggingStream) : List StreamCall → Result LoggingStream
  | [] => .ok b
  | call :: calls => (call.apply b).bind fun b => applyAll b calls

/-- What has been inserted since the last reset. -/
def record (inserted : List Piece) : StreamCall → List Piece
  | put item => inserted ++ [item.piece]
  | append buf len => inserted ++ [⟨buf.take len.toNat, false⟩]
  | resetBuffer => []

def inserted (calls : List StreamCall) : List Piece := calls.foldl record []

variable {b : LoggingStream} {call : StreamCall} {calls : List StreamCall} {ps : List Piece}

/-- **One call.** The piece is appended as a whole or dropped by the rule. -/
theorem apply_eq (hb : b.cur < kMinBufferSize) (h : call.Legal)
    (hcontent : b.content = Piece.concat (ps.foldl Piece.keep [])) :
    ∃ b', call.apply b = .ok b' ∧ b'.cur < kMinBufferSize ∧
      b'.content = Piece.concat ((record ps call).foldl Piece.keep []) := by
  have hlen := b.content_length hb.le
  cases call with
  | put item =>
    have hitem : item.Short := h
    obtain ⟨b', hb', hcur, hcontent'⟩ := LoggingStream.put_eq hb hitem.sized
    refine ⟨b', hb', hcur, ?_⟩
    rw [hcontent', hitem.into_eq (by omega), record, List.foldl_append, List.foldl_cons,
      List.foldl_nil, Piece.concat_keep, hcontent]
    rfl
  | append buf len =>
    obtain ⟨h0, hbuf, -⟩ := h
    obtain ⟨b', hb', hcur, hcontent'⟩ := b.append_eq hb h0 hbuf
    refine ⟨b', hb', hcur, ?_⟩
    have htake : (buf.take len.toNat).length = len.toNat := by
      rw [List.length_take]
      omega
    rw [hcontent', record, List.foldl_append, List.foldl_cons, List.foldl_nil, Piece.concat_keep,
      ← hcontent]
    unfold Piece.Drops
    simp only [Bool.false_eq_true, if_false, htake]
    by_cases hroom : len.toNat + 1 + b.content.length ≤ kMinBufferSize
    · rw [if_pos hroom, if_neg (by omega)]
    · rw [if_neg hroom, if_pos (by omega)]
  | resetBuffer => exact ⟨b.reset, rfl, Nat.succ_pos _, rfl⟩

/-- The calls of a run. -/
theorem applyAll_eq (ps : List Piece) (hb : b.cur < kMinBufferSize) (h : ∀ call ∈ calls, call.Legal)
    (hcontent : b.content = Piece.concat (ps.foldl Piece.keep [])) :
    ∃ b', applyAll b calls = .ok b' ∧ b'.cur < kMinBufferSize ∧
      b'.content = Piece.concat ((calls.foldl record ps).foldl Piece.keep []) := by
  induction calls generalizing ps b with
  | nil => exact ⟨b, rfl, hb, hcontent⟩
  | cons call calls ih =>
    obtain ⟨hcall, hcalls⟩ := List.forall_mem_cons.1 h
    obtain ⟨b₁, h₁, hb₁, hcontent₁⟩ := apply_eq hb hcall hcontent
    obtain ⟨b', h', hb', hcontent'⟩ := ih _ hb₁ hcalls hcontent₁
    exact ⟨b', by rw [applyAll, h₁, Outcome.bind_ok, h'], hb', hcontent'⟩

end StreamCall

/-- **The content of a stream.** After any calls no write has left `data_`, `length()` is less than
4000, and the content is that of the pieces inserted since the last reset which were kept, a
subsequence of them. -/
theorem stream_content (calls : List StreamCall) (h : ∀ call ∈ calls, call.Legal) :
    ∃ b : LoggingStream, StreamCall.applyAll (.new kMinBufferSize) calls = .ok b ∧
      b.cur < kMinBufferSize ∧ b.content.length = b.cur ∧
      b.content = Piece.concat ((StreamCall.inserted calls).foldl Piece.keep []) ∧
      ((StreamCall.inserted calls).foldl Piece.keep []).Sublist (StreamCall.inserted calls) := by
  have hcur : (FixedBuffer.new kMinBufferSize).cur < kMinBufferSize := by decide
  obtain ⟨b, hb, hlt, hcontent⟩ := StreamCall.applyAll_eq [] hcur h rfl
  exact ⟨b, hb, hlt, b.content_length hlt.le, hcontent, Piece.keep_sublist _⟩

/-- A text that a reset discards, and a number and a text after it. -/
theorem stream_content_after_reset : ∃ b : LoggingStream,
    StreamCall.applyAll (.new kMinBufferSize) [.put (.cstr (ascii "lost")), .resetBuffer,
      .put (.int (-12)), .append (ascii "ab!") 2] = .ok b ∧
      b.content = convert (Int32.toInt (-12)) ++ ascii "ab" := by
  obtain ⟨b, hb, -, -, hcontent, -⟩ := stream_content [.put (.cstr (ascii "lost")),
    .resetBuffer, .put (.int (-12)), .append (ascii "ab!") 2] (by
      simp only [List.forall_mem_cons]
      exact ⟨by show _ < _; decide, trivial, trivial, by show _ ∧ _; decide, by simp⟩)
  refine ⟨b, hb, hcontent.trans ?_⟩
  have hint : ¬(Item.piece (.int (-12))).Drops (Piece.concat []).length := by
    unfold Piece.Drops
    decide
  have hlen : (convert (Int32.toInt (-12))).length ≤ 20 := convert_length (by decide) (by decide)
  have htext :
      ¬Piece.Drops (Piece.concat [Item.piece (.int (-12))]).length ⟨ascii "ab", false⟩ := by
    have hconcat : Piece.concat [Item.piece (.int (-12))] = convert (Int32.toInt (-12)) := by
      simp [Piece.concat, Item.piece, Item.rendering, Item.render]
    rw [hconcat]
    unfold Piece.Drops
    have h2 : (ascii "ab").length = 2 := rfl
    simp only [Bool.false_eq_true, if_false, h2]
    unfold kMinBufferSize
    omega
  show Piece.concat (Piece.keep (Piece.keep [] (Item.piece (.int (-12)))) ⟨ascii "ab", false⟩) = _
  have hkeep : Piece.keep [] (Item.piece (.int (-12))) = [Item.piece (.int (-12))] := if_neg hint
  rw [hkeep, Piece.keep, if_neg htext]
  simp [Piece.concat, Item.piece, Item.rendering, Item.render]

end Jiangbo
