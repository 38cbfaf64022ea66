import LearnForCpp.Lib.Transition
import LearnForCpp.Reactor.Buffer

/-!
# A buffer is a byte queue with a prependable front

`ByteQueue` says what a `Buffer` is for: a queue of bytes that grows at the end, may grow at the
front, and is consumed from the front.  `Op` lists the calls a client makes, `Op.apply` what the
code does and `Op.spec` what the queue does.

The two systems `buffers` and `queues` run any calls on a family of buffers, which `swap` may
exchange.  `buffers_refine_queues` is the refinement: over every run the indices stay ordered, the
readable bytes are the queue, and no assertion fails.
-/

namespace Jiangbo

namespace Buffer

/-- A call on one buffer. -/
inductive Op
  | append (data : Bytes)
  | ensureWritableBytes (len : ℕ)
  /-- A store of `data` at `beginWrite()`, then `hasWritten(len)`. -/
  | write (data : Bytes) (len : ℕ)
  | prepend (data : Bytes)
  | retrieve (len : ℕ)
  /-- `retrieveUntil(peek() + len)`. -/
  | retrieveUntil (len : ℕ)
  | retrieveAll
  | retrieveAsString
  /-- `readFd` with what `readv` stored, `none` when it failed. -/
  | readFd (received : Option Bytes)
  deriving DecidableEq

/-- What a client owes: ranges inside the buffer, and sums that a `size_t` holds. -/
def Op.Legal (b : Buffer) : Op → Prop
  | append data =>
      b.writerIndex + data.length ≤ SizeT.max ∧ data.length + kCheapPrepend ≤ SizeT.max
  | ensureWritableBytes len =>
      b.writerIndex + len ≤ SizeT.max ∧ len + kCheapPrepend ≤ SizeT.max
  | write data len => data.length ≤ b.writableBytes ∧ len ≤ data.length
  | prepend data => data.length ≤ b.prependableBytes
  | retrieve len => len ≤ b.readableBytes
  | retrieveUntil len => len ≤ b.readableBytes
  | readFd (some data) => data.length ≤ b.writableBytes + kExtraSize
  | retrieveAll | retrieveAsString | readFd none => True

instance (b : Buffer) : (op : Op) → Decidable (op.Legal b)
  | .append _ | .ensureWritableBytes _ | .write _ _ => inferInstanceAs (Decidable (_ ∧ _))
  | .prepend _ | .retrieve _ | .retrieveUntil _ | .readFd (some _) =>
      inferInstanceAs (Decidable (_ ≤ _))
  | .retrieveAll | .retrieveAsString | .readFd none => inferInstanceAs (Decidable True)

/-- The call on the code. -/
def Op.apply (b : Buffer) : Op → Result Buffer
  | append data => b.append data
  | ensureWritableBytes len => b.ensureWritableBytes len
  | write data len => (b.store data).bind fun b => .ok (b.hasWritten len)
  | prepend data => b.prepend data
  | retrieve len => b.retrieve len
  | retrieveUntil len => b.retrieveUntil (b.readerIndex + len)
  | retrieveAll => .ok b.retrieveAll
  | retrieveAsString => .ok b.retrieveAsString.2
  | readFd received => b.readFd received

/-- The bytes a call hands back. -/
def Op.result (b : Buffer) : Op → Bytes
  | retrieveAsString => b.retrieveAsString.1
  | _ => []

/-- The bytes by which a call may make the vector grow. -/
def Op.growth : Op → ℕ
  | append data => data.length
  | ensureWritableBytes len => len
  | readFd (some data) => data.length
  | _ => 0

end Buffer

/-! ### The queue -/

namespace ByteQueue

open Buffer (Op)

/-- The call on the queue. -/
def spec (q : Bytes) : Op → Bytes
  | .append data => q ++ data
  | .ensureWritableBytes _ => q
  | .write data len => q ++ data.take len
  | .prepend data => data ++ q
  | .retrieve len => q.drop len
  | .retrieveUntil len => q.drop len
  | .retrieveAll => []
  | .retrieveAsString => []
  | .readFd (some data) => q ++ data
  | .readFd none => q

/-- The bytes a call on the queue hands back. -/
def result (q : Bytes) : Op → Bytes
  | .retrieveAsString => q
  | _ => []

end ByteQueue

namespace Buffer

/-- The invariant of a buffer in use: ordered indices, and room for `retrieveAll`. -/
structure Inv (b : Buffer) : Prop extends b.WF where
  cheap_le : kCheapPrepend ≤ b.buffer.size

theorem new_inv : new.Inv := ⟨new_wf, by rw [new_size]; exact Nat.le_add_right _ _⟩

theorem After.inv {b b' : Buffer} {q : Bytes} (h : b.After q b') (hb : b.Inv) : b'.Inv :=
  ⟨h.wf, hb.cheap_le.trans h.size_le⟩

/-- **One call.** A legal call on a buffer in use ends normally with the readable bytes of the
queue, or throws `std::length_error` because the vector would exceed `max_size()`. -/
theorem Op.apply_spec {b : Buffer} (hb : b.Inv) {op : Op} (h : op.Legal b) :
    (op.apply b).Ends (b.After (ByteQueue.spec b.content op))
      (fun e _ => e = .lengthError ∧ maxSize < b.writerIndex + op.growth) := by
  have hwf := hb.toWF
  cases op with
  | append data =>
    exact (append_spec hwf data h.1 h.2).mono (fun _ => id) fun _ _ hq => ⟨hq.1, hq.2.2⟩
  | ensureWritableBytes len =>
    exact (ensureWritableBytes_spec hwf h.1 h.2).mono (fun _ => And.left) fun _ _ hq =>
      ⟨hq.1, hq.2.2⟩
  | write data len =>
    obtain ⟨b', hb', hspec⟩ := store_hasWritten_spec hwf data len h.2 h.1
    rw [Op.apply, hb']; exact hspec
  | prepend data =>
    obtain ⟨b', hb', hspec⟩ := prepend_spec hwf h
    rw [Op.apply, hb']; exact hspec
  | retrieve len =>
    obtain ⟨b', hb', hspec⟩ := retrieve_spec hwf h
    rw [Op.apply, hb']; exact hspec
  | retrieveUntil len =>
    obtain ⟨b', hb', hspec⟩ := retrieveUntil_spec hwf h
    rw [Op.apply, hb']; exact hspec
  | retrieveAll => exact retrieveAll_spec hb.cheap_le
  | retrieveAsString => exact retrieveAll_spec hb.cheap_le
  | readFd received =>
    cases received with
    | none => exact ⟨hwf, le_rfl, rfl⟩
    | some data => exact readFd_spec hwf h

theorem Op.result_eq (b : Buffer) (op : Op) : op.result b = ByteQueue.result b.content op := by
  cases op <;> rfl

end Buffer

/-! ### Runs -/

/-- A call on one buffer of a family, or an exchange of two of them. -/
inductive BufferCall (ι : Type*)
  | on (i : ι) (op : Buffer.Op)
  | swap (i j : ι)

variable {ι : Type*} [DecidableEq ι]

/-- `f` with the values at `i` and `j` exchanged. -/
def exchange {β : Type*} (f : ι → β) (i j : ι) : ι → β :=
  Function.update (Function.update f i (f j)) j (f i)

theorem exchange_comp {β γ : Type*} (g : β → γ) (f : ι → β) (i j : ι) :
    (fun k => g (exchange f i j k)) = exchange (fun k => g (f k)) i j := by
  funext k
  unfold exchange
  by_cases hj : k = j
  · subst hj; simp
  · by_cases hi : k = i
    · subst hi; simp [hj]
    · simp [hj, hi]

theorem update_comp {β γ : Type*} (g : β → γ) (f : ι → β) (i : ι) (x : β) :
    (fun k => g (Function.update f i x k)) = Function.update (fun k => g (f k)) i (g x) := by
  funext k
  by_cases hi : k = i
  · subst hi; simp
  · simp [hi]

/-- The code: a call that throws ends the run. -/
def buffers (ι : Type*) [DecidableEq ι] : LTS (ι → Buffer) (BufferCall ι) where
  init s := s = fun _ => .new
  next s
    | .on i op =>
        if op.Legal (s i) then
          match op.apply (s i) with
          | .ok b => some (Function.update s i b)
          | .fault _ _ => none
        else none
    | .swap i j =>
        let r := (s i).swap (s j)
        some (Function.update (Function.update s i r.1) j r.2)

/-- The queues. -/
def queues (ι : Type*) [DecidableEq ι] : LTS (ι → Bytes) (BufferCall ι) where
  init s := s = fun _ => []
  next s
    | .on i op => some (Function.update s i (ByteQueue.spec (s i) op))
    | .swap i j => some (exchange s i j)

/-- One call keeps every buffer in use and is the call on the queues. -/
theorem buffers_step {s t : ι → Buffer} {a : BufferCall ι} (hs : ∀ i, (s i).Inv)
    (h : (buffers ι).next s a = some t) :
    (∀ i, (t i).Inv) ∧
      (queues ι).next (fun i => (s i).content) a = some fun i => (t i).content := by
  cases a with
  | on i op =>
    simp only [buffers] at h
    split_ifs at h with hlegal
    have hspec := Buffer.Op.apply_spec (hs i) hlegal
    cases hop : op.apply (s i) with
    | fault e b => rw [hop] at h; cases h
    | ok b =>
      rw [hop] at h hspec
      cases h
      refine ⟨fun k => ?_, ?_⟩
      · by_cases hk : k = i
        · subst hk; simpa using hspec.inv (hs k)
        · simpa [hk] using hs k
      · rw [queues, update_comp, hspec.content_eq]
  | swap i j =>
    have ht : t = exchange s i j := (Option.some.inj h).symm
    subst ht
    refine ⟨fun k => ?_, ?_⟩
    · unfold exchange
      by_cases hj : k = j
      · subst hj; simpa using hs i
      · by_cases hi : k = i
        · subst hi; simpa [hj] using hs j
        · simpa [hj, hi] using hs k
    · rw [queues, exchange_comp]

/-- **A buffer refines a byte queue.** After every run of legal calls the indices are ordered and
the readable bytes are those of the queues run on the same calls; the next legal call hands back
what the queue hands back, and ends as the queue does or throws because the vector would exceed
`max_size()`: no assertion fails and nothing outside the vector is touched. -/
theorem buffers_refine_queues {as : List (BufferCall ι)} {s : ι → Buffer}
    (h : (buffers ι).run (fun _ => .new) as = some s) :
    (∀ i, (s i).readerIndex ≤ (s i).writerIndex ∧ (s i).writerIndex ≤ (s i).buffer.size) ∧
      (queues ι).run (fun _ => []) as = some (fun i => (s i).content) ∧
      ∀ i op, Buffer.Op.Legal (s i) op →
        op.result (s i) = ByteQueue.result (s i).content op ∧
        (op.apply (s i)).Ends
          (fun b => b.readerIndex ≤ b.writerIndex ∧ b.writerIndex ≤ b.buffer.size ∧
            b.content = ByteQueue.spec (s i).content op)
          (fun e _ => e = .lengthError ∧ maxSize < (s i).writerIndex + op.growth) := by
  have hrun := LTS.run_refines (N := queues ι) (f := fun s i => (s i).content)
    (I := fun s => ∀ i, (s i).Inv) (fun _ _ _ => buffers_step)
    (fun _ => Buffer.new_inv) h
  simp only [Buffer.new_content] at hrun
  obtain ⟨hinv, hqueues⟩ := hrun
  refine ⟨fun i => ⟨(hinv i).reader_le, (hinv i).writer_le⟩, hqueues, fun i op hlegal => ?_⟩
  refine ⟨op.result_eq _, (Buffer.Op.apply_spec (hinv i) hlegal).mono ?_ fun _ _ => id⟩
  exact fun b hb => ⟨hb.wf.reader_le, hb.wf.writer_le, hb.content_eq⟩

/-- A run that appends, prepends, exchanges and consumes. -/
theorem buffers_refine_queues_sample :
    ∃ s, (buffers Bool).run (fun _ => .new) [.on true (.append [2, 3]), .on true (.prepend [1]),
        .swap true false, .on false (.retrieve 1), .on false (.readFd (some [4]))] = some s ∧
      (s false).content = [2, 3, 4] ∧ (s true).content = [] := by
  obtain ⟨s, hs⟩ := Option.isSome_iff_exists.1 (by decide +kernel :
    ((buffers Bool).run (fun _ => .new) [.on true (.append [2, 3]), .on true (.prepend [1]),
      .swap true false, .on false (.retrieve 1), .on false (.readFd (some [4]))]).isSome = true)
  have h := Option.some.inj (buffers_refine_queues hs).2.1
  exact ⟨s, hs, (congrFun h false).symm, (congrFun h true).symm⟩

end Jiangbo
