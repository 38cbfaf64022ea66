import LearnForCpp.Logging.Logging

/-!
# The frame of a log record

A record begins with the header that the constructor wrote, and should end with the trailer
`-<basename>:<line>` and a newline.  The trailer goes through the same buffer of 4000 bytes as the
text before it, in five insertions, and each of them may be dropped.

`log_record_framed` says when the record is framed nevertheless: when the trailer and the 32 bytes
that an integer asks for are free (`LoggerImpl.Closes`), or when the bytes that are there complete
by accident what was dropped.
-/

namespace Jiangbo

namespace LoggerImpl

/-- `"-<basename>:<line>\\n"`. -/
def trailer (impl : LoggerImpl) : Bytes :=
  ascii "-" ++ impl.basename ++ ascii ":" ++ convert impl.line.toInt ++ ascii "\n"

/-- The bytes that are free in the stream. -/
def free (impl : LoggerImpl) : ℕ := kMinBufferSize - impl.stream.content.length

/-- Before the destructor: there is room for the trailer, or the text of the record completes what
will be dropped of it.  That takes a record that is full, or full but for the name, and ends in
the trailer already, or a name that does not fit, ends in a dash, and is already there. -/
def Closes (impl : LoggerImpl) : Prop :=
  impl.basename.length + 34 ≤ impl.free ∨
  impl.free = 1 ∧ impl.trailer <:+ impl.stream.content ∨
  impl.free = impl.basename.length + 2 ∧
    impl.trailer <:+ impl.stream.content ++ (ascii "-" ++ impl.basename) ∨
  34 ≤ impl.free ∧ impl.free ≤ impl.basename.length + 1 ∧
    ascii "-" ++ impl.basename <:+ impl.stream.content ++ ascii "-"

end LoggerImpl

/-! ### The insertions of `finish` -/

namespace Item

variable {text buf : Bytes} {v : Int32}

/-- A C string that is short enough for its length to be an `int`. -/
theorem cstr_into {d : Bytes} (h : d.length < 2 ^ 31) : (cstr d).into text =
    if d.length + 1 + text.length ≤ kMinBufferSize then text ++ d else text := by
  have hwrap : wrap32 d.length = d.length := wrap32_eq (by omega) (by omega)
  have hrender : (cstr d).render = d := by
    rw [render, hwrap, Int.toNat_natCast, List.take_length]
  rw [into, room, hrender]
  all_goals simp

theorem cstr_sized (h : buf.length < 2 ^ 31) : (cstr buf).Sized := by
  show 0 ≤ wrap32 buf.length
  rw [wrap32_eq (by omega) (by omega)]
  omega

theorem int_into : (int v).into text =
    if kMaxNumericSize + text.length ≤ kMinBufferSize then text ++ convert v.toInt else text := rfl

theorem prefix_into (text : Bytes) (item : Item) : text <+: item.into text := by
  unfold into
  split_ifs
  · exact List.prefix_append _ _
  · exact List.prefix_refl _

theorem into_length (text : Bytes) (item : Item) :
    (item.into text).length ≤ text.length + item.render.length := by
  unfold into
  split_ifs
  · exact (List.length_append).le
  · exact Nat.le_add_right _ _

theorem prefix_foldl_into (text : Bytes) (items : List Item) : text <+: items.foldl into text := by
  induction items generalizing text with
  | nil => exact List.prefix_refl _
  | cons item items ih => exact (prefix_into text item).trans (ih _)

end Item

/-- The last character of a number is no colon. -/
theorem convert_last (v : ℤ) : ∃ (init : Bytes) (last : UInt8),
    convert v = init ++ [last] ∧ last ≠ 58 := by
  have hzero : zero (v.tmod 10) (tmod_ten v) ≠ 58 := by
    have h : ∀ d ∈ digits, d ≠ 58 := by decide +kernel
    exact h _ (List.get_mem _ _)
  rw [convert, convertLoop, List.cons_append, List.reverse_cons]
  exact ⟨_, _, rfl, hzero⟩

namespace LoggerImpl

variable {impl : LoggerImpl} {u : Bytes}

/-- The trailer ends in a number and a newline. -/
theorem trailer_last (impl : LoggerImpl) : ∃ (init : Bytes) (last : UInt8),
    impl.trailer = init ++ ([last] ++ ascii "\n") ∧ last ≠ 58 := by
  obtain ⟨init, last, h, hlast⟩ := convert_last impl.line.toInt
  refine ⟨ascii "-" ++ impl.basename ++ ascii ":" ++ init, last, ?_, hlast⟩
  simp only [trailer, h, List.append_assoc]

/-- Where the text ends in the trailer, it ends in a newline. -/
theorem not_trailer_suffix (impl : LoggerImpl) {c : UInt8} (hc : c ≠ 10) :
    ¬impl.trailer <:+ u ++ [c] := by
  intro h
  obtain ⟨init, last, htrailer, -⟩ := trailer_last impl
  rw [htrailer, ← List.append_assoc] at h
  have hlen : (ascii "\n").length = [c].length := rfl
  have := (List.suffix_append_inj_of_length_eq hlen).1 h
  exact hc (List.singleton_inj.1 this.2).symm

theorem not_trailer_suffix_colon : ¬impl.trailer <:+ u ++ ascii ":" ++ ascii "\n" := by
  intro h
  obtain ⟨init, last, htrailer, hlast⟩ := trailer_last impl
  rw [htrailer, List.append_assoc u] at h
  have hlen : ([last] ++ ascii "\n").length = (ascii ":" ++ ascii "\n").length := rfl
  have := (List.suffix_append_inj_of_length_eq hlen).1 h
  exact hlast (List.cons.inj this.2).1

/-- The colon, the number and the newline complete the trailer when they are all written; when the
buffer is full but for one byte, none of them is. -/
theorem trailer_suffix_tail (hu : u.length < kMinBufferSize) :
    impl.trailer <:+ [Item.cstr (ascii ":"), .int impl.line, .cstr (ascii "\n")].foldl Item.into u ↔
      u.length + 33 ≤ kMinBufferSize ∧ ascii "-" ++ impl.basename <:+ u ∨
      u.length + 1 = kMinBufferSize ∧ impl.trailer <:+ u := by
  have hcolon : (ascii ":").length = 1 := rfl
  have hnewline : (ascii "\n").length = 1 := rfl
  have hsize : kMinBufferSize = 4000 := rfl
  have hnumeric : kMaxNumericSize = 32 := rfl
  have hline := convert_length (v := impl.line.toInt) (by have := impl.line.le_toInt; omega)
    (by have := impl.line.toInt_lt; omega)
  simp only [List.foldl_cons, List.foldl_nil]
  rw [Item.cstr_into (d := ascii ":") (by decide)]
  by_cases h1 : u.length + 2 ≤ kMinBufferSize
  · rw [if_pos (by omega), Item.int_into, List.length_append]
    by_cases h2 : u.length + 33 ≤ kMinBufferSize
    · rw [if_pos (by omega), Item.cstr_into (by decide),
        if_pos (by simp only [List.length_append]; omega)]
      have heq : impl.trailer <:+ u ++ ascii ":" ++ convert impl.line.toInt ++ ascii "\n" ↔
          ascii "-" ++ impl.basename <:+ u := by
        rw [trailer, List.suffix_append_self_iff, List.suffix_append_self_iff,
          List.suffix_append_self_iff]
      rw [heq]
      constructor
      · exact fun h => .inl ⟨h2, h⟩
      · rintro (h | h)
        · exact h.2
        · omega
    · rw [if_neg (by omega), Item.cstr_into (by decide), List.length_append]
      refine iff_of_false ?_ (by omega)
      split_ifs
      · exact not_trailer_suffix_colon
      · exact not_trailer_suffix _ (by decide)
  · rw [if_neg (by omega), Item.int_into, if_neg (by omega), Item.cstr_into (by decide),
      if_neg (by omega)]
    constructor
    · exact fun h => .inr ⟨by omega, h⟩
    · rintro (h | h)
      · omega
      · exact h.2

/-- The five insertions end in the trailer exactly if `Closes`. -/
theorem trailer_suffix_iff (hcur : impl.stream.cur < kMinBufferSize)
    (hbase : impl.basename.length < 2 ^ 31) :
    impl.trailer <:+ [Item.cstr (ascii "-"), .cstr impl.basename, .cstr (ascii ":"),
      .int impl.line, .cstr (ascii "\n")].foldl Item.into impl.stream.content ↔ impl.Closes := by
  have hdash : (ascii "-").length = 1 := rfl
  have hlen := impl.stream.content_length hcur.le
  have hsize : kMinBufferSize = 4000 := rfl
  unfold Closes free
  generalize impl.stream.content = t at hlen ⊢
  rw [List.foldl_cons, List.foldl_cons, Item.cstr_into (d := ascii "-") (by decide)]
  by_cases h1 : t.length + 2 ≤ kMinBufferSize
  · rw [if_pos (by omega), Item.cstr_into hbase, List.length_append]
    by_cases h2 : impl.basename.length + t.length + 2 ≤ kMinBufferSize
    · rw [if_pos (by omega), trailer_suffix_tail (by simp only [List.length_append]; omega)]
      simp only [List.length_append, List.append_assoc]
      have hsuffix : ascii "-" ++ impl.basename <:+ t ++ (ascii "-" ++ impl.basename) :=
        List.suffix_append _ _
      constructor
      · rintro (h | h)
        · exact .inl (by omega)
        · exact .inr (.inr (.inl ⟨by omega, h.2⟩))
      · rintro (h | h | h | h)
        · exact .inl ⟨by omega, hsuffix⟩
        · omega
        · exact .inr ⟨by omega, h.2⟩
        · omega
    · rw [if_neg (by omega), trailer_suffix_tail (by simp only [List.length_append]; omega)]
      simp only [List.length_append]
      constructor
      · rintro (h | h)
        · exact .inr (.inr (.inr ⟨by omega, by omega, h.2⟩))
        · exact absurd h.2 (not_trailer_suffix _ (by decide))
      · rintro (h | h | h | h)
        · omega
        · omega
        · omega
        · exact .inl ⟨by omega, h.2.2⟩
  · -- nothing fits, and an empty name changes nothing
    have hname : (Item.cstr impl.basename).into t = t := by
      rw [Item.cstr_into hbase]
      split_ifs
      · have : impl.basename = [] := List.eq_nil_of_length_eq_zero (by omega)
        rw [this, List.append_nil]
      · rfl
    rw [if_neg (by omega), hname, trailer_suffix_tail (by omega)]
    constructor
    · rintro (h | h)
      · omega
      · exact .inr (.inl ⟨by omega, h.2⟩)
    · rintro (h | h | h | h)
      · omega
      · exact .inr ⟨by omega, h.2⟩
      · omega
      · omega

/-- Insertions change the stream alone. -/
theorem putAll_eq {items : List Item} (hcur : impl.stream.cur < kMinBufferSize)
    (hitems : ∀ item ∈ items, item.Sized) : ∃ stream, impl.putAll items =
      .ok { impl with stream := stream } ∧ stream.cur < kMinBufferSize ∧
        stream.content = items.foldl Item.into impl.stream.content := by
  obtain ⟨stream, h, hstream⟩ := LoggingStream.putAll_eq hcur hitems
  exact ⟨stream, by rw [putAll, h, Outcome.zoom_ok], hstream⟩

theorem sized_of_putAll {items : List Item} {impl' : LoggerImpl}
    (hcur : impl.stream.cur < kMinBufferSize) (h : impl.putAll items = .ok impl') :
    ∀ item ∈ items, item.Sized := by
  obtain ⟨stream, hstream, -⟩ := Outcome.zoom_eq_ok.1 h
  exact LoggingStream.sized_of_putAll hcur hstream

/-- What `Closes` asks for, a name must be short for. -/
theorem Closes.basename_length (h : impl.Closes) (hcur : impl.stream.cur < kMinBufferSize) :
    impl.basename.length < 2 ^ 31 := by
  have hlen := impl.stream.content_length hcur.le
  have hsize : kMinBufferSize = 4000 := rfl
  have hle : impl.basename.length ≤ impl.trailer.length := by
    simp only [trailer, List.length_append]
    omega
  unfold Closes free at h
  rcases h with h | h | h | h
  · omega
  · have := h.2.length_le
    omega
  · omega
  · have := h.2.2.length_le
    simp only [List.length_append] at this
    have hdash : (ascii "-").length = 1 := rfl
    omega

/-- The destructor hands out the text of the record. -/
theorem destroy_prefix {out : Logger.Output} (hcur : impl.stream.cur < kMinBufferSize)
    (hout : Logger.destroy impl = .ok out) : impl.stream.content <+: out.msg := by
  obtain ⟨impl', himpl', rfl⟩ := Outcome.zoom_eq_ok.1 hout
  obtain ⟨stream, h, -, hcontent⟩ := putAll_eq hcur (sized_of_putAll hcur himpl')
  obtain rfl := Outcome.ok.inj (himpl'.symm.trans h)
  show _ <+: stream.content
  rw [hcontent]
  exact Item.prefix_foldl_into _ _

/-- A name of an `int` length does not stop the destructor. -/
theorem destroy_eq (impl : LoggerImpl) (hcur : impl.stream.cur < kMinBufferSize)
    (hbase : impl.basename.length < 2 ^ 31) : ∃ out, Logger.destroy impl = .ok out ∧
      out.msg = [Item.cstr (ascii "-"), .cstr impl.basename, .cstr (ascii ":"), .int impl.line,
        .cstr (ascii "\n")].foldl Item.into impl.stream.content := by
  have hsized : ∀ item ∈ [Item.cstr (ascii "-"), .cstr impl.basename, .cstr (ascii ":"),
      .int impl.line, .cstr (ascii "\n")], item.Sized := by
    simp only [List.forall_mem_cons]
    exact ⟨Item.cstr_sized (by decide), Item.cstr_sized hbase, Item.cstr_sized (by decide),
      trivial, Item.cstr_sized (by decide), by simp⟩
  obtain ⟨stream, hfinish, -, hcontent⟩ := putAll_eq hcur hsized
  exact ⟨_, by rw [Logger.destroy, finish, hfinish, Outcome.zoom_ok], hcontent⟩

/-- The record ends in the trailer exactly if `Closes`. -/
theorem destroy_suffix_iff (hcur : impl.stream.cur < kMinBufferSize) :
    (∃ out, Logger.destroy impl = .ok out ∧ impl.trailer <:+ out.msg) ↔ impl.Closes := by
  constructor
  · rintro ⟨out, hout, hsuffix⟩
    obtain ⟨impl', himpl', rfl⟩ := Outcome.zoom_eq_ok.1 hout
    obtain ⟨stream, h, hstream, hcontent⟩ := putAll_eq hcur (sized_of_putAll hcur himpl')
    obtain rfl := Outcome.ok.inj (himpl'.symm.trans h)
    -- the record has less than 4000 bytes, and so has the name
    have hlen := hsuffix.length_le
    rw [stream.content_length hstream.le] at hlen
    simp only [trailer, List.length_append] at hlen
    have hsize : kMinBufferSize = 4000 := rfl
    have hbase : impl.basename.length < 2 ^ 31 := by omega
    rw [← trailer_suffix_iff hcur hbase, ← hcontent]
    exact hsuffix
  · intro h
    have hbase := h.basename_length hcur
    obtain ⟨out, hout, hmsg⟩ := destroy_eq impl hcur hbase
    exact ⟨out, hout, hmsg ▸ (trailer_suffix_iff hcur hbase).2 h⟩

end LoggerImpl

/-! ### The constructors -/

/-- A record under construction: its stream is not full, and the place it names is the caller's. -/
structure LogCtx.Begun (file : Bytes) (line : Int32) (c : LogCtx) : Prop where
  cur : c.impl.stream.cur < kMinBufferSize
  basename : c.impl.basename = LoggerImpl.baseOf file
  line : c.impl.line = line

namespace LogCtx

variable {file : Bytes} {line : Int32} {c c' : LogCtx} {env : LogEnv}

theorem Begun.putAll {items : List Item} (h : c.Begun file line) (hput : c.putAll items = .ok c') :
    c'.Begun file line := by
  obtain ⟨impl, himpl, rfl⟩ := Outcome.zoom_eq_ok.1 hput
  have hsized := LoggerImpl.sized_of_putAll h.cur himpl
  obtain ⟨stream, hstream, hcur, -⟩ := LoggerImpl.putAll_eq h.cur hsized
  obtain rfl := Outcome.ok.inj (himpl.symm.trans hstream)
  exact ⟨hcur, h.basename, h.line⟩

theorem Begun.putT {str : Bytes} {len : ℕ} (h : c.Begun file line)
    (hput : c.putT str len = .ok c') : c'.Begun file line := by
  unfold LogCtx.putT at hput
  split_ifs at hput
  exact h.putAll hput

theorem Begun.check {p : Bool} {e : Fault} (h : c.Begun file line)
    (hcheck : Outcome.check p e c = .ok c') : c'.Begun file line :=
  (Outcome.check_eq_ok.1 hcheck).2 ▸ h

theorem Begun.checkFmt {text : Bytes} {len : ℕ} {a : Assertion} (h : c.Begun file line)
    (hcheck : c.checkFmt text len a = .ok c') : c'.Begun file line := by
  obtain ⟨c₁, h₁, h₂⟩ := Outcome.bind_eq_ok.1 hcheck
  exact (h.check h₁).check h₂

theorem Begun.formatTime (h : c.Begun file line) (hformat : c.formatTime env = .ok c') :
    c'.Begun file line := by
  obtain ⟨c₁, h₁, hrest⟩ := Outcome.bind_eq_ok.1 hformat
  have hbegun : c₁.Begun file line := by
    split_ifs at h₁
    · obtain ⟨-, rfl⟩ := Outcome.check_eq_ok.1 h₁
      exact ⟨h.cur, h.basename, h.line⟩
    · cases h₁
      exact h
  obtain ⟨c₂, h₂, hrest⟩ := Outcome.bind_eq_ok.1 hrest
  obtain ⟨c₃, h₃, hrest⟩ := Outcome.bind_eq_ok.1 hrest
  obtain ⟨c₄, h₄, hrest⟩ := Outcome.bind_eq_ok.1 hrest
  exact (((hbegun.checkFmt h₂).check h₃).putT h₄).putT hrest

theorem Begun.construct {level : LogLevel} {savedErrno : Int32} {cache : TimeCache}
    (h : construct env level savedErrno file line cache = .ok c) : c.Begun file line := by
  obtain ⟨c₁, h₁, h⟩ := Outcome.bind_eq_ok.1 h
  have hcur : (FixedBuffer.new kMinBufferSize).cur < kMinBufferSize := Nat.zero_lt_succ 3999
  have hbegun : c₁.Begun file line := Begun.formatTime ⟨hcur, rfl, rfl⟩ h₁
  obtain ⟨c₂, h₂, h⟩ := Outcome.bind_eq_ok.1 h
  obtain ⟨c₃, h₃, h⟩ := Outcome.bind_eq_ok.1 h
  obtain ⟨c₄, h₄, h⟩ := Outcome.bind_eq_ok.1 h
  have hbegun := ((hbegun.checkFmt h₂).putT h₃).putT h₄
  split_ifs at h
  · exact hbegun.putAll h
  · cases h
    exact hbegun

theorem Begun.new {args : LoggerArgs} {cache : TimeCache}
    (h : Logger.new env file line cache args = .ok c) : c.Begun file line := by
  cases args with
  | info => exact .construct h
  | level level => exact .construct h
  | func level func =>
    obtain ⟨c₁, h₁, h⟩ := Outcome.bind_eq_ok.1 h
    exact (Begun.construct h₁).putAll h
  | toAbort toAbort errno => exact .construct h

end LogCtx

/-- A record begins with its header and ends with `-<basename>:<line>` and a newline exactly if
every text that was inserted has a length that an `int` can hold as a non-negative number, and
before the destructor there is room for the trailer, or the text completes what is dropped of it. -/
theorem log_record_framed {env : LogEnv} {file : Bytes} {line : Int32} {cache : TimeCache}
    {args : LoggerArgs} {c : LogCtx} (hnew : Logger.new env file line cache args = .ok c)
    (items : List Item) :
    (∃ impl out, c.impl.putAll items = .ok impl ∧ Logger.destroy impl = .ok out ∧
      c.impl.stream.content <+: out.msg ∧
      ascii "-" ++ LoggerImpl.baseOf file ++ ascii ":" ++ convert line.toInt ++ ascii "\n" <:+
        out.msg) ↔
      (∀ item ∈ items, item.Sized) ∧
        ∀ impl, c.impl.putAll items = .ok impl → impl.Closes := by
  have hbegun := LogCtx.Begun.new hnew
  have htrailer : ∀ stream, ascii "-" ++ LoggerImpl.baseOf file ++ ascii ":" ++
      convert line.toInt ++ ascii "\n" = { c.impl with stream := stream }.trailer := by
    intro stream
    rw [LoggerImpl.trailer, hbegun.basename, hbegun.line]
  constructor
  · rintro ⟨impl, out, hput, hout, -, hsuffix⟩
    have hsized := LoggerImpl.sized_of_putAll hbegun.cur hput
    obtain ⟨stream, hstream, hcur, -⟩ := LoggerImpl.putAll_eq hbegun.cur hsized
    obtain rfl := Outcome.ok.inj (hput.symm.trans hstream)
    refine ⟨hsized, fun impl himpl => ?_⟩
    obtain rfl := Outcome.ok.inj (hstream.symm.trans himpl)
    rw [htrailer stream] at hsuffix
    exact (LoggerImpl.destroy_suffix_iff hcur).1 ⟨out, hout, hsuffix⟩
  · rintro ⟨hsized, hcloses⟩
    obtain ⟨stream, hstream, hcur, hcontent⟩ := LoggerImpl.putAll_eq hbegun.cur hsized
    obtain ⟨out, hout, hsuffix⟩ := (LoggerImpl.destroy_suffix_iff hcur).2 (hcloses _ hstream)
    rw [← htrailer stream] at hsuffix
    have hheader : c.impl.stream.content <+: stream.content := by
      rw [hcontent]
      exact Item.prefix_foldl_into _ _
    exact ⟨_, out, hstream, hout, hheader.trans (LoggerImpl.destroy_prefix hcur hout), hsuffix⟩

/-- A thread with identifier 4711, at 22:13:20 on the 14th of November 2023. -/
def LogEnv.november : LogEnv where
  now := 1700000000000000
  gmtime := fun _ => ⟨123, 10, 14, 22, 13, 20⟩
  tid := 4711
  strerror := fun _ => []

/-- A record of a few bytes is framed. -/
theorem log_record_framed_short :
    ∃ c impl out, Logger.new .november (ascii "src/a.cc") 7 ⟨0, []⟩ .info = .ok c ∧
      c.impl.putAll [.cstr (ascii "fd = "), .int 5] = .ok impl ∧ Logger.destroy impl = .ok out ∧
      c.impl.stream.content = ascii "[20231114] [22:13:20.000000Z] [  4711] [INFO ] " ∧
      c.impl.stream.content <+: out.msg ∧
      ascii "-" ++ ascii "a.cc" ++ ascii ":" ++ convert 7 ++ ascii "\n" <:+ out.msg := by
  have hnew := Outcome.eq_ok_state (by decide +kernel :
    (Logger.new .november (ascii "src/a.cc") 7 ⟨0, []⟩ .info).fault? = none)
  have hheader : (Logger.new .november (ascii "src/a.cc") 7
      ⟨0, []⟩ .info).state.impl.stream.content =
    ascii "[20231114] [22:13:20.000000Z] [  4711] [INFO ] " := by decide +kernel
  have hsized : ∀ item ∈ [Item.cstr (ascii "fd = "), .int 5], item.Sized := by
    simp only [List.forall_mem_cons]
    exact ⟨Item.cstr_sized (by decide), trivial, by simp⟩
  have hbegun := LogCtx.Begun.new hnew
  obtain ⟨impl, out, hput, hout, hprefix, hsuffix⟩ := (log_record_framed hnew _).2
    ⟨hsized, fun impl himpl => by
      obtain ⟨stream, hstream, -, hcontent⟩ := LoggerImpl.putAll_eq hbegun.cur hsized
      obtain rfl := Outcome.ok.inj (himpl.symm.trans hstream)
      -- 47 bytes of header and 25 of text at most leave room
      have h1 := Item.into_length (ascii "[20231114] [22:13:20.000000Z] [  4711] [INFO ] ")
        (.cstr (ascii "fd = "))
      have h2 := Item.into_length ((Item.cstr (ascii "fd = ")).into
        (ascii "[20231114] [22:13:20.000000Z] [  4711] [INFO ] ")) (.int 5)
      have h3 : (Item.int 5).render.length ≤ 20 := convert_length (by decide) (by decide)
      have h4 : (ascii "[20231114] [22:13:20.000000Z] [  4711] [INFO ] ").length = 47 := by decide
      have h5 : (Item.cstr (ascii "fd = ")).render.length = 5 := by decide
      have hbase : (Logger.new .november (ascii "src/a.cc") 7
        ⟨0, []⟩ .info).state.impl.basename.length = 4 := by decide +kernel
      refine .inl ?_
      simp only [LoggerImpl.free, hcontent, hheader, List.foldl_cons, List.foldl_nil, hbase]
      unfold kMinBufferSize
      omega⟩
  exact ⟨_, impl, out, hnew, hput, hout, hheader, hprefix, hsuffix⟩

/-- A text that leaves one byte free: the record ends in it, without a newline. -/
theorem long_record_unframed :
    ∃ c impl out, Logger.new .november (ascii "src/a.cc") 7 ⟨0, []⟩ .info = .ok c ∧
      c.impl.putAll [.cstr (List.replicate 3952 97)] = .ok impl ∧ Logger.destroy impl = .ok out ∧
      ¬ascii "-" ++ ascii "a.cc" ++ ascii ":" ++ convert 7 ++ ascii "\n" <:+ out.msg := by
  have hnew := Outcome.eq_ok_state (by decide +kernel :
    (Logger.new .november (ascii "src/a.cc") 7 ⟨0, []⟩ .info).fault? = none)
  have hbegun := LogCtx.Begun.new hnew
  have hheader : (Logger.new .november (ascii "src/a.cc") 7
      ⟨0, []⟩ .info).state.impl.stream.content.length = 47 := by decide +kernel
  generalize (Logger.new .november (ascii "src/a.cc") 7 ⟨0, []⟩ .info).state = c at *
  have hlen : (List.replicate 3952 (97 : UInt8)).length = 3952 := List.length_replicate
  have hsized : ∀ item ∈ [Item.cstr (List.replicate 3952 97)], item.Sized := by
    simp only [List.forall_mem_singleton]
    exact Item.cstr_sized (by omega)
  obtain ⟨stream, hstream, hcur, hcontent⟩ := LoggerImpl.putAll_eq hbegun.cur hsized
  have hfits : (List.replicate 3952 (97 : UInt8)).length + 1 + c.impl.stream.content.length ≤
      kMinBufferSize := by
    rw [hlen, hheader]
    decide
  rw [List.foldl_cons, List.foldl_nil, Item.cstr_into (by omega), if_pos hfits] at hcontent
  have hfree : { c.impl with stream := stream }.free = 1 := by
    simp only [LoggerImpl.free, hcontent, List.length_append, hheader, hlen]
    rfl
  have hbase : c.impl.basename = ascii "a.cc" := hbegun.basename
  obtain ⟨out, hout, -⟩ := LoggerImpl.destroy_eq { c.impl with stream := stream } hcur
    (by rw [hbase]; decide)
  refine ⟨c, _, out, hnew, hstream, hout, fun hsuffix => ?_⟩
  have htrailer : ascii "-" ++ ascii "a.cc" ++ ascii ":" ++ convert 7 ++ ascii "\n" =
      { c.impl with stream := stream }.trailer := by
    rw [LoggerImpl.trailer, hbase, hbegun.line]
    rfl
  rw [htrailer] at hsuffix
  rcases (LoggerImpl.destroy_suffix_iff hcur).1 ⟨out, hout, hsuffix⟩ with h | h | h | h
  · omega
  · refine LoggerImpl.not_trailer_suffix { c.impl with stream := stream } (c := 97) (by decide)
      (u := c.impl.stream.content ++ List.replicate 3951 97) ?_
    rw [List.append_assoc, ← List.replicate_succ', ← hcontent]
    exact h.2
  · rw [hfree, hbase] at h
    exact absurd h.1 (by decide)
  · omega

end Jiangbo
