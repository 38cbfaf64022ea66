import LearnForCpp.Lib.FixedWidth
import LearnForCpp.Logging.LogHeader
import LearnForCpp.Reactor.Timer

/-!
# Times as texts

The texts of a time in `timestamp/TimeStamp.cc`, in the header of a log record and in the name of a
log file.  All are fields of fixed width until the end of 9999, the largest unit first, so that they
sort as the times do.
-/

namespace Jiangbo

/-! ### Formats as fields -/

/-- A decimal digit. -/
def digit (d : ℕ) : UInt8 := UInt8.ofNat (48 + d)

theorem digit_lt_digit (i j : ℕ) (h : i < j) (hj : j < 10) : digit i < digit j := by
  have hall : ∀ i j : Fin 10, i < j → digit i < digit j := by decide
  exact hall ⟨i, by omega⟩ ⟨j, hj⟩ h

theorem digitChar_toUInt8 {d : ℕ} (h : d < 10) : (Nat.digitChar d).toUInt8 = digit d := by
  have hall : ∀ d : Fin 10, (Nat.digitChar d).toUInt8 = digit d := by decide
  exact hall ⟨d, h⟩

theorem exists_digit {n : ℕ} {c : UInt8} (h : c ∈ (Nat.toDigits 10 n).map Char.toUInt8) :
    ∃ d : Fin 10, c = digit d := by
  induction n using Nat.strong_induction_on with
  | _ n ih =>
    rcases lt_or_ge n 10 with hlt | hge
    · rw [Nat.toDigits_of_lt_base hlt, List.map_singleton, digitChar_toUInt8 hlt] at h
      exact ⟨⟨n, hlt⟩, List.mem_singleton.1 h⟩
    · have hmod := Nat.mod_lt n (by decide : 0 < 10)
      rw [Nat.toDigits_of_base_le (by decide) hge, List.map_append, List.map_singleton,
        digitChar_toUInt8 hmod] at h
      rcases List.mem_append.1 h with h | h
      · exact ih (n / 10) (Nat.div_lt_self (by omega) (by decide)) h
      · exact ⟨⟨n % 10, hmod⟩, List.mem_singleton.1 h⟩

theorem pad_toDigits {w n : ℕ} (hw : 0 < w) (hn : n < 10 ^ w) :
    List.replicate (w - (Nat.toDigits 10 n).length) 48 ++ (Nat.toDigits 10 n).map Char.toUInt8 =
      FixedWidth.text 10 digit w n := by
  induction w, hw using Nat.le_induction generalizing n with
  | base =>
    have hlt : n < 10 := by simpa using hn
    rw [Nat.toDigits_of_lt_base hlt]
    simp [FixedWidth.text, digitChar_toUInt8 hlt, Nat.mod_eq_of_lt hlt]
  | succ w hw ih =>
    rcases lt_or_ge n 10 with hlt | hge
    · rw [Nat.toDigits_of_lt_base hlt, FixedWidth.text, Nat.div_eq_of_lt hlt, Nat.mod_eq_of_lt hlt,
        FixedWidth.text_zero]
      simp [digitChar_toUInt8 hlt, digit]
    · have hdiv : n / 10 < 10 ^ w := Nat.div_lt_of_lt_mul (by rwa [mul_comm, ← pow_succ])
      rw [Nat.toDigits_of_base_le (by decide) hge, FixedWidth.text, ← ih hdiv, List.length_append,
        List.length_singleton, Nat.add_sub_add_right, List.map_append, List.append_assoc,
        List.map_singleton, digitChar_toUInt8 (Nat.mod_lt n (by decide))]

/-- A number that fits its field is written with all digits. -/
theorem percent0D_eq_text {w : ℕ} {v : ℤ} (hw : 0 < w) (hv : 0 ≤ v) (hlt : v < 10 ^ w) :
    percent0D w v = FixedWidth.text 10 digit w v.toNat := by
  have hn : v.natAbs < 10 ^ w := by zify; rwa [abs_of_nonneg hv]
  have hnat : v.natAbs = v.toNat := by omega
  rw [← hnat, ← pad_toDigits hw hn]
  simp only [percent0D, if_neg (not_lt.2 hv), ascii, Nat.toList_repr, List.length_map]

theorem percent0D_lt {w : ℕ} {v v' : ℤ} (hw : 0 < w) (hv : 0 ≤ v) (h : v < v')
    (hlt : v' < 10 ^ w) : percent0D w v < percent0D w v' := by
  rw [percent0D_eq_text hw hv (h.trans hlt), percent0D_eq_text hw (hv.trans h.le) hlt]
  refine FixedWidth.text_lt_text digit_lt_digit (by omega) ?_
  zify
  rwa [Int.toNat_of_nonneg (hv.trans h.le)]

/-- A year with four digits needs no padding. -/
theorem percentD_year {w : ℕ} {year : ℤ} (hw : w ≤ 4) (h : 1000 ≤ year ∧ year < 10000) :
    percentD w year = percent0D 4 year := by
  have hlen : 4 ≤ (ascii year.repr).length := by
    by_contra hlt
    have hle : (ascii year.repr).length ≤ 3 := by omega
    have := (ascii_repr_length_le (by omega) (by decide)).1 hle
    omega
  have habs : year.natAbs.repr = year.repr := by
    obtain ⟨n, rfl⟩ := Int.eq_ofNat_of_zero_le (by omega : 0 ≤ year)
    rfl
  rw [percentD, percent0D, if_neg (by omega), habs, Nat.sub_eq_zero_of_le (hw.trans hlen),
    Nat.sub_eq_zero_of_le hlen]
  rfl

/-- Numbers in fields of the given widths, each with what is printed behind it. -/
def fields : List (ℕ × Bytes) → List ℤ → Bytes
  | (w, sep) :: fs, v :: vs => percent0D w v ++ (sep ++ fields fs vs)
  | _, _ => []

/-- The numbers fit their fields. -/
def Fit : List (ℕ × Bytes) → List ℤ → Prop :=
  List.Forall₂ fun f v => 0 < f.1 ∧ 0 ≤ v ∧ v < 10 ^ f.1

theorem fields_lt {fs : List (ℕ × Bytes)} {vs vs' : List ℤ} (hvs : Fit fs vs) (hvs' : Fit fs vs')
    (h : vs < vs') : fields fs vs < fields fs vs' := by
  induction hvs generalizing vs' with
  | nil =>
    cases hvs'
    exact absurd h (lt_irrefl _)
  | @cons f v fs vs hv hvs ih =>
    cases hvs' with | @cons _ v' _ vs' hv' hvs' =>
    obtain ⟨w, sep⟩ := f
    rw [fields, fields]
    refine FixedWidth.append_lt_append ?_ ?_
    · rw [percent0D_length_eq hv.2.1 hv.1 hv.2.2, percent0D_length_eq hv'.2.1 hv'.1 hv'.2.2]
    · rcases List.cons_lt_cons_iff.1 h with hlt | ⟨rfl, hlt⟩
      · exact .inl (percent0D_lt hv.1 hv.2.1 hlt hv'.2.2)
      · exact .inr ⟨rfl, List.append_left_lt (ih hvs' hlt)⟩

theorem length_fields {fs : List (ℕ × Bytes)} {vs : List ℤ} (hvs : Fit fs vs) :
    (fields fs vs).length = (fs.map fun f => f.1 + f.2.length).sum := by
  induction hvs with
  | nil => rfl
  | @cons f v fs vs hv hvs ih =>
    obtain ⟨w, sep⟩ := f
    simp only [fields, List.length_append, ih, percent0D_length_eq hv.2.1 hv.1 hv.2.2,
      List.map_cons, List.sum_cons]
    omega

/-! ### The fields of a time -/

/-- The numbers that are printed of a time, the largest unit first. -/
def Tm.toList (tm : Tm) : List ℤ :=
  [tm.year + 1900, tm.mon + 1, tm.mday, tm.hour, tm.min, tm.sec]

theorem Tm.length_toList (tm : Tm) : tm.toList.length = 6 := rfl

/-- The six fields, with what is printed behind each of them. -/
def timeFields (seps : Fin 6 → Bytes) : List (ℕ × Bytes) :=
  [(4, seps 0), (2, seps 1), (2, seps 2), (2, seps 3), (2, seps 4), (2, seps 5)]

variable {a b : ℤ}

/-- Later seconds have later fields. -/
theorem gmtime_lt (h : a < b) : (LogFile.gmtime a).toList < (LogFile.gmtime b).toList := by
  simp only [Tm.toList, LogFile.gmtime, List.cons_lt_cons_iff]
  rcases (Int.ediv_le_ediv (by decide : (0 : ℤ) < 86400) h.le).lt_or_eq with hday | hday
  · have hdate := Calendar.dateOf_lt_dateOf hday
    simp only [Calendar.Date.toList, List.cons_lt_cons_iff] at hdate
    rcases hdate with hy | ⟨hy, hm | ⟨hm, hd | ⟨-, hnil⟩⟩⟩
    · left
      omega
    · right
      exact ⟨by omega, .inl (by omega)⟩
    · right
      exact ⟨by omega, .inr ⟨by omega, .inl (by omega)⟩⟩
    · exact absurd hnil (lt_irrefl _)
  · -- on the same day the time of day decides
    rw [hday]
    refine .inr ⟨rfl, .inr ⟨rfl, .inr ⟨rfl, ?_⟩⟩⟩
    omega

/-- Until the end of 9999 the numbers fit. -/
theorem gmtime_fit (seps : Fin 6 → Bytes) (h0 : 0 ≤ a) (h : a < 253402300800) :
    Fit (timeFields seps) (LogFile.gmtime a).toList := by
  have hyear := Calendar.dateOf_year (by omega : 0 ≤ a / 86400) (by omega)
  have hdate := Calendar.dateOf_lt (a / 86400)
  simp only [Fit, timeFields, Tm.toList, LogFile.gmtime, sub_add_cancel, List.forall₂_cons,
    Nat.ofNat_pos, Int.reducePow, true_and, List.forall₂_nil_right_iff, and_true]
  omega

/-- A time in microseconds, as the numbers that are printed of it. -/
def stamp (t : ℤ) : List ℤ := (LogFile.gmtime (t.tdiv 1000000)).toList ++ [t.tmod 1000000]

theorem stamp_lt (h0 : 0 ≤ a) (h : a < b) : stamp a < stamp b := by
  rw [stamp, stamp, Int.tdiv_eq_ediv_of_nonneg h0, Int.tdiv_eq_ediv_of_nonneg (h0.trans h.le),
    Int.tmod_eq_emod_of_nonneg h0, Int.tmod_eq_emod_of_nonneg (h0.trans h.le)]
  refine FixedWidth.append_lt_append (by rw [Tm.length_toList, Tm.length_toList]) ?_
  rcases (Int.ediv_le_ediv (by decide : (0 : ℤ) < 1000000) h.le).lt_or_eq with hs | hs
  · exact .inl (gmtime_lt hs)
  · refine .inr ⟨by rw [hs], List.cons_lt_cons_iff.2 (.inl ?_)⟩
    omega

theorem stamp_fit (seps : Fin 6 → Bytes) (sep : Bytes) (h0 : 0 ≤ a)
    (h : a < 253402300800 * 1000000) : Fit (timeFields seps ++ [(6, sep)]) (stamp a) := by
  rw [stamp, Int.tdiv_eq_ediv_of_nonneg h0, Int.tmod_eq_emod_of_nonneg h0]
  refine List.rel_append (gmtime_fit seps (by omega) (by omega)) (.cons ?_ .nil)
  change 0 < 6 ∧ 0 ≤ a % 1000000 ∧ a % 1000000 < 10 ^ 6
  omega

/-- Later times have larger texts, whatever follows. -/
theorem stamp_text_lt (seps : Fin 6 → Bytes) (sep xs ys : Bytes) (h0 : 0 ≤ a) (h : a < b)
    (hb : b < 253402300800 * 1000000) :
    fields (timeFields seps ++ [(6, sep)]) (stamp a) ++ xs <
      fields (timeFields seps ++ [(6, sep)]) (stamp b) ++ ys := by
  have hfa := stamp_fit seps sep h0 (h.trans hb)
  have hfb := stamp_fit seps sep (h0.trans h.le) hb
  exact FixedWidth.append_lt_append (by rw [length_fields hfa, length_fields hfb])
    (.inl (fields_lt hfa hfb (stamp_lt h0 h)))

/-- The year of a time until the end of 9999. -/
theorem gmtime_year (h0 : 0 ≤ a) (h : a < 253402300800) :
    1000 ≤ (LogFile.gmtime a).year + 1900 ∧ (LogFile.gmtime a).year + 1900 < 10000 := by
  have hyear := Calendar.dateOf_year (by omega : 0 ≤ a / 86400) (by omega)
  simp only [LogFile.gmtime]
  omega

/-! ### `Timestamp` -/

/-- What `snprintf` leaves in a buffer of the given size. -/
def snprintf (size : ℕ) (text : Bytes) : Bytes := text.take (size - 1)

namespace Timestamp

/-- `toString()`. -/
def toString (t : ℤ) : Bytes :=
  let seconds := t.tdiv kMicroSecondPerSecond
  let microseconds := t.tmod kMicroSecondPerSecond
  snprintf 31 (percentD 0 seconds ++ ascii "." ++ percent0D 6 microseconds)

/-- `toFormattedString()`. -/
def toFormattedString (t : ℤ) : Bytes :=
  let seconds := t.tdiv kMicroSecondPerSecond
  let microseconds := t.tmod kMicroSecondPerSecond
  let tm := LogFile.gmtime seconds
  snprintf 64 (percentD 4 (tm.year + 1900) ++ percent0D 2 (tm.mon + 1) ++ percent0D 2 tm.mday ++
    ascii " " ++ percent0D 2 tm.hour ++ ascii ":" ++ percent0D 2 tm.min ++ ascii ":" ++
    percent0D 2 tm.sec ++ ascii "." ++ percent0D 6 microseconds)

/-- What stands behind the fields. -/
def seps : Fin 6 → Bytes := ![[], [], ascii " ", ascii ":", ascii ":", ascii "."]

theorem toFormattedString_eq (h0 : 0 ≤ a) (h : a < 253402300800 * 1000000) :
    toFormattedString a = fields (timeFields seps ++ [(6, [])]) (stamp a) := by
  have hyear := gmtime_year (a := a.tdiv 1000000)
    (by rw [Int.tdiv_eq_ediv_of_nonneg h0]; omega) (by rw [Int.tdiv_eq_ediv_of_nonneg h0]; omega)
  have htext : fields (timeFields seps ++ [(6, [])]) (stamp a) =
      percentD 4 ((LogFile.gmtime (a.tdiv 1000000)).year + 1900) ++
      percent0D 2 ((LogFile.gmtime (a.tdiv 1000000)).mon + 1) ++
      percent0D 2 (LogFile.gmtime (a.tdiv 1000000)).mday ++ ascii " " ++
      percent0D 2 (LogFile.gmtime (a.tdiv 1000000)).hour ++ ascii ":" ++
      percent0D 2 (LogFile.gmtime (a.tdiv 1000000)).min ++ ascii ":" ++
      percent0D 2 (LogFile.gmtime (a.tdiv 1000000)).sec ++ ascii "." ++
      percent0D 6 (a.tmod 1000000) := by
    rw [percentD_year le_rfl hyear]
    simp [fields, timeFields, stamp, Tm.toList, seps]
  -- the buffer is large enough
  have hlen := length_fields (stamp_fit seps [] h0 h)
  have htake := List.take_of_length_le (l := fields (timeFields seps ++ [(6, [])]) (stamp a))
    (i := 63) (by rw [hlen]; decide)
  rw [← htake, htext]
  rfl

/-- Until the end of 9999 the text of a later time is larger. -/
theorem toFormattedString_lt (h0 : 0 ≤ a) (h : a < b) (hb : b < 253402300800 * 1000000) :
    toFormattedString a < toFormattedString b := by
  rw [toFormattedString_eq h0 (h.trans hb), toFormattedString_eq (h0.trans h.le) hb]
  simpa using stamp_text_lt seps [] [] [] h0 h hb

/-! ### `toString` -/

/-- Reading a number with leading zeros back. -/
theorem twoDigits_pad (k n : ℕ) :
    twoDigits (List.replicate k 48 ++ (Nat.toDigits 10 n).map Char.toUInt8) = n := by
  have hzeros : ∀ k : ℕ, (List.replicate k (48 : UInt8)).foldl
      (fun v d => 10 * v + (d.toNat - 48)) 0 = 0 := by
    intro k
    induction k with
    | zero => rfl
    | succ k ih => simpa [List.replicate_succ] using ih
  have hdigit : ∀ d : Fin 10, (digit d).toNat - 48 = d := by decide
  rw [twoDigits, List.foldl_append, hzeros]
  induction n using Nat.strong_induction_on with
  | _ n ih =>
    rcases lt_or_ge n 10 with hlt | hge
    · rw [Nat.toDigits_of_lt_base hlt, List.map_singleton, digitChar_toUInt8 hlt]
      simpa using hdigit ⟨n, hlt⟩
    · have hmod := Nat.mod_lt n (by decide : 0 < 10)
      rw [Nat.toDigits_of_base_le (by decide) hge, List.map_append, List.foldl_append,
        ih (n / 10) (Nat.div_lt_self (by omega) (by decide)), List.map_singleton,
        digitChar_toUInt8 hmod]
      have hd := hdigit ⟨n % 10, hmod⟩
      simp only [List.foldl_cons, List.foldl_nil]
      dsimp only at hd
      omega

/-- Digits are not a minus sign and not a point. -/
theorem toDigits_ne (n : ℕ) : ∀ c ∈ (Nat.toDigits 10 n).map Char.toUInt8, c ≠ 45 ∧ c ≠ 46 := by
  have hdigit : ∀ d : Fin 10, digit d ≠ 45 ∧ digit d ≠ 46 := by decide
  intro c hc
  obtain ⟨d, rfl⟩ := exists_digit hc
  exact hdigit d

theorem ascii_repr (v : ℤ) : ascii v.repr =
    (if v < 0 then [45] else []) ++ (Nat.toDigits 10 v.natAbs).map Char.toUInt8 := by
  rw [ascii, repr_toList]
  split_ifs <;> rfl

/-- A number is a sign, zeros and digits. -/
theorem exists_percent0D (w : ℕ) (v : ℤ) : ∃ k, percent0D w v = (if v < 0 then [45] else []) ++
    (List.replicate k 48 ++ (Nat.toDigits 10 v.natAbs).map Char.toUInt8) := by
  have habs : ascii v.natAbs.repr = (Nat.toDigits 10 v.natAbs).map Char.toUInt8 := by
    rw [ascii, Nat.toList_repr]
  unfold percent0D
  split_ifs
  · exact ⟨_, by rw [habs, List.append_assoc]; rfl⟩
  · exact ⟨_, by rw [habs]; rfl⟩

/-- Zeros and digits are not a minus sign and not a point. -/
theorem zeros_toDigits_ne (k n : ℕ) : ∀ c ∈ List.replicate k 48 ++
    (Nat.toDigits 10 n).map Char.toUInt8, c ≠ 45 ∧ c ≠ 46 := by
  intro c hc
  rcases List.mem_append.1 hc with h | h
  · rw [List.eq_of_mem_replicate h]
    decide
  · exact toDigits_ne n c h

theorem percent0D_injective (w : ℕ) : Function.Injective (percent0D w) := by
  intro v v' h
  obtain ⟨k, hk⟩ := exists_percent0D w v
  obtain ⟨k', hk'⟩ := exists_percent0D w v'
  rw [hk, hk'] at h
  split_ifs at h with hv hv' hv'
  · have habs := congrArg twoDigits (List.append_cancel_left h)
    rw [twoDigits_pad, twoDigits_pad] at habs
    omega
  · rw [List.nil_append, List.singleton_append] at h
    exact absurd rfl (zeros_toDigits_ne k' _ 45 (h ▸ List.mem_cons_self)).1
  · rw [List.nil_append, List.singleton_append] at h
    exact absurd rfl (zeros_toDigits_ne k _ 45 (h ▸ List.mem_cons_self)).1
  · have habs := congrArg twoDigits h
    rw [List.nil_append, List.nil_append, twoDigits_pad, twoDigits_pad] at habs
    omega

/-- A number has no point. -/
theorem point_notMem (k n : ℕ) (v : ℤ) : (46 : UInt8) ∉ (if v < 0 then [45] else []) ++
    (List.replicate k 48 ++ (Nat.toDigits 10 n).map Char.toUInt8) := by
  intro h
  rcases List.mem_append.1 h with h | h
  · split_ifs at h
    · exact absurd (List.mem_singleton.1 h) (by decide)
    · cases h
  · exact (zeros_toDigits_ne k n 46 h).2 rfl

theorem length_repr_le {v : ℤ} {k : ℕ} (hk : 0 < k) (hv : v.natAbs < 10 ^ k) :
    (ascii v.repr).length ≤ k + 1 := by
  have hlen := (Nat.length_toDigits_le_iff (by decide) hk).2 hv
  rw [ascii_repr, List.length_append, List.length_map]
  split_ifs
  · simp only [List.length_singleton]
    omega
  · simp only [List.length_nil]
    omega

theorem length_percent0D_le {w k : ℕ} {v : ℤ} (hk : 0 < k) (hw : w ≤ k) (hv : v.natAbs < 10 ^ k) :
    (percent0D w v).length ≤ k + 1 := by
  have hlen := (Nat.length_toDigits_le_iff (by decide) hk).2 hv
  have habs : (ascii v.natAbs.repr).length = (Nat.toDigits 10 v.natAbs).length := by
    rw [ascii, Nat.toList_repr, List.length_map]
  unfold percent0D
  split_ifs
  · simp only [List.length_append, List.length_replicate, habs]
    change 1 + _ + _ ≤ _
    omega
  · simp only [List.length_append, List.length_replicate, habs]
    omega

/-- What fits 64 bits fits the buffer. -/
theorem toString_eq (h : InInt64 a) : toString a = ascii (a.tdiv 1000000).repr ++
    46 :: percent0D 6 (a.tmod 1000000) := by
  have hsec : (a.tdiv 1000000).natAbs < 10 ^ 13 := by
    unfold InInt64 at h
    rw [Int.natAbs_tdiv]
    change a.natAbs / 1000000 < _
    omega
  have hmicro : (a.tmod 1000000).natAbs < 10 ^ 6 := by
    rw [Int.natAbs_tmod]
    exact Nat.mod_lt _ (by decide)
  have hlen1 := length_repr_le (by decide) hsec
  have hlen2 := length_percent0D_le (w := 6) (by decide) le_rfl hmicro
  change List.take 30 (List.replicate _ 32 ++ ascii (a.tdiv 1000000).repr ++ [46] ++
    percent0D 6 (a.tmod 1000000)) = _
  rw [Nat.zero_sub, List.replicate_zero, List.nil_append, List.append_assoc, List.singleton_append]
  refine List.take_of_length_le ?_
  rw [List.length_append, List.length_cons]
  omega

theorem toString_injOn (ha : InInt64 a) (hb : InInt64 b) (h : toString a = toString b) : a = b := by
  rw [toString_eq ha, toString_eq hb] at h
  have hx := point_notMem 0 (a.tdiv 1000000).natAbs (a.tdiv 1000000)
  obtain ⟨k, hk⟩ := exists_percent0D 6 (a.tmod 1000000)
  have hz := point_notMem k (a.tmod 1000000).natAbs (a.tmod 1000000)
  rw [List.replicate_zero, List.nil_append, ← ascii_repr] at hx
  rw [← hk] at hz
  obtain ⟨hs, -, hu⟩ := (List.append_cons_inj_of_notMem hx hz).1 h
  have hsec := ascii_repr_injective hs
  have hmicro := percent0D_injective 6 hu
  rw [← Int.mul_tdiv_add_tmod a 1000000, hsec, hmicro, Int.mul_tdiv_add_tmod]

end Timestamp

/-- **The texts of a timestamp.** `toString` loses nothing of any 64-bit timestamp, until the end of
9999 the texts of `toFormattedString` sort as the timestamps do, and the buffer of `toString` holds
all of the seconds, the point and the microseconds. -/
theorem timestamp_texts (a b : ℤ) :
    (InInt64 a → InInt64 b → (Timestamp.toString a = Timestamp.toString b ↔ a = b)) ∧
      (0 ≤ a → 0 ≤ b → a < 253402300800 * 1000000 → b < 253402300800 * 1000000 →
        (Timestamp.toFormattedString a < Timestamp.toFormattedString b ↔ a < b)) ∧
      (InInt64 a → Timestamp.toString a =
        ascii (a.tdiv 1000000).repr ++ 46 :: percent0D 6 (a.tmod 1000000)) := by
  refine ⟨fun ha hb => ⟨Timestamp.toString_injOn ha hb, fun h => h ▸ rfl⟩,
    fun ha0 hb0 ha hb => ⟨fun h => ?_, fun h => Timestamp.toFormattedString_lt ha0 h hb⟩,
    Timestamp.toString_eq⟩
  by_contra hle
  rcases (not_lt.1 hle).lt_or_eq with hlt | rfl
  · exact List.lt_asymm h (Timestamp.toFormattedString_lt hb0 hlt ha)
  · exact List.lt_irrefl _ h

/-- Half a second before the epoch; the last microsecond of a year and the next one; the last
timestamp of 64 bits. -/
theorem timestamp_texts_new_year :
    Timestamp.toString (-500000) ≠ Timestamp.toString 500000 ∧
      Timestamp.toFormattedString 1704067199999999 < Timestamp.toFormattedString 1704067200000000 ∧
      Timestamp.toString (2 ^ 63 - 1) = ascii "9223372036854.775807" :=
  ⟨fun h => by simpa using ((timestamp_texts (-500000) 500000).1 (by decide) (by decide)).1 h,
    ((timestamp_texts 1704067199999999 1704067200000000).2.1 (by decide) (by decide) (by decide)
      (by decide)).2 (by decide),
    ((timestamp_texts (2 ^ 63 - 1) 0).2.2 (by decide)).trans (by decide)⟩

/-! ### Log records -/

namespace ImplCall

/-- What stands behind the fields of a header. -/
def seps : Fin 6 → Bytes := ![[], [], ascii "] [", ascii ":", ascii ":", ascii "."]

theorem header_eq (c : ImplCall) (tid : Int32) : c.header tid = 91 ::
    (fields (timeFields seps ++ [(6, ascii "Z] ")]) (stamp c.now) ++
      (ascii "[" ++ percentD 6 tid.toInt ++ ascii "] " ++ c.level.name)) := by
  have h0 : 0 ≤ c.now := (by decide : (0 : ℤ) ≤ 1000000).trans c.now_ge
  have hnow := c.now_lt
  have hyear := gmtime_year (a := c.now.tdiv 1000000)
    (by rw [Int.tdiv_eq_ediv_of_nonneg h0]; omega) (by rw [Int.tdiv_eq_ediv_of_nonneg h0]; omega)
  have hbracket : ascii "[" = [91] := rfl
  simp [header, Tm.format, fields, timeFields, stamp, Tm.toList, seps, percentD_year le_rfl hyear,
    hbracket]

end ImplCall

/-- **Log records sort by time.** Whatever threads, levels and messages they are of, the record with
the earlier time is the smaller text. -/
theorem log_records_sort {c c' : ImplCall} (h : c.now < c'.now) (tid tid' : Int32)
    (rest rest' : Bytes) : c.header tid ++ rest < c'.header tid' ++ rest' := by
  have h0 : 0 ≤ c.now := (by decide : (0 : ℤ) ≤ 1000000).trans c.now_ge
  rw [c.header_eq, c'.header_eq, List.cons_append, List.cons_append, List.cons_lt_cons_iff]
  refine .inr ⟨rfl, ?_⟩
  simp only [List.append_assoc]
  exact stamp_text_lt ImplCall.seps _ _ _ h0 h c'.now_lt

/-- The last microsecond of a year in the thread 42, and the next one in the thread 7. -/
theorem log_records_sort_new_year :
    (ImplCall.atTime 1704067199999999 (by decide)).header 42 ++ ascii "later" <
      (ImplCall.atTime 1704067200000000 (by decide)).header 7 ++ ascii "earlier" :=
  log_records_sort (show (1704067199999999 : ℤ) < 1704067200000000 by decide) 42 7 _ _

/-! ### File names -/

namespace LogFile

/-- What stands behind the fields of a file name. -/
def seps : Fin 6 → Bytes := ![[], [], ascii "-", [], [], []]

theorem strftime_eq (h0 : 0 ≤ a) (h : a < 253402300800) :
    strftime (gmtime a) = 46 :: fields (timeFields seps) (gmtime a).toList := by
  have hpoint : ascii "." = [46] := rfl
  simp [strftime, fields, timeFields, Tm.toList, seps,
    percentD_year (Nat.zero_le 4) (gmtime_year h0 h), hpoint]

/-- The file of a later second has the larger name. -/
theorem getLogFileName_lt (basename : Bytes) (pid : ℤ) (h0 : 0 ≤ a) (h : a < b)
    (hb : b < 253402300800) : getLogFileName basename pid a < getLogFileName basename pid b := by
  have hfa := gmtime_fit seps h0 (h.trans hb)
  have hfb := gmtime_fit seps (h0.trans h.le) hb
  simp only [getLogFileName, List.append_assoc, strftime_eq h0 (h.trans hb),
    strftime_eq (h0.trans h.le) hb]
  refine List.append_left_lt (List.cons_lt_cons_iff.2 (.inr ⟨rfl, ?_⟩))
  exact FixedWidth.append_lt_append (by rw [length_fields hfa, length_fields hfb])
    (.inl (fields_lt hfa hfb (gmtime_lt h)))

end LogFile

end Jiangbo
