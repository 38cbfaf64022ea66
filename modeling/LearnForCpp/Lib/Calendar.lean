import Mathlib.Tactic

/-!
# The Gregorian calendar

The date of a day, with days counted from 1970-01-01: the day is counted off along the lengths of
the years, and what is left along the lengths of the months.  The years repeat every 400 years, or
146097 days, and 2000-01-01 is day 10957.

* `locate`: counting a number off along a list of lengths.
* `dateOf`, with `dateOf_injective`: no two days have the same date, and `dateOf_lt_dateOf`: a later
  day has a later date.
-/

namespace Calendar

/-! ### Counting off -/

/-- The place of the length in which the number `d` falls, and what is left of it there. -/
def locate : List ℕ → ℕ → ℕ × ℕ
  | [], d => (0, d)
  | l :: ls, d => if d < l then (0, d) else ((locate ls (d - l)).1 + 1, (locate ls (d - l)).2)

theorem locate_sum (ls : List ℕ) (d : ℕ) :
    (ls.take (locate ls d).1).sum + (locate ls d).2 = d := by
  induction ls generalizing d with
  | nil => simp [locate]
  | cons l ls ih =>
    by_cases h : d < l
    · simp [locate, h]
    · have ih := ih (d - l)
      simp only [locate, h, if_false, List.take_succ_cons, List.sum_cons]
      omega

theorem locate_lt {ls : List ℕ} {d : ℕ} (h : d < ls.sum) :
    ∃ l, ls[(locate ls d).1]? = some l ∧ (locate ls d).2 < l := by
  induction ls generalizing d with
  | nil => simp at h
  | cons l ls ih =>
    by_cases hd : d < l
    · exact ⟨l, by simp [locate, hd], by simp [locate, hd]⟩
    · rw [List.sum_cons] at h
      obtain ⟨l', hl, hlt⟩ := ih (show d - l < ls.sum by omega)
      exact ⟨l', by simpa [locate, hd] using hl, by simpa [locate, hd] using hlt⟩

/-- A larger number falls in a later place, or further back in the same one. -/
theorem locate_lt_locate (ls : List ℕ) {d d' : ℕ} (h : d < d') :
    (locate ls d).1 < (locate ls d').1 ∨
      (locate ls d).1 = (locate ls d').1 ∧ (locate ls d).2 < (locate ls d').2 := by
  induction ls generalizing d d' with
  | nil => exact .inr ⟨rfl, h⟩
  | cons l ls ih =>
    by_cases hd' : d' < l
    · simpa [locate, h.trans hd', hd'] using h
    · by_cases hd : d < l
      · simp [locate, hd, hd']
      · simp only [locate, hd, hd', if_false, Nat.add_lt_add_iff_right, Nat.add_right_cancel_iff]
        exact ih (by omega)

/-! ### Years and months -/

def IsLeap (year : ℤ) : Prop := year % 4 = 0 ∧ (year % 100 ≠ 0 ∨ year % 400 = 0)

instance (year : ℤ) : Decidable (IsLeap year) := inferInstanceAs (Decidable (_ ∧ _))

def yearLength (year : ℤ) : ℕ := if IsLeap year then 366 else 365

def monthLengths (year : ℤ) : List ℕ :=
  [31, if IsLeap year then 29 else 28, 31, 30, 31, 30, 31, 31, 30, 31, 30, 31]

/-- The years after 2000, until they repeat. -/
def yearLengths : List ℕ := (List.range 400).map fun i : ℕ => yearLength (2000 + i)

theorem yearLengths_sum : yearLengths.sum = 146097 := by decide +kernel

theorem monthLengths_sum (year : ℤ) : (monthLengths year).sum = yearLength year := by
  unfold monthLengths yearLength
  split_ifs <;> rfl

theorem monthLengths_le {year : ℤ} {m l : ℕ} (h : (monthLengths year)[m]? = some l) : l ≤ 31 := by
  have hmem := List.mem_of_getElem? h
  unfold monthLengths at hmem
  simp only [List.mem_cons, List.not_mem_nil, or_false] at hmem
  split_ifs at hmem <;> omega

/-- The years repeat. -/
theorem isLeap_add (year era : ℤ) : IsLeap (year + 400 * era) ↔ IsLeap year := by
  unfold IsLeap
  omega

/-! ### Dates -/

/-- A date; months and days of the month are counted from 0. -/
structure Date where
  year : ℤ
  month : ℕ
  day : ℕ
  deriving DecidableEq

/-- The place of a day in its 400 years, and the days before it in its year. -/
def yearOf (day : ℤ) : ℕ × ℕ := locate yearLengths ((day - 10957) % 146097).toNat

/-- The date of a day. -/
def dateOf (day : ℤ) : Date :=
  let year := 2000 + (yearOf day).1 + 400 * ((day - 10957) / 146097)
  ⟨year, (locate (monthLengths year) (yearOf day).2).1,
    (locate (monthLengths year) (yearOf day).2).2⟩

theorem yearOf_lt (day : ℤ) :
    (yearOf day).1 < 400 ∧ (yearOf day).2 < yearLength (2000 + (yearOf day).1) := by
  have hlt : ((day - 10957) % 146097).toNat < yearLengths.sum := by
    rw [yearLengths_sum]
    omega
  obtain ⟨l, hl, hrest⟩ := locate_lt hlt
  have hi : (yearOf day).1 < 400 := by
    have h := (List.getElem?_eq_some_iff.1 hl).1
    rwa [yearLengths, List.length_map, List.length_range] at h
  refine ⟨hi, ?_⟩
  rw [show yearLengths[(locate yearLengths ((day - 10957) % 146097).toNat).1]? =
      yearLengths[(yearOf day).1]? from rfl, yearLengths, List.getElem?_map,
    List.getElem?_range hi, Option.map_some, Option.some.injEq] at hl
  exact hl ▸ hrest

theorem yearLength_add (year era : ℤ) : yearLength (year + 400 * era) = yearLength year := by
  simp only [yearLength, isLeap_add]

/-- Months and days are in their ranges. -/
theorem dateOf_lt (day : ℤ) : (dateOf day).month < 12 ∧ (dateOf day).day < 31 := by
  have hlt : (yearOf day).2 < (monthLengths (dateOf day).year).sum := by
    rw [monthLengths_sum]
    show _ < yearLength (2000 + (yearOf day).1 + 400 * ((day - 10957) / 146097))
    rw [yearLength_add]
    exact (yearOf_lt day).2
  obtain ⟨l, hl, hrest⟩ := locate_lt hlt
  have hle := monthLengths_le hl
  refine ⟨?_, lt_of_lt_of_le hrest hle⟩
  exact (List.getElem?_eq_some_iff.1 hl).1

/-- Until the end of 9999 a year has four digits. -/
theorem dateOf_year {day : ℤ} (h0 : 0 ≤ day) (h : day < 2932897) :
    1000 ≤ (dateOf day).year ∧ (dateOf day).year < 10000 := by
  have hi := (yearOf_lt day).1
  show 1000 ≤ 2000 + ((yearOf day).1 : ℤ) + 400 * ((day - 10957) / 146097) ∧
    2000 + ((yearOf day).1 : ℤ) + 400 * ((day - 10957) / 146097) < 10000
  omega

/-- No two days have the same date. -/
theorem dateOf_injective : Function.Injective dateOf := by
  intro a b h
  have hyear : (dateOf a).year = (dateOf b).year := congrArg Date.year h
  have hmonth : (dateOf a).month = (dateOf b).month := congrArg Date.month h
  have hday : (dateOf a).day = (dateOf b).day := congrArg Date.day h
  have ha := (yearOf_lt a).1
  have hb := (yearOf_lt b).1
  -- the year gives the place in the 400 years, and the number of these
  have hyears : 2000 + ((yearOf a).1 : ℤ) + 400 * ((a - 10957) / 146097) =
      2000 + (yearOf b).1 + 400 * ((b - 10957) / 146097) := hyear
  have hi : (yearOf a).1 = (yearOf b).1 := by omega
  have hrest : (yearOf a).2 = (yearOf b).2 := by
    rw [← locate_sum (monthLengths (dateOf a).year) (yearOf a).2,
      ← locate_sum (monthLengths (dateOf b).year) (yearOf b).2]
    show ((monthLengths (dateOf a).year).take (dateOf a).month).sum + (dateOf a).day =
      ((monthLengths (dateOf b).year).take (dateOf b).month).sum + (dateOf b).day
    rw [hyear, hmonth, hday]
  have hdays : ((a - 10957) % 146097).toNat = ((b - 10957) % 146097).toNat := by
    rw [← locate_sum yearLengths ((a - 10957) % 146097).toNat,
      ← locate_sum yearLengths ((b - 10957) % 146097).toNat]
    show (yearLengths.take (yearOf a).1).sum + (yearOf a).2 =
      (yearLengths.take (yearOf b).1).sum + (yearOf b).2
    rw [hi, hrest]
  omega

/-- A date as a list, which sorts in the order of time. -/
def Date.toList (date : Date) : List ℤ := [date.year, date.month, date.day]

/-- A later day has a later date. -/
theorem dateOf_lt_dateOf {a b : ℤ} (h : a < b) : (dateOf a).toList < (dateOf b).toList := by
  have hyear : ∀ day, (dateOf day).year =
      2000 + ((yearOf day).1 : ℤ) + 400 * ((day - 10957) / 146097) := fun _ => rfl
  have ha := (yearOf_lt a).1
  have hb := (yearOf_lt b).1
  simp only [Date.toList, List.cons_lt_cons_iff, Nat.cast_lt, Nat.cast_inj]
  rcases (Int.ediv_le_ediv (by decide : (0 : ℤ) < 146097)
    (show a - 10957 ≤ b - 10957 by omega)).lt_or_eq with hera | hera
  · rw [hyear a, hyear b]
    omega
  · -- in the same 400 years the days before decide
    have hrest : ((a - 10957) % 146097).toNat < ((b - 10957) % 146097).toNat := by omega
    rcases locate_lt_locate yearLengths hrest with hy | ⟨hy, hdays⟩
    · left
      rw [hyear a, hyear b]
      change (yearOf a).1 < (yearOf b).1 at hy
      omega
    · have hsame : (dateOf a).year = (dateOf b).year := by
        change (yearOf a).1 = (yearOf b).1 at hy
        rw [hyear a, hyear b]
        omega
      refine .inr ⟨hsame, ?_⟩
      rcases locate_lt_locate (monthLengths (dateOf a).year) hdays with hm | ⟨hm, hd⟩
      · left
        change _ < (locate (monthLengths (dateOf b).year) _).1
        rw [← hsame]
        exact hm
      · refine .inr ⟨?_, .inl ?_⟩
        · change _ = (locate (monthLengths (dateOf b).year) _).1
          rw [← hsame]
          exact hm
        · change _ < (locate (monthLengths (dateOf b).year) _).2
          rw [← hsame]
          exact hd

example : dateOf 0 = ⟨1970, 0, 0⟩ := by decide +kernel

example : dateOf 19782 = ⟨2024, 1, 28⟩ := by decide +kernel

end Calendar
