import Mathlib.Algebra.BigOperators.Intervals
import Mathlib.Algebra.Order.BigOperators.Group.Finset
import PolicyAudit.Proofs.Calendar.Date

/-! The calendar counted out.
Before a date come the days of all years and months that are over (`count`). The closed formula of
`toDays` comes to the same (`toDays_eq_count`), and dates are told apart and put in order by the days
before them (`toDays_ofDays`, `count_lt_count`). -/

namespace PolicyAudit.Date

def daysInYear (year : Nat) : Nat := if isLeap year then 366 else 365

def count (d : Date) : Nat :=
  ∑ year ∈ Finset.range d.year.toNat, daysInYear year +
    ∑ month ∈ Finset.Ico 1 d.month, daysInMonth d.year month + (d.day - 1)

def epoch : Date := ⟨1970, 1, 1⟩

theorem isLeap_iff (year : Int) :
    isLeap year ↔ year % 4 = 0 ∧ (year % 100 ≠ 0 ∨ year % 400 = 0) := by
  simp [isLeap]

theorem sum_daysInYear (year : Nat) : ∑ y ∈ Finset.range year, daysInYear y =
    365 * year + (year + 3) / 4 - (year + 99) / 100 + (year + 399) / 400 := by
  induction year with
  | zero => rfl
  | succ year ih =>
    rw [Finset.sum_range_succ, ih, daysInYear]
    split <;> rename_i hleap <;> rw [isLeap_iff] at hleap <;> omega

theorem sum_daysInMonth (year : Int) {month : Nat} (hlo : 1 ≤ month) (hhi : month ≤ 13) :
    ∑ m ∈ Finset.Ico 1 month, daysInMonth year m =
      if month ≤ 2 then 31 * (month - 1)
      else daysBeforeMonth (month - 3) + 59 + (if isLeap year then 1 else 0) := by
  interval_cases month <;>
    simp [Finset.sum_Ico_succ_top, daysInMonth, daysBeforeMonth] <;> split <;> rfl

theorem sum_daysInMonth_year (year : Nat) :
    ∑ m ∈ Finset.Ico 1 13, daysInMonth year m = daysInYear year := by
  rw [sum_daysInMonth year (by decide) le_rfl, if_neg (by decide), daysInYear]
  split <;> rfl

theorem toDays_eq_count {d : Date} (hd : d.Valid) (hyear : 0 ≤ d.year) :
    d.toDays = d.count - (719528 : Int) := by
  obtain ⟨hmonth, hmonth', hday, -⟩ := hd
  obtain ⟨year, hy⟩ := Int.eq_ofNat_of_zero_le hyear
  rw [count, toDays, hy, Int.toNat_natCast, sum_daysInYear,
    sum_daysInMonth year hmonth (by omega)]
  -- a year that begins in March counts the leap day of the year before
  by_cases hmarch : d.month ≤ 2
  · have hspan : ((year : Int) - 1) / 4 = ((year + 3) / 4 : Nat) - 1 := by omega
    have hcentury : ((year : Int) - 1) / 100 = ((year + 99) / 100 : Nat) - 1 := by omega
    have hera : ((year : Int) - 1) / 400 = ((year + 399) / 400 : Nat) - 1 := by omega
    have hlate : daysBeforeMonth (d.month + 9) = 306 + 31 * (d.month - 1) := by
      unfold daysBeforeMonth
      omega
    simp only [if_pos hmarch, hspan, hcentury, hera, hlate]
    omega
  · have hnext := sum_daysInYear (year + 1)
    have hspan : (year + 1 + 3) / 4 = year / 4 + 1 := by omega
    have hcentury : (year + 1 + 99) / 100 = year / 100 + 1 := by omega
    have hera : (year + 1 + 399) / 400 = year / 400 + 1 := by omega
    rw [Finset.sum_range_succ, sum_daysInYear, daysInYear, hspan, hcentury, hera] at hnext
    by_cases hleap : isLeap year
    · simp only [if_neg hmarch, if_pos hleap] at hnext ⊢
      omega
    · simp only [if_neg hmarch, if_neg hleap] at hnext ⊢
      omega

theorem count_epoch : epoch.count = 719528 := by
  have h : epoch.toDays = 0 := by decide
  rw [toDays_eq_count (by decide) (by decide)] at h
  omega

theorem toDays_ofMarchYear {year : Int} {day : Nat} (h : day ≤ 365) :
    (ofMarchYear year day).toDays =
      365 * year + year / 4 - year / 100 + year / 400 + day - 719468 := by
  obtain ⟨m, hm⟩ : ∃ m, m = (5 * day + 2) / 153 := ⟨_, rfl⟩
  have hlt : m < 12 := by omega
  simp only [ofMarchYear, toDays, daysBeforeMonth, ← hm]
  by_cases hearly : m < 10
  · simp only [if_pos hearly, if_neg (show ¬ m + 3 ≤ 2 by omega)]
    omega
  · simp only [if_neg hearly, if_pos (show m - 9 ≤ 2 by omega)]
    omega

theorem toDays_ofDays (n : Int) : (ofDays n).toDays = n := by
  obtain ⟨era, k, c, s, y, d, ⟨hc, hs, hy, hday, hleap, hsum⟩, hn, hd⟩ := ofDays_eq_ofMarchYear n
  have hspan : (400 * era + (100 * c + 4 * s + y : Nat)) / 4 = 100 * era + 25 * c + s := by omega
  have hcentury : (400 * era + (100 * c + 4 * s + y : Nat)) / 100 = 4 * era + c := by omega
  have hera : (400 * era + (100 * c + 4 * s + y : Nat)) / 400 = era := by omega
  rw [hd, toDays_ofMarchYear hday, hspan, hcentury, hera]
  omega

theorem count_lt_of_month {d : Date} (hd : d.Valid) {month : Nat} (h : d.month < month) :
    ∑ m ∈ Finset.Ico 1 d.month, daysInMonth d.year m + (d.day - 1) <
      ∑ m ∈ Finset.Ico 1 month, daysInMonth d.year m := by
  obtain ⟨hmonth, -, hday, hday'⟩ := hd
  calc ∑ m ∈ Finset.Ico 1 d.month, daysInMonth d.year m + (d.day - 1)
      < ∑ m ∈ Finset.Ico 1 d.month, daysInMonth d.year m + daysInMonth d.year d.month := by omega
    _ = ∑ m ∈ Finset.Ico 1 (d.month + 1), daysInMonth d.year m :=
      (Finset.sum_Ico_succ_top hmonth _).symm
    _ ≤ ∑ m ∈ Finset.Ico 1 month, daysInMonth d.year m :=
      Finset.sum_le_sum_of_subset (Finset.Ico_subset_Ico_right h)

theorem count_lt_of_year {d : Date} (hd : d.Valid) (hyear : 0 ≤ d.year) {year : Nat}
    (h : d.year < year) : d.count < ∑ y ∈ Finset.range year, daysInYear y := by
  have hmonths := sum_daysInMonth_year d.year.toNat
  rw [Int.toNat_of_nonneg hyear] at hmonths
  have hmonth : d.month < 13 := Nat.lt_add_one_of_le hd.2.1
  have hlast := count_lt_of_month hd hmonth
  calc d.count
      < ∑ y ∈ Finset.range d.year.toNat, daysInYear y + daysInYear d.year.toNat := by
        rw [count]
        omega
    _ = ∑ y ∈ Finset.range (d.year.toNat + 1), daysInYear y := (Finset.sum_range_succ _ _).symm
    _ ≤ ∑ y ∈ Finset.range year, daysInYear y :=
      Finset.sum_le_sum_of_subset (Finset.range_mono (by omega))

theorem count_lt_count {d d' : Date} (hd : d.Valid) (hyear : 0 ≤ d.year)
    (h : d.year < d'.year ∨ d.year = d'.year ∧
      (d.month < d'.month ∨ d.month = d'.month ∧ d.day < d'.day)) : d.count < d'.count := by
  rcases h with h | ⟨hy, h | ⟨hm, h⟩⟩
  · have hlater : d.year < d'.year.toNat := by omega
    have hlt := count_lt_of_year hd hyear hlater
    rw [count.eq_def d']
    omega
  · have hlt := count_lt_of_month hd h
    rw [count, count, ← hy]
    omega
  · have hday := hd.2.2.1
    rw [count, count, ← hy, ← hm]
    omega

end PolicyAudit.Date
