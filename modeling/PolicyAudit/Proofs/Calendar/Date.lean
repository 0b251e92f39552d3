import Mathlib.Tactic.IntervalCases
import PolicyAudit.Calendar.Date

/-! Counting days gives days of the calendar.
A day of the era of 400 years is split into centuries, spans of four years, years and days
(`Cycles`); the closed formula for the year agrees with that split, and so every count of days is
a date that exists (`valid_ofDays`). -/

namespace PolicyAudit.Date

theorem make?_eq_some_iff {year : Int} {month day : Nat} {d : Date} :
    make? year month day = some d ↔ d = ⟨year, month, day⟩ ∧ d.Valid := by
  simp only [make?]
  split
  · rename_i h
    constructor
    · rintro ⟨⟩
      exact ⟨rfl, h⟩
    · rintro ⟨rfl, -⟩
      rfl
  · rename_i h
    constructor
    · rintro ⟨⟩
    · rintro ⟨rfl, hv⟩
      exact absurd hv h

theorem Valid.month_le {d : Date} (h : d.Valid) : d.month ≤ 12 := h.2.1

theorem Valid.day_le {d : Date} (h : d.Valid) : d.day ≤ 31 := by
  have hmax : daysInMonth d.year d.month ≤ 31 := by
    unfold daysInMonth
    grind
  exact Nat.le_trans h.2.2.2 hmax

/-- Day `n` of an era as centuries, spans of four years, years and days. Only the last year of a
span has a day 365, and of the spans that end a century only the last one. -/
structure Cycles (n centuries spans years day : Nat) : Prop where
  centuries_le : centuries ≤ 3
  spans_le : spans ≤ 24
  years_le : years ≤ 3
  day_le : day ≤ 365
  leap : day = 365 → years = 3 ∧ (spans < 24 ∨ centuries = 3)
  sum : n = 36524 * centuries + 1461 * spans + 365 * years + day

theorem exists_cycles {n : Nat} (h : n < 146097) : ∃ c s y d, Cycles n c s y d := by
  obtain ⟨c, hc⟩ : ∃ c, c = min (n / 36524) 3 := ⟨_, rfl⟩
  obtain ⟨s, hs⟩ : ∃ s, s = (n - 36524 * c) / 1461 := ⟨_, rfl⟩
  obtain ⟨y, hy⟩ : ∃ y, y = min ((n - 36524 * c - 1461 * s) / 365) 3 := ⟨_, rfl⟩
  refine ⟨c, s, y, n - 36524 * c - 1461 * s - 365 * y, ?_, ?_, ?_, ?_, ?_, ?_⟩
  · omega
  · omega
  · omega
  · omega
  · omega
  · omega

theorem Cycles.year_eq {n c s y d : Nat} (h : Cycles n c s y d) :
    (n - n / 1460 + n / 36524 - n / 146096) / 365 = 100 * c + 4 * s + y := by
  obtain ⟨hc, hs, hy, hd, hleap, hsum⟩ := h
  by_cases hlast : n = 146096
  · omega
  have h1 : n / 36524 = c := by omega
  have h2 : n / 146096 = 0 := by omega
  have h3 : n / 1460 = 25 * c + s + (24 * c + s + 365 * y + d) / 1460 := by omega
  omega

theorem Cycles.day_eq {n c s y d : Nat} (h : Cycles n c s y d) :
    n - (365 * (100 * c + 4 * s + y) + (100 * c + 4 * s + y) / 4 - (100 * c + 4 * s + y) / 100) =
      d := by
  obtain ⟨hc, hs, hy, hd, hleap, hsum⟩ := h
  omega

def ofMarchYear (year : Int) (day : Nat) : Date :=
  let fromMarch := (5 * day + 2) / 153
  let month := if fromMarch < 10 then fromMarch + 3 else fromMarch - 9
  { year := year + (if month ≤ 2 then 1 else 0)
    month := month
    day := day - daysBeforeMonth fromMarch + 1 }

theorem ofDays_eq_ofMarchYear (n : Int) : ∃ (era : Int) (k c s y d : Nat), Cycles k c s y d ∧
    n + 719468 = 146097 * era + k ∧
    ofDays n = ofMarchYear (400 * era + (100 * c + 4 * s + y : Nat)) d := by
  have hk : ((n + 719468) % 146097).toNat < 146097 := by omega
  obtain ⟨c, s, y, d, h⟩ := exists_cycles hk
  refine ⟨(n + 719468) / 146097, _, c, s, y, d, h, by omega, ?_⟩
  simp only [ofDays, h.year_eq, h.day_eq, ofMarchYear]
  rw [Int.mul_comm]

theorem isLeap_of_cycles {k c s y d : Nat} (h : Cycles k c s y d) (hd : d = 365) (era : Int) :
    isLeap (400 * era + (100 * c + 4 * s + y : Nat) + 1) := by
  obtain ⟨hc, hs, hy, -, hleap, -⟩ := h
  have hl := hleap hd
  simp only [isLeap, Bool.and_eq_true, Bool.or_eq_true, decide_eq_true_eq]
  omega

theorem valid_ofMarchYear {year : Int} {day : Nat} (h : day ≤ 365)
    (hleap : day = 365 → isLeap (year + 1)) : (ofMarchYear year day).Valid := by
  rcases Nat.lt_or_eq_of_le h with h | rfl
  · obtain ⟨m, hm⟩ : ∃ m, m = (5 * day + 2) / 153 := ⟨_, rfl⟩
    have hlt : m < 12 := by omega
    simp only [ofMarchYear, Valid, ← hm, daysBeforeMonth]
    -- the months have no common formula for their length
    interval_cases m <;> simp [daysInMonth] <;> grind
  · simp [ofMarchYear, Valid, daysBeforeMonth, daysInMonth, hleap rfl]

theorem year_ofMarchYear {year : Int} {day : Nat} (h : day ≤ 365) :
    (ofMarchYear year day).year = if day < 306 then year else year + 1 := by
  have hm : (5 * day + 2) / 153 < 12 ∧ ((5 * day + 2) / 153 < 10 ↔ day < 306) := by omega
  simp only [ofMarchYear]
  grind

theorem valid_ofDays (n : Int) : (ofDays n).Valid := by
  obtain ⟨era, k, c, s, y, d, h, -, hd⟩ := ofDays_eq_ofMarchYear n
  rw [hd]
  exact valid_ofMarchYear h.day_le fun h365 => isLeap_of_cycles h h365 era

theorem one_le_year_ofDays_iff {n : Int} : 1 ≤ (ofDays n).year ↔ -719162 ≤ n := by
  obtain ⟨era, k, c, s, y, d, ⟨hc, hs, hy, hday, hleap, hsum⟩, hn, hd⟩ := ofDays_eq_ofMarchYear n
  rw [hd, year_ofMarchYear hday]
  constructor
  · intro h
    rcases Int.lt_or_le era 0 with hera | hera <;> split at h <;> omega
  · intro h
    split <;> omega

theorem year_ofDays_le_iff {n : Int} : (ofDays n).year ≤ 9999 ↔ n ≤ 2932896 := by
  obtain ⟨era, k, c, s, y, d, ⟨hc, hs, hy, hday, hleap, hsum⟩, hn, hd⟩ := ofDays_eq_ofMarchYear n
  rw [hd, year_ofMarchYear hday]
  constructor
  · intro h
    split at h <;> omega
  · intro h
    split <;> omega

theorem le_toDays {d : Date} (hd : d.Valid) (h : 1 ≤ d.year) : -719162 ≤ d.toDays := by
  obtain ⟨hmonth, -, hday, -⟩ := hd
  simp only [toDays, daysBeforeMonth]
  split <;> omega

end PolicyAudit.Date
