import PolicyAudit.Proofs.Calendar.Count
import PolicyAudit.Proofs.Calendar.Moment

/-! Moments as instants.
The clock is added to the days that the calendar counts (`instant`), and the moment of a number of
seconds is that instant (`instant_ofUnix`). Moments are in the order of their fields, year first,
exactly as their instants are (`fields_lt_iff`). -/

namespace PolicyAudit.Moment

def elapsed (m : Moment) : Int :=
  ((m.date.count : Int) - Date.epoch.count) * 86400 + m.hour * 3600 + m.minute * 60 + m.second

def instant (m : Moment) : Int := m.elapsed * 1000000 + m.micro

def fields (m : Moment) : List Nat :=
  [m.date.year.toNat, m.date.month, m.date.day, m.hour, m.minute, m.second, m.micro]

variable {m m' : Moment}

theorem Valid.toUnix_eq (hm : m.Valid) : m.toUnix = m.elapsed := by
  have hdays := Date.toDays_eq_count hm.date (Int.le_trans (by decide) hm.one_le_year)
  rw [toUnix, elapsed, hdays, Date.count_epoch]
  push_cast
  omega

theorem toUnix_ofUnix (seconds : Int) (micro : Nat) : (ofUnix seconds micro).toUnix = seconds := by
  simp only [toUnix, ofUnix, Date.toDays_ofDays]
  omega

theorem instant_ofUnix {seconds : Int} {micro : Nat} (h : (ofUnix seconds micro).Valid) :
    (ofUnix seconds micro).instant = seconds * 1000000 + micro := by
  rw [instant, ← h.toUnix_eq, toUnix_ofUnix]
  rfl

theorem fields_lt_cases (h : m.fields < m'.fields) :
    (m.date.year.toNat < m'.date.year.toNat ∨ m.date.year.toNat = m'.date.year.toNat ∧
      (m.date.month < m'.date.month ∨
        m.date.month = m'.date.month ∧ m.date.day < m'.date.day)) ∨
    m.date.year.toNat = m'.date.year.toNat ∧ m.date.month = m'.date.month ∧
      m.date.day = m'.date.day ∧ [m.hour, m.minute, m.second, m.micro] <
        [m'.hour, m'.minute, m'.second, m'.micro] := by
  simp only [fields, List.cons_lt_cons_iff] at h ⊢
  tauto

theorem Valid.date_eq (hm : m.Valid) (hm' : m'.Valid)
    (hyear : m.date.year.toNat = m'.date.year.toNat) (hmonth : m.date.month = m'.date.month)
    (hday : m.date.day = m'.date.day) : m.date = m'.date := by
  have hlo := hm.one_le_year
  have hlo' := hm'.one_le_year
  have hsame : m.date.year = m'.date.year := by omega
  cases hd : m.date
  cases hd' : m'.date
  simp_all

theorem instant_lt_of_fields_lt (hm : m.Valid) (hm' : m'.Valid) (h : m.fields < m'.fields) :
    m.instant < m'.instant := by
  have hmicro := hm.micro_lt
  have hsecond := hm.second_lt
  have hminute := hm.minute_lt
  have hhour := hm.hour_lt
  rcases fields_lt_cases h with hdate | ⟨hyear, hmonth, hday, hclock⟩
  · have hlo := hm.one_le_year
    have hlo' := hm'.one_le_year
    have hlater : m.date.year < m'.date.year ∨ m.date.year = m'.date.year ∧
        (m.date.month < m'.date.month ∨
          m.date.month = m'.date.month ∧ m.date.day < m'.date.day) := by omega
    have hcount := Date.count_lt_count hm.date (by omega) hlater
    simp only [instant, elapsed]
    omega
  · simp only [List.cons_lt_cons_iff, List.not_lt_nil, and_false, or_false] at hclock
    simp only [instant, elapsed, hm.date_eq hm' hyear hmonth hday]
    omega

theorem instant_eq_of_fields_eq (hm : m.Valid) (hm' : m'.Valid) (h : m.fields = m'.fields) :
    m.instant = m'.instant := by
  simp only [fields, List.cons.injEq, and_true] at h
  obtain ⟨hyear, hmonth, hday, hhour, hminute, hsecond, hmicro⟩ := h
  rw [instant, instant, elapsed, elapsed, hm.date_eq hm' hyear hmonth hday, hhour, hminute, hsecond,
    hmicro]

theorem fields_lt_iff (hm : m.Valid) (hm' : m'.Valid) :
    m.fields < m'.fields ↔ m.instant < m'.instant := by
  refine ⟨instant_lt_of_fields_lt hm hm', fun h => ?_⟩
  rcases lt_trichotomy m.fields m'.fields with hlt | heq | hgt
  · exact hlt
  · exact absurd (instant_eq_of_fields_eq hm hm' heq) h.ne
  · exact absurd (instant_lt_of_fields_lt hm' hm hgt) h.le.not_gt

end PolicyAudit.Moment
