import PolicyAudit.Proofs.Calendar.Date
import PolicyAudit.Proofs.Number.Rounding
import PolicyAudit.Report.Timestamp

/-! Timestamps that have a date.
A timestamp has one exactly when the microsecond its binary64 arithmetic comes to is in the years 1
to 9999 (`exists_iso_iff_dated`). Where the nanoseconds are a fraction of a second no rounding on
the way crosses a whole second, so that only the last second on either side is left to the rounding
(`dated_of_seconds`, `seconds_of_dated`). -/

namespace PolicyAudit.Timestamp

/-- The microsecond since 1970 began that a timestamp is rounded to, if its arithmetic ends. -/
def micros? (t : Timestamp) : Option Int := t.toReal.toOption.bind microseconds?

def Calendrical (micros : Int) : Prop := -62135596800000000 ≤ micros ∧ micros < 253402300800000000

instance (micros : Int) : Decidable (Calendrical micros) := by
  unfold Calendrical
  infer_instance

/-- The nanoseconds are a fraction of a second. -/
def Fractional (t : Timestamp) : Prop := 0 ≤ t.nanos ∧ t.nanos < 1000000000

instance (t : Timestamp) : Decidable t.Fractional := by
  unfold Fractional
  infer_instance

/-- The timestamp is rounded to a microsecond of the years 1 to 9999. -/
def Dated (t : Timestamp) : Prop := ∃ micros ∈ t.micros?, Calendrical micros

theorem micros?_eq_some_iff {t : Timestamp} {micros : Int} :
    t.micros? = some micros ↔ ∃ x, t.toReal = .ok x ∧ microseconds? x = some micros := by
  unfold micros?
  cases t.toReal <;> simp [Except.toOption]

section Moment

theorem shownYear_of_small {year : Int} (h : year.natAbs ≤ 9999) : shownYear year = .ok year := by
  have hbmod : ∀ z : Int, z.natAbs ≤ 11899 → z.bmod (Nat.pow 2 32) = z := fun z hz =>
    Int.bmod_eq_of_le_mul_two (by norm_num; omega) (by norm_num; omega)
  rw [shownYear, if_pos (hbmod _ (by omega)), hbmod _ (by omega)]

theorem eq_of_shownYear {year y : Int} (h : shownYear year = .ok y) (hy : 1 ≤ y) : year = y := by
  simp only [shownYear, Int.bmod_def] at h
  norm_num at h
  grind

def yearOf (micros : Int) : Int := (Date.ofDays (micros / 1000000 / 86400)).year

theorem calendrical_iff (micros : Int) :
    Calendrical micros ↔ 1 ≤ yearOf micros ∧ yearOf micros ≤ 9999 := by
  rw [yearOf, Date.one_le_year_ofDays_iff, Date.year_ofDays_le_iff, Calendrical]
  omega

theorem momentOf_eq_ok_iff {micros : Int} {m : Moment} : momentOf micros = .ok m ↔
    Calendrical micros ∧ m = .ofUnix (micros / 1000000) (micros % 1000000).toNat := by
  have hyear : (Moment.ofUnix (micros / 1000000) (micros % 1000000).toNat).date.year =
      yearOf micros := rfl
  unfold momentOf
  dsimp only
  rw [hyear]
  constructor
  · intro h
    split at h
    · cases h
    · cases hshown : shownYear (yearOf micros) with
      | error e =>
        rw [hshown] at h
        cases h
      | ok y =>
        rw [hshown] at h
        simp only [bind, Except.bind, pure, Except.pure] at h
        split at h
        · -- no other year is shown as one in range
          rename_i hy
          obtain rfl := eq_of_shownYear hshown hy.1
          exact ⟨(calendrical_iff micros).2 hy, (Except.ok.inj h).symm⟩
        · cases h
  · rintro ⟨h, rfl⟩
    obtain ⟨hlo, hhi⟩ := (calendrical_iff micros).1 h
    have hsize : ¬ Nat.pow 2 63 < (micros / 1000000).natAbs := by
      unfold Calendrical at h
      norm_num
      omega
    rw [if_neg hsize, shownYear_of_small (by omega)]
    simp [bind, Except.bind, pure, Except.pure, hlo, hhi]

theorem toMoment_eq_ok_iff {t : Timestamp} {m : Moment} : t.toMoment = .ok m ↔
    ∃ micros ∈ t.micros?, Calendrical micros ∧
      m = .ofUnix (micros / 1000000) (micros % 1000000).toNat := by
  unfold toMoment micros?
  cases t.toReal with
  | error e => simp [bind, Except.bind, Except.toOption]
  | ok x =>
    cases hx : microseconds? x with
    | none => simp [bind, Except.bind, Except.toOption, hx]
    | some micros => simp [bind, Except.bind, Except.toOption, hx, momentOf_eq_ok_iff]

end Moment

section Rounding

open Binary64

theorem between_of_near {f : ℚ} {r : Int} (hf : |f| < 1)
    (hnear : ∀ p : Int, p.natAbs ≤ 1 →
      ((p : ℚ) ≤ f → p * 1000000 ≤ r) ∧ (f ≤ p → r ≤ p * 1000000)) (p : Int) :
    ((p : ℚ) ≤ f → p * 1000000 ≤ r) ∧ (f ≤ p → r ≤ p * 1000000) := by
  obtain ⟨hlo, hhi⟩ := abs_lt.1 hf
  constructor
  · intro hpf
    have hlt : p < 1 := by exact_mod_cast hpf.trans_lt hhi
    rcases Int.lt_or_le p 0 with hneg | hpos
    · have := (hnear (-1) (by decide)).1 (by exact_mod_cast hlo.le)
      omega
    · exact (hnear p (by omega)).1 hpf
  · intro hfp
    have hlt : -1 < p := by exact_mod_cast hlo.trans_le hfp
    rcases Int.lt_or_le 0 p with hpos | hneg
    · have := (hnear 1 (by decide)).2 (by exact_mod_cast hhi.le)
      omega
    · exact (hnear p (by omega)).2 hfp

theorem exists_scaled_fraction {f : ℚ} {x : Binary64} (hx : Rounds f x) (hf : |f| < 1) :
    ∃ v y u, x.value? = some v ∧ |v| ≤ 1 ∧ x.mulNat? 1000000 = some y ∧
      Rounds (v * 1000000) y ∧ y.value? = some u := by
  obtain ⟨hlo, hhi⟩ := abs_lt.1 hf
  have hlower : ((-1 : Int) : ℚ) ≤ f := by exact_mod_cast hlo.le
  have hupper : f ≤ (1 : Int) := by exact_mod_cast hhi.le
  obtain ⟨v, hv⟩ := hx.exists_value (z := 1) (by decide) (by exact_mod_cast hlower) hupper
  have hvlo := hx.le_value hv (by decide) hlower
  have hvhi := hx.value_le hv (by decide) hupper
  obtain ⟨y, hy, hround⟩ := rounds_mulNat? 1000000 hv
  obtain ⟨u, hu⟩ := hround.exists_value (z := 1000000) (by decide)
    (by push_cast at *; linarith) (by push_cast at *; linarith)
  exact ⟨v, y, u, hv, abs_le.2 ⟨by exact_mod_cast hvlo, by exact_mod_cast hvhi⟩, hy,
    by exact_mod_cast hround, hu⟩

/-- Scaled to microseconds and rounded again, a rounded fraction crosses no whole second. -/
theorem exists_fraction_micros {f : ℚ} {x : Binary64} (hx : Rounds f x) (hf : |f| < 1) :
    ∃ y r, x.mulNat? 1000000 = some y ∧ y.round? = some r ∧
      ∀ p : Int, ((p : ℚ) ≤ f → p * 1000000 ≤ r) ∧ (f ≤ p → r ≤ p * 1000000) := by
  obtain ⟨v, y, u, hv, -, hy, hround, hu⟩ := exists_scaled_fraction hx hf
  obtain ⟨r, hr, hnone⟩ := exists_round? hu
  refine ⟨y, r, hy, hr, between_of_near hf fun p hp => ?_⟩
  have hbound : (p * 1000000).natAbs < 2 ^ 53 := by omega
  constructor
  · intro hpf
    have hpv := hx.le_value hv (by omega) hpf
    have hpu := hround.le_value hu hbound (by push_cast; linarith)
    exact_mod_cast (hnone _ hbound).1 hpu
  · intro hfp
    have hvp := hx.value_le hv (by omega) hfp
    have hup := hround.value_le hu hbound (by push_cast; linarith)
    exact_mod_cast (hnone _ hbound).2 hup

theorem exists_microseconds? {x : Binary64} {v : ℚ} (hx : x.value? = some v) :
    ∃ micros, microseconds? x = some micros ∧
      ∀ z : Int, ((z : ℚ) ≤ v → z * 1000000 ≤ micros) ∧ (v ≤ z → micros ≤ z * 1000000) := by
  obtain ⟨w, f, y, hw, hy, hround, rfl, hf⟩ := exists_truncate? hx
  obtain ⟨u, r, hu, hr, hbetween⟩ := exists_fraction_micros hround hf
  refine ⟨w * 1000000 + r, ?_, fun z => ⟨fun hz => ?_, fun hz => ?_⟩⟩
  · simp [microseconds?, hw, hy, hu, hr]
  · have := (hbetween (z - w)).1 (by push_cast; linarith)
    omega
  · have := (hbetween (z - w)).2 (by push_cast; linarith)
    omega

theorem exists_value_of_microseconds? {x : Binary64} {micros : Int}
    (h : microseconds? x = some micros) : ∃ v, x.value? = some v := by
  cases x with
  | finite s m e => exact ⟨_, rfl⟩
  | infinite s => cases h
  | nan => cases h

variable {t : Timestamp}

theorem toReal_eq_ok_iff {x : Binary64} : t.toReal = .ok x ↔ ∃ n y s, ofInt? t.nanos = some n ∧
    n.divNat? 1000000000 = some y ∧ ofInt? t.seconds = some s ∧ s.add? y = some x := by
  unfold toReal
  cases ofInt? t.nanos with
  | none => simp
  | some n =>
    cases ofInt? t.seconds with
    | none => simp
    | some s =>
      have hsum : (∃ n' y s', some n = some n' ∧ n'.divNat? 1000000000 = some y ∧
          some s = some s' ∧ s'.add? y = some x) ↔
          (n.divNat? 1000000000).bind s.add? = some x := by
        simp [Option.bind_eq_some_iff]
      rw [hsum]
      dsimp only
      split
      · rename_i h
        simp [h]
      · rename_i h
        simp [h]

theorem exists_nanos_value (ht : t.Fractional) : ∃ n y d, ofInt? t.nanos = some n ∧
    n.divNat? 1000000000 = some y ∧ Rounds (t.nanos / 1000000000) y ∧ y.value? = some d ∧
    0 ≤ d ∧ d ≤ 1 := by
  obtain ⟨hlo, hhi⟩ := ht
  obtain ⟨n, hn, hvalue⟩ := exists_ofInt? (n := t.nanos) (by omega)
  obtain ⟨y, hy, hround⟩ := rounds_divNat? (n := 1000000000) (by decide) hvalue
  have hzero : ((0 : Int) : ℚ) ≤ t.nanos / (1000000000 : Nat) := by
    rw [le_div_iff₀ (by norm_num), Int.cast_zero, zero_mul]
    exact_mod_cast hlo
  have hone : (t.nanos : ℚ) / (1000000000 : Nat) ≤ (1 : Int) := by
    rw [div_le_iff₀ (by norm_num), Int.cast_one, one_mul]
    exact_mod_cast hhi.le
  obtain ⟨d, hd⟩ := hround.exists_value (z := 1) (by decide)
    (le_trans (by norm_num) hzero) hone
  refine ⟨n, y, d, hn, hy, by exact_mod_cast hround, hd, ?_, ?_⟩
  · exact_mod_cast hround.le_value hd (by decide) hzero
  · exact_mod_cast hround.value_le hd (by decide) hone

theorem toReal_between (ht : t.Fractional) {x : Binary64} {v : ℚ} (hx : t.toReal = .ok x)
    (hv : x.value? = some v) {z : Int} (hz : z.natAbs < 2 ^ 52) :
    (z ≤ t.seconds → (z : ℚ) ≤ v) ∧ (t.seconds < z → v ≤ z) := by
  obtain ⟨n, y, d, hn, hy, -, hd, hdlo, hdhi⟩ := exists_nanos_value ht
  obtain ⟨n', y', s, hn', hy', hs, hsum⟩ := toReal_eq_ok_iff.1 hx
  obtain rfl := Option.some.inj (hn.symm.trans hn')
  obtain rfl := Option.some.inj (hy.symm.trans hy')
  have hsecond := rounds_of_ofInt? hs
  obtain ⟨w, hw⟩ := exists_value_of_add? hsum
  obtain ⟨x', hx', hround⟩ := rounds_add? hw hd
  obtain rfl := Option.some.inj (hx'.symm.trans hsum)
  constructor
  · intro hle
    have hzw := hsecond.le_value hw (z := z) (by omega) (by exact_mod_cast hle)
    exact hround.le_value hv (by omega) (by linarith)
  · intro hlt
    have hwz := hsecond.value_le hw (z := z - 1) (by omega)
      (by exact_mod_cast Int.le_sub_one_of_lt hlt)
    push_cast at hwz
    exact hround.value_le hv (by omega) (by linarith)

theorem micros_between (ht : t.Fractional) {micros : Int} (h : t.micros? = some micros) {z : Int}
    (hz : z.natAbs < 2 ^ 52) :
    (z ≤ t.seconds → z * 1000000 ≤ micros) ∧ (t.seconds < z → micros ≤ z * 1000000) := by
  obtain ⟨x, hx', hx⟩ := micros?_eq_some_iff.1 h
  obtain ⟨v, hv⟩ := exists_value_of_microseconds? hx
  obtain ⟨m, hm, hbetween⟩ := exists_microseconds? hv
  obtain rfl : m = micros := Option.some.inj (hm.symm.trans hx)
  obtain ⟨hlo, hhi⟩ := toReal_between ht hx' hv hz
  exact ⟨fun h => (hbetween z).1 (hlo h), fun h => (hbetween z).2 (hhi h)⟩

theorem seconds_of_dated (ht : t.Fractional) (h : t.Dated) :
    -62135596801 ≤ t.seconds ∧ t.seconds ≤ 253402300799 := by
  obtain ⟨micros, hm, hmicros⟩ := h
  have hlower := (micros_between ht hm (z := -62135596801) (by decide)).2
  have hupper := (micros_between ht hm (z := 253402300800) (by decide)).1
  unfold Calendrical at hmicros
  omega

end Rounding

end PolicyAudit.Timestamp
