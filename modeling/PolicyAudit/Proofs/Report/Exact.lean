import PolicyAudit.Proofs.Calendar.Order
import PolicyAudit.Proofs.Number.Nearness
import PolicyAudit.Proofs.Report.Dated
import PolicyAudit.Report.Text

/-! Timestamps that are shown exactly.
Below `2 ^ 33` seconds the binary64 sum of seconds and nanoseconds is less than half a microsecond
off (`exists_toReal_near`), and what remains of the half is more than the scaling of the fraction
takes (`microseconds?_eq_of_near`): whole microseconds come out as they went in. Whole seconds do so
in all the years of the calendar, as their sum is exact. -/

namespace PolicyAudit.Timestamp

open Binary64
open Moment (padded)

variable {t t' : Timestamp} {m m' : Moment}

/-- The nanoseconds are a fraction of a second in whole microseconds. -/
def WholeMicros (t : Timestamp) : Prop := t.Fractional ∧ 1000 ∣ t.nanos

instance (t : Timestamp) : Decidable t.WholeMicros := by
  unfold WholeMicros
  infer_instance

/-- The microsecond of a timestamp without any rounding. -/
def instant (t : Timestamp) : Int := t.seconds * 1000000 + t.nanos / 1000

def Before (t t' : Timestamp) : Prop :=
  t.seconds < t'.seconds ∨ t.seconds = t'.seconds ∧ t.nanos < t'.nanos

def InYears (seconds : Int) : Prop := -62135596800 ≤ seconds ∧ seconds ≤ 253402300799

theorem instant_lt_instant_iff (ht : t.WholeMicros) (ht' : t'.WholeMicros) :
    t.instant < t'.instant ↔ t.Before t' := by
  obtain ⟨⟨hlo, hhi⟩, hdvd⟩ := ht
  obtain ⟨⟨hlo', hhi'⟩, hdvd'⟩ := ht'
  unfold instant Before
  omega

theorem instant_inj (ht : t.WholeMicros) (ht' : t'.WholeMicros) (h : t.instant = t'.instant) :
    t = t' := by
  obtain ⟨⟨hlo, hhi⟩, hdvd⟩ := ht
  obtain ⟨⟨hlo', hhi'⟩, hdvd'⟩ := ht'
  unfold instant at h
  cases t
  cases t'
  simp only [mk.injEq] at *
  omega

theorem wholeMicros_of_nanos (h : t.nanos = 0) : t.WholeMicros := by
  unfold WholeMicros Fractional
  omega

section Rounding

theorem microseconds?_eq_of_near {x : Binary64} {v : ℚ} {z : Int} (hx : x.value? = some v)
    (h : |v * 1000000 - z| ≤ 1 / 2 - 2 ^ (-32 : Int)) : microseconds? x = some z := by
  obtain ⟨w, f, y, hw, hy, hround, rfl, hf⟩ := exists_truncate? hx
  obtain ⟨d, p, u, hd, hsize, hp, hscaled, hu⟩ := exists_scaled_fraction hround hf
  have hfraction := hround.abs_sub_le hd (k := 0) (by decide) (by simpa using hf)
  have hmul := hscaled.abs_sub_le hu (k := 20) (by decide) (by
    rw [abs_mul]
    norm_num
    linarith)
  have hnear : |u - (z - w * 1000000 : Int)| < 1 / 2 := by
    norm_num at hfraction hmul h
    push_cast
    rw [abs_le] at hfraction hmul h
    rw [abs_lt]
    constructor <;> linarith
  simp [microseconds?, hw, hy, hp, round?_eq_of_near hu hnear]

theorem abs_quotient_sub_le (ht : t.Fractional) {y : Binary64} {d : ℚ}
    (hround : Rounds (t.nanos / 1000000000) y) (hd : y.value? = some d) :
    |d - t.nanos / 1000000000| ≤ 2 ^ (-54 : Int) ∧ d < 1 := by
  have hlo : (0 : ℚ) ≤ t.nanos := by exact_mod_cast ht.1
  have hhi : (t.nanos : ℚ) ≤ 999999999 := by exact_mod_cast Int.le_sub_one_of_lt ht.2
  have hnear := hround.abs_sub_le hd (k := 0) (by decide) (by
    rw [abs_lt]
    constructor <;> norm_num <;> linarith)
  refine ⟨hnear, ?_⟩
  norm_num [abs_le] at hnear
  linarith

theorem exists_toReal_near (ht : t.Fractional) (hs : |t.seconds| < 2 ^ 33) :
    ∃ x v, t.toReal = .ok x ∧ x.value? = some v ∧
      |v - (t.seconds + t.nanos / 1000000000)| ≤ 2 ^ (-21 : Int) + 2 ^ (-54 : Int) := by
  rw [abs_lt] at hs
  obtain ⟨n, y, d, hn, hy, hquotient, hd, hzero, -⟩ := exists_nanos_value ht
  obtain ⟨hnear, hone⟩ := abs_quotient_sub_le ht hquotient hd
  obtain ⟨s, hsecond, hvalue⟩ := exists_ofInt? (n := t.seconds) (by omega)
  obtain ⟨x, hx, hsum⟩ := rounds_add? hvalue hd
  have hlo : (-(2 ^ 33 - 1) : ℚ) ≤ t.seconds := by
    exact_mod_cast (by omega : -(2 ^ 33 - 1) ≤ t.seconds)
  have hhi : (t.seconds : ℚ) ≤ 2 ^ 33 - 1 := by
    exact_mod_cast (by omega : t.seconds ≤ 2 ^ 33 - 1)
  have hsize : |t.seconds + d| < (2 : ℚ) ^ (33 : Int) := by
    norm_num at hlo hhi
    rw [abs_lt]
    norm_num
    constructor <;> linarith
  obtain ⟨v, hv⟩ := hsum.exists_value (z := 2 ^ 33) (by decide)
    (by push_cast; linarith) (by push_cast; linarith)
  refine ⟨x, v, toReal_eq_ok_iff.2 ⟨n, y, s, hn, hy, hsecond, hx⟩, hv, ?_⟩
  calc |v - (t.seconds + t.nanos / 1000000000)|
      ≤ |v - (t.seconds + d)| + |t.seconds + d - (t.seconds + t.nanos / 1000000000)| :=
        abs_sub_le _ _ _
    _ = |v - (t.seconds + d)| + |d - t.nanos / 1000000000| := by rw [add_sub_add_left_eq_sub]
    _ ≤ 2 ^ (33 - 54 : Int) + 2 ^ (-54 : Int) :=
        add_le_add (hsum.abs_sub_le hv (by decide) hsize) hnear
    _ = 2 ^ (-21 : Int) + 2 ^ (-54 : Int) := by norm_num

theorem micros?_eq_instant (ht : t.WholeMicros) (hs : |t.seconds| < 2 ^ 33) :
    t.micros? = some t.instant := by
  obtain ⟨x, v, hx, hv, hnear⟩ := exists_toReal_near ht.1 hs
  refine micros?_eq_some_iff.2 ⟨x, hx, microseconds?_eq_of_near hv ?_⟩
  obtain ⟨k, hk⟩ := ht.2
  have hinstant : (t.instant : ℚ) = (t.seconds + t.nanos / 1000000000) * 1000000 := by
    rw [instant, hk, Int.mul_ediv_cancel_left _ (by decide)]
    push_cast
    ring
  -- half a microsecond is 0.5, the distance below 0.4769
  rw [hinstant, ← sub_mul, abs_mul]
  norm_num at hnear ⊢
  linarith

theorem exists_toReal_eq (ht : t.nanos = 0) (hs : t.seconds.natAbs < 2 ^ 53) :
    ∃ x, t.toReal = .ok x ∧ x.value? = some (t.seconds : ℚ) := by
  obtain ⟨n, y, d, hn, hy, hquotient, -, -, -⟩ := exists_nanos_value (wholeMicros_of_nanos ht).1
  have hzero : y.value? = some ((0 : Int) : ℚ) := by
    refine Rounds.value?_intCast ?_ (by decide)
    simpa [ht] using hquotient
  obtain ⟨s, hsecond, hvalue⟩ := exists_ofInt? hs
  obtain ⟨x, hx, hsum⟩ := rounds_add? hvalue hzero
  rw [Int.cast_zero, add_zero] at hsum
  exact ⟨x, toReal_eq_ok_iff.2 ⟨n, y, s, hn, hy, hsecond, hx⟩, hsum.value?_intCast hs⟩

theorem micros?_of_nanos (ht : t.nanos = 0) (hs : t.seconds.natAbs < 2 ^ 53) :
    t.micros? = some t.instant := by
  obtain ⟨x, hx, hv⟩ := exists_toReal_eq ht hs
  refine micros?_eq_some_iff.2 ⟨x, hx, microseconds?_eq_of_near hv ?_⟩
  norm_num [instant, ht]

end Rounding

section Shown

/-- A timestamp is the date and time of its own instant, and these are what its line shows. -/
structure ShownAs (t : Timestamp) (m : Moment) : Prop where
  moment : t.toMoment = .ok m
  valid : m.Valid
  utc : m.offset = some 0
  instant : m.instant = t.instant
  elapsed : m.elapsed = t.seconds
  micro : (m.micro : Int) = t.nanos / 1000
  line : ∀ f : Finding, f.timestamp = some t →
    Report.findingLine f = .ok (Report.findingStem f ++ " @ " ++ m.iso)
  read : Moment.ofText? m.iso.toList = some m

theorem micros?_of_toMoment (h : t.toMoment = .ok m) :
    m.Valid ∧ m.offset = some 0 ∧ t.micros? = some m.instant := by
  obtain ⟨micros, hmicros, hrange, rfl⟩ := toMoment_eq_ok_iff.1 h
  unfold Calendrical at hrange
  have hm : (Moment.ofUnix (micros / 1000000) (micros % 1000000).toNat).Valid :=
    Moment.valid_ofUnix (by omega) (by omega) (by omega)
  have hinstant : (Moment.ofUnix (micros / 1000000) (micros % 1000000).toNat).instant = micros := by
    rw [Moment.instant_ofUnix hm]
    omega
  exact ⟨hm, rfl, (Option.mem_def.1 hmicros).trans (congrArg some hinstant.symm)⟩

theorem shownAs_of_toMoment (ht : t.Fractional) (hexact : t.micros? = some t.instant)
    (h : t.toMoment = .ok m) : t.ShownAs m := by
  obtain ⟨hm, hutc, hmicros⟩ := micros?_of_toMoment h
  have hinstant : m.instant = t.instant := Option.some.inj (hmicros.symm.trans hexact)
  have hparts : m.elapsed = t.seconds ∧ (m.micro : Int) = t.nanos / 1000 := by
    obtain ⟨hlo, hhi⟩ := ht
    have hmicro := hm.micro_lt
    unfold Moment.instant Timestamp.instant at hinstant
    omega
  refine ⟨h, hm, hutc, hinstant, hparts.1, hparts.2, fun f hf => ?_, Moment.ofText?_iso hm hutc⟩
  rw [Report.findingLine, hf]
  simp only [iso, h]
  rfl

theorem exists_shownAs (ht : t.Fractional) (hexact : t.micros? = some t.instant)
    (hrange : Calendrical t.instant) : ∃ m, t.ShownAs m :=
  ⟨_, shownAs_of_toMoment ht hexact (toMoment_eq_ok_iff.2 ⟨t.instant, hexact, hrange, rfl⟩)⟩

theorem ShownAs.fields_lt_iff (h : t.ShownAs m) (h' : t'.ShownAs m') :
    m.fields < m'.fields ↔ t.instant < t'.instant := by
  rw [Moment.fields_lt_iff h.valid h'.valid, h.instant, h'.instant]

theorem ShownAs.iso_lt_iff (h : t.ShownAs m) (h' : t'.ShownAs m') :
    m.iso < m'.iso ↔ t.instant < t'.instant := by
  rw [Moment.iso_lt_iso_iff h.valid h'.valid h.utc h'.utc, h.instant, h'.instant]

theorem ShownAs.instant_eq_of_iso_eq (h : t.ShownAs m) (h' : t'.ShownAs m') (heq : m.iso = m'.iso) :
    t.instant = t'.instant := by
  have hread := h'.read
  rw [← heq, h.read] at hread
  rw [← h.instant, ← h'.instant, Option.some.inj hread]

end Shown

theorem exists_shownAs_of_wholeMicros (ht : t.WholeMicros) (hs : |t.seconds| < 2 ^ 33) :
    ∃ m, t.ShownAs m := by
  refine exists_shownAs ht.1 (micros?_eq_instant ht hs) ?_
  obtain ⟨hlo, hhi⟩ := ht.1
  rw [abs_lt] at hs
  unfold Calendrical instant
  omega

/-- For centuries on either side of 1970 a timestamp in whole microseconds is shown as exactly its
own second and microsecond, so that no two of them are shown alike and all are in their order. -/
theorem whole_microseconds_exact (ht : t.WholeMicros) (ht' : t'.WholeMicros)
    (hs : -2 ^ 33 < t.seconds ∧ t.seconds < 2 ^ 33)
    (hs' : -2 ^ 33 < t'.seconds ∧ t'.seconds < 2 ^ 33) :
    ∃ m m', t.ShownAs m ∧ t'.ShownAs m' ∧
      (t ≠ t' → m ≠ m' ∧ m.iso ≠ m'.iso) ∧
      (m.fields < m'.fields ↔ t.Before t') ∧ (m.iso < m'.iso ↔ t.Before t') := by
  obtain ⟨m, hm⟩ := exists_shownAs_of_wholeMicros ht (abs_lt.2 hs)
  obtain ⟨m', hm'⟩ := exists_shownAs_of_wholeMicros ht' (abs_lt.2 hs')
  have hbefore := instant_lt_instant_iff ht ht'
  refine ⟨m, m', hm, hm', fun hne => ?_, (hm.fields_lt_iff hm').trans hbefore,
    (hm.iso_lt_iff hm').trans hbefore⟩
  have htext : m.iso ≠ m'.iso := fun heq =>
    hne (instant_inj ht ht' (hm.instant_eq_of_iso_eq hm' heq))
  exact ⟨ne_of_apply_ne Moment.iso htext, htext⟩

/-- The last microsecond of a second near either end, where the sums are furthest apart. -/
theorem whole_microseconds_exact_near_ends :
    (⟨-8589934591, 999999000⟩ : Timestamp).WholeMicros ∧
    (⟨8589934591, 999999000⟩ : Timestamp).WholeMicros ∧
    ∃ m m', ShownAs ⟨-8589934591, 999999000⟩ m ∧ ShownAs ⟨8589934591, 999999000⟩ m' ∧
      m.iso = "1697-10-17T11:03:29.999999+00:00" ∧ m'.iso = "2242-03-16T12:56:31.999999+00:00" ∧
      m ≠ m' ∧ m.fields < m'.fields ∧ m.iso < m'.iso := by
  have ht : (⟨-8589934591, 999999000⟩ : Timestamp).WholeMicros := by decide
  have ht' : (⟨8589934591, 999999000⟩ : Timestamp).WholeMicros := by decide
  obtain ⟨m, m', hm, hm', hne, hfields, htext⟩ :=
    whole_microseconds_exact ht ht' (by norm_num) (by norm_num)
  have hbefore : Before ⟨-8589934591, 999999000⟩ ⟨8589934591, 999999000⟩ := .inl (by decide)
  have hmoment : m = ⟨⟨1697, 10, 17⟩, 11, 3, 29, 999999, some 0⟩ :=
    Except.ok.inj (hm.moment.symm.trans rfl)
  have hmoment' : m' = ⟨⟨2242, 3, 16⟩, 12, 56, 31, 999999, some 0⟩ :=
    Except.ok.inj (hm'.moment.symm.trans rfl)
  exact ⟨ht, ht', m, m', hm, hm', hmoment ▸ rfl, hmoment' ▸ rfl, (hne (by decide)).1,
    hfields.2 hbefore, htext.2 hbefore⟩

example : iso ⟨8589934592, 1000⟩ = .ok "2242-03-16T12:56:32.000002+00:00" := rfl

theorem exists_toMoment_iff_inYears (ht : t.nanos = 0) :
    (∃ m, t.toMoment = .ok m) ↔ InYears t.seconds := by
  have hwhole := (wholeMicros_of_nanos ht).1
  constructor
  · rintro ⟨m, h⟩
    obtain ⟨micros, hmicros, hrange, -⟩ := toMoment_eq_ok_iff.1 h
    have hseconds := seconds_of_dated hwhole ⟨micros, hmicros, hrange⟩
    have hexact := micros?_of_nanos ht (by omega)
    obtain rfl : t.instant = micros := Option.some.inj (hexact.symm.trans hmicros)
    unfold Calendrical instant at hrange
    unfold InYears
    omega
  · intro h
    unfold InYears at h
    obtain ⟨m, hm⟩ := exists_shownAs hwhole (micros?_of_nanos ht (by omega)) (by
      unfold Calendrical instant
      omega)
    exact ⟨m, hm.moment⟩

theorem shownAs_of_nanos (ht : t.nanos = 0) (h : t.toMoment = .ok m) : t.ShownAs m := by
  have hrange := (exists_toMoment_iff_inYears ht).1 ⟨m, h⟩
  unfold InYears at hrange
  exact shownAs_of_toMoment (wholeMicros_of_nanos ht).1 (micros?_of_nanos ht (by omega)) h

theorem instant_of_nanos (ht : t.nanos = 0) : t.instant = t.seconds * 1000000 := by
  rw [instant, ht]
  exact Int.add_zero _

/-- Whole seconds have a date exactly in the years 1 to 9999; it is that of the calendar, counted
back to the same second, and the dates are in the order of the seconds as texts too. Any other
number of seconds fails, and fails the line of the finding with it. -/
theorem whole_seconds_exact (ht : t.nanos = 0) (ht' : t'.nanos = 0) :
    ((∃ m, t.toMoment = .ok m) ↔ InYears t.seconds) ∧
    (¬ InYears t.seconds → ∃ e, t.toMoment = .error e ∧
      ∀ f : Finding, f.timestamp = some t → Report.findingLine f = .error e) ∧
    (∀ m, t.toMoment = .ok m → t.ShownAs m ∧ m.iso.toList =
      padded 4 m.date.year.toNat ++ '-' :: (padded 2 m.date.month ++ '-' :: (padded 2 m.date.day ++
        'T' :: (padded 2 m.hour ++ ':' :: (padded 2 m.minute ++ ':' :: (padded 2 m.second ++
          "+00:00".toList)))))) ∧
    ∀ m m', t.toMoment = .ok m → t'.toMoment = .ok m' →
      (m.iso < m'.iso ↔ t.seconds < t'.seconds) ∧ (m.iso = m'.iso ↔ t.seconds = t'.seconds) := by
  refine ⟨exists_toMoment_iff_inYears ht, fun h => ?_, fun m h => ?_, fun m m' h h' => ?_⟩
  · cases hmoment : t.toMoment with
    | ok m => exact absurd ((exists_toMoment_iff_inYears ht).1 ⟨m, hmoment⟩) h
    | error e =>
      refine ⟨e, rfl, fun f hf => ?_⟩
      rw [Report.findingLine, hf]
      simp only [iso, hmoment]
      rfl
  · have hm := shownAs_of_nanos ht h
    have hmicro : m.micro = 0 := by
      have := hm.micro
      omega
    exact ⟨hm, by rw [Moment.toList_iso hm.utc, Moment.stem_append, if_pos hmicro, List.nil_append]⟩
  · have hm := shownAs_of_nanos ht h
    have hm' := shownAs_of_nanos ht' h'
    have horder := hm.iso_lt_iff hm'
    rw [instant_of_nanos ht, instant_of_nanos ht'] at horder
    refine ⟨horder.trans (by omega), fun heq => ?_, fun heq => ?_⟩
    · have hsame := hm.instant_eq_of_iso_eq hm' heq
      rw [instant_of_nanos ht, instant_of_nanos ht'] at hsame
      omega
    · have hsame : t = t' := instant_inj (wholeMicros_of_nanos ht) (wholeMicros_of_nanos ht') (by
        rw [instant_of_nanos ht, instant_of_nanos ht', heq])
      subst hsame
      rw [Except.ok.inj (h.symm.trans h')]

theorem whole_seconds_exact_at_ends :
    (∃ m, toMoment ⟨-62135596800, 0⟩ = .ok m) ∧
    ∃ m m', ShownAs ⟨-62135596800, 0⟩ m ∧ ShownAs ⟨253402300799, 0⟩ m' ∧
      m.iso = "0001-01-01T00:00:00+00:00" ∧ m'.iso = "9999-12-31T23:59:59+00:00" ∧
      m.iso < m'.iso := by
  have hfirst : (⟨-62135596800, 0⟩ : Timestamp).toMoment =
      .ok ⟨⟨1, 1, 1⟩, 0, 0, 0, 0, some 0⟩ := rfl
  have hlast : (⟨253402300799, 0⟩ : Timestamp).toMoment =
      .ok ⟨⟨9999, 12, 31⟩, 23, 59, 59, 0, some 0⟩ := rfl
  obtain ⟨hiff, -, hshown, horder⟩ :=
    whole_seconds_exact (t := ⟨-62135596800, 0⟩) rfl (rfl : (⟨253402300799, 0⟩ : Timestamp).nanos = 0)
  obtain ⟨-, -, hshown', -⟩ :=
    whole_seconds_exact (t := ⟨253402300799, 0⟩) rfl (rfl : (⟨253402300799, 0⟩ : Timestamp).nanos = 0)
  exact ⟨hiff.2 ⟨by decide, by decide⟩, _, _, (hshown _ hfirst).1, (hshown' _ hlast).1, rfl, rfl,
    (horder _ _ hfirst hlast).1.2 (by decide)⟩

end PolicyAudit.Timestamp
