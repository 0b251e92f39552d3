import Mathlib.Algebra.Order.Field.Power
import Mathlib.Algebra.Order.Field.Rat
import Mathlib.Tactic.FieldSimp
import Mathlib.Tactic.Linarith
import Mathlib.Tactic.Positivity
import Mathlib.Tactic.Ring
import PolicyAudit.Number.Binary64

/-! What rounding to a binary64 datum cannot do.
An operation rounds its exact result `q` once (`Rounds`). A whole number of at most 53 binary
digits lies on the grid that `q` is rounded to, or below all of the binade of `q`, so that no
rounding crosses it (`Rounds.noneBetween`); a whole result is exact (`Rounds.value?_intCast`). -/

namespace PolicyAudit.Binary64

def value? (x : Binary64) : Option ℚ := x.numerator?.map fun n : Int => (n : ℚ) / x.denominator

def signed (negative : Bool) (q : ℚ) : ℚ := if negative then -q else q

/-- No whole number of at most 53 binary digits gets between `q` and `v`. -/
def NoneBetween (q v : ℚ) : Prop :=
  ∀ z : Int, z.natAbs < 2 ^ 53 → ((z : ℚ) ≤ q → (z : ℚ) ≤ v) ∧ (q ≤ z → v ≤ z)

namespace NoneBetween

variable {q v : ℚ}

theorem neg (h : NoneBetween q v) : NoneBetween (-q) (-v) := by
  intro z hz
  obtain ⟨hle, hge⟩ := h (-z) (by rwa [Int.natAbs_neg])
  push_cast at hle hge
  exact ⟨fun hzq => le_neg.1 (hge (le_neg.1 hzq)), fun hqz => neg_le.1 (hle (neg_le.1 hqz))⟩

theorem signed (h : NoneBetween q v) (negative : Bool) :
    NoneBetween (signed negative q) (signed negative v) := by
  cases negative
  · exact h
  · exact h.neg

theorem of_natCast (hq : 0 ≤ q) (hv : 0 ≤ v) (h : ∀ n : Nat, n < 2 ^ 53 →
    ((n : ℚ) ≤ q → (n : ℚ) ≤ v) ∧ (q ≤ n → v ≤ n)) : NoneBetween q v := by
  intro z hz
  rcases Int.lt_or_le z 0 with hneg | hpos
  · have hzero : (z : ℚ) < 0 := by exact_mod_cast hneg
    exact ⟨fun _ => by linarith, fun hqz => by linarith⟩
  · obtain ⟨n, rfl⟩ := Int.eq_ofNat_of_zero_le hpos
    exact_mod_cast h n (by simpa using hz)

end NoneBetween

section Quotient

variable {num den : Nat}

theorem roundQuotient_eq (num : Nat) (hden : 0 < den) : roundQuotient num den = num / den ∨
    roundQuotient num den = num / den + 1 ∧ num % den ≠ 0 := by
  unfold roundQuotient
  dsimp only
  split
  · exact .inl rfl
  · split
    · exact .inr ⟨rfl, by omega⟩
    · split
      · exact .inl rfl
      · exact .inr ⟨rfl, by omega⟩

theorem le_roundQuotient {z : Nat} (hden : 0 < den) (h : (z : ℚ) ≤ num / den) :
    z ≤ roundQuotient num den := by
  have hmul : z * den ≤ num := by
    rw [le_div_iff₀ (by exact_mod_cast hden)] at h
    exact_mod_cast h
  have hz : z ≤ num / den := (Nat.le_div_iff_mul_le hden).2 hmul
  rcases roundQuotient_eq num hden with hr | ⟨hr, -⟩ <;> omega

theorem roundQuotient_le {z : Nat} (hden : 0 < den) (h : (num : ℚ) / den ≤ z) :
    roundQuotient num den ≤ z := by
  have hmul : num ≤ den * z := by
    rw [div_le_iff₀ (by exact_mod_cast hden), mul_comm] at h
    exact_mod_cast h
  rcases roundQuotient_eq num hden with hr | ⟨hr, hrest⟩
  · rw [hr]
    exact Nat.div_le_of_le_mul hmul
  · have hlt : num < den * z := by
      refine Nat.lt_of_le_of_ne hmul ?_
      rintro rfl
      exact hrest (Nat.mul_mod_right den z)
    rw [hr]
    exact Nat.div_lt_of_lt_mul hlt

theorem noneBetween_roundQuotient (num : Nat) (hden : 0 < den) :
    NoneBetween (num / den) (roundQuotient num den) := by
  refine .of_natCast (by positivity) (by positivity) fun n _ => ⟨fun h => ?_, fun h => ?_⟩
  · exact_mod_cast le_roundQuotient hden h
  · exact_mod_cast roundQuotient_le hden h

theorem div_eq_signed (n : Int) (den : Nat) :
    (n : ℚ) / den = signed (n < 0) (n.natAbs / den) := by
  rw [Nat.cast_natAbs]
  rcases Int.lt_or_le n 0 with hneg | hpos
  · simp [signed, hneg, abs_of_neg hneg, neg_div]
  · simp [signed, Int.not_lt.2 hpos, abs_of_nonneg hpos]

theorem roundHalfEven_cast (n : Int) (den : Nat) :
    (roundHalfEven n den : ℚ) = signed (n < 0) (roundQuotient n.natAbs den) := by
  unfold roundHalfEven signed
  split <;> simp_all

theorem scaleUp_cast (n : Nat) (e : Int) : (scaleUp n e : ℚ) = n * 2 ^ e.toNat := by
  simp [scaleUp]

theorem scaleUp_pos (hden : 0 < den) (e : Int) : 0 < scaleUp den e :=
  Nat.mul_pos hden (Nat.pow_pos (by decide))

theorem scaleUp_div_scaleUp (num den : Nat) (e : Int) :
    (scaleUp num (-e) : ℚ) / scaleUp den e = num / den / 2 ^ e := by
  rw [scaleUp_cast, scaleUp_cast]
  rcases Int.le_total 0 e with he | he
  · obtain ⟨k, rfl⟩ := Int.eq_ofNat_of_zero_le he
    simp [div_div]
  · obtain ⟨k, hk⟩ := Int.eq_ofNat_of_zero_le (Int.neg_nonneg.2 he)
    obtain rfl : e = -k := by omega
    simp [div_eq_mul_inv, mul_right_comm]

theorem zpow_binaryOrder_le (hnum : num ≠ 0) (hden : 0 < den) :
    (2 : ℚ) ^ binaryOrder num den ≤ num / den := by
  unfold binaryOrder
  dsimp only
  split
  · rename_i h
    have hone : (1 : ℚ) ≤ num / den / 2 ^ ((num.log2 : Int) - den.log2) := by
      rw [← scaleUp_div_scaleUp, one_le_div (by exact_mod_cast scaleUp_pos hden _)]
      exact_mod_cast h
    rwa [one_le_div (by positivity)] at hone
  · have hlow : (2 : ℚ) ^ num.log2 ≤ num := by exact_mod_cast Nat.log2_self_le hnum
    have hhigh : (den : ℚ) ≤ 2 ^ (den.log2 + 1) := by exact_mod_cast Nat.lt_log2_self.le
    calc (2 : ℚ) ^ ((num.log2 : Int) - den.log2 - 1)
        = 2 ^ num.log2 / 2 ^ (den.log2 + 1) := by
          rw [← zpow_natCast, ← zpow_natCast, ← zpow_sub₀ (by norm_num)]
          congr 1
          omega
      _ ≤ num / den := div_le_div₀ (by positivity) hlow (by exact_mod_cast hden) hhigh

/-- The exponent of the unit that a quotient is rounded to. -/
def unit (num den : Nat) : Int := max (binaryOrder num den - 52) (-1074)

def units (num den : Nat) : Nat :=
  roundQuotient (scaleUp num (-unit num den)) (scaleUp den (unit num den))

def rounded (num den : Nat) : ℚ := units num den * 2 ^ unit num den

theorem le_units {z : Nat} (hden : 0 < den) (h : (z : ℚ) * 2 ^ unit num den ≤ num / den) :
    z ≤ units num den := by
  refine le_roundQuotient (scaleUp_pos hden _) ?_
  rwa [scaleUp_div_scaleUp, le_div_iff₀ (by positivity)]

theorem units_le {z : Nat} (hden : 0 < den) (h : (num : ℚ) / den ≤ z * 2 ^ unit num den) :
    units num den ≤ z := by
  refine roundQuotient_le (scaleUp_pos hden _) ?_
  rwa [scaleUp_div_scaleUp, div_le_iff₀ (by positivity)]

theorem zpow_le_of_unit_pos (hnum : num ≠ 0) (hden : 0 < den) (h : 0 < unit num den) :
    (2 : ℚ) ^ 52 * 2 ^ unit num den ≤ num / den := by
  have horder : unit num den = binaryOrder num den - 52 := by
    unfold unit at h ⊢
    omega
  calc (2 : ℚ) ^ 52 * 2 ^ unit num den = 2 ^ binaryOrder num den := by
        rw [horder, ← zpow_natCast, ← zpow_add₀ (by norm_num)]
        congr 1
        omega
    _ ≤ num / den := zpow_binaryOrder_le hnum hden

theorem exists_units_eq {e : Int} (he : e ≤ 0) (z : Nat) : ∃ k : Nat, (k : ℚ) * 2 ^ e = z := by
  obtain ⟨n, hn⟩ := Int.eq_ofNat_of_zero_le (Int.neg_nonneg.2 he)
  obtain rfl : e = -n := by omega
  exact ⟨z * 2 ^ n, by simp⟩

theorem two_pow_le_of_unit_pos {e : Int} (he : 0 < e) : (2 : ℚ) ^ 53 ≤ 2 ^ 52 * 2 ^ e := by
  have h : (2 : ℚ) ^ (1 : Int) ≤ 2 ^ e := zpow_le_zpow_right₀ (by norm_num) he
  rw [zpow_one] at h
  linarith

theorem le_rounded {z : Nat} (hnum : num ≠ 0) (hden : 0 < den) (hz : z < 2 ^ 53)
    (h : (z : ℚ) ≤ num / den) : (z : ℚ) ≤ rounded num den := by
  unfold rounded
  rcases Int.lt_or_le 0 (unit num den) with he | he
  · -- the whole binade of the quotient lies above `z`
    have hunits : 2 ^ 52 ≤ units num den := by
      refine le_units hden ?_
      exact_mod_cast zpow_le_of_unit_pos hnum hden he
    calc (z : ℚ) ≤ 2 ^ 53 := by exact_mod_cast hz.le
      _ ≤ 2 ^ 52 * 2 ^ unit num den := two_pow_le_of_unit_pos he
      _ ≤ units num den * 2 ^ unit num den := by
        gcongr
        exact_mod_cast hunits
  · -- `z` is a whole number of units, and rounding to units is monotone
    obtain ⟨k, hk⟩ := exists_units_eq he z
    rw [← hk] at h ⊢
    gcongr
    exact le_units hden h

theorem unit_le_of_lt {z : Nat} (hnum : num ≠ 0) (hden : 0 < den) (hz : z < 2 ^ 53)
    (h : (num : ℚ) / den ≤ z) : unit num den ≤ 0 := by
  by_contra he
  have hlow := zpow_le_of_unit_pos hnum hden (not_le.1 he)
  have htwo := two_pow_le_of_unit_pos (not_le.1 he)
  have hlt : (z : ℚ) < 2 ^ 53 := by exact_mod_cast hz
  linarith

theorem rounded_le {z : Nat} (hnum : num ≠ 0) (hden : 0 < den) (hz : z < 2 ^ 53)
    (h : (num : ℚ) / den ≤ z) : rounded num den ≤ z := by
  obtain ⟨k, hk⟩ := exists_units_eq (unit_le_of_lt hnum hden hz h) z
  rw [← hk] at h ⊢
  unfold rounded
  gcongr
  exact units_le hden h

theorem noneBetween_rounded (hnum : num ≠ 0) (hden : 0 < den) :
    NoneBetween (num / den) (rounded num den) := by
  have hnonneg : 0 ≤ rounded num den := by
    unfold rounded
    positivity
  exact .of_natCast (by positivity) hnonneg fun _ hn =>
    ⟨le_rounded hnum hden hn, rounded_le hnum hden hn⟩

end Quotient

theorem value?_finite (negative : Bool) (m : Nat) (e : Int) :
    (finite negative m e).value? = some (signed negative (m * 2 ^ e)) := by
  have hscale : (scaleUp m e : ℚ) / scaleUp 1 (-e) = m * 2 ^ e := by
    have h := scaleUp_div_scaleUp m 1 (-e)
    rw [Int.neg_neg] at h
    rw [h]
    simp
  cases negative
  · simpa [value?, numerator?, denominator, signed] using hscale
  · simpa [value?, numerator?, denominator, signed, neg_div] using hscale

theorem value?_ofQuotient {num den : Nat} (negative : Bool) (hnum : num ≠ 0) :
    (ofQuotient negative num den).value? = some (signed negative (rounded num den)) ∨
      971 ≤ unit num den ∧ (ofQuotient negative num den).value? = none := by
  have hform : ofQuotient negative num den =
      if units num den = Nat.pow 2 53 then
        if unit num den < 971 then finite negative (Nat.pow 2 52) (unit num den + 1)
        else infinite negative
      else if unit num den ≤ 971 then finite negative (units num den) (unit num den)
      else infinite negative := by
    rw [ofQuotient, if_neg hnum]
    rfl
  rw [hform]
  split
  · rename_i hfull
    split
    · -- 53 digits have become 54: half as many units of twice the size
      left
      rw [value?_finite, rounded, hfull, zpow_add_one₀ (by norm_num)]
      congr 2
      norm_num
      ring
    · exact .inr ⟨by omega, rfl⟩
  · split
    · exact .inl (value?_finite ..)
    · exact .inr ⟨by omega, rfl⟩

/-- `x` is what an operation gives whose exact result is `q`. -/
def Rounds (q : ℚ) (x : Binary64) : Prop :=
  ∃ (num : Int) (den : Nat), 0 < den ∧ (num : ℚ) / den = q ∧ ofRatio num den = x

namespace Rounds

variable {q v : ℚ} {x : Binary64} {z : Int}

theorem eq_zero_or (h : Rounds q x) : q = 0 ∧ x.value? = some 0 ∨
    ∃ (num den : Nat) (negative : Bool), num ≠ 0 ∧ 0 < den ∧ q = signed negative (num / den) ∧
      x = ofQuotient negative num den := by
  obtain ⟨num, den, hden, rfl, rfl⟩ := h
  rcases eq_or_ne num 0 with rfl | hnum
  · left
    refine ⟨by simp, ?_⟩
    rw [ofRatio, Int.natAbs_zero, ofQuotient, if_pos rfl, value?_finite]
    simp [signed]
  · refine .inr ⟨num.natAbs, den, decide (num < 0), Int.natAbs_ne_zero.2 hnum, hden, ?_, rfl⟩
    exact div_eq_signed num den

theorem noneBetween (h : Rounds q x) (hv : x.value? = some v) : NoneBetween q v := by
  rcases h.eq_zero_or with ⟨rfl, hx⟩ | ⟨num, den, negative, hnum, hden, rfl, rfl⟩
  · obtain rfl := Option.some.inj (hv.symm.trans hx)
    exact fun _ _ => ⟨id, id⟩
  · rcases value?_ofQuotient negative hnum with hx | ⟨-, hx⟩
    · obtain rfl := Option.some.inj (hv.symm.trans hx)
      exact (noneBetween_rounded hnum hden).signed negative
    · exact absurd (hv.symm.trans hx) nofun

theorem le_value (h : Rounds q x) (hv : x.value? = some v) (hz : z.natAbs < 2 ^ 53)
    (hle : (z : ℚ) ≤ q) : (z : ℚ) ≤ v :=
  (h.noneBetween hv z hz).1 hle

theorem value_le (h : Rounds q x) (hv : x.value? = some v) (hz : z.natAbs < 2 ^ 53)
    (hle : q ≤ z) : v ≤ z :=
  (h.noneBetween hv z hz).2 hle

theorem exists_value (h : Rounds q x) (hz : z.natAbs < 2 ^ 53) (hlo : -z ≤ q) (hhi : q ≤ z) :
    ∃ v, x.value? = some v := by
  rcases h.eq_zero_or with ⟨-, hx⟩ | ⟨num, den, negative, hnum, hden, hq, rfl⟩
  · exact ⟨0, hx⟩
  · have hle : (num : ℚ) / den ≤ z := by
      cases negative with
      | false => exact hq.symm.trans_le hhi
      | true => exact neg_le_neg_iff.1 (hlo.trans_eq hq)
    have hnonneg : (0 : ℚ) ≤ z := le_trans (by positivity) hle
    obtain ⟨n, rfl⟩ := Int.eq_ofNat_of_zero_le (by exact_mod_cast hnonneg)
    have hunit := unit_le_of_lt hnum hden (by simpa using hz) (by exact_mod_cast hle)
    rcases value?_ofQuotient negative hnum with hx | ⟨hover, -⟩
    · exact ⟨_, hx⟩
    · omega

theorem value?_intCast (h : Rounds z x) (hz : z.natAbs < 2 ^ 53) : x.value? = some (z : ℚ) := by
  obtain ⟨v, hv⟩ := h.exists_value (z := z.natAbs) (by rwa [Int.natAbs_natCast])
    (by simpa using neg_abs_le (z : ℚ)) (by simpa using le_abs_self (z : ℚ))
  have hlo := h.le_value hv hz le_rfl
  have hhi := h.value_le hv hz le_rfl
  rw [hv, le_antisymm hhi hlo]

end Rounds

section Operation

variable {x y : Binary64} {a b : ℚ}

theorem value?_eq_some_iff : x.value? = some a ↔
    ∃ n : Int, x.numerator? = some n ∧ (n : ℚ) / x.denominator = a :=
  Option.map_eq_some_iff

theorem denominator_pos (x : Binary64) : 0 < x.denominator := by
  cases x <;> simp [denominator, scaleUp]

theorem rounds_of_ofInt? {n : Int} (h : ofInt? n = some x) : Rounds n x := by
  refine ⟨n, 1, Nat.one_pos, by simp, ?_⟩
  unfold ofInt? at h
  split at h
  · cases h
  · exact Option.some.inj h

theorem exists_ofInt? {n : Int} (hn : n.natAbs < 2 ^ 53) :
    ∃ x, ofInt? n = some x ∧ x.value? = some (n : ℚ) := by
  have hround : Rounds n (ofRatio n 1) := ⟨n, 1, Nat.one_pos, by simp, rfl⟩
  have hv := hround.value?_intCast hn
  refine ⟨ofRatio n 1, ?_, hv⟩
  unfold ofInt?
  split
  · rename_i h
    rw [h] at hv
    cases hv
  · rfl

theorem rounds_add? (hx : x.value? = some a) (hy : y.value? = some b) :
    ∃ z, x.add? y = some z ∧ Rounds (a + b) z := by
  obtain ⟨m, hm, rfl⟩ := value?_eq_some_iff.1 hx
  obtain ⟨n, hn, rfl⟩ := value?_eq_some_iff.1 hy
  have hdx : (x.denominator : ℚ) ≠ 0 := by exact_mod_cast x.denominator_pos.ne'
  have hdy : (y.denominator : ℚ) ≠ 0 := by exact_mod_cast y.denominator_pos.ne'
  refine ⟨ofRatio (m * y.denominator + n * x.denominator) (x.denominator * y.denominator), ?_,
    _, _, Nat.mul_pos x.denominator_pos y.denominator_pos, ?_, rfl⟩
  · simp [add?, hm, hn]
  · push_cast
    field_simp

theorem exists_value_of_add? {z : Binary64} (h : x.add? y = some z) : ∃ a, x.value? = some a := by
  cases x with
  | finite s m e => exact ⟨_, rfl⟩
  | infinite s => cases h
  | nan => cases h

theorem rounds_divNat? {n : Nat} (hn : 0 < n) (hx : x.value? = some a) :
    ∃ z, x.divNat? n = some z ∧ Rounds (a / n) z := by
  obtain ⟨m, hm, rfl⟩ := value?_eq_some_iff.1 hx
  refine ⟨ofRatio m (x.denominator * n), by simp [divNat?, hm], m, _,
    Nat.mul_pos x.denominator_pos hn, ?_, rfl⟩
  push_cast
  exact (div_div _ _ _).symm

theorem rounds_mulNat? (n : Nat) (hx : x.value? = some a) :
    ∃ z, x.mulNat? n = some z ∧ Rounds (a * n) z := by
  obtain ⟨m, hm, rfl⟩ := value?_eq_some_iff.1 hx
  refine ⟨ofRatio (m * n) x.denominator, by simp [mulNat?, hm], m * n, _, x.denominator_pos, ?_,
    rfl⟩
  push_cast
  exact mul_div_right_comm _ _ _

theorem exists_truncate? (hx : x.value? = some a) : ∃ (w : Int) (f : ℚ) (z : Binary64),
    x.truncate? = some w ∧ x.fraction? = some z ∧ Rounds f z ∧ a = w + f ∧ |f| < 1 := by
  obtain ⟨n, hn, rfl⟩ := value?_eq_some_iff.1 hx
  have hd : (0 : ℚ) < x.denominator := by exact_mod_cast x.denominator_pos
  refine ⟨n.tdiv x.denominator, (n.tmod x.denominator : Int) / x.denominator,
    ofRatio (n.tmod x.denominator) x.denominator, by simp [truncate?, hn], by simp [fraction?, hn],
    ⟨_, _, x.denominator_pos, rfl, rfl⟩, ?_, ?_⟩
  · rw [div_eq_iff hd.ne', add_mul, div_mul_cancel₀ _ hd.ne']
    exact_mod_cast (Int.tdiv_mul_add_tmod n x.denominator).symm
  · rw [abs_div, abs_of_pos hd, div_lt_one hd, ← Int.cast_abs, Int.abs_eq_natAbs]
    have h : (n.tmod x.denominator).natAbs < x.denominator := by
      rw [Int.natAbs_tmod, Int.natAbs_natCast]
      exact Nat.mod_lt _ x.denominator_pos
    exact_mod_cast h

theorem exists_round? (hx : x.value? = some a) :
    ∃ r, x.round? = some r ∧ NoneBetween a r := by
  obtain ⟨n, hn, rfl⟩ := value?_eq_some_iff.1 hx
  refine ⟨roundHalfEven n x.denominator, by simp [round?, hn], ?_⟩
  rw [div_eq_signed, roundHalfEven_cast]
  exact (noneBetween_roundQuotient n.natAbs x.denominator_pos).signed _

end Operation

end PolicyAudit.Binary64
