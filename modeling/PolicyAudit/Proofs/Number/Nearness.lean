import PolicyAudit.Proofs.Number.Rounding

/-! How far rounding moves a number.
Half a unit in the last place: a result below `2 ^ k` in size is moved by at most `2 ^ (k - 54)`
(`Rounds.abs_sub_le`), so that roundings in a row add up to a bound, and a number less than a half
away from a whole one is rounded to that (`round?_eq_of_near`). -/

namespace PolicyAudit.Binary64

theorem abs_signed (negative : Bool) (q : ℚ) : |signed negative q| = |q| := by
  cases negative
  · rfl
  · exact abs_neg q

theorem signed_sub_signed (negative : Bool) (q r : ℚ) :
    signed negative q - signed negative r = signed negative (q - r) := by
  cases negative
  · rfl
  · simp only [signed, if_true]
    ring

section Quotient

variable {num den : Nat}

theorem roundQuotient_half (num : Nat) (hden : 0 < den) :
    (2 * (roundQuotient num den * den) : Int) ≤ 2 * num + den ∧
      (2 * num : Int) ≤ 2 * (roundQuotient num den * den) + den := by
  have hdiv : (num : Int) = num / den * den + num % den := by
    exact_mod_cast (Nat.div_add_mod' num den).symm
  have hrest : num % den < den := Nat.mod_lt num hden
  unfold roundQuotient
  dsimp only
  split
  · push_cast
    omega
  · split
    · push_cast [add_mul]
      omega
    · split <;> push_cast [add_mul] <;> omega

theorem abs_roundQuotient_sub_le (num : Nat) (hden : 0 < den) :
    |(roundQuotient num den : ℚ) - num / den| ≤ 1 / 2 := by
  have hd : (0 : ℚ) < den := by exact_mod_cast hden
  obtain ⟨hlo, hhi⟩ := roundQuotient_half num hden
  have hlo' : 2 * (roundQuotient num den * den : ℚ) ≤ 2 * num + den := by exact_mod_cast hlo
  have hhi' : (2 * num : ℚ) ≤ 2 * (roundQuotient num den * den) + den := by exact_mod_cast hhi
  have hnum : (num : ℚ) / den * den = num := div_mul_cancel₀ _ hd.ne'
  rw [abs_le]
  constructor
  · refine le_of_mul_le_mul_right ?_ hd
    linarith
  · refine le_of_mul_le_mul_right ?_ hd
    linarith

theorem abs_roundHalfEven_sub_le (num : Int) (hden : 0 < den) :
    |(roundHalfEven num den : ℚ) - num / den| ≤ 1 / 2 := by
  rw [roundHalfEven_cast, div_eq_signed, signed_sub_signed, abs_signed]
  exact abs_roundQuotient_sub_le num.natAbs hden

theorem abs_rounded_sub_le (num : Nat) (hden : 0 < den) :
    |rounded num den - num / den| ≤ 2 ^ unit num den / 2 := by
  have hunit : (0 : ℚ) < 2 ^ unit num den := by positivity
  have hunits := abs_roundQuotient_sub_le (scaleUp num (-unit num den))
    (scaleUp_pos hden (unit num den))
  rw [scaleUp_div_scaleUp] at hunits
  calc |rounded num den - num / den|
      = |(units num den : ℚ) - num / den / 2 ^ unit num den| * 2 ^ unit num den := by
        rw [rounded, ← abs_of_pos hunit, ← abs_mul, abs_of_pos hunit, sub_mul,
          div_mul_cancel₀ _ hunit.ne']
    _ ≤ 1 / 2 * 2 ^ unit num den := by
        gcongr
        exact hunits
    _ = 2 ^ unit num den / 2 := by ring

theorem unit_le_of_lt_zpow {k : Int} (hnum : num ≠ 0) (hden : 0 < den) (hk : -1021 ≤ k)
    (h : (num : ℚ) / den < 2 ^ k) : unit num den ≤ k - 53 := by
  have hlt : binaryOrder num den < k :=
    (zpow_lt_zpow_iff_right₀ (by norm_num)).1 ((zpow_binaryOrder_le hnum hden).trans_lt h)
  unfold unit
  omega

end Quotient

variable {x : Binary64} {q v : ℚ} {k z : Int}

theorem Rounds.abs_sub_le (h : Rounds q x) (hv : x.value? = some v) (hk : -1021 ≤ k)
    (hq : |q| < 2 ^ k) : |v - q| ≤ 2 ^ (k - 54) := by
  rcases h.eq_zero_or with ⟨rfl, hx⟩ | ⟨num, den, negative, hnum, hden, rfl, rfl⟩
  · obtain rfl := Option.some.inj (hv.symm.trans hx)
    simpa using (by positivity : (0 : ℚ) ≤ 2 ^ (k - 54))
  · rcases value?_ofQuotient negative hnum with hx | ⟨-, hx⟩
    · obtain rfl := Option.some.inj (hv.symm.trans hx)
      rw [abs_signed, abs_of_nonneg (by positivity)] at hq
      have hunit := unit_le_of_lt_zpow hnum hden hk hq
      calc |signed negative (rounded num den) - signed negative (num / den)|
          = |rounded num den - num / den| := by rw [signed_sub_signed, abs_signed]
        _ ≤ 2 ^ unit num den / 2 := abs_rounded_sub_le num hden
        _ ≤ 2 ^ (k - 53) / 2 := by
            gcongr
            norm_num
        _ = 2 ^ (k - 54) := by
            rw [show k - 53 = k - 54 + 1 by ring, zpow_add_one₀ (by norm_num)]
            ring
    · exact absurd (hv.symm.trans hx) nofun

theorem round?_eq_of_near (hv : x.value? = some v) (h : |v - z| < 1 / 2) : x.round? = some z := by
  obtain ⟨n, hn, rfl⟩ := value?_eq_some_iff.1 hv
  have hround := abs_roundHalfEven_sub_le n x.denominator_pos
  have hdist : |((roundHalfEven n x.denominator - z : Int) : ℚ)| < 1 := by
    push_cast
    calc |(roundHalfEven n x.denominator : ℚ) - z|
        ≤ |(roundHalfEven n x.denominator : ℚ) - n / x.denominator| +
          |n / x.denominator - (z : ℚ)| := abs_sub_le _ _ _
      _ < 1 / 2 + 1 / 2 := add_lt_add_of_le_of_lt hround h
      _ = 1 := by norm_num
  have hsame : roundHalfEven n x.denominator - z = 0 := by
    rw [← Int.abs_lt_one_iff]
    exact_mod_cast hdist
  simp [round?, hn, Int.sub_eq_zero.1 hsame]

end PolicyAudit.Binary64
