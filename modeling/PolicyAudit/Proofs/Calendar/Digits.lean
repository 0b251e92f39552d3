import Mathlib.Algebra.Ring.Nat
import Mathlib.Data.List.Basic
import PolicyAudit.Calendar.Rfc3339

/-! Numbers written with a fixed number of decimal digits.
`padded w n` has `w` digits when `n` fits (`length_padded`) and reads back as `n`
(`ofDigitChars_padded`), two digits at a time (`two?_padded`). -/

namespace PolicyAudit.Moment

theorem ofDigitChars_lt (ds : List Char) (init : Nat) (h : ∀ c ∈ ds, c.isDigit) :
    Nat.ofDigitChars 10 ds init < 10 ^ ds.length * (init + 1) := by
  induction ds generalizing init with
  | nil => simp
  | cons c ds ih =>
    rw [List.forall_mem_cons] at h
    have hc : c.toNat - '0'.toNat < 10 := by
      have hd := h.1
      simp only [Char.isDigit, Bool.and_eq_true, decide_eq_true_eq] at hd
      have : c.toNat ≤ 57 := hd.2
      show c.toNat - 48 < 10
      omega
    rw [Nat.ofDigitChars_cons, List.length_cons, Nat.pow_succ, Nat.mul_assoc]
    exact Nat.lt_of_lt_of_le (ih _ h.2) (Nat.mul_le_mul_left _ (by omega))

theorem length_padded {w n : Nat} (hw : 0 < w) (h : n < 10 ^ w) : (padded w n).length = w := by
  have hle : (Nat.toDigits 10 n).length ≤ w := (Nat.length_toDigits_le_iff (by decide) hw).2 h
  simp [padded]
  omega

theorem isDigit_of_mem_padded {w n : Nat} {c : Char} (h : c ∈ padded w n) : c.isDigit := by
  rcases List.mem_append.1 h with h | h
  · rw [(List.mem_replicate.1 h).2]
    decide
  · exact Nat.isDigit_of_mem_toDigits (by decide) (by decide) h

@[simp] theorem ofDigitChars_padded (w n : Nat) : Nat.ofDigitChars 10 (padded w n) 0 = n := by
  rw [padded, Nat.ofDigitChars_append, Nat.ofDigitChars_replicate_zero]
  simp

theorem two?_lt {cs rest : List Char} {n : Nat} (h : two? cs = some (n, rest)) : n < 100 := by
  match cs with
  | [] => cases h
  | [_] => cases h
  | a :: b :: cs =>
    simp only [two?, Option.ite_none_right_eq_some, Option.some.injEq, Prod.mk.injEq] at h
    obtain ⟨⟨ha, hb⟩, rfl, -⟩ := h
    have hlt := ofDigitChars_lt [a, b] 0 (by simp [ha, hb])
    simpa [Nat.ofDigitChars_cons] using hlt

theorem two?_digits {a b : Char} (ha : a.isDigit) (hb : b.isDigit) (rest : List Char) :
    two? (a :: b :: rest) = some (Nat.ofDigitChars 10 [a, b] 0, rest) := by
  simp [two?, ha, hb, Nat.ofDigitChars_cons]

theorem two?_padded {n : Nat} (h : n < 100) (rest : List Char) :
    two? (padded 2 n ++ rest) = some (n, rest) := by
  obtain ⟨a, b, hab⟩ := List.length_eq_two.1 (length_padded (w := 2) (by decide) h)
  have hmem : ∀ c ∈ [a, b], c.isDigit := fun c hc => isDigit_of_mem_padded (hab ▸ hc)
  rw [hab]
  show two? (a :: b :: rest) = _
  rw [two?_digits (hmem a (by simp)) (hmem b (by simp)), ← hab, ofDigitChars_padded]

theorem two?_padded_four {n : Nat} (h : n < 10000) (rest : List Char) :
    ∃ high low middle, two? (padded 4 n ++ rest) = some (high, middle) ∧
      two? middle = some (low, rest) ∧ 100 * high + low = n := by
  obtain ⟨a, b, c, d, habcd⟩ := List.length_eq_four.1 (length_padded (w := 4) (by decide) h)
  have hmem : ∀ x ∈ [a, b, c, d], x.isDigit := fun x hx => isDigit_of_mem_padded (habcd ▸ hx)
  have hn := ofDigitChars_padded 4 n
  rw [habcd] at hn ⊢
  refine ⟨_, _, c :: d :: rest, two?_digits (hmem a (by simp)) (hmem b (by simp)) _,
    two?_digits (hmem c (by simp)) (hmem d (by simp)) _, ?_⟩
  rw [← hn]
  simp [Nat.ofDigitChars_cons]
  omega

theorem micros_lt {ds : List Char} (h : ∀ c ∈ ds, c.isDigit) : micros ds < 1000000 := by
  have hlt := ofDigitChars_lt (ds.take 6) 0 fun c hc => h c (List.mem_of_mem_take hc)
  have hlen : (ds.take 6).length ≤ 6 := List.length_take_le 6 ds
  have hpow : 10 ^ (ds.take 6).length * 10 ^ (6 - (ds.take 6).length) = 1000000 := by
    rw [← Nat.pow_add, show (ds.take 6).length + (6 - (ds.take 6).length) = 6 by omega]
  rw [← hpow]
  exact Nat.mul_lt_mul_of_pos_right (by simpa using hlt) (Nat.pow_pos (by decide))

theorem micros_padded {n : Nat} (h : n < 1000000) : micros (padded 6 n) = n := by
  have hlen := length_padded (w := 6) (by decide) h
  have htake : (padded 6 n).take 6 = padded 6 n := List.take_of_length_le (by omega)
  simp only [micros, htake, ofDigitChars_padded, hlen]
  exact Nat.mul_one n

end PolicyAudit.Moment
