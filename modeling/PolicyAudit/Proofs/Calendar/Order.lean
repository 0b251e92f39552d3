import PolicyAudit.Proofs.Calendar.Instant

/-! The order of texts.
Numbers of one width are in the order of their digits (`padded_lt_padded_iff`), so that the texts of
moments in UTC are in the order of their instants (`iso_lt_iso_iff`). A text without a fraction comes
before those with one because a plus comes before a point. -/

namespace PolicyAudit.Moment

theorem append_lt_append_iff {cs ds : List Char} (h : cs.length = ds.length) (rest rest' : List Char) :
    cs ++ rest < ds ++ rest' ↔ cs < ds ∨ cs = ds ∧ rest < rest' := by
  induction cs generalizing ds with
  | nil =>
    obtain rfl := List.length_eq_zero_iff.1 h.symm
    simp
  | cons c cs ih =>
    obtain ⟨d, ds, rfl⟩ := List.exists_cons_of_length_eq_add_one h.symm
    rw [List.cons_append, List.cons_append, List.cons_lt_cons_iff, List.cons_lt_cons_iff,
      ih (Nat.succ.inj h), List.cons.injEq]
    tauto

theorem toNat_of_isDigit {c : Char} (h : c.isDigit) : 48 ≤ c.toNat ∧ c.toNat ≤ 57 := by
  simp only [Char.isDigit, Bool.and_eq_true, decide_eq_true_eq] at h
  exact ⟨h.1, h.2⟩

theorem ofDigitChars_lt_iff {cs ds : List Char} (hlen : cs.length = ds.length)
    (hcs : ∀ c ∈ cs, c.isDigit) (hds : ∀ d ∈ ds, d.isDigit) (a b : Nat) :
    Nat.ofDigitChars 10 cs a < Nat.ofDigitChars 10 ds b ↔ a < b ∨ a = b ∧ cs < ds := by
  induction cs generalizing ds a b with
  | nil =>
    obtain rfl := List.length_eq_zero_iff.1 hlen.symm
    simp
  | cons c cs ih =>
    obtain ⟨d, ds, rfl⟩ := List.exists_cons_of_length_eq_add_one hlen.symm
    rw [List.forall_mem_cons] at hcs hds
    have hc := toNat_of_isDigit hcs.1
    have hd := toNat_of_isDigit hds.1
    have hlt : c < d ↔ c.toNat < d.toNat := Iff.rfl
    have hzero : '0'.toNat = 48 := rfl
    rw [Nat.ofDigitChars_cons, Nat.ofDigitChars_cons, ih (Nat.succ.inj hlen) hcs.2 hds.2,
      List.cons_lt_cons_iff, hlt, ← Char.toNat_inj, hzero]
    by_cases h : cs < ds
    · simp only [h, and_true]
      omega
    · simp only [h, and_false, or_false]
      omega

theorem padded_lt_padded_iff {w n n' : Nat} (hw : 0 < w) (hn : n < 10 ^ w) (hn' : n' < 10 ^ w) :
    padded w n < padded w n' ↔ n < n' := by
  have hlen := (length_padded hw hn).trans (length_padded hw hn').symm
  have h := ofDigitChars_lt_iff hlen (fun _ => isDigit_of_mem_padded)
    (fun _ => isDigit_of_mem_padded) 0 0
  simpa using h.symm

theorem padded_append_lt_iff {w n n' : Nat} (hw : 0 < w) (hn : n < 10 ^ w) (hn' : n' < 10 ^ w)
    (rest rest' : List Char) :
    padded w n ++ rest < padded w n' ++ rest' ↔ n < n' ∨ n = n' ∧ rest < rest' := by
  have hinj : padded w n = padded w n' ↔ n = n' := by
    refine ⟨fun h => ?_, congrArg _⟩
    rw [← ofDigitChars_padded w n, h, ofDigitChars_padded]
  rw [append_lt_append_iff ((length_padded hw hn).trans (length_padded hw hn').symm),
    padded_lt_padded_iff hw hn hn', hinj]

theorem fraction_lt_fraction_iff {n n' : Nat} (hn : n < 1000000) (hn' : n' < 1000000) :
    (if n = 0 then [] else '.' :: padded 6 n) ++ "+00:00".toList <
      (if n' = 0 then [] else '.' :: padded 6 n') ++ "+00:00".toList ↔ n < n' := by
  by_cases hzero : n = 0
  · by_cases hzero' : n' = 0
    · simp [hzero, hzero']
    · have hlt : '+' < '.' := by decide
      simp [hzero, hzero', Nat.pos_of_ne_zero hzero', List.cons_lt_cons_iff, hlt]
  · by_cases hzero' : n' = 0
    · have hlt : ¬ '.' < '+' := by decide
      simp [hzero, hzero', List.cons_lt_cons_iff, hlt]
    · rw [if_neg hzero, if_neg hzero', List.cons_append, List.cons_append, List.cons_lt_cons_iff,
        padded_append_lt_iff (by decide) hn hn']
      simp

variable {m m' : Moment}

theorem iso_lt_iso_iff (hm : m.Valid) (hm' : m'.Valid) (hutc : m.offset = some 0)
    (hutc' : m'.offset = some 0) : m.iso < m'.iso ↔ m.instant < m'.instant := by
  rw [← fields_lt_iff hm hm', String.lt_iff, toList_iso hutc, toList_iso hutc', stem_append,
    stem_append]
  have htwo {n n' k : Nat} (hn : n ≤ k) (hn' : n' ≤ k) (hk : k < 100) :=
    padded_append_lt_iff (w := 2) (by decide) (Nat.lt_of_le_of_lt hn hk) (Nat.lt_of_le_of_lt hn' hk)
  have hyear : ∀ rest rest', padded 4 m.date.year.toNat ++ rest < padded 4 m'.date.year.toNat ++ rest' ↔
      _ := padded_append_lt_iff (by decide) (by have := hm.year_le; omega)
    (by have := hm'.year_le; omega)
  have hmonth := htwo hm.date.month_le hm'.date.month_le (by decide)
  have hday := htwo hm.date.day_le hm'.date.day_le (by decide)
  have hhour := htwo hm.hour_lt.le hm'.hour_lt.le (by decide)
  have hminute := htwo hm.minute_lt.le hm'.minute_lt.le (by decide)
  have hsecond := htwo hm.second_lt.le hm'.second_lt.le (by decide)
  have hfraction := fraction_lt_fraction_iff hm.micro_lt hm'.micro_lt
  simp only [hyear, hmonth, hday, hhour, hminute, hsecond, hfraction, fields, List.cons_lt_cons_iff,
    List.not_lt_nil, Char.lt_irrefl, true_and, false_or, and_false, or_false]

end PolicyAudit.Moment
