import PolicyAudit.Report.Filter

/-! Narrowing in turn.
A narrowing after another keeps what both keep: a report that loses all its findings to the first is
gone, one that had none is there for both (`narrowAll_narrowAll`). Two criteria are as good as one,
their `meet`, unless both name sources and none in common; then no finding passes both. -/

namespace PolicyAudit

instance : Max Priority := maxOfLe

theorem Priority.max_le_iff {p q r : Priority} : max p q ≤ r ↔ p ≤ r ∧ q ≤ r := by
  show (if p ≤ q then q else p) ≤ r ↔ p ≤ r ∧ q ≤ r
  simp only [Priority.le_iff]
  split <;> omega

namespace Criteria

variable {c d : Criteria} {f : Finding}

/-- The higher priority, and the sources in common or those of the one that names any. -/
def meet (c d : Criteria) : Criteria where
  minimum := max c.minimum d.minimum
  sources :=
    if c.sources = [] then d.sources
    else if d.sources = [] then c.sources
    else c.sources.filter (· ∈ d.sources)

def Apart (c d : Criteria) : Prop :=
  c.sources ≠ [] ∧ d.sources ≠ [] ∧ ∀ s ∈ c.sources, s ∉ d.sources

/-- `c` asks for no more than `d` asks for. -/
def Laxer (c d : Criteria) : Prop :=
  c.minimum ≤ d.minimum ∧ (c.sources = [] ∨ d.sources ≠ [] ∧ ∀ s ∈ d.sources, s ∈ c.sources)

theorem admits_iff : c.admits f ↔
    c.minimum ≤ f.priority ∧ (c.sources = [] ∨ f.source.getD "" ∈ c.sources) := by
  simp [admits]

theorem admits_meet (h : ¬ c.Apart d) : (c.meet d).admits f ↔ c.admits f ∧ d.admits f := by
  have hsources : ((c.meet d).sources = [] ∨ f.source.getD "" ∈ (c.meet d).sources) ↔
      (c.sources = [] ∨ f.source.getD "" ∈ c.sources) ∧
        (d.sources = [] ∨ f.source.getD "" ∈ d.sources) := by
    unfold meet
    by_cases hc : c.sources = []
    · simp [hc]
    by_cases hd : d.sources = []
    · simp [hc, hd]
    have hcommon : c.sources.filter (· ∈ d.sources) ≠ [] := by
      simpa [Apart, hc, hd, List.filter_eq_nil_iff] using h
    simp [hc, hd, hcommon]
  rw [admits_iff, admits_iff, admits_iff, hsources, meet, Priority.max_le_iff]
  exact and_and_and_comm

theorem not_admits_of_apart (h : c.Apart d) : ¬ (c.admits f ∧ d.admits f) := by
  obtain ⟨hc, hd, hnone⟩ := h
  rw [admits_iff, admits_iff]
  rintro ⟨⟨-, hfc⟩, -, hfd⟩
  exact hnone _ (hfc.resolve_left hc) (hfd.resolve_left hd)

theorem Laxer.admits (h : c.Laxer d) (hf : d.admits f) : c.admits f := by
  obtain ⟨hpriority, hsources⟩ := h
  obtain ⟨hminimum, hsource⟩ := admits_iff.1 hf
  refine admits_iff.2 ⟨Nat.le_trans hpriority hminimum, ?_⟩
  rcases hsources with hc | ⟨hd, hsub⟩
  · exact .inl hc
  · exact .inr (hsub _ (hsource.resolve_left hd))

end Criteria

namespace Report

theorem narrow_narrow (p q : ε → Bool) (r : Report μ ε) :
    (r.narrow p).bind (narrow q) = r.narrow fun e => p e && q e := by
  have hboth : (r.findings.filter p).filter q = r.findings.filter fun e => p e && q e := by
    rw [List.filter_filter]
    exact List.filter_congr fun e _ => Bool.and_comm _ _
  unfold narrow
  rw [← hboth]
  by_cases hr : r.findings = []
  · simp [hr]
  -- what the first narrowing keeps of a report that it drops counts as nothing for the second
  generalize r.findings.filter p = once
  by_cases hp : once = []
  · simp [hr, hp]
  · simp [hr, hp]

theorem narrowAll_narrowAll (p q : ε → Bool) (rs : List (Report μ ε)) :
    narrowAll q (narrowAll p rs) = narrowAll (fun e => p e && q e) rs := by
  unfold narrowAll
  rw [List.filterMap_filterMap]
  exact congrArg (List.filterMap · rs) (funext (narrow_narrow p q))

theorem narrowAll_append (keep : ε → Bool) (rs rs' : List (Report μ ε)) :
    narrowAll keep (rs ++ rs') = narrowAll keep rs ++ narrowAll keep rs' :=
  List.filterMap_append

theorem narrowAll_filter_variant (keep : ε → Bool) (p : Variant → Bool) (rs : List (Report μ ε)) :
    narrowAll keep (rs.filter fun r => p r.variant) =
      (narrowAll keep rs).filter fun r => p r.variant := by
  have hvariant (r : Report μ ε) : (if p r.variant then r.narrow keep else none) =
      (r.narrow keep).filter fun r => p r.variant := by
    cases h : r.narrow keep with
    | none => simp
    | some r' => simp [Option.filter, eq_of_narrow h]
  unfold narrowAll
  rw [List.filterMap_filter, List.filter_filterMap]
  exact congrArg (List.filterMap · rs) (funext hvariant)

theorem narrow_false (r : Report μ ε) :
    (r.narrow fun _ => false) = if r.findings.isEmpty then some r else none := by
  obtain ⟨variant, apiVersion, metadata, scope, scopeSelector, stored, findings⟩ := r
  cases findings <;> simp [narrow]

theorem narrowAll_false (rs : List (Report μ ε)) :
    narrowAll (fun _ => false) rs = rs.filter (·.findings.isEmpty) := by
  unfold narrowAll
  rw [← List.filterMap_eq_filter]
  exact congrArg (List.filterMap · rs) (funext narrow_false)

/-- Narrowing by criteria in turn, where `look` says which finding an entry stands for. The order
does not matter, and what is kept are the same entries as one narrowing keeps. -/
theorem narrowAll_criteria (look : ε → Finding) (c d : Criteria) (rs : List (Report μ ε)) :
    let narrowed (c : Criteria) (rs : List (Report μ ε)) := narrowAll (c.admits ∘ look) rs
    narrowed d (narrowed c rs) = narrowed c (narrowed d rs) ∧
    (c.sources = [] ∨ d.sources = [] ∨ (∃ s ∈ c.sources, s ∈ d.sources) →
      narrowed d (narrowed c rs) = narrowed (c.meet d) rs) ∧
    (c.sources ≠ [] ∧ d.sources ≠ [] ∧ (∀ s ∈ c.sources, s ∉ d.sources) →
      narrowed d (narrowed c rs) = rs.filter (·.findings.isEmpty)) ∧
    narrowed c (narrowed c rs) = narrowed c rs ∧
    (c.Laxer d → narrowed d (narrowed c rs) = narrowed d rs) := by
  intro narrowed
  have hboth (c d : Criteria) : narrowed d (narrowed c rs) =
      narrowAll (fun e => c.admits (look e) && d.admits (look e)) rs := narrowAll_narrowAll _ _ rs
  have hcongr {p q : ε → Bool} (h : ∀ e, p e = q e) : narrowAll p rs = narrowAll q rs := by
    rw [funext h]
  refine ⟨?_, ?_, ?_, ?_, ?_⟩
  · rw [hboth, hboth]
    exact hcongr fun e => Bool.and_comm _ _
  · intro h
    have hapart : ¬ c.Apart d := by
      rintro ⟨hc, hd, hnone⟩
      rcases h with h | h | ⟨s, hsc, hsd⟩
      · exact hc h
      · exact hd h
      · exact hnone s hsc hsd
    rw [hboth]
    refine hcongr fun e => Bool.eq_iff_iff.2 ?_
    rw [Bool.and_eq_true]
    exact (Criteria.admits_meet hapart).symm
  · intro h
    rw [hboth, ← narrowAll_false]
    refine hcongr fun e => Bool.eq_false_iff.2 ?_
    rw [Ne, Bool.and_eq_true]
    exact Criteria.not_admits_of_apart h
  · rw [hboth]
    exact hcongr fun e => Bool.and_self _
  · intro h
    rw [hboth]
    refine hcongr fun e => Bool.eq_iff_iff.2 ?_
    rw [Bool.and_eq_true]
    exact ⟨fun he => he.2, fun he => ⟨h.admits he, he⟩⟩

theorem narrowAll_criteria_two_engines :
    let report (name : String) (fs : List Finding) : Audit :=
      ⟨.namespaced, "v1", { name := some name }, none, none, .zero, fs⟩
    let f : Finding := { source := some "a", priority := .error }
    let g : Finding := { source := some "b", priority := .info }
    let rs := [report "empty" [], report "both" [f, g], report "late" [g]]
    let c : Criteria := ⟨.info, ["a", "b"]⟩
    narrowAll (Criteria.admits ⟨.warning, ["c", "a"]⟩) (narrowAll c.admits rs) =
      [report "empty" [], report "both" [f]] ∧
    narrowAll (Criteria.admits ⟨.unset, ["c"]⟩) (narrowAll c.admits rs) = [report "empty" []] := by
  intro report f g rs c
  have h (d : Criteria) := narrowAll_criteria (fun f => f) c d rs
  exact ⟨((h ⟨.warning, ["c", "a"]⟩).2.1 (.inr (.inr ⟨"a", by decide, by decide⟩))).trans rfl,
    ((h ⟨.unset, ["c"]⟩).2.2.1 (by decide)).trans rfl⟩

end Report

end PolicyAudit
