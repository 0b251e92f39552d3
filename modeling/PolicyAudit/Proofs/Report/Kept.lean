import Mathlib.Data.List.Basic
import PolicyAudit.Proofs.Report.Narrow

/-! What a narrowing keeps.
The reports that survive are those without findings from the start and those with one to keep; they
stay in their order and keep just such findings (`narrowAll_eq`). So no finding to keep is lost with
a report, and none is moved to another one (`flatMap_findings_narrowAll`). -/

namespace PolicyAudit.Report

variable {keep : ε → Bool}

def survives (keep : ε → Bool) (r : Report μ ε) : Bool :=
  r.findings.isEmpty || r.findings.any keep

def keeping (keep : ε → Bool) (r : Report μ ε) : Report μ ε :=
  { r with findings := r.findings.filter keep }

theorem survives_iff {r : Report μ ε} :
    r.survives keep ↔ r.findings = [] ∨ ∃ f ∈ r.findings, keep f := by
  simp [survives]

theorem narrow_eq (keep : ε → Bool) (r : Report μ ε) :
    r.narrow keep = if r.survives keep then some (r.keeping keep) else none := by
  have hsurvives : (r.narrow keep).isSome ↔ r.survives keep :=
    narrow_isSome_iff.trans survives_iff.symm
  cases h : r.narrow keep with
  | none =>
    rw [h] at hsurvives
    rw [if_neg (hsurvives.not.1 Bool.false_ne_true)]
  | some r' =>
    rw [h] at hsurvives
    rw [if_pos (hsurvives.1 rfl), eq_of_narrow h]
    rfl

theorem narrowAll_eq (keep : ε → Bool) (rs : List (Report μ ε)) :
    narrowAll keep rs = (rs.filter (survives keep)).map (keeping keep) := by
  induction rs with
  | nil => rfl
  | cons r rs ih =>
    rw [narrowAll, List.filterMap_cons, narrow_eq, List.filter_cons]
    split_ifs
    · exact congrArg (r.keeping keep :: ·) ih
    · exact ih

theorem filter_findings_of_not_survives {r : Report μ ε} (h : ¬ r.survives keep) :
    r.findings.filter keep = [] := by
  rw [survives_iff, not_or] at h
  exact List.filter_eq_nil_iff.2 fun f hf hkeep => h.2 ⟨f, hf, hkeep⟩

theorem flatMap_findings_narrowAll (keep : ε → Bool) (rs : List (Report μ ε)) :
    (narrowAll keep rs).flatMap (·.findings) = (rs.flatMap (·.findings)).filter keep := by
  induction rs with
  | nil => rfl
  | cons r rs ih =>
    rw [narrowAll, List.filterMap_cons, narrow_eq, List.flatMap_cons, List.filter_append]
    split_ifs with h
    · exact congrArg (r.findings.filter keep ++ ·) ih
    · rw [filter_findings_of_not_survives h]
      exact ih

theorem narrowAll_map_mapBoth (f : μ → μ') (g : ε → ε') (keep : ε' → Bool)
    (rs : List (Report μ ε)) :
    narrowAll keep (rs.map (mapBoth f g)) = (narrowAll (keep ∘ g) rs).map (mapBoth f g) := by
  have hsurvives (r : Report μ ε) : (r.mapBoth f g).survives keep = r.survives (keep ∘ g) := by
    simp [survives, mapBoth, List.any_map]
  have hkeeping (r : Report μ ε) :
      (r.mapBoth f g).keeping keep = (r.keeping (keep ∘ g)).mapBoth f g := by
    simp [keeping, mapBoth, List.filter_map]
  rw [narrowAll_eq, narrowAll_eq, List.filter_map, List.map_map, List.map_map,
    show survives keep ∘ mapBoth f g = survives (keep ∘ g) from funext hsurvives]
  exact List.map_congr_left fun r _ => hkeeping r

theorem tally_keeping (keep : Finding → Bool) (r : Audit) :
    (r.keeping keep).tally = Tally.statuses.map fun status =>
      r.findings.countP fun f => keep f && f.status == some status := by
  have hcount (status : String) : ((r.findings.filter keep).map (·.status)).count (some status) =
      r.findings.countP fun f => keep f && f.status == some status := by
    rw [List.count, List.countP_map, List.countP_filter]
    exact List.countP_congr fun f _ => by simp [and_comm]
  exact congrArg (Tally.map · Tally.statuses) (funext hcount)

end PolicyAudit.Report
