import PolicyAudit.Report.Basic

/-! Keeping part of the findings.
A report that had findings and keeps none is dropped; one that had none stays. -/

namespace PolicyAudit

/-- A least priority and the sources wanted; no sources means all of them. -/
structure Criteria where
  minimum : Priority := .unset
  sources : List String := []
  deriving DecidableEq, Repr, Inhabited

def Criteria.admits (c : Criteria) (f : Finding) : Bool :=
  c.minimum ≤ f.priority && (c.sources.isEmpty || c.sources.contains (f.source.getD ""))

namespace Report

def narrow (keep : ε → Bool) (r : Report μ ε) : Option (Report μ ε) :=
  let kept := r.findings.filter keep
  if kept.isEmpty && !r.findings.isEmpty then none else some { r with findings := kept }

def narrowAll (keep : ε → Bool) (rs : List (Report μ ε)) : List (Report μ ε) :=
  rs.filterMap (narrow keep)

theorem eq_of_narrow {keep : ε → Bool} {r r' : Report μ ε} (h : r.narrow keep = some r') :
    r' = { r with findings := r.findings.filter keep } := by
  simp only [narrow] at h
  split at h
  · cases h
  · exact (Option.some.inj h).symm

theorem findings_of_narrow {keep : ε → Bool} {r r' : Report μ ε} (h : r.narrow keep = some r') :
    r'.findings = r.findings.filter keep := by
  rw [eq_of_narrow h]

theorem narrow_isSome_iff {keep : ε → Bool} {r : Report μ ε} :
    (r.narrow keep).isSome ↔ r.findings = [] ∨ ∃ f ∈ r.findings, keep f := by
  simp only [narrow]
  split
  · simp_all [List.filter_eq_nil_iff]
  · simp_all [List.filter_eq_nil_iff]
    grind

end Report

end PolicyAudit
