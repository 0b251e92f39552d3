import PolicyAudit.Proofs.Report.Kept
import PolicyAudit.Proofs.Session.Nesting

/-! What filtering leaves of the current list.
A finding passes by its priority and its source alone. The reports that stay show what they showed,
but for the findings that do not pass (`audit_keeping`); nothing that the list before refers to is
written to, and that list is the next one on the stack. -/

namespace PolicyAudit

theorem Criteria.admits_getD_iff (minimum : Priority) (sources : Option (List String))
    (f : Finding) :
    Criteria.admits ⟨minimum, sources.getD []⟩ f ↔ minimum.ordinal ≤ f.priority.ordinal ∧
      ∀ names, sources = some names → names ≠ [] → f.source.getD "" ∈ names := by
  rw [admits_iff, Priority.le_iff]
  refine and_congr_right fun _ => ?_
  cases sources with
  | none => simp
  | some names => simp [or_iff_not_imp_left]

namespace Store

open Report

theorem audit_keeping (s : Store) (keep : Finding → Bool) (r : Held) :
    s.audit (r.keeping fun h => keep (s.finding h)) = (s.audit r).keeping keep := by
  simp only [audit, keeping, mapBoth, List.filter_map]
  rfl

end Store

namespace Session

theorem audits_filter (s : Session) (c : Criteria) :
    (s.step (.filter c)).1.audits = Report.narrowAll c.admits s.audits :=
  (Report.narrowAll_map_mapBoth _ _ c.admits s.current).symm

/-- The reports that stay are those without findings and those with a finding that passes, in their
order and each with the findings that pass; all that such a report shows besides is as before, and
its counts are over those findings. Of the findings listed just those that do not pass are gone. What
is stored, with the identities that have been shown, and the list before are untouched. -/
theorem filtering_keeps_what_passes (s : Session) (minimum : Priority)
    (sources : Option (List String)) :
    let c : Criteria := ⟨minimum, sources.getD []⟩
    let passes (h : Nat) : Bool := c.admits (s.store.finding h)
    let s' := (s.step (.filter c)).1
    (∀ f : Finding, c.admits f ↔ minimum.ordinal ≤ f.priority.ordinal ∧
      ∀ names, sources = some names → names ≠ [] → f.source.getD "" ∈ names) ∧
    s'.current = (s.current.filter fun r => r.findings = [] ∨ ∃ h ∈ r.findings, passes h).map
      (fun r => { r with findings := r.findings.filter passes }) ∧
    (∀ r : Held,
      let a := s.store.audit r
      let a' := s'.store.audit { r with findings := r.findings.filter passes }
      a'.variant = a.variant ∧ a'.id = a.id ∧ a'.metadata = a.metadata ∧ a'.ns = a.ns ∧
      a'.scope = a.scope ∧ a'.findings = a.findings.filter c.admits ∧
      a'.tally = Tally.statuses.map fun status =>
        a.findings.countP fun f => c.admits f && f.status == some status) ∧
    s'.listed = s.listed.filter passes ∧
    s'.audits = Report.narrowAll c.admits s.audits ∧
    s'.store = s.store ∧ s'.below = s.levels := by
  intro c passes s'
  refine ⟨Criteria.admits_getD_iff minimum sources, ?_, fun r => ?_, ?_, s.audits_filter c, rfl,
    rfl⟩
  · have hsurvives : ∀ r ∈ s.current, r.survives passes =
        decide (r.findings = [] ∨ ∃ h ∈ r.findings, passes h) := fun r _ => by
      rw [Bool.eq_iff_iff, decide_eq_true_iff]
      exact Report.survives_iff
    have hcurrent : s'.current = _ := Report.narrowAll_eq passes s.current
    rw [hcurrent, List.filter_congr hsurvives]
    rfl
  · intro a a'
    have ha' : a' = a.keeping c.admits := s.store.audit_keeping c.admits r
    rw [ha']
    exact ⟨rfl, rfl, rfl, rfl, rfl, rfl, Report.tally_keeping c.admits a⟩
  · exact Report.flatMap_findings_narrowAll passes s.current

/-- The empty text among the sources, given twice, asks for findings without a source. -/
example :
    let r : Audit := ⟨.namespaced, "v1", { name := some "r" }, none, none, .zero,
      [{ source := some "a", priority := .error }, { priority := .info }, { priority := .debug }]⟩
    let emptied : Audit := { r with findings := [{ source := some "a", priority := .error }] }
    let empty : Audit := { r with findings := [] }
    ((start [r, emptied, empty]).step (.filter ⟨.info, ["", ""]⟩)).1.audits =
      [{ r with findings := [{ priority := .info }] }, empty] := by
  decide

end Session

end PolicyAudit
