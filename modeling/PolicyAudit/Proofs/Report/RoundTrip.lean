import PolicyAudit.Proofs.Report.Restore

/-! What is written of a report is read back.
The full form and the one without nulls give the same report, but for the priorities: these are not
written and follow from the severities again. A payload has the priority, too, and gives the very
same finding. -/

namespace PolicyAudit

open Check Checked

namespace Finding

@[simp] theorem toValue_rederived (f : Finding) : f.rederived.toValue = f.toValue := rfl

@[simp] theorem identity_rederived (f : Finding) : f.rederived.identity = f.identity := rfl

/-- A payload is read as the finding it was made of. -/
theorem ofValue_payload {doc : Value} {f : Finding} (h : ofValue doc = .accepted f) :
    ofValue f.payload = .accepted f := by
  rw [payload_eq_write]
  exact restores_payload (fresh_of_ofValue h) .compact

theorem ofValue_payload_unset :
    let doc : Value := .record [("policy", .text "p"), ("severity", .text "high"),
      ("priority", .text "")]
    let f : Finding := { policy := some "p", severity := some "high", priority := .unset }
    ofValue doc = .accepted f ∧ ofValue f.payload = .accepted f ∧ f.rederived ≠ f := by
  intro doc f
  have h : ofValue doc = .accepted f := rfl
  exact ⟨h, ofValue_payload h, by decide⟩

end Finding

namespace Report

theorem variantOf_kind (variant : Variant) : variantOf (.text variant.kind) = .ok variant := by
  cases variant <;> rfl

theorem get?_kind_write (r : Audit) (form : Form) :
    (form.write (toValue r)).get? "kind" = some (.text r.variant.kind) := by
  rw [toValue, Value.record, Form.write_map, Value.get?]
  refine (Form.get?_write_record (by simp) form "kind").trans ?_
  exact (form.field?_of_ne_null Value.noConfusion).trans (congrArg some (form.write_text _))

theorem parse_write {r : Audit} (hr : Fresh r) (form : Form) :
    parse (form.write (toValue r)) = .ok (rederived r) := by
  rw [parse, get?_kind_write, Option.getD_some, variantOf_kind]
  simp only [bind, Except.bind]
  rw [restores hr form]
  rfl

section rederived

variable (r : Audit)

theorem findings_rederived : (rederived r).findings = r.findings.map Finding.rederived := rfl

theorem map_findings_rederived {g : Finding → β} (h : ∀ f : Finding, g f.rederived = g f) :
    (rederived r).findings.map g = r.findings.map g := by
  rw [findings_rederived, List.map_map]
  exact List.map_congr_left fun f _ => h f

theorem toValue_rederived : toValue (rederived r) = toValue r := by
  rw [toValue, map_findings_rederived r Finding.toValue_rederived]
  rfl

theorem tally_rederived : (rederived r).tally = r.tally :=
  congrArg Tally.ofStatuses (map_findings_rederived r fun _ => rfl)

theorem kinds_rederived : (rederived r).kinds = r.kinds :=
  congrArg firstSeen (map_findings_rederived r fun _ => rfl)

theorem severities_rederived : (rederived r).severities = r.severities :=
  congrArg firstSeen (map_findings_rederived r fun _ => rfl)

theorem source_rederived : (rederived r).source = r.source := by
  unfold source Finding.sourceOf
  rw [findings_rederived, List.head?_map]
  cases r.findings.head? <;> rfl

end rederived

/-- A report that was read is read again from either of its written forms; in the compact one no
field holds null. The report so read differs from the first at most in the priorities of its
findings, which follow from the severities; the rest, and what is derived of it, stays. -/
theorem parse_write_toValue {doc : Value} {r : Audit} (hdoc : doc.Timely) (h : parse doc = .ok r) :
    ¬ (Form.compact.write (toValue r)).HasNullField ∧
    ∀ form : Form, ∃ r', parse (form.write (toValue r)) = .ok r' ∧
      r' = { r with findings := r.findings.map fun f =>
        { f with priority := .ofSeverity f.severity } } ∧
      r'.variant = r.variant ∧ toValue r' = toValue r ∧ r'.id = r.id ∧
      r'.metadata.name = r.metadata.name ∧ r'.ns = r.ns ∧ r'.tally = r.tally ∧
      r'.kinds = r.kinds ∧ r'.severities = r.severities ∧ r'.source = r.source ∧
      r'.findings.map Finding.identity = r.findings.map Finding.identity := by
  refine ⟨Value.not_hasNullField_compact _, fun form => ?_⟩
  refine ⟨rederived r, parse_write (fresh_of_parse hdoc h) form, rfl, rfl, toValue_rederived r, rfl,
    rfl, rfl, tally_rederived r, kinds_rederived r, severities_rederived r, source_rederived r, ?_⟩
  exact map_findings_rederived r Finding.identity_rederived

theorem parse_write_toValue_offset :
    let doc : Value := .record [("kind", .text "PolicyReport"),
      ("metadata", .record [("name", .text "r"),
        ("creation_timestamp", .text "2024-02-29 23:30:00.5+01:30")]),
      ("results", .list [.record [("policy", .text "p"), ("scored", .int 1),
        ("severity", .text "high"), ("priority", .int 2)]])]
    let r : Audit := {
      variant := .namespaced
      apiVersion := apiVersionDefault
      metadata := {
        name := some "r", creation := some ⟨⟨2024, 2, 29⟩, 23, 30, 0, 500000, some 5400⟩ }
      scope := none
      scopeSelector := none
      stored := .zero
      findings := [{
        policy := some "p", scored := true, severity := some "high", priority := .info }] }
    parse doc = .ok r ∧ doc.Timely ∧ ∃ r', parse (Form.compact.write (toValue r)) = .ok r' ∧
      toValue r' = toValue r ∧ r'.findings.map (·.priority) = [.error] := by
  intro doc r
  have h : parse doc = .ok r := rfl
  have hdoc : doc.Timely := by simp [doc]
  obtain ⟨r', hparse, hr', -, hvalue, -⟩ := (parse_write_toValue hdoc h).2 .compact
  refine ⟨h, hdoc, r', hparse, hvalue, ?_⟩
  rw [hr']
  rfl

end Report

end PolicyAudit
