import PolicyAudit.Proofs.Report.Entry
import PolicyAudit.Proofs.Report.FirstSeen
import PolicyAudit.Report.Json

/-! What the payload of a report says of its own results.
Every count, list and text beside the results, and the identity beside name and namespace, follows from
what stands in the payload itself (`Report.consistent_payload`); the counts stored with the report have
no part in it. -/

namespace PolicyAudit

/-- `obj` lists the results `entries`, and all else that it says of them is so. -/
structure Consistent (obj : Value) (entries : List Value) : Prop where
  results : obj.get? "results" = some (.list entries)
  summary : obj.get? "summary" = some (.record (["pass", "fail", "warn", "error", "skip"].map
    fun status => (status, .int (entries.countP (·.text? "result" = some status)))))
  kinds : ∃ kinds, obj.get? "kinds" = some (.list (kinds.map .text)) ∧
    FirstSeen (entries.map fun e => (e.primary?.bind (·.text? "kind")).getD "") kinds
  severities : ∃ severities, obj.get? "severities" = some (.list (severities.map .text)) ∧
    FirstSeen (entries.map fun e => (e.text? "severity").getD "") severities
  source : obj.get? "source" = some (.text ((entries.head?.bind (·.text? "source")).getD ""))
  id : ∃ name ns : Option String, obj.get? "name" = some (.ofText? name) ∧
    obj.get? "namespace" = some (.ofText? ns) ∧
    obj.get? "id" = some (.text (reportId (some (name.getD "")) (some (ns.getD ""))))

namespace Finding

theorem countP_payload (fs : List Finding) (status : String) :
    (fs.map payload).countP (·.text? "result" = some status) =
      (fs.map (·.status)).count (some status) := by
  have hstatus : ∀ f : Finding, f.payload.text? "result" = f.status := fun f => f.text?_payload rfl
  rw [List.countP_map, List.count, List.countP_map]
  refine List.countP_congr fun f _ => ?_
  simp [hstatus]

theorem firstSeen_payloads {read : Value → String} {text : Finding → Option String}
    (h : ∀ f : Finding, read f.payload = (text f).getD "") (fs : List Finding) :
    FirstSeen ((fs.map payload).map read) (firstSeen (fs.map text)) := by
  have hread : (fs.map payload).map read = (fs.map text).map (·.getD "") := by
    rw [List.map_map, List.map_map]
    exact List.map_congr_left fun f _ => h f
  rw [hread]
  exact firstSeen_collects _

theorem primaryKind_payload (f : Finding) :
    f.payload.primary?.bind (·.text? "kind") = f.resource?.bind (·.kind) := by
  rw [primary?_payload, Option.bind_map]
  exact congrArg _ (funext fun r => r.text?_compact rfl)

theorem sourceOf_eq (fs : List Finding) :
    sourceOf fs = ((fs.map payload).head?.bind (·.text? "source")).getD "" := by
  have hsource : ∀ f : Finding, f.payload.text? "source" = f.source := fun f => f.text?_payload rfl
  rw [sourceOf, List.head?_map, Option.bind_map]
  simp only [Function.comp_def, hsource]

end Finding

theorem reportId_getD (name ns : Option String) :
    reportId (some (name.getD "")) (some (ns.getD "")) = reportId name ns := by
  cases name <;> cases ns <;> rfl

namespace Report

def shownFields (r : Audit) : List (String × Value) := [
  ("id", .text r.id),
  ("kind", .text r.variant.kind),
  ("name", .ofText? r.metadata.name),
  ("namespace", .ofText? (if r.ns = "" then none else some r.ns)),
  ("source", .text r.source),
  ("kinds", .list (r.kinds.map .text)),
  ("severities", .list (r.severities.map .text)),
  ("summary", r.tally.toValue),
  ("results", .list (r.findings.map Finding.payload))]

theorem get?_payload (r : Audit) (name : String) : r.payload.get? name = r.shownFields.lookup name := by
  have hns : Value.ofText? (if r.ns = "" then none else some r.ns) =
      if r.ns = "" then .null else .text r.ns := by
    split <;> rfl
  rw [shownFields, hns]
  exact Form.get?_fields _ _

theorem consistent_payload (r : Audit) : Consistent r.payload (r.findings.map Finding.payload) where
  results := r.get?_payload _
  summary := by
    simp only [Finding.countP_payload]
    exact r.get?_payload _
  kinds := ⟨r.kinds, r.get?_payload _,
    Finding.firstSeen_payloads (fun f => by rw [f.primaryKind_payload]) r.findings⟩
  severities := ⟨r.severities, r.get?_payload _,
    Finding.firstSeen_payloads (fun f => by rw [f.text?_payload (o := f.severity) rfl]) r.findings⟩
  source := by
    rw [← Finding.sourceOf_eq]
    exact r.get?_payload _
  id := by
    refine ⟨r.metadata.name, _, r.get?_payload _, r.get?_payload _, ?_⟩
    have hns : (if r.ns = "" then none else some r.ns).getD "" = r.ns := by
      split
      · exact Eq.symm ‹_›
      · rfl
    rw [hns, ← Option.getD_some (a := r.ns) (b := ""), reportId_getD]
    exact r.get?_payload _

end Report

end PolicyAudit
