import PolicyAudit.Proofs.Json.Decoding
import PolicyAudit.Proofs.Json.Rows
import PolicyAudit.Proofs.Report.Payload
import PolicyAudit.Report.Json

/-! The JSON text of reports.
All that a payload is made of is a document that JSON holds as it is (`Report.plain_payload`). So the
text of a list of reports is laid out in rows of visible ASCII, and whoever decodes it by the standard
has the payloads again. -/

namespace PolicyAudit

open Value

theorem Reference.plain_toValue (r : Reference) : r.toValue.Plain := by
  refine plain_record (by simp) ?_
  simp only [List.forall_mem_cons]
  exact ⟨plain_ofText? _, plain_ofText? _, plain_ofText? _, plain_ofText? _, plain_ofText? _,
    plain_ofText? _, plain_ofText? _, List.forall_mem_nil _⟩

theorem Requirement.plain_toValue (r : Requirement) : r.toValue.Plain := by
  refine plain_record (by simp) ?_
  simp only [List.forall_mem_cons]
  exact ⟨.text _, .text _, plain_texts _, List.forall_mem_nil _⟩

theorem Selector.plain_toValue (s : Selector) : s.toValue.Plain := by
  refine plain_record (by simp) ?_
  simp only [List.forall_mem_cons]
  exact ⟨plain_labels _, .list (List.forall_mem_map.2 fun r _ => r.plain_toValue),
    List.forall_mem_nil _⟩

theorem Timestamp.plain_toValue (t : Timestamp) : t.toValue.Plain := by
  refine plain_record (by simp) ?_
  simp only [List.forall_mem_cons]
  exact ⟨.int _, .int _, List.forall_mem_nil _⟩

theorem Tally.plain_toValue (t : Tally Nat) : t.toValue.Plain := by
  refine plain_record (by simp) ?_
  simp only [List.forall_mem_cons]
  exact ⟨.int _, .int _, .int _, .int _, .int _, List.forall_mem_nil _⟩

namespace Finding

theorem plain_written (f : Finding) : ∀ field ∈ f.written, field.2.Plain := by
  simp only [written, List.forall_mem_cons]
  exact ⟨plain_ofText? _, plain_ofText? _, plain_ofText? _,
    .list (List.forall_mem_map.2 fun r _ => r.plain_toValue),
    plain_getD_null Selector.plain_toValue, plain_ofText? _, plain_ofText? _, .bool _,
    plain_labels _, plain_getD_null Timestamp.plain_toValue, plain_ofText? _, plain_ofText? _,
    List.forall_mem_nil _⟩

theorem plain_payload (f : Finding) : f.payload.Plain := by
  have hderived : ∀ field ∈ f.derived, field.2.Plain := by
    simp only [derived, List.forall_mem_cons]
    exact ⟨.text _, .text _, List.forall_mem_nil _⟩
  rw [payload_eq_write]
  exact (plain_record f.nodup_names (List.forall_mem_append.2 ⟨f.plain_written, hderived⟩)).write _

end Finding

namespace Report

theorem plain_payload (r : Audit) : r.payload.Plain := by
  have hns : (if r.ns = "" then Value.null else .text r.ns).Plain := by
    split
    · exact .null
    · exact .text _
  refine plain_record (by simp) ?_
  simp only [List.forall_mem_cons]
  exact ⟨.text _, .text _, plain_ofText? _, hns, .text _, plain_texts _, plain_texts _,
    r.tally.plain_toValue, .list (List.forall_mem_map.2 fun f _ => f.plain_payload),
    List.forall_mem_nil _⟩

theorem plain_payloads (rs : List Audit) : (Value.list (rs.map payload)).Plain :=
  .list (List.forall_mem_map.2 fun r _ => r.plain_payload)

end Report

end PolicyAudit
