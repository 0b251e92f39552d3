import PolicyAudit.Proofs.Check.Restore
import PolicyAudit.Proofs.Report.Fresh
import PolicyAudit.Proofs.Report.Payload

/-! Every part of a report is restored from its written form.
What is not written of a finding is lost: its settled identity, and its priority unless a field of
its own gives it (`Finding.restores`). -/

namespace PolicyAudit

open Check Checked

theorem Reference.restores (r : Reference) : Restores ofValue r.toValue r := by
  refine restores_record (by simp) fun form es h => ?_
  rw [h.optionalText rfl rfl, h.optionalText rfl rfl, h.optionalText rfl rfl,
    h.optionalText rfl rfl, h.optionalText rfl rfl, h.optionalText rfl rfl, h.optionalText rfl rfl]
  rfl

theorem Requirement.restores (r : Requirement) : Restores ofValue r.toValue r := by
  refine restores_record (by simp) fun form es h => ?_
  rw [h.required rfl (restores_text r.key) Value.noConfusion,
    h.required rfl (restores_text r.operator) Value.noConfusion,
    h.withDefault rfl rfl (restores_listOf fun s _ => restores_text s) Value.noConfusion]
  rfl

theorem Selector.restores (s : Selector) : Restores ofValue s.toValue s := by
  refine restores_record (by simp) fun form es h => ?_
  rw [h.withDefault rfl rfl (restores_labels s.matchLabels) Value.noConfusion,
    h.withDefault rfl rfl (restores_listOf fun r _ => Requirement.restores r) Value.noConfusion]
  rfl

theorem Timestamp.restores (t : Timestamp) : Restores ofValue t.toValue t := by
  refine restores_record (by simp) fun form es h => ?_
  rw [h.withDefault rfl rfl (restores_int t.seconds) Value.noConfusion,
    h.withDefault rfl rfl (restores_int t.nanos) Value.noConfusion]
  rfl

theorem Tally.restores (t : Tally Nat) : Restores ofValue t.toValue t := by
  refine restores_record (by simp) fun form es h => ?_
  rw [h.withDefault rfl rfl (restores_nat t.pass) Value.noConfusion,
    h.withDefault rfl rfl (restores_nat t.fail) Value.noConfusion,
    h.withDefault rfl rfl (restores_nat t.warn) Value.noConfusion,
    h.withDefault rfl rfl (restores_nat t.error) Value.noConfusion,
    h.withDefault rfl rfl (restores_nat t.skip) Value.noConfusion]
  rfl

theorem Metadata.restores {m : Metadata} (hm : m.Fresh) : Restores ofValue m.toValue m := by
  obtain ⟨name, hname⟩ := Option.isSome_iff_exists.1 hm.name
  refine restores_record (by simp) fun form es h => ?_
  have hwritten : Value.ofText? (m.creation.map Moment.zulu) =
      (m.creation.map fun c => .text c.zulu).getD .null := by
    rw [Value.ofText?, Option.map_map]
    rfl
  have hcreation : Check.optional es ⟨"creationTimestamp", some "creation_timestamp"⟩ moment =
      .accepted m.creation :=
    h.optional (congrArg some hwritten) rfl (fun _ => Value.noConfusion)
      fun c hc => restores_moment (hm.creation c hc)
  rw [h.requiredText hname rfl,
    h.optionalText rfl rfl, h.optionalText rfl rfl, h.optionalText rfl rfl, hcreation,
    h.withDefault rfl rfl (restores_labels m.labels) Value.noConfusion,
    h.withDefault rfl rfl (restores_labels m.annotations) Value.noConfusion]
  show accepted (Metadata.mk (some name) _ _ _ _ _ _) = accepted m
  rw [← hname]

namespace Finding

theorem ofValue_of_holds {f : Finding} (hf : f.Fresh) {es : Entries} {form : Form}
    {more : List (String × Value)} {p : Option Priority} (h : Holds es form (f.written ++ more))
    (hmore : more.lookup "resource_selector" = none)
    (hp : Check.optional es "priority" Priority.ofValue = .accepted p) :
    ofValue (.map es) = .accepted { f with priority := p.getD (.ofSeverity f.severity) } := by
  obtain ⟨policy, hpolicy⟩ := Option.isSome_iff_exists.1 hf.policy
  have hselector := h.optional (n := ⟨"resourceSelector", some "resource_selector"⟩) rfl hmore
    (fun _ => Value.noConfusion) fun s _ => Selector.restores s
  have htimestamp := h.optional (n := "timestamp") rfl rfl (fun _ => Value.noConfusion)
    fun t _ => Timestamp.restores t
  simp only [ofValue, record]
  rw [h.optionalText rfl rfl,
    h.requiredText hpolicy rfl,
    h.optionalText rfl rfl,
    h.withDefault rfl rfl (restores_listOf fun r _ => Reference.restores r) Value.noConfusion,
    hselector, h.optionalText rfl rfl, h.vocabulary rfl rfl,
    h.withDefault rfl rfl (restores_bool f.scored) Value.noConfusion,
    h.withDefault rfl rfl (restores_labels f.properties) Value.noConfusion, htimestamp,
    h.optionalText rfl rfl, h.vocabulary rfl rfl, hp]
  show accepted (Finding.mk _ (some policy) _ _ _ _ _ _ _ _ _ _ _ none) = _
  rw [← hpolicy, ← hf.settled]

/-- The priority as the severity gives it. -/
def rederived (f : Finding) : Finding := { f with priority := .ofSeverity f.severity }

theorem restores {f : Finding} (hf : f.Fresh) : Restores ofValue f.toValue f.rederived := by
  refine restores_record (by simp) fun form es h => ?_
  have hwritten : Holds es form (f.written ++ []) := by
    rw [List.append_nil]
    exact h
  exact ofValue_of_holds hf hwritten rfl (h.withDefault_of_absent none _ rfl rfl)

theorem restores_label (p : Priority) :
    Restores (nullable Priority.ofValue) (.text p.label) (some p) := by
  intro form
  rw [Form.write_text]
  show accepted (some (Priority.ofLabel p.label)) = _
  rw [Priority.ofLabel_label]

theorem restores_payload {f : Finding} (hf : f.Fresh) :
    Restores ofValue (.record (f.written ++ f.derived)) f := by
  refine restores_record f.nodup_names fun form es h => ?_
  exact ofValue_of_holds hf h rfl
    (h.withDefault rfl rfl (restores_label f.priority) Value.noConfusion)

end Finding

namespace Report

theorem restores_literal (s : String) : Restores (literal s) (.text s) () := by
  intro form
  rw [Form.write_text]
  exact if_pos rfl

def rederived (r : Audit) : Audit := r.mapBoth (fun m => m) Finding.rederived

theorem restores {r : Audit} (hr : Fresh r) :
    Restores (ofValue r.variant) (toValue r) (rederived r) := by
  refine restores_record (by simp) fun form es h => ?_
  have hscope := h.optional (n := "scope") rfl rfl (fun _ => Value.noConfusion)
    fun s _ => Reference.restores s
  have hselector := h.optional (n := ⟨"scopeSelector", some "scope_selector"⟩) rfl rfl
    (fun _ => Value.noConfusion) fun s _ => Selector.restores s
  rw [h.withDefault rfl rfl (restores_text r.apiVersion) Value.noConfusion,
    h.withDefault rfl rfl (restores_literal r.variant.kind) Value.noConfusion,
    h.required rfl (Metadata.restores hr.metadata) Value.noConfusion, hscope, hselector,
    h.withDefault rfl rfl (Tally.restores r.stored) Value.noConfusion,
    h.withDefault rfl rfl (restores_listOf_map fun f hf => Finding.restores (hr.findings f hf))
      Value.noConfusion]
  rfl

end Report

end PolicyAudit
