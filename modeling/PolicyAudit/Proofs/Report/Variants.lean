import PolicyAudit.Proofs.Check.Rewriting
import PolicyAudit.Proofs.Cluster.Conserved
import PolicyAudit.Proofs.Json.Decoding
import PolicyAudit.Proofs.Report.Content
import PolicyAudit.Proofs.Report.Emission
import PolicyAudit.Proofs.Report.Fields
import PolicyAudit.Proofs.Report.Kept
import PolicyAudit.Proofs.Report.RoundTrip
import PolicyAudit.Proofs.Report.Rows
import PolicyAudit.Proofs.Report.Settled

/-! One body read as either kind of report.
The kind decides the variant of the report and nothing else that is read (`parse_withKind`). What the
two reports show differs where the namespace has a part in it: in the identity, the namespace itself
and the header (`view_inVariant`, `payload_inVariant`, `header_inVariant`). -/

namespace PolicyAudit

namespace Checked

theorem map_map (g : β → γ) (f : α → β) (x : Checked α) : g <$> f <$> x = (g ∘ f) <$> x := by
  cases x <;> rfl

theorem map_seq (g : β → γ) (f : Checked (α → β)) (x : Checked α) :
    g <$> (f <*> x) = (g ∘ ·) <$> f <*> x := by
  cases f <;> cases x <;> rfl

end Checked

namespace Check

variable {es : Entries} {name : String} {n : Name} {v : Value}

theorem find_put (h : name ∉ n.texts) : find (es.put (.text name) v) n = find es n := by
  have hget (other : String) (hother : other ∈ n.texts) :
      (es.put (.text name) v).get? other = es.get? other :=
    es.get?_put_ne v fun he => h (Key.text.inj he ▸ hother)
  exact find_congr (hget _ List.mem_cons_self) fun other hn => hget other (other_mem_texts hn)

theorem required_put {read : Value → Checked α} (h : name ∉ n.texts) :
    required (es.put (.text name) v) n read = required es n read := by
  rw [required, find_put h, required]

theorem withDefault_put {default : α} {read : Value → Checked α} (h : name ∉ n.texts) :
    withDefault (es.put (.text name) v) n default read = withDefault es n default read := by
  rw [withDefault, find_put h, withDefault]

theorem optional_put {read : Value → Checked α} (h : name ∉ n.texts) :
    Check.optional (es.put (.text name) v) n read = Check.optional es n read :=
  withDefault_put h

end Check

namespace Report

open Check Cluster

def inVariant (variant : Variant) (r : Report μ ε) : Report μ ε := { r with variant }

theorem literal_kind (es : Entries) (variant : Variant) :
    withDefault (es.put (.text "kind") (.text variant.kind)) "kind" () (literal variant.kind) =
      .accepted () := by
  have hfind : find (es.put (.text "kind") (.text variant.kind)) "kind" =
      ("kind", some (.text variant.kind)) := find_documented (es.get?_put_self _ _)
  rw [withDefault, hfind]
  simp [literal]

theorem ofValue_withKind (variant : Variant) (es : Entries) :
    ofValue variant (withKind variant (.map es)) =
      inVariant variant <$> ofValue .namespaced (withKind .namespaced (.map es)) := by
  simp (disch := decide) only [ofValue, withKind, record, literal_kind, withDefault_put, required_put,
    optional_put, Checked.map_seq, Checked.map_map]
  rfl

theorem parse_withKind_map (variant : Variant) (es : Entries) :
    parse (withKind variant (.map es)) =
      (ofValue variant (withKind variant (.map es))).toExcept.mapError Refusal.invalid := by
  refine parse_of_variantOf ?_
  have hkind : (withKind variant (.map es)).get? "kind" = some (.text variant.kind) :=
    Entries.get?_put_self es "kind" _
  rw [hkind, Option.getD_some, variantOf_kind]

theorem parse_withKind (variant : Variant) (body : Value) :
    parse (withKind variant body) =
      (parse (withKind .namespaced body)).map (inVariant variant) := by
  cases body with
  | map es =>
    rw [parse_withKind_map, parse_withKind_map, ofValue_withKind]
    cases ofValue .namespaced (withKind .namespaced (.map es)) <;> rfl
  | _ => rfl

theorem ofValue_of_parse_withKind {variant : Variant} {body : Value} {r : Audit}
    (h : parse (withKind variant body) = .ok r) :
    ofValue variant (withKind variant body) = .accepted r := by
  cases body with
  | map es =>
    rw [parse_withKind_map] at h
    cases hread : ofValue variant (withKind variant (.map es)) with
    | accepted r' =>
      rw [hread] at h
      exact congrArg _ (Except.ok.inj h)
    | rejected is =>
      rw [hread] at h
      cases h
  | _ => cases h

theorem ns_of_parse_withKind {variant : Variant} {body : Value} {r : Audit}
    (h : parse (withKind variant body) = .ok r) :
    ∃ m, body.get? "metadata" = some m ∧ r.metadata.ns.getD "" = m.textIn "namespace" := by
  obtain ⟨es, hes, hread⟩ := record_eq_accepted_iff.1 (ofValue_of_parse_withKind h)
  simp only [Checked.seq_eq_accepted_iff, Checked.map_eq_accepted_iff] at hread
  obtain ⟨_, _, ⟨_, _, ⟨_, _, ⟨_, _, ⟨_, _, ⟨_, _, ⟨_, -, rfl⟩, -, rfl⟩, hmetadata, rfl⟩, -, rfl⟩, -,
    rfl⟩, -, rfl⟩, -, rfl⟩ := hread
  obtain ⟨m, hm, hmetadata⟩ := required_eq_accepted_iff.1 hmetadata
  obtain ⟨es', rfl, hread⟩ := record_eq_accepted_iff.1 hmetadata
  simp only [Checked.seq_eq_accepted_iff, Checked.map_eq_accepted_iff] at hread
  obtain ⟨_, _, ⟨_, _, ⟨_, _, ⟨_, _, ⟨_, _, ⟨_, ns, ⟨_, -, rfl⟩, hns, rfl⟩, -, rfl⟩, -, rfl⟩, -, rfl⟩,
    -, rfl⟩, -, rfl⟩ := hread
  refine ⟨.map es', ?_, getD_eq_textIn_of_optional hns⟩
  rw [← get?_withKind (by decide), hes]
  exact hm

/-- Reports of one body, the first of a namespace and the second of the cluster. -/
structure Twins (r c : Report μ ε) : Prop where
  namespaced : r.variant = .namespaced
  eq_inVariant : c = r.inVariant .clusterWide

def headerEnd (r : Audit) : String := " [" ++ orDash (some r.source) ++ "] " ++ counted r.tally

def TwinPayloads (p q : Value) : Prop :=
  ∃ (es : Entries) (name : Option String), p = .map es ∧
    es.get? "name" = some (.ofText? name) ∧ es.get? "kind" = some (.text "PolicyReport") ∧
    q = .map (((es.put (.text "id") (.text (reportId name none))).put (.text "kind")
      (.text "ClusterPolicyReport")).put (.text "namespace") .null)

namespace Twins

variable {r c : Audit} {rs cs : List Audit}

theorem toValue (h : Twins r c) : c.toValue = withKind .clusterWide r.toValue := by
  rw [h.eq_inVariant]
  rfl

theorem view (h : Twins r c) : c.view = { r.view with
    variant := .clusterWide
    id := reportId r.metadata.name none
    ns := "" } := by
  rw [h.eq_inVariant]
  rfl

theorem id_eq (h : Twins r c) (hns : r.ns = "") : c.id = r.id := by
  have hid : c.id = reportId r.metadata.name (some "") := by rw [h.eq_inVariant]; rfl
  rw [hid, Report.id, hns]

theorem findings (h : Twins r c) : c.findings = r.findings := by
  rw [h.eq_inVariant]
  rfl

theorem payload (h : Twins r c) : TwinPayloads r.payload c.payload := by
  refine ⟨_, r.metadata.name, rfl, rfl, ?_, ?_⟩
  · rw [h.namespaced]
    rfl
  · rw [h.eq_inVariant]
    rfl

theorem headers (h : Twins r c) :
    header r = "PolicyReport " ++
      (if r.ns = "" then shown r.metadata.name else r.ns ++ "/" ++ shown r.metadata.name) ++
      headerEnd r ∧
    header c = "ClusterPolicyReport " ++ shown r.metadata.name ++ headerEnd r := by
  constructor
  · simp only [header, headerEnd, h.namespaced, Variant.kind, String.append_assoc]
    rfl
  · simp only [header, headerEnd, h.eq_inVariant, String.append_assoc]
    rfl

theorem narrow {r c : Report μ ε} (h : Twins r c) (keep : ε → Bool) :
    r.narrow keep = none ∧ c.narrow keep = none ∨
      ∃ r' c', r.narrow keep = some r' ∧ c.narrow keep = some c' ∧ Twins r' c' := by
  obtain ⟨hr, rfl⟩ := h
  rw [narrow_eq, narrow_eq]
  by_cases hsurvives : r.survives keep
  · exact .inr ⟨_, _, if_pos hsurvives, if_pos hsurvives, hr, rfl⟩
  · exact .inl ⟨if_neg hsurvives, if_neg hsurvives⟩

theorem narrowAll {rs cs : List (Report μ ε)} (h : List.Forall₂ Twins rs cs) (keep : ε → Bool) :
    List.Forall₂ Twins (narrowAll keep rs) (narrowAll keep cs) := by
  induction h with
  | nil => exact .nil
  | cons hrc _ ih =>
    unfold Report.narrowAll at ih ⊢
    rw [List.filterMap_cons, List.filterMap_cons]
    rcases hrc.narrow keep with ⟨hr, hc⟩ | ⟨_, _, hr, hc, htwins⟩
    · rw [hr, hc]
      exact ih
    · rw [hr, hc]
      exact .cons htwins ih

theorem flatMap_findings (h : List.Forall₂ Twins rs cs) :
    cs.flatMap (·.findings) = rs.flatMap (·.findings) := by
  induction h with
  | nil => rfl
  | cons hrc _ ih => rw [List.flatMap_cons, List.flatMap_cons, ih, hrc.findings]

theorem toText (h : List.Forall₂ Twins rs cs) :
    (∃ e, Report.toText rs = .error e ∧ Report.toText cs = .error e) ∨
      Report.toText rs = .ok ("\n".intercalate (rs.flatMap Report.block)) ∧
        Report.toText cs = .ok ("\n".intercalate (cs.flatMap Report.block)) := by
  have hfindings := flatMap_findings h
  cases hlines : lines rs with
  | error e =>
    have hlines' : lines cs = .error e := by
      rw [lines_eq_error_iff, hfindings, ← lines_eq_error_iff, hlines]
    exact .inl ⟨e, by rw [Report.toText, hlines]; rfl, by rw [Report.toText, hlines']; rfl⟩
  | ok ls =>
    have hall := ((lines_eq_ok_iff rs ls).1 hlines).1
    have hall' : ∀ c ∈ cs, ∀ f ∈ c.findings, hasLine f := by
      rwa [← List.forall_mem_flatMap, hfindings, List.forall_mem_flatMap]
    exact .inr ⟨toText_eq_ok_iff.2 ⟨hall, rfl⟩, toText_eq_ok_iff.2 ⟨hall', rfl⟩⟩

theorem payloads (h : List.Forall₂ Twins rs cs) :
    List.Forall₂ TwinPayloads (rs.map Report.payload) (cs.map Report.payload) := by
  rw [List.forall₂_map_left_iff, List.forall₂_map_right_iff]
  exact h.imp fun _ _ hrc => hrc.payload

end Twins

/-- A body is refused as either kind for the same reasons, or it is read as two reports that differ in
the variant alone. Their written forms differ in the kind; what they show differs in namespace and
identity besides, and the identities are one if the document has no namespace. The same findings pass
a filter, and the renderings of what is left correspond report by report. -/
theorem variants_of_one_body :
    (∀ body : Value,
      (∃ e, parse (withKind .namespaced body) = .error e ∧
        parse (withKind .clusterWide body) = .error e) ∨
      ∃ r c m, parse (withKind .namespaced body) = .ok r ∧
        parse (withKind .clusterWide body) = .ok c ∧ Twins r c ∧
        body.get? "metadata" = some m ∧ (m.textIn "namespace" = "" → c.id = r.id)) ∧
    (∀ r c : Audit, Twins r c →
      c.toValue = withKind .clusterWide r.toValue ∧
      c.view = { r.view with
        variant := .clusterWide
        id := reportId r.metadata.name none
        ns := "" } ∧
      c.findings = r.findings ∧
      header r = "PolicyReport " ++
        (if r.ns = "" then shown r.metadata.name else r.ns ++ "/" ++ shown r.metadata.name) ++
        headerEnd r ∧
      header c = "ClusterPolicyReport " ++ shown r.metadata.name ++ headerEnd r) ∧
    ∀ rs cs : List Audit, List.Forall₂ Twins rs cs →
      (∀ criteria : Criteria, List.Forall₂ Twins (narrowAll criteria.admits rs)
        (narrowAll criteria.admits cs)) ∧
      (∃ ps qs, Json.decode? (toJson rs) = some (.list ps) ∧
        Json.decode? (toJson cs) = some (.list qs) ∧ List.Forall₂ TwinPayloads ps qs) ∧
      ((∃ e, toText rs = .error e ∧ toText cs = .error e) ∨
        toText rs = .ok ("\n".intercalate (rs.flatMap fun r => header r :: r.findings.map line)) ∧
        toText cs = .ok ("\n".intercalate (cs.flatMap fun c => header c :: c.findings.map line))) := by
  refine ⟨fun body => ?_, fun r c h => ⟨h.toValue, h.view, h.findings, h.headers⟩, fun rs cs h =>
    ⟨fun criteria => Twins.narrowAll h criteria.admits, ?_, Twins.toText h⟩⟩
  · have hcluster := parse_withKind .clusterWide body
    cases hr : parse (withKind .namespaced body) with
    | error e =>
      rw [hr] at hcluster
      exact .inl ⟨e, rfl, hcluster⟩
    | ok r =>
      rw [hr] at hcluster
      obtain ⟨m, hm, hns⟩ := ns_of_parse_withKind hr
      have hvariant := variant_of_ofValue (ofValue_of_parse_withKind hr)
      have htwins : Twins r (r.inVariant .clusterWide) := ⟨hvariant, rfl⟩
      have hown : r.ns = m.textIn "namespace" := by
        rw [ns, hvariant]
        exact hns
      exact .inr ⟨r, _, m, rfl, hcluster, htwins, hm, fun hempty => htwins.id_eq (hown.trans hempty)⟩
  · exact ⟨_, _, Json.decode?_toText (plain_payloads rs), Json.decode?_toText (plain_payloads cs),
      Twins.payloads h⟩

theorem variants_of_one_body_two_findings :
    let body (ns : String) : Value := .record [
      ("metadata", .record [("name", .text "a"), ("namespace", .text ns)]),
      ("results", .list [.record [("policy", .text "p"), ("severity", .text "high")],
        .record [("policy", .text "q")]])]
    let f : Finding := { policy := some "p", severity := some "high", priority := .error }
    let report (variant : Variant) (ns : String) (fs : List Finding) : Audit :=
      ⟨variant, apiVersionDefault, { name := some "a", ns := some ns }, none, none, .zero, fs⟩
    let r := report .namespaced "prod" [f, { policy := some "q" }]
    let c := report .clusterWide "prod" [f, { policy := some "q" }]
    parse (withKind .namespaced (body "prod")) = .ok r ∧
    parse (withKind .clusterWide (body "prod")) = .ok c ∧
    (∃ r c, parse (withKind .namespaced (body "")) = .ok r ∧
      parse (withKind .clusterWide (body "")) = .ok c ∧ c.id = r.id) ∧
    header r = "PolicyReport prod/a [-] pass=0 fail=0 warn=0 error=0 skip=0" ∧
    header c = "ClusterPolicyReport a [-] pass=0 fail=0 warn=0 error=0 skip=0" ∧
    c.view = { r.view with
      variant := .clusterWide
      id := reportId (some "a") none
      ns := "" } ∧
    narrowAll (Criteria.admits ⟨.warning, []⟩) [r] = [report .namespaced "prod" [f]] ∧
    List.Forall₂ Twins (narrowAll (Criteria.admits ⟨.warning, []⟩) [r])
      (narrowAll (Criteria.admits ⟨.warning, []⟩) [c]) := by
  intro body f report r c
  obtain ⟨hread, hshown, hlists⟩ := variants_of_one_body
  have htwins : Twins r c := ⟨rfl, rfl⟩
  refine ⟨rfl, rfl, ?_, by decide, by decide, (hshown r c htwins).2.1, by decide,
    (hlists [r] [c] (.cons htwins .nil)).1 _⟩
  rcases hread (body "") with ⟨e, he, -⟩ | ⟨r', c', m, hr, hc, -, hm, hid⟩
  · cases he
  · obtain rfl := Option.some.inj hm
    exact ⟨r', c', hr, hc, hid rfl⟩

end Report

end PolicyAudit
