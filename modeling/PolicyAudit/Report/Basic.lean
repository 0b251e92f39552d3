import PolicyAudit.Report.Finding
import PolicyAudit.Report.Metadata

/-! Reports: findings under one name, of a namespace or of the whole cluster.
A report holds its metadata and its findings either as they are or by reference, so `Report` is
a structure over what it holds. What is shown of a report follows from its findings; the counts
stored in its document are kept but never shown. -/

namespace PolicyAudit

open Check

inductive Variant
  | namespaced | clusterWide
  deriving DecidableEq, Repr, Inhabited

def Variant.kind : Variant → String
  | .namespaced => "PolicyReport"
  | .clusterWide => "ClusterPolicyReport"

def Variant.ofKind? (s : String) : Option Variant :=
  [.namespaced, .clusterWide].find? (·.kind == s)

structure Report (μ ε : Type) where
  variant : Variant
  apiVersion : String
  metadata : μ
  scope : Option Reference
  scopeSelector : Option Selector
  stored : Tally Nat
  findings : List ε
  deriving DecidableEq, Repr, Inhabited

/-- The texts met, each once, in the order first met; empty and absent ones are left out. -/
def firstSeen (ss : List (Option String)) : List String :=
  (ss.filterMap (·.filter (· ≠ ""))).foldl
    (fun acc s => if acc.contains s then acc else acc ++ [s]) []

namespace Finding

def sourceOf (fs : List Finding) : String := (fs.head?.bind (·.source)).getD ""

def kindsOf (fs : List Finding) : List String :=
  firstSeen (fs.map fun f => f.resource?.bind (·.kind))

def severitiesOf (fs : List Finding) : List String := firstSeen (fs.map (·.severity))

def tallyOf (fs : List Finding) : Tally Nat := .ofStatuses (fs.map (·.status))

end Finding

def reportId (name ns : Option String) : String := Finding.decimal (Hash.ofTexts [name, ns])

abbrev Audit := Report Metadata Finding

namespace Report

def apiVersionDefault : String := "wgpolicyk8s.io/v1alpha2"

def mapBoth (f : μ → μ') (g : ε → ε') (r : Report μ ε) : Report μ' ε' :=
  { r with metadata := f r.metadata, findings := r.findings.map g }

def literal (s : String) : Value → Checked Unit
  | .text t => if t = s then .accepted () else .fail .otherLiteral
  | _ => .fail .otherLiteral

/-- Reads a document as a report of the given variant; the document may leave its kind off. -/
def ofValue (variant : Variant) : Value → Checked Audit :=
  record fun es =>
    (fun apiVersion _ metadata scope scopeSelector stored findings =>
      { variant, apiVersion, metadata, scope, scopeSelector, stored, findings })
      <$> withDefault es ⟨"apiVersion", some "api_version"⟩ apiVersionDefault text
      <*> withDefault es "kind" () (literal variant.kind)
      <*> required es "metadata" Metadata.ofValue
      <*> optional es "scope" Reference.ofValue
      <*> optional es ⟨"scopeSelector", some "scope_selector"⟩ Selector.ofValue
      <*> withDefault es "summary" .zero Tally.ofValue
      <*> withDefault es "results" [] (listOf Finding.ofValue)

inductive Refusal
  | otherKind (kind : Value)
  | compoundKind
  | invalid (issues : List Issue)
  deriving Repr

/-- The variant a document's kind names; lists and mappings are no kinds at all. -/
def variantOf (kind : Value) : Except Refusal Variant :=
  match kind with
  | .list _ | .map _ => .error .compoundKind
  | .text s =>
    match Variant.ofKind? s with
    | some variant => .ok variant
    | none => .error (.otherKind kind)
  | _ => .error (.otherKind kind)

def parse (doc : Value) : Except Refusal Audit := do
  let variant ← variantOf ((doc.get? "kind").getD .null)
  match ofValue variant doc with
  | .accepted r => return r
  | .rejected is => throw (.invalid is)

namespace Refusal

def message : Refusal → String
  | otherKind kind => "not a policy report: kind=" ++ String.ofList kind.literal
  | compoundKind => ""
  | invalid is => Issue.listText is

end Refusal

def toValue (r : Audit) : Value :=
  .record [
    ("apiVersion", .text r.apiVersion),
    ("kind", .text r.variant.kind),
    ("metadata", r.metadata.toValue),
    ("scope", (r.scope.map Reference.toValue).getD .null),
    ("scopeSelector", (r.scopeSelector.map Selector.toValue).getD .null),
    ("summary", r.stored.toValue),
    ("results", .list (r.findings.map Finding.toValue))]

/-- A cluster-wide report has no namespace, whatever its metadata says. -/
def ns (r : Audit) : String :=
  match r.variant with
  | .namespaced => r.metadata.ns.getD ""
  | .clusterWide => ""

def id (r : Audit) : String := reportId r.metadata.name (some r.ns)

def source (r : Audit) : String := Finding.sourceOf r.findings

def kinds (r : Audit) : List String := Finding.kindsOf r.findings

def severities (r : Audit) : List String := Finding.severitiesOf r.findings

def tally (r : Audit) : Tally Nat := Finding.tallyOf r.findings

def settle (r : Audit) : Audit := r.mapBoth (fun m => m) Finding.settle

end Report

end PolicyAudit
