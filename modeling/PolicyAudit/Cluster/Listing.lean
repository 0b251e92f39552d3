import PolicyAudit.Cluster.Access
import PolicyAudit.Log

/-! Listing the reports of a cluster.
The objects of one sort come in pages: each answer may name where the next page continues. A
listing holds the objects of all pages or none of them; without permission it is empty. Objects
leave their kind off in a listing, so the kind listed stands in for a missing one. -/

namespace PolicyAudit

namespace Cluster

def members : Value → Except Failure (List Value)
  | .list vs => .ok vs
  | .map es => .ok (es.map fun (k, _) => .text k.shown)
  | .text s => .ok (s.toList.map fun c => .text (String.singleton c))
  | _ => .error .noItems

/-- A field of a record; a missing one is null. -/
def field (v : Value) (name : String) : Except Failure Value :=
  match v with
  | .map es => .ok ((Entries.get? es name).getD .null)
  | _ => .error .noFields

def page (body : Value) : Except Failure (List Value × Value) := do
  let items ← members (Value.orElse (some (← field body "items")) (.list []))
  let metadata := Value.orElse (some (← field body "metadata")) (.map [])
  return (items, ← field metadata "continue")

inductive Stop
  | forbidden
  | failed (f : Failure)
  deriving DecidableEq, Repr

def isForbidden (status : Int) : Bool := status = 401 || status = 403

structure Pages where
  continuations : List Value
  items : Except Stop (List Value)

/-- Asks for pages until one names no continuation; after the replies given, pages are empty. -/
def pages (continuation : Value) : List Reply → Pages
  | [] => ⟨[continuation], .ok []⟩
  | .refusal status reason :: _ =>
    ⟨[continuation],
      .error (if isForbidden status then .forbidden else .failed (.refused status reason))⟩
  | .answer body :: replies =>
    match page body with
    | .error f => ⟨[continuation], .error (.failed f)⟩
    | .ok (items, next) =>
      if next.isNothing then ⟨[continuation], .ok items⟩
      else
        let rest := pages next replies
        ⟨continuation :: rest.continuations, rest.items.map (items ++ ·)⟩

structure Listing (α : Type) where
  calls : List Call
  log : List Record
  result : Except Failure α

def objects (variant : Variant) (replies : List Reply) : Listing (List Value) :=
  let all := pages .null replies
  let calls := all.continuations.map (Call.mk variant)
  match all.items with
  | .ok items =>
    ⟨calls, [⟨.debug, .cluster, "listed " ++ toString items.length ++ " " ++ variant.plural⟩], .ok items⟩
  | .error .forbidden =>
    ⟨calls, [⟨.warning, .cluster,
      "no permission to list " ++ variant.plural ++ "." ++ group ++ ", skipping"⟩], .ok []⟩
  | .error (.failed f) => ⟨calls, [], .error f⟩

def document (variant : Variant) (item : Value) : Except Failure Value :=
  match item with
  | .map es =>
    let kind := Value.orElse (Entries.get? es "kind") (.text variant.kind)
    .ok (.map (Entries.put es (.text "kind") kind))
  | _ => .error .noFields

/-- Reads a listed object; one that is no report is refused and skipped. -/
def judge (variant : Variant) (item : Value) : Except Failure (Except Report.Refusal Audit) := do
  match Report.parse (← document variant item) with
  | .error .compoundKind => throw .compoundKind
  | read => return read

def skipped (r : Report.Refusal) : Record := ⟨.warning, .cluster, "skipping object: " ++ r.message⟩

/-- Reads listed objects in order; a failure loses the reports but not the records so far. -/
def reports (variant : Variant) : List Value → List Record × Except Failure (List Audit)
  | [] => ([], .ok [])
  | item :: items =>
    match judge variant item with
    | .error f => ([], .error f)
    | .ok (.ok r) => ((reports variant items).1, (reports variant items).2.map (r :: ·))
    | .ok (.error e) => (skipped e :: (reports variant items).1, (reports variant items).2)

def list (variant : Variant) (replies : List Reply) : Listing (List Audit) :=
  let found := objects variant replies
  match found.result with
  | .error f => { found with result := .error f }
  | .ok items =>
    let (log, result) := reports variant items
    ⟨found.calls, found.log ++ log, result⟩

def listAll (skipClusterWide : Bool) (replies : Variant → List Reply) : Listing (List Audit) :=
  let first := list .namespaced (replies .namespaced)
  match first.result with
  | .error f => { first with result := .error f }
  | .ok rs =>
    if skipClusterWide then { first with result := .ok rs }
    else
      let second := list .clusterWide (replies .clusterWide)
      ⟨first.calls ++ second.calls, first.log ++ second.log, second.result.map (rs ++ ·)⟩

end Cluster

end PolicyAudit
