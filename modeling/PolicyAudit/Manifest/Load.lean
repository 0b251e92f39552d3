import PolicyAudit.Log
import PolicyAudit.Manifest.Tree
import PolicyAudit.Report.Basic
import PolicyAudit.Json.Reader
import PolicyAudit.Text.Character
import PolicyAudit.Yaml.Document

/-! Loading reports from manifests.
A path names one file, read whatever its name, or a directory, of which all files with a
manifest's ending are read in order. Documents may be grouped in lists and in mappings of kind
`List` to any depth. A document that is an invalid report is skipped with a warning; a file that
cannot be read or parsed ends the loading. -/

namespace PolicyAudit.Manifest

inductive Failure
  | missing (path : String)
  | unreadable (path : String)
  | unparsable (path : String)
  /-- Bytes that are no UTF-8 text. -/
  | notText
  /-- A value of a compound or other unfit sort where a simple one is needed. -/
  | unfit
  /-- A number without a character. -/
  | emptyNumber
  /-- A word that is marked as a truth value and is none. -/
  | unknownWord
  deriving DecidableEq, Repr

namespace Failure

def message : Failure → String
  | missing path => "no such file or directory: " ++ path
  | unreadable path => "cannot read " ++ path
  | unparsable path => "cannot parse " ++ path
  | notText | unfit | emptyNumber | unknownWord => ""

def isReported : Failure → Bool
  | missing _ | unreadable _ | unparsable _ => true
  | notText | unfit | emptyNumber | unknownWord => false

end Failure

def suffixes : List String := [".yaml", ".yml", ".json"]

def grouped (items : Value) : Except Failure (List Value) :=
  if items.isNothing then .ok []
  else
    match items with
    | .list vs => .ok vs
    | .map es => .ok (es.map fun (k, _) => .text k.shown)
    | .text s => .ok (s.toList.map fun c => .text (String.singleton c))
    | .bytes bs => .ok (bs.map fun b => .int b.toNat)
    | _ => .error .unfit

def isGroup (es : Entries) : Bool :=
  match Entries.get? es "kind" with
  | some (.text kind) => kind = "List"
  | _ => false

mutual

/-- The documents that a value groups, left to right; a group that is no collection fails. -/
def leaves : Value → List (Except Failure Value)
  | .list vs => leavesOf vs
  | .map es => if isGroup es then groupLeaves es else [.ok (.map es)]
  | v => [.ok v]

def leavesOf : List Value → List (Except Failure Value)
  | [] => []
  | v :: vs => leaves v ++ leavesOf vs

def groupLeaves : List (Key × Value) → List (Except Failure Value)
  | [] => []
  | (k, v) :: es =>
    if k = .text "items" then
      match v with
      | .list vs => leavesOf vs
      | v =>
        match grouped v with
        | .ok vs => vs.map .ok
        | .error f => [.error f]
    else groupLeaves es

end

structure Loading where
  log : List Record
  result : Except Failure (List Audit)

namespace Loading

/-- The records of both, and the reports of both if neither fails. -/
def append (l m : Loading) : Loading where
  log := l.log ++ m.log
  result := l.result.bind fun rs => m.result.map (rs ++ ·)

def empty : Loading := ⟨[], .ok []⟩

def failed (f : Failure) : Loading := ⟨[], .error f⟩

end Loading

def variantOf? (doc : Value) : Except Failure (Option Variant) :=
  match doc with
  | .map es =>
    match Entries.get? es "kind" with
    | some (.list _) | some (.map _) => .error .unfit
    | some (.text s) => .ok (Variant.ofKind? s)
    | _ => .ok none
  | _ => .ok none

/-- Other documents contribute nothing. -/
def loadDocument (path : String) (doc : Value) : Loading :=
  match variantOf? doc with
  | .error f => .failed f
  | .ok none => .empty
  | .ok (some variant) =>
    match Report.ofValue variant doc with
    | .accepted r => ⟨[], .ok [r]⟩
    | .rejected is =>
      ⟨[⟨.warning, .manifests,
        path ++ ": invalid " ++ variant.kind ++ ": " ++ Issue.listText is⟩], .ok []⟩

def loadLeaves (path : String) : List (Except Failure Value) → Loading
  | [] => .empty
  | .error f :: _ => .failed f
  | .ok doc :: rest =>
    let first := loadDocument path doc
    match first.result with
    | .error _ => first
    | .ok _ => first.append (loadLeaves path rest)

/-- All documents of a file are read before any is used. -/
def documents (l : Location) (content : ByteArray) : Except Failure (List Value) :=
  match String.fromUTF8? content with
  | none => .error .notText
  | some text =>
    let text := String.ofList (Lines.unify text.toList)
    if Location.suffix ((l.parts.getLast?).getD "") = ".json" then
      match Json.read? text with
      | some v => .ok [v]
      | none => .error (.unparsable l.text)
    else
      match Yaml.documents text with
      | .ok vs => .ok (vs.filter fun v => !(v matches .null))
      | .error .malformed => .error (.unparsable l.text)
      | .error .unfitKey => .error .unfit
      | .error .emptyNumber => .error .emptyNumber
      | .error .unknownWord => .error .unknownWord

def loaded (l : Location) : Loading := ⟨[⟨.debug, .manifests, "loaded " ++ l.text⟩], .ok []⟩

def loadFile (l : Location) (e : Entry) : Loading :=
  match e with
  | .file content =>
    match documents l content with
    | .error f => .failed f
    | .ok vs =>
      let read := loadLeaves l.text (vs.flatMap leaves)
      match read.result with
      | .error _ => read
      | .ok _ => read.append (loaded l)
  | _ => .failed (.unreadable l.text)

def loadFiles : List (Location × Entry) → Loading
  | [] => .empty
  | (l, e) :: rest =>
    let first := loadFile l e
    match first.result with
    | .error _ => first
    | .ok _ => first.append (loadFiles rest)

def filesAt (t : Tree) (l : Location) : Option (List (Location × Entry)) := do
  let place ← if l.root = "" then Location.walk? t.isDir [] l.parts else none
  match t.file? place with
  | some e => return [(l, e)]
  | none =>
    if t.isDir place then
      let files := t.filesBelow place
      let chosen := files.filter fun (rest, _) =>
        suffixes.contains (Location.suffix ((rest.getLast?).getD ""))
      return chosen.map fun (rest, e) => (l.append rest, e)
    else none

def load (t : Tree) (path : String) : Loading :=
  let l := Location.ofText path
  match filesAt t l with
  | none => .failed (.missing l.text)
  | some files => loadFiles files

end PolicyAudit.Manifest
