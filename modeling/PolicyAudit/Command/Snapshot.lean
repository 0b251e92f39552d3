import PolicyAudit.Command.Run

/-! Surroundings written down as a document.
`files` maps places to contents: text, bytes in hexadecimal, a directory or a file that cannot be
read. `cluster` maps the name of a sort of reports to the answers for its pages. -/

namespace PolicyAudit.Command.Snapshot

def bytes : List Char → List UInt8
  | a :: b :: cs =>
    match Hex.byte? a b with
    | some n => n :: bytes cs
    | none => []
  | _ => []

def entry (v : Value) : Entry :=
  match v, v.get? "hex" with
  | .text s, _ => .file s.toUTF8
  | _, some (.text digits) => .file ⟨(bytes digits.toList).toArray⟩
  | _, _ => if (v.get? "dir").isSome then .directory else .locked

def tree : Value → Tree
  | .map es => es.map fun (k, v) => ((Location.ofText k.shown).parts, entry v)
  | _ => []

def reply (v : Value) : Cluster.Reply :=
  match v.get? "status", v.get? "reason" with
  | some (.int status), some (.text reason) => .refusal status (some reason)
  | some (.int status), _ => .refusal status none
  | _, _ => .answer ((v.get? "resp").getD .null)

def replies : Value → List Cluster.Reply
  | .list vs => vs.map reply
  | _ => []

def surroundings (v : Value) : Surroundings where
  files := tree ((v.get? "files").getD .null)
  replies variant :=
    replies (((v.get? "cluster").bind (·.get? variant.plural)).getD .null)

end PolicyAudit.Command.Snapshot
