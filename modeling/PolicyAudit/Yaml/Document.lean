import PolicyAudit.Yaml.Content
import PolicyAudit.Yaml.Node.Reader
import PolicyAudit.Yaml.Token.Scan

/-! The documents of a text.
A text is a row of documents. Each is read as a whole, up to the first token after it, before
anything in it is given a value. -/

namespace PolicyAudit.Yaml

namespace Dialect

/-- Adds what a directive says; a version may be given once, a handle too. -/
def add? (versions : Nat) (own : List (String × String)) :
    List Token → Option (Nat × List (String × String) × Option Bool × List Token)
  | .directive (.version major minor) :: ks => do
    if 0 < versions ∨ major ≠ 1 then none
    else
      let (versions, own, legacy, rest) ← add? 1 own ks
      return (versions, own, legacy.or (some (minor == 1)), rest)
  | .directive (.tagPrefix handle value) :: ks =>
    if (own.lookup handle).isSome then none else add? versions ((handle, value) :: own) ks
  | .directive .other :: ks => add? versions own ks
  | ks => some (versions, own, none, ks)

/-- Reads the directives in front of a document; the version of the last one stays in force. -/
def read? (legacy : Bool) (ks : List Token) : Option (Dialect × List Token) := do
  let (_, own, version, rest) ← add? 0 [] ks
  return ({ legacy := version.getD legacy, handles := own ++ ({} : Dialect).handles }, rest)

end Dialect

namespace Document

inductive Outcome
  | document (n : Node) (d : Dialect) (bare : Bool) (rest : List Token)
  | finished
  | broken

def isEmptyAt : Token → Bool
  | .directive _ | .documentStart | .documentEnd | .streamEnd => true
  | _ => false

def ended (n : Node) (d : Dialect) (ks : List Token) : Outcome :=
  match ks with
  | [] | .broken :: _ => .broken
  | .documentEnd :: rest => .document n d (!d.legacy) rest
  | rest => .document n d false rest

def content (d : Dialect) (ks : List Token) : Outcome :=
  match Node.ofTokens? d ks with
  | some (n, rest) => ended n d rest
  | none => .broken

def marked (legacy : Bool) (ks : List Token) : Outcome :=
  match ks.dropWhile (· == .documentEnd) with
  | .streamEnd :: _ => .finished
  | ks =>
    match Dialect.read? legacy ks with
    | some (d, .documentStart :: rest) =>
      if rest.head?.any isEmptyAt then ended .empty d rest else content d rest
    | _ => .broken

def next (legacy bare : Bool) (ks : List Token) : Outcome :=
  match ks with
  | .directive _ :: _ | .documentStart :: _ | .streamEnd :: _ => marked legacy ks
  | ks => if bare then content { legacy := legacy } ks else marked legacy ks

def values (fuel : Nat) (legacy bare : Bool) (ks : List Token) : Except Failure (List Value) :=
  match fuel with
  | 0 => .error .malformed
  | fuel + 1 =>
    match next legacy bare ks with
    | .broken => .error .malformed
    | .finished => .ok []
    | .document n d bare rest => do
      let v ← Content.value d.legacy n
      return v :: (← values fuel d.legacy bare rest)

end Document

def documents (text : String) : Except Failure (List Value) :=
  let cs := text.toList
  if !cs.all isAllowed then .error .malformed
  else
    let ks := Token.ofText (Spot.mark cs)
    Document.values (ks.length + 1) false true ks

end PolicyAudit.Yaml
