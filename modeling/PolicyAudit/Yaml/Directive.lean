import PolicyAudit.Yaml.Property

/-! Directives: lines before a document that say how to read it. -/

namespace PolicyAudit.Yaml

inductive Directive
  | version (major minor : Nat)
  | tagPrefix (handle value : String)
  /-- One that says nothing. -/
  | other
  deriving DecidableEq, Repr

namespace Directive

def isNameChar (c : Char) : Bool := Property.isWordChar c || c = ':' || c = '.'

def number? (t : Text) : Option (Nat × Text) :=
  let (ds, rest) := t.span Char.isDigit
  if ds.isEmpty then none else some (Nat.ofDigitChars 10 ds 0, rest)

def version? (t : Text) : Option (Directive × Text) := do
  let (major, t) ← number? (t.skip (· = ' '))
  if !t.startsWith (· = '.') then none
  else
    let (minor, t) ← number? (t.drop 1)
    if isClosed t.next then some (version major minor, t) else none

def tagPrefix? (legacy : Bool) (t : Text) : Option (Directive × Text) := do
  let (handle, t) ← Property.handle? (t.skip (· = ' '))
  if !t.startsWith (· = ' ') then none
  else
    let (uri, t) ← Property.uri? legacy (t.skip (· = ' '))
    if isClosed t.next then some (tagPrefix handle uri, t) else none

def read? (legacy : Bool) (t : Text) : Option (Directive × Text) := do
  let (name, t) := t.span isNameChar
  if name.isEmpty || !isClosed t.next then none
  else
    let (directive, t) ←
      if String.ofList name = "YAML" then version? t
      else if String.ofList name = "TAG" then tagPrefix? legacy t
      else some (other, t.skip (!endsLine ·))
    return (directive, ← t.finishLine?)

end Directive

end PolicyAudit.Yaml
