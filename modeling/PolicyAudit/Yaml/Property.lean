import PolicyAudit.Text.Character
import PolicyAudit.Yaml.Spot

/-! What may be written in front of a node: the name it is known by and the tag that says its kind.
Octets of a tag may be written as `%` and two hexadecimal digits. -/

namespace PolicyAudit.Yaml

structure TagName where
  handle : Option String
  suffix : String
  deriving DecidableEq, Repr

namespace Property

def isNameChar (c : Char) : Bool :=
  (('!' ≤ c && c ≤ '~') || ('\u00a0' ≤ c && c ≠ '\ufeff')) &&
    !([',', '[', ']', '{', '}'].contains c)

def name? (t : Text) : Option (String × Text) :=
  let (cs, rest) := t.span isNameChar
  if cs.isEmpty || rest.next = some '\ufeff' then none else some (String.ofList cs, rest)

def isWordChar (c : Char) : Bool := c.isAlphanum || c = '-' || c = '_'

def handle? (t : Text) : Option (String × Text) :=
  match t with
  | [] => none
  | s :: rest =>
    if s.char ≠ '!' then none
    else if Text.next rest = some ' ' then some ("!", rest)
    else
      let (word, rest) := Text.span isWordChar rest
      if rest.next = some '!' then some (String.ofList ('!' :: word ++ ['!']), rest.drop 1) else none

def uriMarks : List Char := "-;/?:@&=+$,_.!~*'()[]".toList

def isUriChar (legacy : Bool) (c : Char) : Bool :=
  c.isAlphanum || uriMarks.contains c || (!legacy && c = '#')

def octets? : Text → Option (List UInt8 × Text)
  | s :: a :: b :: t =>
    if s.char = '%' then do
      let octet ← Hex.byte? a.char b.char
      let (more, rest) ← octets? t
      return (octet :: more, rest)
    else some ([], s :: a :: b :: t)
  | t => if t.startsWith (· = '%') then none else some ([], t)

def uriFrom (legacy : Bool) (fuel : Nat) (t : Text) : Option (List Char × Text) :=
  match fuel, t with
  | fuel + 1, s :: rest =>
    if s.char = '%' then do
      let (bs, rest) ← octets? (s :: rest)
      let text ← String.fromUTF8? ⟨bs.toArray⟩
      let (more, rest) ← uriFrom legacy fuel rest
      return (text.toList ++ more, rest)
    else if isUriChar legacy s.char then do
      let (more, rest) ← uriFrom legacy fuel rest
      return (s.char :: more, rest)
    else some ([], s :: rest)
  | _, t => some ([], t)

def uri? (legacy : Bool) (t : Text) : Option (String × Text) := do
  let (cs, rest) ← uriFrom legacy t.length t
  if cs.isEmpty then none else some (String.ofList cs, rest)

def tag? (legacy : Bool) (t : Text) : Option (TagName × Text) := do
  let inner : Text := t.drop 1
  let (tag, rest) ←
    if inner.startsWith (· = '<') then do
      let (uri, rest) ← uri? legacy (inner.drop 1)
      if rest.startsWith (· = '>') then some (⟨none, uri⟩, rest.drop 1) else none
    else if isGap inner.next then some (⟨none, "!"⟩, inner)
    else if (inner.takeWhile fun s => !isClosed (some s.char)).any (·.char = '!') then do
      let (handle, rest) ← handle? t
      let (suffix, rest) ← uri? legacy rest
      some (⟨some handle, suffix⟩, rest)
    else do
      let (suffix, rest) ← uri? legacy inner
      some (⟨some "!", suffix⟩, rest)
  if isClosed (Text.next rest) then some (tag, rest) else none

end Property

end PolicyAudit.Yaml
