import PolicyAudit.Yaml.Node
import PolicyAudit.Yaml.Token

/-! From tokens to nodes.
Each function takes the tokens from the front and gives back those it leaves, with the nodes that
have names so far. Parts left out, such as a key without a value, are empty nodes. -/

namespace PolicyAudit.Yaml

structure Dialect where
  legacy : Bool := false
  /-- What the handles of tags stand for. -/
  handles : List (String × String) := [("!", "!"), ("!!", Tag.space)]

def Dialect.tagName? (d : Dialect) (t : TagName) : Option String :=
  match t.handle with
  | none => some t.suffix
  | some h => (d.handles.lookup h).map (· ++ t.suffix)

structure Source where
  tokens : List Token
  /-- The named nodes, latest first. -/
  anchors : List (String × Node)

namespace Source

def next (s : Source) : Option Token := s.tokens.head?

def drop (s : Source) : Source := { s with tokens := s.tokens.drop 1 }

def isAt (ks : List Token) (s : Source) : Bool := s.next.any ks.contains

def name (anchor : Option String) (n : Node) (s : Source) : Source :=
  match anchor with
  | some a => { s with anchors := (a, n) :: s.anchors }
  | none => s

def settle (anchor : Option String) (depth : Nat) (n : Node) (s : Source) : Source :=
  match anchor with
  | some a => { s with anchors := s.anchors.set (s.anchors.length - 1 - depth) (a, n) }
  | none => s

end Source

structure Properties where
  anchor : Option String
  /-- The full name of the tag. -/
  tag : Option String

namespace Properties

def isNone (p : Properties) : Bool := p.anchor.isNone && p.tag.isNone

/-- `!` asks for the kind that the node would have without a tag, even if quoted. -/
def isImplicit (p : Properties) : Bool := p.tag.all (· = "!")

def read? (d : Dialect) (s : Source) : Option (Properties × Source) :=
  let tagged (anchor : Option String) (t : TagName) (rest : List Token) := do
    return (⟨anchor, some (← d.tagName? t)⟩, { s with tokens := rest })
  match s.tokens with
  | .anchor a :: .tag t :: rest => tagged (some a) t rest
  | .anchor a :: rest => some (⟨some a, none⟩, { s with tokens := rest })
  | .tag t :: .anchor a :: rest => tagged (some a) t rest
  | .tag t :: rest => tagged none t rest
  | _ => some (⟨none, none⟩, s)

def scalarTag (d : Dialect) (p : Properties) (plain : Bool) (text : String) : Tag :=
  match p.tag with
  | none => if plain then .ofPlain d.legacy text else .str
  | some t => if t = "!" then .ofPlain d.legacy text else .ofName t

def collectionTag (p : Properties) (default : Tag) : Tag :=
  match p.tag with
  | none => default
  | some t => if t = "!" then default else .ofName t

end Properties

inductive Position
  | flow
  | block
  /-- In a block mapping, where the entries of a sequence need no indentation. -/
  | mapped
  deriving DecidableEq, Repr

namespace Node

/-- Reads a collection whose first token has been taken; aliases to it inside of it are empty. -/
def named (p : Properties) (content : Source → Option (Node × Source)) (s : Source) : Option (Node × Source) := do
  let depth := s.anchors.length
  let (n, s) ← content (s.name p.anchor empty)
  return (n, s.settle p.anchor depth n)

mutual

def read (d : Dialect) (fuel : Nat) (pos : Position) (s : Source) : Option (Node × Source) :=
  match fuel with
  | 0 => none
  | fuel + 1 =>
    match s.next with
    | some (.alias a) => do return (← s.anchors.lookup a, s.drop)
    | _ => do
      let (p, s) ← Properties.read? d s
      let sequence (items : Source → Option (List Node × Source)) (s : Source) : Option (Node × Source) := do
        let (ns, s) ← items s
        return (.sequence (p.collectionTag .seq) ns, s)
      let mapping (entries : Source → Option (List (Node × Node) × Source)) (s : Source) : Option (Node × Source) := do
        let (es, s) ← entries s
        return (← ofEntries? (p.collectionTag .map) es, s)
      match s.next with
      | some (.scalar text plain) =>
        let n := .scalar (p.scalarTag d plain text) text
        return (n, s.drop.name p.anchor n)
      | some (.opening .square) => named p (sequence (flowItems d fuel true)) s.drop
      | some (.opening .curly) => named p (mapping (flowEntries d fuel true)) s.drop
      | some .blockSequence =>
        if pos = .flow then none else named p (sequence (blockItems d fuel)) s.drop
      | some .blockMapping =>
        if pos = .flow then none else named p (mapping (blockEntries d fuel)) s.drop
      | next =>
        if pos = .mapped && next == some .entry then named p (sequence (mappedItems d fuel)) s
        else if p.isNone then none
        else
          let n := .scalar (p.scalarTag d p.isImplicit "") ""
          return (n, s.name p.anchor n)

def readUnless (ends : List Token) (d : Dialect) (fuel : Nat) (pos : Position) (s : Source) :
    Option (Node × Source) :=
  match fuel with
  | 0 => none
  | fuel + 1 => if s.isAt ends then some (empty, s) else read d fuel pos s

def blockItems (d : Dialect) (fuel : Nat) (s : Source) : Option (List Node × Source) :=
  match fuel with
  | 0 => none
  | fuel + 1 =>
    match s.next with
    | some .entry => do
      let (n, s) ← readUnless [.entry, .blockEnd] d fuel .block s.drop
      let (ns, s) ← blockItems d fuel s
      return (n :: ns, s)
    | some .blockEnd => some ([], s.drop)
    | _ => none

/-- The entries of a sequence that has no indentation of its own. -/
def mappedItems (d : Dialect) (fuel : Nat) (s : Source) : Option (List Node × Source) :=
  match fuel with
  | 0 => none
  | fuel + 1 =>
    match s.next with
    | some .entry => do
      let (n, s) ← readUnless [.entry, .key, .value, .blockEnd] d fuel .block s.drop
      let (ns, s) ← mappedItems d fuel s
      return (n :: ns, s)
    | _ => some ([], s)

def blockEntries (d : Dialect) (fuel : Nat) (s : Source) : Option (List (Node × Node) × Source) :=
  match fuel with
  | 0 => none
  | fuel + 1 => do
    let ends := [.key, .value, .blockEnd]
    let entry (k : Node) (s : Source) : Option (List (Node × Node) × Source) := do
      let (v, s) ← if s.isAt [.value] then readUnless ends d fuel .mapped s.drop
        else some (empty, s)
      let (es, s) ← blockEntries d fuel s
      return ((k, v) :: es, s)
    match s.next with
    | some .key =>
      let (k, s) ← readUnless ends d fuel .mapped s.drop
      entry k s
    | some .value => if d.legacy then none else entry empty s
    | some .blockEnd => some ([], s.drop)
    | _ => none

def flowItems (d : Dialect) (fuel : Nat) (first : Bool) (s : Source) :
    Option (List Node × Source) :=
  match fuel with
  | 0 => none
  | fuel + 1 =>
    if s.isAt [.closing .square] then some ([], s.drop)
    else if !first && !s.isAt [.comma] then none
    else
      let s := if first then s else s.drop
      if s.isAt [.closing .square] then some ([], s.drop)
      else do
        let (n, s) ← flowItem d fuel s
        let (ns, s) ← flowItems d fuel false s
        return (n :: ns, s)

/-- An item; a key makes it a mapping of one entry. -/
def flowItem (d : Dialect) (fuel : Nat) (s : Source) : Option (Node × Source) :=
  match fuel with
  | 0 => none
  | fuel + 1 =>
    if s.isAt [.key] then do
      let close := .closing .square
      let (k, s) ← readUnless [.value, .comma, close] d fuel .flow s.drop
      let (v, s) ← flowValue close d fuel s
      return (← ofEntries? .map [(k, v)], s)
    else read d fuel .flow s

def flowValue (close : Token) (d : Dialect) (fuel : Nat) (s : Source) : Option (Node × Source) :=
  match fuel with
  | 0 => none
  | fuel + 1 =>
    if s.isAt [.value] then readUnless [.comma, close] d fuel .flow s.drop else some (empty, s)

def flowEntries (d : Dialect) (fuel : Nat) (first : Bool) (s : Source) :
    Option (List (Node × Node) × Source) :=
  match fuel with
  | 0 => none
  | fuel + 1 =>
    if s.isAt [.closing .curly] then some ([], s.drop)
    else if !first && !s.isAt [.comma] then none
    else
      let s := if first then s else s.drop
      if s.isAt [.closing .curly] then some ([], s.drop)
      else do
        let (e, s) ← flowEntry d fuel s
        let (es, s) ← flowEntries d fuel false s
        return (e :: es, s)

def flowEntry (d : Dialect) (fuel : Nat) (s : Source) : Option ((Node × Node) × Source) :=
  match fuel with
  | 0 => none
  | fuel + 1 => do
    let close := .closing .curly
    if s.isAt [.key] then
      let (k, s) ← readUnless [.value, .comma, close] d fuel .flow s.drop
      let (v, s) ← flowValue close d fuel s
      return ((k, v), s)
    else if !d.legacy && s.isAt [.value] then
      let (v, s) ← flowValue close d fuel s
      return ((empty, v), s)
    else
      let (k, s) ← read d fuel .flow s
      return ((k, empty), s)

end

def ofTokens? (d : Dialect) (ks : List Token) : Option (Node × List Token) := do
  let (n, s) ← read d (5 * ks.length + 5) .block ⟨ks, []⟩
  return (n, s.tokens)

end Node

end PolicyAudit.Yaml
