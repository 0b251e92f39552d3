import PolicyAudit.Log
import PolicyAudit.Report.Filter
import PolicyAudit.Text.Character

/-! What a run is asked to do, and the switches that say it.
A switch may be shortened as long as only one switch starts that way. Its value is the next word,
or follows an equals sign; of a switch given twice the last value counts, except that sources add
up. -/

namespace PolicyAudit.Command

inductive Format
  | json | text
  deriving DecidableEq, Repr, Inhabited

structure Settings where
  format : Format := .json
  /-- Where to read manifests instead of the cluster; the empty path counts as none. -/
  manifests : Option String := none
  minimum : Priority := .unset
  sources : List String := []
  skipClusterWide : Bool := false
  level : Level := .warning
  deriving DecidableEq, Repr, Inhabited

inductive Switch
  | help | report | manifests | minPriority | source | skipClusterReports | logLevel
  deriving DecidableEq, Repr

namespace Switch

def all : List Switch :=
  [help, report, manifests, minPriority, source, skipClusterReports, logLevel]

def name : Switch → String
  | help => "--help"
  | report => "--report"
  | manifests => "--manifests"
  | minPriority => "--min-priority"
  | source => "--source"
  | skipClusterReports => "--skip-cluster-reports"
  | logLevel => "--log-level"

/-- The switches that a word may be short for; a full name is never ambiguous. -/
def candidates (word : String) : List Switch :=
  match all.filter (·.name == word) with
  | [] => all.filter fun s => word.toList.isPrefixOf s.name.toList
  | exact => exact

theorem candidates_name (s : Switch) : candidates s.name = [s] := by
  cases s <;> decide

end Switch

inductive Word
  | switch (s : Switch) (value : Option String)
  /-- The one-letter form of help, and what is written together with it. -/
  | shortHelp (rest : List Char)
  /-- Looks like a switch and is none. -/
  | stray
  | plain (text : String)
  deriving DecidableEq, Repr

namespace Word

def isNegativeNumber (cs : List Char) : Bool :=
  let isDigit c := (Digit.value? c).isSome
  match cs with
  | '-' :: cs =>
    match cs.dropWhile isDigit with
    | [] => !cs.isEmpty
    | '.' :: ds => !ds.isEmpty && ds.all isDigit
    | _ => false
  | _ => false

def splitValue (cs : List Char) : String × Option String :=
  let before := cs.takeWhile (· ≠ '=')
  let after := cs.drop before.length
  (String.ofList before, if after.isEmpty then none else some (String.ofList (after.drop 1)))

/-- Nothing if the word may be short for several switches. -/
def ofText? (text : String) : Option Word :=
  match text.toList with
  | '-' :: '-' :: cs =>
    let (before, value) := splitValue ('-' :: '-' :: cs)
    match Switch.candidates before with
    | [s] => some (switch s value)
    | [] => some (if cs.contains ' ' then plain text else stray)
    | _ => none
  | '-' :: 'h' :: cs => some (shortHelp cs)
  | '-' :: c :: cs =>
    some (if isNegativeNumber ('-' :: c :: cs) ∨ c = ' ' ∨ cs.contains ' ' then plain text else stray)
  | _ => some (plain text)

/-- After two hyphens alone, which are stray, every word is plain. -/
def ofTexts? : List String → Option (List Word)
  | [] => some []
  | t :: ts => if t = "--" then some (stray :: ts.map plain) else do
      return (← ofText? t) :: (← ofTexts? ts)

/-- Letters written together with the short form of help: help again, or others that do not
matter. -/
def isHelp : List Char → Bool
  | [] => true
  | 'h' :: cs => isHelp cs
  | c :: _ => c ≠ '=' && c ≠ '-'

end Word

inductive Request
  | run (s : Settings)
  | help
  | refused
  deriving DecidableEq, Repr

namespace Settings

def formats : List (String × Format) := [("json", .json), ("text", .text)]

def minima : List (String × Priority) :=
  (Priority.all.filter (·.label ≠ "")).map fun p => (p.label, p)

def levels : List (String × Level) := Level.all.map fun l => (l.name, l)

def set? (s : Settings) (switch : Switch) (value : String) : Option Settings :=
  match switch with
  | .help | .skipClusterReports => none
  | .report => (formats.lookup value).map fun f => { s with format := f }
  | .manifests => some { s with manifests := some value }
  | .minPriority => (minima.lookup value).map fun p => { s with minimum := p }
  | .source => some { s with sources := s.sources ++ [value] }
  | .logLevel => (levels.lookup value).map fun l => { s with level := l }

end Settings

namespace Request

/-- Words are taken in order; `astray` says that some had no place, which is refused only at the
end. -/
def ofWords (s : Settings) (astray : Bool) : List Word → Request
  | [] => if astray then refused else run s
  | .plain _ :: ws => ofWords s true ws
  | .stray :: ws => ofWords s true ws
  | .shortHelp rest :: _ => if Word.isHelp rest then help else refused
  | .switch .help none :: _ => help
  | .switch .skipClusterReports none :: ws => ofWords { s with skipClusterWide := true } astray ws
  | .switch switch (some value) :: ws =>
    match s.set? switch value with
    | some s => ofWords s astray ws
    | none => refused
  | .switch switch none :: .plain value :: ws =>
    match s.set? switch value with
    | some s => ofWords s astray ws
    | none => refused
  | .switch _ none :: _ => refused

def ofArguments (args : List String) : Request :=
  match Word.ofTexts? args with
  | some ws => ofWords {} false ws
  | none => refused

def status : Request → Nat
  | refused => 2
  | _ => 0

end Request

end PolicyAudit.Command
