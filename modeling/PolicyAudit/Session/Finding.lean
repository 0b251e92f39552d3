import PolicyAudit.Report.Json

/-! Sessions on one finding: reads and edits in any order.
The first read that shows the identity settles it; edits change the fields and never the settled
identity. A failing step changes nothing. Positions in a list are counted from either end: `-1` is
the last one. -/

namespace PolicyAudit

namespace Position

def resolve? (i : Int) (length : Nat) : Option Nat :=
  let j := if i < 0 then i + length else i
  if 0 ≤ j ∧ j < length then some j.toNat else none

/-- The index to insert in front of; a position beyond an end means that end. -/
def clamp (i : Int) (length : Nat) : Nat :=
  let j := if i < 0 then i + length else i
  min j.toNat length

end Position

namespace Finding

inductive Step
  | identity
  | fingerprint
  | assign (field : TextField) (s : Option String)
  | prioritise (p : Priority)
  | setProperty (k v : String)
  | eraseProperty (k : String)
  | insertResource (i : Int) (doc : Value)
  | removeResource (i : Int)
  | resource
  | hasResource
  | priority
  | payload
  | tally

inductive Answer
  | text (s : String)
  | done
  | priority (p : Priority)
  | properties (l : Labels)
  | resources (rs : List Reference)
  | resource (r : Option Reference)
  | flag (b : Bool)
  | payload (v : Value)
  | tally (t : Tally Nat)

inductive Failure
  | invalid (issues : List Issue)
  | noSuchResource
  deriving DecidableEq, Repr

def step (f : Finding) : Step → Finding × Except Failure Answer
  | .identity => (f.settle, .ok (.text f.identity))
  | .fingerprint => (f, .ok (.text f.fingerprint))
  | .assign field s => (f.assign field s, .ok .done)
  | .prioritise p => ({ f with priority := p }, .ok (.priority p))
  | .setProperty k v =>
    let properties := f.properties.set k v
    ({ f with properties }, .ok (.properties properties))
  | .eraseProperty k =>
    let properties := f.properties.erase k
    ({ f with properties }, .ok (.properties properties))
  | .insertResource i doc =>
    match Reference.ofValue doc with
    | .accepted r =>
      let resources := f.resources.insertIdx (Position.clamp i f.resources.length) r
      ({ f with resources }, .ok (.resources resources))
    | .rejected is => (f, .error (.invalid is))
  | .removeResource i =>
    match Position.resolve? i f.resources.length with
    | some j =>
      let resources := f.resources.eraseIdx j
      ({ f with resources }, .ok (.resources resources))
    | none => (f, .error .noSuchResource)
  | .resource => (f, .ok (.resource f.resource?))
  | .hasResource => (f, .ok (.flag !f.resources.isEmpty))
  | .priority => (f, .ok (.priority f.priority))
  | .payload => (f.settle, .ok (.payload f.payload))
  | .tally => (f, .ok (.tally (.ofStatuses [f.status])))

def run (f : Finding) : List Step → List (Except Failure Answer)
  | [] => []
  | s :: ss => (f.step s).2 :: run (f.step s).1 ss

theorem settled_step {f : Finding} {i : String} (h : f.settled = some i) (s : Step) :
    (f.step s).1.settled = some i := by
  have hi : f.identity = i := by simp [Finding.identity, h]
  cases s with
  | identity | payload => simp [step, settle, hi]
  | assign field t => cases field <;> exact h
  | insertResource i doc => simp only [step]; split <;> exact h
  | removeResource i => simp only [step]; split <;> exact h
  | _ => exact h

end Finding

end PolicyAudit
