import PolicyAudit.Report.Tally

/-! Sessions on one tally whose counters are assigned at will.
A counter may hold something that is no number; then the tally can be neither written nor added
up, until a number takes its place again. -/

namespace PolicyAudit

inductive Cell
  | count (n : Int)
  | foreign
  deriving DecidableEq, Repr, Inhabited

inductive Counter
  | pass | fail | warn | error | skip
  deriving DecidableEq, Repr

def Cell.plus? : Cell → Cell → Option Int
  | .count m, .count n => some (m + n)
  | _, _ => none

namespace Tally

def get (t : Tally α) : Counter → α
  | .pass => t.pass
  | .fail => t.fail
  | .warn => t.warn
  | .error => t.error
  | .skip => t.skip

def assign (t : Tally α) (c : Counter) (x : α) : Tally α :=
  match c with
  | .pass => { t with pass := x }
  | .fail => { t with fail := x }
  | .warn => { t with warn := x }
  | .error => { t with error := x }
  | .skip => { t with skip := x }

def numbers? : Tally Cell → Option (Tally Int)
  | ⟨.count p, .count f, .count w, .count e, .count s⟩ => some ⟨p, f, w, e, s⟩
  | _ => none

/-- The sum from left to right; it breaks off where something is no number. -/
def sum? (t : Tally Cell) : Option Int := do
  let n ← t.pass.plus? t.fail
  let n ← (Cell.count n).plus? t.warn
  let n ← (Cell.count n).plus? t.error
  (Cell.count n).plus? t.skip

inductive Step
  | assign (c : Counter) (x : Cell)
  | write
  | total

inductive Answer
  | done
  | written (t : Tally Int)
  | total (n : Int)
  deriving DecidableEq, Repr

inductive Failure
  | unwritable
  | noSum
  deriving DecidableEq, Repr

def Failure.message : Failure → String
  | unwritable => "cannot serialize summary"
  | noSum => ""

def step (t : Tally Cell) : Step → Tally Cell × Except Failure Answer
  | .assign c x => (t.assign c x, .ok .done)
  | .write =>
    match t.numbers? with
    | some n => (t, .ok (.written n))
    | none => (t, .error .unwritable)
  | .total =>
    match t.sum? with
    | some n => (t, .ok (.total n))
    | none => (t, .error .noSum)

def run (t : Tally Cell) : List Step → List (Except Failure Answer)
  | [] => []
  | s :: ss => (t.step s).2 :: run (t.step s).1 ss

theorem eq_of_get {t u : Tally α} (h : ∀ c, t.get c = u.get c) : t = u := by
  obtain ⟨p, f, w, e, s⟩ := t
  obtain ⟨p', f', w', e', s'⟩ := u
  obtain rfl : p = p' := h .pass
  obtain rfl : f = f' := h .fail
  obtain rfl : w = w' := h .warn
  obtain rfl : e = e' := h .error
  obtain rfl : s = s' := h .skip
  rfl

theorem get_assign (t : Tally α) (c d : Counter) (x : α) :
    (t.assign c x).get d = if d = c then x else t.get d := by
  cases c <;> cases d <;> rfl

theorem get_map (f : α → β) (t : Tally α) (c : Counter) : (t.map f).get c = f (t.get c) := by
  cases c <;> rfl

end Tally

end PolicyAudit
