import PolicyAudit.Check.Record

/-! Counts of results by status.
Exactly five texts are statuses that count; `ofStatuses` adds up over concatenation. -/

namespace PolicyAudit

open Check

structure Tally (α : Type) where
  pass : α
  fail : α
  warn : α
  error : α
  skip : α
  deriving DecidableEq, Repr, Inhabited

namespace Tally

def map (f : α → β) (t : Tally α) : Tally β :=
  ⟨f t.pass, f t.fail, f t.warn, f t.error, f t.skip⟩

def toList (t : Tally α) : List α := [t.pass, t.fail, t.warn, t.error, t.skip]

def statuses : Tally String := ⟨"pass", "fail", "warn", "error", "skip"⟩

def zero : Tally Nat := ⟨0, 0, 0, 0, 0⟩

instance : Add (Tally Nat) :=
  ⟨fun s t => ⟨s.pass + t.pass, s.fail + t.fail, s.warn + t.warn, s.error + t.error, s.skip + t.skip⟩⟩

def total (t : Tally Nat) : Nat := t.pass + t.fail + t.warn + t.error + t.skip

def ofStatuses (ss : List (Option String)) : Tally Nat :=
  statuses.map fun s => ss.count (some s)

def ofValue : Value → Checked (Tally Nat) :=
  record fun es =>
    Tally.mk <$> withDefault es ⟨"pass", some "pass_"⟩ 0 nat
      <*> withDefault es "fail" 0 nat
      <*> withDefault es "warn" 0 nat
      <*> withDefault es "error" 0 nat
      <*> withDefault es "skip" 0 nat

def toValue (t : Tally Nat) : Value :=
  .record [
    ("pass", .int t.pass),
    ("fail", .int t.fail),
    ("warn", .int t.warn),
    ("error", .int t.error),
    ("skip", .int t.skip)]

theorem ofStatuses_append (ss ts : List (Option String)) :
    ofStatuses (ss ++ ts) = ofStatuses ss + ofStatuses ts := by
  show _ = Tally.mk _ _ _ _ _
  simp [ofStatuses, map, List.count_append]

theorem ofStatuses_perm {ss ts : List (Option String)} (h : ss.Perm ts) :
    ofStatuses ss = ofStatuses ts := by
  simp [ofStatuses, map, h.count_eq]

end Tally

end PolicyAudit
