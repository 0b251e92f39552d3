import Mathlib.Algebra.Ring.Nat
import PolicyAudit.Report.Text

/-! The lines of a text report.
The text is written exactly when every finding's line can be (`lines_eq_ok_iff`); it then has a
block for each report, the header and one line for each finding. -/

namespace PolicyAudit.Report

def lineHead (f : Finding) : String :=
  let target := match f.resource? with
    | some res => shown res.kind ++ "/" ++ shown res.name
    | none => "-"
  "  [" ++ (orDash (some f.priority.label)).toUpper ++ "] " ++ orDash f.status ++ " " ++
    shown f.policy ++ "/" ++ orDash f.rule ++ " :: " ++ target ++ " :: " ++ f.message.getD "" ++
    " ("

def lineTail (f : Finding) : String :=
  match f.timestamp.map Timestamp.iso with
  | some (.ok time) => ")" ++ " @ " ++ time
  | _ => ")"

def line (f : Finding) : String := lineHead f ++ f.identity ++ lineTail f

def block (r : Audit) : List String := header r :: r.findings.map line

@[simp] theorem length_block (r : Audit) : (block r).length = r.findings.length + 1 := by
  simp [block]

theorem findingStem_eq (f : Finding) : findingStem f = lineHead f ++ f.identity ++ ")" := rfl

/-- `x` gives `a` under the condition `p` and fails otherwise. -/
def GivesIf (x : Except ε α) (p : Prop) (a : α) : Prop := ∀ b, x = .ok b ↔ p ∧ b = a

theorem givesIf_ok (a : α) : GivesIf (.ok a : Except ε α) True a := by
  intro b
  simp only [Except.ok.injEq, true_and]
  exact eq_comm

theorem GivesIf.seq {x : Except ε α} {y : Except ε β} {p q : Prop} {a : α} {b : β}
    (hx : GivesIf x p a) (hy : GivesIf y q b) (g : α → β → γ) :
    GivesIf (do let u ← x; return g u (← y)) (p ∧ q) (g a b) := by
  intro c
  cases x with
  | error e =>
    have hp : ¬ p := fun h => nomatch (hx a).2 ⟨h, rfl⟩
    simp [bind, Except.bind, hp]
  | ok u =>
    obtain ⟨hp, rfl⟩ := (hx u).1 rfl
    cases y with
    | error e =>
      have hq : ¬ q := fun h => nomatch (hy b).2 ⟨h, rfl⟩
      simp [bind, Except.bind, hq]
    | ok v =>
      obtain ⟨hq, rfl⟩ := (hy v).1 rfl
      simp only [bind, Except.bind, pure, Except.pure, Except.ok.injEq, hp, hq, true_and]
      exact eq_comm

theorem findingLine_givesIf (f : Finding) : GivesIf (findingLine f) (hasLine f) (line f) := by
  intro l
  unfold hasLine findingLine line lineTail
  rw [findingStem_eq]
  cases f.timestamp with
  | none =>
    simp only [Option.map_none, Except.isOk, Except.toBool, Except.ok.injEq, true_and]
    exact eq_comm
  | some t =>
    cases ht : t.iso with
    | error e => simp [ht, bind, Except.bind, Except.isOk, Except.toBool]
    | ok time =>
      simp only [ht, bind, Except.bind, pure, Except.pure, Except.isOk, Except.toBool,
        Option.map_some, String.append_assoc, Except.ok.injEq, true_and]
      exact eq_comm

theorem findingLines_givesIf (fs : List Finding) :
    GivesIf (findingLines fs) (∀ f ∈ fs, hasLine f) (fs.map line) := by
  induction fs with
  | nil => simpa [findingLines] using givesIf_ok []
  | cons f fs ih =>
    rw [List.forall_mem_cons, List.map_cons]
    exact (findingLine_givesIf f).seq ih List.cons

theorem lines_givesIf (rs : List Audit) :
    GivesIf (lines rs) (∀ r ∈ rs, ∀ f ∈ r.findings, hasLine f) (rs.flatMap block) := by
  induction rs with
  | nil => simpa [lines] using givesIf_ok []
  | cons r rs ih =>
    rw [List.forall_mem_cons, List.flatMap_cons]
    exact (findingLines_givesIf r.findings).seq ih fun body rest => header r :: body ++ rest

theorem lines_eq_ok_iff (rs : List Audit) (ls : List String) :
    lines rs = .ok ls ↔ (∀ r ∈ rs, ∀ f ∈ r.findings, hasLine f) ∧ ls = rs.flatMap block :=
  lines_givesIf rs ls

theorem seq_eq_error_iff {x : Except ε α} {y : Except ε β} {g : α → β → γ} {e : ε} :
    (do let u ← x; return g u (← y)) = .error e ↔
      x = .error e ∨ (∃ u, x = .ok u) ∧ y = .error e := by
  cases x <;> cases y <;> simp [bind, Except.bind, pure, Except.pure]

theorem findingLines_append_eq_error_iff {fs gs : List Finding} {e : TimeError} :
    findingLines (fs ++ gs) = .error e ↔
      findingLines fs = .error e ∨
        (∃ ls, findingLines fs = .ok ls) ∧ findingLines gs = .error e := by
  induction fs with
  | nil => simp [findingLines]
  | cons f fs ih =>
    rw [List.cons_append, findingLines, findingLines, seq_eq_error_iff, seq_eq_error_iff, ih]
    cases findingLine f <;> cases findingLines fs <;> simp [bind, Except.bind, pure, Except.pure]

theorem lines_eq_error_iff {rs : List Audit} {e : TimeError} :
    lines rs = .error e ↔ findingLines (rs.flatMap (·.findings)) = .error e := by
  induction rs with
  | nil => simp [lines, findingLines]
  | cons r rs ih =>
    rw [List.flatMap_cons, findingLines_append_eq_error_iff, ← ih]
    exact seq_eq_error_iff

theorem getElem?_flatMap_block {rs : List Audit} {j k : Nat} {r : Audit} {f : Finding}
    (hr : rs[j]? = some r) (hf : r.findings[k]? = some f) :
    (rs.flatMap block)[((rs.take j).map (·.findings.length + 1)).sum + 1 + k]? = some (line f) := by
  induction rs generalizing j with
  | nil => simp at hr
  | cons r₀ rs ih =>
    cases j with
    | zero =>
      obtain rfl : r₀ = r := by simpa using hr
      obtain ⟨hk, -⟩ := List.getElem?_eq_some_iff.1 hf
      rw [List.flatMap_cons, List.getElem?_append_left (by simp; omega)]
      simp [block, Nat.add_comm 1 k, hf]
    | succ j =>
      have hrest := ih (j := j) (by simpa using hr)
      rw [List.flatMap_cons, List.getElem?_append_right (by simp; omega)]
      rw [← hrest]
      congr 1
      simp
      omega

end PolicyAudit.Report
