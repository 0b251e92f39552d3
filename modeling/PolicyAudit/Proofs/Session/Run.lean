import Mathlib.Data.List.Basic

/-! Answers given one after the other.
Every kind of session answers its steps from the first to the last. Of the steps before it an answer
shows no more than the state that they have left (`Answers.getElem?_run`). -/

namespace PolicyAudit

/-- Each step of a run is answered in the state that the steps before it have left. -/
structure Answers (step : σ → ι → σ × α) (run : σ → List ι → List α) : Prop where
  nil : ∀ s, run s [] = []
  cons : ∀ s i is, run s (i :: is) = (step s i).2 :: run (step s i).1 is

namespace Answers

variable {step : σ → ι → σ × α} {run : σ → List ι → List α}

theorem run_append (h : Answers step run) (s : σ) (is js : List ι) :
    run s (is ++ js) = run s is ++ run (is.foldl (fun s i => (step s i).1) s) js := by
  induction is generalizing s with
  | nil => rw [h.nil, List.nil_append, List.nil_append, List.foldl_nil]
  | cons i is ih => rw [List.cons_append, h.cons, h.cons, ih, List.cons_append, List.foldl_cons]

theorem length_run (h : Answers step run) (s : σ) (is : List ι) :
    (run s is).length = is.length := by
  induction is generalizing s with
  | nil => rw [h.nil, List.length_nil, List.length_nil]
  | cons i is ih => rw [h.cons, List.length_cons, List.length_cons, ih]

theorem getElem?_run (h : Answers step run) (s : σ) (is : List ι) (j : Nat) :
    (run s is)[j]? =
      is[j]?.map fun i => (step ((is.take j).foldl (fun s i => (step s i).1) s) i).2 := by
  induction is generalizing s j with
  | nil => rw [h.nil, List.getElem?_nil, List.getElem?_nil, Option.map_none]
  | cons i is ih =>
    rw [h.cons]
    cases j with
    | zero => rfl
    | succ j =>
      rw [List.getElem?_cons_succ, List.getElem?_cons_succ, ih, List.take_succ_cons, List.foldl_cons]

end Answers

end PolicyAudit
