import PolicyAudit.Proofs.Check.Reading
import PolicyAudit.Proofs.Report.Counting
import PolicyAudit.Proofs.Session.Run

/-! Counters that are assigned at will.
The sum breaks off at the first counter that holds no number, and a tally with such a counter cannot
be written either: both fail on the same tallies (`numbers?_eq_none_iff`, `sum?_eq`). A counter holds
what was assigned to it last, whatever has been read in between (`get_after`, `after_filter`); so a
session can always be brought back to a tally that can be read. -/

namespace PolicyAudit

def Counter.name (c : Counter) : Check.Name := ⟨c.status, if c = .pass then some "pass_" else none⟩

namespace Cell

@[simp] theorem foreign_plus? (x : Cell) : foreign.plus? x = none := rfl

@[simp] theorem plus?_foreign (x : Cell) : x.plus? .foreign = none := by
  cases x <;> rfl

end Cell

namespace Tally

open Check Checked

theorem withDefault_of_ofValue {es : Entries} {t : Tally Nat} (h : ofValue (.map es) = .accepted t)
    (c : Counter) : withDefault es c.name 0 nat = .accepted (t.get c) := by
  simp only [ofValue, record, seq_eq_accepted_iff, map_eq_accepted_iff] at h
  obtain ⟨_, _, ⟨_, _, ⟨_, _, ⟨_, _, ⟨_, hpass, rfl⟩, hfail, rfl⟩, hwarn, rfl⟩, herror, rfl⟩, hskip,
    rfl⟩ := h
  cases c with
  | pass => exact hpass
  | fail => exact hfail
  | warn => exact hwarn
  | error => exact herror
  | skip => exact hskip

section Readable

variable {t : Tally Cell} {n : Tally Int} {c : Counter}

theorem get_eq_count_iff : (∀ c, t.get c = .count (n.get c)) ↔ t = n.map .count := by
  constructor
  · intro h
    exact eq_of_get fun c => by rw [h, get_map]
  · rintro rfl c
    exact get_map _ n c

theorem exists_foreign_or_count (t : Tally Cell) :
    (∃ c, t.get c = .foreign) ∨ ∃ n : Tally Int, t = n.map .count := by
  by_cases hforeign : ∃ c, t.get c = .foreign
  · exact .inl hforeign
  · have hcount : ∀ c, ∃ k, t.get c = .count k := fun c => by
      cases hc : t.get c with
      | count k => exact ⟨k, rfl⟩
      | foreign => exact absurd ⟨c, hc⟩ hforeign
    obtain ⟨p, hp⟩ := hcount .pass
    obtain ⟨f, hf⟩ := hcount .fail
    obtain ⟨w, hw⟩ := hcount .warn
    obtain ⟨e, he⟩ := hcount .error
    obtain ⟨s, hs⟩ := hcount .skip
    refine .inr ⟨⟨p, f, w, e, s⟩, eq_of_get fun c => ?_⟩
    cases c <;> assumption

theorem numbers?_map_count (n : Tally Int) : (n.map .count).numbers? = some n := rfl

theorem numbers?_of_foreign (h : t.get c = .foreign) : t.numbers? = none := by
  unfold numbers?
  split
  · cases c <;> cases h
  · rfl

theorem sum?_map_count (n : Tally Int) : (n.map .count).sum? = some n.toList.sum := by
  show some (n.pass + n.fail + n.warn + n.error + n.skip) = some n.toList.sum
  simp only [toList, List.sum_cons, List.sum_nil, Int.add_assoc, Int.add_zero]

theorem sum?_of_foreign (h : t.get c = .foreign) : t.sum? = none := by
  cases c <;> simp only [get] at h <;> simp [sum?, h]

theorem numbers?_eq_none_iff : t.numbers? = none ↔ ∃ c, t.get c = .foreign := by
  constructor
  · intro h
    rcases t.exists_foreign_or_count with hforeign | ⟨n, rfl⟩
    · exact hforeign
    · rw [numbers?_map_count] at h
      cases h
  · rintro ⟨c, hc⟩
    exact numbers?_of_foreign hc

theorem sum?_eq (t : Tally Cell) : t.sum? = t.numbers?.map (·.toList.sum) := by
  rcases t.exists_foreign_or_count with ⟨c, hc⟩ | ⟨n, rfl⟩
  · rw [sum?_of_foreign hc, numbers?_of_foreign hc]
    rfl
  · rw [sum?_map_count, numbers?_map_count]
    rfl

end Readable

def Step.isReading : Step → Bool
  | .write | .total => true
  | .assign .. => false

def Step.assigned? (c : Counter) : Step → Option Cell
  | .assign d x => if c = d then some x else none
  | .write | .total => none

/-- What the counter holds after the steps: what the last step that assigns to it has assigned, or
else what it held before. -/
def heldAfter (t : Tally Cell) (steps : List Step) (c : Counter) : Cell :=
  (steps.reverse.findSome? (Step.assigned? c)).getD (t.get c)

def overwriting (numbers : List (Counter × Int)) : List Step :=
  numbers.map fun (c, n) => .assign c (.count n)

def after (t : Tally Cell) (steps : List Step) : Tally Cell := steps.foldl (fun t s => (t.step s).1) t

@[simp] theorem after_nil (t : Tally Cell) : t.after [] = t := rfl

@[simp] theorem after_cons (t : Tally Cell) (s : Step) (ss : List Step) :
    t.after (s :: ss) = (t.step s).1.after ss := rfl

theorem answers_run : Answers step run := ⟨fun _ => rfl, fun _ _ _ => rfl⟩

theorem run_append (t : Tally Cell) (ss ts : List Step) :
    t.run (ss ++ ts) = t.run ss ++ (t.after ss).run ts :=
  answers_run.run_append t ss ts

theorem getElem?_run (t : Tally Cell) (steps : List Step) (j : Nat) :
    (t.run steps)[j]? = steps[j]?.map fun s => ((t.after (steps.take j)).step s).2 :=
  answers_run.getElem?_run t steps j

theorem get_step (t : Tally Cell) (s : Step) (c : Counter) :
    (t.step s).1.get c = (s.assigned? c).getD (t.get c) := by
  cases s with
  | assign d x =>
    show (t.assign d x).get c = (if c = d then some x else none).getD (t.get c)
    rw [get_assign]
    split_ifs <;> rfl
  | write =>
    simp only [step]
    cases t.numbers? <;> rfl
  | total =>
    simp only [step]
    cases t.sum? <;> rfl

theorem heldAfter_append (t : Tally Cell) (ss ts : List Step) (c : Counter) :
    t.heldAfter (ss ++ ts) c =
      (ts.reverse.findSome? (Step.assigned? c)).getD (t.heldAfter ss c) := by
  rw [heldAfter, heldAfter, List.reverse_append, List.findSome?_append, Option.getD_or]

theorem get_after (t : Tally Cell) (steps : List Step) (c : Counter) :
    (t.after steps).get c = t.heldAfter steps c := by
  induction steps generalizing t with
  | nil => rfl
  | cons s ss ih =>
    rw [after_cons, ih, heldAfter, get_step, ← List.singleton_append, heldAfter_append]
    cases h : s.assigned? c <;> simp [heldAfter, h]

theorem step_of_isReading (t : Tally Cell) {s : Step} (h : s.isReading) : (t.step s).1 = t := by
  refine eq_of_get fun c => ?_
  cases s with
  | assign => cases h
  | write | total => exact get_step t _ c

theorem after_filter (t : Tally Cell) (steps : List Step) :
    t.after (steps.filter (!·.isReading)) = t.after steps := by
  induction steps generalizing t with
  | nil => rfl
  | cons s ss ih =>
    by_cases h : s.isReading
    · rw [List.filter_cons_of_neg (by simp [h]), ih, after_cons, step_of_isReading t h]
    · rw [List.filter_cons_of_pos (by simp [h]), after_cons, after_cons, ih]

theorem heldAfter_overwriting {t : Tally Cell} {steps : List Step} {numbers : List (Counter × Int)}
    (h : ∀ c, t.heldAfter steps c = .foreign → c ∈ numbers.map (·.1)) (c : Counter) :
    t.heldAfter (steps ++ overwriting numbers) c ≠ .foreign := by
  rw [heldAfter_append]
  -- the last new number stands, and a counter without a new one has kept an old one
  cases hlast : (overwriting numbers).reverse.findSome? (Step.assigned? c) with
  | some x =>
    obtain ⟨s, hs, hx⟩ := List.exists_of_findSome?_eq_some hlast
    obtain ⟨⟨d, n⟩, -, rfl⟩ := List.mem_map.1 (List.mem_reverse.1 hs)
    rw [Step.assigned?] at hx
    split_ifs at hx
    cases hx
    exact Cell.noConfusion
  | none =>
    intro hforeign
    obtain ⟨⟨d, n⟩, hmem, rfl⟩ := List.mem_map.1 (h c hforeign)
    have hstep : Step.assign d (.count n) ∈ (overwriting numbers).reverse :=
      List.mem_reverse.2 (List.mem_map_of_mem hmem)
    have hnone := List.findSome?_eq_none_iff.1 hlast _ hstep
    simp [Step.assigned?] at hnone

theorem answer_write_eq_error_iff {t : Tally Cell} :
    (t.step .write).2 = .error .unwritable ↔ ∃ c, t.get c = .foreign := by
  rw [← numbers?_eq_none_iff, step]
  cases t.numbers? <;> simp

theorem answer_total_eq_error_iff {t : Tally Cell} :
    (t.step .total).2 = .error .noSum ↔ ∃ c, t.get c = .foreign := by
  rw [← numbers?_eq_none_iff, step, sum?_eq]
  cases t.numbers? <;> simp

theorem answer_write_map_count (n : Tally Int) :
    ((n.map .count).step .write).2 = .ok (.written n) := by
  rw [step, numbers?_map_count]

theorem answer_total_map_count (n : Tally Int) :
    ((n.map .count).step .total).2 = .ok (.total n.toList.sum) := by
  rw [step, sum?_map_count]

theorem exists_after_eq_map_count {t : Tally Cell} {steps : List Step}
    (h : ∀ c, t.heldAfter steps c ≠ .foreign) :
    ∃ n : Tally Int, (∀ c, t.heldAfter steps c = .count (n.get c)) ∧ t.after steps = n.map .count := by
  simp only [← get_after] at h ⊢
  rcases (t.after steps).exists_foreign_or_count with ⟨c, hc⟩ | ⟨n, hn⟩
  · exact absurd hc (h c)
  · exact ⟨n, get_eq_count_iff.2 hn, hn⟩

theorem getElem?_run_eq_getLast? (t : Tally Cell) {steps : List Step} {j : Nat} {s : Step}
    (h : steps[j]? = some s) : (t.run steps)[j]? =
      (t.run ((steps.take j).filter (!·.isReading) ++ [s])).getLast? := by
  rw [getElem?_run, h, run_append, after_filter, run, run, List.getLast?_concat]
  rfl

/-- A session on the tally in a document begins with the numbers that stand there. Writing the tally
and adding it up fail, each in its own way, exactly if what some counter was assigned last is no
number; otherwise the one shows the numbers held, of any sign and size, and the other their sum. No
reading, failing or not, shows in a later answer, and once numbers have taken the place of whatever
was none, both succeed. -/
theorem readings_fail_iff_foreign {doc : Value} {t : Tally Nat} (h : ofValue doc = .accepted t)
    (steps : List Step) :
    let start : Tally Cell := t.map fun n : Nat => .count n
    let held (j : Nat) (c : Counter) : Cell := start.heldAfter (steps.take j) c
    (∃ es, doc = .map es ∧ ∀ c, withDefault es c.name 0 nat = .accepted (t.get c)) ∧
    (∀ j, steps[j]? = some .write →
      ((start.run steps)[j]? = some (.error .unwritable) ↔ ∃ c, held j c = .foreign)) ∧
    (∀ j, steps[j]? = some .total →
      ((start.run steps)[j]? = some (.error .noSum) ↔ ∃ c, held j c = .foreign)) ∧
    (∀ j, (∀ c, held j c ≠ .foreign) → ∃ n : Tally Int, (∀ c, held j c = .count (n.get c)) ∧
      (steps[j]? = some .write → (start.run steps)[j]? = some (.ok (.written n))) ∧
      (steps[j]? = some .total → (start.run steps)[j]? = some (.ok (.total n.toList.sum)))) ∧
    (∀ j s, steps[j]? = some s → (start.run steps)[j]? =
      (start.run ((steps.take j).filter (!·.isReading) ++ [s])).getLast?) ∧
    ∀ numbers : List (Counter × Int),
      (∀ c, start.heldAfter steps c = .foreign → c ∈ numbers.map (·.1)) →
      ∃ n : Tally Int,
        (∀ c, start.heldAfter (steps ++ overwriting numbers) c = .count (n.get c)) ∧
        (start.run (steps ++ overwriting numbers ++ [.write, .total])).drop
          (steps ++ overwriting numbers).length =
            [.ok (.written n), .ok (.total n.toList.sum)] := by
  intro start held
  refine ⟨?_, fun j hj => ?_, fun j hj => ?_, fun j hheld => ?_, fun j s hs => ?_,
    fun numbers hnumbers => ?_⟩
  · obtain ⟨es, rfl, -⟩ := record_eq_accepted_iff.1 h
    exact ⟨es, rfl, withDefault_of_ofValue h⟩
  · simp only [getElem?_run, hj, held, ← get_after, Option.map_some, Option.some.injEq]
    exact answer_write_eq_error_iff
  · simp only [getElem?_run, hj, held, ← get_after, Option.map_some, Option.some.injEq]
    exact answer_total_eq_error_iff
  · obtain ⟨n, hn, hafter⟩ := exists_after_eq_map_count hheld
    refine ⟨n, hn, fun hj => ?_, fun hj => ?_⟩
    · rw [getElem?_run, hj, Option.map_some, hafter, answer_write_map_count]
    · rw [getElem?_run, hj, Option.map_some, hafter, answer_total_map_count]
  · exact getElem?_run_eq_getLast? start hs
  · obtain ⟨n, hn, hafter⟩ := exists_after_eq_map_count (heldAfter_overwriting hnumbers)
    refine ⟨n, hn, ?_⟩
    rw [run_append, ← answers_run.length_run start, List.drop_left, hafter]
    exact congrArg (_ :: [·]) (answer_total_map_count n)

/-- Two counters lose their numbers, and the readings fail, until both have been assigned numbers, one
below zero and one beyond 64 bits. -/
theorem readings_fail_iff_foreign_until_overwritten :
    let doc : Value := .record [("pass_", .bool true), ("skip", .int 2)]
    let t : Tally Nat := ⟨1, 0, 0, 0, 2⟩
    let start : Tally Cell := t.map fun n : Nat => .count n
    let steps : List Step :=
      [.total, .assign .fail .foreign, .write, .assign .pass .foreign, .total]
    let mended := steps ++ overwriting [(.pass, -3), (.fail, 2 ^ 70)]
    ofValue doc = .accepted t ∧
    (start.run steps)[0]? = some (.ok (.total 3)) ∧
    (start.run steps)[2]? = some (.error .unwritable) ∧
    (start.run steps)[4]? = some (.error .noSum) ∧
    (start.run (mended ++ [.write, .total])).drop mended.length =
      [.ok (.written ⟨-3, 2 ^ 70, 0, 0, 2⟩), .ok (.total (2 ^ 70 - 1))] := by
  intro doc t start steps mended
  have hdoc : ofValue doc = .accepted t := rfl
  obtain ⟨-, hwrite, htotal, hread, -, hmended⟩ := readings_fail_iff_foreign hdoc steps
  obtain ⟨n, hn, -, hthree⟩ := hread 0 fun c => by cases c <;> decide
  obtain ⟨m, hm, hboth⟩ := hmended [(.pass, -3), (.fail, 2 ^ 70)] fun c => by cases c <;> decide
  have hnumbers : n = ⟨1, 0, 0, 0, 2⟩ := eq_of_get fun c => Cell.count.inj <| by
    rw [← hn]
    cases c <;> rfl
  have hmend : m = ⟨-3, 2 ^ 70, 0, 0, 2⟩ := eq_of_get fun c => Cell.count.inj <| by
    rw [← hm]
    cases c <;> rfl
  subst hnumbers hmend
  exact ⟨hdoc, hthree rfl, (hwrite 2 rfl).2 ⟨.fail, rfl⟩, (htotal 4 rfl).2 ⟨.fail, rfl⟩, hboth⟩

end Tally

end PolicyAudit
