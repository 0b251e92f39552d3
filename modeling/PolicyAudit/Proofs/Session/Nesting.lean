import PolicyAudit.Proofs.Session.Change

/-! Filterings and their undoing.
Undoing takes back the last filtering that has not been undone yet. In between the steps are
balanced, and balanced steps leave the lists below as they found them (`below_after`): what was
current when the filtering was made is current again. -/

namespace PolicyAudit.Session

def Step.restacks : Step → Bool
  | .filter _ | .unfilter => true
  | _ => false

/-- Steps that undo every filtering of theirs and no other. -/
inductive Balanced : List Step → Prop
  | nil : Balanced []
  | cons {st : Step} {sts : List Step} (h : ¬ st.restacks) (hs : Balanced sts) :
      Balanced (st :: sts)
  | nest (c : Criteria) {inner rest : List Step} (hi : Balanced inner) (hr : Balanced rest) :
      Balanced (.filter c :: (inner ++ .unfilter :: rest))

theorem Balanced.append {ss ts : List Step} (hs : Balanced ss) (ht : Balanced ts) :
    Balanced (ss ++ ts) := by
  induction hs with
  | nil => exact ht
  | cons h _ ih => exact .cons h ih
  | nest c hi _ _ ih =>
    rw [List.cons_append, List.append_assoc, List.cons_append]
    exact .nest c hi ih

theorem after_append (s : Session) (ss ts : List Step) :
    s.after (ss ++ ts) = (s.after ss).after ts :=
  List.foldl_append

theorem below_of_change {s s' : Session} {st : Step} (hc : s.Change st s') (h : ¬ st.restacks) :
    s'.below = s.below := by
  cases hc with
  | filter | unfilter => exact absurd rfl h
  | _ => rfl

theorem step_filter (s : Session) (c : Criteria) : (s.step (.filter c)).1 = { s with
    current := Report.narrowAll (fun i => c.admits (s.store.finding i)) s.current
    below := s.current :: s.below } := rfl

theorem step_unfilter_nil {s : Session} (h : s.below = []) : (s.step .unfilter).1 = s := by
  simp [step, h]

theorem step_unfilter_cons {s : Session} {under : List Held} {rest : List (List Held)}
    (h : s.below = under :: rest) :
    (s.step .unfilter).1 = { s with current := under, below := rest } := by
  simp [step, h]

theorem below_after {steps : List Step} (hb : Balanced steps) (s : Session) :
    (s.after steps).below = s.below := by
  induction hb generalizing s with
  | nil => rfl
  | cons h _ ih => rw [after_cons, ih, below_of_change (s.change_step _) h]
  | nest c _ _ ihi ihr =>
    rw [after_cons, after_append, after_cons, ihr, step_unfilter_cons (ihi _)]

theorem step_unfilter_of_balanced {inner : List Step} (hb : Balanced inner) (s : Session)
    (c : Criteria) :
    ((s.after (.filter c :: inner)).step .unfilter).1 =
      ⟨(s.after (.filter c :: inner)).store, s.current, s.below⟩ :=
  step_unfilter_cons (below_after hb _)

theorem exists_balanced {s₀ : Session} (h₀ : s₀.below = []) (steps : List Step) {under : List Held}
    {rest : List (List Held)} (h : (s₀.after steps).below = under :: rest) :
    ∃ before c inner, steps = before ++ .filter c :: inner ∧ Balanced inner ∧
      (s₀.after before).levels = under :: rest := by
  -- an undoing at the end takes two smaller runs: up to it, and up to the filtering that it undoes
  induction hn : steps.length using Nat.strongRecOn generalizing steps under rest with
  | ind n ih =>
    subst hn
    rcases List.eq_nil_or_concat steps with rfl | ⟨init, st, rfl⟩
    · rw [after_nil, h₀] at h
      cases h
    rw [List.concat_eq_append] at *
    have hlength : init.length < (init ++ [st]).length := by simp
    rw [after_append] at h
    change ((s₀.after init).step st).1.below = _ at h
    by_cases hst : st.restacks
    · cases st with
      | filter c => exact ⟨init, c, [], rfl, .nil, h⟩
      | unfilter =>
        cases hbelow : (s₀.after init).below with
        | nil =>
          rw [step_unfilter_nil hbelow, hbelow] at h
          cases h
        | cons top lower =>
          obtain rfl : lower = under :: rest := by rwa [step_unfilter_cons hbelow] at h
          obtain ⟨middle, c, inner, rfl, hinner, hmiddle⟩ := ih _ hlength init hbelow rfl
          have hlower : (s₀.after middle).below = under :: rest := (List.cons.inj hmiddle).2
          obtain ⟨before, c', inner', rfl, hinner', hbefore⟩ :=
            ih _ (by simp) middle hlower rfl
          refine ⟨before, c', inner' ++ .filter c :: (inner ++ [.unfilter]), by simp, ?_, hbefore⟩
          exact hinner'.append (.nest c hinner .nil)
      | _ => cases hst
    · rw [below_of_change ((s₀.after init).change_step st) hst] at h
      obtain ⟨before, c, inner, rfl, hinner, hbefore⟩ := ih _ hlength init h rfl
      exact ⟨before, c, inner ++ [st], by simp, hinner.append (.cons hst .nil), hbefore⟩

end PolicyAudit.Session
