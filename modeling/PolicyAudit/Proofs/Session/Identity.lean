import PolicyAudit.Proofs.Report.Fresh
import PolicyAudit.Proofs.Report.Payload
import PolicyAudit.Proofs.Session.Run
import PolicyAudit.Session.Finding

/-! The identity over a session on one finding.
The identity is a cell written once, by the first step that shows it. Before that step only edits
count (`unsettled_after`), from it on the cell outlives every edit (`settled_after`). -/

namespace PolicyAudit.Finding

def after (f : Finding) (steps : List Step) : Finding := steps.foldl (fun f s => (f.step s).1) f

/-- The identity of a finding that has shown none: a `resultID` that is not empty, or else the
fingerprint. -/
def ownIdentity (f : Finding) : String :=
  match f.properties.get? "resultID" with
  | some s => if s = "" then f.fingerprint else s
  | none => f.fingerprint

def Step.shows : Step → Bool
  | .identity | .payload => true
  | _ => false

/-- The identity in an answer: a text as it is, a payload's `id`. -/
def shown? : Except Failure Answer → Option String
  | .ok (.text s) => some s
  | .ok (.payload v) =>
    match v.get? "id" with
    | some (.text s) => some s
    | _ => none
  | _ => none

def unsettled (f : Finding) : Finding := { f with settled := none }

@[simp] theorem after_nil (f : Finding) : f.after [] = f := rfl

@[simp] theorem after_cons (f : Finding) (s : Step) (ss : List Step) :
    f.after (s :: ss) = (f.step s).1.after ss := rfl

theorem after_append (f : Finding) (ss ts : List Step) :
    f.after (ss ++ ts) = (f.after ss).after ts :=
  List.foldl_append

theorem getElem?_run (f : Finding) (steps : List Step) (j : Nat) :
    (f.run steps)[j]? = steps[j]?.map fun s => ((f.after (steps.take j)).step s).2 :=
  Answers.getElem?_run ⟨fun _ => rfl, fun _ _ _ => rfl⟩ f steps j

theorem identity_eq_ownIdentity {f : Finding} (h : f.settled = none) :
    f.identity = f.ownIdentity := by
  unfold identity ownIdentity asserted?
  rw [h]
  cases f.properties.get? "resultID" with
  | none => rfl
  | some s => by_cases hs : s = "" <;> simp [Option.filter, hs]

theorem shown?_step (f : Finding) {s : Step} (h : s.shows) :
    shown? (f.step s).2 = some f.identity := by
  cases s with
  | identity => rfl
  | payload => simp [step, shown?]
  | _ => cases h

theorem settled_step_of_shows (f : Finding) {s : Step} (h : s.shows) :
    (f.step s).1.settled = some f.identity := by
  cases s with
  | identity => rfl
  | payload => rfl
  | _ => cases h

theorem unsettled_step (f : Finding) {s : Step} (h : ¬ s.shows) :
    (f.step s).1.unsettled = (f.unsettled.step s).1 ∧ (f.step s).1.settled = f.settled := by
  cases s with
  | identity | payload => exact absurd rfl h
  | assign field t => cases field <;> exact ⟨rfl, rfl⟩
  | insertResource i doc =>
    simp only [step]
    cases Reference.ofValue doc <;> exact ⟨rfl, rfl⟩
  | removeResource i =>
    have hr : f.unsettled.resources = f.resources := rfl
    simp only [step, hr]
    cases Position.resolve? i f.resources.length <;> exact ⟨rfl, rfl⟩
  | _ => exact ⟨rfl, rfl⟩

theorem unsettled_step_of_shows (f : Finding) {s : Step} (h : s.shows) :
    (f.step s).1.unsettled = f.unsettled := by
  cases s with
  | identity | payload => rfl
  | _ => cases h

theorem unsettled_after (f : Finding) (steps : List Step) :
    (f.after steps).unsettled = f.unsettled.after (steps.filter (!·.shows)) := by
  induction steps generalizing f with
  | nil => rfl
  | cons s ss ih =>
    rw [after_cons, ih]
    by_cases h : s.shows
    · rw [unsettled_step_of_shows f h, List.filter_cons_of_neg (by simp [h])]
    · rw [List.filter_cons_of_pos (by simp [h]), after_cons, (unsettled_step f h).1]

theorem settled_after_of_none_shows {f : Finding} {steps : List Step}
    (h : ∀ s ∈ steps, ¬ s.shows) : (f.after steps).settled = f.settled := by
  induction steps generalizing f with
  | nil => rfl
  | cons s ss ih =>
    rw [List.forall_mem_cons] at h
    rw [after_cons, ih h.2, (unsettled_step f h.1).2]

theorem settled_after {f : Finding} {i : String} (h : f.settled = some i) (steps : List Step) :
    (f.after steps).settled = some i := by
  induction steps generalizing f with
  | nil => exact h
  | cons s ss ih => exact ih (settled_step h s)

theorem forall_mem_take_not_shows {steps : List Step} {k : Nat}
    (hk : steps.findIdx? Step.shows = some k) : ∀ s ∈ steps.take k, ¬ s.shows := by
  obtain ⟨_, _, hfirst⟩ := List.findIdx?_eq_some_iff_getElem.1 hk
  intro s hs
  obtain ⟨j, hj, rfl⟩ := List.mem_take_iff_getElem.1 hs
  exact hfirst j (by omega)

theorem settled_after_take {f : Finding} (hf : f.settled = none) {steps : List Step} {k j : Nat}
    (hk : steps.findIdx? Step.shows = some k) (hj : k < j) :
    (f.after (steps.take j)).settled = some (f.after (steps.take k)).ownIdentity := by
  obtain ⟨hlt, hs, -⟩ := List.findIdx?_eq_some_iff_getElem.1 hk
  have hnone : (f.after (steps.take k)).settled = none := by
    rw [settled_after_of_none_shows (forall_mem_take_not_shows hk), hf]
  have hsplit :
      steps.take j = steps.take k ++ steps[k] :: (steps.drop (k + 1)).take (j - (k + 1)) := by
    calc steps.take j = steps.take (k + 1) ++ (steps.drop (k + 1)).take (j - (k + 1)) := by
          rw [← List.take_add]
          congr 1
          omega
      _ = _ := by rw [List.take_succ_eq_append_getElem hlt, List.append_assoc]; rfl
  rw [hsplit, after_append, after_cons]
  apply settled_after
  rw [settled_step_of_shows _ hs, identity_eq_ownIdentity hnone]

/-- The first step that shows the identity fixes it: every later one shows the own identity of the
finding as it was just before. The fingerprint follows the edits and fixes nothing. -/
theorem identity_fixed_by_first_showing {doc : Value} {f : Finding} (h : ofValue doc = .accepted f)
    (steps : List Step) :
    (∀ k, steps.findIdx? Step.shows = some k → ∀ j s, k ≤ j → steps[j]? = some s → s.shows →
      ∃ a, (f.run steps)[j]? = some a ∧ shown? a = some (f.after (steps.take k)).ownIdentity) ∧
    (∀ j, steps[j]? = some .fingerprint →
      (f.run steps)[j]? = some (.ok (.text (f.after (steps.take j)).fingerprint)) ∧
      (f.after (steps.take j)).fingerprint =
        (f.after ((steps.take j).filter (!·.shows))).fingerprint ∧
      f.after (steps.take (j + 1)) = f.after (steps.take j)) := by
  have hf := (fresh_of_ofValue h).settled
  constructor
  · intro k hk j s hkj hs hshow
    refine ⟨((f.after (steps.take j)).step s).2, ?_, ?_⟩
    · rw [getElem?_run, hs]
      rfl
    rw [shown?_step _ hshow]
    rcases Nat.eq_or_lt_of_le hkj with rfl | hlt
    · have hnone := settled_after_of_none_shows (f := f) (forall_mem_take_not_shows hk)
      rw [identity_eq_ownIdentity (hnone.trans hf)]
    · rw [identity, settled_after_take hf hk hlt]
      rfl
  · intro j hj
    refine ⟨?_, ?_, ?_⟩
    · rw [getElem?_run, hj]
      rfl
    · have hu : f.unsettled = f := by rw [unsettled, ← hf]
      have hw := unsettled_after f (steps.take j)
      rw [hu] at hw
      rw [← hw]
      rfl
    · rw [List.take_add_one, hj, after_append]
      rfl

theorem identity_outlives_late_override :
    ofValue (.record [("policy", .text "p")]) = .accepted { policy := some "p" } ∧
    ∃ a, (run { policy := some "p" } [.fingerprint, .setProperty "resultID" "", .payload,
        .setProperty "resultID" "late", .assign .message (some "m"), .identity])[5]? = some a ∧
      shown? a = some "12638205892253321583" := by
  have hdoc : ofValue (.record [("policy", .text "p")]) = .accepted { policy := some "p" } := rfl
  refine ⟨hdoc, ?_⟩
  have hown :
      (after { policy := some "p" } [.fingerprint, .setProperty "resultID" ""]).ownIdentity =
      "12638205892253321583" := by decide
  rw [← hown]
  exact (identity_fixed_by_first_showing hdoc _).1 2 rfl 5 .identity (by decide) rfl rfl

end PolicyAudit.Finding
