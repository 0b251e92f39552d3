import PolicyAudit.Proofs.Report.Settled
import PolicyAudit.Proofs.Session.Effects

/-! Readings of a session and of the findings in it.
A reading settles identities and does nothing else (`settled_look`), and what it answers follows
from the session with all identities settled (`look_settled`). So no reading shows in the answer of
another one, wherever a text breaks off. -/

namespace PolicyAudit

namespace Finding

def Step.isReading : Step → Bool
  | .identity | .fingerprint | .resource | .hasResource | .priority | .payload | .tally => true
  | _ => false

/-- A finding is as it was, but for an identity that has been settled. -/
def Untouched (f g : Finding) : Prop := g = f ∨ g = f.settle

theorem Untouched.settle_eq {f g : Finding} (h : Untouched f g) : g.settle = f.settle := by
  rcases h with rfl | rfl
  · rfl
  · exact f.settle_settle

theorem Untouched.trans {f g k : Finding} (hfg : Untouched f g) (hgk : Untouched g k) :
    Untouched f k := by
  rcases hgk with rfl | rfl
  · exact hfg
  · exact .inr hfg.settle_eq

theorem untouched_step (f : Finding) {st : Step} (h : st.isReading) :
    Untouched f (f.step st).1 := by
  cases st with
  | assign | prioritise | setProperty | eraseProperty | insertResource | removeResource => cases h
  | identity | payload => exact .inr rfl
  | _ => exact .inl rfl

theorem step_settle (f : Finding) {st : Step} (h : st.isReading) :
    (f.settle.step st).2 = (f.step st).2 := by
  cases st with
  | assign | prioritise | setProperty | eraseProperty | insertResource | removeResource => cases h
  | _ => rfl

theorem run_readings (f : Finding) (sts : List { st : Step // st.isReading }) :
    f.run (sts.map (·.1)) = sts.map fun st => (f.step st.1).2 := by
  induction sts generalizing f with
  | nil => rfl
  | cons st sts ih =>
    rw [List.map_cons, run, ih, List.map_cons]
    congr 1
    refine List.map_congr_left fun st' _ => ?_
    rw [← step_settle _ st'.2, (untouched_step f st.2).settle_eq, step_settle _ st'.2]

end Finding

namespace Store

def settled (s : Store) : Store := { s with finding := fun h => (s.finding h).settle }

structure Untouched (s t : Store) : Prop where
  metadata : t.metadata = s.metadata
  nextFinding : t.nextFinding = s.nextFinding
  nextMetadata : t.nextMetadata = s.nextMetadata
  finding : ∀ h, (s.finding h).Untouched (t.finding h)

theorem Untouched.refl (s : Store) : Untouched s s := ⟨rfl, rfl, rfl, fun _ => .inl rfl⟩

theorem Untouched.trans {s t u : Store} (hst : Untouched s t) (htu : Untouched t u) :
    Untouched s u where
  metadata := htu.metadata.trans hst.metadata
  nextFinding := htu.nextFinding.trans hst.nextFinding
  nextMetadata := htu.nextMetadata.trans hst.nextMetadata
  finding h := (hst.finding h).trans (htu.finding h)

theorem Untouched.settled_eq {s t : Store} (h : Untouched s t) : t.settled = s.settled := by
  have hfinding : ∀ i, (t.finding i).settle = (s.finding i).settle :=
    fun i => (h.finding i).settle_eq
  simp only [settled, h.metadata, h.nextFinding, h.nextMetadata, hfinding]

theorem untouched_settleAll (s : Store) (is : List Nat) : Untouched s (s.settleAll is) where
  metadata := (alike_settleAll 0 s is).metadata
  nextFinding := s.nextFinding_settleAll is
  nextMetadata := s.nextMetadata_settleAll is
  finding h := by
    rw [finding_settleAll]
    split
    · exact .inr rfl
    · exact .inl rfl

theorem untouched_setFinding {s : Store} {h : Nat} {f : Finding}
    (hf : (s.finding h).Untouched f) : Untouched s (s.setFinding h f) := by
  refine ⟨rfl, rfl, rfl, fun i => ?_⟩
  by_cases hi : i = h
  · subst hi
    rwa [finding_setFinding_self]
  · rw [finding_setFinding_ne s f hi]
    exact .inl rfl

theorem audit_settled (s : Store) (r : Held) : s.settled.audit r = (s.audit r).settle := by
  simp only [audit, settled, Report.settle, Report.mapBoth, List.map_map]
  rfl

end Store

namespace Session

def Step.isReading : Step → Bool
  | .json | .text | .view _ | .identity .. => true
  | _ => false

/-- A reading of the reports of a session or of one finding in them. -/
inductive Reading
  | reports (st : Step) (h : st.isReading)
  | finding (report finding : Int) (st : Finding.Step) (h : st.isReading)

/-- What is seen of an answer: a view shows the identities, and their cells are not seen. -/
inductive Sight
  | view (v : Report.View)
  | plain (a : Answer)
  | finding (a : Except Finding.Failure Finding.Answer)

def Answer.sight : Answer → Sight
  | .view r => .view r.view
  | a => .plain a

def handle? (s : Session) (report finding : Int) : Option Nat := do
  let (_, r) ← Position.item? s.current report
  let (_, h) ← Position.item? r.findings finding
  return h

def look (s : Session) : Reading → Session × Except Failure Sight
  | .reports st _ => ((s.step st).1, (s.step st).2.map Answer.sight)
  | .finding i k st _ =>
    match s.handle? i k with
    | none => (s, .error .noSuchPosition)
    | some h =>
      let (f, a) := (s.store.finding h).step st
      ({ s with store := s.store.setFinding h f }, .ok (.finding a))

def looks (s : Session) : List Reading → List (Except Failure Sight)
  | [] => []
  | x :: xs => (s.look x).2 :: looks (s.look x).1 xs

def afterReading (s : Session) (xs : List Reading) : Session := xs.foldl (fun s x => (s.look x).1) s

def settled (s : Session) : Session := { s with store := s.store.settled }

theorem audits_settled (s : Session) : s.settled.audits = s.audits.map Report.settle := by
  rw [audits, audits, List.map_map]
  exact List.map_congr_left fun r _ => s.store.audit_settled r

theorem sight_step_settled (s : Session) {st : Step} (h : st.isReading) :
    (s.settled.step st).2.map Answer.sight = (s.step st).2.map Answer.sight := by
  cases st with
  | json =>
    simp only [step]
    rw [audits_settled, Report.toJson_settle]
  | text =>
    simp only [step]
    rw [audits_settled, Report.toText_settle]
  | view i =>
    cases hr : Position.item? s.current i with
    | none => rw [step, step, withReport_of_none hr, withReport_of_none (s := s.settled) hr]
    | some jr =>
      rw [step, step, withReport_of_some hr, withReport_of_some (s := s.settled) hr]
      show Except.ok (Sight.view (s.store.settled.audit jr.2).view) = _
      rw [Store.audit_settled, Report.view_settle]
      rfl
  | identity i k =>
    cases hr : Position.item? s.current i with
    | none => rw [step, step, withReport_of_none hr, withReport_of_none (s := s.settled) hr]
    | some jr =>
      rw [step, step, withReport_of_some hr, withReport_of_some (s := s.settled) hr]
      cases hk : Position.item? jr.2.findings k with
      | none => rw [withFinding_of_none hk, withFinding_of_none hk]
      | some nh =>
        rw [withFinding_of_some hk, withFinding_of_some hk]
        rfl
  | _ => cases h

theorem look_settled (s : Session) (x : Reading) : (s.settled.look x).2 = (s.look x).2 := by
  cases x with
  | reports st h => exact s.sight_step_settled h
  | finding i k st h =>
    have hhandle : s.settled.handle? i k = s.handle? i k := rfl
    simp only [look, hhandle]
    cases s.handle? i k with
    | none => rfl
    | some n => exact congrArg (Except.ok ∘ Sight.finding) ((s.store.finding n).step_settle h)

structure Untouched (s t : Session) : Prop where
  levels : t.levels = s.levels
  store : s.store.Untouched t.store

theorem Untouched.refl (s : Session) : Untouched s s := ⟨rfl, .refl _⟩

theorem Untouched.trans {s t u : Session} (hst : Untouched s t) (htu : Untouched t u) :
    Untouched s u :=
  ⟨htu.levels.trans hst.levels, hst.store.trans htu.store⟩

theorem Untouched.settled_eq {s t : Session} (h : Untouched s t) : t.settled = s.settled := by
  obtain ⟨hcurrent, hbelow⟩ := List.cons.inj h.levels
  simp only [settled, hcurrent, hbelow, h.store.settled_eq]

theorem untouched_step (s : Session) {st : Step} (h : st.isReading) :
    Untouched s (s.step st).1 := by
  have hc := s.change_step st
  generalize (s.step st).1 = s' at hc
  cases hc with
  | same => exact .refl s
  | json | text | view => exact ⟨rfl, s.store.untouched_settleAll _⟩
  | identity => exact ⟨rfl, s.store.untouched_settleAll [_]⟩
  | _ => cases h

theorem untouched_look (s : Session) (x : Reading) : Untouched s (s.look x).1 := by
  cases x with
  | reports st h => exact s.untouched_step h
  | finding i k st h =>
    simp only [look]
    cases s.handle? i k with
    | none => exact .refl s
    | some n => exact ⟨rfl, Store.untouched_setFinding ((s.store.finding n).untouched_step h)⟩

theorem untouched_afterReading (s : Session) (xs : List Reading) :
    Untouched s (s.afterReading xs) := by
  induction xs generalizing s with
  | nil => exact .refl s
  | cons x xs ih => exact (s.untouched_look x).trans (ih (s.look x).1)

theorem Untouched.look_eq {s t : Session} (h : Untouched s t) (x : Reading) :
    (t.look x).2 = (s.look x).2 := by
  rw [← look_settled, h.settled_eq, look_settled]

theorem looks_eq (s : Session) (xs : List Reading) : s.looks xs = xs.map fun x => (s.look x).2 := by
  induction xs generalizing s with
  | nil => rfl
  | cons x xs ih =>
    rw [looks, ih, List.map_cons]
    congr 1
    exact List.map_congr_left fun y _ => (s.untouched_look x).look_eq y

theorem looks_reports (s : Session) (sts : List { st : Step // st.isReading }) :
    s.looks (sts.map fun st => .reports st.1 st.2) =
      (s.run (sts.map (·.1))).map (·.map Answer.sight) := by
  induction sts generalizing s with
  | nil => rfl
  | cons st sts ih => exact congrArg (_ :: ·) (ih _)

/-- Whatever has been read before, of a session or of a finding alone, a reading answers what it
answers as the first one, and all that readings leave behind are settled identities. -/
theorem readings_unobserved :
    (∀ (s : Session) (xs : List Reading),
      s.looks xs = xs.map (fun x => (s.look x).2) ∧ Untouched s (s.afterReading xs)) ∧
    (∀ (s : Session) (sts : List { st : Step // st.isReading }),
      (s.run (sts.map (·.1))).map (·.map Answer.sight) =
        sts.map fun st => (s.step st.1).2.map Answer.sight) ∧
    ∀ (f : Finding) (sts : List { st : Finding.Step // st.isReading }),
      f.run (sts.map (·.1)) = sts.map fun st => (f.step st.1).2 := by
  refine ⟨fun s xs => ⟨s.looks_eq xs, s.untouched_afterReading xs⟩, fun s sts => ?_,
    Finding.run_readings⟩
  rw [← looks_reports, looks_eq, List.map_map]
  rfl

/-- A text breaks off at the second of three findings; what is read after it and what was read of
the third finding alone are the same. -/
theorem readings_unobserved_after_broken_text :
    let r : Audit := ⟨.namespaced, "v1", { name := some "r" }, none, none, .zero,
      [{ policy := some "p" }, { policy := some "q", timestamp := some ⟨253402300800, 0⟩ },
        { policy := some "z" }]⟩
    let s := start [r]
    let text : Reading := .reports .text rfl
    let payload : Reading := .finding 0 2 .payload rfl
    let view : Reading := .reports (.view (-1)) rfl
    (s.look text).2 = .error (.time (.year 10000)) ∧
    s.looks [text, payload, text, view] =
      [.error (.time (.year 10000)), (s.look payload).2, .error (.time (.year 10000)),
        (s.look view).2] := by
  intro r s text payload view
  have hbroken : (s.step .text).2 = .error (.time (.year 10000)) := by rfl
  have htext : (s.look text).2 = .error (.time (.year 10000)) :=
    congrArg (·.map Answer.sight) hbroken
  refine ⟨htext, ?_⟩
  have hlooks := (readings_unobserved.1 s [text, payload, text, view]).1
  rw [hlooks]
  simp only [List.map_cons, List.map_nil, htext]

end Session

end PolicyAudit
