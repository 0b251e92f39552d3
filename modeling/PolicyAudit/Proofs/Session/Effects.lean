import PolicyAudit.Proofs.Session.Change
import PolicyAudit.Proofs.Session.Identity

/-! What the steps of a session write into the store.
Two sorts of steps write: edits of a finding and assignments to metadata. All other steps leave the
store as it is, but for identities that they settle and findings that they add. So after a run the
store holds what the effects of the run make of it (`alike_after`). -/

namespace PolicyAudit

namespace Position

def item? (l : List α) (i : Int) : Option (Nat × α) :=
  (resolve? i l.length).bind fun j => l[j]?.map (j, ·)

theorem item?_eq_some_iff {l : List α} {i : Int} {j : Nat} {a : α} :
    item? l i = some (j, a) ↔ resolve? i l.length = some j ∧ l[j]? = some a := by
  simp only [item?, Option.bind_eq_some_iff, Option.map_eq_some_iff, Prod.mk.injEq]
  constructor
  · rintro ⟨_, hj, _, ha, rfl, rfl⟩
    exact ⟨hj, ha⟩
  · rintro ⟨hj, ha⟩
    exact ⟨j, hj, a, ha, rfl, rfl⟩

end Position

namespace Session

inductive Effect
  | edit (finding : Nat) (e : Edit)
  | assign (metadata : Nat) (field : Metadata.TextField) (s : Option String)

def Effect.apply : Effect → Store → Store
  | .edit h e, s => s.modifyFinding h e.apply
  | .assign m field t, s => s.modifyMetadata m (·.assign field t)

def effect? (s : Session) : Step → Option Effect
  | .edit i k e => do
    let (_, r) ← Position.item? s.current i
    let (_, h) ← Position.item? r.findings k
    return .edit h e
  | .assignMetadata i field t => do
    let (_, r) ← Position.item? s.current i
    return .assign r.metadata field t
  | _ => none

def effects (s : Session) : List Step → List Effect
  | [] => []
  | st :: sts => (s.effect? st).toList ++ effects (s.step st).1 sts

theorem unsettled_apply (e : Edit) (f : Finding) :
    (e.apply f).unsettled = e.apply f.unsettled := by
  cases e with
  | assign field t => cases field <;> rfl
  | _ => rfl

end Session

namespace Store

def write (s : Store) (xs : List Session.Effect) : Store := xs.foldl (fun s x => x.apply s) s

theorem write_append (s : Store) (xs ys : List Session.Effect) :
    s.write (xs ++ ys) = (s.write xs).write ys :=
  List.foldl_append

/-- The same metadata, and the same findings up to `n` apart from identities that are settled. -/
structure Alike (n : Nat) (s t : Store) : Prop where
  metadata : s.metadata = t.metadata
  finding : ∀ h < n, (s.finding h).unsettled = (t.finding h).unsettled

theorem Alike.refl (n : Nat) (s : Store) : Alike n s s := ⟨rfl, fun _ _ => rfl⟩

theorem Alike.trans {n : Nat} {s t u : Store} (hst : Alike n s t) (htu : Alike n t u) :
    Alike n s u :=
  ⟨hst.metadata.trans htu.metadata, fun h hh => (hst.finding h hh).trans (htu.finding h hh)⟩

theorem Alike.mono {m n : Nat} {s t : Store} (hmn : m ≤ n) (h : Alike n s t) : Alike m s t :=
  ⟨h.metadata, fun i hi => h.finding i (Nat.lt_of_lt_of_le hi hmn)⟩

theorem Alike.apply {n : Nat} {s t : Store} (h : Alike n s t) (x : Session.Effect) :
    Alike n (x.apply s) (x.apply t) := by
  cases x with
  | edit i e =>
    refine ⟨h.metadata, fun j hj => ?_⟩
    show ((s.modifyFinding i e.apply).finding j).unsettled =
      ((t.modifyFinding i e.apply).finding j).unsettled
    rw [finding_modifyFinding, finding_modifyFinding]
    split
    · rw [Session.unsettled_apply, Session.unsettled_apply, h.finding j hj]
    · exact h.finding j hj
  | assign m field text =>
    refine ⟨?_, h.finding⟩
    show (s.modifyMetadata m _).metadata = (t.modifyMetadata m _).metadata
    simp only [modifyMetadata, setMetadata, h.metadata]

theorem Alike.write {n : Nat} {s t : Store} (h : Alike n s t) (xs : List Session.Effect) :
    Alike n (s.write xs) (t.write xs) := by
  induction xs generalizing s t with
  | nil => exact h
  | cons x xs ih => exact ih (h.apply x)

theorem alike_settleAll (n : Nat) (s : Store) (is : List Nat) : Alike n (s.settleAll is) s := by
  refine ⟨?_, fun h _ => ?_⟩
  · induction is generalizing s with
    | nil => rfl
    | cons i is ih => exact ih (s.settle i)
  · rw [finding_settleAll]
    split <;> rfl

end Store

namespace Session

theorem withReport_of_some {s : Session} {i : Int} {j : Nat} {r : Held}
    (h : Position.item? s.current i = some (j, r)) (act : Nat → Held → Outcome) :
    s.withReport i act = act j r := by
  obtain ⟨hj, hr⟩ := Position.item?_eq_some_iff.1 h
  exact withReport_of_resolve hj hr act

theorem withReport_of_none {s : Session} {i : Int} (h : Position.item? s.current i = none)
    (act : Nat → Held → Outcome) : s.withReport i act = (s, .error .noSuchPosition) := by
  rcases s.withReport_cases i act with hs | ⟨j, r, hj, hr, -⟩
  · exact hs
  · rw [Position.item?_eq_some_iff.2 ⟨hj, hr⟩] at h
    cases h

theorem withFinding_of_some {r : Held} {k : Int} {n h : Nat}
    (hk : Position.item? r.findings k = some (n, h)) (s : Session) (act : Nat → Nat → Outcome) :
    s.withFinding r k act = act n h := by
  obtain ⟨hn, hh⟩ := Position.item?_eq_some_iff.1 hk
  exact withFinding_of_resolve hn hh act

theorem withFinding_of_none {r : Held} {k : Int} (hk : Position.item? r.findings k = none)
    (s : Session) (act : Nat → Nat → Outcome) :
    s.withFinding r k act = (s, .error .noSuchPosition) := by
  rcases s.withFinding_cases r k act with hs | ⟨n, h, hn, hh, -⟩
  · exact hs
  · rw [Position.item?_eq_some_iff.2 ⟨hn, hh⟩] at hk
    cases hk

def Step.writes : Step → Bool
  | .edit .. | .assignMetadata .. => true
  | _ => false

theorem step_of_writes (s : Session) {st : Step} (h : st.writes) :
    (s.step st).1 = { s with store := s.store.write (s.effect? st).toList } := by
  cases st with
  | edit i k e =>
    rw [step, effect?]
    cases hr : Position.item? s.current i with
    | none =>
      rw [withReport_of_none hr]
      rfl
    | some jr =>
      rw [withReport_of_some hr]
      cases hk : Position.item? jr.2.findings k with
      | none =>
        rw [withFinding_of_none hk]
        simp [hk]
        rfl
      | some nh =>
        rw [withFinding_of_some hk]
        simp [hk]
        rfl
  | assignMetadata i field t =>
    rw [step, effect?]
    cases hr : Position.item? s.current i with
    | none =>
      rw [withReport_of_none hr]
      rfl
    | some jr =>
      rw [withReport_of_some hr]
      rfl
  | _ => cases h

theorem effect?_eq_none (s : Session) {st : Step} (h : ¬ st.writes) : s.effect? st = none := by
  cases st with
  | edit | assignMetadata => exact absurd rfl h
  | _ => rfl

theorem alike_of_change {s s' : Session} {st : Step} (hc : s.Change st s') (h : ¬ st.writes) :
    s'.store.Alike s.store.nextFinding s.store := by
  cases hc with
  | same | filter | unfilter | remove => exact .refl _ _
  | json | text | view => exact Store.alike_settleAll _ _ _
  | identity => exact Store.alike_settleAll _ _ [_]
  | append i hr hf =>
    exact ⟨rfl, fun h hh => congrArg Finding.unsettled (Store.finding_addFinding_of_lt _ _ hh)⟩
  | edit | assignMetadata => exact absurd rfl h

theorem alike_step (s : Session) (st : Step) :
    (s.step st).1.store.Alike s.store.nextFinding (s.store.write (s.effect? st).toList) := by
  by_cases h : st.writes
  · rw [step_of_writes s h]
    exact .refl _ _
  · rw [effect?_eq_none s h]
    exact alike_of_change (s.change_step st) h

theorem alike_after (s : Session) (steps : List Step) :
    (s.after steps).store.Alike s.store.nextFinding (s.store.write (s.effects steps)) := by
  induction steps generalizing s with
  | nil => exact .refl _ _
  | cons st sts ih =>
    have hrest := (ih (s.step st).1).mono (nextFinding_le_of_change (s.change_step st))
    have hfirst := (s.alike_step st).write ((s.step st).1.effects sts)
    rw [after_cons, effects, Store.write_append]
    exact hrest.trans hfirst

end Session

end PolicyAudit
