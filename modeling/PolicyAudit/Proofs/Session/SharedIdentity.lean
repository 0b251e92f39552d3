import PolicyAudit.Proofs.Report.Lines
import PolicyAudit.Proofs.Report.Payload
import PolicyAudit.Proofs.Session.Change

/-! Identities of findings that several reports share.
A position of the current list is a report and a finding in it; `Shows` says which identity an
answer shows there, `Reads` which positions a step shows. A showing settles the identity in the
store (`settled_of_reads`), and what is settled stays (`settled_after`), whatever happens to the
stack of lists. -/

namespace PolicyAudit.Session

def heldAt? (s : Session) (j k : Nat) : Option Nat := s.current[j]?.bind (·.findings[k]?)

def Reads (s : Session) (j k : Nat) : Step → Prop
  | .view p => Position.resolve? p s.current.length = some j
  | .identity p q =>
    Position.resolve? p s.current.length = some j ∧
    ∃ r, s.current[j]? = some r ∧ Position.resolve? q r.findings.length = some k
  | .json => True
  | .text => ∃ a, (s.step .text).2 = .ok a
  | _ => False

/-- The answer of a step shows an identity at a position: in a view, as the answer itself, under
`id` in a payload or in the finding's line of a text. -/
inductive Shows (s : Session) (j k : Nat) : Step → String → Prop
  | view {p : Int} {a : Audit} {f : Finding}
      (hp : Position.resolve? p s.current.length = some j)
      (ha : (s.step (.view p)).2 = .ok (.view a)) (hf : a.findings[k]? = some f) :
      Shows s j k (.view p) f.identity
  | identity {p q : Int} {r : Held} {i : String}
      (hp : Position.resolve? p s.current.length = some j) (hr : s.current[j]? = some r)
      (hq : Position.resolve? q r.findings.length = some k)
      (ha : (s.step (.identity p q)).2 = .ok (.text i)) : Shows s j k (.identity p q) i
  | json {vs ws : List Value} {v w : Value} {i : String}
      (ha : (s.step .json).2 = .ok (.text (Json.toText (.list vs))))
      (hvs : vs = s.audits.map Report.payload) (hv : vs[j]? = some v)
      (hws : v.get? "results" = some (.list ws)) (hw : ws[k]? = some w)
      (hi : w.get? "id" = some (.text i)) : Shows s j k .json i
  | text {ls : List String} {r : Audit} {f : Finding} {i : String}
      (ha : (s.step .text).2 = .ok (.text ("\n".intercalate ls)))
      (hls : Report.lines s.audits = .ok ls) (hr : s.audits[j]? = some r)
      (hf : r.findings[k]? = some f)
      (hl : ls[((s.audits.take j).map (·.findings.length + 1)).sum + 1 + k]? =
        some (Report.lineHead f ++ i ++ Report.lineTail f)) : Shows s j k .text i

theorem heldAt?_eq_some_iff {s : Session} {j k h : Nat} :
    s.heldAt? j k = some h ↔ ∃ r, s.current[j]? = some r ∧ r.findings[k]? = some h :=
  Option.bind_eq_some_iff

theorem step_view {s : Session} {p : Int} {j : Nat} {r : Held}
    (hp : Position.resolve? p s.current.length = some j) (hr : s.current[j]? = some r) :
    s.step (.view p) =
      ({ s with store := s.store.settleAll r.findings }, .ok (.view (s.store.audit r))) := by
  rw [step, withReport_of_resolve hp hr]

theorem step_identity {s : Session} {p q : Int} {j k h : Nat} {r : Held}
    (hp : Position.resolve? p s.current.length = some j) (hr : s.current[j]? = some r)
    (hq : Position.resolve? q r.findings.length = some k) (hh : r.findings[k]? = some h) :
    s.step (.identity p q) =
      ({ s with store := s.store.settle h }, .ok (.text (s.store.finding h).identity)) := by
  rw [step, withReport_of_resolve hp hr, withFinding_of_resolve hq hh]

theorem getElem?_audits {s : Session} {j : Nat} {r : Held} (hr : s.current[j]? = some r) :
    s.audits[j]? = some (s.store.audit r) := by
  rw [audits, List.getElem?_map, hr]
  rfl

theorem getElem?_findings_audit (s : Store) {r : Held} {k h : Nat} (hh : r.findings[k]? = some h) :
    (s.audit r).findings[k]? = some (s.finding h) := by
  show (r.findings.map s.finding)[k]? = _
  rw [List.getElem?_map, hh]
  rfl

theorem lines_of_text {s : Session} {a : Answer} (ha : (s.step .text).2 = .ok a) :
    Report.lines s.audits = .ok (s.audits.flatMap Report.block) ∧
    a = .text ("\n".intercalate (s.audits.flatMap Report.block)) ∧
    ∀ h ∈ s.listed, Report.hasLine (s.store.finding h) := by
  simp only [step, Report.toText] at ha
  cases hl : Report.lines s.audits with
  | error e => simp [hl, Functor.map, Except.map] at ha
  | ok ls =>
    obtain ⟨hall, rfl⟩ := (Report.lines_eq_ok_iff _ _).1 hl
    refine ⟨rfl, by simpa [hl, Functor.map, Except.map] using ha.symm, ?_⟩
    intro h hh
    obtain ⟨r, hr, hh⟩ := List.mem_flatMap.1 hh
    exact hall _ (List.mem_map_of_mem hr) _ (List.mem_map_of_mem hh)

theorem reached_eq_self {shows : ε → Bool} {fs : List ε} (h : ∀ f ∈ fs, shows f) :
    Report.reached shows fs = fs := by
  induction fs with
  | nil => rfl
  | cons f fs ih =>
    rw [List.forall_mem_cons] at h
    rw [Report.reached, if_pos h.1, ih h.2]

theorem mem_listed {s : Session} {j k h : Nat} (hh : s.heldAt? j k = some h) : h ∈ s.listed := by
  obtain ⟨r, hr, hk⟩ := heldAt?_eq_some_iff.1 hh
  exact List.mem_flatMap.2 ⟨r, List.mem_of_getElem? hr, List.mem_of_getElem? hk⟩

theorem get?_payload_results (r : Audit) :
    (Report.payload r).get? "results" = some (.list (r.findings.map Finding.payload)) :=
  Form.get?_fields _ _

theorem Shows.eq_identity {s : Session} {j k h : Nat} (hh : s.heldAt? j k = some h) {st : Step}
    {i : String} (hs : s.Shows j k st i) :
    s.Reads j k st ∧ i = (s.store.finding h).identity := by
  obtain ⟨r, hr, hk⟩ := heldAt?_eq_some_iff.1 hh
  have hf := getElem?_findings_audit s.store hk
  cases hs with
  | view hp ha hf' =>
    rw [step_view hp hr] at ha
    cases ha
    rw [hf] at hf'
    cases hf'
    exact ⟨hp, rfl⟩
  | identity hp hr' hq ha =>
    rw [hr] at hr'
    cases hr'
    rw [step_identity hp hr hq hk] at ha
    cases ha
    exact ⟨⟨hp, r, hr, hq⟩, rfl⟩
  | json ha hvs hv hws hw hi =>
    rw [hvs, List.getElem?_map, getElem?_audits hr] at hv
    cases hv
    rw [get?_payload_results] at hws
    cases hws
    rw [List.getElem?_map, hf] at hw
    cases hw
    rw [Finding.get?_payload_id] at hi
    cases hi
    exact ⟨trivial, rfl⟩
  | text ha hls hr' hf' hl =>
    obtain ⟨hlines, -, -⟩ := lines_of_text ha
    rw [hls] at hlines
    cases hlines
    rw [getElem?_audits hr] at hr'
    cases hr'
    rw [hf] at hf'
    cases hf'
    rw [Report.getElem?_flatMap_block (getElem?_audits hr) hf, Report.line] at hl
    have hline := Option.some.inj hl
    rw [String.append_left_inj, String.append_right_inj] at hline
    exact ⟨⟨_, ha⟩, hline.symm⟩

theorem Reads.shows {s : Session} {j k h : Nat} (hh : s.heldAt? j k = some h) {st : Step}
    (hst : s.Reads j k st) : s.Shows j k st (s.store.finding h).identity := by
  obtain ⟨r, hr, hk⟩ := heldAt?_eq_some_iff.1 hh
  have hf := getElem?_findings_audit s.store hk
  cases st with
  | view p => exact .view hst (by rw [step_view hst hr]) hf
  | identity p q =>
    obtain ⟨hp, r', hr', hq⟩ := hst
    rw [hr] at hr'
    cases hr'
    exact .identity hp hr hq (by rw [step_identity hp hr hq hk])
  | json =>
    refine .json rfl rfl ?_ (get?_payload_results (s.store.audit r)) ?_
      (Finding.get?_payload_id (s.store.finding h))
    · rw [List.getElem?_map, getElem?_audits hr]
      rfl
    · rw [List.getElem?_map, hf]
      rfl
  | text =>
    obtain ⟨a, ha⟩ := hst
    obtain ⟨hls, rfl, -⟩ := lines_of_text ha
    exact .text ha hls (getElem?_audits hr) hf
      (Report.getElem?_flatMap_block (getElem?_audits hr) hf)
  | _ => exact hst.elim

theorem shows_iff {s : Session} {j k h : Nat} (hh : s.heldAt? j k = some h) (st : Step)
    (i : String) :
    s.Shows j k st i ↔ s.Reads j k st ∧ i = (s.store.finding h).identity := by
  refine ⟨Shows.eq_identity hh, ?_⟩
  rintro ⟨hst, rfl⟩
  exact Reads.shows hh hst

theorem settled_of_reads {s : Session} {j k h : Nat} (hh : s.heldAt? j k = some h) {st : Step}
    (hst : s.Reads j k st) :
    ((s.step st).1.store.finding h).settled = some (s.store.finding h).identity := by
  obtain ⟨r, hr, hk⟩ := heldAt?_eq_some_iff.1 hh
  cases st with
  | view p =>
    rw [step_view hst hr]
    show ((s.store.settleAll r.findings).finding h).settled = _
    rw [Store.finding_settleAll, if_pos (List.mem_of_getElem? hk)]
    rfl
  | identity p q =>
    obtain ⟨hp, r', hr', hq⟩ := hst
    rw [hr] at hr'
    cases hr'
    rw [step_identity hp hr hq hk]
    show ((s.store.setFinding h _).finding h).settled = _
    rw [Store.finding_setFinding_self]
    rfl
  | json =>
    show ((s.store.settleAll s.listed).finding h).settled = _
    rw [Store.finding_settleAll, if_pos (mem_listed hh)]
    rfl
  | text =>
    obtain ⟨a, ha⟩ := hst
    obtain ⟨-, -, hall⟩ := lines_of_text ha
    show ((s.store.settleAll (Report.reached _ s.listed)).finding h).settled = _
    rw [reached_eq_self hall, Store.finding_settleAll, if_pos (mem_listed hh)]
    rfl
  | _ => exact hst.elim

theorem settled_apply (e : Edit) (f : Finding) : (e.apply f).settled = f.settled := by
  cases e with
  | assign field t => cases field <;> rfl
  | prioritise p => rfl
  | setProperty k v => rfl

theorem settled_of_change {s s' : Session} {st : Step} (hc : s.Change st s') {h : Nat} {i : String}
    (hlt : h < s.store.nextFinding) (hi : (s.store.finding h).settled = some i) :
    (s'.store.finding h).settled = some i := by
  have hsettle : (s.store.finding h).settle.settled = some i := by
    simp [Finding.settle, Finding.identity, hi]
  have hall : ∀ is, ((s.store.settleAll is).finding h).settled = some i := fun is => by
    rw [Store.finding_settleAll]
    split
    · exact hsettle
    · exact hi
  cases hc with
  | same | filter | unfilter | remove | assignMetadata => exact hi
  | json | text | view => exact hall _
  | identity => exact hall [_]
  | append p hj hf =>
    show ((s.store.addFinding _).1.finding h).settled = _
    rw [Store.finding_addFinding_of_lt _ _ hlt, hi]
  | edit p q e hr hh =>
    show ((s.store.modifyFinding _ e.apply).finding h).settled = _
    rw [Store.finding_modifyFinding]
    split
    · rw [settled_apply, hi]
    · exact hi

theorem settled_after {s : Session} {h : Nat} {i : String} (hlt : h < s.store.nextFinding)
    (hi : (s.store.finding h).settled = some i) (steps : List Step) :
    ((s.after steps).store.finding h).settled = some i := by
  induction steps generalizing s with
  | nil => exact hi
  | cons st sts ih =>
    have hc := s.change_step st
    exact ih (Nat.lt_of_lt_of_le hlt (nextFinding_le_of_change hc)) (settled_of_change hc hlt hi)

/-- Once shown at any position of any list, an identity is what every later reading shows for that
finding, at every position of every list that holds it. Filtering and going back leave all
findings as they are, settled or not. -/
theorem shown_identity_is_shared (rs : List Audit) (before between : List Step) {s s' : Session}
    {st : Step} {j k h : Nat} {i : String} (hs : s = (start rs).after before)
    (hs' : s' = (s.step st).1.after between) (hheld : s.heldAt? j k = some h)
    (hshown : s.Shows j k st i) :
    (∀ j' k' st', s'.heldAt? j' k' = some h → s'.Reads j' k' st' →
      ∀ i', s'.Shows j' k' st' i' ↔ i' = i) ∧
    (∀ level ∈ s'.levels, ∀ r : Held, r ∈ level → ∀ k' : Nat, r.findings[k']? = some h →
      (s'.store.audit r).findings[k']?.map Finding.identity = some i) ∧
    (∀ (t : Session) (c : Criteria),
      (t.step (.filter c)).1.store = t.store ∧ (t.step .unfilter).1.store = t.store) := by
  obtain ⟨hreads, rfl⟩ := (shows_iff hheld st i).1 hshown
  have hlt : h < s.store.nextFinding := by
    obtain ⟨r, hr, hk⟩ := heldAt?_eq_some_iff.1 hheld
    have hb := hs ▸ bounded_after_start rs before
    exact (hb _ List.mem_cons_self r (List.mem_of_getElem? hr)).2 h (List.mem_of_getElem? hk)
  have hidentity : (s'.store.finding h).identity = (s.store.finding h).identity := by
    have hlt' : h < (s.step st).1.store.nextFinding :=
      Nat.lt_of_lt_of_le hlt (nextFinding_le_of_change (s.change_step st))
    rw [hs', Finding.identity, settled_after hlt' (settled_of_reads hheld hreads)]
    rfl
  refine ⟨?_, ?_, ?_⟩
  · intro j' k' st' hheld' hreads' i'
    rw [shows_iff hheld', hidentity]
    exact ⟨fun h => h.2, fun h => ⟨hreads', h⟩⟩
  · intro level _ r _ k' hk'
    rw [getElem?_findings_audit _ hk', Option.map_some, hidentity]
  · intro t c
    refine ⟨rfl, ?_⟩
    simp only [step]
    split <;> rfl

/-- Shown in a narrowed list, then given another `resultID` there: the list below shows the same. -/
theorem identity_shown_above_holds_below :
    let r : Audit := ⟨.namespaced, "v1", { name := some "r" }, none, none, .zero,
      [{ policy := some "p" }, { policy := some "q", priority := .error }]⟩
    let s := (start [r]).after [.filter ⟨.error, []⟩]
    let s' := (s.step (.view 0)).1.after
      [.edit 0 0 (.setProperty "resultID" "late"), .unfilter, .edit 0 1 (.assign .policy none)]
    s.heldAt? 0 0 = some 1 ∧ s.Shows 0 0 (.view 0) "12638204792741693372" ∧
    s'.heldAt? 0 1 = some 1 ∧ s'.Shows 0 1 (.identity (-1) (-1)) "12638204792741693372" := by
  intro r s s'
  have hs : s = (start [r]).after [.filter ⟨.error, []⟩] := rfl
  have hs' : s' = (s.step (.view 0)).1.after
    [.edit 0 0 (.setProperty "resultID" "late"), .unfilter, .edit 0 1 (.assign .policy none)] := rfl
  have hown : (s.store.finding 1).identity = "12638204792741693372" := by decide +kernel
  have hshown : s.Shows 0 0 (.view 0) (s.store.finding 1).identity := .view rfl rfl rfl
  have hheld : s'.heldAt? 0 1 = some 1 := by decide +kernel
  have hreads : s'.Reads 0 1 (.identity (-1) (-1)) :=
    ⟨by decide +kernel, ⟨.namespaced, "v1", 0, none, none, .zero, [0, 1]⟩, by decide +kernel,
      by decide +kernel⟩
  have hshared := (shown_identity_is_shared [r] _ _ hs hs' rfl hshown).1 0 1 _ hheld hreads
  rw [← hown]
  exact ⟨rfl, hshown, hheld, (hshared _).2 rfl⟩

end PolicyAudit.Session
