import PolicyAudit.Proofs.Session.Edits
import PolicyAudit.Proofs.Session.Effects
import PolicyAudit.Proofs.Session.Nesting

/-! What reports share and what they have for themselves.
A report has its list of findings for itself: an append or a removal changes this list and nothing
that another report shows. Findings and metadata are shared: an edit shows wherever they are
referred to and nowhere else, and changes one value only (`Metadata.Assigned`, `Edit.Sets`). So
undoing a filtering brings back the lists as they were, with findings and metadata as they are
now. -/

namespace PolicyAudit

def Report.unsettled (r : Audit) : Audit := r.mapBoth (fun m => m) Finding.unsettled

namespace Store

theorem audit_congr {s t : Store} {r : Held} (hm : s.metadata = t.metadata)
    (hf : ∀ h ∈ r.findings, s.finding h = t.finding h) : s.audit r = t.audit r := by
  unfold audit Report.mapBoth
  rw [hm, List.map_congr_left hf]

theorem Alike.unsettled_audit {n : Nat} {s t : Store} (h : Alike n s t) {r : Held}
    (hr : ∀ i ∈ r.findings, i < n) : (s.audit r).unsettled = (t.audit r).unsettled := by
  have hfindings : (r.findings.map s.finding).map Finding.unsettled =
      (r.findings.map t.finding).map Finding.unsettled := by
    rw [List.map_map, List.map_map]
    exact List.map_congr_left fun i hi => h.finding i (hr i hi)
  unfold Report.unsettled audit Report.mapBoth
  simp only [h.metadata, hfindings]

theorem audit_addFinding {s : Store} {r : Held} (hr : s.Holds r) (f : Finding) :
    (s.addFinding f).1.audit r = s.audit r :=
  audit_congr rfl fun _ hh => finding_addFinding_of_lt s f (hr.2 _ hh)

theorem audit_modifyFinding (s : Store) (h : Nat) (f : Finding → Finding) (r : Held) :
    (s.modifyFinding h f).audit r =
      r.mapBoth s.metadata fun h' => if h' = h then f (s.finding h) else s.finding h' := by
  have hfinding : (s.modifyFinding h f).finding =
      fun h' => if h' = h then f (s.finding h) else s.finding h' := by
    funext h'
    rw [finding_modifyFinding]
    split <;> simp_all
  rw [audit, hfinding]
  rfl

theorem audit_modifyFinding_of_not_mem (s : Store) {h : Nat} (f : Finding → Finding) {r : Held}
    (hr : h ∉ r.findings) : (s.modifyFinding h f).audit r = s.audit r :=
  audit_congr rfl fun _ hh => finding_setFinding_ne _ _ (ne_of_mem_of_not_mem hh hr)

theorem metadata_modifyMetadata (s : Store) (m : Nat) (f : Metadata → Metadata) (k : Nat) :
    (s.modifyMetadata m f).metadata k = if k = m then f (s.metadata m) else s.metadata k := rfl

theorem audit_modifyMetadata (s : Store) (m : Nat) (f : Metadata → Metadata) (r : Held) :
    (s.modifyMetadata m f).audit r =
      if r.metadata = m then { s.audit r with metadata := f (s.metadata m) } else s.audit r := by
  unfold audit Report.mapBoth modifyMetadata setMetadata
  split <;> simp_all

end Store

namespace Session

def OnStack (s : Session) (r : Held) : Prop := ∃ level ∈ s.levels, r ∈ level

def Step.relists? : Step → Option Int
  | .append i _ | .remove i _ => some i
  | _ => none

theorem step_append {s : Session} {i : Int} {j : Nat} {r : Held} {doc : Value} {f : Finding}
    (hr : Position.item? s.current i = some (j, r)) (hf : Finding.ofValue doc = .accepted f) :
    let r' : Held := { r with findings := r.findings ++ [s.store.nextFinding] }
    s.step (.append i doc) =
      edited { s with store := (s.store.addFinding f).1, current := s.current.set j r' } r' := by
  rw [step, withReport_of_some hr, hf]
  rfl

theorem step_remove {s : Session} {i k : Int} {j n h : Nat} {r : Held}
    (hr : Position.item? s.current i = some (j, r))
    (hk : Position.item? r.findings k = some (n, h)) :
    let r' : Held := { r with findings := r.findings.eraseIdx n }
    s.step (.remove i k) = edited { s with current := s.current.set j r' } r' := by
  rw [step, withReport_of_some hr, withFinding_of_some hk]
  rfl

theorem step_relists_cases (s : Session) {st : Step} {i : Int} (h : st.relists? = some i) :
    (∃ e, s.step st = (s, .error e)) ∨ ∃ j r fs store, Position.item? s.current i = some (j, r) ∧
      (store = s.store ∨ ∃ f, store = (s.store.addFinding f).1) ∧
      s.step st = edited { s with store, current := s.current.set j { r with findings := fs } }
        { r with findings := fs } := by
  cases st with
  | append p doc =>
    cases h
    cases hr : Position.item? s.current i with
    | none => exact .inl ⟨_, by rw [step, withReport_of_none hr]⟩
    | some jr =>
      obtain ⟨j, r⟩ := jr
      cases hf : Finding.ofValue doc with
      | accepted f => exact .inr ⟨j, r, _, _, rfl, .inr ⟨f, rfl⟩, step_append hr hf⟩
      | rejected is => exact .inl ⟨_, by rw [step, withReport_of_some hr, hf]⟩
  | remove p k =>
    cases h
    cases hr : Position.item? s.current i with
    | none => exact .inl ⟨_, by rw [step, withReport_of_none hr]⟩
    | some jr =>
      obtain ⟨j, r⟩ := jr
      cases hk : Position.item? r.findings k with
      | none => exact .inl ⟨_, by rw [step, withReport_of_some hr, withFinding_of_none hk]⟩
      | some nh => exact .inr ⟨j, r, _, _, rfl, .inl rfl, step_remove hr hk⟩
  | _ => cases h

theorem step_edit {s : Session} {i k : Int} {j n h : Nat} {r : Held} (e : Edit)
    (hr : Position.item? s.current i = some (j, r))
    (hk : Position.item? r.findings k = some (n, h)) :
    (s.step (.edit i k e)).1 = { s with store := s.store.modifyFinding h e.apply } := by
  rw [step, withReport_of_some hr, withFinding_of_some hk]
  rfl

theorem step_assignMetadata {s : Session} {i : Int} {j : Nat} {r : Held}
    (field : Metadata.TextField) (t : Option String)
    (hr : Position.item? s.current i = some (j, r)) :
    (s.step (.assignMetadata i field t)).1 =
      { s with store := s.store.modifyMetadata r.metadata (·.assign field t) } := by
  rw [step, withReport_of_some hr]
  rfl

theorem audit_step_relists {s : Session} (hs : s.Bounded) {st : Step} {i : Int}
    (h : st.relists? = some i) {r : Held} (hr : s.OnStack r) :
    (s.step st).1.store.audit r = s.store.audit r := by
  obtain ⟨level, hlevel, hmem⟩ := hr
  have hholds := hs level hlevel r hmem
  rcases s.step_relists_cases h with ⟨e, hst⟩ | ⟨j, _, fs, store, -, hstore, hst⟩
  · rw [hst]
  rw [hst]
  rcases hstore with rfl | ⟨f, rfl⟩
  · rfl
  · exact Store.audit_addFinding hholds f

theorem lists_step_relists (s : Session) {st : Step} {i : Int} (h : st.relists? = some i) :
    (s.step st).1.below = s.below ∧ (s.step st).1.current.length = s.current.length ∧
    (∀ j, Position.resolve? i s.current.length ≠ some j →
      (s.step st).1.current[j]? = s.current[j]?) ∧
    ∀ e, (s.step st).2 = .error e → (s.step st).1 = s := by
  rcases s.step_relists_cases h with ⟨e, hst⟩ | ⟨j, r, fs, store, hr, -, hst⟩
  · rw [hst]
    exact ⟨rfl, rfl, fun _ _ => rfl, fun _ _ => rfl⟩
  rw [hst]
  refine ⟨rfl, List.length_set, fun j' hj' => List.getElem?_set_ne ?_, fun e he => ?_⟩
  · rintro rfl
    exact hj' (Position.item?_eq_some_iff.1 hr).1
  · cases he

theorem getElem?_set_item? {s : Session} {i : Int} {j : Nat} {r : Held}
    (hr : Position.item? s.current i = some (j, r)) (r' : Held) :
    (s.current.set j r')[j]? = some r' := by
  obtain ⟨-, hj⟩ := Position.item?_eq_some_iff.1 hr
  obtain ⟨hlt, -⟩ := List.getElem?_eq_some_iff.1 hj
  exact List.getElem?_set_self hlt

theorem step_unfilter_after (rs : List Audit) (steps : List Step) {under : List Held}
    {rest : List (List Held)} (h : ((start rs).after steps).below = under :: rest) :
    ∃ before c inner, steps = before ++ .filter c :: inner ∧ Balanced inner ∧
      let s₀ := (start rs).after before
      let s' := (((start rs).after steps).step .unfilter).1
      s'.levels = s₀.levels ∧ s'.store = ((start rs).after steps).store ∧
      ∀ r, s₀.OnStack r → (s'.store.audit r).unsettled =
        ((s₀.store.write (s₀.effects (.filter c :: inner))).audit r).unsettled := by
  have hstart : (start rs).below = [] := rfl
  obtain ⟨before, c, inner, rfl, hinner, -⟩ := exists_balanced hstart steps h
  refine ⟨before, c, inner, rfl, hinner, ?_⟩
  rw [after_append, step_unfilter_of_balanced hinner]
  refine ⟨rfl, rfl, ?_⟩
  rintro r ⟨level, hlevel, hr⟩
  have hholds := bounded_after_start rs before level hlevel r hr
  exact (alike_after _ (.filter c :: inner)).unsettled_audit hholds.2

/-- An append or a removal changes the findings of one report and nothing that is shown of another
one on any level. An edit shows in every report that lists the finding, an assignment in every
report with the metadata, and in no other. A narrowed list refers to what the list below refers to,
so undoing the filtering brings that list back and shows all that has been written since. -/
theorem edits_shared_and_lists_apart (rs : List Audit) (steps : List Step) :
    let s := (start rs).after steps
    (∀ st i, st.relists? = some i →
      let s' := (s.step st).1
      s'.below = s.below ∧ s'.current.length = s.current.length ∧
      (∀ j, Position.resolve? i s.current.length ≠ some j → s'.current[j]? = s.current[j]?) ∧
      (∀ r, s.OnStack r → s'.store.audit r = s.store.audit r) ∧
      ∀ e, (s.step st).2 = .error e → s' = s) ∧
    (∀ i j r, Position.item? s.current i = some (j, r) →
      (∀ doc f, Finding.ofValue doc = .accepted f →
        let s' := (s.step (.append i doc)).1
        s'.current[j]? = some { r with findings := r.findings ++ [s.store.nextFinding] } ∧
        s'.store.finding s.store.nextFinding = f) ∧
      ∀ k n h, Position.item? r.findings k = some (n, h) →
        (s.step (.remove i k)).1.current[j]? = some { r with findings := r.findings.eraseIdx n }) ∧
    (∀ i k e j r n h, Position.item? s.current i = some (j, r) →
      Position.item? r.findings k = some (n, h) →
      let s' := (s.step (.edit i k e)).1
      s'.levels = s.levels ∧ e.Sets (s.store.finding h) (s'.store.finding h) ∧ ∀ r' : Held,
        s'.store.audit r' = r'.mapBoth s.store.metadata (fun h' =>
          if h' = h then e.apply (s.store.finding h) else s.store.finding h') ∧
        (h ∉ r'.findings → s'.store.audit r' = s.store.audit r')) ∧
    (∀ i field t j r, Position.item? s.current i = some (j, r) →
      let s' := (s.step (.assignMetadata i field t)).1
      s'.levels = s.levels ∧
      Metadata.Assigned field t (s.store.metadata r.metadata) (s'.store.metadata r.metadata) ∧
      ∀ r' : Held, s'.store.audit r' =
        if r'.metadata = r.metadata then
          { s.store.audit r' with metadata := (s.store.metadata r.metadata).assign field t }
        else s.store.audit r') ∧
    (∀ c, let s' := (s.step (.filter c)).1
      s'.store = s.store ∧ s'.below = s.levels ∧ ∀ r' ∈ s'.current, ∃ r ∈ s.current,
        r' = { r with findings := r.findings.filter fun h => c.admits (s.store.finding h) }) ∧
    ∀ under rest, s.below = under :: rest →
      ∃ before c inner, steps = before ++ .filter c :: inner ∧ Balanced inner ∧
        let s₀ := (start rs).after before
        let s' := (s.step .unfilter).1
        s'.levels = s₀.levels ∧ s'.store = s.store ∧
        ∀ r, s₀.OnStack r → (s'.store.audit r).unsettled =
          ((s₀.store.write (s₀.effects (.filter c :: inner))).audit r).unsettled := by
  intro s
  refine ⟨?_, ?_, ?_, ?_, ?_, fun under rest => step_unfilter_after rs steps⟩
  · intro st i hst
    obtain ⟨hbelow, hlength, hother, hfailed⟩ := s.lists_step_relists hst
    exact ⟨hbelow, hlength, hother,
      fun r => audit_step_relists (bounded_after_start rs steps) hst, hfailed⟩
  · intro i j r hr
    refine ⟨fun doc f hf => ?_, fun k n h hk => ?_⟩
    · rw [step_append hr hf]
      exact ⟨getElem?_set_item? hr _, s.store.finding_setFinding_self _ f⟩
    · rw [step_remove hr hk]
      exact getElem?_set_item? hr _
  · intro i k e j r n h hr hk
    rw [step_edit e hr hk]
    refine ⟨rfl, ?_, fun r' => ⟨s.store.audit_modifyFinding h e.apply r',
      s.store.audit_modifyFinding_of_not_mem e.apply⟩⟩
    show e.Sets _ ((s.store.modifyFinding h e.apply).finding h)
    rw [Store.finding_modifyFinding, if_pos rfl]
    exact e.sets_apply _
  · intro i field t j r hr
    rw [step_assignMetadata field t hr]
    refine ⟨rfl, ?_, s.store.audit_modifyMetadata r.metadata _⟩
    show Metadata.Assigned field t _
      ((s.store.modifyMetadata r.metadata (·.assign field t)).metadata r.metadata)
    rw [Store.metadata_modifyMetadata, if_pos rfl]
    exact Metadata.assigned_assign _ field t
  · intro c
    rw [step_filter]
    refine ⟨rfl, rfl, fun r' hr' => ?_⟩
    obtain ⟨r, hr, hnarrow⟩ := List.mem_filterMap.1 hr'
    exact ⟨r, hr, Report.eq_of_narrow hnarrow⟩

/-- A list narrowed by nothing is still a list of its own: an append to it does not show below.
Each edit of a finding and each assignment to the metadata does, and leaves the other report as it
is; and the list below comes back. -/
theorem edits_shared_and_lists_apart_unnarrowed :
    let r : Audit := ⟨.namespaced, "v1", { name := some "r" }, none, none, .zero,
      [{ policy := some "p" }, { policy := some "q" }]⟩
    let other : Audit := ⟨.namespaced, "v1", { name := some "r" }, none, none, .zero,
      [{ policy := some "p" }]⟩
    let held : Held := ⟨.namespaced, "v1", 0, none, none, .zero, [0, 1]⟩
    let heldOther : Held := ⟨.namespaced, "v1", 1, none, none, .zero, [2]⟩
    let s := (start [r, other]).after [.filter ⟨.unset, []⟩]
    let below (st : Step) := [held, heldOther].map (s.step st).1.store.audit
    s.current = [held, heldOther] ∧ s.below = [[held, heldOther]] ∧
    below (.append 0 (.record [("policy", .text "new")])) = [r, other] ∧
    (s.step (.append 0 (.record [("policy", .text "new")]))).1.current[0]? =
      some { held with findings := [0, 1, 3] } ∧
    below (.edit 0 (-1) (.assign .message (some "m"))) =
      [{ r with findings := [{ policy := some "p" }, { policy := some "q", message := some "m" }] },
        other] ∧
    below (.edit 0 (-1) (.prioritise .error)) =
      [{ r with findings := [{ policy := some "p" }, { policy := some "q", priority := .error }] },
        other] ∧
    below (.edit 0 (-1) (.setProperty "k" "v")) =
      [{ r with findings := [{ policy := some "p" },
          { policy := some "q", properties := .ofList [("k", "v")] }] }, other] ∧
    below (.assignMetadata 0 .ns (some "n")) =
      [{ r with metadata := { name := some "r", ns := some "n" } }, other] ∧
    (s.step .unfilter).1.levels = [[held, heldOther]] := by
  intro r other held heldOther s below
  obtain ⟨hlocal, hlist, hedit, hassign, -, hunfilter⟩ :=
    edits_shared_and_lists_apart [r, other] [.filter ⟨.unset, []⟩]
  have hr : Position.item? s.current 0 = some (0, held) := rfl
  have hbelow (r' : Held) (hr' : r' ∈ [held, heldOther]) : s.OnStack r' :=
    ⟨_, List.mem_cons_self, hr'⟩
  have happend (r' : Held) (hr' : r' ∈ [held, heldOther]) :=
    (hlocal (.append 0 (.record [("policy", .text "new")])) 0 rfl).2.2.2.1 r' (hbelow r' hr')
  have hedited (e : Edit) (r' : Held) := ((hedit 0 (-1) e 0 held 1 1 hr rfl).2.2 r').1
  have hassigned := (hassign 0 .ns (some "n") 0 held hr).2.2
  refine ⟨rfl, rfl, ?_, ?_, ?_, ?_, ?_, ?_, ?_⟩
  · exact List.map_congr_left happend
  · exact ((hlist 0 0 held hr).1 _ _ rfl).1
  · exact List.map_congr_left fun r' _ => hedited (.assign .message (some "m")) r'
  · exact List.map_congr_left fun r' _ => hedited (.prioritise .error) r'
  · exact List.map_congr_left fun r' _ => hedited (.setProperty "k" "v") r'
  · exact List.map_congr_left fun r' _ => hassigned r'
  · obtain ⟨before, c, inner, hsteps, -, hlevels, -⟩ := hunfilter [held, heldOther] [] rfl
    cases before with
    | nil => exact hlevels
    | cons st before => simp at hsteps

end Session

end PolicyAudit
