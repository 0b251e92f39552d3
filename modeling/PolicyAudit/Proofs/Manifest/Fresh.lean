import PolicyAudit.Manifest.Load
import PolicyAudit.Proofs.Json.Timely
import PolicyAudit.Proofs.Report.RoundTrip
import PolicyAudit.Proofs.Yaml.Timely

/-! Reports loaded from files.
Whatever a file holds, its documents hold no impossible moment, and so every report that is loaded
can be written and read again (`parse_write_of_load`). -/

namespace PolicyAudit.Manifest

theorem timely_documents {l : Location} {content : ByteArray} {vs : List Value}
    (h : documents l content = .ok vs) : ∀ v ∈ vs, v.Timely := by
  unfold documents at h
  split at h
  · cases h
  · dsimp only at h
    split at h
    · split at h
      · rename_i hread
        cases h
        exact List.forall_mem_singleton.2 (Json.timely_of_read? hread)
      · cases h
    · split at h
      · rename_i hread
        cases h
        exact fun v hv => Yaml.timely_of_documents hread v (List.mem_of_mem_filter hv)
      all_goals cases h

theorem timely_grouped {v : Value} {vs : List Value} (hv : v.Timely) (h : grouped v = .ok vs) :
    ∀ w ∈ vs, w.Timely := by
  unfold grouped at h
  split at h
  · cases h
    simp
  · split at h
    · cases h
      exact Value.timely_list.1 hv
    · cases h
      exact List.forall_mem_map.2 fun _ _ => Value.timely_text _
    · cases h
      exact List.forall_mem_map.2 fun _ _ => Value.timely_text _
    · cases h
      exact List.forall_mem_map.2 fun _ _ => Value.timely_int _
    · cases h

mutual

theorem timely_leaves {v : Value} (hv : v.Timely) :
    ∀ o ∈ leaves v, ∀ w, o = .ok w → w.Timely := by
  cases v with
  | list vs =>
    rw [leaves]
    exact timely_leavesOf (Value.timely_list.1 hv)
  | map es =>
    rw [leaves]
    split
    · exact timely_groupLeaves (Value.timely_map.1 hv)
    · rintro o ho w rfl
      cases List.mem_singleton.1 ho
      exact hv
  | _ =>
    rw [leaves]
    · rintro o ho w rfl
      cases List.mem_singleton.1 ho
      exact hv
    all_goals nofun

theorem timely_leavesOf {vs : List Value} (hvs : ∀ v ∈ vs, v.Timely) :
    ∀ o ∈ leavesOf vs, ∀ w, o = .ok w → w.Timely := by
  cases vs with
  | nil => simp [leavesOf]
  | cons v vs =>
    rw [List.forall_mem_cons] at hvs
    rw [leavesOf]
    exact List.forall_mem_append.2 ⟨timely_leaves hvs.1, timely_leavesOf hvs.2⟩

theorem timely_groupLeaves {es : Entries} (hes : ∀ e ∈ es, e.2.Timely) :
    ∀ o ∈ groupLeaves es, ∀ w, o = .ok w → w.Timely := by
  cases es with
  | nil => simp [groupLeaves]
  | cons e es =>
    obtain ⟨k, v⟩ := e
    rw [List.forall_mem_cons] at hes
    unfold groupLeaves
    split
    · cases v with
      | list vs => exact timely_leavesOf (Value.timely_list.1 hes.1)
      | _ =>
        rintro o ho w rfl
        dsimp only at ho
        split at ho
        · rename_i hvs
          obtain ⟨_, hw, ⟨⟩⟩ := List.mem_map.1 ho
          exact timely_grouped hes.1 hvs w hw
        · cases List.mem_singleton.1 ho
    · exact timely_groupLeaves hes.2

end

namespace Loading

def Fresh (m : Loading) : Prop := ∀ rs, m.result = .ok rs → ∀ r ∈ rs, Report.Fresh r

theorem fresh_of_result {m : Loading} {rs : List Audit} (hm : m.result = .ok rs)
    (h : ∀ r ∈ rs, Report.Fresh r) : m.Fresh := by
  intro rs' hrs
  cases hm.symm.trans hrs
  exact h

theorem fresh_empty : empty.Fresh := fresh_of_result rfl (by simp)

theorem fresh_failed (f : Failure) : (failed f).Fresh := nofun

theorem Fresh.append {l m : Loading} (hl : l.Fresh) (hm : m.Fresh) : (l.append m).Fresh := by
  intro rs h
  obtain ⟨log, result⟩ := l
  obtain ⟨log', result'⟩ := m
  cases result with
  | error f => cases h
  | ok ls =>
    cases result' with
    | error f => cases h
    | ok ms =>
      cases h
      exact List.forall_mem_append.2 ⟨hl ls rfl, hm ms rfl⟩

end Loading

theorem fresh_loadDocument (path : String) {doc : Value} (hdoc : doc.Timely) :
    (loadDocument path doc).Fresh := by
  unfold loadDocument
  split
  · exact Loading.fresh_failed _
  · exact Loading.fresh_empty
  · split
    · rename_i h
      exact Loading.fresh_of_result rfl
        (List.forall_mem_singleton.2 (Report.fresh_of_ofValue hdoc h).1)
    · exact Loading.fresh_of_result rfl (by simp)

theorem fresh_loadLeaves (path : String) {os : List (Except Failure Value)}
    (hos : ∀ o ∈ os, ∀ w, o = .ok w → w.Timely) : (loadLeaves path os).Fresh := by
  induction os with
  | nil => exact Loading.fresh_empty
  | cons o os ih =>
    rw [List.forall_mem_cons] at hos
    cases o with
    | error f => exact Loading.fresh_failed f
    | ok doc =>
      have hdoc := fresh_loadDocument path (hos.1 doc rfl)
      simp only [loadLeaves]
      split
      · exact hdoc
      · exact hdoc.append (ih hos.2)

theorem fresh_loadFile (l : Location) (e : Entry) : (loadFile l e).Fresh := by
  unfold loadFile
  split
  · split
    · exact Loading.fresh_failed _
    · rename_i vs hvs
      have hread : (loadLeaves l.text (vs.flatMap leaves)).Fresh :=
        fresh_loadLeaves l.text (List.forall_mem_flatMap.2 fun v hv =>
          timely_leaves (timely_documents hvs v hv))
      dsimp only
      split
      · exact hread
      · exact hread.append (Loading.fresh_of_result rfl (by simp))
  · exact Loading.fresh_failed _

theorem fresh_loadFiles (files : List (Location × Entry)) : (loadFiles files).Fresh := by
  induction files with
  | nil => exact Loading.fresh_empty
  | cons file files ih =>
    obtain ⟨l, e⟩ := file
    have hfile := fresh_loadFile l e
    simp only [loadFiles]
    split
    · exact hfile
    · exact hfile.append ih

theorem fresh_load (t : Tree) (path : String) : (load t path).Fresh := by
  simp only [load]
  split
  · exact Loading.fresh_failed _
  · exact fresh_loadFiles _

/-- Every report that is loaded from files is read again from both of its written forms. -/
theorem parse_write_of_load {t : Tree} {path : String} {rs : List Audit}
    (h : (load t path).result = .ok rs) (form : Form) :
    ∀ r ∈ rs, Report.parse (form.write (Report.toValue r)) = .ok (Report.rederived r) :=
  fun r hr => Report.parse_write (fresh_load t path rs h r hr) form

end PolicyAudit.Manifest
