import PolicyAudit.Command.Run

/-! What a run comes to by what it reads.
The reports read are narrowed down and written, and the run asks nothing more of the cluster. A
failure to read is told with nothing written, or it is the run's own. -/

namespace PolicyAudit.Command

def written (s : Settings) (kept : List Audit) : Except Failure Output :=
  (write s.format kept).map fun text => ⟨0, text ++ "\n", ""⟩

def told (f : Failure) : Output := ⟨1, "", "error: " ++ f.message ++ "\n"⟩

variable {s : Settings} {w : Surroundings}

theorem eq_of_written {kept : List Audit} {o : Output} (h : written s kept = .ok o) :
    o.status = 0 ∧ (s.format = .json → o.out = Report.toJson kept ++ "\n") := by
  unfold written at h
  cases htext : write s.format kept with
  | error e =>
    rw [htext] at h
    cases h
  | ok text =>
    rw [htext] at h
    cases h
    refine ⟨rfl, fun hformat => ?_⟩
    rw [hformat] at htext
    rw [← Except.ok.inj htext]

theorem calls_run : (run s w).calls = (read s w).calls := by
  unfold run finish
  dsimp only
  split <;> rfl

theorem result_run_of_read {rs : List Audit} (h : (read s w).result = .ok rs) :
    (run s w).result = written s (Report.narrowAll s.criteria.admits rs) := by
  simp only [run, finish, h, written]

theorem result_run_of_failure {f : Failure} (h : (read s w).result = .error f) :
    (run s w).result = if f.isTold then .ok (told f) else .error f := by
  simp only [run, finish, h, told]

section

variable {path : String} (hpath : s.path? = some path)

include hpath

theorem result_run_of_loaded {rs : List Audit} (h : (Manifest.load w.files path).result = .ok rs) :
    (run s w).result = written s (Report.narrowAll s.criteria.admits (s.chosen rs)) := by
  apply result_run_of_read
  simp only [read, hpath, h]

theorem result_run_of_load {f : Manifest.Failure}
    (h : (Manifest.load w.files path).result = .error f) :
    (run s w).result =
      if f.isReported then .ok (told (.manifests f)) else .error (.manifests f) := by
  have hread : (read s w).result = .error (.manifests f) := by simp only [read, hpath, h]
  exact result_run_of_failure hread

end

section

variable (hpath : s.path? = none)

include hpath

theorem calls_run_of_cluster :
    (run s w).calls = (Cluster.listAll s.skipClusterWide w.replies).calls := by
  rw [calls_run]
  simp only [read, hpath]

theorem result_run_of_listed {rs : List Audit}
    (h : (Cluster.listAll s.skipClusterWide w.replies).result = .ok rs) :
    (run s w).result = written s (Report.narrowAll s.criteria.admits rs) := by
  apply result_run_of_read
  simp only [read, hpath, h]

theorem result_run_of_refused {status : Int} {reason : Option String}
    (h : (Cluster.listAll s.skipClusterWide w.replies).result = .error (.refused status reason)) :
    (run s w).result = .ok (told (.cluster (.refused status reason))) := by
  have hread : (read s w).result = .error (.cluster (.refused status reason)) := by
    simp only [read, hpath, h]
  exact result_run_of_failure hread

end

end PolicyAudit.Command
