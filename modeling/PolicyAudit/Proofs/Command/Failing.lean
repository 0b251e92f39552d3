import PolicyAudit.Proofs.Command.Reading
import PolicyAudit.Proofs.Manifest.Outcome

/-! Runs that cannot load their manifests.
A failure that names a path is told, and the run ends with status 1. Nothing is told of a failure
at a defective file (`Manifest.Defective`): it is the run's own. -/

namespace PolicyAudit

namespace Manifest

theorem exists_unreported_iff {t : Tree} {path : String} :
    (∃ f, (load t path).result = .error f ∧ ¬ f.isReported) ↔
      ∃ before v after, filesAt t (Location.ofText path) = some (before ++ v :: after) ∧
        (∀ u ∈ before, Readable u) ∧ Defective v := by
  constructor
  · rintro ⟨f, h, hf⟩
    cases hfiles : filesAt t (Location.ofText path) with
    | none =>
      rw [load_of_filesAt_eq_none hfiles] at h
      obtain rfl := Except.error.inj h
      exact absurd rfl hf
    | some files =>
      rw [load_of_filesAt hfiles] at h
      obtain ⟨before, v, after, rfl, hbefore, hv⟩ := result_inTurn_reading_eq_error_iff.1 h
      exact ⟨before, v, after, rfl, hbefore, defective_of_not_isReported hv hf⟩
  · rintro ⟨before, v, after, hfiles, hbefore, hv⟩
    obtain ⟨f, hfails, hf⟩ := exists_failure_of_defective hv
    rw [load_of_filesAt hfiles]
    exact ⟨f, result_inTurn_reading_eq_error_iff.2 ⟨before, v, after, rfl, hbefore, hfails⟩, hf⟩

end Manifest

namespace Command

open Manifest

/-- Loading returns reports or fails with a path to name, and then the run ends with status 1,
except for one thing: the first file that is not used may be defective. -/
theorem load_told_iff_not_defective (t : Tree) (path : String) :
    (((∃ rs, (load t path).result = .ok rs) ∨
        ∃ f, (load t path).result = .error f ∧ f.isReported) ↔
      ¬ ∃ before v after, filesAt t (Location.ofText path) = some (before ++ v :: after) ∧
        (∀ u ∈ before, Readable u) ∧ Defective v) ∧
    ∀ (s : Settings) (w : Surroundings) (f : Manifest.Failure), s.path? = some path → w.files = t →
      (load t path).result = .error f →
      (run s w).result =
        if f.isReported then .ok ⟨1, "", "error: " ++ f.message ++ "\n"⟩
        else .error (.manifests f) := by
  constructor
  · rw [← exists_unreported_iff]
    cases h : (load t path).result with
    | ok rs => simp
    | error f => simp
  · rintro s w f hpath rfl h
    exact result_run_of_load hpath h

theorem load_told_iff_not_defective_of_byte :
    let t : Tree := [(["a.yaml"], .file ⟨#[0xff]⟩)]
    let s : Settings := { manifests := some "a.yaml" }
    (¬ ∃ rs, (load t "a.yaml").result = .ok rs) ∧
    (run s ⟨t, fun _ => []⟩).result = .error (.manifests .notText) ∧
    (run s ⟨[(["a.yaml"], .locked)], fun _ => []⟩).result =
      .ok ⟨1, "", "error: cannot read a.yaml\n"⟩ := by
  intro t s
  obtain ⟨htold, hrun⟩ := load_told_iff_not_defective t "a.yaml"
  have hdefective : Defective (Location.ofText "a.yaml", .file ⟨#[0xff]⟩) := .notText rfl
  refine ⟨fun hok => ?_, hrun s _ _ rfl rfl rfl, ?_⟩
  · exact htold.1 (.inl hok) ⟨[], _, [], rfl, by simp, hdefective⟩
  · exact (load_told_iff_not_defective [(["a.yaml"], .locked)] "a.yaml").2 s _ _ rfl rfl rfl

theorem not_all_failures_told :
    ¬ ∀ (t : Tree) (path : String), (∃ rs, (load t path).result = .ok rs) ∨
      ∃ f, (load t path).result = .error f ∧ f.isReported := by
  intro h
  have hfails : (load [(["a.yaml"], .file ⟨#[0xff]⟩)] "a.yaml").result = .error .notText := rfl
  rcases h [(["a.yaml"], .file ⟨#[0xff]⟩)] "a.yaml" with ⟨rs, hrs⟩ | ⟨f, hf, hreported⟩
  · exact absurd (hfails.symm.trans hrs) nofun
  · obtain rfl := Except.error.inj (hfails.symm.trans hf)
    cases hreported

end Command

end PolicyAudit
