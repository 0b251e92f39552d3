import PolicyAudit.Proofs.Check.Reading
import PolicyAudit.Proofs.Document.Timely
import PolicyAudit.Report.Basic

/-! What holds of everything that is read from a document.
Nothing compulsory is absent, no identity is settled, and the time of creation exists as long as the
document holds no impossible moment (`Report.fresh_of_parse`). -/

namespace PolicyAudit

open Check Checked

theorem valid_of_moment {v : Value} {m : Moment} (hv : v.Timely)
    (h : Check.moment v = .accepted m) : m.Valid := by
  have htext : ∀ s, momentOfText s = .accepted m → m.Valid := fun s hs => by
    unfold momentOfText at hs
    split at hs
    · rename_i hm
      cases hs
      exact Moment.valid_of_ofText? hm
    · cases hs
  unfold Check.moment at h
  split at h
  · cases h
    exact Value.timely_moment.1 hv
  · exact htext _ h
  · split at h
    · exact htext _ h
    · cases h
  · split at h
    · rename_i hm
      cases h
      exact Moment.valid_of_ofNumber? hm
    · cases h
  · split at h
    · rename_i hm
      cases h
      exact Moment.valid_of_ofReal? hm
    · cases h
  · cases h

namespace Finding

structure Fresh (f : Finding) : Prop where
  policy : f.policy.isSome
  settled : f.settled = none

theorem fresh_of_ofValue {doc : Value} {f : Finding} (h : ofValue doc = .accepted f) :
    f.Fresh := by
  obtain ⟨es, -, h⟩ := record_eq_accepted_iff.1 h
  simp only [seq_eq_accepted_iff, map_eq_accepted_iff] at h
  obtain ⟨_, _, ⟨_, _, ⟨_, _, ⟨_, _, ⟨_, _, ⟨_, _, ⟨_, _, ⟨_, _, ⟨_, _, ⟨_, _, ⟨_, _, ⟨_, _,
    ⟨_, -, rfl⟩, ⟨policy, -, rfl⟩, rfl⟩, -, rfl⟩, -, rfl⟩, -, rfl⟩, -, rfl⟩, -, rfl⟩, -, rfl⟩,
    -, rfl⟩, -, rfl⟩, -, rfl⟩, -, rfl⟩, -, rfl⟩ := h
  exact ⟨rfl, rfl⟩

end Finding

namespace Metadata

structure Fresh (m : Metadata) : Prop where
  name : m.name.isSome
  creation : ∀ c ∈ m.creation, c.Valid

theorem fresh_of_ofValue {doc : Value} {m : Metadata} (hdoc : doc.Timely)
    (h : ofValue doc = .accepted m) : m.Fresh := by
  obtain ⟨es, rfl, hread⟩ := record_eq_accepted_iff.1 h
  simp only [seq_eq_accepted_iff, map_eq_accepted_iff] at hread
  obtain ⟨_, _, ⟨_, _, ⟨_, creation, ⟨_, _, ⟨_, _, ⟨_, _, ⟨_, ⟨name, -, rfl⟩, rfl⟩, -, rfl⟩, -,
    rfl⟩, -, rfl⟩, hcreation, rfl⟩, -, rfl⟩, -, rfl⟩ := hread
  refine ⟨rfl, fun c hc => ?_⟩
  obtain rfl := Option.mem_def.1 hc
  obtain ⟨key, v, hv, hread⟩ := exists_of_optional hcreation
  exact valid_of_moment (Value.timely_map.1 hdoc _ hv) hread

end Metadata

namespace Report

structure Fresh (r : Audit) : Prop where
  metadata : r.metadata.Fresh
  findings : ∀ f ∈ r.findings, f.Fresh

theorem variant_of_ofValue {variant : Variant} {doc : Value} {r : Audit}
    (h : ofValue variant doc = .accepted r) : r.variant = variant := by
  obtain ⟨es, rfl, hread⟩ := record_eq_accepted_iff.1 h
  simp only [seq_eq_accepted_iff, map_eq_accepted_iff] at hread
  obtain ⟨_, _, ⟨_, _, ⟨_, _, ⟨_, _, ⟨_, _, ⟨_, _, ⟨_, -, rfl⟩, -, rfl⟩, -, rfl⟩, -, rfl⟩, -, rfl⟩,
    -, rfl⟩, -, rfl⟩ := hread
  rfl

theorem fresh_of_ofValue {variant : Variant} {doc : Value} {r : Audit} (hdoc : doc.Timely)
    (h : ofValue variant doc = .accepted r) : Fresh r ∧ r.variant = variant := by
  obtain ⟨es, rfl, hread⟩ := record_eq_accepted_iff.1 h
  simp only [seq_eq_accepted_iff, map_eq_accepted_iff] at hread
  obtain ⟨_, findings, ⟨_, _, ⟨_, _, ⟨_, _, ⟨_, metadata, ⟨_, _, ⟨_, -, rfl⟩, -, rfl⟩, hmetadata,
    rfl⟩, -, rfl⟩, -, rfl⟩, -, rfl⟩, hfindings, rfl⟩ := hread
  refine ⟨⟨?_, fun f hf => ?_⟩, rfl⟩
  · obtain ⟨key, v, hv, hread⟩ := exists_of_required hmetadata
    exact Metadata.fresh_of_ofValue (Value.timely_map.1 hdoc _ hv) hread
  · rcases exists_of_withDefault hfindings with rfl | ⟨key, v, -, hread⟩
    · cases hf
    · obtain ⟨vs, rfl, hall⟩ := exists_of_listOf hread
      obtain ⟨w, -, hw⟩ := hall f hf
      exact Finding.fresh_of_ofValue hw

theorem ofValue_of_parse {doc : Value} {r : Audit} (h : parse doc = .ok r) :
    ∃ variant, ofValue variant doc = .accepted r := by
  unfold parse at h
  cases hv : variantOf ((doc.get? "kind").getD .null) with
  | error e =>
    rw [hv] at h
    cases h
  | ok variant =>
    rw [hv] at h
    refine ⟨variant, ?_⟩
    simp only [bind, Except.bind] at h
    split at h
    · cases h
      assumption
    · cases h

theorem fresh_of_parse {doc : Value} {r : Audit} (hdoc : doc.Timely) (h : parse doc = .ok r) :
    Fresh r := by
  obtain ⟨variant, h⟩ := ofValue_of_parse h
  exact (fresh_of_ofValue hdoc h).1

end Report

end PolicyAudit
