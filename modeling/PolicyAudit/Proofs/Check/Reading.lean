import PolicyAudit.Check.Record
import PolicyAudit.Proofs.Document.Form

/-! What an accepted reading says about the document.
A record is read from a mapping, a field from one of its entries or from the default, and the items
of a list each on its own. -/

namespace PolicyAudit.Check

open Checked

theorem record_eq_accepted_iff {read : Entries → Checked α} {v : Value} {a : α} :
    record read v = .accepted a ↔ ∃ es, v = .map es ∧ read es = .accepted a := by
  cases v <;> simp [record, Checked.fail]

theorem mem_of_find {es : Entries} {n : Name} {name : String} {v : Value}
    (h : find es n = (name, some v)) : (.text name, v) ∈ es := by
  apply Entries.mem_of_get?
  unfold find at h
  split at h
  · rename_i hv
    cases h
    exact hv
  · cases h
  · split at h
    · rename_i hv
      cases h
      exact hv
    · cases h

theorem exists_of_required {es : Entries} {n : Name} {read : Value → Checked α} {a : α}
    (h : required es n read = .accepted a) :
    ∃ name v, (.text name, v) ∈ es ∧ read v = .accepted a := by
  unfold required at h
  split at h
  · rename_i hfind
    exact ⟨_, _, mem_of_find hfind, under_eq_accepted_iff.1 h⟩
  · cases h

theorem exists_of_withDefault {es : Entries} {n : Name} {read : Value → Checked α} {a default : α}
    (h : withDefault es n default read = .accepted a) :
    a = default ∨ ∃ name v, (.text name, v) ∈ es ∧ read v = .accepted a := by
  unfold withDefault at h
  split at h
  · rename_i hfind
    exact .inr ⟨_, _, mem_of_find hfind, under_eq_accepted_iff.1 h⟩
  · cases h
    exact .inl rfl

theorem exists_of_optional {es : Entries} {n : Name} {read : Value → Checked α} {a : α}
    (h : Check.optional es n read = .accepted (some a)) :
    ∃ name v, (.text name, v) ∈ es ∧ read v = .accepted a := by
  rcases exists_of_withDefault h with h | ⟨name, v, hv, h⟩
  · cases h
  · unfold nullable at h
    split at h
    · cases h
    · obtain ⟨_, hread, ⟨⟩⟩ := map_eq_accepted_iff.1 h
      exact ⟨name, v, hv, hread⟩

theorem exists_of_items {read : Value → Checked α} {vs : List Value} {i : Nat} {as : List α}
    (h : items read i vs = .accepted as) : ∀ a ∈ as, ∃ v ∈ vs, read v = .accepted a := by
  induction vs generalizing i as with
  | nil =>
    cases h
    simp
  | cons v vs ih =>
    obtain ⟨_, rest, hv, hrest, rfl⟩ := seq_eq_accepted_iff.1 h
    obtain ⟨a, ha, rfl⟩ := map_eq_accepted_iff.1 hv
    rw [List.forall_mem_cons]
    refine ⟨⟨v, List.mem_cons_self, under_eq_accepted_iff.1 ha⟩, fun b hb => ?_⟩
    obtain ⟨w, hw, hread⟩ := ih hrest b hb
    exact ⟨w, List.mem_cons_of_mem _ hw, hread⟩

theorem exists_of_listOf {read : Value → Checked α} {v : Value} {as : List α}
    (h : listOf read v = .accepted as) :
    ∃ vs, v = .list vs ∧ ∀ a ∈ as, ∃ w ∈ vs, read w = .accepted a := by
  cases v with
  | list vs => exact ⟨vs, rfl, exists_of_items h⟩
  | _ => cases h

end PolicyAudit.Check
