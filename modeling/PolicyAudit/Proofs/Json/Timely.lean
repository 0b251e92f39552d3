import PolicyAudit.Json.Reader
import PolicyAudit.Proofs.Document.Timely

/-! No moment comes out of JSON: times are texts and numbers there. -/

namespace PolicyAudit.Json

theorem timely_readNumber {negative : Bool} {cs rest : List Char} {v : Value}
    (h : readNumber negative cs = some (v, rest)) : v.Timely := by
  simp only [readNumber, Option.bind_eq_bind, Option.bind_eq_some_iff] at h
  obtain ⟨⟨whole, cs⟩, -, h⟩ := h
  split at h
  · split at h <;> cases h
    exact Value.timely_int _
  · cases h
    exact Value.timely_real _
  · cases h
    exact Value.timely_real _

theorem timely_readWord {cs rest : List Char} {v : Value} (h : readWord cs = some (v, rest)) :
    v.Timely := by
  obtain ⟨⟨word, w⟩, hw, h⟩ := List.exists_of_findSome?_eq_some h
  obtain ⟨_, -, ⟨⟩⟩ := Option.map_eq_some_iff.1 h
  simp only [words, List.mem_cons, List.not_mem_nil, or_false, Prod.mk.injEq] at hw
  obtain ⟨-, rfl⟩ | ⟨-, rfl⟩ | ⟨-, rfl⟩ | ⟨-, rfl⟩ | ⟨-, rfl⟩ | ⟨-, rfl⟩ := hw <;> simp

mutual

theorem timely_readValue {fuel : Nat} {cs rest : List Char} {v : Value}
    (h : readValue fuel cs = some (v, rest)) : v.Timely := by
  cases fuel with
  | zero => cases h
  | succ fuel =>
    unfold readValue at h
    split at h
    · obtain ⟨_, -, ⟨⟩⟩ := Option.map_eq_some_iff.1 h
      exact Value.timely_text _
    · split at h
      · cases h
        simp
      · obtain ⟨⟨vs, _⟩, hvs, ⟨⟩⟩ := Option.map_eq_some_iff.1 h
        exact Value.timely_list.2 (timely_readItems hvs)
    · split at h
      · cases h
        simp
      · obtain ⟨⟨es, _⟩, hes, ⟨⟩⟩ := Option.map_eq_some_iff.1 h
        exact Value.timely_map.2 (Entries.timely_ofList (timely_readEntries hes))
    · split at h
      · rename_i hword
        cases h
        exact timely_readWord hword
      · split at h
        · exact timely_readNumber h
        · exact timely_readNumber h

theorem timely_readItems {fuel : Nat} {cs rest : List Char} {vs : List Value}
    (h : readItems fuel cs = some (vs, rest)) : ∀ v ∈ vs, v.Timely := by
  cases fuel with
  | zero => cases h
  | succ fuel =>
    unfold readItems at h
    obtain ⟨⟨v, _⟩, hv, h⟩ := Option.bind_eq_some_iff.1 h
    dsimp only at h
    split at h
    · obtain ⟨⟨vs, _⟩, hvs, ⟨⟩⟩ := Option.bind_eq_some_iff.1 h
      exact List.forall_mem_cons.2 ⟨timely_readValue hv, timely_readItems hvs⟩
    · cases h
      exact List.forall_mem_singleton.2 (timely_readValue hv)
    · cases h

theorem timely_readEntries {fuel : Nat} {cs rest : List Char} {es : List (Key × Value)}
    (h : readEntries fuel cs = some (es, rest)) : ∀ e ∈ es, e.2.Timely := by
  cases fuel with
  | zero => cases h
  | succ fuel =>
    unfold readEntries at h
    split at h
    · obtain ⟨⟨k, _⟩, -, h⟩ := Option.bind_eq_some_iff.1 h
      dsimp only at h
      split at h
      · obtain ⟨⟨v, _⟩, hv, h⟩ := Option.bind_eq_some_iff.1 h
        dsimp only at h
        split at h
        · obtain ⟨⟨es, _⟩, hes, ⟨⟩⟩ := Option.bind_eq_some_iff.1 h
          exact List.forall_mem_cons.2 ⟨timely_readValue hv, timely_readEntries hes⟩
        · cases h
          exact List.forall_mem_singleton.2 (timely_readValue hv)
        · cases h
      · cases h
    · cases h

end

theorem timely_of_read? {text : String} {v : Value} (h : read? text = some v) : v.Timely := by
  obtain ⟨⟨w, _⟩, hw, h⟩ := Option.bind_eq_some_iff.1 h
  dsimp only at h
  split at h <;> cases h
  exact timely_readValue hw

end PolicyAudit.Json
