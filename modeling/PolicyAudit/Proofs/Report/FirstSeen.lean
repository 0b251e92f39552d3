import Mathlib.Data.List.Basic
import Mathlib.Data.List.Induction
import PolicyAudit.Report.Basic

/-! Texts in the order first met.
A text that is empty or was met before adds nothing, and any other one goes last (`FirstSeen.snoc`); so
`firstSeen` collects the texts that are not empty, each once, in the order of their first places
(`firstSeen_collects`). Of a second list it adds the texts that the first has not shown
(`firstSeen_append`). -/

namespace PolicyAudit

/-- `seen` has the texts of `ss` that are not empty, each once, in the order first met. -/
structure FirstSeen (ss seen : List String) : Prop where
  mem_iff : ∀ s, s ∈ seen ↔ s ∈ ss ∧ s ≠ ""
  distinct : seen.Nodup
  ordered : seen.Pairwise fun s t => ss.idxOf s < ss.idxOf t

def meet (seen : List String) (s : String) : List String :=
  if s = "" ∨ s ∈ seen then seen else seen ++ [s]

namespace FirstSeen

variable {ss seen : List String}

theorem of_ordered (hmem : ∀ s, s ∈ seen ↔ s ∈ ss ∧ s ≠ "")
    (hordered : seen.Pairwise fun s t => ss.idxOf s < ss.idxOf t) : FirstSeen ss seen := by
  refine ⟨hmem, hordered.imp fun hlt he => ?_, hordered⟩
  rw [he] at hlt
  exact Nat.lt_irrefl _ hlt

theorem nil : FirstSeen [] [] := .of_ordered (by simp) .nil

theorem snoc (h : FirstSeen ss seen) (s : String) : FirstSeen (ss ++ [s]) (meet seen s) := by
  have hplace : ∀ t ∈ seen, (ss ++ [s]).idxOf t = ss.idxOf t := fun t ht =>
    List.idxOf_append_of_mem ((h.mem_iff t).1 ht).1
  have hordered : seen.Pairwise fun t u => (ss ++ [s]).idxOf t < (ss ++ [s]).idxOf u :=
    h.ordered.imp_of_mem fun ht hu hlt => by rwa [hplace _ ht, hplace _ hu]
  unfold meet
  split_ifs with hs
  · refine .of_ordered (fun t => ?_) hordered
    rw [h.mem_iff, List.mem_append, List.mem_singleton]
    constructor
    · exact fun ⟨ht, hne⟩ => ⟨.inl ht, hne⟩
    · rintro ⟨ht | rfl, hne⟩
      · exact ⟨ht, hne⟩
      · exact (h.mem_iff t).1 (hs.resolve_left hne)
  · obtain ⟨hne, hunseen⟩ := not_or.1 hs
    have hnew : s ∉ ss := fun hmem => hunseen ((h.mem_iff s).2 ⟨hmem, hne⟩)
    refine .of_ordered (fun t => ?_)
      (List.pairwise_append.2 ⟨hordered, List.pairwise_singleton _ _, ?_⟩)
    · rw [List.mem_append, h.mem_iff, List.mem_append, List.mem_singleton]
      constructor
      · rintro (⟨ht, hne⟩ | rfl)
        · exact ⟨.inl ht, hne⟩
        · exact ⟨.inr rfl, hne⟩
      · rintro ⟨ht | rfl, hne⟩
        · exact .inl ⟨ht, hne⟩
        · exact .inr rfl
    · intro t ht u hu
      obtain rfl := List.mem_singleton.1 hu
      rw [hplace t ht, List.idxOf_append_of_notMem hnew, List.idxOf_cons_self]
      exact List.idxOf_lt_length_of_mem ((h.mem_iff t).1 ht).1

theorem foldl (h : FirstSeen ss seen) (ts : List String) :
    FirstSeen (ss ++ ts) (ts.foldl meet seen) := by
  induction ts generalizing ss seen with
  | nil => rwa [List.append_nil]
  | cons t ts ih =>
    have hrest := ih (h.snoc t)
    rwa [List.append_assoc, List.singleton_append] at hrest

end FirstSeen

theorem firstSeen_eq_foldl (ss : List (Option String)) :
    firstSeen ss = (ss.map (·.getD "")).foldl meet [] := by
  have hfrom : ∀ seen : List String, (ss.filterMap (·.filter (· ≠ ""))).foldl
      (fun acc s => if acc.contains s then acc else acc ++ [s]) seen =
        (ss.map (·.getD "")).foldl meet seen := by
    induction ss with
    | nil => exact fun _ => rfl
    | cons o ss ih =>
      intro seen
      rw [List.map_cons, List.foldl_cons, ← ih]
      cases o with
      | none => simp [meet]
      | some s => by_cases hs : s = "" <;> simp [Option.filter, meet, hs]
  exact hfrom []

theorem meet_append (seen new : List String) (s : String) :
    meet (seen ++ new.filter (· ∉ seen)) s = seen ++ (meet new s).filter (· ∉ seen) := by
  unfold meet
  by_cases hempty : s = ""
  · simp [hempty]
  by_cases hseen : s ∈ seen
  · by_cases hnew : s ∈ new <;> simp [hempty, hseen, hnew]
  · by_cases hnew : s ∈ new <;> simp [hempty, hseen, hnew]

theorem foldl_meet (seen ts : List String) :
    ts.foldl meet seen = seen ++ (ts.foldl meet []).filter (· ∉ seen) := by
  induction ts using List.reverseRecOn with
  | nil => simp
  | append_singleton ts t ih =>
    rw [List.foldl_append, List.foldl_append, ih]
    exact meet_append seen (ts.foldl meet []) t

theorem firstSeen_append (ss ts : List (Option String)) :
    firstSeen (ss ++ ts) = firstSeen ss ++ (firstSeen ts).filter (· ∉ firstSeen ss) := by
  rw [firstSeen_eq_foldl, List.map_append, List.foldl_append, foldl_meet, ← firstSeen_eq_foldl,
    ← firstSeen_eq_foldl]

theorem firstSeen_collects (ss : List (Option String)) :
    FirstSeen (ss.map (·.getD "")) (firstSeen ss) := by
  rw [firstSeen_eq_foldl]
  exact FirstSeen.nil.foldl _

end PolicyAudit
