/-! Maps from text to text in the order written, each key once. -/

namespace PolicyAudit

structure Labels where
  entries : List (String × String)
  distinct : (entries.map Prod.fst).Nodup
  deriving DecidableEq, Repr

namespace Labels

def empty : Labels := ⟨[], List.nodup_nil⟩

instance : Inhabited Labels := ⟨empty⟩

def get? (l : Labels) (k : String) : Option String := l.entries.lookup k

def put (k v : String) : List (String × String) → List (String × String)
  | [] => [(k, v)]
  | (k', v') :: rest => if k' = k then (k, v) :: rest else (k', v') :: put k v rest

theorem mem_keys_put {k v x : String} {es : List (String × String)} :
    x ∈ (put k v es).map Prod.fst ↔ x = k ∨ x ∈ es.map Prod.fst := by
  induction es with
  | nil => simp [put]
  | cons e rest ih =>
    by_cases h : e.1 = k
    · simp [put, h]
    · rw [put, if_neg h, List.map_cons, List.mem_cons, ih, List.map_cons, List.mem_cons]
      grind

theorem nodup_put (k v : String) {es : List (String × String)} (h : (es.map Prod.fst).Nodup) :
    ((put k v es).map Prod.fst).Nodup := by
  induction es with
  | nil => simp [put]
  | cons e rest ih =>
    rw [List.map_cons, List.nodup_cons] at h
    by_cases hk : e.1 = k
    · rw [put, if_pos hk, List.map_cons, List.nodup_cons]
      exact ⟨hk ▸ h.1, h.2⟩
    · rw [put, if_neg hk, List.map_cons, List.nodup_cons]
      refine ⟨fun hm => ?_, ih h.2⟩
      rcases mem_keys_put.1 hm with he | hm
      · exact hk he
      · exact h.1 hm

/-- A known key keeps its place and takes the new value; a new key goes last. -/
def set (l : Labels) (k v : String) : Labels := ⟨put k v l.entries, nodup_put k v l.distinct⟩

def erase (l : Labels) (k : String) : Labels :=
  ⟨l.entries.filter (·.1 ≠ k), l.distinct.sublist (List.filter_sublist.map _)⟩

def ofList (es : List (String × String)) : Labels := es.foldl (fun l (k, v) => l.set k v) empty

theorem get?_set_self (l : Labels) (k v : String) : (l.set k v).get? k = some v := by
  show (put k v l.entries).lookup k = some v
  induction l.entries with
  | nil => simp [put]
  | cons e rest ih =>
    obtain ⟨k', v'⟩ := e
    by_cases h : k' = k
    · simp [put, h]
    · have h' : (k == k') = false := by simp [Ne.symm h]
      simpa [put, h, List.lookup_cons, h'] using ih

theorem get?_set_ne (l : Labels) {k k' : String} (v : String) (h : k' ≠ k) :
    (l.set k v).get? k' = l.get? k' := by
  show (put k v l.entries).lookup k' = l.entries.lookup k'
  have hk : (k' == k) = false := by simp [h]
  induction l.entries with
  | nil => simp [put, List.lookup_cons, hk]
  | cons e rest ih =>
    obtain ⟨k₁, v₁⟩ := e
    by_cases h₁ : k₁ = k
    · subst h₁
      simp [put, List.lookup_cons, hk]
    · cases hn : (k' == k₁) <;> simp [put, h₁, List.lookup_cons, hn, ih]

theorem get?_set (l : Labels) (k v k' : String) :
    (l.set k v).get? k' = if k' = k then some v else l.get? k' := by
  split
  next h => rw [h, get?_set_self]
  next h => rw [get?_set_ne l v h]

theorem keys_prefix_set (l : Labels) (k v : String) :
    l.entries.map Prod.fst <+: (l.set k v).entries.map Prod.fst := by
  show l.entries.map Prod.fst <+: (put k v l.entries).map Prod.fst
  induction l.entries with
  | nil => exact List.nil_prefix
  | cons e rest ih =>
    by_cases h : e.1 = k
    · simp [put, h]
    · simpa [put, h, List.prefix_cons_inj] using ih

theorem get?_erase_self (l : Labels) (k : String) : (l.erase k).get? k = none := by
  show (l.entries.filter (·.1 ≠ k)).lookup k = none
  rw [List.lookup_eq_none_iff]
  intro e he
  have := (List.mem_filter.1 he).2
  simp_all [Ne.symm]

end Labels

end PolicyAudit
