import PolicyAudit.Check.Record

/-! Records written with their nulls or without them.
Names of a record are distinct, so in either form a look-up finds the field of that name, and in
the compact form a field that holds null is found nowhere (`get?_write_record`). -/

namespace PolicyAudit

namespace Entries

theorem get?_nil (name : String) : get? [] name = none := rfl

theorem get?_cons (k : Key) (v : Value) (es : Entries) (name : String) :
    get? ((k, v) :: es) name = if k = .text name then some v else es.get? name := by
  by_cases h : k = .text name
  · subst h; simp [get?]
  · have h' : (Key.text name == k) = false := by simp [Ne.symm h]
    simp [get?, List.lookup_cons, h, h']

theorem get?_eq_none_iff {es : Entries} {name : String} :
    es.get? name = none ↔ .text name ∉ es.map Prod.fst := by
  induction es with
  | nil => simp [get?_nil]
  | cons e rest ih =>
    obtain ⟨k, v⟩ := e
    rw [get?_cons, List.map_cons, List.mem_cons, not_or]
    by_cases h : k = .text name
    · simp [h]
    · rw [if_neg h, ih]
      exact ⟨fun hr => ⟨Ne.symm h, hr⟩, fun hr => hr.2⟩

theorem mem_of_get? {es : Entries} {name : String} {v : Value} (h : es.get? name = some v) :
    (.text name, v) ∈ es := by
  obtain ⟨l, r, rfl, -⟩ := List.lookup_eq_some_iff.1 h
  simp

end Entries

/-- A document is written as it is, or without the fields that hold null. -/
inductive Form
  | full | compact
  deriving DecidableEq, Repr

namespace Form

def write : Form → Value → Value
  | full, v => v
  | compact, v => v.compact

def field? : Form → Value → Option Value
  | compact, .null => none
  | form, v => some (form.write v)

def entries : Form → Entries → Entries
  | full, es => es
  | compact, es => Value.compactEntries es

theorem write_eq_null_iff (form : Form) {v : Value} : form.write v = .null ↔ v = .null := by
  cases form
  · rfl
  · cases v <;> simp [write, Value.compact]

theorem write_map (form : Form) (es : Entries) : form.write (.map es) = .map (form.entries es) := by
  cases form
  · rfl
  · rw [write, Value.compact, entries]

theorem write_list (form : Form) (vs : List Value) :
    form.write (.list vs) = .list (vs.map form.write) := by
  cases form
  · show Value.list vs = .list (vs.map fun v => v)
    rw [List.map_id']
  · rw [write, Value.compact, Value.compactItems_eq_map]
    rfl

@[simp] theorem write_null (form : Form) : form.write .null = .null := by
  cases form <;> simp [write, Value.compact]

@[simp] theorem write_text (form : Form) (s : String) : form.write (.text s) = .text s := by
  cases form <;> simp [write, Value.compact]

@[simp] theorem write_int (form : Form) (n : Int) : form.write (.int n) = .int n := by
  cases form <;> simp [write, Value.compact]

@[simp] theorem write_bool (form : Form) (b : Bool) : form.write (.bool b) = .bool b := by
  cases form <;> simp [write, Value.compact]

theorem field?_of_ne_null (form : Form) {v : Value} (h : v ≠ .null) :
    form.field? v = some (form.write v) := by
  cases form
  · rfl
  · cases v <;> first | rfl | exact absurd rfl h

theorem field?_cases (form : Form) (v : Value) :
    form.field? v = some (form.write v) ∨ v = .null ∧ form.field? v = none := by
  by_cases h : v = .null
  · subst h
    cases form
    · exact .inl rfl
    · exact .inr ⟨rfl, rfl⟩
  · exact .inl (form.field?_of_ne_null h)

theorem entries_nil (form : Form) : form.entries [] = [] := by
  cases form
  · rfl
  · rw [entries, Value.compactEntries]

theorem entries_cons (form : Form) (k : Key) (v : Value) (es : Entries) :
    form.entries ((k, v) :: es) = ((form.field? v).map (k, ·)).toList ++ form.entries es := by
  cases form
  · rfl
  · by_cases h : v = .null
    · subst h
      rw [entries, Value.compactEntries]
      rfl
    · rw [field?_of_ne_null compact h, entries, Value.compactEntries]
      · rfl
      · exact h

theorem entries_append (form : Form) (es es' : Entries) :
    form.entries (es ++ es') = form.entries es ++ form.entries es' := by
  induction es with
  | nil => rw [entries_nil]; rfl
  | cons e rest ih =>
    obtain ⟨k, v⟩ := e
    rw [List.cons_append, entries_cons, entries_cons, ih, List.append_assoc]

theorem get?_entries_eq_none {es : Entries} {name : String} (form : Form)
    (h : es.get? name = none) : (form.entries es).get? name = none := by
  induction es with
  | nil => rw [entries_nil]; rfl
  | cons e rest ih =>
    obtain ⟨k, v⟩ := e
    rw [Entries.get?_cons] at h
    split at h
    · simp at h
    · rename_i hk
      rw [entries_cons]
      cases form.field? v <;> simp [Entries.get?_cons, hk, ih h]

theorem get?_entries {es : Entries} (h : (es.map Prod.fst).Nodup) (form : Form) (name : String) :
    (form.entries es).get? name = (es.get? name).bind form.field? := by
  induction es with
  | nil => rw [entries_nil]; rfl
  | cons e rest ih =>
    obtain ⟨k, v⟩ := e
    rw [List.map_cons, List.nodup_cons] at h
    rw [entries_cons, Entries.get?_cons]
    by_cases hk : k = .text name
    · subst hk
      have hr : (form.entries rest).get? name = none :=
        get?_entries_eq_none form (Entries.get?_eq_none_iff.2 h.1)
      cases hv : form.field? v <;> simp [Entries.get?_cons, hr, hv]
    · rw [if_neg hk, ← ih h.2]
      cases form.field? v <;> simp [Entries.get?_cons, hk]

end Form

namespace Value

/-- Some mapping in a document, at any depth, has an entry that holds null. -/
inductive HasNullField : Value → Prop
  | here {es : Entries} {k : Key} (h : (k, .null) ∈ es) : HasNullField (.map es)
  | item {vs : List Value} {v : Value} (hv : v ∈ vs) (h : HasNullField v) : HasNullField (.list vs)
  | entry {es : Entries} {k : Key} {v : Value} (hv : (k, v) ∈ es) (h : HasNullField v) :
      HasNullField (.map es)

mutual

theorem not_hasNullField_compact (v : Value) : ¬ v.compact.HasNullField := by
  cases v with
  | list vs =>
    rw [compact]
    rintro (_ | ⟨hv, h⟩)
    exact not_hasNullField_compactItems vs _ hv h
  | map es =>
    rw [compact]
    rintro (h | _ | ⟨hv, h⟩)
    · exact (not_hasNullField_compactEntries es _ h).1 rfl
    · exact (not_hasNullField_compactEntries es _ hv).2 h
  | _ => rintro ⟨⟩

theorem not_hasNullField_compactItems (vs : List Value) :
    ∀ v ∈ compactItems vs, ¬ v.HasNullField := by
  cases vs with
  | nil => simp [compactItems]
  | cons v vs =>
    rw [compactItems]
    exact List.forall_mem_cons.2 ⟨not_hasNullField_compact v, not_hasNullField_compactItems vs⟩

theorem not_hasNullField_compactEntries (es : Entries) :
    ∀ e ∈ compactEntries es, e.2 ≠ .null ∧ ¬ e.2.HasNullField := by
  cases es with
  | nil => simp [compactEntries]
  | cons e es =>
    obtain ⟨k, v⟩ := e
    by_cases hv : v = .null
    · rw [hv, compactEntries]
      exact not_hasNullField_compactEntries es
    · rw [compactEntries]
      · have hne : v.compact ≠ .null := mt (Form.write_eq_null_iff .compact).1 hv
        exact List.forall_mem_cons.2 ⟨⟨hne, not_hasNullField_compact v⟩,
          not_hasNullField_compactEntries es⟩
      · exact hv

end

end Value

def Value.fields (fs : List (String × Value)) : Entries := fs.map fun (name, v) => (.text name, v)

namespace Form

theorem get?_fields (fs : List (String × Value)) (name : String) :
    (Value.fields fs).get? name = fs.lookup name := by
  induction fs with
  | nil => rfl
  | cons e rest ih =>
    obtain ⟨n, v⟩ := e
    rw [Value.fields, List.map_cons, Entries.get?_cons, List.lookup_cons, ← Value.fields, ih]
    by_cases h : n = name
    · simp [h]
    · have h' : (name == n) = false := by simp [Ne.symm h]
      simp [h, h']

theorem get?_write_record {fs : List (String × Value)} (h : (fs.map Prod.fst).Nodup)
    (form : Form) (name : String) :
    (form.entries (Value.fields fs)).get? name = (fs.lookup name).bind form.field? := by
  rw [get?_entries, get?_fields]
  rw [Value.fields, List.map_map]
  have hk : (Prod.fst ∘ fun (e : String × Value) => (Key.text e.1, e.2)) = Key.text ∘ Prod.fst :=
    rfl
  rw [hk, ← List.map_map]
  exact List.Pairwise.map Key.text (fun _ _ hne he => hne (Key.text.inj he)) h

end Form

end PolicyAudit
