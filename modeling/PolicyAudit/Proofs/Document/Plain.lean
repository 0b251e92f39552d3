import PolicyAudit.Proofs.Document.Form

/-! Documents that JSON holds as they are: no bytes, no moments, no reals, and texts alone as keys,
each once.
Records of such documents are such documents, and leaving nulls out changes nothing of that
(`Plain.write`). -/

namespace PolicyAudit.Value

inductive Plain : Value → Prop
  | null : Plain .null
  | bool (b : Bool) : Plain (.bool b)
  | int (n : Int) : Plain (.int n)
  | text (s : String) : Plain (.text s)
  | list {vs : List Value} (h : ∀ v ∈ vs, Plain v) : Plain (.list vs)
  | map {es : Entries} (hkeys : ∀ e ∈ es, ∃ s, e.1 = .text s) (hdistinct : (es.map Prod.fst).Nodup)
      (h : ∀ e ∈ es, Plain e.2) : Plain (.map es)

theorem plain_texts (ss : List String) : Plain (.list (ss.map .text)) :=
  .list (List.forall_mem_map.2 fun s _ => .text s)

theorem plain_ofText? (s : Option String) : Plain (ofText? s) := by
  cases s with
  | none => exact .null
  | some s => exact .text s

theorem plain_getD_null {o : Option α} {write : α → Value} (h : ∀ a, Plain (write a)) :
    Plain ((o.map write).getD .null) := by
  cases o with
  | none => exact .null
  | some a => exact h a

theorem plain_record {fs : List (String × Value)} (hdistinct : (fs.map Prod.fst).Nodup)
    (h : ∀ f ∈ fs, f.2.Plain) : Plain (record fs) := by
  refine .map (List.forall_mem_map.2 fun f _ => ⟨f.1, rfl⟩) ?_ (List.forall_mem_map.2 h)
  have hkeys : (fs.map fun f => (Key.text f.1, f.2)).map Prod.fst = (fs.map Prod.fst).map .text := by
    simp
  rw [hkeys]
  exact List.Pairwise.map Key.text (fun _ _ hne he => hne (Key.text.inj he)) hdistinct

theorem plain_labels (l : Labels) : l.toValue.Plain := by
  refine plain_record ?_ (List.forall_mem_map.2 fun e _ => .text e.2)
  rw [List.map_map]
  exact l.distinct

theorem mem_of_mem_entries {form : Form} {es : Entries} {e : Key × Value}
    (he : e ∈ form.entries es) : ∃ e' ∈ es, e = (e'.1, form.write e'.2) := by
  induction es with
  | nil =>
    rw [Form.entries_nil] at he
    cases he
  | cons e₀ rest ih =>
    obtain ⟨k, v⟩ := e₀
    rw [Form.entries_cons, List.mem_append] at he
    rcases he with he | he
    · rcases form.field?_cases v with hv | ⟨-, hv⟩
      · rw [hv] at he
        obtain rfl := List.mem_singleton.1 he
        exact ⟨(k, v), List.mem_cons_self, rfl⟩
      · rw [hv] at he
        cases he
    · obtain ⟨e', hmem, heq⟩ := ih he
      exact ⟨e', List.mem_cons_of_mem _ hmem, heq⟩

theorem keys_entries_sublist (form : Form) (es : Entries) :
    ((form.entries es).map Prod.fst).Sublist (es.map Prod.fst) := by
  induction es with
  | nil =>
    rewrite [Form.entries_nil]
    exact .slnil
  | cons e rest ih =>
    obtain ⟨k, v⟩ := e
    rw [Form.entries_cons]
    cases form.field? v with
    | none => exact ih.cons k
    | some w => exact ih.cons_cons k

theorem Plain.write {v : Value} (h : Plain v) (form : Form) : Plain (form.write v) := by
  induction h with
  | null => rw [form.write_null]; exact .null
  | bool b => rw [form.write_bool]; exact .bool b
  | int n => rw [form.write_int]; exact .int n
  | text s => rw [form.write_text]; exact .text s
  | list _ ih =>
    rw [form.write_list]
    exact .list (List.forall_mem_map.2 ih)
  | map hkeys hdistinct _ ih =>
    rw [form.write_map]
    refine .map (fun e he => ?_) (hdistinct.sublist (keys_entries_sublist form _)) fun e he => ?_
    · obtain ⟨e', hmem, rfl⟩ := mem_of_mem_entries he
      exact hkeys e' hmem
    · obtain ⟨e', hmem, rfl⟩ := mem_of_mem_entries he
      exact ih e' hmem

end PolicyAudit.Value
