import PolicyAudit.Proofs.Calendar.Moment
import PolicyAudit.Proofs.Document.Form

/-! Readers that give written values back.
A reader restores a value from a document if it reads the document as that value in either form,
with its nulls or without. For a record this comes down to its fields (`restores_record`): a field
that is left out must have held null and its default must be the value. -/

namespace PolicyAudit

namespace Labels

theorem put_of_not_mem {k v : String} {es : List (String × String)} (h : k ∉ es.map Prod.fst) :
    put k v es = es ++ [(k, v)] := by
  induction es with
  | nil => rfl
  | cons e rest ih =>
    rw [List.map_cons, List.mem_cons, not_or] at h
    rw [put, if_neg (Ne.symm h.1), ih h.2]
    rfl

theorem entries_foldl_set {l : Labels} {es : List (String × String)}
    (h : ((l.entries ++ es).map Prod.fst).Nodup) :
    (es.foldl (fun l (k, v) => l.set k v) l).entries = l.entries ++ es := by
  induction es generalizing l with
  | nil => simp
  | cons e rest ih =>
    obtain ⟨k, v⟩ := e
    have hk : k ∉ l.entries.map Prod.fst := by
      rw [List.map_append, List.nodup_append] at h
      exact fun hm => h.2.2 k hm k (by simp) rfl
    have hset : (l.set k v).entries = l.entries ++ [(k, v)] := put_of_not_mem hk
    rw [List.foldl_cons, ih, hset, List.append_assoc, List.singleton_append]
    rwa [hset, List.append_assoc, List.singleton_append]

theorem ofList_entries (l : Labels) : ofList l.entries = l := by
  have h : (ofList l.entries).entries = l.entries := entries_foldl_set (l := empty) l.distinct
  obtain ⟨es, distinct⟩ := l
  exact Labels.mk.injEq .. ▸ h

end Labels

namespace Check

open Checked

def Restores (read : Value → Checked α) (v : Value) (a : α) : Prop :=
  ∀ form : Form, read (form.write v) = .accepted a

theorem restores_text (s : String) : Restores text (.text s) s := by
  intro form
  rw [Form.write_text]
  rfl

theorem restores_int (n : Int) : Restores int (.int n) n := by
  intro form
  rw [Form.write_int]
  rfl

theorem restores_bool (b : Bool) : Restores bool (.bool b) b := by
  intro form
  rw [Form.write_bool]
  rfl

theorem restores_nat (n : Nat) : Restores nat (.int n) n := by
  intro form
  rw [Form.write_int]
  rfl

theorem restores_moment {m : Moment} (h : m.Valid) : Restores moment (.text m.zulu) m := by
  intro form
  rw [Form.write_text]
  show momentOfText m.zulu = _
  rw [momentOfText, Moment.ofText?_zulu h]

theorem nullable_of_ne_null {v : Value} (h : v ≠ .null) (read : Value → Checked α) :
    nullable read v = some <$> read v := by
  cases v <;> first | rfl | exact absurd rfl h

theorem restores_nullable {read : Value → Checked α} {write : α → Value} {o : Option α}
    (hnull : ∀ a, write a ≠ .null) (h : ∀ a ∈ o, Restores read (write a) a) :
    Restores (nullable read) ((o.map write).getD .null) o := by
  intro form
  cases o with
  | none =>
    show nullable read (form.write .null) = _
    rw [Form.write_null]
    rfl
  | some a =>
    show nullable read (form.write (write a)) = _
    rw [nullable_of_ne_null (mt form.write_eq_null_iff.1 (hnull a)), h a rfl form]
    rfl

theorem restores_vocabulary (name : String) (o : Option String) :
    Restores (vocabulary name) (.ofText? o) o := by
  intro form
  cases o with
  | none =>
    show vocabulary name (form.write .null) = _
    rw [Form.write_null]
    rfl
  | some s =>
    show vocabulary name (form.write (.text s)) = _
    rw [Form.write_text]
    rfl

theorem restores_listOf_map {read : Value → Checked β} {write : α → Value} {g : α → β}
    {as : List α} (h : ∀ a ∈ as, Restores read (write a) (g a)) :
    Restores (listOf read) (.list (as.map write)) (as.map g) := by
  intro form
  rw [Form.write_list, List.map_map]
  show items read 0 (as.map (form.write ∘ write)) = _
  generalize 0 = i
  induction as generalizing i with
  | nil => rfl
  | cons a as ih =>
    rw [List.forall_mem_cons] at h
    have ha : read ((form.write ∘ write) a) = .accepted (g a) := h.1 form
    rw [List.map_cons, items, ha, ih h.2]
    rfl

theorem restores_listOf {read : Value → Checked α} {write : α → Value} {as : List α}
    (h : ∀ a ∈ as, Restores read (write a) a) :
    Restores (listOf read) (.list (as.map write)) as := by
  have hmap := restores_listOf_map (g := fun a => a) h
  rwa [List.map_id'] at hmap

theorem labelEntries_fields (es : List (String × String)) :
    labelEntries (Value.fields (es.map fun (k, v) => (k, .text v))) = .accepted es := by
  induction es with
  | nil => rfl
  | cons e rest ih =>
    show List.cons <$> _ <*> labelEntries (Value.fields (rest.map fun (k, v) => (k, .text v))) = _
    rw [ih]
    rfl

theorem restores_labels (l : Labels) : Restores labels l.toValue l := by
  intro form
  have hwrite : form.write l.toValue = l.toValue := by
    rw [Labels.toValue, Value.record, Form.write_map]
    congr 1
    induction l.entries with
    | nil => exact form.entries_nil
    | cons e rest ih =>
      rw [List.map_cons, List.map_cons, Form.entries_cons, ih,
        form.field?_of_ne_null Value.noConfusion, Form.write_text]
      rfl
  rw [hwrite]
  show Labels.ofList <$> labelEntries (Value.fields (l.entries.map fun (k, v) => (k, .text v))) = _
  rw [labelEntries_fields, map_accepted, Labels.ofList_entries]

/-- `es` holds what one of the forms leaves of the fields. -/
def Holds (es : Entries) (form : Form) (fs : List (String × Value)) : Prop :=
  ∀ name, es.get? name = (fs.lookup name).bind form.field?

theorem restores_record {read : Entries → Checked α} {fs : List (String × Value)} {a : α}
    (distinct : (fs.map Prod.fst).Nodup)
    (h : ∀ form es, Holds es form fs → read es = .accepted a) :
    Restores (record read) (.record fs) a := by
  intro form
  rw [Value.record, Form.write_map]
  exact h form _ (Form.get?_write_record distinct form)

variable {es : Entries} {form : Form} {fs : List (String × Value)} {n : Name}

theorem find_eq_none (h : es.get? n.documented = none)
    (ha : ∀ other ∈ n.alternative, es.get? other = none) : find es n = (n.documented, none) := by
  unfold find
  rw [h]
  cases hother : n.alternative with
  | none => rfl
  | some other => simp [ha other hother]

theorem Holds.get?_eq_none (h : Holds es form fs) {name : String} (hn : fs.lookup name = none) :
    es.get? name = none := by
  rw [h, hn]
  rfl

theorem Holds.get?_alternative (h : Holds es form fs)
    (ha : n.alternative.bind (fs.lookup ·) = none) :
    ∀ other ∈ n.alternative, es.get? other = none := by
  intro other hother
  rw [Option.mem_def.1 hother] at ha
  exact h.get?_eq_none ha

theorem Holds.withDefault_of_absent (h : Holds es form fs) (default : α)
    (read : Value → Checked α) (hn : fs.lookup n.documented = none)
    (ha : n.alternative.bind (fs.lookup ·) = none) :
    withDefault es n default read = .accepted default := by
  rw [withDefault, find_eq_none (h.get?_eq_none hn) (h.get?_alternative ha)]

theorem Holds.withDefault {v : Value} {read : Value → Checked α} {a default : α}
    (h : Holds es form fs) (hn : fs.lookup n.documented = some v)
    (ha : n.alternative.bind (fs.lookup ·) = none) (hr : Restores read v a)
    (hnull : v = .null → default = a) : withDefault es n default read = .accepted a := by
  have hfound : es.get? n.documented = form.field? v := by rw [h, hn]; rfl
  rcases form.field?_cases v with hv | ⟨hvnull, hv⟩
  · rw [Check.withDefault, find_documented (hfound.trans hv)]
    exact under_eq_accepted_iff.2 (hr form)
  · rw [Check.withDefault, find_eq_none (hfound.trans hv) (h.get?_alternative ha), hnull hvnull]

theorem Holds.optional {read : Value → Checked α} {write : α → Value} {o : Option α}
    (h : Holds es form fs) (hn : fs.lookup n.documented = some ((o.map write).getD .null))
    (ha : n.alternative.bind (fs.lookup ·) = none) (hnull : ∀ a, write a ≠ .null)
    (hr : ∀ a ∈ o, Restores read (write a) a) : optional es n read = .accepted o := by
  refine h.withDefault hn ha (restores_nullable hnull hr) fun hv => ?_
  cases o with
  | none => rfl
  | some a => exact absurd hv (hnull a)

theorem Holds.optionalText {o : Option String} (h : Holds es form fs)
    (hn : fs.lookup n.documented = some (.ofText? o))
    (ha : n.alternative.bind (fs.lookup ·) = none) :
    Check.optional es n text = .accepted o :=
  h.optional hn ha (fun _ => Value.noConfusion) fun s _ => restores_text s

theorem Holds.vocabulary {name : String} {o : Option String} (h : Holds es form fs)
    (hn : fs.lookup n.documented = some (.ofText? o))
    (ha : n.alternative.bind (fs.lookup ·) = none) :
    Check.withDefault es n none (vocabulary name) = .accepted o := by
  refine h.withDefault hn ha (restores_vocabulary name o) fun hv => ?_
  cases o with
  | none => rfl
  | some s => cases hv

theorem Holds.required {v : Value} {read : Value → Checked α} {a : α} (h : Holds es form fs)
    (hn : fs.lookup n.documented = some v) (hr : Restores read v a) (hnull : v ≠ .null) :
    required es n read = .accepted a := by
  have hfound : es.get? n.documented = some (form.write v) := by
    rw [h, hn]
    exact form.field?_of_ne_null hnull
  rw [Check.required, find_documented hfound]
  exact under_eq_accepted_iff.2 (hr form)

theorem Holds.requiredText {o : Option String} {s : String} (ho : o = some s)
    (h : Holds es form fs) (hn : fs.lookup n.documented = some (.ofText? o)) :
    Check.required es n text = .accepted s := by
  subst ho
  exact h.required hn (restores_text s) Value.noConfusion

end Check

end PolicyAudit
