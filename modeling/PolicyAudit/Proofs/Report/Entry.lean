import PolicyAudit.Proofs.Report.Payload

/-! What the entry of a finding says of the finding.
Texts and lists are read from the fields of a document by name. A text that was absent when the field
was written is read as absent, whether the field holds null or is left out (`Value.text?_of_field`), so
every text of a finding and of its primary resource is in its payload as it is. -/

namespace PolicyAudit

namespace Value

def text? (v : Value) (name : String) : Option String :=
  match v.get? name with
  | some (.text s) => some s
  | _ => none

def items (v : Value) (name : String) : List Value :=
  match v.get? name with
  | some (.list vs) => vs
  | _ => []

def primary? (entry : Value) : Option Value := (entry.items "resources").head?

variable {v : Value} {name : String}

theorem text?_of_field (form : Form) {o : Option String} (h : v.get? name = form.field? (ofText? o)) :
    v.text? name = o := by
  rw [text?, h]
  cases o with
  | none => cases form <;> rfl
  | some s =>
    have hwritten : form.field? (ofText? (some s)) = some (form.write (.text s)) :=
      form.field?_of_ne_null (by simp [ofText?])
    rw [hwritten, form.write_text]

theorem items_of_field (form : Form) {vs : List Value} (h : v.get? name = form.field? (.list vs)) :
    v.items name = vs.map form.write := by
  rw [items, h, form.field?_of_ne_null (by simp), form.write_list]

end Value

theorem Reference.get?_write (form : Form) (r : Reference) {name : String} {v : Value}
    (h : r.toValue.get? name = some v) : (form.write r.toValue).get? name = form.field? v := by
  rw [toValue, Value.record, ← Value.fields, Form.write_map]
  refine (Form.get?_write_record (by simp) form name).trans ?_
  rw [← Form.get?_fields]
  exact congrArg (·.bind form.field?) h

def Reference.compact (r : Reference) : Value := Form.compact.write r.toValue

theorem Reference.text?_compact (r : Reference) {name : String} {o : Option String}
    (h : r.toValue.get? name = some (.ofText? o)) : r.compact.text? name = o :=
  Value.text?_of_field .compact (r.get?_write .compact h)

namespace Finding

variable (f : Finding)

theorem text?_payload {name : String} {o : Option String}
    (h : (f.written ++ f.derived).lookup name = some (.ofText? o)) : f.payload.text? name = o :=
  Value.text?_of_field .compact (by rw [get?_payload, h, Option.bind_some])

theorem items_payload_resources : f.payload.items "resources" = f.resources.map Reference.compact := by
  have hfield : f.payload.get? "resources" =
      Form.compact.field? (.list (f.resources.map Reference.toValue)) := by
    rw [get?_payload]
    rfl
  rw [Value.items_of_field .compact hfield, List.map_map]
  rfl

theorem primary?_payload : f.payload.primary? = f.resource?.map Reference.compact := by
  rw [Value.primary?, items_payload_resources, List.head?_map, resource?]

end Finding

end PolicyAudit
