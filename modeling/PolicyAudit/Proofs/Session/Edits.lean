import PolicyAudit.Session.Reports

/-! What an edit leaves.
Each edit of a finding sets one text, the priority or one property, and an assignment to metadata
sets one text. It reads as it was set, and all else reads as before. -/

namespace PolicyAudit

namespace Metadata

/-- One text is the one assigned, and all else is as it was. -/
structure Assigned (field : TextField) (t : Option String) (m m' : Metadata) : Prop where
  textAt : ∀ other, m'.textAt other = if other = field then t else m.textAt other
  creation : m'.creation = m.creation
  labels : m'.labels = m.labels
  annotations : m'.annotations = m.annotations

theorem assigned_assign (m : Metadata) (field : TextField) (t : Option String) :
    Assigned field t m (m.assign field t) where
  textAt other := m.textAt_assign field other t
  creation := by cases field <;> rfl
  labels := by cases field <;> rfl
  annotations := by cases field <;> rfl

end Metadata

namespace Session.Edit

variable (e : Edit)

def text? (field : Finding.TextField) : Option (Option String) :=
  match e with
  | .assign field' t => if field = field' then some t else none
  | _ => none

def priority? : Option Priority :=
  match e with
  | .prioritise p => some p
  | _ => none

def property? (k : String) : Option String :=
  match e with
  | .setProperty k' v => if k = k' then some v else none
  | _ => none

/-- What the edit sets is set, and all else is as it was. -/
structure Sets (f f' : Finding) : Prop where
  textAt : ∀ field, f'.textAt field = (e.text? field).getD (f.textAt field)
  priority : f'.priority = e.priority?.getD f.priority
  property : ∀ k, f'.properties.get? k = (e.property? k).or (f.properties.get? k)
  order : f.properties.entries.map Prod.fst <+: f'.properties.entries.map Prod.fst
  resources : f'.resources = f.resources
  selector : f'.selector = f.selector
  scored : f'.scored = f.scored
  timestamp : f'.timestamp = f.timestamp
  settled : f'.settled = f.settled

theorem sets_assign (f : Finding) (field : Finding.TextField) (t : Option String) :
    (assign field t).Sets f (f.assign field t) where
  textAt other := by
    rw [f.textAt_assign field other t, text?]
    split <;> rfl
  priority := by cases field <;> rfl
  property _ := by cases field <;> rfl
  order := by cases field <;> exact List.prefix_rfl
  resources := by cases field <;> rfl
  selector := by cases field <;> rfl
  scored := by cases field <;> rfl
  timestamp := by cases field <;> rfl
  settled := by cases field <;> rfl

theorem sets_prioritise (f : Finding) (p : Priority) :
    (prioritise p).Sets f { f with priority := p } where
  textAt field := by cases field <;> rfl
  priority := rfl
  property _ := rfl
  order := List.prefix_rfl
  resources := rfl
  selector := rfl
  scored := rfl
  timestamp := rfl
  settled := rfl

theorem sets_setProperty (f : Finding) (k v : String) :
    (setProperty k v).Sets f { f with properties := f.properties.set k v } where
  textAt field := by cases field <;> rfl
  priority := rfl
  property k' := by
    rw [f.properties.get?_set k v k', property?]
    split <;> rfl
  order := f.properties.keys_prefix_set k v
  resources := rfl
  selector := rfl
  scored := rfl
  timestamp := rfl
  settled := rfl

theorem sets_apply (f : Finding) : e.Sets f (e.apply f) := by
  cases e with
  | assign field t => exact sets_assign f field t
  | prioritise p => exact sets_prioritise f p
  | setProperty k v => exact sets_setProperty f k v

end Session.Edit

end PolicyAudit
