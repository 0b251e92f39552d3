import Mathlib.Data.List.Forall2
import Mathlib.Data.List.Nodup
import Mathlib.Data.List.Pairwise
import PolicyAudit.Proofs.Check.Reading
import PolicyAudit.Proofs.Check.Restore

/-! Documents in which the same fields are found.
A schema says which fields a reader looks up. In a rewritten document each of them is found with the
same value, itself rewritten or not, under the same name, or under its documented name instead of the
alternative one if it is among the moved fields (`Rewritten`). What the reader says of both documents
is then alike: the same value, or the same faults at places that differ by such names only
(`Outcome`). This passes from the values to the fields and from these to the record (`reads_record`),
and from one change of a mapping to another document at once (`rewritten_of_edited`). -/

namespace PolicyAudit

namespace Entries

theorem get?_perm {es es' : Entries} (h : es.Perm es') (hkeys : (es.map Prod.fst).Nodup)
    (name : String) : es.get? name = es'.get? name := by
  induction h with
  | nil => rfl
  | cons e _ ih => rw [get?_cons, get?_cons, ih (List.nodup_cons.1 hkeys).2]
  | swap e e' es =>
    obtain ⟨k, v⟩ := e
    obtain ⟨k', v'⟩ := e'
    have hne : k' ≠ k := fun he => (List.nodup_cons.1 hkeys).1 (he ▸ List.mem_cons_self)
    simp only [get?_cons]
    split_ifs with h h'
    · exact absurd (h.trans h'.symm) hne
    · rfl
    · rfl
    · rfl
  | trans h _ ih ih' => exact (ih hkeys).trans (ih' ((h.map _).nodup hkeys))

end Entries

namespace Check

/-- What a reader looks at: everything, a map in its order, the items of a list, or some fields. -/
inductive Schema
  | whole
  | labels
  | items (each : Schema)
  | record (fields : List (Name × Schema))

def Schema.names : Schema → List Name
  | .record fields => fields.map Prod.fst
  | _ => []

/-- Both mappings hold the field, with related values, or neither does. Where the documented name is
there the alternative one does not matter; where only the latter is, a moved field may have left it. -/
inductive Field (moved : List Name) (R : Value → Value → Prop) (n : Name) (es es' : Entries) : Prop
  | documented {v v' : Value} (h : es.get? n.documented = some v)
    (h' : es'.get? n.documented = some v') (hv : R v v')
  | alternative {other : String} {v v' : Value} (hn : n.alternative = some other)
    (hnone : es.get? n.documented = none) (hnone' : es'.get? n.documented = none)
    (h : es.get? other = some v) (h' : es'.get? other = some v') (hv : R v v')
  | moved {other : String} {v v' : Value} (hmoved : n ∈ moved) (hn : n.alternative = some other)
    (hnone : es.get? n.documented = none) (h : es.get? other = some v)
    (h' : es'.get? n.documented = some v') (hv : R v v')
  | absent (hnone : es.get? n.documented = none) (hnone' : es'.get? n.documented = none)
    (h : n.alternative.bind es.get? = none) (h' : n.alternative.bind es'.get? = none)

mutual

/-- The other document has what the schema names, up to the names of moved fields. -/
def Rewritten (moved : List Name) : Schema → Value → Value → Prop
  | .whole, v, v' => v = v'
  | .labels, v, v' => v = v'
  | .items each, v, v' =>
    v = v' ∨ ∃ vs vs', v = .list vs ∧ v' = .list vs' ∧ List.Forall₂ (Rewritten moved each) vs vs'
  | .record fields, v, v' =>
    v = v' ∨ ∃ es es', v = .map es ∧ v' = .map es' ∧ RewrittenFields moved fields es es'

def RewrittenFields (moved : List Name) : List (Name × Schema) → Entries → Entries → Prop
  | [], _, _ => True
  | (n, l) :: fields, es, es' =>
    Field moved (Rewritten moved l) n es es' ∧ RewrittenFields moved fields es es'

end

inductive Follows (moved : List Name) : Place → Place → Prop
  | same (p : Place) : Follows moved p p
  | moved {n : Name} {other : String} (hmoved : n ∈ moved) (hn : n.alternative = some other) :
    Follows moved (.field other) (.field n.documented)

structure SameFault (moved : List Name) (i i' : Issue) : Prop where
  fault : i.fault = i'.fault
  path : List.Forall₂ (Follows moved) i.path i'.path

/-- Both accept with the same value, or both reject with the same faults in the same order. -/
inductive Outcome (moved : List Name) : Checked α → Checked α → Prop
  | accepted (a : α) : Outcome moved (.accepted a) (.accepted a)
  | rejected {is is' : List Issue} (h : List.Forall₂ (SameFault moved) is is') :
    Outcome moved (.rejected is) (.rejected is')

variable {moved : List Name}

theorem SameFault.refl (i : Issue) : SameFault moved i i :=
  ⟨rfl, List.forall₂_same.2 fun p _ => .same p⟩

theorem SameFault.under {i i' : Issue} {p p' : Place} (hp : Follows moved p p')
    (h : SameFault moved i i') : SameFault moved (i.under p) (i'.under p') :=
  ⟨h.fault, .cons hp h.path⟩

theorem Follows.eq_of_nil {p p' : Place} (h : Follows [] p p') : p = p' := by
  cases h with
  | same => rfl
  | moved hmoved => cases hmoved

theorem SameFault.eq_of_nil {i i' : Issue} (h : SameFault [] i i') : i = i' := by
  obtain ⟨path, fault⟩ := i
  obtain ⟨path', fault'⟩ := i'
  obtain rfl : fault = fault' := h.fault
  obtain rfl : path = path' := List.forall₂_eq_eq_eq ▸ h.path.imp fun _ _ hp => hp.eq_of_nil
  rfl

theorem eq_of_sameFaults {is is' : List Issue} (h : List.Forall₂ (SameFault []) is is') : is = is' :=
  List.forall₂_eq_eq_eq ▸ h.imp fun _ _ hi => hi.eq_of_nil

namespace Outcome

theorem refl (c : Checked α) : Outcome moved c c := by
  cases c with
  | accepted a => exact .accepted a
  | rejected is => exact .rejected (List.forall₂_same.2 fun i _ => .refl i)

theorem eq_of_nil {c c' : Checked α} (h : Outcome [] c c') : c = c' := by
  cases h with
  | accepted a => rfl
  | rejected h => exact congrArg _ (eq_of_sameFaults h)

theorem map (f : α → β) {c c' : Checked α} (h : Outcome moved c c') :
    Outcome moved (f <$> c) (f <$> c') := by
  cases h with
  | accepted a => exact .accepted (f a)
  | rejected h => exact .rejected h

theorem seq {f f' : Checked (α → β)} {c c' : Checked α} (hf : Outcome moved f f')
    (hc : Outcome moved c c') : Outcome moved (f <*> c) (f' <*> c') := by
  cases hf with
  | accepted f =>
    cases hc with
    | accepted a => exact .accepted (f a)
    | rejected h => exact .rejected h
  | rejected hf =>
    cases hc with
    | accepted a => exact .rejected hf
    | rejected h => exact .rejected (List.rel_append hf h)

theorem under {c c' : Checked α} {p p' : Place} (hp : Follows moved p p')
    (h : Outcome moved c c') : Outcome moved (c.under p) (c'.under p') := by
  cases h with
  | accepted a => exact .accepted a
  | rejected h =>
    refine .rejected ?_
    rw [List.forall₂_map_left_iff, List.forall₂_map_right_iff]
    exact h.imp fun _ _ hi => hi.under hp

end Outcome

/-- What the reader says of a document, it says alike of a rewritten one. -/
def Reads (l : Schema) (read : Value → Checked α) : Prop :=
  ∀ ⦃moved v v'⦄, Rewritten moved l v v' → Outcome moved (read v) (read v')

def ReadsFields (fields : List (Name × Schema)) (read : Entries → Checked α) : Prop :=
  ∀ ⦃moved es es'⦄, RewrittenFields moved fields es es' → Outcome moved (read es) (read es')

theorem reads_whole (read : Value → Checked α) : Reads .whole read := by
  rintro moved v _ rfl
  exact .refl _

theorem reads_labels (read : Value → Checked α) : Reads .labels read := by
  rintro moved v _ rfl
  exact .refl _

theorem Rewritten.eq_or_ne_null {l : Schema} {v v' : Value} (h : Rewritten moved l v v') :
    v = v' ∨ v ≠ .null ∧ v' ≠ .null := by
  cases l with
  | whole => exact .inl h
  | labels => exact .inl h
  | items each =>
    obtain rfl | ⟨_, _, rfl, rfl, -⟩ := h
    · exact .inl rfl
    · exact .inr ⟨nofun, nofun⟩
  | record fields =>
    obtain rfl | ⟨_, _, rfl, rfl, -⟩ := h
    · exact .inl rfl
    · exact .inr ⟨nofun, nofun⟩

theorem reads_nullable {l : Schema} {read : Value → Checked α} (h : Reads l read) :
    Reads l (nullable read) := by
  intro moved v v' hv
  obtain rfl | ⟨hne, hne'⟩ := hv.eq_or_ne_null
  · exact .refl _
  · rw [nullable_of_ne_null hne, nullable_of_ne_null hne']
    exact (h hv).map some

theorem reads_listOf {l : Schema} {read : Value → Checked α} (h : Reads l read) :
    Reads (.items l) (listOf read) := by
  rintro moved v v' (rfl | ⟨vs, vs', rfl, rfl, hvs⟩)
  · exact .refl _
  · show Outcome moved (items read 0 vs) (items read 0 vs')
    -- the places count from the first item, those of the rest from a later one
    generalize 0 = i
    induction hvs generalizing i with
    | nil => exact .refl _
    | cons hv _ ih => exact (((h hv).under (.same _)).map List.cons).seq (ih (i + 1))

theorem reads_record {fields : List (Name × Schema)} {read : Entries → Checked α}
    (h : ReadsFields fields read) : Reads (.record fields) (record read) := by
  rintro moved v v' (rfl | ⟨es, es', rfl, rfl, hes⟩)
  · exact .refl _
  · exact h hes

theorem Field.find {R : Value → Value → Prop} {n : Name} {es es' : Entries}
    (h : Field moved R n es es') :
    find es n = (n.documented, none) ∧ find es' n = (n.documented, none) ∨
    ∃ name name' v v', find es n = (name, some v) ∧ find es' n = (name', some v') ∧
      Follows moved (.field name) (.field name') ∧ R v v' := by
  have hother {es : Entries} {other : String} {v : Value} (hn : n.alternative = some other)
      (hnone : es.get? n.documented = none) (h : es.get? other = some v) :
      Check.find es n = (other, some v) := by
    simp only [Check.find, hnone, hn, h]
  cases h with
  | documented h h' hv =>
    exact .inr ⟨_, _, _, _, find_documented h, find_documented h', .same _, hv⟩
  | alternative hn hnone hnone' h h' hv =>
    exact .inr ⟨_, _, _, _, hother hn hnone h, hother hn hnone' h', .same _, hv⟩
  | moved hmoved hn hnone h h' hv =>
    exact .inr ⟨_, _, _, _, hother hn hnone h, find_documented h', .moved hmoved hn, hv⟩
  | absent hnone hnone' h h' =>
    exact .inl ⟨find_eq_none hnone (Option.bind_eq_none_iff.1 h),
      find_eq_none hnone' (Option.bind_eq_none_iff.1 h')⟩

theorem RewrittenFields.field {fields : List (Name × Schema)} {es es' : Entries}
    (h : RewrittenFields moved fields es es') {n : Name} {l : Schema} (hn : (n, l) ∈ fields) :
    Field moved (Rewritten moved l) n es es' := by
  induction fields with
  | nil => cases hn
  | cons field fields ih =>
    obtain ⟨n', l'⟩ := field
    rcases List.mem_cons.1 hn with hn | hn
    · cases hn
      exact h.1
    · exact ih h.2 hn

section fields

variable {fields : List (Name × Schema)} {n : Name} {l : Schema} {read : Value → Checked α}

theorem readsFields_required (hn : (n, l) ∈ fields) (h : Reads l read) :
    ReadsFields fields fun es => required es n read := by
  intro moved es es' hes
  simp only [required]
  obtain ⟨hnone, hnone'⟩ | ⟨_, _, _, _, hv, hv', hplace, hR⟩ := (hes.field hn).find
  · rw [hnone, hnone']
    exact .refl _
  · rw [hv, hv']
    exact (h hR).under hplace

theorem readsFields_withDefault {default : α} (hn : (n, l) ∈ fields) (h : Reads l read) :
    ReadsFields fields fun es => withDefault es n default read := by
  intro moved es es' hes
  simp only [withDefault]
  obtain ⟨hnone, hnone'⟩ | ⟨_, _, _, _, hv, hv', hplace, hR⟩ := (hes.field hn).find
  · rw [hnone, hnone']
    exact .refl _
  · rw [hv, hv']
    exact (h hR).under hplace

theorem readsFields_optional (hn : (n, l) ∈ fields) (h : Reads l read) :
    ReadsFields fields fun es => Check.optional es n read :=
  readsFields_withDefault hn (reads_nullable h)

theorem ReadsFields.map {read : Entries → Checked α} (h : ReadsFields fields read) (f : α → β) :
    ReadsFields fields fun es => f <$> read es :=
  fun _ _ _ hes => (h hes).map f

theorem ReadsFields.seq {f : Entries → Checked (α → β)} {read : Entries → Checked α}
    (hf : ReadsFields fields f) (h : ReadsFields fields read) :
    ReadsFields fields fun es => f es <*> read es :=
  fun _ _ _ hes => (hf hes).seq (h hes)

end fields

section edits

def Name.texts (n : Name) : List String := n.documented :: n.alternative.toList

def AgreeBut (names : List String) (es es' : Entries) : Prop :=
  ∀ name ∉ names, es.get? name = es'.get? name

/-- One change to a mapping with the given fields: the entries in another order, an entry that is not a
field, an alternative name beside the documented one, or a value that moves to the documented name. -/
inductive Edited (moved names : List Name) (es es' : Entries) : Prop
  | reordered (h : es.Perm es') (hkeys : (es.map Prod.fst).Nodup)
  | unknown {k : String} (hk : ∀ n ∈ names, k ∉ n.texts) (h : AgreeBut [k] es es')
  | hidden {n : Name} {other : String} {v : Value} (hn : n ∈ names)
    (hother : n.alternative = some other) (hv : es.get? n.documented = some v)
    (h : AgreeBut [other] es es')
  | moved {n : Name} {other : String} {v : Value} (hmoved : n ∈ moved) (hn : n ∈ names)
    (hother : n.alternative = some other) (hnone : es.get? n.documented = none)
    (hv : es.get? other = some v) (hv' : es'.get? n.documented = some v)
    (h : AgreeBut n.texts es es')

variable {fields : List (Name × Schema)} {es es' : Entries}

theorem Rewritten.refl (l : Schema) (v : Value) : Rewritten moved l v v := by
  cases l with
  | whole => rfl
  | labels => rfl
  | items each => exact .inl rfl
  | record fields => exact .inl rfl

theorem rewrittenFields_of_forall
    (h : ∀ nl ∈ fields, Field moved (Rewritten moved nl.2) nl.1 es es') :
    RewrittenFields moved fields es es' := by
  induction fields with
  | nil => trivial
  | cons nl fields ih =>
    rw [List.forall_mem_cons] at h
    exact ⟨h.1, ih h.2⟩

theorem field_of_agree {n : Name} (l : Schema) (h : ∀ name ∈ n.texts, es.get? name = es'.get? name) :
    Field moved (Rewritten moved l) n es es' := by
  have hdocumented := h n.documented List.mem_cons_self
  cases hv : es.get? n.documented with
  | some v => exact .documented hv (hdocumented ▸ hv) (.refl l v)
  | none =>
    have hnone' : es'.get? n.documented = none := hdocumented ▸ hv
    cases hn : n.alternative with
    | none => exact .absent hv hnone' (by simp [hn]) (by simp [hn])
    | some other =>
      have hsame : es.get? other = es'.get? other := h other (by simp [Name.texts, hn])
      cases hw : es.get? other with
      | some w => exact .alternative hn hv hnone' hw (hsame ▸ hw) (.refl l w)
      | none => exact .absent hv hnone' (by simp [hn, hw]) (by simp [hn, ← hsame, hw])

theorem eq_of_mem_texts {names : List Name} (h : (names.flatMap Name.texts).Nodup) {n m : Name}
    (hn : n ∈ names) (hm : m ∈ names) {name : String} (hname : name ∈ n.texts)
    (hname' : name ∈ m.texts) : n = m := by
  by_contra hne
  have hsymm : Std.Symm (Function.onFun List.Disjoint Name.texts) :=
    ⟨fun _ _ h _ hm hn => h hn hm⟩
  exact (List.nodup_flatMap.1 h).2.forall hn hm hne hname hname'

theorem other_mem_texts {n : Name} {other : String} (h : n.alternative = some other) :
    other ∈ n.texts := by
  simp [Name.texts, h]

theorem documented_ne_other {names : List Name} (h : (names.flatMap Name.texts).Nodup) {n : Name}
    (hn : n ∈ names) {other : String} (hother : n.alternative = some other) :
    n.documented ≠ other := by
  have htexts := (List.nodup_flatMap.1 h).1 n hn
  rw [Name.texts, hother] at htexts
  simpa using htexts

/-- Where no two fields share a name, all these changes are rewritings. -/
theorem rewritten_of_edited (hdistinct : ((fields.map Prod.fst).flatMap Name.texts).Nodup)
    (h : Edited moved (fields.map Prod.fst) es es') :
    Rewritten moved (.record fields) (.map es) (.map es') := by
  refine .inr ⟨es, es', rfl, rfl, rewrittenFields_of_forall fun nl hnl => ?_⟩
  have hm : nl.1 ∈ fields.map Prod.fst := List.mem_map_of_mem hnl
  cases h with
  | reordered h hkeys => exact field_of_agree nl.2 fun name _ => Entries.get?_perm h hkeys name
  | unknown hk h =>
    refine field_of_agree nl.2 fun name hname => h name fun hmem => ?_
    exact hk nl.1 hm (List.mem_singleton.1 hmem ▸ hname)
  | @hidden n other v hn hother hv h =>
    by_cases hne : nl.1 = n
    · have hself : n.documented ≠ other := documented_ne_other hdistinct hn hother
      rw [hne]
      exact .documented hv (h _ (mt List.mem_singleton.1 hself) ▸ hv) (.refl nl.2 v)
    · refine field_of_agree nl.2 fun name hname => h name fun hmem => ?_
      rw [List.mem_singleton.1 hmem] at hname
      exact hne (eq_of_mem_texts hdistinct hm hn hname (other_mem_texts hother))
  | @moved n other v hmoved hn hother hnone hv hv' h =>
    by_cases hne : nl.1 = n
    · rw [hne]
      exact .moved hmoved hother hnone hv hv' (.refl nl.2 v)
    · exact field_of_agree nl.2 fun name hname =>
        h name fun hmem => hne (eq_of_mem_texts hdistinct hm hn hname hmem)

end edits

end Check

end PolicyAudit
