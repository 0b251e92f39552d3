import PolicyAudit.Proofs.Cluster.Outcome

/-! What is left of the objects listed.
Each object comes to a report or to a warning, by itself and in its place (`reports_eq_outcomes`).
An object is read as it stands if it names a kind and with the kind listed otherwise, and this is
done on a copy: objects that are listed as either sort come to what each listing makes of them alone
(`listAll_onePage`). -/

namespace PolicyAudit

theorem Entries.put_of_get? {es : Entries} {name : String} {v : Value} (h : es.get? name = some v) :
    es.put (.text name) v = es := by
  induction es with
  | nil => cases h
  | cons e es ih =>
    obtain ⟨k, w⟩ := e
    by_cases hk : k = .text name
    · subst hk
      have hw : some w = some v := by simpa [get?] using h
      obtain rfl := Option.some.inj hw
      exact if_pos rfl
    · have hother : (Key.text name == k) = false := beq_false_of_ne (Ne.symm hk)
      have hrest : Entries.get? es name = some v := by
        simpa [get?, List.lookup_cons, hother] using h
      exact (if_neg hk).trans (congrArg ((k, w) :: ·) (ih hrest))

theorem length_lefts_add_rights (xs : List (α ⊕ β)) :
    (xs.filterMap Sum.getLeft?).length + (xs.filterMap Sum.getRight?).length = xs.length := by
  induction xs with
  | nil => rfl
  | cons x xs ih =>
    cases x with
    | inl a => simp only [List.filterMap_cons, Sum.getLeft?, Sum.getRight?, List.length_cons]; omega
    | inr b => simp only [List.filterMap_cons, Sum.getLeft?, Sum.getRight?, List.length_cons]; omega

namespace Cluster

def namesKind (item : Value) : Bool := (item.get? "kind").any fun kind => !kind.isNothing

def withKind (variant : Variant) : Value → Value
  | .map es => .map (Entries.put es (.text "kind") (.text variant.kind))
  | v => v

def outcome (variant : Variant) (item : Value) : Audit ⊕ Record :=
  match Report.parse (if namesKind item then item else withKind variant item) with
  | .ok r => .inl r
  | .error e => .inr ⟨.warning, .cluster, "skipping object: " ++ e.message⟩

variable {variant : Variant} {item : Value}

theorem get?_withKind {name : String} (h : name ≠ "kind") :
    (withKind variant item).get? name = item.get? name := by
  cases item with
  | map es => exact Entries.get?_put_ne es _ fun hk => h (Key.text.inj hk).symm
  | _ => rfl

theorem underKind_eq (variant : Variant) (item : Value) :
    underKind variant item = if namesKind item then item else withKind variant item := by
  cases item with
  | map es =>
    unfold namesKind underKind
    show Value.map (Entries.put es _ (Value.orElse (Entries.get? es "kind") _)) =
      if (Entries.get? es "kind").any _ then _ else _
    cases hkind : Entries.get? es "kind" with
    | none => rfl
    | some kind =>
      by_cases hfilled : kind.isNothing
      · simp [Value.orElse, hfilled, withKind]
      · simp [Value.orElse, hfilled, Entries.put_of_get? hkind]
  | _ => exact (ite_self _).symm

theorem report?_eq_outcome (variant : Variant) (item : Value) :
    report? variant item = (outcome variant item).getLeft? := by
  rw [report?, outcome, underKind_eq]
  cases Report.parse (if namesKind item then item else withKind variant item) <;> rfl

theorem warning?_eq_outcome (variant : Variant) (item : Value) :
    warning? variant item = (outcome variant item).getRight? := by
  rw [warning?, outcome, underKind_eq]
  cases Report.parse (if namesKind item then item else withKind variant item) <;> rfl

def reportsOf (variant : Variant) (items : List Value) : List Audit :=
  (items.map (outcome variant)).filterMap Sum.getLeft?

def warningsOf (variant : Variant) (items : List Value) : List Record :=
  (items.map (outcome variant)).filterMap Sum.getRight?

theorem length_reportsOf_add_warningsOf (variant : Variant) (items : List Value) :
    (reportsOf variant items).length + (warningsOf variant items).length = items.length := by
  rw [reportsOf, warningsOf, length_lefts_add_rights, List.length_map]

section

variable {items : List Value} (h : ∀ item ∈ items, IsObject item)

include h

theorem reports_eq_outcomes (variant : Variant) :
    reports variant items = (warningsOf variant items, .ok (reportsOf variant items)) := by
  rw [reports_of_objects variant h, reportsOf, warningsOf, List.filterMap_map, List.filterMap_map,
    funext (report?_eq_outcome variant), funext (warning?_eq_outcome variant)]
  rfl

theorem list_onePage (variant : Variant) : list variant (onePage items) =
    ⟨[⟨variant, .null⟩], listed variant items.length :: warningsOf variant items,
      .ok (reportsOf variant items)⟩ := by
  have hitems : itemsUpTo (onePage items) 0 = items := itemsUpTo_zero _
  rw [list_of_answer (served_onePage h).isPage (endsAt_zero rfl) variant rfl, hitems,
    reports_eq_outcomes h variant]
  rfl

theorem listAll_onePage :
    (listAll false fun _ => onePage items).result =
      .ok (reportsOf .namespaced items ++ reportsOf .clusterWide items) ∧
    (listAll false fun _ => onePage items).log =
      listed .namespaced items.length :: warningsOf .namespaced items ++
        listed .clusterWide items.length :: warningsOf .clusterWide items := by
  simp only [listAll, list_onePage h]
  exact ⟨rfl, rfl⟩

end

/-- Every object comes to one report or one warning, in its place and whatever else is listed. It is
read as it stands if it names a kind, and otherwise with the kind listed in place of its own and all
other entries as they are. The objects themselves stay as they are: listed as either sort in turn,
they come to what they come to alone. -/
theorem objects_are_conserved (variant : Variant) {items : List Value}
    (h : ∀ item ∈ items, IsObject item) :
    let outcomes := items.map (outcome variant)
    let rs := outcomes.filterMap Sum.getLeft?
    let warnings := outcomes.filterMap Sum.getRight?
    reports variant items = (warnings, .ok rs) ∧ rs.length + warnings.length = items.length ∧
    (∀ item ∈ items,
      let doc := if namesKind item then item else withKind variant item
      (∃ r, Report.parse doc = .ok r ∧ outcome variant item = .inl r) ∨
      ∃ e, Report.parse doc = .error e ∧
        outcome variant item = .inr ⟨.warning, .cluster, "skipping object: " ++ e.message⟩) ∧
    (∀ item ∈ items, (withKind variant item).get? "kind" = some (.text variant.kind) ∧
      ∀ name, name ≠ "kind" → (withKind variant item).get? name = item.get? name) ∧
    let both := listAll false fun _ => onePage items
    both.result = .ok (reportsOf .namespaced items ++ reportsOf .clusterWide items) ∧
    both.log = listed .namespaced items.length :: warningsOf .namespaced items ++
      listed .clusterWide items.length :: warningsOf .clusterWide items := by
  intro outcomes rs warnings
  refine ⟨reports_eq_outcomes h variant, length_reportsOf_add_warningsOf variant items,
    fun item _ => ?_, fun item hitem => ⟨?_, fun name => get?_withKind⟩, listAll_onePage h⟩
  · intro doc
    have houtcome : outcome variant item = match Report.parse doc with
      | .ok r => .inl r
      | .error e => .inr ⟨.warning, .cluster, "skipping object: " ++ e.message⟩ := rfl
    cases hparse : Report.parse doc with
    | ok r => exact .inl ⟨r, rfl, by rw [houtcome, hparse]⟩
    | error e => exact .inr ⟨e, rfl, by rw [houtcome, hparse]⟩
  · obtain ⟨es, rfl⟩ := (h item hitem).record
    exact Entries.get?_put_self ..

/-- A kind that is missing, one that counts as missing, a number, and the other kind; the last
object has no name. -/
theorem objects_are_conserved_mixed :
    let metadata : String × Value := ("metadata", .record [("name", .text "a")])
    let items : List Value := [.record [metadata], .record [("kind", .int 0), metadata],
      .record [("kind", .int 5), metadata], .record [("kind", .text "PolicyReport"), metadata],
      .record [("metadata", .record [])]]
    let report (variant : Variant) : Audit :=
      ⟨variant, Report.apiVersionDefault, { name := some "a" }, none, none, .zero, []⟩
    (∀ item ∈ items, IsObject item) ∧
    reports .clusterWide items =
      ([⟨.warning, .cluster, "skipping object: not a policy report: kind=5"⟩,
        ⟨.warning, .cluster, "skipping object: metadata.name:missing"⟩],
        .ok [report .clusterWide, report .clusterWide, report .namespaced]) := by
  intro metadata items report
  have hitems : ∀ item ∈ items, IsObject item := by
    simp only [items, List.forall_mem_cons]
    refine ⟨isObject_of_no_kind rfl, ?_, ?_, isObject_of_kind rfl (.inr ⟨_, rfl⟩),
      isObject_of_no_kind rfl, List.forall_mem_nil _⟩
    all_goals
      refine ⟨⟨_, rfl⟩, fun kind hkind _ => ?_⟩
      obtain rfl := Option.some.inj hkind
      exact ⟨nofun, nofun⟩
  exact ⟨hitems, (objects_are_conserved .clusterWide hitems).1.trans rfl⟩

end Cluster

end PolicyAudit
