import PolicyAudit.Proofs.Check.Rewriting

/-! The maps of a document and those of the value read from it.
A map of texts is read entry by entry, so its keys stay in their order (`keepsOrder_of_labels`). The
maps of a document are listed by its schema from left to right, and the value that is read has just
these, one by one (`KeepsMaps`). -/

namespace PolicyAudit.Check

open Checked

mutual

def Schema.mapsIn : Schema → Option Value → List Entries
  | .labels, none => [[]]
  | .labels, some (.map es) => [es]
  | .items each, some (.list vs) => vs.flatMap fun v => each.mapsIn (some v)
  | .record fields, some (.map es) => mapsInFields fields es
  | _, _ => []

def Schema.mapsInFields : List (Name × Schema) → Entries → List Entries
  | [], _ => []
  | (n, l) :: fields, es => l.mapsIn (find es n).2 ++ mapsInFields fields es

end

@[simp] theorem Schema.mapsIn_whole (o : Option Value) : Schema.whole.mapsIn o = [] := by
  cases o <;> rfl

@[simp] theorem Schema.mapsIn_record (fields : List (Name × Schema)) (es : Entries) :
    (Schema.record fields).mapsIn (some (.map es)) =
      fields.flatMap fun (n, l) => l.mapsIn (find es n).2 := by
  show Schema.mapsInFields fields es = _
  induction fields with
  | nil => rfl
  | cons field fields ih =>
    rw [Schema.mapsInFields, ih]
    rfl

/-- The same keys in the same order, each with the text that was read from its value. -/
def KeepsOrder (es : Entries) (l : Labels) : Prop :=
  (es.map Prod.fst).Nodup →
    List.Forall₂ (fun e kv => e.1 = .text kv.1 ∧ text e.2 = .accepted kv.2) es l.entries

theorem forall₂_of_labelEntries {es : Entries} {kvs : List (String × String)}
    (h : labelEntries es = .accepted kvs) :
    List.Forall₂ (fun e kv => e.1 = .text kv.1 ∧ text e.2 = .accepted kv.2) es kvs := by
  induction es generalizing kvs with
  | nil =>
    cases h
    exact .nil
  | cons e es ih =>
    obtain ⟨k, v⟩ := e
    obtain ⟨_, rest, he, hrest, rfl⟩ := seq_eq_accepted_iff.1 h
    obtain ⟨_, hpair, rfl⟩ := map_eq_accepted_iff.1 he
    obtain ⟨_, s, hname, hs, rfl⟩ := seq_eq_accepted_iff.1 hpair
    obtain ⟨name, hkey, rfl⟩ := map_eq_accepted_iff.1 hname
    refine .cons ⟨?_, under_eq_accepted_iff.1 hs⟩ (ih hrest)
    cases k with
    | text name' =>
      cases hkey
      rfl
    | other shown => cases hkey

theorem keepsOrder_of_labels {es : Entries} {l : Labels} (h : labels (.map es) = .accepted l) :
    KeepsOrder es l := by
  intro hkeys
  obtain ⟨kvs, hkvs, rfl⟩ := map_eq_accepted_iff.1 h
  have hentries := forall₂_of_labelEntries hkvs
  have hnames : es.map Prod.fst = (kvs.map Prod.fst).map Key.text := by
    rw [← List.forall₂_eq_eq_eq, List.forall₂_map_left_iff, List.forall₂_map_right_iff,
      List.forall₂_map_right_iff]
    exact hentries.imp fun _ _ he => he.1
  have hread : (Labels.ofList kvs).entries = kvs :=
    Labels.entries_foldl_set (l := .empty) (hnames ▸ hkeys).of_map
  rwa [hread]

/-- Of an accepted document the value has the maps, in order and each in its order. -/
def KeepsMaps (l : Schema) (read : Value → Checked α) (maps : α → List Labels) : Prop :=
  ∀ ⦃v a⦄, read v = .accepted a → List.Forall₂ KeepsOrder (l.mapsIn (some v)) (maps a)

theorem keepsMaps_labels : KeepsMaps .labels labels fun l => [l] := by
  intro v l h
  cases v with
  | map es => exact .cons (keepsOrder_of_labels h) .nil
  | _ => cases h

theorem keepsMaps_whole (read : Value → Checked α) : KeepsMaps .whole read fun _ => [] :=
  fun _ _ _ => .nil

theorem keepsMaps_record_none {fields : List (Name × Schema)} {read : Entries → Checked α}
    (h : ∀ es, Schema.mapsInFields fields es = []) :
    KeepsMaps (.record fields) (record read) fun _ => [] := by
  intro v a ha
  obtain ⟨es, rfl, -⟩ := record_eq_accepted_iff.1 ha
  rw [Schema.mapsIn, h]
  exact .nil

variable {l : Schema} {read : Value → Checked α} {maps : α → List Labels}

theorem KeepsMaps.nullable (h : KeepsMaps l read maps) :
    KeepsMaps l (Check.nullable read) fun o => o.toList.flatMap maps := by
  intro v o ho
  by_cases hv : v = .null
  · subst hv
    cases ho
    cases l <;> exact .nil
  · rw [nullable_of_ne_null hv] at ho
    obtain ⟨a, ha, rfl⟩ := map_eq_accepted_iff.1 ho
    simpa using h ha

theorem forall₂_of_items (h : KeepsMaps l read maps) {vs : List Value} {i : Nat} {as : List α}
    (has : items read i vs = .accepted as) :
    List.Forall₂ KeepsOrder (vs.flatMap fun v => l.mapsIn (some v)) (as.flatMap maps) := by
  induction vs generalizing i as with
  | nil =>
    cases has
    exact .nil
  | cons v vs ih =>
    obtain ⟨_, rest, hv, hrest, rfl⟩ := seq_eq_accepted_iff.1 has
    obtain ⟨a, ha, rfl⟩ := map_eq_accepted_iff.1 hv
    exact List.rel_append (h (under_eq_accepted_iff.1 ha)) (ih hrest)

theorem KeepsMaps.listOf (h : KeepsMaps l read maps) :
    KeepsMaps (.items l) (Check.listOf read) (·.flatMap maps) := by
  intro v as has
  cases v with
  | list vs => exact forall₂_of_items h has
  | _ => cases has

theorem KeepsMaps.listOf_none (h : KeepsMaps l read fun _ => []) :
    KeepsMaps (.items l) (Check.listOf read) fun _ => [] := by
  intro v as has
  have hnone : (as.flatMap fun _ => ([] : List Labels)) = [] :=
    List.flatMap_eq_nil_iff.2 fun _ _ => rfl
  exact hnone ▸ h.listOf has

theorem KeepsMaps.nullable_none (h : KeepsMaps l read fun _ => []) :
    KeepsMaps l (Check.nullable read) fun _ => [] := by
  intro v o ho
  have hnone : (o.toList.flatMap fun _ => ([] : List Labels)) = [] :=
    List.flatMap_eq_nil_iff.2 fun _ _ => rfl
  exact hnone ▸ h.nullable ho

variable {es : Entries} {n : Name} {a : α}

theorem KeepsMaps.required (h : KeepsMaps l read maps) (ha : Check.required es n read = .accepted a) :
    List.Forall₂ KeepsOrder (l.mapsIn (find es n).2) (maps a) := by
  unfold Check.required at ha
  split at ha
  · rename_i hfind
    rw [hfind]
    exact h (under_eq_accepted_iff.1 ha)
  · cases ha

theorem KeepsMaps.withDefault {default : α} (h : KeepsMaps l read maps)
    (hdefault : List.Forall₂ KeepsOrder (l.mapsIn none) (maps default))
    (ha : Check.withDefault es n default read = .accepted a) :
    List.Forall₂ KeepsOrder (l.mapsIn (find es n).2) (maps a) := by
  unfold Check.withDefault at ha
  split at ha
  · rename_i hfind
    rw [hfind]
    exact h (under_eq_accepted_iff.1 ha)
  · rename_i hfind
    cases ha
    rw [hfind]
    exact hdefault

theorem KeepsMaps.labels {l : Labels} (h : Check.withDefault es n .empty Check.labels = .accepted l) :
    List.Forall₂ KeepsOrder (Schema.labels.mapsIn (find es n).2) [l] :=
  keepsMaps_labels.withDefault (.cons (fun _ => .nil) .nil) h

end PolicyAudit.Check
