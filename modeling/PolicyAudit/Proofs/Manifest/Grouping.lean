import Mathlib.Data.List.Basic
import Mathlib.Data.List.Forall2
import Mathlib.Logic.Relation
import PolicyAudit.Proofs.Document.Form
import PolicyAudit.Proofs.Manifest.Visits

/-! Documents in groups.
A list groups its items and a mapping of kind `List` those under its `items`. A row of values is opened
where one of them is a group and what it groups takes its place; this changes nothing of what the row
gives (`Opens.flatMap_leaves`), and goes on until documents are left (`exists_opened`). So two files
whose rows can be opened to a common one are loaded alike. -/

namespace PolicyAudit.Manifest

open Relation

structure IsDocument (v : Value) : Prop where
  not_list : ∀ vs, v ≠ .list vs
  not_group : ∀ es, v = .map es → ¬ isGroup es

/-- A group and what it groups. A mapping without `items`, or with a null there, groups nothing. -/
inductive Groups : Value → List Value → Prop
  | list (vs : List Value) : Groups (.list vs) vs
  | items {es : Entries} {vs : List Value} (hkind : isGroup es)
    (h : es.get? "items" = some (.list vs)) : Groups (.map es) vs
  | null {es : Entries} (hkind : isGroup es) (h : es.get? "items" = some .null) : Groups (.map es) []
  | missing {es : Entries} (hkind : isGroup es) (h : es.get? "items" = none) : Groups (.map es) []

/-- What a group groups takes its place. -/
inductive Opens : List Value → List Value → Prop
  | intro (before after : List Value) {v : Value} {us : List Value} (h : Groups v us) :
    Opens (before ++ v :: after) (before ++ us ++ after)

def Within (u v : Value) : Prop := ∃ us, Groups v us ∧ u ∈ us

/-- Whatever is in the value at any depth is a document or a group. -/
def WellGrouped (v : Value) : Prop :=
  ∀ u, ReflTransGen Within u v → IsDocument u ∨ ∃ us, Groups u us

structure Opened (v : Value) (ds : List Value) : Prop where
  opens : ReflTransGen Opens [v] ds
  documents : ∀ d ∈ ds, IsDocument d

theorem leavesOf_eq_flatMap (vs : List Value) : leavesOf vs = vs.flatMap leaves := by
  induction vs with
  | nil => rfl
  | cons v vs ih => rw [leavesOf, ih, List.flatMap_cons]

theorem groupLeaves_eq (es : Entries) : groupLeaves es =
    match es.get? "items" with
    | none => []
    | some (.list vs) => leavesOf vs
    | some v =>
      match grouped v with
      | .ok vs => vs.map .ok
      | .error f => [.error f] := by
  induction es with
  | nil => rfl
  | cons e es ih =>
    obtain ⟨k, v⟩ := e
    unfold groupLeaves
    rw [Entries.get?_cons]
    by_cases hk : k = .text "items"
    · rw [if_pos hk, if_pos hk]
      cases v <;> rfl
    · rw [if_neg hk, if_neg hk, ih]

theorem leaves_of_isDocument {d : Value} (h : IsDocument d) : leaves d = [.ok d] := by
  cases d with
  | list vs => exact absurd rfl (h.not_list vs)
  | map es => rw [leaves, if_neg (h.not_group es rfl)]
  | _ => rfl

theorem isDocument_map {es : Entries} (h : ¬ isGroup es) : IsDocument (.map es) where
  not_list := nofun
  not_group _ hes := Value.map.inj hes ▸ h

theorem leaves_of_groups {v : Value} {us : List Value} (h : Groups v us) :
    leaves v = us.flatMap leaves := by
  cases h with
  | list vs => rw [leaves, leavesOf_eq_flatMap]
  | items hkind h =>
    rw [leaves, if_pos hkind, groupLeaves_eq, h]
    exact leavesOf_eq_flatMap us
  | null hkind h =>
    rw [leaves, if_pos hkind, groupLeaves_eq, h]
    rfl
  | missing hkind h =>
    rw [leaves, if_pos hkind, groupLeaves_eq, h]
    rfl

theorem Opens.flatMap_leaves {vs ws : List Value} (h : Opens vs ws) :
    vs.flatMap leaves = ws.flatMap leaves := by
  cases h with
  | intro before after h =>
    rw [List.flatMap_append, List.flatMap_cons, leaves_of_groups h, List.flatMap_append,
      List.flatMap_append, List.append_assoc]

theorem flatMap_leaves_of_opens {vs ws : List Value} (h : ReflTransGen Opens vs ws) :
    vs.flatMap leaves = ws.flatMap leaves := by
  induction h with
  | refl => rfl
  | tail _ h ih => exact ih.trans h.flatMap_leaves

theorem Opens.append_left {vs ws : List Value} (us : List Value) (h : Opens vs ws) :
    Opens (us ++ vs) (us ++ ws) := by
  cases h with
  | intro before after h =>
    simpa only [List.append_assoc] using Opens.intro (us ++ before) after h

theorem Opens.append_right {vs ws : List Value} (us : List Value) (h : Opens vs ws) :
    Opens (vs ++ us) (ws ++ us) := by
  cases h with
  | intro before after h =>
    simpa only [List.append_assoc, List.cons_append] using Opens.intro before (after ++ us) h

theorem opens_append {vs ws vs' ws' : List Value} (h : ReflTransGen Opens vs ws)
    (h' : ReflTransGen Opens vs' ws') : ReflTransGen Opens (vs ++ vs') (ws ++ ws') :=
  (h.lift (· ++ vs') fun _ _ => Opens.append_right vs').trans
    (h'.lift (ws ++ ·) fun _ _ => Opens.append_left ws)

theorem sizeOf_lt_of_within {u v : Value} (h : Within u v) : sizeOf u < sizeOf v := by
  obtain ⟨us, h, hu⟩ := h
  have hlt := List.sizeOf_lt_of_mem hu
  cases h with
  | list => simp; omega
  | items hkind h =>
    have hmem := List.sizeOf_lt_of_mem (Entries.mem_of_get? h)
    simp at hmem ⊢
    omega
  | null => cases hu
  | missing => cases hu

theorem exists_opened_of_forall {vs : List Value} (h : ∀ v ∈ vs, ∃ ds, Opened v ds) :
    ∃ ds, ReflTransGen Opens vs ds ∧ ∀ d ∈ ds, IsDocument d := by
  induction vs with
  | nil => exact ⟨[], .refl, by simp⟩
  | cons v vs ih =>
    rw [List.forall_mem_cons] at h
    obtain ⟨ds, hds⟩ := h.1
    obtain ⟨es, hes, hdocuments⟩ := ih h.2
    exact ⟨ds ++ es, opens_append hds.opens hes,
      List.forall_mem_append.2 ⟨hds.documents, hdocuments⟩⟩

theorem exists_opened {v : Value} (h : WellGrouped v) : ∃ ds, Opened v ds := by
  induction hn : sizeOf v using Nat.strongRecOn generalizing v with
  | ind n ih =>
    subst hn
    rcases h v .refl with hdocument | ⟨us, hus⟩
    · exact ⟨[v], .refl, List.forall_mem_singleton.2 hdocument⟩
    · have hopened : ∀ u ∈ us, ∃ ds, Opened u ds := fun u hu =>
        ih _ (sizeOf_lt_of_within ⟨us, hus, hu⟩)
          (fun w hw => h w (hw.tail ⟨us, hus, hu⟩)) rfl
      obtain ⟨ds, hds, hdocuments⟩ := exists_opened_of_forall hopened
      have hfirst : Opens [v] us := by simpa using Opens.intro [] [] hus
      exact ⟨ds, .head hfirst hds, hdocuments⟩

theorem leaves_of_opened {v : Value} {ds : List Value} (h : Opened v ds) :
    leaves v = ds.map .ok := by
  have hrow : [v].flatMap leaves = ds.flatMap leaves := flatMap_leaves_of_opens h.opens
  rw [List.flatMap_singleton] at hrow
  rw [hrow, List.flatMap_congr fun d hd => leaves_of_isDocument (h.documents d hd),
    List.map_eq_flatMap]

namespace Loading

structure Alike (m n : Loading) : Prop where
  result : m.result = n.result
  warnings : m.log.countP (·.level = .warning) = n.log.countP (·.level = .warning)

theorem Alike.append {k l m n : Loading} (hkl : k.Alike l) (hmn : m.Alike n) :
    (k.append m).Alike (l.append n) where
  result := by rw [Loading.append, Loading.append, hkl.result, hmn.result]
  warnings := by
    rw [Loading.append, Loading.append, List.countP_append, List.countP_append, hkl.warnings,
      hmn.warnings]

theorem alike_inTurn {ms ns : List Loading} (h : List.Forall₂ Alike ms ns) :
    (inTurn ms).Alike (inTurn ns) := by
  induction h with
  | nil => exact ⟨rfl, rfl⟩
  | @cons m n ms ns hmn _ ih =>
    rcases m.succeeds_or_fails with hm | ⟨f, hm⟩
    · have hn : n.Succeeds := succeeds_of_result (hmn.result.symm.trans hm)
      rw [inTurn_cons_of_succeeds hm, inTurn_cons_of_succeeds hn]
      exact hmn.append ih
    · rw [inTurn_cons_of_fails hm, inTurn_cons_of_fails (hmn.result.symm.trans hm)]
      exact hmn

end Loading

theorem alike_loadLeaf (p q : String) (o : Except Failure Value) :
    (loadLeaf p o).Alike (loadLeaf q o) := by
  cases o with
  | error f => exact ⟨rfl, rfl⟩
  | ok doc =>
    show (loadDocument p doc).Alike (loadDocument q doc)
    cases hvariant : variantOf? doc with
    | error f =>
      simp only [loadDocument, hvariant]
      exact ⟨rfl, rfl⟩
    | ok found =>
      cases found with
      | none =>
        simp only [loadDocument, hvariant]
        exact ⟨rfl, rfl⟩
      | some variant =>
        simp only [loadDocument, hvariant]
        cases Report.ofValue variant doc <;> exact ⟨rfl, rfl⟩

theorem alike_loadFile {l l' : Location} {content content' : ByteArray} {vs vs' : List Value}
    (h : documents l content = .ok vs) (h' : documents l' content' = .ok vs')
    (hleaves : vs.flatMap leaves = vs'.flatMap leaves) :
    (loadFile l (.file content)).Alike (loadFile l' (.file content')) := by
  have hread : List.Forall₂ Loading.Alike ((vs'.flatMap leaves).map (loadLeaf l.text))
      ((vs'.flatMap leaves).map (loadLeaf l'.text)) := by
    rw [List.forall₂_map_left_iff, List.forall₂_map_right_iff, List.forall₂_same]
    exact fun o _ => alike_loadLeaf l.text l'.text o
  have hloaded : (loaded l).Alike (loaded l') := ⟨rfl, rfl⟩
  rw [loadFile_of_documents h, loadFile_of_documents h', hleaves]
  exact Loading.alike_inTurn (List.rel_append hread (.cons hloaded .nil))

theorem load_of_file {t : Tree} {path : String} {l : Location} {e : Entry}
    (h : filesAt t (Location.ofText path) = some [(l, e)]) : load t path = loadFile l e := by
  rw [load_of_filesAt h, List.map_singleton, Loading.inTurn_singleton, reading]

theorem documents_of_json {l : Location} {text : String} {v : Value}
    (hsuffix : Location.suffix ((l.parts.getLast?).getD "") = ".json")
    (hlines : Lines.unify text.toList = text.toList) (h : Json.read? text = some v) :
    documents l text.toUTF8 = .ok [v] := by
  have htext : String.fromUTF8? text.toUTF8 = some text := by
    rw [String.fromUTF8?]
    exact dif_pos text.isValidUTF8
  simp only [documents, htext, hlines, String.ofList_toList, hsuffix, if_true, h]

/-- A value that groups documents, in lists and in mappings of kind `List` to any depth, gives just
these from left to right, each of which is neither and gives itself; and what a list gives is what its
parts give. So however the same documents are grouped in a file, the same reports are loaded or the
loading fails alike, with as many warnings; in a file of the same name, with the same records. -/
theorem grouping_leaves_no_trace :
    (∀ v, WellGrouped v → ∃ ds, Opened v ds) ∧
    (∀ v ds, Opened v ds → leaves v = ds.map .ok ∧ ∀ d ∈ ds, leaves d = [.ok d]) ∧
    (∀ vs ws, leaves (.list (vs ++ ws)) = leaves (.list vs) ++ leaves (.list ws)) ∧
    ∀ (t t' : Tree) (path path' : String) (l l' : Location) (content content' : ByteArray)
      (vs vs' ds : List Value),
      filesAt t (Location.ofText path) = some [(l, .file content)] →
      filesAt t' (Location.ofText path') = some [(l', .file content')] →
      documents l content = .ok vs → documents l' content' = .ok vs' →
      ReflTransGen Opens vs ds → ReflTransGen Opens vs' ds →
      (load t path).result = (load t' path').result ∧
      (load t path).log.countP (·.level = .warning) =
        (load t' path').log.countP (·.level = .warning) ∧
      (l.text = l'.text → load t path = load t' path') := by
  refine ⟨fun v h => exists_opened h, fun v ds h => ⟨leaves_of_opened h, fun d hd =>
    leaves_of_isDocument (h.documents d hd)⟩, fun vs ws => ?_, ?_⟩
  · rw [leaves_of_groups (.list _), leaves_of_groups (.list _), leaves_of_groups (.list _),
      List.flatMap_append]
  · intro t t' path path' l l' content content' vs vs' ds hfile hfile' hvs hvs' hopens hopens'
    have hleaves : vs.flatMap leaves = vs'.flatMap leaves :=
      (flatMap_leaves_of_opens hopens).trans (flatMap_leaves_of_opens hopens').symm
    rw [load_of_file hfile, load_of_file hfile']
    have halike := alike_loadFile hvs hvs' hleaves
    refine ⟨halike.result, halike.warnings, fun hl => ?_⟩
    rw [loadFile_of_documents hvs, loadFile_of_documents hvs', hleaves, hl, loaded, loaded, hl]

/-- A valid report and an invalid one, in one list and in several groups. -/
theorem grouping_leaves_no_trace_nested :
    let one := "[\x7b\"kind\":\"PolicyReport\",\"metadata\":\x7b\"name\":\"a\"\x7d\x7d," ++
      "\x7b\"kind\":\"PolicyReport\"\x7d]"
    let several := "\x7b\"items\":[[],[\x7b\"kind\":\"PolicyReport\",\"metadata\":\x7b\"name\":" ++
      "\"a\"\x7d\x7d],\x7b\"kind\":\"List\",\"items\":null\x7d,\x7b\"kind\":\"List\"\x7d," ++
      "\x7b\"kind\":\"PolicyReport\"\x7d],\"kind\":\"List\"\x7d"
    let t : Tree := [(["one.json"], .file one.toUTF8), (["several.json"], .file several.toUTF8)]
    let valid : Value := .record [("kind", .text "PolicyReport"),
      ("metadata", .record [("name", .text "a")])]
    let invalid : Value := .record [("kind", .text "PolicyReport")]
    leaves (.list [valid, invalid]) = [.ok valid, .ok invalid] ∧
      (load t "one.json").result = (load t "several.json").result ∧
      (load t "one.json").log.countP (·.level = .warning) =
        (load t "several.json").log.countP (·.level = .warning) := by
  intro one several t valid invalid
  let l : Location := ⟨"", ["one.json"]⟩
  let l' : Location := ⟨"", ["several.json"]⟩
  have hone : documents l one.toUTF8 = .ok [.list [valid, invalid]] :=
    documents_of_json (by decide +kernel) (by decide +kernel) <| by
      simp only [one, valid, invalid]
      cbv
  let empty : Value := .record [("kind", .text "List"), ("items", .null)]
  let missing : Value := .record [("kind", .text "List")]
  let items : List Value := [.list [], .list [valid], empty, missing, invalid]
  let group : Value := .record [("items", .list items), ("kind", .text "List")]
  have hseveral : documents l' several.toUTF8 = .ok [group] :=
    documents_of_json (by decide +kernel) (by decide +kernel) <| by
      simp only [several, group, items, empty, missing, valid, invalid]
      cbv
  have hopens : ReflTransGen Opens [.list [valid, invalid]] [valid, invalid] :=
    .single (.intro [] [] (.list _))
  have hgroup : Groups group items := .items rfl rfl
  have hopens' : ReflTransGen Opens [group] [valid, invalid] := calc
    ReflTransGen Opens [group] items := .single (.intro [] [] hgroup)
    ReflTransGen Opens _ [.list [valid], empty, missing, invalid] :=
      .single (.intro [] [.list [valid], empty, missing, invalid] (.list []))
    ReflTransGen Opens _ [valid, empty, missing, invalid] :=
      .single (.intro [] [empty, missing, invalid] (.list [valid]))
    ReflTransGen Opens _ [valid, missing, invalid] :=
      .single (.intro [valid] [missing, invalid] (.null rfl rfl))
    ReflTransGen Opens _ [valid, invalid] := .single (.intro [valid] [invalid] (.missing rfl rfl))
  have hdocument : ∀ d ∈ [valid, invalid], IsDocument d := by
    rw [List.forall_mem_cons, List.forall_mem_singleton]
    exact ⟨isDocument_map (by decide), isDocument_map (by decide)⟩
  obtain ⟨_, hleaves, -, hload⟩ := grouping_leaves_no_trace
  obtain ⟨hresult, hwarnings, -⟩ :=
    hload t t "one.json" "several.json" l l' _ _ _ _ _ rfl rfl hone hseveral hopens hopens'
  exact ⟨(hleaves _ _ ⟨hopens, hdocument⟩).1, hresult, hwarnings⟩

end PolicyAudit.Manifest
