import Mathlib.Data.List.Basic
import PolicyAudit.Proofs.Manifest.InTurn

/-! What comes of the documents of a file.
A document whose kind is that of a report gives one report or one warning, by itself
(`report?_or_warning?`); any other document gives nothing. A file is read with all its documents
(`reading_of_readable`), or it cannot be read or parsed and the failure names it
(`reading_of_rejected`), or it ends the loading without a word (`exists_failure_of_defective`).
There is no fourth case. -/

namespace PolicyAudit

theorem Variant.ofKind?_eq_some_iff {s : String} {variant : Variant} :
    Variant.ofKind? s = some variant ↔ s = variant.kind := by
  constructor
  · intro h
    have hkind := List.find?_some (p := fun v : Variant => v.kind == s) h
    exact (eq_of_beq hkind).symm
  · rintro rfl
    cases variant <;> decide

namespace Manifest

def kind? (doc : Value) : Option Variant :=
  match doc.get? "kind" with
  | some (.text s) => Variant.ofKind? s
  | _ => none

def HasCompoundKind (doc : Value) : Prop :=
  (∃ vs, doc.get? "kind" = some (.list vs)) ∨ ∃ es, doc.get? "kind" = some (.map es)

theorem kind?_eq_some_iff {doc : Value} {variant : Variant} :
    kind? doc = some variant ↔ doc.get? "kind" = some (.text variant.kind) := by
  unfold kind?
  split
  · rename_i s h
    rw [h, Variant.ofKind?_eq_some_iff, Option.some.injEq, Value.text.injEq]
  · rename_i h
    exact ⟨nofun, fun hkind => absurd hkind (h _)⟩

theorem variantOf?_of_hasCompoundKind {doc : Value} (h : HasCompoundKind doc) :
    variantOf? doc = .error .unfit := by
  cases doc with
  | map es =>
    rcases h with ⟨vs, h⟩ | ⟨es', h⟩
    · simp only [variantOf?, show Entries.get? es "kind" = _ from h]
    · simp only [variantOf?, show Entries.get? es "kind" = _ from h]
  | _ => rcases h with ⟨_, h⟩ | ⟨_, h⟩ <;> cases h

theorem variantOf?_of_not_hasCompoundKind {doc : Value} (h : ¬ HasCompoundKind doc) :
    variantOf? doc = .ok (kind? doc) := by
  cases doc with
  | map es =>
    have hget : (Value.map es).get? "kind" = Entries.get? es "kind" := rfl
    cases hkind : Entries.get? es "kind" with
    | none => simp only [variantOf?, kind?, hget, hkind]
    | some k =>
      cases k with
      | list vs => exact absurd (.inl ⟨vs, hkind⟩) h
      | map es' => exact absurd (.inr ⟨es', hkind⟩) h
      | _ => simp only [variantOf?, kind?, hget, hkind]
  | _ => rfl

theorem parse_of_kind? {doc : Value} {variant : Variant} (h : kind? doc = some variant) :
    Report.parse doc =
      match Report.ofValue variant doc with
      | .accepted r => .ok r
      | .rejected is => .error (.invalid is) := by
  have hvariant : Report.variantOf (.text variant.kind) = .ok variant := by
    cases variant <;> rfl
  rw [Report.parse, kind?_eq_some_iff.1 h, Option.getD_some, hvariant]
  rfl

theorem exists_kind?_of_parse {doc : Value} {r : Audit} (h : Report.parse doc = .ok r) :
    ∃ variant, kind? doc = some variant := by
  unfold Report.parse at h
  unfold kind?
  cases hkind : doc.get? "kind" with
  | none =>
    rw [hkind] at h
    cases h
  | some k =>
    rw [hkind, Option.getD_some] at h
    cases k with
    | text s =>
      cases hs : Variant.ofKind? s with
      | none =>
        simp only [Report.variantOf, hs] at h
        cases h
      | some variant => exact ⟨variant, hs⟩
    | _ => cases h

def report? (doc : Value) : Option Audit := (Report.parse doc).toOption

def warning? (l : Location) (doc : Value) : Option Record :=
  match kind? doc, Report.parse doc with
  | some variant, .error e =>
    some ⟨.warning, .manifests, l.text ++ ": invalid " ++ variant.kind ++ ": " ++ e.message⟩
  | _, _ => none

theorem report?_eq_none (l : Location) {doc : Value} (h : kind? doc = none) :
    report? doc = none ∧ warning? l doc = none := by
  unfold report? warning?
  rw [h]
  refine ⟨?_, rfl⟩
  cases hparse : Report.parse doc with
  | error e => rfl
  | ok r =>
    obtain ⟨variant, hvariant⟩ := exists_kind?_of_parse hparse
    rw [h] at hvariant
    cases hvariant

theorem loadDocument_eq (l : Location) {doc : Value} (h : ¬ HasCompoundKind doc) :
    loadDocument l.text doc = ⟨(warning? l doc).toList, .ok (report? doc).toList⟩ := by
  rw [loadDocument, variantOf?_of_not_hasCompoundKind h]
  cases hkind : kind? doc with
  | none =>
    obtain ⟨hreport, hwarning⟩ := report?_eq_none l hkind
    rw [hreport, hwarning]
    rfl
  | some variant =>
    unfold warning? report?
    rw [hkind, parse_of_kind? hkind]
    dsimp only
    cases Report.ofValue variant doc with
    | accepted r => rfl
    | rejected is => rfl

theorem loadDocument_of_hasCompoundKind (l : Location) {doc : Value} (h : HasCompoundKind doc) :
    loadDocument l.text doc = .failed .unfit := by
  rw [loadDocument, variantOf?_of_hasCompoundKind h]

theorem report?_or_warning? (l : Location) {doc : Value} {variant : Variant}
    (h : kind? doc = some variant) :
    (∃ r, Report.parse doc = .ok r ∧ report? doc = some r ∧ warning? l doc = none) ∨
    ∃ e, Report.parse doc = .error e ∧ report? doc = none ∧
      warning? l doc = some ⟨.warning, .manifests,
        l.text ++ ": invalid " ++ variant.kind ++ ": " ++ e.message⟩ := by
  unfold report? warning?
  rw [h]
  cases hparse : Report.parse doc with
  | ok r => exact .inl ⟨r, rfl, rfl, rfl⟩
  | error e => exact .inr ⟨e, rfl, rfl, rfl⟩

theorem eq_unfit_of_grouped {v : Value} {f : Failure} (h : grouped v = .error f) : f = .unfit := by
  unfold grouped at h
  split at h
  · cases h
  · split at h <;> cases h
    rfl

mutual

theorem eq_unfit_of_mem_leaves {v : Value} {f : Failure} (h : .error f ∈ leaves v) :
    f = .unfit := by
  cases v with
  | list vs =>
    rw [leaves] at h
    exact eq_unfit_of_mem_leavesOf h
  | map es =>
    rw [leaves] at h
    split at h
    · exact eq_unfit_of_mem_groupLeaves h
    · cases List.mem_singleton.1 h
  | _ =>
    rw [leaves] at h
    · cases List.mem_singleton.1 h
    all_goals nofun

theorem eq_unfit_of_mem_leavesOf {vs : List Value} {f : Failure} (h : .error f ∈ leavesOf vs) :
    f = .unfit := by
  cases vs with
  | nil => simp [leavesOf] at h
  | cons v vs =>
    rw [leavesOf] at h
    rcases List.mem_append.1 h with h | h
    · exact eq_unfit_of_mem_leaves h
    · exact eq_unfit_of_mem_leavesOf h

theorem eq_unfit_of_mem_groupLeaves {es : Entries} {f : Failure} (h : .error f ∈ groupLeaves es) :
    f = .unfit := by
  cases es with
  | nil => simp [groupLeaves] at h
  | cons e es =>
    obtain ⟨k, v⟩ := e
    unfold groupLeaves at h
    split at h
    · cases v with
      | list vs => exact eq_unfit_of_mem_leavesOf h
      | _ =>
        dsimp only at h
        split at h
        · obtain ⟨_, _, ⟨⟩⟩ := List.mem_map.1 h
        · rename_i hgrouped
          cases List.mem_singleton.1 h
          exact eq_unfit_of_grouped hgrouped
    · exact eq_unfit_of_mem_groupLeaves h

end

/-- What grouping gives that ends a loading: a group of what is no collection, or a document with a
collection for its kind. -/
def Unfit (o : Except Failure Value) : Prop :=
  (∃ f, o = .error f) ∨ ∃ doc, o = .ok doc ∧ HasCompoundKind doc

theorem loadLeaf_of_unfit (l : Location) {v : Value} {o : Except Failure Value} (ho : o ∈ leaves v)
    (h : Unfit o) : loadLeaf l.text o = .failed .unfit := by
  rcases h with ⟨f, rfl⟩ | ⟨doc, rfl, h⟩
  · rw [loadLeaf, eq_unfit_of_mem_leaves ho]
  · exact loadDocument_of_hasCompoundKind l h

theorem exists_of_not_unfit {o : Except Failure Value} (h : ¬ Unfit o) :
    ∃ doc, o = .ok doc ∧ ¬ HasCompoundKind doc := by
  cases o with
  | error f => exact absurd (.inl ⟨f, rfl⟩) h
  | ok doc => exact ⟨doc, rfl, fun hdoc => h (.inr ⟨doc, rfl, hdoc⟩)⟩

def flattened (v : Location × Entry) : List Value :=
  match v.2 with
  | .file content =>
    match documents v.1 content with
    | .ok vs => (vs.flatMap leaves).filterMap (·.toOption)
    | .error _ => []
  | _ => []

structure Readable (v : Location × Entry) : Prop where
  /-- All its groups can be taken apart: `flattened` leaves nothing out. -/
  leaves_eq : ∃ content vs, v.2 = .file content ∧ documents v.1 content = .ok vs ∧
    vs.flatMap leaves = (flattened v).map .ok
  simple : ∀ doc ∈ flattened v, ¬ HasCompoundKind doc

/-- A file cannot be read, or not be parsed; the failure names it. -/
inductive Rejected : Location × Entry → Failure → Prop
  | unreadable {l : Location} {e : Entry} (h : ∀ content, e ≠ .file content) :
    Rejected (l, e) (.unreadable l.text)
  | unparsable {l : Location} {content : ByteArray}
    (h : documents l content = .error (.unparsable l.text)) :
    Rejected (l, .file content) (.unparsable l.text)

/-- What else can be wrong with a file. -/
inductive Defective : Location × Entry → Prop
  | notText {l : Location} {content : ByteArray} (h : String.fromUTF8? content = none) :
    Defective (l, .file content)
  /-- The text is well-formed, but not what stands in it for a key, a number or a truth value. -/
  | illValued {l : Location} {content : ByteArray} {text : String} {f : Yaml.Failure}
    (htext : String.fromUTF8? content = some text)
    (hname : Location.suffix (l.parts.getLast?.getD "") ≠ ".json")
    (h : Yaml.documents (String.ofList (Lines.unify text.toList)) = .error f)
    (hf : f ≠ .malformed) : Defective (l, .file content)
  | unfit {l : Location} {content : ByteArray} {vs : List Value} {o : Except Failure Value}
    (h : documents l content = .ok vs) (ho : o ∈ vs.flatMap leaves) (hunfit : Unfit o) :
    Defective (l, .file content)

def records (v : Location × Entry) : List Record :=
  (flattened v).filterMap (warning? v.1) ++ (loaded v.1).log

theorem eq_map_ok {os : List (Except Failure Value)} (h : ∀ o ∈ os, ¬ Unfit o) :
    os = (os.filterMap (·.toOption)).map .ok := by
  induction os with
  | nil => rfl
  | cons o os ih =>
    rw [List.forall_mem_cons] at h
    obtain ⟨doc, rfl, -⟩ := exists_of_not_unfit h.1
    show _ = Except.ok doc :: (os.filterMap (·.toOption)).map .ok
    rw [← ih h.2]

theorem readable_of_fit {l : Location} {content : ByteArray} {vs : List Value}
    (h : documents l content = .ok vs) (hfit : ∀ o ∈ vs.flatMap leaves, ¬ Unfit o) :
    Readable (l, .file content) := by
  have hflattened : flattened (l, .file content) = (vs.flatMap leaves).filterMap (·.toOption) := by
    simp only [flattened, h]
  have hall := eq_map_ok hfit
  rw [← hflattened] at hall
  refine ⟨⟨content, vs, rfl, h, hall⟩, fun doc hdoc hkind => ?_⟩
  refine hfit (.ok doc) ?_ (.inr ⟨doc, rfl, hkind⟩)
  rw [hall]
  exact List.mem_map_of_mem hdoc

theorem reading_of_readable {v : Location × Entry} (h : Readable v) :
    reading v = ⟨records v, .ok ((flattened v).filterMap report?)⟩ := by
  obtain ⟨⟨content, vs, hcontent, hvs, hall⟩, hsimple⟩ := h
  obtain ⟨l, e⟩ := v
  obtain rfl : e = .file content := hcontent
  have hdocs : ∀ doc ∈ flattened (l, .file content), loadLeaf l.text (.ok doc) =
      ⟨(warning? l doc).toList, .ok (report? doc).toList⟩ :=
    fun doc hdoc => loadDocument_eq l (hsimple doc hdoc)
  rw [reading, loadFile_of_documents hvs, hall, records]
  generalize flattened (l, .file content) = docs at hdocs
  have hlog : docs.flatMap (fun doc => (loadLeaf l.text (.ok doc)).log) =
      docs.filterMap (warning? l) := by
    rw [List.filterMap_eq_flatMap_toList]
    exact List.flatMap_congr fun doc hdoc => by rw [hdocs doc hdoc]
  have hreports : docs.flatMap (fun doc => (loadLeaf l.text (.ok doc)).reports) =
      docs.filterMap report? := by
    rw [List.filterMap_eq_flatMap_toList]
    exact List.flatMap_congr fun doc hdoc => by
      rw [hdocs doc hdoc]
      rfl
  have hsucceeds : ∀ m ∈ (docs.map .ok).map (loadLeaf l.text) ++ [loaded l], m.Succeeds := by
    refine List.forall_mem_append.2 ⟨?_, List.forall_mem_singleton.2 rfl⟩
    refine List.forall_mem_map.2 (List.forall_mem_map.2 fun doc hdoc => ?_)
    rw [hdocs doc hdoc]
    rfl
  rw [Loading.inTurn_of_succeeds hsucceeds]
  simp only [List.flatMap_append, List.flatMap_map, List.flatMap_singleton, hlog, hreports]
  simp [loaded, Loading.reports, Except.toOption]

theorem reading_of_rejected {v : Location × Entry} {f : Failure} (h : Rejected v f) :
    reading v = .failed f := by
  cases h with
  | @unreadable l e h =>
    cases e with
    | file content => exact absurd rfl (h content)
    | _ => rfl
  | unparsable h => exact loadFile_of_not_documents h

theorem result_reading_of_unfit {l : Location} {content : ByteArray} {vs : List Value}
    (h : documents l content = .ok vs) {o : Except Failure Value} (ho : o ∈ vs.flatMap leaves)
    (hunfit : Unfit o) : (reading (l, .file content)).result = .error .unfit := by
  have hfails : ∀ o ∈ vs.flatMap leaves, Unfit o → (loadLeaf l.text o).result = .error .unfit := by
    intro o ho hunfit
    obtain ⟨v, -, ho⟩ := List.mem_flatMap.1 ho
    rw [loadLeaf_of_unfit l ho hunfit]
    rfl
  rw [reading, loadFile_of_documents h]
  refine Loading.result_inTurn_of_mem (List.mem_append_left _ (List.mem_map_of_mem ho))
    (hfails o ho hunfit) ?_
  refine List.forall_mem_append.2 ⟨List.forall_mem_map.2 fun o ho => ?_,
    List.forall_mem_singleton.2 (.inl rfl)⟩
  by_cases hunfit : Unfit o
  · exact .inr (hfails o ho hunfit)
  · obtain ⟨doc, rfl, hdoc⟩ := exists_of_not_unfit hunfit
    have hresult : (loadLeaf l.text (.ok doc)).result = .ok (report? doc).toList := by
      rw [loadLeaf, loadDocument_eq l hdoc]
    exact .inl (Loading.succeeds_of_result hresult)

theorem isReported_of_rejected {v : Location × Entry} {f : Failure} (h : Rejected v f) :
    f.isReported := by
  cases h <;> rfl

theorem exists_failure_of_defective {v : Location × Entry} (h : Defective v) :
    ∃ f, (reading v).result = .error f ∧ ¬ f.isReported := by
  cases h with
  | @notText l content h =>
    have hdocuments : documents l content = .error .notText := by simp only [documents, h]
    exact ⟨.notText, by rw [reading, loadFile_of_not_documents hdocuments]; rfl, nofun⟩
  | @illValued l content text f htext hname h hf =>
    have hdocuments : ∃ g : Failure, documents l content = .error g ∧ ¬ g.isReported := by
      simp only [documents, htext, if_neg hname, h]
      cases f with
      | malformed => exact absurd rfl hf
      | _ => exact ⟨_, rfl, nofun⟩
    obtain ⟨g, hg, hreported⟩ := hdocuments
    exact ⟨g, by rw [reading, loadFile_of_not_documents hg]; rfl, hreported⟩
  | unfit h ho hunfit => exact ⟨.unfit, result_reading_of_unfit h ho hunfit, nofun⟩

theorem rejected_or_defective_of_not_documents {l : Location} {content : ByteArray} {f : Failure}
    (h : documents l content = .error f) :
    Rejected (l, .file content) f ∨ Defective (l, .file content) := by
  have hunparsable : f = .unparsable l.text → Rejected (l, .file content) f := by
    rintro rfl
    exact .unparsable h
  unfold documents at h
  split at h
  · rename_i htext
    exact .inr (.notText htext)
  · rename_i text htext
    dsimp only at h
    split at h
    · split at h
      · cases h
      · exact .inl (hunparsable (Except.error.inj h).symm)
    · rename_i hname
      split at h
      · cases h
      · exact .inl (hunparsable (Except.error.inj h).symm)
      all_goals
        rename_i hvalues
        exact .inr (.illValued htext hname hvalues nofun)

theorem readable_or_rejected_or_defective (v : Location × Entry) :
    Readable v ∨ (∃ f, Rejected v f) ∨ Defective v := by
  obtain ⟨l, e⟩ := v
  cases e with
  | file content =>
    cases h : documents l content with
    | error f =>
      rcases rejected_or_defective_of_not_documents h with hrejected | hdefective
      · exact .inr (.inl ⟨f, hrejected⟩)
      · exact .inr (.inr hdefective)
    | ok vs =>
      by_cases hfit : ∀ o ∈ vs.flatMap leaves, ¬ Unfit o
      · exact .inl (readable_of_fit h hfit)
      · simp only [not_forall, not_not] at hfit
        obtain ⟨o, ho, hunfit⟩ := hfit
        exact .inr (.inr (.unfit h ho hunfit))
  | _ => exact .inr (.inl ⟨_, .unreadable nofun⟩)

theorem rejected_of_isReported {v : Location × Entry} {f : Failure}
    (h : (reading v).result = .error f) (hf : f.isReported) : Rejected v f := by
  rcases readable_or_rejected_or_defective v with hv | ⟨g, hv⟩ | hv
  · rw [reading_of_readable hv] at h
    cases h
  · rw [reading_of_rejected hv] at h
    exact Except.error.inj h ▸ hv
  · obtain ⟨g, hg, hreported⟩ := exists_failure_of_defective hv
    obtain rfl := Except.error.inj (hg.symm.trans h)
    exact absurd hf hreported

theorem defective_of_not_isReported {v : Location × Entry} {f : Failure}
    (h : (reading v).result = .error f) (hf : ¬ f.isReported) : Defective v := by
  rcases readable_or_rejected_or_defective v with hv | ⟨g, hv⟩ | hv
  · rw [reading_of_readable hv] at h
    cases h
  · rw [reading_of_rejected hv] at h
    exact absurd (Except.error.inj h ▸ isReported_of_rejected hv) hf
  · exact hv

theorem succeeds_reading_iff {v : Location × Entry} : (reading v).Succeeds ↔ Readable v := by
  constructor
  · intro h
    rcases readable_or_rejected_or_defective v with hv | ⟨f, hv⟩ | hv
    · exact hv
    · exact absurd (congrArg Loading.result (reading_of_rejected hv)) (h.ne_error f)
    · obtain ⟨f, hf, -⟩ := exists_failure_of_defective hv
      exact absurd hf (h.ne_error f)
  · intro h
    exact Loading.succeeds_of_result (congrArg Loading.result (reading_of_readable h))

end Manifest

end PolicyAudit
