import PolicyAudit.Proofs.Check.Maps
import PolicyAudit.Report.Basic

/-! What is looked up in the documents of each model.
The schema of a model names its fields as its reader does, and each reader looks up just these
(`Model.reads`). So a document may be rewritten at any depth, in what no reader looks up and in the
names of fields that have two (`Model.read_depends_on_fields`). -/

namespace PolicyAudit

open Check

namespace Reference

def schema : Schema :=
  .record [("kind", .whole), ("namespace", .whole), ("name", .whole), ("uid", .whole),
    (⟨"apiVersion", some "api_version"⟩, .whole),
    (⟨"resourceVersion", some "resource_version"⟩, .whole),
    (⟨"fieldPath", some "field_path"⟩, .whole)]

theorem reads : Reads schema ofValue := by
  refine reads_record <| .seq (.seq (.seq (.seq (.seq (.seq (.map ?_ _) ?_) ?_) ?_) ?_) ?_) ?_ <;>
    exact readsFields_optional (by simp) (reads_whole text)

theorem keepsMaps : KeepsMaps schema ofValue fun _ => [] := keepsMaps_record_none fun _ => rfl

end Reference

namespace Requirement

def schema : Schema :=
  .record [("key", .whole), ("operator", .whole), ("values", .items .whole)]

theorem reads : Reads schema ofValue :=
  reads_record <| .seq (.seq (.map (readsFields_required (by simp) (reads_whole text)) _)
    (readsFields_required (by simp) (reads_whole text)))
    (readsFields_withDefault (by simp) (reads_listOf (reads_whole text)))

theorem keepsMaps : KeepsMaps schema ofValue fun _ => [] := by
  intro v r h
  obtain ⟨es, rfl, hread⟩ := record_eq_accepted_iff.1 h
  obtain ⟨_, values, -, hvalues, rfl⟩ := Checked.seq_eq_accepted_iff.1 hread
  simpa [schema] using (keepsMaps_whole text).listOf_none.withDefault .nil hvalues

end Requirement

namespace Selector

def schema : Schema :=
  .record [(⟨"matchLabels", some "match_labels"⟩, .labels),
    (⟨"matchExpressions", some "match_expressions"⟩, .items Requirement.schema)]

theorem reads : Reads schema ofValue :=
  reads_record <| .seq (.map (readsFields_withDefault (by simp) (reads_labels Check.labels)) _)
    (readsFields_withDefault (by simp) (reads_listOf Requirement.reads))

def maps (s : Selector) : List Labels := [s.matchLabels]

theorem keepsMaps : KeepsMaps schema ofValue maps := by
  intro v s h
  obtain ⟨es, rfl, hread⟩ := record_eq_accepted_iff.1 h
  simp only [Checked.seq_eq_accepted_iff, Checked.map_eq_accepted_iff] at hread
  obtain ⟨_, _, ⟨_, hlabels, rfl⟩, hexpressions, rfl⟩ := hread
  have hrequirements := Requirement.keepsMaps.listOf_none.withDefault .nil hexpressions
  simpa [schema, maps] using List.rel_append (KeepsMaps.labels hlabels) hrequirements

end Selector

namespace Timestamp

def schema : Schema := .record [("seconds", .whole), ("nanos", .whole)]

theorem reads : Reads schema ofValue := by
  refine reads_record <| .seq (.map ?_ _) ?_ <;>
    exact readsFields_withDefault (by simp) (reads_whole int)

theorem keepsMaps : KeepsMaps schema ofValue fun _ => [] := keepsMaps_record_none fun _ => rfl

end Timestamp

namespace Tally

def schema : Schema :=
  .record [(⟨"pass", some "pass_"⟩, .whole), ("fail", .whole), ("warn", .whole),
    ("error", .whole), ("skip", .whole)]

theorem reads : Reads schema ofValue := by
  refine reads_record <| .seq (.seq (.seq (.seq (.map ?_ _) ?_) ?_) ?_) ?_ <;>
    exact readsFields_withDefault (by simp) (reads_whole nat)

theorem keepsMaps : KeepsMaps schema ofValue fun _ => [] := keepsMaps_record_none fun _ => rfl

end Tally

namespace Metadata

def schema : Schema :=
  .record [("name", .whole), ("namespace", .whole), ("uid", .whole),
    (⟨"resourceVersion", some "resource_version"⟩, .whole),
    (⟨"creationTimestamp", some "creation_timestamp"⟩, .whole),
    ("labels", .labels), ("annotations", .labels)]

theorem reads : Reads schema ofValue :=
  reads_record <| (readsFields_required (by simp) (reads_whole text)).map _ |>.map _
    |>.seq (readsFields_optional (by simp) (reads_whole text))
    |>.seq (readsFields_optional (by simp) (reads_whole text))
    |>.seq (readsFields_optional (by simp) (reads_whole text))
    |>.seq (readsFields_optional (by simp) (reads_whole moment))
    |>.seq (readsFields_withDefault (by simp) (reads_labels Check.labels))
    |>.seq (readsFields_withDefault (by simp) (reads_labels Check.labels))

def maps (m : Metadata) : List Labels := [m.labels, m.annotations]

theorem keepsMaps : KeepsMaps schema ofValue maps := by
  intro v m h
  obtain ⟨es, rfl, hread⟩ := record_eq_accepted_iff.1 h
  simp only [Checked.seq_eq_accepted_iff, Checked.map_eq_accepted_iff] at hread
  obtain ⟨_, _, ⟨_, _, ⟨_, _, ⟨_, _, ⟨_, _, ⟨_, _, ⟨_, -, rfl⟩, -, rfl⟩, -, rfl⟩, -, rfl⟩, -, rfl⟩,
    hlabels, rfl⟩, hannotations, rfl⟩ := hread
  simpa [schema, maps] using
    List.rel_append (KeepsMaps.labels hlabels) (KeepsMaps.labels hannotations)

end Metadata

namespace Finding

def schema : Schema :=
  .record [("source", .whole), ("policy", .whole), ("rule", .whole),
    ("resources", .items Reference.schema),
    (⟨"resourceSelector", some "resource_selector"⟩, Selector.schema), ("message", .whole),
    ("result", .whole), ("scored", .whole), ("properties", .labels),
    ("timestamp", Timestamp.schema), ("category", .whole), ("severity", .whole),
    ("priority", .whole)]

theorem reads : Reads schema ofValue :=
  reads_record <| (readsFields_optional (by simp) (reads_whole text)).map _
    |>.seq ((readsFields_required (by simp) (reads_whole text)).map some)
    |>.seq (readsFields_optional (by simp) (reads_whole text))
    |>.seq (readsFields_withDefault (by simp) (reads_listOf Reference.reads))
    |>.seq (readsFields_optional (by simp) Selector.reads)
    |>.seq (readsFields_optional (by simp) (reads_whole text))
    |>.seq (readsFields_withDefault (by simp) (reads_whole (vocabulary "PolicyResult")))
    |>.seq (readsFields_withDefault (by simp) (reads_whole bool))
    |>.seq (readsFields_withDefault (by simp) (reads_labels Check.labels))
    |>.seq (readsFields_optional (by simp) Timestamp.reads)
    |>.seq (readsFields_optional (by simp) (reads_whole text))
    |>.seq (readsFields_withDefault (by simp) (reads_whole (vocabulary "PolicySeverity")))
    |>.seq (readsFields_optional (by simp) (reads_whole Priority.ofValue))

def maps (f : Finding) : List Labels := f.selector.toList.flatMap Selector.maps ++ [f.properties]

theorem keepsMaps : KeepsMaps schema ofValue maps := by
  intro v f h
  obtain ⟨es, rfl, hread⟩ := record_eq_accepted_iff.1 h
  simp only [Checked.seq_eq_accepted_iff, Checked.map_eq_accepted_iff] at hread
  obtain ⟨_, _, ⟨_, _, ⟨_, _, ⟨_, _, ⟨_, _, ⟨_, _, ⟨_, _, ⟨_, _, ⟨_, _, ⟨_, _, ⟨_, _, ⟨_, _, ⟨_, -, rfl⟩,
    -, rfl⟩, -, rfl⟩, hresources, rfl⟩, hselector, rfl⟩, -, rfl⟩, -, rfl⟩, -, rfl⟩, hproperties, rfl⟩,
    htimestamp, rfl⟩, -, rfl⟩, -, rfl⟩, -, rfl⟩ := hread
  have hreferences := Reference.keepsMaps.listOf_none.withDefault .nil hresources
  have hselected := Selector.keepsMaps.nullable.withDefault .nil hselector
  have hfound := Timestamp.keepsMaps.nullable_none.withDefault .nil htimestamp
  simpa [schema, maps] using List.rel_append hreferences
    (List.rel_append hselected (List.rel_append (KeepsMaps.labels hproperties) hfound))

end Finding

namespace Report

def schema : Schema :=
  .record [(⟨"apiVersion", some "api_version"⟩, .whole), ("kind", .whole),
    ("metadata", Metadata.schema), ("scope", Reference.schema),
    (⟨"scopeSelector", some "scope_selector"⟩, Selector.schema), ("summary", Tally.schema),
    ("results", .items Finding.schema)]

theorem reads (variant : Variant) : Reads schema (ofValue variant) :=
  reads_record <| (readsFields_withDefault (by simp) (reads_whole text)).map _
    |>.seq (readsFields_withDefault (by simp) (reads_whole (literal variant.kind)))
    |>.seq (readsFields_required (by simp) Metadata.reads)
    |>.seq (readsFields_optional (by simp) Reference.reads)
    |>.seq (readsFields_optional (by simp) Selector.reads)
    |>.seq (readsFields_withDefault (by simp) Tally.reads)
    |>.seq (readsFields_withDefault (by simp) (reads_listOf Finding.reads))

def maps (r : Audit) : List Labels :=
  r.metadata.maps ++ r.scopeSelector.toList.flatMap Selector.maps ++
    r.findings.flatMap Finding.maps

theorem keepsMaps (variant : Variant) : KeepsMaps schema (ofValue variant) maps := by
  intro v r h
  obtain ⟨es, rfl, hread⟩ := record_eq_accepted_iff.1 h
  simp only [Checked.seq_eq_accepted_iff, Checked.map_eq_accepted_iff] at hread
  obtain ⟨_, _, ⟨_, _, ⟨_, _, ⟨_, _, ⟨_, _, ⟨_, _, ⟨_, -, rfl⟩, -, rfl⟩, hmetadata, rfl⟩, hscope, rfl⟩,
    hselector, rfl⟩, hstored, rfl⟩, hfindings, rfl⟩ := hread
  have hlabelled := Metadata.keepsMaps.required hmetadata
  have hreferred := Reference.keepsMaps.nullable_none.withDefault .nil hscope
  have hselected := Selector.keepsMaps.nullable.withDefault .nil hselector
  have hcounted := Tally.keepsMaps.withDefault .nil hstored
  have hlisted := Finding.keepsMaps.listOf.withDefault .nil hfindings
  simpa [schema, maps] using List.rel_append hlabelled (List.rel_append hreferred
    (List.rel_append hselected (List.rel_append hcounted hlisted)))

theorem get?_kind_of_rewritten {moved : List Name} {v v' : Value}
    (h : Rewritten moved schema v v') : v.get? "kind" = v'.get? "kind" := by
  obtain rfl | ⟨es, es', rfl, rfl, hes⟩ := h
  · rfl
  · show Entries.get? es "kind" = Entries.get? es' "kind"
    have hfield := hes.field (n := "kind") (l := .whole) (by simp)
    cases hfield with
    | documented h h' hv => exact h.trans (hv ▸ h'.symm)
    | alternative hn => cases hn
    | moved _ hn => cases hn
    | absent hnone hnone' => exact hnone.trans hnone'.symm

theorem parse_of_variantOf {doc : Value} {variant : Variant}
    (h : variantOf ((doc.get? "kind").getD .null) = .ok variant) :
    parse doc = (ofValue variant doc).toExcept.mapError Refusal.invalid := by
  simp only [parse, h, bind, Except.bind]
  cases ofValue variant doc <;> rfl

theorem parse_of_rewritten {moved : List Name} {v v' : Value} (h : Rewritten moved schema v v') :
    parse v = parse v' ∨ ∃ is is', parse v = .error (.invalid is) ∧
      parse v' = .error (.invalid is') ∧ List.Forall₂ (SameFault moved) is is' := by
  have hkind := get?_kind_of_rewritten h
  cases hvariant : variantOf ((v.get? "kind").getD .null) with
  | error refusal =>
    refine .inl ?_
    unfold parse
    rw [← hkind, hvariant]
    rfl
  | ok variant =>
    rw [parse_of_variantOf hvariant, parse_of_variantOf (hkind ▸ hvariant)]
    -- both documents are now read by one reader, and only what it says of them counts
    have houtcome := reads variant h
    generalize ofValue variant v = c, ofValue variant v' = c' at houtcome
    cases houtcome with
    | accepted r => exact .inl rfl
    | rejected his => exact .inr ⟨_, _, rfl, rfl, his⟩

theorem parse_eq_of_rewritten {v v' : Value} (h : Rewritten [] schema v v') :
    parse v = parse v' := by
  rcases parse_of_rewritten h with heq | ⟨is, is', hv, hv', his⟩
  · exact heq
  · rw [hv, hv', eq_of_sameFaults his]

end Report

/-- The kinds of objects that documents describe, reports of either variant among them. -/
inductive Model
  | report (variant : Variant)
  | metadata
  | reference
  | selector
  | requirement
  | finding
  | timestamp
  | tally

namespace Model

def Target : Model → Type
  | report _ => Audit
  | metadata => Metadata
  | reference => Reference
  | selector => Selector
  | requirement => Requirement
  | finding => Finding
  | timestamp => Timestamp
  | tally => Tally Nat

def read : (m : Model) → Value → Checked m.Target
  | report variant => Report.ofValue variant
  | metadata => Metadata.ofValue
  | reference => Reference.ofValue
  | selector => Selector.ofValue
  | requirement => Requirement.ofValue
  | finding => Finding.ofValue
  | timestamp => Timestamp.ofValue
  | tally => Tally.ofValue

def schema : Model → Schema
  | report _ => Report.schema
  | metadata => Metadata.schema
  | reference => Reference.schema
  | selector => Selector.schema
  | requirement => Requirement.schema
  | finding => Finding.schema
  | timestamp => Timestamp.schema
  | tally => Tally.schema

def maps : (m : Model) → m.Target → List Labels
  | report _ => Report.maps
  | metadata => Metadata.maps
  | selector => Selector.maps
  | finding => Finding.maps
  | reference | requirement | timestamp | tally => fun _ => []

theorem reads (m : Model) : Reads m.schema m.read := by
  cases m with
  | report variant => exact Report.reads variant
  | metadata => exact Metadata.reads
  | reference => exact Reference.reads
  | selector => exact Selector.reads
  | requirement => exact Requirement.reads
  | finding => exact Finding.reads
  | timestamp => exact Timestamp.reads
  | tally => exact Tally.reads

theorem keepsMaps (m : Model) : KeepsMaps m.schema m.read m.maps := by
  cases m with
  | report variant => exact Report.keepsMaps variant
  | metadata => exact Metadata.keepsMaps
  | reference => exact Reference.keepsMaps
  | selector => exact Selector.keepsMaps
  | requirement => exact Requirement.keepsMaps
  | finding => exact Finding.keepsMaps
  | timestamp => exact Timestamp.keepsMaps
  | tally => exact Tally.keepsMaps

theorem names_distinct (m : Model) : (m.schema.names.flatMap Name.texts).Nodup := by
  cases m with
  | report variant => cases variant <;> decide
  | _ => decide

theorem rewritten_of_edited {m : Model} {moved : List Name} {es es' : Entries}
    (h : Edited moved m.schema.names es es') : Rewritten moved m.schema (.map es) (.map es') := by
  have hdistinct := m.names_distinct
  cases m <;> exact Check.rewritten_of_edited hdistinct h

/-- Of a document only the fields count, at any depth. While the documented name is there, an
alternative one may be missing or hold anything; other entries and the order of entries never matter:
the same value is read, or the same faults are found at the same places. Where a value moves from the
alternative name to the documented one, just that name is another in the places of the faults. The
maps of texts that are read from a document have its keys in their order. -/
theorem read_depends_on_fields :
    (∀ (m : Model) (v v' : Value), Rewritten [] m.schema v v' → m.read v = m.read v') ∧
    (∀ (m : Model) (moved : List Name) (v v' : Value), Rewritten moved m.schema v v' →
      Outcome moved (m.read v) (m.read v')) ∧
    (∀ v v', Rewritten [] Report.schema v v' → Report.parse v = Report.parse v') ∧
    (∀ moved v v', Rewritten moved Report.schema v v' → Report.parse v = Report.parse v' ∨
      ∃ is is', Report.parse v = .error (.invalid is) ∧ Report.parse v' = .error (.invalid is') ∧
        List.Forall₂ (SameFault moved) is is') ∧
    (∀ (m : Model) (moved : List Name) (es es' : Entries), Edited moved m.schema.names es es' →
      Rewritten moved m.schema (.map es) (.map es')) ∧
    ∀ (m : Model) (v : Value) (a : m.Target), m.read v = .accepted a →
      List.Forall₂ KeepsOrder (m.schema.mapsIn (some v)) (m.maps a) :=
  ⟨fun m _ _ h => (m.reads h).eq_of_nil, fun m _ _ _ h => m.reads h,
    fun _ _ h => Report.parse_eq_of_rewritten h, fun _ _ _ h => Report.parse_of_rewritten h,
    fun _ _ _ _ h => rewritten_of_edited h, fun m _ _ h => m.keepsMaps h⟩

/-- In a report with a number for its version, the version moves to its documented name, the scope
loses an entry that is hidden, and the entries change places. -/
theorem read_depends_on_fields_moved :
    let version : Name := ⟨"resourceVersion", some "resource_version"⟩
    let labels : Entries := [(.text "z", .text "1"), (.text "a", .text "2")]
    let scope : Entries := [(.text "apiVersion", .null), (.text "api_version", .int 5)]
    let scope' : Entries := [(.text "apiVersion", .null)]
    let named : Value := .record [("name", .text "a"), ("labels", .map labels)]
    let metadata : Value := .record [("name", .text "a"), ("resource_version", .int 1)]
    let metadata' : Value := .record [("resourceVersion", .int 1), ("name", .text "a")]
    let doc (metadata scope : Value) : Value :=
      .record [("kind", .text "PolicyReport"), ("metadata", metadata), ("scope", scope)]
    let doc' (metadata scope : Value) : Value := .record [("scope", scope), ("note", .null),
      ("metadata", metadata), ("kind", .text "PolicyReport")]
    let m : Metadata := { name := some "a", labels := .ofList [("z", "1"), ("a", "2")] }
    reference.read (.map scope) = reference.read (.map scope') ∧
    Report.parse (doc named (.map scope)) = Report.parse (doc' named (.map scope')) ∧
    Outcome [version] ((report .namespaced).read (doc metadata (.map scope)))
      ((report .namespaced).read (doc' metadata' (.map scope'))) ∧
    (∃ is is', Report.parse (doc metadata (.map scope)) = .error (.invalid is) ∧
      Report.parse (doc' metadata' (.map scope')) = .error (.invalid is') ∧
      List.Forall₂ (SameFault [version]) is is') ∧
    List.Forall₂ KeepsOrder [labels, []] [m.labels, m.annotations] := by
  intro version labels scope scope' named metadata metadata' doc doc' m
  obtain ⟨hsame, hmoved, hparse, hparsed, hedited, hmaps⟩ := read_depends_on_fields
  have hhidden : AgreeBut ["api_version"] scope scope' := by
    intro name hname
    have hne : Key.text "api_version" ≠ .text name := fun h => hname (by simp [Key.text.inj h])
    rw [Entries.get?_cons, Entries.get?_cons, Entries.get?_cons, if_neg hne]
  have hscope (moved : List Name) : Rewritten moved Reference.schema (.map scope) (.map scope') := by
    have hn : (⟨"apiVersion", some "api_version"⟩ : Name) ∈ Reference.schema.names := by decide
    exact hedited reference moved scope scope' (.hidden hn rfl rfl hhidden)
  have hmetadata : Rewritten [version] Metadata.schema metadata metadata' := by
    refine .inr ⟨_, _, rfl, rfl, .documented rfl rfl rfl, ?_, ?_, ?version, ?_, ?_, ?_, trivial⟩
    case version => exact .moved List.mem_cons_self rfl rfl rfl rfl rfl
    all_goals exact .absent rfl rfl rfl rfl
  have hdoc {moved : List Name} {v v' : Value} (hv : Rewritten moved Metadata.schema v v') :
      Rewritten moved Report.schema (doc v (.map scope)) (doc' v' (.map scope')) := by
    refine .inr ⟨_, _, rfl, rfl, ?_, .documented rfl rfl rfl, .documented rfl rfl hv,
      .documented rfl rfl (hscope moved), ?_, ?_, ?_, trivial⟩
    all_goals exact .absent rfl rfl rfl rfl
  have hdiffer : Report.parse (doc metadata (.map scope)) ≠
      Report.parse (doc' metadata' (.map scope')) := by
    let fault (name : String) : Issue := ⟨[.field "metadata", .field name], .notText⟩
    show Except.error (.invalid [fault "resource_version"]) ≠
      (Except.error (.invalid [fault "resourceVersion"]) : Except Report.Refusal Audit)
    simp [fault]
  exact ⟨hsame _ _ _ (hscope []), hparse _ _ (hdoc (.refl _ _)), hmoved _ _ _ _ (hdoc hmetadata),
    (hparsed _ _ _ (hdoc hmetadata)).resolve_left hdiffer, hmaps .metadata named m rfl⟩

end Model

end PolicyAudit
