import PolicyAudit.Proofs.Manifest.Documents
import PolicyAudit.Proofs.Manifest.Visits

/-! What comes of the files of a path.
They are all used, or there is a first one that is not. In the former case every document of a
report's kind is a report or is warned of; in the latter there are no reports, and nothing behind
that file matters. -/

namespace PolicyAudit.Manifest

theorem inTurn_of_readable {files : List (Location × Entry)} (h : ∀ v ∈ files, Readable v) :
    Loading.inTurn (files.map reading) =
      ⟨files.flatMap records, .ok (files.flatMap fun v => (flattened v).filterMap report?)⟩ := by
  have hsucceed : ∀ m ∈ files.map reading, m.Succeeds :=
    List.forall_mem_map.2 fun v hv => succeeds_reading_iff.2 (h v hv)
  have hlog : ∀ v ∈ files, (reading v).log = records v := fun v hv => by
    rw [reading_of_readable (h v hv)]
  have hreports : ∀ v ∈ files, (reading v).reports = (flattened v).filterMap report? :=
    fun v hv => by
      rw [reading_of_readable (h v hv)]
      rfl
  rw [Loading.inTurn_of_succeeds hsucceed, List.flatMap_map, List.flatMap_map,
    List.flatMap_congr hlog, List.flatMap_congr hreports]

theorem inTurn_of_first {before : List (Location × Entry)} {v : Location × Entry} {f : Failure}
    (hbefore : ∀ u ∈ before, Readable u) (hv : (reading v).result = .error f)
    (after : List (Location × Entry)) :
    Loading.inTurn ((before ++ v :: after).map reading) =
      ⟨before.flatMap records ++ (reading v).log, .error f⟩ := by
  have hsucceed : ∀ m ∈ before.map reading, m.Succeeds :=
    List.forall_mem_map.2 fun u hu => succeeds_reading_iff.2 (hbefore u hu)
  have hlog : ∀ u ∈ before, (reading u).log = records u := fun u hu => by
    rw [reading_of_readable (hbefore u hu)]
  rw [List.map_append, List.map_cons, Loading.inTurn_of_fails hsucceed hv, List.flatMap_map,
    List.flatMap_congr hlog]

theorem result_inTurn_reading_eq_ok_iff {files : List (Location × Entry)} {rs : List Audit} :
    (Loading.inTurn (files.map reading)).result = .ok rs ↔
      (∀ v ∈ files, Readable v) ∧ rs = files.flatMap fun v => (flattened v).filterMap report? := by
  constructor
  · intro h
    have hreadable : ∀ v ∈ files, Readable v := fun v hv =>
      succeeds_reading_iff.1 ((Loading.result_inTurn_eq_ok_iff.1 h).1 _ (List.mem_map_of_mem hv))
    rw [inTurn_of_readable hreadable] at h
    exact ⟨hreadable, (Except.ok.inj h).symm⟩
  · rintro ⟨hreadable, rfl⟩
    rw [inTurn_of_readable hreadable]

theorem result_inTurn_reading_eq_error_iff {files : List (Location × Entry)} {f : Failure} :
    (Loading.inTurn (files.map reading)).result = .error f ↔
      ∃ before v after, files = before ++ v :: after ∧ (∀ u ∈ before, Readable u) ∧
        (reading v).result = .error f := by
  constructor
  · intro h
    obtain ⟨before', m, after', hsplit, hbefore', hm⟩ := Loading.result_inTurn_eq_error_iff.1 h
    obtain ⟨before, rest, rfl, rfl, hrest⟩ := List.map_eq_append_iff.1 hsplit
    obtain ⟨v, after, rfl, rfl, rfl⟩ := List.map_eq_cons_iff.1 hrest
    have hbefore : ∀ u ∈ before, Readable u := fun u hu =>
      succeeds_reading_iff.1 (hbefore' _ (List.mem_map_of_mem hu))
    exact ⟨before, v, after, rfl, hbefore, hm⟩
  · rintro ⟨before, v, after, rfl, hbefore, hv⟩
    rw [inTurn_of_first hbefore hv]

theorem load_of_filesAt_eq_none {t : Tree} {path : String}
    (h : filesAt t (Location.ofText path) = none) :
    load t path = .failed (.missing (Location.ofText path).text) := by
  simp only [load, h]

theorem eq_warning_of_warning? {l : Location} {doc : Value} {r : Record}
    (h : warning? l doc = some r) : r.level = .warning := by
  unfold warning? at h
  split at h
  · cases h
    rfl
  · cases h

theorem countP_records (v : Location × Entry) :
    (records v).countP (·.level = .warning) =
      (flattened v).countP fun doc => (warning? v.1 doc).isSome := by
  have hwarnings : ((flattened v).filterMap (warning? v.1)).countP (·.level = .warning) =
      ((flattened v).filterMap (warning? v.1)).length := by
    refine List.countP_eq_length.2 fun r hr => ?_
    obtain ⟨doc, -, hdoc⟩ := List.mem_filterMap.1 hr
    exact decide_eq_true (eq_warning_of_warning? hdoc)
  have hloaded : (loaded v.1).log.countP (·.level = .warning) = 0 := rfl
  rw [records, List.countP_append, hwarnings, hloaded, List.length_filterMap_eq_countP,
    Nat.add_zero]

theorem countP_kind? (l : Location) (docs : List Value) :
    docs.countP (fun doc => (report? doc).isSome) +
      docs.countP (fun doc => (warning? l doc).isSome) =
    docs.countP fun doc => (kind? doc).isSome := by
  induction docs with
  | nil => rfl
  | cons doc docs ih =>
    simp only [List.countP_cons]
    cases hkind : kind? doc with
    | none =>
      have hneither := report?_eq_none l hkind
      simp [hneither, ih]
    | some variant =>
      rcases report?_or_warning? l hkind with ⟨r, -, hreport, hwarning⟩ | ⟨e, -, hreport, hwarning⟩
      · simp [hreport, hwarning]
        omega
      · simp [hreport, hwarning]
        omega

theorem length_reports_add_warnings (files : List (Location × Entry)) :
    (files.flatMap fun v => (flattened v).filterMap report?).length +
      (files.flatMap records).countP (·.level = .warning) =
    (files.flatMap flattened).countP fun doc => (kind? doc).isSome := by
  induction files with
  | nil => rfl
  | cons v files ih =>
    have hfile := countP_kind? v.1 (flattened v)
    simp only [List.flatMap_cons, List.length_append, List.countP_append, countP_records,
      List.length_filterMap_eq_countP]
    omega

/-- No document is lost, and none depends on another: each that has a report's kind is a report in
its place or a warning, and others are nothing. A loading that fails names the first file that
cannot be read or parsed, after all of those before it, and does not depend on those behind it. -/
theorem load_conserves_documents (t : Tree) (path : String) :
    let l := Location.ofText path
    (∀ rs, (load t path).result = .ok rs → ∃ files, filesAt t l = some files ∧
      (∀ v ∈ files, Readable v) ∧
      rs = (files.flatMap fun v => (flattened v).filterMap report?) ∧
      (load t path).log = files.flatMap records ∧
      (∀ v ∈ files, ∀ doc ∈ flattened v,
        (∀ variant, kind? doc = some variant →
          (∃ r, Report.parse doc = .ok r ∧ report? doc = some r ∧ warning? v.1 doc = none) ∨
          ∃ e, Report.parse doc = .error e ∧ report? doc = none ∧
            warning? v.1 doc = some ⟨.warning, .manifests,
              v.1.text ++ ": invalid " ++ variant.kind ++ ": " ++ e.message⟩) ∧
        (kind? doc = none → report? doc = none ∧ warning? v.1 doc = none)) ∧
      rs.length + (load t path).log.countP (·.level = .warning) =
        (files.flatMap flattened).countP fun doc => (kind? doc).isSome) ∧
    ∀ f files, (load t path).result = .error f → f.isReported → filesAt t l = some files →
      ∃ before v after, files = before ++ v :: after ∧ (∀ u ∈ before, Readable u) ∧
        Rejected v f ∧ (load t path).log = before.flatMap records ∧
        ∀ t' after', filesAt t' l = some (before ++ v :: after') → load t' path = load t path := by
  intro l
  constructor
  · intro rs h
    cases hfiles : filesAt t l with
    | none =>
      rw [load_of_filesAt_eq_none hfiles] at h
      cases h
    | some files =>
      rw [load_of_filesAt hfiles] at h ⊢
      obtain ⟨hreadable, rfl⟩ := result_inTurn_reading_eq_ok_iff.1 h
      have hlog := congrArg Loading.log (inTurn_of_readable hreadable)
      refine ⟨files, rfl, hreadable, rfl, hlog, fun v _ doc _ => ?_, ?_⟩
      · exact ⟨fun variant hkind => report?_or_warning? v.1 hkind, report?_eq_none v.1⟩
      · rw [hlog]
        exact length_reports_add_warnings files
  · intro f files h hf hfiles
    rw [load_of_filesAt hfiles] at h ⊢
    obtain ⟨before, v, after, rfl, hbefore, hv⟩ := result_inTurn_reading_eq_error_iff.1 h
    have hrejected : Rejected v f := rejected_of_isReported hv hf
    have hlog := congrArg Loading.log (inTurn_of_first hbefore hv after)
    rw [reading_of_rejected hrejected, Loading.failed, List.append_nil] at hlog
    refine ⟨before, v, after, rfl, hbefore, hrejected, hlog, fun t' after' hfiles' => ?_⟩
    rw [load_of_filesAt hfiles', inTurn_of_first hbefore hv, inTurn_of_first hbefore hv]

/-- One file holds an invalid report, a valid one and another document; the next cannot be read, and
the last is never opened. -/
theorem load_conserves_documents_mixed :
    let mixed := "[\x7b\"kind\":\"PolicyReport\"\x7d,5,[\x7b\"kind\":\"PolicyReport\",\"metadata\":" ++
      "\x7b\"name\":\"a\"\x7d\x7d]]"
    let t : Tree := [(["m", "a.json"], .file mixed.toUTF8), (["m", "b.yml"], .locked),
      (["m", "c.json"], .locked)]
    (∃ rs, (load t "m/a.json").result = .ok rs ∧ rs.length = 1 ∧
      (load t "m/a.json").log.countP (·.level = .warning) = 1) ∧
    (load t "m").result = .error (.unreadable "m/b.yml") ∧
      ∃ before v after, filesAt t (Location.ofText "m") = some (before ++ v :: after) ∧
        Rejected v (.unreadable "m/b.yml") ∧ (load t "m").log = before.flatMap records := by
  intro mixed t
  let a : Location × Entry := (⟨"", ["m", "a.json"]⟩, .file mixed.toUTF8)
  let b : Location × Entry := (⟨"", ["m", "b.yml"]⟩, .locked)
  let c : Location × Entry := (⟨"", ["m", "c.json"]⟩, .locked)
  have hone : (load t "m/a.json").result.toOption.map List.length = some 1 := by decide +kernel
  obtain ⟨rs, hrs⟩ : ∃ rs, (load t "m/a.json").result = .ok rs := by
    cases h : (load t "m/a.json").result with
    | ok rs => exact ⟨rs, rfl⟩
    | error f =>
      rw [h] at hone
      cases hone
  have hlength : rs.length = 1 := by
    rw [hrs] at hone
    exact Option.some.inj hone
  have ha : filesAt t (Location.ofText "m/a.json") = some [a] := rfl
  obtain ⟨files, hfiles, hreadable, -, -, -, hcount⟩ :=
    (load_conserves_documents t "m/a.json").1 rs hrs
  obtain rfl : [a] = files := Option.some.inj (ha.symm.trans hfiles)
  have hkinds : (([a].flatMap flattened).countP fun doc => (kind? doc).isSome) = 2 := by
    decide +kernel
  have hdir : t.HasDirectory (Location.ofText "m") ["m"] := ⟨rfl, rfl, rfl⟩
  have hall : filesAt t (Location.ofText "m") = some [a, b, c] := by
    rw [filesAt_of_directory hdir, chosen, Tree.filesBelow, List.mergeSort_of_pairwise]
    · rfl
    · decide +kernel
  have hm : (load t "m").result = .error (.unreadable "m/b.yml") := by
    rw [load_of_filesAt hall]
    exact result_inTurn_reading_eq_error_iff.2 ⟨[a], b, [c], rfl, hreadable, rfl⟩
  obtain ⟨before, v, after, hsplit, -, hv, hlog, -⟩ :=
    (load_conserves_documents t "m").2 _ _ hm rfl hall
  refine ⟨⟨rs, hrs, hlength, ?_⟩, hm, before, v, after, hsplit ▸ hall, hv, hlog⟩
  omega
end PolicyAudit.Manifest
