import PolicyAudit.Manifest.Load

/-! Loadings made one after the other.
A file is loaded document by document, a path file by file, and both end with the first that fails:
`inTurn` is what they have in common. Either all succeed, and records and reports are those of all
of them in order, or one fails, after others that succeed and whatever comes behind it. -/

namespace PolicyAudit.Manifest

namespace Loading

def reports (m : Loading) : List Audit := m.result.toOption.getD []

def Succeeds (m : Loading) : Prop := m.result = .ok m.reports

/-- Loadings made one after the other; one that fails is the last. -/
def inTurn : List Loading → Loading
  | [] => .empty
  | m :: ms =>
    match m.result with
    | .error _ => m
    | .ok _ => m.append (inTurn ms)

theorem succeeds_of_result {m : Loading} {rs : List Audit} (h : m.result = .ok rs) : m.Succeeds := by
  rw [Succeeds, reports, h]
  rfl

theorem succeeds_or_fails (m : Loading) : m.Succeeds ∨ ∃ f, m.result = .error f := by
  cases h : m.result with
  | ok rs => exact .inl (succeeds_of_result h)
  | error f => exact .inr ⟨f, rfl⟩

theorem Succeeds.ne_error {m : Loading} (h : m.Succeeds) (f : Failure) : m.result ≠ .error f := by
  rw [h]
  nofun

theorem succeeds_empty : empty.Succeeds := rfl

@[simp] theorem append_empty (m : Loading) : m.append empty = m := by
  obtain ⟨log, result⟩ := m
  cases result with
  | error f => simp [append, empty, Except.bind]
  | ok rs => simp [append, empty, Except.bind, Except.map]

@[simp] theorem empty_append (m : Loading) : empty.append m = m := by
  obtain ⟨log, result⟩ := m
  cases result <;> rfl

theorem append_assoc (k l m : Loading) : (k.append l).append m = k.append (l.append m) := by
  obtain ⟨_, rk⟩ := k
  obtain ⟨_, rl⟩ := l
  obtain ⟨_, rm⟩ := m
  cases rk <;> cases rl <;> cases rm <;> simp [append, Except.bind, Except.map]

theorem append_of_succeeds {l m : Loading} (hl : l.Succeeds) (hm : m.Succeeds) :
    l.append m = ⟨l.log ++ m.log, .ok (l.reports ++ m.reports)⟩ := by
  rw [append, hl, hm]
  rfl

theorem append_of_fails {l m : Loading} (hl : l.Succeeds) {f : Failure} (hm : m.result = .error f) :
    l.append m = ⟨l.log ++ m.log, .error f⟩ := by
  rw [append, hl, hm]
  rfl

theorem inTurn_cons_of_succeeds {m : Loading} (h : m.Succeeds) (ms : List Loading) :
    inTurn (m :: ms) = m.append (inTurn ms) := by
  rw [inTurn, h]

theorem inTurn_cons_of_fails {m : Loading} {f : Failure} (h : m.result = .error f)
    (ms : List Loading) : inTurn (m :: ms) = m := by
  rw [inTurn, h]

@[simp] theorem inTurn_singleton (m : Loading) : inTurn [m] = m := by
  rcases m.succeeds_or_fails with h | ⟨f, h⟩
  · rw [inTurn_cons_of_succeeds h, inTurn, append_empty]
  · exact inTurn_cons_of_fails h []

theorem inTurn_append (ms ns : List Loading) :
    inTurn (ms ++ ns) = inTurn [inTurn ms, inTurn ns] := by
  induction ms with
  | nil =>
    rw [List.nil_append, inTurn, inTurn_cons_of_succeeds succeeds_empty, inTurn_singleton,
      empty_append]
  | cons m ms ih =>
    rcases m.succeeds_or_fails with h | ⟨f, h⟩
    · rw [List.cons_append, inTurn_cons_of_succeeds h, inTurn_cons_of_succeeds h, ih]
      rcases (inTurn ms).succeeds_or_fails with hms | ⟨f, hms⟩
      · have happend : (m.append (inTurn ms)).Succeeds :=
          succeeds_of_result (congrArg Loading.result (append_of_succeeds h hms))
        rw [inTurn_cons_of_succeeds hms, inTurn_cons_of_succeeds happend, append_assoc]
      · rw [inTurn_cons_of_fails hms, inTurn_cons_of_fails]
        exact congrArg Loading.result (append_of_fails h hms)
    · rw [List.cons_append, inTurn_cons_of_fails h, inTurn_cons_of_fails h,
        inTurn_cons_of_fails h]

theorem inTurn_of_succeeds {ms : List Loading} (h : ∀ m ∈ ms, m.Succeeds) :
    inTurn ms = ⟨ms.flatMap (·.log), .ok (ms.flatMap reports)⟩ := by
  induction ms with
  | nil => rfl
  | cons m ms ih =>
    rw [List.forall_mem_cons] at h
    have hms := ih h.2
    rw [inTurn_cons_of_succeeds h.1,
      append_of_succeeds h.1 (succeeds_of_result (congrArg Loading.result hms)), hms]
    rfl

theorem inTurn_of_fails {before : List Loading} {m : Loading} {f : Failure}
    (hbefore : ∀ b ∈ before, b.Succeeds) (hm : m.result = .error f) (after : List Loading) :
    inTurn (before ++ m :: after) = ⟨before.flatMap (·.log) ++ m.log, .error f⟩ := by
  rw [inTurn_append, inTurn_of_succeeds hbefore, inTurn_cons_of_fails hm]
  rw [inTurn_cons_of_succeeds (succeeds_of_result rfl), inTurn_singleton]
  exact append_of_fails (succeeds_of_result rfl) hm

theorem all_succeed_or_first_fails (ms : List Loading) : (∀ m ∈ ms, m.Succeeds) ∨
    ∃ before m after f, ms = before ++ m :: after ∧ (∀ b ∈ before, b.Succeeds) ∧
      m.result = .error f := by
  induction ms with
  | nil => exact .inl (fun _ hm => (List.not_mem_nil hm).elim)
  | cons m ms ih =>
    rcases m.succeeds_or_fails with h | ⟨f, h⟩
    · rcases ih with hall | ⟨before, m', after, f, rfl, hbefore, hf⟩
      · exact .inl (List.forall_mem_cons.2 ⟨h, hall⟩)
      · exact .inr ⟨m :: before, m', after, f, rfl, List.forall_mem_cons.2 ⟨h, hbefore⟩, hf⟩
    · exact .inr ⟨[], m, ms, f, rfl, (fun _ hb => (List.not_mem_nil hb).elim), h⟩

theorem result_inTurn_eq_ok_iff {ms : List Loading} {rs : List Audit} :
    (inTurn ms).result = .ok rs ↔ (∀ m ∈ ms, m.Succeeds) ∧ rs = ms.flatMap reports := by
  constructor
  · intro h
    rcases all_succeed_or_first_fails ms with hall | ⟨before, m, after, f, rfl, hbefore, hf⟩
    · rw [inTurn_of_succeeds hall] at h
      exact ⟨hall, (Except.ok.inj h).symm⟩
    · rw [inTurn_of_fails hbefore hf] at h
      cases h
  · rintro ⟨hall, rfl⟩
    rw [inTurn_of_succeeds hall]

theorem result_inTurn_eq_error_iff {ms : List Loading} {f : Failure} :
    (inTurn ms).result = .error f ↔ ∃ before m after, ms = before ++ m :: after ∧
      (∀ b ∈ before, b.Succeeds) ∧ m.result = .error f := by
  constructor
  · intro h
    rcases all_succeed_or_first_fails ms with hall | ⟨before, m, after, g, rfl, hbefore, hg⟩
    · rw [inTurn_of_succeeds hall] at h
      cases h
    · rw [inTurn_of_fails hbefore hg] at h
      obtain rfl := Except.error.inj h
      exact ⟨before, m, after, rfl, hbefore, hg⟩
  · rintro ⟨before, m, after, rfl, hbefore, hf⟩
    rw [inTurn_of_fails hbefore hf]

theorem result_inTurn_of_mem {ms : List Loading} {m : Loading} {f : Failure} (hmem : m ∈ ms)
    (hm : m.result = .error f) (hall : ∀ m ∈ ms, m.Succeeds ∨ m.result = .error f) :
    (inTurn ms).result = .error f := by
  rcases all_succeed_or_first_fails ms with hsucceed | ⟨before, m', after, g, rfl, hbefore, hg⟩
  · exact absurd hm ((hsucceed m hmem).ne_error f)
  · refine result_inTurn_eq_error_iff.2 ⟨before, m', after, rfl, hbefore, ?_⟩
    exact (hall m' (by simp)).resolve_left fun h => h.ne_error g hg

end Loading

def loadLeaf (path : String) : Except Failure Value → Loading
  | .error f => .failed f
  | .ok doc => loadDocument path doc

def reading (v : Location × Entry) : Loading := loadFile v.1 v.2

theorem loadLeaves_eq_inTurn (path : String) (os : List (Except Failure Value)) :
    loadLeaves path os = .inTurn (os.map (loadLeaf path)) := by
  induction os with
  | nil => rfl
  | cons o os ih =>
    cases o with
    | error f => rfl
    | ok doc =>
      rw [loadLeaves, ih]
      rfl

theorem loadFiles_eq_inTurn (files : List (Location × Entry)) :
    loadFiles files = .inTurn (files.map reading) := by
  induction files with
  | nil => rfl
  | cons v files ih =>
    rw [loadFiles, ih]
    rfl

theorem loadFile_of_documents {l : Location} {content : ByteArray} {vs : List Value}
    (h : documents l content = .ok vs) :
    loadFile l (.file content) =
      .inTurn ((vs.flatMap leaves).map (loadLeaf l.text) ++ [loaded l]) := by
  rw [Loading.inTurn_append, Loading.inTurn_singleton, ← loadLeaves_eq_inTurn]
  simp only [loadFile, h, Loading.inTurn, Loading.append_empty]
  rfl

theorem loadFile_of_not_documents {l : Location} {content : ByteArray} {f : Failure}
    (h : documents l content = .error f) : loadFile l (.file content) = .failed f := by
  simp only [loadFile, h]

end PolicyAudit.Manifest
