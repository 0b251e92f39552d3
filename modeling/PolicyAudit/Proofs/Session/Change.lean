import PolicyAudit.Session.Reports

/-! What one step makes of a session.
`Change` lists the ways a step may move a session, each with what it moves; `change_step` shows
that there are no others. Handles that reports hold have been given out by the store, at every
level and after every run (`bounded_after_start`). -/

namespace PolicyAudit

namespace Store

theorem finding_settleAll (s : Store) (is : List Nat) (h : Nat) :
    (s.settleAll is).finding h = if h ∈ is then (s.finding h).settle else s.finding h := by
  induction is generalizing s with
  | nil => rfl
  | cons i is ih =>
    show ((s.settle i).settleAll is).finding h = _
    rw [ih]
    by_cases hi : h = i
    · subst hi
      simp [settle]
    · simp [settle, finding_setFinding_ne _ _ hi, hi]

@[simp] theorem nextFinding_settleAll (s : Store) (is : List Nat) :
    (s.settleAll is).nextFinding = s.nextFinding := by
  induction is generalizing s with
  | nil => rfl
  | cons i is ih => exact ih (s.settle i)

@[simp] theorem nextMetadata_settleAll (s : Store) (is : List Nat) :
    (s.settleAll is).nextMetadata = s.nextMetadata := by
  induction is generalizing s with
  | nil => rfl
  | cons i is ih => exact ih (s.settle i)

theorem finding_addFinding_of_lt (s : Store) (f : Finding) {h : Nat} (hh : h < s.nextFinding) :
    (s.addFinding f).1.finding h = s.finding h :=
  finding_setFinding_ne s f (Nat.ne_of_lt hh)

theorem finding_modifyFinding (s : Store) (i : Nat) (f : Finding → Finding) (h : Nat) :
    (s.modifyFinding i f).finding h = if h = i then f (s.finding h) else s.finding h := by
  by_cases hi : h = i
  · subst hi
    simp [modifyFinding]
  · rw [modifyFinding, finding_setFinding_ne _ _ hi, if_neg hi]

def Holds (s : Store) (r : Held) : Prop :=
  r.metadata < s.nextMetadata ∧ ∀ h ∈ r.findings, h < s.nextFinding

theorem Holds.mono {s s' : Store} {r : Held} (h : s.Holds r) (hf : s.nextFinding ≤ s'.nextFinding)
    (hm : s.nextMetadata ≤ s'.nextMetadata) : s'.Holds r :=
  ⟨Nat.lt_of_lt_of_le h.1 hm, fun i hi => Nat.lt_of_lt_of_le (h.2 i hi) hf⟩

theorem addFindings_handles (s : Store) (fs : List Finding) :
    (s.addFindings fs).2 = List.range' s.nextFinding fs.length ∧
    (s.addFindings fs).1.nextFinding = s.nextFinding + fs.length ∧
    (s.addFindings fs).1.nextMetadata = s.nextMetadata := by
  induction fs generalizing s with
  | nil => exact ⟨rfl, rfl, rfl⟩
  | cons f fs ih =>
    obtain ⟨hi, hn, hm⟩ := ih (s.addFinding f).1
    refine ⟨?_, ?_, hm⟩
    · show s.nextFinding :: ((s.addFinding f).1.addFindings fs).2 = _
      rw [hi]
      rfl
    · show ((s.addFinding f).1.addFindings fs).1.nextFinding = _
      rw [hn, List.length_cons]
      show s.nextFinding + 1 + fs.length = _
      omega

theorem holds_addReport (s : Store) (r : Audit) :
    (s.addReport r).1.Holds (s.addReport r).2 ∧
    s.nextFinding ≤ (s.addReport r).1.nextFinding ∧
    s.nextMetadata ≤ (s.addReport r).1.nextMetadata := by
  obtain ⟨hi, hn, hm⟩ := (s.addMetadata r.metadata).1.addFindings_handles r.findings
  have hnext : (s.addMetadata r.metadata).1.nextFinding = s.nextFinding := rfl
  have hmeta : (s.addMetadata r.metadata).1.nextMetadata = s.nextMetadata + 1 := rfl
  rw [hnext] at hi hn
  rw [hmeta] at hm
  refine ⟨⟨?_, ?_⟩, ?_, ?_⟩
  · show s.nextMetadata < ((s.addMetadata r.metadata).1.addFindings r.findings).1.nextMetadata
    omega
  · intro h hh
    show h < ((s.addMetadata r.metadata).1.addFindings r.findings).1.nextFinding
    have hr : h ∈ ((s.addMetadata r.metadata).1.addFindings r.findings).2 := hh
    rw [hi, List.mem_range'_1] at hr
    omega
  · show s.nextFinding ≤ ((s.addMetadata r.metadata).1.addFindings r.findings).1.nextFinding
    omega
  · show s.nextMetadata ≤ ((s.addMetadata r.metadata).1.addFindings r.findings).1.nextMetadata
    omega

theorem holds_addReports (s : Store) (rs : List Audit) :
    (∀ r ∈ (s.addReports rs).2, (s.addReports rs).1.Holds r) ∧
    s.nextFinding ≤ (s.addReports rs).1.nextFinding ∧
    s.nextMetadata ≤ (s.addReports rs).1.nextMetadata := by
  induction rs generalizing s with
  | nil => exact ⟨fun r hr => (List.not_mem_nil hr).elim, Nat.le_refl _, Nat.le_refl _⟩
  | cons r rs ih =>
    obtain ⟨hr, hf, hm⟩ := s.holds_addReport r
    obtain ⟨hrs, hfs, hms⟩ := ih (s.addReport r).1
    refine ⟨?_, Nat.le_trans hf hfs, Nat.le_trans hm hms⟩
    intro x hx
    rcases List.mem_cons.1 hx with rfl | hx
    · exact hr.mono hfs hms
    · exact hrs x hx

end Store

namespace Session

def after (s : Session) (steps : List Step) : Session := steps.foldl (fun s st => (s.step st).1) s

/-- The lists of reports on the stack, the current one first. -/
def levels (s : Session) : List (List Held) := s.current :: s.below

/-- Every report on the stack holds handles that have been given out. -/
def Bounded (s : Session) : Prop := ∀ level ∈ s.levels, ∀ r ∈ level, s.store.Holds r

@[simp] theorem after_nil (s : Session) : s.after [] = s := rfl

@[simp] theorem after_cons (s : Session) (st : Step) (sts : List Step) :
    s.after (st :: sts) = (s.step st).1.after sts := rfl

/-- How a step may move a session. -/
inductive Change (s : Session) : Step → Session → Prop
  | same (st : Step) : Change s st s
  | filter (c : Criteria) : Change s (.filter c)
      { s with
        current := Report.narrowAll (fun i => c.admits (s.store.finding i)) s.current
        below := s.current :: s.below }
  | unfilter {under : List Held} {rest : List (List Held)} (h : s.below = under :: rest) :
      Change s .unfilter { s with current := under, below := rest }
  | json : Change s .json { s with store := s.store.settleAll s.listed }
  | text {is : List Nat} (h : ∀ i ∈ is, i ∈ s.listed) :
      Change s .text { s with store := s.store.settleAll is }
  | view (i : Int) {r : Held} (h : r ∈ s.current) :
      Change s (.view i) { s with store := s.store.settleAll r.findings }
  | identity (i k : Int) {r : Held} {h : Nat} (hr : r ∈ s.current) (hh : h ∈ r.findings) :
      Change s (.identity i k) { s with store := s.store.settle h }
  | append (i : Int) {doc : Value} {j : Nat} {r : Held} {f : Finding} (h : s.current[j]? = some r)
      (hf : Finding.ofValue doc = .accepted f) : Change s (.append i doc)
      { s with
        store := (s.store.addFinding f).1
        current := s.current.set j { r with findings := r.findings ++ [s.store.nextFinding] } }
  | remove (i k : Int) {j : Nat} {r : Held} (n : Nat) (h : s.current[j]? = some r) :
      Change s (.remove i k)
        { s with current := s.current.set j { r with findings := r.findings.eraseIdx n } }
  | edit (i k : Int) (e : Edit) {r : Held} {h : Nat} (hr : r ∈ s.current) (hh : h ∈ r.findings) :
      Change s (.edit i k e) { s with store := s.store.modifyFinding h e.apply }
  | assignMetadata (i : Int) (field : Metadata.TextField) (t : Option String) {r : Held}
      (h : r ∈ s.current) : Change s (.assignMetadata i field t)
        { s with store := s.store.modifyMetadata r.metadata (·.assign field t) }

theorem withReport_of_resolve {s : Session} {i : Int} {j : Nat} {r : Held}
    (hi : Position.resolve? i s.current.length = some j) (hr : s.current[j]? = some r)
    (act : Nat → Held → Outcome) : s.withReport i act = act j r := by
  simp [withReport, hi, hr]

theorem withFinding_of_resolve {s : Session} {r : Held} {k : Int} {n h : Nat}
    (hk : Position.resolve? k r.findings.length = some n) (hh : r.findings[n]? = some h)
    (act : Nat → Nat → Outcome) : s.withFinding r k act = act n h := by
  simp [withFinding, hk, hh]

theorem withReport_cases (s : Session) (i : Int) (act : Nat → Held → Outcome) :
    s.withReport i act = (s, .error .noSuchPosition) ∨
    ∃ j r, Position.resolve? i s.current.length = some j ∧ s.current[j]? = some r ∧
      s.withReport i act = act j r := by
  unfold withReport
  cases hi : Position.resolve? i s.current.length with
  | none => exact .inl rfl
  | some j =>
    cases hr : s.current[j]? with
    | none => exact .inl (by simp [hr])
    | some r => exact .inr ⟨j, r, rfl, hr, by simp [hr]⟩

theorem withFinding_cases (s : Session) (r : Held) (k : Int) (act : Nat → Nat → Outcome) :
    s.withFinding r k act = (s, .error .noSuchPosition) ∨
    ∃ n h, Position.resolve? k r.findings.length = some n ∧ r.findings[n]? = some h ∧
      s.withFinding r k act = act n h := by
  unfold withFinding
  cases hk : Position.resolve? k r.findings.length with
  | none => exact .inl rfl
  | some n =>
    cases hh : r.findings[n]? with
    | none => exact .inl (by simp [hh])
    | some h => exact .inr ⟨n, h, rfl, hh, by simp [hh]⟩

theorem reached_subset {shows : ε → Bool} {fs : List ε} {f : ε}
    (h : f ∈ Report.reached shows fs) : f ∈ fs := by
  induction fs with
  | nil => exact h
  | cons g gs ih =>
    rw [Report.reached] at h
    split at h
    · rcases List.mem_cons.1 h with rfl | h
      · exact List.mem_cons_self
      · exact List.mem_cons_of_mem _ (ih h)
    · rw [List.mem_singleton.1 h]
      exact List.mem_cons_self

theorem change_step (s : Session) (st : Step) : s.Change st (s.step st).1 := by
  cases st with
  | filter c => exact .filter c
  | unfilter =>
    simp only [step]
    split
    · exact .same _
    · rename_i h
      exact .unfilter h
  | json => exact .json
  | text => exact .text fun i => reached_subset
  | view i =>
    rcases s.withReport_cases i _ with h | ⟨j, r, -, hr, h⟩ <;> rw [step, h]
    · exact .same _
    · exact .view i (List.mem_of_getElem? hr)
  | identity i k =>
    rcases s.withReport_cases i _ with h | ⟨j, r, -, hr, h⟩ <;> rw [step, h]
    · exact .same _
    rcases s.withFinding_cases r k _ with h | ⟨n, f, -, hf, h⟩ <;> rw [h]
    · exact .same _
    · exact .identity i k (List.mem_of_getElem? hr) (List.mem_of_getElem? hf)
  | append i doc =>
    rcases s.withReport_cases i _ with h | ⟨j, r, -, hr, h⟩ <;> rw [step, h]
    · exact .same _
    cases hf : Finding.ofValue doc with
    | accepted f => exact .append i hr hf
    | rejected is => exact .same _
  | remove i k =>
    rcases s.withReport_cases i _ with h | ⟨j, r, -, hr, h⟩ <;> rw [step, h]
    · exact .same _
    rcases s.withFinding_cases r k _ with h | ⟨n, f, -, hf, h⟩ <;> rw [h]
    · exact .same _
    · exact .remove i k n hr
  | edit i k e =>
    rcases s.withReport_cases i _ with h | ⟨j, r, -, hr, h⟩ <;> rw [step, h]
    · exact .same _
    rcases s.withFinding_cases r k _ with h | ⟨n, f, -, hf, h⟩ <;> rw [h]
    · exact .same _
    · exact .edit i k e (List.mem_of_getElem? hr) (List.mem_of_getElem? hf)
  | assignMetadata i field t =>
    rcases s.withReport_cases i _ with h | ⟨j, r, -, hr, h⟩ <;> rw [step, h]
    · exact .same _
    · exact .assignMetadata i field t (List.mem_of_getElem? hr)

theorem nextFinding_le_of_change {s s' : Session} {st : Step} (hc : s.Change st s') :
    s.store.nextFinding ≤ s'.store.nextFinding := by
  cases hc with
  | append => exact Nat.le_succ _
  | json | text | view => simp
  | _ => exact Nat.le_refl _

theorem holds_of_mem_narrowAll {s : Store} {keep : Nat → Bool} {rs : List Held}
    (hs : ∀ r ∈ rs, s.Holds r) : ∀ r ∈ Report.narrowAll keep rs, s.Holds r := by
  intro r hr
  obtain ⟨r₀, hr₀, hn⟩ := List.mem_filterMap.1 hr
  obtain rfl := Report.eq_of_narrow hn
  exact ⟨(hs r₀ hr₀).1, fun h hh => (hs r₀ hr₀).2 h (List.mem_filter.1 hh).1⟩

theorem Bounded.of_current {s s' : Session} (hs : s.Bounded) (hbelow : s'.below = s.below)
    (hf : s.store.nextFinding ≤ s'.store.nextFinding)
    (hm : s.store.nextMetadata ≤ s'.store.nextMetadata)
    (hc : ∀ r ∈ s'.current, r ∈ s.current ∨ s'.store.Holds r) : s'.Bounded := by
  intro level hl r hr
  rcases List.mem_cons.1 hl with rfl | hl
  · rcases hc r hr with hr | hr
    · exact (hs _ List.mem_cons_self r hr).mono hf hm
    · exact hr
  · rw [hbelow] at hl
    exact (hs level (List.mem_cons_of_mem _ hl) r hr).mono hf hm

theorem Bounded.change {s s' : Session} {st : Step} (hs : s.Bounded) (h : s.Change st s') :
    s'.Bounded := by
  have hcurrent : ∀ r ∈ s.current, s.store.Holds r := hs _ List.mem_cons_self
  cases h with
  | same => exact hs
  | filter c =>
    intro level hl r hr
    rcases List.mem_cons.1 hl with rfl | hl
    · exact holds_of_mem_narrowAll hcurrent r hr
    · exact hs level hl r hr
  | unfilter h =>
    intro level hl r hr
    apply hs level _ r hr
    rw [levels, h]
    exact List.mem_cons_of_mem _ hl
  | json => exact hs.of_current rfl (by simp) (by simp) fun r hr => .inl hr
  | text h => exact hs.of_current rfl (by simp) (by simp) fun r hr => .inl hr
  | view i h => exact hs.of_current rfl (by simp) (by simp) fun r hr => .inl hr
  | identity i k hr hh =>
    exact hs.of_current rfl (Nat.le_refl _) (Nat.le_refl _) fun r hr => .inl hr
  | edit i k e hr hh =>
    exact hs.of_current rfl (Nat.le_refl _) (Nat.le_refl _) fun r hr => .inl hr
  | assignMetadata i field t h =>
    exact hs.of_current rfl (Nat.le_refl _) (Nat.le_refl _) fun r hr => .inl hr
  | @append i doc j r f h hf =>
    refine hs.of_current rfl (Nat.le_succ _) (Nat.le_refl _) fun x hx => ?_
    rcases List.mem_or_eq_of_mem_set hx with hx | rfl
    · exact .inl hx
    have hr := hcurrent r (List.mem_of_getElem? h)
    refine .inr ⟨hr.1, fun i hi => ?_⟩
    rcases List.mem_append.1 hi with hi | hi
    · exact Nat.lt_succ_of_lt (hr.2 i hi)
    · rw [List.mem_singleton.1 hi]
      exact Nat.lt_succ_self _
  | @remove i k j r n h =>
    refine hs.of_current rfl (Nat.le_refl _) (Nat.le_refl _) fun x hx => ?_
    rcases List.mem_or_eq_of_mem_set hx with hx | rfl
    · exact .inl hx
    have hr := hcurrent r (List.mem_of_getElem? h)
    exact .inr ⟨hr.1, fun i hi => hr.2 i (List.mem_of_mem_eraseIdx hi)⟩

theorem bounded_start (rs : List Audit) : (start rs).Bounded := by
  intro level hl r hr
  obtain rfl := List.mem_singleton.1 hl
  exact (Store.empty.holds_addReports rs).1 r hr

theorem Bounded.after {s : Session} (hs : s.Bounded) (steps : List Step) :
    (s.after steps).Bounded := by
  induction steps generalizing s with
  | nil => exact hs
  | cons st sts ih => exact ih (hs.change (s.change_step st))

theorem bounded_after_start (rs : List Audit) (steps : List Step) :
    ((start rs).after steps).Bounded :=
  (bounded_start rs).after steps

end Session

end PolicyAudit
