import PolicyAudit.Proofs.Report.Content
import PolicyAudit.Proofs.Report.Kept
import PolicyAudit.Session.Tally

/-! Counting results one at a time.
The status of a result is looked up among five; where it is found its counter goes up by one, and no
other counter changes (`Tally.get_note`). So in the end each counter is the number of times that its
status occurs (`Tally.get_foldl_note`), and all of them together the number of results that have a
counter (`Tally.total_foldl_note`). -/

namespace PolicyAudit

namespace Tally

variable {t : Tally Nat} {c : Counter}

theorem total_assign_succ : (t.assign c (t.get c + 1)).total = t.total + 1 := by
  cases c <;> simp only [assign, get, total] <;> omega

end Tally

namespace Counter

def status (c : Counter) : String := Tally.statuses.get c

/-- The counter of a status; only five texts have one. -/
def ofStatus? : String → Option Counter
  | "pass" => some .pass
  | "fail" => some .fail
  | "warn" => some .warn
  | "error" => some .error
  | "skip" => some .skip
  | _ => none

theorem ofStatus?_eq_some_iff {s : String} {c : Counter} :
    ofStatus? s = some c ↔ s = c.status := by
  constructor
  · intro h
    unfold ofStatus? at h
    split at h <;> cases h <;> rfl
  · rintro rfl
    cases c <;> rfl

theorem ofStatus?_status (c : Counter) : ofStatus? c.status = some c := ofStatus?_eq_some_iff.2 rfl

theorem mem_statuses_iff {s : String} :
    s ∈ Tally.statuses.toList ↔ ∃ c : Counter, s = c.status := by
  constructor
  · intro h
    simp only [Tally.toList, List.mem_cons, List.not_mem_nil, or_false] at h
    rcases h with h | h | h | h | h
    · exact ⟨.pass, h⟩
    · exact ⟨.fail, h⟩
    · exact ⟨.warn, h⟩
    · exact ⟨.error, h⟩
    · exact ⟨.skip, h⟩
  · rintro ⟨c, rfl⟩
    cases c <;> decide

end Counter

namespace Tally

def note (t : Tally Nat) (s : Option String) : Tally Nat :=
  match s.bind Counter.ofStatus? with
  | some c => t.assign c (t.get c + 1)
  | none => t

variable {t : Tally Nat} {c : Counter} {s : Option String} {ss : List (Option String)}

theorem counter?_eq_some_iff : s.bind Counter.ofStatus? = some c ↔ s = some c.status := by
  cases s <;> simp [Counter.ofStatus?_eq_some_iff]

theorem get_note : (t.note s).get c = t.get c + if s = some c.status then 1 else 0 := by
  simp only [← counter?_eq_some_iff, note]
  cases s.bind Counter.ofStatus? with
  | none => rfl
  | some d =>
    show (t.assign d (t.get d + 1)).get c = _
    rw [get_assign]
    by_cases h : c = d
    · rw [if_pos h, if_pos (congrArg some h.symm), h]
    · rw [if_neg h, if_neg (fun hd => h (Option.some.inj hd).symm), Nat.add_zero]

theorem total_note :
    (t.note s).total = t.total + if (s.bind Counter.ofStatus?).isSome then 1 else 0 := by
  unfold note
  cases s.bind Counter.ofStatus? with
  | none => rfl
  | some d => exact total_assign_succ

theorem get_foldl_note : (ss.foldl note t).get c = t.get c + ss.count (some c.status) := by
  induction ss generalizing t with
  | nil => rfl
  | cons s ss ih =>
    rw [List.foldl_cons, ih, get_note, List.count_cons, Nat.add_assoc, Nat.add_comm (List.count ..)]
    simp only [beq_iff_eq]

theorem total_foldl_note : (ss.foldl note t).total =
    t.total + ss.countP fun s => (s.bind Counter.ofStatus?).isSome := by
  induction ss generalizing t with
  | nil => rfl
  | cons s ss ih =>
    rw [List.foldl_cons, ih, total_note, List.countP_cons, Nat.add_assoc,
      Nat.add_comm (List.countP ..)]

theorem get_ofStatuses (c : Counter) (ss : List (Option String)) :
    (ofStatuses ss).get c = ss.count (some c.status) := by
  cases c <;> rfl

theorem foldl_note (ss : List (Option String)) : ss.foldl note .zero = ofStatuses ss := by
  refine eq_of_get fun c => ?_
  have hzero : zero.get c = 0 := by cases c <;> rfl
  rw [get_foldl_note, get_ofStatuses, hzero, Nat.zero_add]

theorem total_ofStatuses (ss : List (Option String)) :
    (ofStatuses ss).total = ss.countP fun s => (s.bind Counter.ofStatus?).isSome := by
  rw [← foldl_note, total_foldl_note]
  exact Nat.zero_add _

theorem get?_toValue (t : Tally Nat) (status : String) :
    t.toValue.get? status = (Counter.ofStatus? status).map fun c => .int (t.get c) := by
  let counters : List Counter := [.pass, .fail, .warn, .error, .skip]
  have hfields : t.toValue.get? status =
      (counters.map fun c => (c.status, Value.int (t.get c))).lookup status :=
    Form.get?_fields _ status
  rw [hfields]
  cases h : Counter.ofStatus? status with
  | some c =>
    rw [Counter.ofStatus?_eq_some_iff.1 h]
    cases c <;> rfl
  | none =>
    refine List.lookup_eq_none_iff.2 ?_
    rw [List.forall_mem_map]
    intro c _
    rw [bne_iff_ne]
    rintro rfl
    rw [Counter.ofStatus?_status] at h
    cases h

end Tally

namespace Finding

variable {fs gs : List Finding}

theorem countP_status (fs : List Finding) (status : String) :
    (fs.map (·.status)).count (some status) = fs.countP fun f => f.status = some status := by
  rw [List.count, List.countP_map]
  exact List.countP_congr fun f _ => by simp

theorem status_eq_iff_of_ofValue {doc : Value} {f : Finding} (h : ofValue doc = .accepted f)
    (c : Counter) : f.status = some c.status ↔ doc.textIn "result" = c.status := by
  obtain ⟨es, rfl, -⟩ := Check.record_eq_accepted_iff.1 h
  have htext : f.status.getD "" = (Value.map es).textIn "result" :=
    Check.getD_eq_textIn (fun _ _ => Check.getD_eq_heldText_of_vocabulary)
      (readFrom_of_ofValue h).status
  rw [← htext]
  cases hs : f.status with
  | none => cases c <;> simp [Counter.status, Tally.statuses, Tally.get]
  | some s => simp

theorem countP_status_of_forall₂ {docs : List Value} {fs : List Finding}
    (h : List.Forall₂ (fun doc f => ofValue doc = .accepted f) docs fs) (c : Counter) :
    (fs.countP fun f => f.status = some c.status) =
      docs.countP fun doc => doc.textIn "result" = c.status := by
  induction h with
  | nil => rfl
  | cons hf _ ih => simp only [List.countP_cons, ih, status_eq_iff_of_ofValue hf]

theorem tallyOf_eq_foldl (fs : List Finding) :
    tallyOf fs = (fs.map (·.status)).foldl Tally.note .zero :=
  (Tally.foldl_note _).symm

theorem tallyOf_append (fs gs : List Finding) : tallyOf (fs ++ gs) = tallyOf fs + tallyOf gs := by
  rw [tallyOf, List.map_append, Tally.ofStatuses_append]
  rfl

theorem tallyOf_perm {fs gs : List Finding} (h : fs.Perm gs) : tallyOf fs = tallyOf gs :=
  Tally.ofStatuses_perm (h.map _)

theorem get?_toValue_tallyOf (fs : List Finding) (status : String) :
    (tallyOf fs).toValue.get? status = if status ∈ Tally.statuses.toList then
      some (.int (fs.countP fun f => f.status = some status)) else none := by
  rw [Tally.get?_toValue]
  split_ifs with h
  · obtain ⟨c, rfl⟩ := Counter.mem_statuses_iff.1 h
    rw [Counter.ofStatus?_status, Option.map_some, tallyOf, Tally.get_ofStatuses, countP_status]
  · rw [Counter.mem_statuses_iff] at h
    cases hc : Counter.ofStatus? status with
    | none => rfl
    | some c => exact absurd ⟨c, Counter.ofStatus?_eq_some_iff.1 hc⟩ h

theorem tallyOf_cons_of_forall_ne {f : Finding}
    (h : ∀ status ∈ Tally.statuses.toList, f.status ≠ some status) (fs : List Finding) :
    tallyOf (f :: fs) = tallyOf fs := by
  refine Tally.eq_of_get fun c => ?_
  rw [tallyOf, tallyOf, Tally.get_ofStatuses, Tally.get_ofStatuses, List.map_cons,
    List.count_cons_of_ne (h c.status (Counter.mem_statuses_iff.2 ⟨c, rfl⟩))]

theorem total_tallyOf (fs : List Finding) : (tallyOf fs).total =
    fs.countP fun f => (f.status.bind Counter.ofStatus?).isSome := by
  rw [tallyOf, Tally.total_ofStatuses, List.countP_map]
  rfl

theorem total_tallyOf_eq_length_iff {fs : List Finding} : (tallyOf fs).total = fs.length ↔
    ∀ f ∈ fs, ∃ status ∈ Tally.statuses.toList, f.status = some status := by
  rw [total_tallyOf, List.countP_eq_length]
  refine forall₂_congr fun f _ => ?_
  simp only [Option.isSome_iff_exists, Tally.counter?_eq_some_iff, Counter.mem_statuses_iff]
  constructor
  · rintro ⟨c, hc⟩
    exact ⟨c.status, ⟨c, rfl⟩, hc⟩
  · rintro ⟨_, ⟨c, rfl⟩, hc⟩
    exact ⟨c, hc⟩

theorem tally_narrow_add (keep : Finding → Bool) (r : Audit) :
    ((r.narrow keep).map Report.tally).getD .zero + tallyOf (r.findings.filter (!keep ·)) =
      r.tally := by
  have hkept : ((r.narrow keep).map Report.tally).getD .zero = tallyOf (r.findings.filter keep) := by
    rw [Report.narrow_eq]
    split_ifs with h
    · rfl
    -- a report that is dropped has no result to keep, so nothing is counted of it
    · rw [Report.filter_findings_of_not_survives h]
      rfl
  rw [hkept, ← tallyOf_append]
  exact tallyOf_perm (List.filter_append_perm keep r.findings)

/-- Each of the five counters is the number of results whose status is its name, there is no other
counter, and a result with any other status, or none, changes nothing. For results that were read it
is the number of documents with that status. So the counts can be taken in one pass over the results,
those of two rows are added up, and the order does not matter. In total there are at most as many as
results, and as many only if each has a counter. A filter divides the counts of a report between what
it keeps and what it drops. -/
theorem tallyOf_counts_and_adds (fs gs : List Finding) :
    (∀ status, (tallyOf fs).toValue.get? status = if status ∈ Tally.statuses.toList then
      some (.int (fs.countP fun f => f.status = some status)) else none) ∧
    (∀ f : Finding, (∀ status ∈ Tally.statuses.toList, f.status ≠ some status) →
      tallyOf (f :: fs) = tallyOf fs) ∧
    (∀ docs, List.Forall₂ (fun doc f => ofValue doc = .accepted f) docs fs →
      ∀ status ∈ Tally.statuses.toList, (fs.countP fun f => f.status = some status) =
        docs.countP fun doc => doc.textIn "result" = status) ∧
    tallyOf fs = (fs.map (·.status)).foldl Tally.note .zero ∧
    tallyOf (fs ++ gs) = tallyOf fs + tallyOf gs ∧
    (fs.Perm gs → tallyOf fs = tallyOf gs) ∧
    (tallyOf fs).total ≤ fs.length ∧
    ((tallyOf fs).total = fs.length ↔
      ∀ f ∈ fs, ∃ status ∈ Tally.statuses.toList, f.status = some status) ∧
    ∀ (c : Criteria) (r : Audit),
      ((r.narrow c.admits).map Report.tally).getD .zero +
        tallyOf (r.findings.filter (!c.admits ·)) = r.tally := by
  refine ⟨get?_toValue_tallyOf fs, fun f h => tallyOf_cons_of_forall_ne h fs,
    fun docs h status hs => ?_, tallyOf_eq_foldl fs, tallyOf_append fs gs, tallyOf_perm, ?_,
    total_tallyOf_eq_length_iff, fun c r => tally_narrow_add c.admits r⟩
  · obtain ⟨c, rfl⟩ := Counter.mem_statuses_iff.1 hs
    exact countP_status_of_forall₂ h c
  · rw [total_tallyOf]
    exact List.countP_le_length

theorem tallyOf_counts_and_adds_three :
    let document (fields : List (String × Value)) : Value := .record (("policy", .text "p") :: fields)
    let docs := [document [("result", .text "fail")], document [("result", .text "FAIL")],
      document [("result", .null)]]
    let fs : List Finding := [{ policy := some "p", status := some "fail" },
      { policy := some "p", status := some "FAIL" }, { policy := some "p" }]
    List.Forall₂ (fun doc f => ofValue doc = .accepted f) docs fs ∧
    (tallyOf fs).toValue.get? "fail" = some (.int 1) ∧
    (docs.countP fun doc => doc.textIn "result" = "fail") = 1 ∧
    tallyOf fs.reverse = tallyOf fs ∧ tallyOf (fs.drop 1) = .zero ∧ (tallyOf fs).total ≠ 3 := by
  intro document docs fs
  have hread : List.Forall₂ (fun doc f => ofValue doc = .accepted f) docs fs :=
    .cons rfl (.cons rfl (.cons rfl .nil))
  obtain ⟨hcount, -, hdocs, -, -, -, -, htotal, -⟩ := tallyOf_counts_and_adds fs []
  obtain ⟨-, -, -, -, -, hperm, -⟩ := tallyOf_counts_and_adds fs.reverse fs
  obtain ⟨-, hother, -⟩ := tallyOf_counts_and_adds [{ policy := some "p" }] []
  obtain ⟨-, hnone, -⟩ := tallyOf_counts_and_adds [] []
  refine ⟨hread, hcount "fail", ?_, hperm fs.reverse_perm, ?_, ?_⟩
  · rw [← hdocs docs hread "fail" (by decide)]
    rfl
  · exact (hother _ (by decide)).trans (hnone _ (by decide))
  · rw [show 3 = fs.length from rfl, Ne, htotal]
    decide

end Finding

end PolicyAudit
