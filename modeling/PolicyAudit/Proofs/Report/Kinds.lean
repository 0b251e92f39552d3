import PolicyAudit.Proofs.Report.FirstSeen
import PolicyAudit.Report.Filter

/-! The kinds and the severities of findings.
Either list collects one text of each finding in turn (`collects_firstSeen`). What findings are left
out can change the order of the list, since another finding may be the first with its text, but adds
nothing to it (`firstSeen_filter_subset`). -/

namespace PolicyAudit.Finding

def primaryKind (f : Finding) : Option String :=
  match f.resources with
  | [] => none
  | r :: _ => r.kind

theorem primaryKind_eq (f : Finding) : f.primaryKind = f.resource?.bind (·.kind) := by
  unfold primaryKind resource?
  cases f.resources <;> rfl

theorem primaryKind_take (f : Finding) :
    primaryKind { f with resources := f.resources.take 1 } = f.primaryKind := by
  unfold primaryKind
  cases f.resources <;> rfl

/-- `seen` has the texts of the findings that are not empty, each once, in the order of the first
findings that have them. -/
structure Collects (text : Finding → Option String) (fs : List Finding) (seen : List String) :
    Prop where
  mem_iff : ∀ s, s ∈ seen ↔ s ≠ "" ∧ ∃ f ∈ fs, text f = some s
  distinct : seen.Nodup
  ordered : seen.Pairwise fun s t =>
    fs.findIdx (text · = some s) < fs.findIdx (text · = some t)

variable {text : Finding → Option String}

theorem getD_eq_iff {o : Option String} {s : String} (hs : s ≠ "") :
    o.getD "" = s ↔ o = some s := by
  cases o with
  | none => simp [Ne.symm hs]
  | some t => simp

theorem idxOf_texts (fs : List Finding) {s : String} (hs : s ≠ "") :
    ((fs.map text).map (·.getD "")).idxOf s = fs.findIdx (text · = some s) := by
  have htext : (fun f => (text f).getD "" == s) = fun f => decide (text f = some s) := by
    funext f
    rw [Bool.eq_iff_iff, beq_iff_eq, decide_eq_true_iff, getD_eq_iff hs]
  rw [List.map_map, List.idxOf, List.findIdx_map, ← htext]
  rfl

theorem collects_firstSeen (text : Finding → Option String) (fs : List Finding) :
    Collects text fs (firstSeen (fs.map text)) := by
  have h := firstSeen_collects (fs.map text)
  refine ⟨fun s => ?_, h.distinct, h.ordered.imp_of_mem fun {s t} hs ht hlt => ?_⟩
  · rw [h.mem_iff, and_comm]
    refine and_congr_right fun hs => ?_
    simp only [List.map_map, List.mem_map, Function.comp_apply, getD_eq_iff hs]
  · rwa [idxOf_texts fs ((h.mem_iff s).1 hs).2, idxOf_texts fs ((h.mem_iff t).1 ht).2] at hlt

theorem firstSeen_filter_subset (text : Finding → Option String) (keep : Finding → Bool)
    (fs : List Finding) :
    firstSeen ((fs.filter keep).map text) ⊆ firstSeen (fs.map text) := by
  intro s hs
  obtain ⟨hne, f, hf, htext⟩ := ((collects_firstSeen text _).mem_iff s).1 hs
  exact ((collects_firstSeen text fs).mem_iff s).2 ⟨hne, f, List.mem_of_mem_filter hf, htext⟩

theorem kindsOf_eq (fs : List Finding) : kindsOf fs = firstSeen (fs.map primaryKind) := by
  rw [kindsOf, funext primaryKind_eq]

/-- The kinds are those of first resources, the severities any at all, known or not. Each list has
every text once that is not empty, in the order of the first findings that have it. More findings add
at its end what has not been seen, and a filtered report shows nothing that the report does not. -/
theorem kinds_and_severities_first_seen (fs gs : List Finding) :
    Collects primaryKind fs (kindsOf fs) ∧
    kindsOf (fs.map fun f => { f with resources := f.resources.take 1 }) = kindsOf fs ∧
    Collects (·.severity) fs (severitiesOf fs) ∧
    "" ∉ kindsOf fs ∧ "" ∉ severitiesOf fs ∧
    kindsOf (fs ++ gs) = kindsOf fs ++ (kindsOf gs).filter (· ∉ kindsOf fs) ∧
    severitiesOf (fs ++ gs) =
      severitiesOf fs ++ (severitiesOf gs).filter (· ∉ severitiesOf fs) ∧
    ∀ (keep : Finding → Bool) (r r' : Audit), r.narrow keep = some r' →
      r'.kinds ⊆ r.kinds ∧ r'.severities ⊆ r.severities := by
  have hkinds : Collects primaryKind fs (kindsOf fs) := by
    rw [kindsOf_eq]
    exact collects_firstSeen primaryKind fs
  have hseverities : Collects (·.severity) fs (severitiesOf fs) := collects_firstSeen _ fs
  refine ⟨hkinds, ?_, hseverities, fun h => ((hkinds.mem_iff "").1 h).1 rfl,
    fun h => ((hseverities.mem_iff "").1 h).1 rfl, ?_, ?_, fun keep r r' h => ?_⟩
  · rw [kindsOf_eq, kindsOf_eq, List.map_map]
    exact congrArg firstSeen (List.map_congr_left fun f _ => f.primaryKind_take)
  · rw [kindsOf, List.map_append]
    exact firstSeen_append _ _
  · rw [severitiesOf, List.map_append]
    exact firstSeen_append _ _
  · rw [Report.kinds, Report.kinds, Report.severities, Report.severities,
      Report.findings_of_narrow h]
    exact ⟨firstSeen_filter_subset _ keep r.findings, firstSeen_filter_subset _ keep r.findings⟩

/-- Once the first of three findings is left out, the kind and the severity that it shares with the
last one come second. -/
theorem kinds_and_severities_first_seen_reordered :
    let pod : Reference := { kind := some "Pod" }
    let job : Reference := { kind := some "Job" }
    let f : Finding := { resources := [pod], severity := some "high", priority := .error }
    let g : Finding := { resources := [job, pod], severity := some "odd", source := some "a" }
    let h : Finding := { resources := [pod, job], severity := some "high", source := some "a" }
    let report (fs : List Finding) : Audit :=
      ⟨.namespaced, "v1", { name := some "r" }, none, none, .zero, fs⟩
    let fs := [f, g, h, { severity := some "" }]
    (report fs).narrow (Criteria.admits ⟨.unset, ["a"]⟩) = some (report [g, h]) ∧
    kindsOf fs = ["Pod", "Job"] ∧ severitiesOf fs = ["high", "odd"] ∧
    kindsOf [g, h] = ["Job", "Pod"] ∧ severitiesOf [g, h] = ["odd", "high"] ∧
    kindsOf [g, h] ⊆ kindsOf fs ∧ severitiesOf [g, h] ⊆ severitiesOf fs := by
  intro pod job f g h report fs
  have hnarrow : (report fs).narrow (Criteria.admits ⟨.unset, ["a"]⟩) = some (report [g, h]) := by
    decide
  obtain ⟨-, -, -, -, -, -, -, hsub⟩ := kinds_and_severities_first_seen [] []
  exact ⟨hnarrow, by decide, by decide, by decide, by decide, hsub _ _ _ hnarrow⟩

end PolicyAudit.Finding
