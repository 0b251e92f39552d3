import Mathlib.Data.List.Forall2
import PolicyAudit.Proofs.Report.Agreement
import PolicyAudit.Proofs.Report.Emission
import PolicyAudit.Proofs.Session.Reading
import PolicyAudit.Proofs.Session.SharedIdentity

/-! The two emissions of a session.
Whatever was done before, the JSON text holds an object for each report of the current list
(`step_json_decodes`), each of them consistent in itself, and the text report, if there is one, can be
written from these objects (`flatMap_blockOf_objects`). Neither emission shows in the other. -/

namespace PolicyAudit.Session

variable {s t : Session}

theorem Untouched.map_settle_audits (h : Untouched s t) :
    t.audits.map Report.settle = s.audits.map Report.settle := by
  rw [← audits_settled, h.settled_eq, audits_settled]

theorem Untouched.step_json (h : Untouched s t) : (t.step .json).2 = (s.step .json).2 := by
  simp only [step]
  rw [← Report.toJson_settle t.audits, h.map_settle_audits, Report.toJson_settle]

theorem Untouched.step_text (h : Untouched s t) : (t.step .text).2 = (s.step .text).2 := by
  simp only [step]
  rw [← Report.toText_settle t.audits, h.map_settle_audits, Report.toText_settle]

def objects (s : Session) : List Value := s.audits.map Report.payload

theorem step_json_decodes (s : Session) :
    ∃ json, (s.step .json).2 = .ok (.text json) ∧ Json.decode? json = some (.list s.objects) :=
  ⟨_, rfl, Json.decode?_toText (Report.plain_payloads s.audits)⟩

/-- In the JSON text of any session every report of the current list has an object, in the same order,
with an entry for each of its findings, and all else that the object says follows from its entries and
from its name and namespace. -/
theorem emitted_objects_consistent (s : Session) :
    ∃ json objects, (s.step .json).2 = .ok (.text json) ∧
      Json.decode? json = some (.list objects) ∧
      List.Forall₂ (fun r obj => Consistent obj (r.findings.map Finding.payload)) s.audits objects := by
  obtain ⟨json, hjson, hdecode⟩ := s.step_json_decodes
  refine ⟨json, s.objects, hjson, hdecode, ?_⟩
  rw [objects, List.forall₂_map_right_iff]
  exact List.forall₂_same.2 fun r _ => r.consistent_payload

theorem flatMap_blockOf_objects (s : Session) :
    s.objects.flatMap Value.blockOf = s.audits.flatMap Report.block := by
  rw [objects, List.flatMap_map]
  exact congrArg (s.audits.flatMap ·) (funext fun r => r.block_eq.symm)

/-- Where there is a text report, its lines are a header for each object of the JSON text and a line for
each of its entries, written from the object alone; and the two texts are the same ones after either. -/
theorem text_written_from_json {s : Session} {text : String}
    (htext : (s.step .text).2 = .ok (.text text)) :
    ∃ json objects, (s.step .json).2 = .ok (.text json) ∧
      Json.decode? json = some (.list objects) ∧
      objects.map (fun obj => (obj.items "results").length) = s.current.map (·.findings.length) ∧
      Report.lines s.audits = .ok (objects.flatMap Value.blockOf) ∧
      text = "\n".intercalate (objects.flatMap Value.blockOf) ∧
      ((s.step .text).1.step .json).2 = .ok (.text json) ∧
      ((s.step .json).1.step .text).2 = .ok (.text text) := by
  obtain ⟨json, hjson, hdecode⟩ := s.step_json_decodes
  obtain ⟨hlines, hall, -⟩ := lines_of_text htext
  rw [← flatMap_blockOf_objects] at hlines hall
  have hcounts : s.objects.map (fun obj => (obj.items "results").length) =
      s.current.map (·.findings.length) := by
    rw [objects, audits, List.map_map, List.map_map]
    refine List.map_congr_left fun r _ => ?_
    simp only [Function.comp_apply, Report.items_payload_results, List.length_map]
    exact List.length_map _
  have hafterText : ((s.step .text).1.step .json).2 = (s.step .json).2 :=
    Untouched.step_json (s.untouched_step rfl)
  have hafterJson : ((s.step .json).1.step .text).2 = (s.step .text).2 :=
    Untouched.step_text (s.untouched_step rfl)
  exact ⟨json, s.objects, hjson, hdecode, hcounts, hlines, Answer.text.inj hall,
    hafterText.trans hjson, hafterJson.trans htext⟩

/-- A null policy, a null name, an unknown status, a resource without a name and a level without a
label. -/
theorem text_written_from_json_of_gaps :
    let odd : Finding :=
      { policy := some "p", status := some "odd", priority := .unset, message := some "m",
        resources := [{ kind := some "Pod" }], timestamp := some ⟨0, 0⟩,
        properties := .ofList [("resultID", "a")] }
    let bare : Finding :=
      { source := some "s", status := some "fail", priority := .error, rule := some "r",
        properties := .ofList [("resultID", "b")] }
    let metadata : Metadata := { name := some "n", ns := some "x" }
    let s := (start [⟨.namespaced, "v1", metadata, none, none, .zero, [odd]⟩,
      ⟨.clusterWide, "v1", metadata, none, none, .zero, [bare]⟩]).after [.assignMetadata 1 .name none]
    let text := "PolicyReport x/n [-] pass=0 fail=0 warn=0 error=0 skip=0\n" ++
      "  [-] odd p/- :: Pod/None :: m (a) @ 1970-01-01T00:00:00+00:00\n" ++
      "ClusterPolicyReport None [s] pass=0 fail=1 warn=0 error=0 skip=0\n" ++
      "  [ERROR] fail None/r :: - ::  (b)"
    (s.step .text).2 = .ok (.text text) ∧
    ∃ json objects, (s.step .json).2 = .ok (.text json) ∧
      Json.decode? json = some (.list objects) ∧
      text = "\n".intercalate (objects.flatMap Value.blockOf) := by
  intro odd bare metadata s text
  have hwritten : Report.toText s.audits = .ok text := by decide +kernel
  have htext : (s.step .text).2 = .ok (.text text) := by simp only [step, hwritten]
  obtain ⟨json, objects, hjson, hdecode, -, -, hlines, -⟩ := text_written_from_json htext
  exact ⟨htext, json, objects, hjson, hdecode, hlines⟩

end PolicyAudit.Session
