import PolicyAudit.Proofs.Report.Consistent
import PolicyAudit.Proofs.Report.Lines
import PolicyAudit.Proofs.Report.Restore

/-! The lines of a report from its payload.
`blockOf` writes the header and the lines of a report from nothing but its payload, so a reader of the
JSON text has the whole text report (`Report.block_eq`). -/

namespace PolicyAudit

def dashed (s : String) : String := if s = "" then "-" else s

namespace Value

def textOr (v : Value) (name fallback : String) : String := (v.text? name).getD fallback

def counter (obj : Value) (status : String) : String :=
  match (obj.get? "summary").bind (·.get? status) with
  | some (.int n) => status ++ "=" ++ Finding.decimal n
  | _ => ""

def headerOf (obj : Value) : String :=
  let name := obj.textOr "name" "None"
  let place := match obj.text? "namespace" with
    | some ns => ns ++ "/" ++ name
    | none => name
  obj.textOr "kind" "" ++ " " ++ place ++ " [" ++ dashed (obj.textOr "source" "") ++ "] " ++
    obj.counter "pass" ++ " " ++ obj.counter "fail" ++ " " ++ obj.counter "warn" ++ " " ++
    obj.counter "error" ++ " " ++ obj.counter "skip"

def targetOf (entry : Value) : String :=
  match entry.primary? with
  | some res => res.textOr "kind" "None" ++ "/" ++ res.textOr "name" "None"
  | none => "-"

def dateOf (entry : Value) : String :=
  match (entry.get? "timestamp").map Timestamp.ofValue with
  | some (.accepted t) =>
    match t.iso with
    | .ok date => " @ " ++ date
    | .error _ => ""
  | _ => ""

def lineOf (entry : Value) : String :=
  "  [" ++ dashed (entry.textOr "priority" "").toUpper ++ "] " ++ dashed (entry.textOr "result" "") ++
    " " ++ entry.textOr "policy" "None" ++ "/" ++ dashed (entry.textOr "rule" "") ++ " :: " ++
    entry.targetOf ++ " :: " ++ entry.textOr "message" "" ++ " (" ++ entry.textOr "id" "" ++ ")" ++
    entry.dateOf

def blockOf (obj : Value) : List String := obj.headerOf :: (obj.items "results").map lineOf

end Value

theorem Value.textOr_of_field {v : Value} {name : String} (form : Form) {o : Option String}
    (h : v.get? name = form.field? (ofText? o)) (fallback : String) :
    v.textOr name fallback = o.getD fallback := by
  rw [textOr, text?_of_field form h]

theorem orDash_eq (s : Option String) : Report.orDash s = dashed (s.getD "") := by
  cases s with
  | none => rfl
  | some s =>
    unfold Report.orDash dashed
    by_cases hs : s = "" <;> simp [Option.filter, hs]

theorem orDash_label (p : Priority) :
    (Report.orDash (some p.label)).toUpper = dashed p.label.toUpper := by
  cases p <;> decide +kernel

namespace Finding

variable (f : Finding)

theorem textOr_payload {name : String} {o : Option String}
    (h : (f.written ++ f.derived).lookup name = some (.ofText? o)) (fallback : String) :
    f.payload.textOr name fallback = o.getD fallback := by
  rw [Value.textOr, f.text?_payload h]

theorem targetOf_payload : f.payload.targetOf =
    match f.resource? with
    | some res => Report.shown res.kind ++ "/" ++ Report.shown res.name
    | none => "-" := by
  rw [Value.targetOf, primary?_payload]
  cases f.resource? with
  | none => rfl
  | some res =>
    have hkind : res.compact.text? "kind" = res.kind := res.text?_compact rfl
    have hname : res.compact.text? "name" = res.name := res.text?_compact rfl
    simp only [Option.map_some, Value.textOr, hkind, hname, Report.shown]

theorem dateOf_payload : ")" ++ f.payload.dateOf = Report.lineTail f := by
  have hfield : f.payload.get? "timestamp" =
      f.timestamp.map fun t => Form.compact.write t.toValue := by
    rw [get?_payload]
    show Form.compact.field? ((f.timestamp.map Timestamp.toValue).getD .null) = _
    cases f.timestamp with
    | none => rfl
    | some t => exact Form.field?_of_ne_null _ (by simp [Timestamp.toValue, Value.record])
  have hread : ∀ t : Timestamp, Timestamp.ofValue (Form.compact.write t.toValue) = .accepted t :=
    fun t => t.restores .compact
  rw [Value.dateOf, hfield, Report.lineTail]
  cases f.timestamp with
  | none => rfl
  | some t =>
    simp only [Option.map_some, hread]
    cases t.iso <;> rfl

theorem line_eq : Report.line f = f.payload.lineOf := by
  have hpriority : f.payload.textOr "priority" "" = f.priority.label :=
    f.textOr_payload (o := some f.priority.label) rfl ""
  have hstatus : f.payload.textOr "result" "" = f.status.getD "" := f.textOr_payload rfl ""
  have hpolicy : f.payload.textOr "policy" "None" = Report.shown f.policy := f.textOr_payload rfl _
  have hrule : f.payload.textOr "rule" "" = f.rule.getD "" := f.textOr_payload rfl ""
  have hmessage : f.payload.textOr "message" "" = f.message.getD "" := f.textOr_payload rfl ""
  have hid : f.payload.textOr "id" "" = f.identity := by
    rw [f.textOr_payload (o := some f.identity) rfl, Option.getD_some]
  unfold Value.lineOf Report.line Report.lineHead
  rewrite [hpriority, hstatus, hpolicy, hrule, hmessage, hid, targetOf_payload, orDash_label,
    orDash_eq f.status, orDash_eq f.rule, ← dateOf_payload, ← String.append_assoc]
  -- both sides now name the target by the same cases of the primary resource
  cases f.resource? <;> rfl

end Finding

namespace Report

variable (r : Audit)

theorem textOr_payload {name : String} {o : Option String}
    (h : r.shownFields.lookup name = some (.ofText? o)) (fallback : String) :
    r.payload.textOr name fallback = o.getD fallback :=
  Value.textOr_of_field .full ((r.get?_payload name).trans h) fallback

theorem counter_payload {status : String} {n : Nat}
    (h : r.tally.toValue.get? status = some (.int n)) :
    r.payload.counter status = status ++ "=" ++ toString n := by
  have hsummary : r.payload.get? "summary" = some r.tally.toValue := r.get?_payload _
  rw [Value.counter, hsummary, Option.bind_some, h]
  rfl

theorem counted_tally : counted r.tally =
    r.payload.counter "pass" ++ " " ++ r.payload.counter "fail" ++ " " ++ r.payload.counter "warn" ++
      " " ++ r.payload.counter "error" ++ " " ++ r.payload.counter "skip" := by
  rw [r.counter_payload (n := r.tally.pass) rfl, r.counter_payload (n := r.tally.fail) rfl,
    r.counter_payload (n := r.tally.warn) rfl, r.counter_payload (n := r.tally.error) rfl,
    r.counter_payload (n := r.tally.skip) rfl]
  rfl

theorem header_eq : header r = r.payload.headerOf := by
  have hkind : r.payload.textOr "kind" "" = r.variant.kind :=
    r.textOr_payload (o := some r.variant.kind) rfl ""
  have hname : r.payload.textOr "name" "None" = shown r.metadata.name := r.textOr_payload rfl "None"
  have hns : r.payload.text? "namespace" = if r.ns = "" then none else some r.ns :=
    Value.text?_of_field .full (r.get?_payload "namespace")
  have hsource : r.payload.textOr "source" "" = r.source :=
    r.textOr_payload (o := some r.source) rfl ""
  unfold Value.headerOf header
  rw [hkind, hname, hns, hsource, orDash_eq, counted_tally]
  by_cases hempty : r.ns = "" <;>
    simp only [hempty, if_true, if_false, Option.getD_some, String.append_assoc]

theorem items_payload_results : r.payload.items "results" = r.findings.map Finding.payload := by
  rw [Value.items, r.get?_payload]
  rfl

theorem block_eq : block r = r.payload.blockOf := by
  have hlines : (r.findings.map Finding.payload).map Value.lineOf = r.findings.map line := by
    rw [List.map_map]
    exact List.map_congr_left fun f _ => f.line_eq.symm
  rw [block, Value.blockOf, items_payload_results, hlines, header_eq]

end Report

end PolicyAudit
