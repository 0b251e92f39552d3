import Mathlib.Data.List.Basic
import PolicyAudit.Proofs.Calendar.Digits
import PolicyAudit.Proofs.Json.Rows
import PolicyAudit.Proofs.Report.Lines

/-! A text report read line by line.
The texts that a report inserts into its lines are written as they are, so that each line break in one
of them is a line break of the whole text (`breaks_header`, `breaks_line`). A reader who cuts the text
at its line breaks has the lines that were written exactly when there is none (`rowsOf_text_iff`). -/

namespace PolicyAudit

def breaks (s : String) : Nat := s.toList.count '\n'

def rowsOf (s : String) : List String := (s.toList.splitOn '\n').map String.ofList

section Breaks

theorem breaks_eq_zero_iff {s : String} : breaks s = 0 ↔ '\n' ∉ s.toList := List.count_eq_zero

@[simp] theorem breaks_append (s t : String) : breaks (s ++ t) = breaks s + breaks t := by
  simp [breaks]

theorem breaks_intercalate {ls : List String} (h : ls ≠ []) :
    breaks ("\n".intercalate ls) + 1 = ls.length + (ls.map breaks).sum := by
  induction ls with
  | nil => exact absurd rfl h
  | cons l ls ih =>
    cases ls with
    | nil => simp [Nat.add_comm]
    | cons l' ls =>
      have hbreak : breaks "\n" = 1 := by decide
      have hrest := ih (List.cons_ne_nil l' ls)
      rw [String.intercalate_cons_cons, breaks_append, breaks_append, hbreak, List.length_cons,
        List.map_cons, List.sum_cons]
      omega

theorem length_rowsOf (s : String) : (rowsOf s).length = breaks s + 1 := by
  rw [rowsOf, List.length_map, breaks]
  induction s.toList with
  | nil => simp
  | cons c cs ih =>
    rw [List.splitOn_cons_eq_if_modifyHead]
    by_cases hc : c = '\n' <;> simp [hc, ih]

theorem rowsOf_intercalate {ls : List String} (hne : ls ≠ []) (h : ∀ l ∈ ls, breaks l = 0) :
    rowsOf ("\n".intercalate ls) = ls := by
  have hlines : ∀ l ∈ ls.map String.toList, '\n' ∉ l :=
    List.forall_mem_map.2 fun l hl => breaks_eq_zero_iff.1 (h l hl)
  rw [rowsOf, String.toList_intercalate]
  show (List.splitOn '\n' (['\n'].intercalate _)).map _ = _
  rw [List.splitOn_intercalate '\n' hlines (by simpa using hne), List.map_map]
  simp [Function.comp_def]

theorem rowsOf_intercalate_iff {ls : List String} (hne : ls ≠ []) :
    rowsOf ("\n".intercalate ls) = ls ↔ (ls.map breaks).sum = 0 := by
  constructor
  · intro h
    have hlength := congrArg List.length h
    have hbreaks := breaks_intercalate hne
    rw [length_rowsOf] at hlength
    omega
  · intro h
    exact rowsOf_intercalate hne (List.forall_mem_map.1 (List.sum_eq_zero_iff_forall_eq_nat.1 h))

theorem breaks_decimal (n : Int) : breaks (Finding.decimal n) = 0 := by
  rw [breaks_eq_zero_iff, Finding.decimal, String.toList_ofList]
  intro h
  exact absurd (Json.visible_intDigits n _ h) (by decide)

theorem breaks_iso (m : Moment) : breaks m.iso = 0 := by
  have hpadded (w n : Nat) : '\n' ∉ Moment.padded w n := fun h =>
    absurd (Moment.isDigit_of_mem_padded h) (by decide)
  have hstem : '\n' ∉ m.stem := by
    unfold Moment.stem
    split <;> simp [hpadded]
  have hoffset (seconds : Int) : '\n' ∉ Moment.offsetText seconds := by
    unfold Moment.offsetText
    split <;> simp [hpadded]
  rw [breaks_eq_zero_iff, Moment.iso, String.toList_ofList]
  cases m.offset <;> simp [hstem, hoffset]

theorem breaks_shown (s : Option String) : breaks (Report.shown s) = breaks (s.getD "") := by
  cases s <;> rfl

theorem breaks_orDash (s : Option String) : breaks (Report.orDash s) = breaks (s.getD "") := by
  cases s with
  | none => rfl
  | some s =>
    by_cases hs : s = "" <;> simp [Report.orDash, Option.filter, hs]
    rfl

end Breaks

namespace Report

def headerTexts (r : Audit) : List String := [r.ns, r.metadata.name.getD "", r.source]

/-- The texts that a finding inserts into its line. An identity that is a hash is no such text. -/
def lineTexts (f : Finding) : List String :=
  [f.status.getD "", f.policy.getD "", f.rule.getD "", (f.resource?.bind (·.kind)).getD "",
    (f.resource?.bind (·.name)).getD "", f.message.getD "", f.settled.getD (f.asserted?.getD "")]

def texts (r : Audit) : List String := headerTexts r ++ r.findings.flatMap lineTexts

theorem breaks_mark : ∀ s ∈ ["", " ", "/", "-", " [", "] ", "  [", " :: ", " (", ")", " @ ", "pass=",
    "fail=", "warn=", "error=", "skip="], breaks s = 0 := by
  decide

theorem breaks_counted (t : Tally Nat) : breaks (counted t) = 0 := by
  have hcount (n : Nat) : breaks n.repr = 0 := breaks_decimal n
  simp [counted, Tally.statuses, Tally.toList, String.intercalate_cons_cons, hcount, breaks_mark]

theorem breaks_header (r : Audit) : breaks (header r) = ((headerTexts r).map breaks).sum := by
  have hkind : breaks r.variant.kind = 0 := by cases r.variant <;> decide
  have hplace : breaks (if r.ns = "" then shown r.metadata.name
      else r.ns ++ "/" ++ shown r.metadata.name) =
        breaks r.ns + breaks (r.metadata.name.getD "") := by
    split
    · simp [*, breaks_shown, breaks_mark]
    · simp [breaks_shown, breaks_mark]
  unfold header
  simp only [breaks_append, hkind, hplace, breaks_orDash, breaks_counted, headerTexts,
    List.map_cons, List.sum_cons]
  simp [breaks_mark, Nat.add_assoc]

theorem breaks_identity (f : Finding) :
    breaks f.identity = breaks (f.settled.getD (f.asserted?.getD "")) := by
  unfold Finding.identity
  cases f.settled with
  | some i => rfl
  | none =>
    cases f.asserted? with
    | some i => rfl
    | none => exact breaks_decimal _

theorem breaks_of_iso {t : Timestamp} {date : String} (h : t.iso = .ok date) : breaks date = 0 := by
  unfold Timestamp.iso at h
  cases hmoment : t.toMoment with
  | error e =>
    rw [hmoment] at h
    cases h
  | ok m =>
    rw [hmoment] at h
    obtain rfl := Except.ok.inj h
    exact breaks_iso m

theorem breaks_lineTail (f : Finding) : breaks (lineTail f) = 0 := by
  unfold lineTail
  cases f.timestamp with
  | none => simp [breaks_mark]
  | some t =>
    rw [Option.map_some]
    cases h : t.iso with
    | error e => simp [breaks_mark]
    | ok date =>
      simp only [breaks_append, breaks_of_iso h]
      simp [breaks_mark]

theorem breaks_line (f : Finding) : breaks (line f) = ((lineTexts f).map breaks).sum := by
  have hpriority : breaks (orDash (some f.priority.label)).toUpper = 0 := by
    cases f.priority <;> decide +kernel
  unfold line lineHead
  cases hres : f.resource? <;>
    simp [lineTexts, hres, hpriority, breaks_shown, breaks_orDash, breaks_identity, breaks_lineTail,
      breaks_mark, Nat.add_assoc]

theorem sum_breaks_flatMap {lines texts : α → List String}
    (h : ∀ a, ((lines a).map breaks).sum = ((texts a).map breaks).sum) (as : List α) :
    ((as.flatMap lines).map breaks).sum = ((as.flatMap texts).map breaks).sum := by
  induction as with
  | nil => rfl
  | cons a as ih =>
    rw [List.flatMap_cons, List.flatMap_cons, List.map_append, List.map_append, List.sum_append,
      List.sum_append, h, ih]

theorem sum_breaks_block (r : Audit) :
    ((block r).map breaks).sum = ((texts r).map breaks).sum := by
  have hlines : ((r.findings.map line).map breaks).sum =
      ((r.findings.flatMap lineTexts).map breaks).sum := by
    have hline (f : Finding) : ([line f].map breaks).sum = ((lineTexts f).map breaks).sum := by
      simp [breaks_line]
    have hmap : r.findings.map line = r.findings.flatMap fun f => [line f] := List.map_eq_flatMap
    rw [hmap, sum_breaks_flatMap hline]
  rw [block, List.map_cons, List.sum_cons, breaks_header, hlines, texts, List.map_append,
    List.sum_append]

theorem length_lines (rs : List Audit) :
    (rs.flatMap block).length = rs.length + (rs.flatMap (·.findings)).length := by
  induction rs with
  | nil => rfl
  | cons r rs ih =>
    rw [List.flatMap_cons, List.flatMap_cons, List.length_append, List.length_append, ih,
      length_block, List.length_cons]
    omega

theorem flatMap_block_ne_nil {rs : List Audit} (h : rs ≠ []) : rs.flatMap block ≠ [] := by
  obtain ⟨r, rs, rfl⟩ := List.exists_cons_of_ne_nil h
  exact List.cons_ne_nil _ _

theorem toText_eq_ok_iff {rs : List Audit} {text : String} : toText rs = .ok text ↔
    (∀ r ∈ rs, ∀ f ∈ r.findings, hasLine f) ∧ text = "\n".intercalate (rs.flatMap block) := by
  unfold toText
  constructor
  · intro h
    cases hlines : lines rs with
    | error e =>
      rw [hlines] at h
      cases h
    | ok ls =>
      rw [hlines] at h
      obtain ⟨hall, rfl⟩ := (lines_eq_ok_iff rs ls).1 hlines
      exact ⟨hall, (Except.ok.inj h).symm⟩
  · rintro ⟨hall, rfl⟩
    rw [(lines_eq_ok_iff rs _).2 ⟨hall, rfl⟩]
    rfl

theorem rowsOf_text_iff {rs : List Audit} {text : String} (hne : rs ≠ [])
    (h : toText rs = .ok text) :
    rowsOf text = rs.flatMap block ↔ ∀ s ∈ rs.flatMap texts, '\n' ∉ s.toList := by
  obtain ⟨-, rfl⟩ := toText_eq_ok_iff.1 h
  rw [rowsOf_intercalate_iff (flatMap_block_ne_nil hne), sum_breaks_flatMap sum_breaks_block,
    List.sum_eq_zero_iff_forall_eq_nat, List.forall_mem_map]
  simp only [breaks_eq_zero_iff]

theorem length_rowsOf_text {rs : List Audit} {text : String} (hne : rs ≠ [])
    (h : toText rs = .ok text) :
    (rowsOf text).length = rs.length + (rs.flatMap (·.findings)).length +
      ((rs.flatMap texts).map breaks).sum := by
  obtain ⟨-, rfl⟩ := toText_eq_ok_iff.1 h
  rw [length_rowsOf, breaks_intercalate (flatMap_block_ne_nil hne),
    sum_breaks_flatMap sum_breaks_block, length_lines]

def isFindingRow (row : String) : Bool := "  [".toList.isPrefixOf row.toList

theorem isFindingRow_header (r : Audit) : isFindingRow (header r) = false := by
  unfold isFindingRow header
  cases r.variant <;> simp [Variant.kind, List.isPrefixOf]

theorem isFindingRow_line (f : Finding) : isFindingRow (line f) = true := by
  unfold isFindingRow line lineHead
  simp only [String.toList_append, List.append_assoc, List.isPrefixOf_iff_prefix]
  exact List.prefix_append _ _

/-- A text report that can be written has a row more for each line break in a text inserted into it.
Its rows are the lines that were written, a header for each report and a line for each of its findings,
exactly when there is no such break; then the first signs of a row tell which of the two it is. -/
theorem rows_are_lines_iff {rs : List Audit} {text : String} (h : toText rs = .ok text) :
    (rs = [] → text = "") ∧
    (rs ≠ [] →
      (rowsOf text).length = rs.length + (rs.flatMap (·.findings)).length +
        ((rs.flatMap texts).map breaks).sum ∧
      (rowsOf text = rs.flatMap (fun r => header r :: r.findings.map line) ↔
        ∀ s ∈ rs.flatMap texts, '\n' ∉ s.toList) ∧
      ((∀ s ∈ rs.flatMap texts, '\n' ∉ s.toList) → (rowsOf text).map isFindingRow =
        rs.flatMap fun r => false :: List.replicate r.findings.length true)) ∧
    ∀ r ∈ rs, ¬ isFindingRow (header r) ∧
      ∀ f ∈ r.findings, findingLine f = .ok (line f) ∧ isFindingRow (line f) := by
  have hlines (f : Finding) (hf : hasLine f) : findingLine f = .ok (line f) :=
    (findingLine_givesIf f _).2 ⟨hf, rfl⟩
  obtain ⟨hall, htext⟩ := toText_eq_ok_iff.1 h
  refine ⟨?_, fun hne => ⟨length_rowsOf_text hne h, rowsOf_text_iff hne h, fun hbreaks => ?_⟩,
    fun r hr => ⟨?_, fun f hf => ⟨hlines f (hall r hr f hf), isFindingRow_line f⟩⟩⟩
  · rintro rfl
    exact htext
  · rw [(rowsOf_text_iff hne h).2 hbreaks, List.map_flatMap]
    refine List.flatMap_congr fun r _ => ?_
    simp [block, isFindingRow_header, isFindingRow_line, Function.comp_def]
  · rw [isFindingRow_header]
    exact Bool.false_ne_true

/-- A report of one finding whose message goes on as the end of its line and as two more lines. -/
def smuggling : Audit :=
  ⟨.namespaced, apiVersionDefault, { name := some "a" }, none, none, .zero,
    [{ policy := some "p", properties := .ofList [("resultID", "2")]
       message := some ("ok (1)\nPolicyReport x/b [-] pass=0 fail=1 warn=0 error=0 skip=0\n" ++
        "  [ERROR] fail q/- :: - :: bad") }]⟩

def smugglingDocument : Value :=
  .record [("kind", .text "PolicyReport"), ("metadata", .record [("name", .text "a")]),
    ("results", .list [.record [("policy", .text "p"),
      ("message", .text ("ok (1)\nPolicyReport x/b [-] pass=0 fail=1 warn=0 error=0 skip=0\n" ++
        "  [ERROR] fail q/- :: - :: bad")),
      ("properties", .record [("resultID", .text "2")])]])]

def smuggled : List Audit := [
  ⟨.namespaced, apiVersionDefault, { name := some "a" }, none, none, .zero,
    [{ policy := some "p", message := some "ok", properties := .ofList [("resultID", "1")] }]⟩,
  ⟨.namespaced, apiVersionDefault, { name := some "b", ns := some "x" }, none, none, .zero,
    [{ policy := some "q", message := some "bad", status := some "fail", priority := .error
       properties := .ofList [("resultID", "2")] }]⟩]

def smuggledText : String :=
  "PolicyReport a [-] pass=0 fail=0 warn=0 error=0 skip=0\n  [DEBUG] - p/- :: - :: ok (1)\n" ++
    "PolicyReport x/b [-] pass=0 fail=1 warn=0 error=0 skip=0\n  [ERROR] fail q/- :: - :: bad (2)"

theorem parse_smugglingDocument : parse smugglingDocument = .ok smuggling := rfl

theorem toText_smuggling : toText [smuggling] = .ok smuggledText := by decide +kernel

theorem rows_are_lines_iff_of_smuggled :
    toText smuggled = .ok smuggledText ∧ toText [smuggling] = .ok smuggledText ∧
    rowsOf smuggledText = smuggled.flatMap (fun r => header r :: r.findings.map line) ∧
    (rowsOf smuggledText).length = 2 + 2 ∧ (rowsOf smuggledText).length = 1 + 1 + 2 ∧
    rowsOf smuggledText ≠ [smuggling].flatMap fun r => header r :: r.findings.map line := by
  have hsmuggled : toText smuggled = .ok smuggledText := by decide +kernel
  obtain ⟨hlength, hrows, -⟩ := (rows_are_lines_iff hsmuggled).2.1 (by decide)
  obtain ⟨hlength', hrows', -⟩ := (rows_are_lines_iff toText_smuggling).2.1 (by decide)
  refine ⟨hsmuggled, toText_smuggling, hrows.2 (by decide), hlength, hlength', fun h => ?_⟩
  exact absurd (hrows'.1 h) (by decide)

theorem not_all_rows_are_lines :
    ¬ ∀ (rs : List Audit) (text : String), (∀ r ∈ rs, ∃ doc, parse doc = .ok r) → rs ≠ [] →
      toText rs = .ok text → rowsOf text = rs.flatMap fun r => header r :: r.findings.map line := by
  intro h
  have hrows := h [smuggling] smuggledText
    (List.forall_mem_singleton.2 ⟨smugglingDocument, parse_smugglingDocument⟩) (by decide)
    toText_smuggling
  exact absurd ((rowsOf_text_iff (by decide) toText_smuggling).1 hrows) (by decide)

end Report

end PolicyAudit
