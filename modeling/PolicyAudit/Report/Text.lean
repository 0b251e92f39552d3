import PolicyAudit.Report.Basic

/-! Reports as lines of text: a header for each report and a line for each finding.
A finding's line fails if its timestamp has no date; its identity has been shown by then. -/

namespace PolicyAudit.Report

def shown (s : Option String) : String := s.getD "None"

def orDash (s : Option String) : String := (s.filter (· ≠ "")).getD "-"

def counted (t : Tally Nat) : String :=
  " ".intercalate ((List.zip Tally.statuses.toList t.toList).map fun (s, n) => s ++ "=" ++ toString n)

def header (r : Audit) : String :=
  let name := shown r.metadata.name
  let place := if r.ns = "" then name else r.ns ++ "/" ++ name
  r.variant.kind ++ " " ++ place ++ " [" ++ orDash (some r.source) ++ "] " ++ counted r.tally

def findingStem (f : Finding) : String :=
  let target := match f.resource? with
    | some res => shown res.kind ++ "/" ++ shown res.name
    | none => "-"
  "  [" ++ (orDash (some f.priority.label)).toUpper ++ "] " ++ orDash f.status ++ " " ++
    shown f.policy ++ "/" ++ orDash f.rule ++ " :: " ++ target ++ " :: " ++ f.message.getD "" ++
    " (" ++ f.identity ++ ")"

def findingLine (f : Finding) : Except TimeError String :=
  match f.timestamp with
  | none => .ok (findingStem f)
  | some t => do return findingStem f ++ " @ " ++ (← t.iso)

def findingLines : List Finding → Except TimeError (List String)
  | [] => .ok []
  | f :: fs => do
    let line ← findingLine f
    return line :: (← findingLines fs)

def lines : List Audit → Except TimeError (List String)
  | [] => .ok []
  | r :: rs => do
    let body ← findingLines r.findings
    return header r :: body ++ (← lines rs)

def toText (rs : List Audit) : Except TimeError String :=
  "\n".intercalate <$> lines rs

/-- The findings written up to the first whose line fails, that one included. -/
def reached (shows : ε → Bool) : List ε → List ε
  | [] => []
  | f :: fs => if shows f then f :: reached shows fs else [f]

def hasLine (f : Finding) : Bool := (findingLine f).isOk

end PolicyAudit.Report
