import PolicyAudit.Report.Filter
import PolicyAudit.Report.Json
import PolicyAudit.Report.Text
import PolicyAudit.Session.Finding

/-! Sessions on a stack of report lists that share their findings and metadata.
Filtering puts a list of narrowed reports on the stack. A report has its own list of findings, but
findings and metadata live in a store and reports refer to them: an edit of a finding shows
wherever it is listed, an append or removal shows in one report only. -/

namespace PolicyAudit

structure Store where
  finding : Nat → Finding
  metadata : Nat → Metadata
  nextFinding : Nat
  nextMetadata : Nat

abbrev Held := Report Nat Nat

namespace Store

def empty : Store := ⟨fun _ => default, fun _ => default, 0, 0⟩

def setFinding (s : Store) (i : Nat) (f : Finding) : Store :=
  { s with finding := fun j => if j = i then f else s.finding j }

def setMetadata (s : Store) (i : Nat) (m : Metadata) : Store :=
  { s with metadata := fun j => if j = i then m else s.metadata j }

def addFinding (s : Store) (f : Finding) : Store × Nat :=
  ({ s.setFinding s.nextFinding f with nextFinding := s.nextFinding + 1 }, s.nextFinding)

def addMetadata (s : Store) (m : Metadata) : Store × Nat :=
  ({ s.setMetadata s.nextMetadata m with nextMetadata := s.nextMetadata + 1 }, s.nextMetadata)

def addFindings (s : Store) : List Finding → Store × List Nat
  | [] => (s, [])
  | f :: fs =>
    let (s, i) := s.addFinding f
    let (s, is) := addFindings s fs
    (s, i :: is)

def addReport (s : Store) (r : Audit) : Store × Held :=
  let (s, m) := s.addMetadata r.metadata
  let (s, is) := s.addFindings r.findings
  (s, { r with metadata := m, findings := is })

def addReports (s : Store) : List Audit → Store × List Held
  | [] => (s, [])
  | r :: rs =>
    let (s, h) := s.addReport r
    let (s, hs) := addReports s rs
    (s, h :: hs)

def audit (s : Store) (r : Held) : Audit := r.mapBoth s.metadata s.finding

def settle (s : Store) (i : Nat) : Store := s.setFinding i (s.finding i).settle

def settleAll (s : Store) (is : List Nat) : Store := is.foldl settle s

def modifyFinding (s : Store) (i : Nat) (f : Finding → Finding) : Store :=
  s.setFinding i (f (s.finding i))

def modifyMetadata (s : Store) (i : Nat) (f : Metadata → Metadata) : Store :=
  s.setMetadata i (f (s.metadata i))

@[simp] theorem finding_setFinding_self (s : Store) (i : Nat) (f : Finding) :
    (s.setFinding i f).finding i = f := by
  simp [setFinding]

theorem finding_setFinding_ne (s : Store) {i j : Nat} (f : Finding) (h : j ≠ i) :
    (s.setFinding i f).finding j = s.finding j := by
  simp [setFinding, h]

end Store

structure Session where
  store : Store
  current : List Held
  below : List (List Held)

namespace Session

def start (rs : List Audit) : Session :=
  let (store, current) := Store.empty.addReports rs
  ⟨store, current, []⟩

inductive Edit
  | assign (field : Finding.TextField) (s : Option String)
  | prioritise (p : Priority)
  | setProperty (k v : String)

def Edit.apply (e : Edit) (f : Finding) : Finding :=
  match e with
  | .assign field s => f.assign field s
  | .prioritise p => { f with priority := p }
  | .setProperty k v => { f with properties := f.properties.set k v }

inductive Step
  | filter (c : Criteria)
  | unfilter
  | json
  | text
  | view (report : Int)
  | identity (report finding : Int)
  | append (report : Int) (doc : Value)
  | remove (report finding : Int)
  | edit (report finding : Int) (e : Edit)
  | assignMetadata (report : Int) (field : Metadata.TextField) (s : Option String)

inductive Answer
  /-- Names and numbers of findings of the current list. -/
  | sizes (reports : List (Option String × Nat))
  | text (s : String)
  | view (r : Audit)
  | edited (size : Nat) (tally : Tally Nat)

inductive Failure
  | noSuchPosition
  | invalid (issues : List Issue)
  | time (e : TimeError)
  deriving DecidableEq, Repr

abbrev Outcome := Session × Except Failure Answer

def sizes (s : Session) : Answer :=
  .sizes (s.current.map fun r => ((s.store.metadata r.metadata).name, r.findings.length))

def audits (s : Session) : List Audit := s.current.map s.store.audit

def listed (s : Session) : List Nat := s.current.flatMap (·.findings)

def withReport (s : Session) (i : Int) (act : Nat → Held → Outcome) : Outcome :=
  match Position.resolve? i s.current.length with
  | none => (s, .error .noSuchPosition)
  | some j =>
    match s.current[j]? with
    | some r => act j r
    | none => (s, .error .noSuchPosition)

def withFinding (s : Session) (r : Held) (i : Int) (act : Nat → Nat → Outcome) : Outcome :=
  match Position.resolve? i r.findings.length with
  | none => (s, .error .noSuchPosition)
  | some j =>
    match r.findings[j]? with
    | some h => act j h
    | none => (s, .error .noSuchPosition)

def edited (s : Session) (r : Held) : Outcome :=
  let a := s.store.audit r
  (s, .ok (.edited a.findings.length a.tally))

def relist (s : Session) (j : Nat) (r : Held) (findings : List Nat) : Session × Held :=
  let r := { r with findings }
  ({ s with current := s.current.set j r }, r)

def step (s : Session) : Step → Outcome
  | .filter c =>
    let kept := Report.narrowAll (fun i => c.admits (s.store.finding i)) s.current
    let s := { s with current := kept, below := s.current :: s.below }
    (s, .ok s.sizes)
  | .unfilter =>
    let s := match s.below with
      | [] => s
      | under :: rest => { s with current := under, below := rest }
    (s, .ok s.sizes)
  | .json =>
    ({ s with store := s.store.settleAll s.listed }, .ok (.text (Report.toJson s.audits)))
  | .text =>
    let shows i := Report.hasLine (s.store.finding i)
    ({ s with store := s.store.settleAll (Report.reached shows s.listed) },
      match Report.toText s.audits with
      | .ok text => .ok (.text text)
      | .error e => .error (.time e))
  | .view i =>
    s.withReport i fun _ r =>
      ({ s with store := s.store.settleAll r.findings }, .ok (.view (s.store.audit r)))
  | .identity i k =>
    s.withReport i fun _ r => s.withFinding r k fun _ h =>
      ({ s with store := s.store.settle h }, .ok (.text (s.store.finding h).identity))
  | .append i doc =>
    s.withReport i fun j r =>
      match Finding.ofValue doc with
      | .accepted f =>
        let (store, h) := s.store.addFinding f
        let (s, r) := { s with store }.relist j r (r.findings ++ [h])
        s.edited r
      | .rejected is => (s, .error (.invalid is))
  | .remove i k =>
    s.withReport i fun j r => s.withFinding r k fun n _ =>
      let (s, r) := s.relist j r (r.findings.eraseIdx n)
      s.edited r
  | .edit i k e =>
    s.withReport i fun _ r => s.withFinding r k fun _ h =>
      edited { s with store := s.store.modifyFinding h e.apply } r
  | .assignMetadata i field text =>
    s.withReport i fun _ r =>
      edited { s with store := s.store.modifyMetadata r.metadata (·.assign field text) } r

def run (s : Session) : List Step → List (Except Failure Answer)
  | [] => []
  | st :: sts => (s.step st).2 :: run (s.step st).1 sts

end Session

end PolicyAudit
