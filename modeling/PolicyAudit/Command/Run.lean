import PolicyAudit.Cluster.Listing
import PolicyAudit.Command.Settings
import PolicyAudit.Manifest.Load
import PolicyAudit.Report.Json
import PolicyAudit.Report.Text

/-! A run: reports are read, narrowed down and written.
Failures to read that a user can mend are told on the error output, with status 1 and nothing on
the output; others end the run. -/

namespace PolicyAudit.Command

structure Surroundings where
  files : Tree
  replies : Variant → List Cluster.Reply

inductive Failure
  | manifests (f : Manifest.Failure)
  | cluster (f : Cluster.Failure)
  | time (e : TimeError)
  deriving DecidableEq, Repr

namespace Failure

def message : Failure → String
  | manifests f => f.message
  | cluster f => f.message
  | time e => e.message

def isTold : Failure → Bool
  | manifests f => f.isReported
  | cluster (.refused ..) => true
  | _ => false

end Failure

structure Output where
  status : Nat
  out : String
  err : String
  deriving DecidableEq, Repr

structure Run (α : Type) where
  calls : List Cluster.Call
  log : List Record
  result : Except Failure α

def Settings.criteria (s : Settings) : Criteria := ⟨s.minimum, s.sources⟩

def Settings.path? (s : Settings) : Option String := s.manifests.filter (· ≠ "")

def Settings.chosen (s : Settings) (rs : List Audit) : List Audit :=
  if s.skipClusterWide then rs.filter (·.variant ≠ .clusterWide) else rs

def read (s : Settings) (w : Surroundings) : Run (List Audit) :=
  match s.path? with
  | some path =>
    let l := Manifest.load w.files path
    ⟨[], l.log, match l.result with
      | .ok rs => .ok (s.chosen rs)
      | .error f => .error (.manifests f)⟩
  | none =>
    let l := Cluster.listAll s.skipClusterWide w.replies
    ⟨l.calls, l.log, match l.result with
      | .ok rs => .ok rs
      | .error f => .error (.cluster f)⟩

def write (f : Format) (rs : List Audit) : Except Failure String :=
  match f with
  | .json => .ok (Report.toJson rs)
  | .text =>
    match Report.toText rs with
    | .ok text => .ok text
    | .error e => .error (.time e)

def counted (rs : List Audit) : Record :=
  ⟨.info, .command, "read " ++ toString rs.length ++ " reports"⟩

def finish (s : Settings) (got : Run (List Audit)) : Run Output :=
  match got.result with
  | .error f =>
    ⟨got.calls, got.log,
      if f.isTold then .ok ⟨1, "", "error: " ++ f.message ++ "\n"⟩ else .error f⟩
  | .ok rs =>
    let kept := Report.narrowAll s.criteria.admits rs
    ⟨got.calls, got.log ++ [counted kept],
      (write s.format kept).map fun text => ⟨0, text ++ "\n", ""⟩⟩

/-- The whole run; its log holds the records from the level asked for on. -/
def run (s : Settings) (w : Surroundings) : Run Output :=
  let r := finish s (read s w)
  { r with log := Record.from s.level r.log }

end PolicyAudit.Command
