/-! Log records: what a run reports beside its answer. -/

namespace PolicyAudit

inductive Level
  | debug | info | warning | error
  deriving DecidableEq, Repr, Inhabited

namespace Level

def all : List Level := [debug, info, warning, error]

def rank : Level → Nat
  | debug => 10
  | info => 20
  | warning => 30
  | error => 40

def name : Level → String
  | debug => "DEBUG"
  | info => "INFO"
  | warning => "WARNING"
  | error => "ERROR"

end Level

inductive Origin
  | cluster | manifests | command
  deriving DecidableEq, Repr, Inhabited

def Origin.name : Origin → String
  | cluster => "cluster"
  | manifests => "manifests"
  | command => "command"

structure Record where
  level : Level
  origin : Origin
  message : String
  deriving DecidableEq, Repr, Inhabited

def Record.from (level : Level) (rs : List Record) : List Record :=
  rs.filter fun r => level.rank ≤ r.level.rank

end PolicyAudit
