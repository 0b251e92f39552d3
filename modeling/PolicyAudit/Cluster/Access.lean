import PolicyAudit.Report.Basic

/-! Access to a cluster: how a run finds it, what it asks for and what it is told.
A cluster is looked for from within and then by a configuration file. One sort of objects is asked
for at a time, page by page. -/

namespace PolicyAudit

inductive Access
  | inCluster | configFile
  deriving DecidableEq, Repr

def Access.name : Access → String
  | inCluster => "incluster"
  | configFile => "kubeconfig"

def Access.seek (grants : Access → Bool) : List Access × Bool :=
  if grants .inCluster then ([.inCluster], true)
  else ([.inCluster, .configFile], grants .configFile)

def Variant.plural : Variant → String
  | .namespaced => "policyreports"
  | .clusterWide => "clusterpolicyreports"

namespace Cluster

def group : String := "wgpolicyk8s.io"

def version : String := "v1alpha2"

def pageSize : Nat := 200

structure Call where
  variant : Variant
  /-- Where the page continues; null for the first one. -/
  continuation : Value

inductive Reply
  | answer (body : Value)
  | refusal (status : Int) (reason : Option String)
  deriving Inhabited

inductive Failure
  | refused (status : Int) (reason : Option String)
  /-- Something without fields was asked for one. -/
  | noFields
  /-- Something that is no collection stands for the objects of a page. -/
  | noItems
  | compoundKind
  deriving DecidableEq, Repr

def Failure.message : Failure → String
  | refused status reason =>
    "(" ++ String.ofList (intDigits status) ++ ")\nReason: " ++ reason.getD "None" ++ "\n"
  | _ => ""

end Cluster

end PolicyAudit
