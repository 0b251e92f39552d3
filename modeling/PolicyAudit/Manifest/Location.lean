/-! Paths as written on a command line.
A path is a root and the names below it; empty names and single points are left out when it is
read, double points are kept. -/

namespace PolicyAudit

structure Location where
  root : String := ""
  parts : List String
  deriving DecidableEq, Repr, Inhabited

namespace Location

/-- One or three and more leading slashes name the root, two a root of their own. -/
def rootOf : List Char → String
  | '/' :: '/' :: '/' :: _ => "/"
  | '/' :: '/' :: _ => "//"
  | '/' :: _ => "/"
  | _ => ""

def ofText (s : String) : Location :=
  let parts := (s.toList.splitOn '/').map String.ofList
  ⟨rootOf s.toList, parts.filter fun p => p ≠ "" ∧ p ≠ "."⟩

def text (l : Location) : String :=
  if l.parts.isEmpty then if l.root = "" then "." else l.root
  else l.root ++ "/".intercalate l.parts

def append (l : Location) (parts : List String) : Location := { l with parts := l.parts ++ parts }

/-- The names that lead from the working directory to the place meant, if it lies within. A
double point needs a directory to leave. -/
def walk? (isDir : List String → Bool) (here : List String) : List String → Option (List String)
  | [] => some here
  | p :: ps =>
    if !isDir here then none
    else if p = ".." then
      if here.isEmpty then none else walk? isDir here.dropLast ps
    else walk? isDir (here ++ [p]) ps

/-- The last ending of a name from its point on, in lower case. A name that starts or ends with
its last point has none. -/
def suffix (name : String) : String :=
  let ending := (name.toList.reverse.takeWhile (· ≠ '.')).reverse
  if ending.isEmpty ∨ name.length ≤ ending.length + 1 then ""
  else String.ofList ('.' :: ending.map Char.toLower)

/-- Order by the first name that differs, names by code points; a path comes after its prefixes. -/
def before : List String → List String → Bool
  | [], _ => true
  | _ :: _, [] => false
  | p :: ps, q :: qs => p < q || (p == q && before ps qs)

end Location

end PolicyAudit
