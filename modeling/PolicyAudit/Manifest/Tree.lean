import PolicyAudit.Manifest.Location

/-! A tree of files, given by the places in it in any order.
Directories are there by themselves or by what lies in them. -/

namespace PolicyAudit

inductive Entry
  | file (content : ByteArray)
  /-- A file that cannot be read. -/
  | locked
  | directory
  deriving Inhabited

def Entry.isFile : Entry → Bool
  | directory => false
  | _ => true

abbrev Tree := List (List String × Entry)

namespace Tree

def isDir (t : Tree) (parts : List String) : Bool :=
  parts.isEmpty || t.any fun (place, e) =>
    parts.isPrefixOf place && (parts.length < place.length || !e.isFile)

def file? (t : Tree) (parts : List String) : Option Entry :=
  (t.lookup parts).filter Entry.isFile

def filesBelow (t : Tree) (parts : List String) : List (List String × Entry) :=
  let below := t.filterMap fun (place, e) =>
    if parts.isPrefixOf place ∧ e.isFile then some (place.drop parts.length, e) else none
  (below.filter fun (rest, _) => !rest.isEmpty).mergeSort fun a b => Location.before a.1 b.1

end Tree

end PolicyAudit
