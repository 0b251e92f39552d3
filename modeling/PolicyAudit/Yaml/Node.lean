import PolicyAudit.Yaml.Tag

/-! Nodes: documents as trees, with aliases and merges carried out.
Under the merge key a mapping names one mapping or a list of them, whose entries it has besides its
own; of mappings in a list the earlier ones win. -/

namespace PolicyAudit.Yaml

inductive Node
  | scalar (tag : Tag) (text : String)
  | sequence (tag : Tag) (items : List Node)
  | mapping (tag : Tag) (merged own : List (Node × Node))

namespace Node

def empty : Node := scalar .null ""

def isMergeKey : Node → Bool
  | scalar .merge _ => true
  | _ => false

def entries? : Node → Option (List (Node × Node))
  | mapping _ merged own => some (merged ++ own)
  | _ => none

def mergedEntries? : Node → Option (List (Node × Node))
  | mapping _ merged own => some (merged ++ own)
  | sequence _ items => do return (← items.reverse.mapM entries?).flatten
  | scalar .. => none

/-- The key of a default value is text like any other. -/
def asKey : Node → Node
  | scalar .value text => scalar .str text
  | n => n

/-- Draws the merge keys from a list of entries; a second one must not follow one that gave
entries. -/
def split? (merged : List (Node × Node)) :
    List (Node × Node) → Option (List (Node × Node) × List (Node × Node))
  | [] => some (merged, [])
  | (k, v) :: es =>
    if k.isMergeKey then
      if merged.isEmpty then do split? (← v.mergedEntries?) es else none
    else do
      let (merged, own) ← split? merged es
      return (merged, (k.asKey, v) :: own)

def ofEntries? (tag : Tag) (es : List (Node × Node)) : Option Node := do
  let (merged, own) ← split? [] es
  return mapping tag merged own

end Node

end PolicyAudit.Yaml
