import PolicyAudit.Yaml.Directive

/-! Tokens: the indicators, names and scalars a text is made of.
Where block collections begin and end is shown by indentation alone; tokens say it. -/

namespace PolicyAudit.Yaml

inductive Bracket
  | square | curly
  deriving DecidableEq, Repr

inductive Token
  | directive (d : Directive)
  | documentStart
  | documentEnd
  | streamEnd
  | blockSequence
  | blockMapping
  | blockEnd
  | opening (b : Bracket)
  | closing (b : Bracket)
  | comma
  | entry
  | key
  | value
  | alias (name : String)
  | anchor (name : String)
  | tag (t : TagName)
  | scalar (text : String) (plain : Bool)
  /-- The text makes no sense from here on. -/
  | broken
  deriving DecidableEq, Repr

end PolicyAudit.Yaml
