/-! The 64-bit FNV-1a hash, fed one text after another.
A running value may be any integer: the first byte reduces it to a word, and texts without
bytes leave it as it is. Feeding texts in turn is feeding their concatenation
(`feed_append`), so field boundaries leave no trace. -/

namespace PolicyAudit.Hash

def offsetBasis : Int := 14695981039346656037

def prime : UInt64 := 1099511628211

def utf8 (s : String) : List UInt8 := s.toList.flatMap String.utf8EncodeChar

def absorb (h : UInt64) (b : UInt8) : UInt64 := (h ^^^ b.toUInt64) * prime

def absorbAll (h : UInt64) (bs : List UInt8) : UInt64 := bs.foldl absorb h

/-- Bytes reduce the running value to a word first; no bytes leave it untouched. -/
def feed (h : Int) : List UInt8 → Int
  | [] => h
  | b :: bs => (absorbAll (UInt64.ofInt h) (b :: bs)).toNat

def addText (h : Int) (s : String) : Int := feed h (utf8 s)

/-- An absent part feeds nothing. -/
def addTexts (h : Int) (parts : List (Option String)) : Int :=
  parts.foldl (fun h part => addText h (part.getD "")) h

def ofTexts (parts : List (Option String)) : Int := addTexts offsetBasis parts

@[simp] theorem utf8_append (s t : String) : utf8 (s ++ t) = utf8 s ++ utf8 t := by
  simp [utf8]

@[simp] theorem absorbAll_append (h : UInt64) (xs ys : List UInt8) :
    absorbAll h (xs ++ ys) = absorbAll (absorbAll h xs) ys :=
  List.foldl_append

@[simp] theorem feed_nil (h : Int) : feed h [] = h := rfl

theorem ofInt_toNat (w : UInt64) : UInt64.ofInt (w.toNat : Int) = w := by
  have := w.toNat_lt
  rw [UInt64.ofInt, Int.emod_eq_of_lt (by omega) (by omega)]
  simp

theorem feed_append (h : Int) (xs ys : List UInt8) : feed h (xs ++ ys) = feed (feed h xs) ys := by
  cases xs with
  | nil => rfl
  | cons x xs =>
    cases ys with
    | nil => simp
    | cons y ys =>
      rw [List.cons_append, feed, ← List.cons_append, absorbAll_append]
      simp only [feed, ofInt_toNat]

theorem addText_append (h : Int) (s t : String) : addText h (s ++ t) = addText (addText h s) t := by
  rw [addText, utf8_append, feed_append]
  rfl

theorem addTexts_eq_addText (h : Int) (parts : List (Option String)) :
    addTexts h parts = addText h (String.join (parts.map (·.getD ""))) := by
  induction parts generalizing h with
  | nil => rfl
  | cons part parts ih =>
    rw [List.map_cons, String.join_cons, addText_append, ← ih]
    rfl

end PolicyAudit.Hash
