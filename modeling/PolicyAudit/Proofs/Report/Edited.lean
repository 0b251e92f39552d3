import PolicyAudit.Proofs.Hash.Windows
import PolicyAudit.Report.Basic

/-! Identities of findings and reports after an edit of one text.
A fingerprint is the hash of seven texts in turn, a report's identity that of two; a character that
takes the place of another one of the same size in bytes makes a different identity
(`Finding.fingerprint_rewrite_ne`, `Finding.decimal_ofTexts_set_ne`). -/

namespace PolicyAudit

theorem Hash.ofTexts_set_ne (parts : List (Option String)) {i : Nat} (hi : i < parts.length)
    (a b : String) {u v : String} (hne : u ≠ v) (hlength : u.utf8ByteSize = v.utf8ByteSize)
    (hshort : u.utf8ByteSize ≤ 4) :
    ofTexts (parts.set i (some (a ++ u ++ b))) ≠ ofTexts (parts.set i (some (a ++ v ++ b))) := by
  obtain ⟨left, hleft⟩ : ∃ s, s = String.join ((parts.take i).map (·.getD "")) := ⟨_, rfl⟩
  obtain ⟨right, hright⟩ : ∃ s, s = String.join ((parts.drop (i + 1)).map (·.getD "")) := ⟨_, rfl⟩
  have hsplit : ∀ s, ofTexts (parts.set i (some (a ++ s ++ b))) =
      addText offsetBasis (left ++ a ++ s ++ (b ++ right)) := by
    intro s
    rw [ofTexts, addTexts_eq_addText, List.set_eq_take_append_cons_drop, if_pos hi, List.map_append,
      List.map_cons, String.join_append, String.join_cons, Option.getD_some, ← hleft, ← hright]
    simp only [String.append_assoc]
  rw [hsplit, hsplit]
  exact addText_ne_of_short _ _ _ hne hlength hshort

namespace Finding

theorem intDigits_injective : Function.Injective intDigits := by
  have hminus : ∀ n m : Nat, '-' :: Nat.toDigits 10 n ≠ Nat.toDigits 10 m := by
    intro n m h
    have hdigit := Nat.isDigit_of_mem_toDigits (b := 10) (n := m) (c := '-') (by decide) (by decide)
      (h ▸ List.mem_cons_self)
    exact absurd hdigit (by decide)
  have hdigits : ∀ n m : Nat, Nat.toDigits 10 n = Nat.toDigits 10 m → n = m := by
    intro n m h
    rw [← Nat.ofDigitChars_ten_toDigits (n := n), h, Nat.ofDigitChars_ten_toDigits]
  intro n m h
  unfold intDigits at h
  split at h <;> split at h
  · have := hdigits _ _ (List.cons.inj h).2
    omega
  · exact absurd h (hminus _ _)
  · exact absurd h.symm (hminus _ _)
  · have := hdigits _ _ h
    omega

theorem decimal_injective : Function.Injective decimal :=
  fun _ _ h => intDigits_injective (String.ofList_injective h)

theorem decimal_ofTexts_set_ne (parts : List (Option String)) {i : Nat} (hi : i < parts.length)
    (a b : String) {u v : String} (hne : u ≠ v) (hlength : u.utf8ByteSize = v.utf8ByteSize)
    (hshort : u.utf8ByteSize ≤ 4) :
    decimal (Hash.ofTexts (parts.set i (some (a ++ u ++ b)))) ≠
      decimal (Hash.ofTexts (parts.set i (some (a ++ v ++ b)))) :=
  fun he => Hash.ofTexts_set_ne parts hi a b hne hlength hshort (decimal_injective he)

inductive Part
  | resourceName | resourceUid | policy | rule | status | category | message
  deriving DecidableEq, Repr

def Part.index : Part → Nat
  | .resourceName => 0
  | .resourceUid => 1
  | .policy => 2
  | .rule => 3
  | .status => 4
  | .category => 5
  | .message => 6

def part? (f : Finding) : Part → Option String
  | .resourceName => f.resource?.bind (·.name)
  | .resourceUid => f.resource?.bind (·.uid)
  | .policy => f.policy
  | .rule => f.rule
  | .status => f.status
  | .category => f.category
  | .message => f.message

/-- Puts a text in the place of a part; the parts of a resource are those of the primary one. -/
def rewrite (f : Finding) (p : Part) (s : String) : Finding :=
  match p with
  | .resourceName =>
    { f with resources := f.resources.modifyHead fun r => { r with name := some s } }
  | .resourceUid =>
    { f with resources := f.resources.modifyHead fun r => { r with uid := some s } }
  | .policy => { f with policy := some s }
  | .rule => { f with rule := some s }
  | .status => { f with status := some s }
  | .category => { f with category := some s }
  | .message => { f with message := some s }

theorem Part.index_lt (p : Part) : p.index < 7 := by
  cases p <;> decide

theorem content_set_part? (f : Finding) (p : Part) :
    f.content.set p.index (f.part? p) = f.content := by
  cases p <;> rfl

theorem content_rewrite {f : Finding} {p : Part} (h : (f.part? p).isSome) (s : String) :
    (f.rewrite p s).content = f.content.set p.index (some s) := by
  cases p with
  | resourceName | resourceUid =>
    simp only [part?, resource?] at h
    cases hr : f.resources with
    | nil => simp [hr] at h
    | cons r rs => simp [content, rewrite, resource?, hr, Part.index]
  | _ => rfl

theorem fingerprint_rewrite_ne {f : Finding} {p : Part} {a b u v : String}
    (h : f.part? p = some (a ++ u ++ b)) (hne : u ≠ v) (hlength : u.utf8ByteSize = v.utf8ByteSize)
    (hshort : u.utf8ByteSize ≤ 4) : (f.rewrite p (a ++ v ++ b)).fingerprint ≠ f.fingerprint := by
  have hcontent : f.content = f.content.set p.index (some (a ++ u ++ b)) := by
    rw [← h, content_set_part?]
  rw [fingerprint, fingerprint, content_rewrite (by rw [h]; rfl), hcontent, List.set_set]
  exact (decimal_ofTexts_set_ne _ p.index_lt a b hne hlength hshort).symm

end Finding

/-- Every text permutes the words. What was a text of one to four bytes and becomes another one of the
same size leads to another running value, whatever stands around it; so a character that takes the
place of another one of its size, in any part of a finding or in the name or namespace of a report,
makes another fingerprint or another identity. -/
theorem short_edits_never_collide :
    (∀ s, Set.BijOn (Hash.addText · s) { h | 0 ≤ h ∧ h < 2 ^ 64 } { h | 0 ≤ h ∧ h < 2 ^ 64 }) ∧
    (∀ (h : Int) (p u v q : String), u ≠ v → u.utf8ByteSize = v.utf8ByteSize →
      1 ≤ u.utf8ByteSize → u.utf8ByteSize ≤ 4 →
      Hash.addText h (p ++ u ++ q) ≠ Hash.addText h (p ++ v ++ q)) ∧
    (∀ (f : Finding) (part : Finding.Part) (a b : String) (c d : Char), c ≠ d →
      c.utf8Size = d.utf8Size → f.part? part = some (a ++ String.singleton c ++ b) →
      (f.rewrite part (a ++ String.singleton d ++ b)).fingerprint ≠ f.fingerprint) ∧
    ∀ (name ns : Option String) (a b : String) (c d : Char), c ≠ d → c.utf8Size = d.utf8Size →
      reportId (some (a ++ String.singleton c ++ b)) ns ≠
        reportId (some (a ++ String.singleton d ++ b)) ns ∧
      reportId name (some (a ++ String.singleton c ++ b)) ≠
        reportId name (some (a ++ String.singleton d ++ b)) := by
  have hsize : ∀ {c d : Char}, c.utf8Size = d.utf8Size →
      (String.singleton c).utf8ByteSize = (String.singleton d).utf8ByteSize := fun h => by
    rw [String.utf8ByteSize_singleton, String.utf8ByteSize_singleton, h]
  have hsingle : ∀ {c d : Char}, c ≠ d → String.singleton c ≠ String.singleton d :=
    fun hne he => hne (String.singleton_inj.1 he)
  have hshort : ∀ c : Char, (String.singleton c).utf8ByteSize ≤ 4 := fun c => by
    rw [String.utf8ByteSize_singleton]
    exact c.utf8Size_le_four
  refine ⟨Hash.addText_bijOn, fun h p u v q hne hlength _ => Hash.addText_ne_of_short h p q hne hlength,
    fun f part a b c d hne hlength h => ?_, fun name ns a b c d hne hlength => ⟨?_, ?_⟩⟩
  · exact Finding.fingerprint_rewrite_ne h (hsingle hne) (hsize hlength) (hshort c)
  · exact Finding.decimal_ofTexts_set_ne [none, ns] (i := 0) (by simp) a b (hsingle hne) (hsize hlength)
      (hshort c)
  · exact Finding.decimal_ofTexts_set_ne [name, none] (i := 1) (by simp) a b (hsingle hne)
      (hsize hlength) (hshort c)

theorem short_edits_never_collide_accent :
    let f : Finding := { policy := some "p", message := some "naïve" }
    'ï' ≠ 'î' ∧ 'ï'.utf8Size = 'î'.utf8Size ∧
    f.part? .message = some ("na" ++ String.singleton 'ï' ++ "ve") ∧
    (f.rewrite .message ("na" ++ String.singleton 'î' ++ "ve")).fingerprint ≠ f.fingerprint ∧
    "😀" ≠ "abcd" ∧ "😀".utf8ByteSize = "abcd".utf8ByteSize ∧
    Hash.addText (-1) ("x" ++ "😀" ++ "y") ≠ Hash.addText (-1) ("x" ++ "abcd" ++ "y") := by
  intro f
  have hne : 'ï' ≠ 'î' := by decide
  have hsize : 'ï'.utf8Size = 'î'.utf8Size := by decide
  have hmessage : f.part? .message = some ("na" ++ String.singleton 'ï' ++ "ve") := by decide
  have hwindow : "😀" ≠ "abcd" := by decide
  have hlength : "😀".utf8ByteSize = "abcd".utf8ByteSize := by decide
  obtain ⟨-, htexts, hparts, -⟩ := short_edits_never_collide
  exact ⟨hne, hsize, hmessage, hparts f .message "na" "ve" 'ï' 'î' hne hsize hmessage, hwindow,
    hlength, htexts (-1) "x" "😀" "abcd" "y" hwindow hlength (by decide) (by decide)⟩

end PolicyAudit
