import Mathlib.Data.Int.Bitwise
import PolicyAudit.Proofs.Hash.Windows

/-! The hash on whole numbers.
Bytes may be fed to a number of any size and sign in two's complement: reduced after every byte, or
once after the last one, the outcome is that of the words (`feed_eq_fnv1a`, `feed_eq_emod`). The
bytes of a text are those of its UTF-8 form, so parts fed in turn are the bytes of the text they
make up (`addTexts_eq_fnv1a`). -/

namespace PolicyAudit.Hash

/-- A byte enters at the low end of a number in two's complement, and the product grows freely. -/
def spread (h : Int) (b : UInt8) : Int := Int.xor h b.toNat * 1099511628211

/-- 64-bit FNV-1a: the number is reduced after every byte. -/
def fnv1a (h : Int) (bs : List UInt8) : Int := bs.foldl (fun h b => spread h b % 2 ^ 64) h

theorem toNat_ofInt_eq_emod (h : Int) : ((UInt64.ofInt h).toNat : Int) = h % 2 ^ 64 := by
  have hnonneg : 0 ≤ h % 2 ^ 64 := Int.emod_nonneg _ (by decide)
  have hlt : h % 2 ^ 64 < 2 ^ 64 := Int.emod_lt_of_pos _ (by decide)
  rw [UInt64.ofInt, UInt64.toNat_ofNat_of_lt' (by simp [UInt64.size]; omega),
    Int.toNat_of_nonneg hnonneg]

theorem ofInt_eq_iff {h h' : Int} : UInt64.ofInt h = UInt64.ofInt h' ↔ h ≡ h' [ZMOD 2 ^ 64] := by
  rw [← UInt64.toNat_inj, ← Int.ofNat_inj, toNat_ofInt_eq_emod, toNat_ofInt_eq_emod]
  rfl

theorem ofInt_natCast (n : Nat) : UInt64.ofInt n = UInt64.ofNat n := by
  rw [← UInt64.toNat_inj, ← Int.ofNat_inj, toNat_ofInt_eq_emod, UInt64.toNat_ofNat']
  rfl

theorem ofInt_negSucc (n : Nat) : UInt64.ofInt (Int.negSucc n) = ~~~ UInt64.ofNat n := by
  have hn : n % 2 ^ 64 < 2 ^ 64 := Nat.mod_lt _ (by decide)
  rw [← UInt64.toNat_inj, ← Int.ofNat_inj, toNat_ofInt_eq_emod, Int.negSucc_emod _ (by decide),
    UInt64.toNat_not, UInt64.toNat_ofNat']
  simp only [UInt64.size]
  omega

theorem ofInt_xor_byte (h : Int) (b : UInt8) :
    UInt64.ofInt (Int.xor h b.toNat) = UInt64.ofInt h ^^^ b.toUInt64 := by
  have hb : UInt64.ofNat b.toNat = b.toUInt64 := UInt64.toNat_inj.1 (by simp)
  cases h with
  | ofNat n =>
    show UInt64.ofInt ((n ^^^ b.toNat : Nat) : Int) = UInt64.ofInt (n : Int) ^^^ b.toUInt64
    rw [ofInt_natCast, ofInt_natCast, UInt64.ofNat_xor, hb]
  | negSucc n =>
    show UInt64.ofInt (Int.negSucc (n ^^^ b.toNat)) = _
    rw [ofInt_negSucc, ofInt_negSucc, UInt64.ofNat_xor, hb, UInt64.not_xor]

theorem ofInt_spread (h : Int) (b : UInt8) :
    UInt64.ofInt (spread h b) = absorb (UInt64.ofInt h) b := by
  rw [spread, UInt64.ofInt_mul, ofInt_xor_byte]
  rfl

theorem ofInt_foldl_spread (h : Int) (bs : List UInt8) :
    UInt64.ofInt (bs.foldl spread h) = absorbAll (UInt64.ofInt h) bs := by
  induction bs generalizing h with
  | nil => rfl
  | cons b bs ih => exact (ih (spread h b)).trans (congrArg (absorbAll · bs) (ofInt_spread h b))

theorem feed_eq_emod (h : Int) {bs : List UInt8} (hbs : bs ≠ []) :
    feed h bs = bs.foldl spread h % 2 ^ 64 := by
  rw [feed_of_ne_nil h hbs, ← ofInt_foldl_spread, toNat_ofInt_eq_emod]

theorem feed_eq_fnv1a (h : Int) (bs : List UInt8) : feed h bs = fnv1a h bs := by
  induction bs generalizing h with
  | nil => rfl
  | cons b bs ih =>
    have hfirst : feed h [b] = spread h b % 2 ^ 64 := feed_eq_emod h (List.cons_ne_nil b [])
    have hsplit : feed h (b :: bs) = feed (feed h [b]) bs := feed_append h [b] bs
    rw [hsplit, hfirst, ih]
    rfl

theorem feed_congr {h h' : Int} (hh : h ≡ h' [ZMOD 2 ^ 64]) {bs : List UInt8} (hbs : bs ≠ []) :
    feed h bs = feed h' bs := by
  rw [feed_of_ne_nil h hbs, feed_of_ne_nil h' hbs, ofInt_eq_iff.2 hh]

theorem feed_mem_words (h : Int) {bs : List UInt8} (hbs : bs ≠ []) : feed h bs ∈ words := by
  rw [feed_of_ne_nil h hbs]
  exact toNat_mem_words _

theorem utf8_eq_toUTF8 (s : String) : utf8 s = s.toUTF8.data.toList := by
  have hencoded : s.toList.utf8Encode = s.toUTF8 := String.utf8Encode_toList
  rw [← hencoded, List.utf8Encode, List.toList_data_toByteArray]
  rfl

def joined (parts : List (Option String)) : String := String.join (parts.map (·.getD ""))

theorem addTexts_eq_feed (h : Int) (parts : List (Option String)) :
    addTexts h parts = feed h (joined parts).toUTF8.data.toList := by
  rw [addTexts_eq_addText, addText, utf8_eq_toUTF8]
  rfl

theorem addTexts_eq_fnv1a (h : Int) (parts : List (Option String)) :
    addTexts h parts = fnv1a h (joined parts).toUTF8.data.toList := by
  rw [addTexts_eq_feed, feed_eq_fnv1a]

theorem ofTexts_mem_words (parts : List (Option String)) : ofTexts parts ∈ words := by
  have hbasis : offsetBasis ∈ words := ⟨by decide, by decide⟩
  rw [ofTexts, addTexts_eq_feed, feed_of_mem_words hbasis]
  exact toNat_mem_words _

end PolicyAudit.Hash
