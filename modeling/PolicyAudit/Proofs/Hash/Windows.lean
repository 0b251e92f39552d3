import Mathlib.Data.Int.ModEq
import Mathlib.Data.Nat.Bitwise
import Mathlib.Data.Set.Function
import Mathlib.RingTheory.Coprime.Lemmas
import PolicyAudit.Hash

/-! What the hash keeps apart.
A byte permutes the words, so a difference between running values is never lost
(`absorbAll_bijective`). Two windows of at most four bytes that differ lead from one word to two
(`absorbAll_ne_of_short`): the difference of the running words is a combination of powers of the
prime with small coefficients, and such a combination is no multiple of `2 ^ 64`
(`not_dvd_combination`). -/

namespace PolicyAudit.Hash

def inversePrime : UInt64 := 14886173955864302971

theorem prime_mul_inversePrime : prime * inversePrime = 1 := by decide

def expel (h : UInt64) (b : UInt8) : UInt64 := (h * inversePrime) ^^^ b.toUInt64

theorem expel_absorb (h : UInt64) (b : UInt8) : expel (absorb h b) b = h := by
  rw [expel, absorb, UInt64.mul_assoc, prime_mul_inversePrime, UInt64.mul_one, UInt64.xor_assoc,
    UInt64.xor_self, UInt64.xor_zero]

theorem absorb_expel (h : UInt64) (b : UInt8) : absorb (expel h b) b = h := by
  rw [expel, absorb, UInt64.xor_assoc, UInt64.xor_self, UInt64.xor_zero, UInt64.mul_assoc,
    UInt64.mul_comm inversePrime, prime_mul_inversePrime, UInt64.mul_one]

theorem absorb_bijective (b : UInt8) : Function.Bijective (absorb · b) :=
  Function.bijective_iff_has_inverse.2
    ⟨(expel · b), fun h => expel_absorb h b, fun h => absorb_expel h b⟩

theorem absorbAll_bijective (bs : List UInt8) : Function.Bijective (absorbAll · bs) := by
  induction bs with
  | nil => exact Function.bijective_id
  | cons b bs ih => exact ih.comp (absorb_bijective b)

/-! ### The difference of two running words -/

def gap (v w : UInt64) : Int := (v.toNat : Int) - w.toNat

@[simp] theorem gap_self (w : UInt64) : gap w w = 0 := Int.sub_self _

theorem toNat_xor_byte (w : UInt64) (b : UInt8) :
    (w ^^^ b.toUInt64).toNat = 256 * (w.toNat / 256) + (w.toNat % 256 ^^^ b.toNat) := by
  have hb : b.toNat < 2 ^ 8 := b.toNat_lt
  have hhigh : (w.toNat ^^^ b.toNat) / 2 ^ 8 = w.toNat / 2 ^ 8 := by
    rw [Nat.xor_div_two_pow, Nat.div_eq_of_lt hb, Nat.xor_zero]
  have hlow : (w.toNat ^^^ b.toNat) % 2 ^ 8 = w.toNat % 2 ^ 8 ^^^ b.toNat := by
    rw [Nat.xor_mod_two_pow, Nat.mod_eq_of_lt hb]
  rw [UInt64.toNat_xor, UInt8.toNat_toUInt64]
  calc w.toNat ^^^ b.toNat
      = 2 ^ 8 * ((w.toNat ^^^ b.toNat) / 2 ^ 8) + (w.toNat ^^^ b.toNat) % 2 ^ 8 :=
        (Nat.div_add_mod _ _).symm
    _ = 256 * (w.toNat / 256) + (w.toNat % 256 ^^^ b.toNat) := by rw [hhigh, hlow]; rfl

theorem xor_byte_lt (w : UInt64) (b : UInt8) : w.toNat % 256 ^^^ b.toNat < 256 :=
  Nat.xor_lt_two_pow (n := 8) (Nat.mod_lt _ (by decide)) b.toNat_lt

theorem gap_xor_byte (v w : UInt64) (b c : UInt8) :
    ∃ e : Int, -510 ≤ e ∧ e ≤ 510 ∧ gap (v ^^^ b.toUInt64) (w ^^^ c.toUInt64) = gap v w + e := by
  have hv := xor_byte_lt v b
  have hw := xor_byte_lt w c
  refine ⟨gap (v ^^^ b.toUInt64) (w ^^^ c.toUInt64) - gap v w, ?_, ?_, by omega⟩ <;>
  · simp only [gap, toNat_xor_byte]
    omega

theorem gap_xor_byte_self (w : UInt64) {b c : UInt8} (h : b ≠ c) :
    gap (w ^^^ b.toUInt64) (w ^^^ c.toUInt64) ≠ 0 ∧
    -255 ≤ gap (w ^^^ b.toUInt64) (w ^^^ c.toUInt64) ∧
    gap (w ^^^ b.toUInt64) (w ^^^ c.toUInt64) ≤ 255 := by
  have hb := xor_byte_lt w b
  have hc := xor_byte_lt w c
  have hne : w.toNat % 256 ^^^ b.toNat ≠ w.toNat % 256 ^^^ c.toNat :=
    fun he => h (UInt8.toNat_inj.1 (Nat.xor_right_injective he))
  simp only [gap, toNat_xor_byte]
  omega

theorem gap_mul_prime (v w : UInt64) :
    gap (v * prime) (w * prime) ≡ gap v w * prime.toNat [ZMOD 2 ^ 64] := by
  have hmod : ∀ u : UInt64, ((u * prime).toNat : Int) ≡ u.toNat * prime.toNat [ZMOD 2 ^ 64] := by
    intro u
    rw [UInt64.toNat_mul]
    push_cast
    exact Int.mod_modEq _ _
  rw [gap, gap, Int.sub_mul]
  exact (hmod v).sub (hmod w)

/-- What a difference becomes as small numbers are added to it in turn, each sum being multiplied by
the prime. -/
def combine (g : Int) (es : List Int) : Int := es.foldl (fun g e => (g + e) * prime.toNat) g

theorem gap_absorb {v w : UInt64} {g : Int} (h : gap v w ≡ g [ZMOD 2 ^ 64]) (b c : UInt8) :
    ∃ e : Int, (-510 ≤ e ∧ e ≤ 510) ∧
      gap (absorb v b) (absorb w c) ≡ (g + e) * prime.toNat [ZMOD 2 ^ 64] := by
  obtain ⟨e, hlow, hhigh, he⟩ := gap_xor_byte v w b c
  refine ⟨e, ⟨hlow, hhigh⟩, ?_⟩
  have hmul := gap_mul_prime (v ^^^ b.toUInt64) (w ^^^ c.toUInt64)
  rw [he] at hmul
  exact hmul.trans ((h.add_right e).mul_right _)

theorem gap_absorbAll {v w : UInt64} {g : Int} (h : gap v w ≡ g [ZMOD 2 ^ 64]) {xs ys : List UInt8}
    (hlength : xs.length = ys.length) :
    ∃ es : List Int, es.length = xs.length ∧ (∀ e ∈ es, -510 ≤ e ∧ e ≤ 510) ∧
      gap (absorbAll v xs) (absorbAll w ys) ≡ combine g es [ZMOD 2 ^ 64] := by
  induction xs generalizing v w g ys with
  | nil =>
    obtain rfl := List.length_eq_zero_iff.1 hlength.symm
    exact ⟨[], rfl, by simp, h⟩
  | cons x xs ih =>
    cases ys with
    | nil => cases hlength
    | cons y ys =>
      obtain ⟨e, he, hg⟩ := gap_absorb h x y
      obtain ⟨es, hes, hsmall, hgap⟩ := ih hg (Nat.succ.inj hlength)
      exact ⟨e :: es, congrArg Nat.succ hes, List.forall_mem_cons.2 ⟨he, hsmall⟩, hgap⟩

/-- The prime is `2 ^ 40 + 435`, so modulo `2 ^ 64` the combination is `low + 2 ^ 40 * high` for two
numbers well below `2 ^ 40`; both have to vanish, and then so has `a`. -/
theorem not_dvd_combination {a b c d : Int} (ha : a ≠ 0) (ha' : -255 ≤ a ∧ a ≤ 255)
    (hb : -510 ≤ b ∧ b ≤ 510) (hc : -510 ≤ c ∧ c ≤ 510) (hd : -510 ≤ d ∧ d ≤ 510) :
    ¬ (2 ^ 64 : Int) ∣ ((a * prime.toNat + b) * prime.toNat + c) * prime.toNat + d := by
  rintro ⟨k, hk⟩
  have hprime : (prime.toNat : Int) = 2 ^ 40 + 435 := rfl
  rw [hprime] at hk
  obtain ⟨low, hlow⟩ : ∃ low, low = 82312875 * a + 189225 * b + 435 * c + d := ⟨_, rfl⟩
  obtain ⟨high, hhigh⟩ : ∃ high, high = 567675 * a + 870 * b + c := ⟨_, rfl⟩
  have hsum : ∃ j : Int, low + 2 ^ 40 * high = 2 ^ 64 * j :=
    ⟨k - (2 ^ 56 * a + 1305 * 2 ^ 16 * a + 2 ^ 16 * b), by omega⟩
  obtain ⟨j, hj⟩ := hsum
  have hlow_zero : low = 0 := by omega
  have ha_one : -1 ≤ a ∧ a ≤ 1 := by omega
  have hhigh_zero : high = 0 := by omega
  omega

theorem not_dvd_of_mul_prime {g : Int} (h : (2 ^ 64 : Int) ∣ g * prime.toNat) : (2 ^ 64 : Int) ∣ g := by
  have hcoprime : IsCoprime (2 ^ 64 : Int) prime.toNat :=
    IsCoprime.pow_left (Int.isCoprime_iff_gcd_eq_one.2 (by decide))
  exact hcoprime.dvd_of_dvd_mul_right h

theorem absorbAll_ne_of_head (w : UInt64) {b c : UInt8} (h : b ≠ c) {xs ys : List UInt8}
    (hxs : xs.length = 3) (hys : ys.length = 3) : absorbAll w (b :: xs) ≠ absorbAll w (c :: ys) := by
  intro he
  obtain ⟨hne, hfirst⟩ := gap_xor_byte_self w h
  have hstart : gap (absorb w b) (absorb w c) ≡ _ [ZMOD 2 ^ 64] := gap_mul_prime _ _
  obtain ⟨es, hes, hsmall, hgap⟩ := gap_absorbAll hstart (hxs.trans hys.symm)
  have hzero : gap (absorbAll (absorb w b) xs) (absorbAll (absorb w c) ys) = 0 := by
    have he' : absorbAll (absorb w b) xs = absorbAll (absorb w c) ys := he
    rw [he', gap_self]
  rw [hzero] at hgap
  obtain ⟨e₂, e₃, e₄, rfl⟩ := List.length_eq_three.1 (hes.trans hxs)
  simp only [List.forall_mem_cons] at hsmall
  obtain ⟨he₂, he₃, he₄, -⟩ := hsmall
  exact not_dvd_combination hne hfirst he₂ he₃ he₄
    (not_dvd_of_mul_prime (Int.modEq_zero_iff_dvd.1 hgap.symm))

/-- Bytes that both windows begin with only move the start; the rest is filled up to four bytes,
since more bytes cannot undo a difference. -/
theorem absorbAll_ne_of_short (w : UInt64) {xs ys : List UInt8} (hlength : xs.length = ys.length)
    (hshort : xs.length ≤ 4) (hne : xs ≠ ys) : absorbAll w xs ≠ absorbAll w ys := by
  induction xs generalizing w ys with
  | nil =>
    rw [List.length_nil] at hlength
    exact absurd (List.length_eq_zero_iff.1 hlength.symm).symm hne
  | cons x xs ih =>
    cases ys with
    | nil => cases hlength
    | cons y ys =>
      simp only [List.length_cons] at hlength hshort
      by_cases hxy : x = y
      · subst hxy
        exact ih (absorb w x) (by omega) (by omega) fun he => hne (by rw [he])
      · obtain ⟨fill, hfill⟩ : ∃ fill : List UInt8, fill.length = 3 - xs.length :=
          ⟨List.replicate (3 - xs.length) 0, List.length_replicate⟩
        have hxs : (xs ++ fill).length = 3 := by
          rw [List.length_append, hfill]
          omega
        have hys : (ys ++ fill).length = 3 := by
          rw [List.length_append, hfill]
          omega
        intro he
        refine absorbAll_ne_of_head w hxy hxs hys ?_
        rw [← List.cons_append, ← List.cons_append, absorbAll_append, absorbAll_append, he]

/-! ### Texts and running values -/

/-- The running values that are words. -/
def words : Set Int := { h | 0 ≤ h ∧ h < 2 ^ 64 }

theorem toNat_mem_words (w : UInt64) : (w.toNat : Int) ∈ words :=
  ⟨Int.natCast_nonneg _, by exact_mod_cast w.toNat_lt⟩

theorem toNat_ofInt {h : Int} (hh : h ∈ words) : ((UInt64.ofInt h).toNat : Int) = h := by
  obtain ⟨hlow, hhigh⟩ := hh
  rw [UInt64.ofInt, Int.emod_eq_of_lt hlow hhigh]
  simp
  omega

theorem feed_of_mem_words {h : Int} (hh : h ∈ words) (bs : List UInt8) :
    feed h bs = (absorbAll (UInt64.ofInt h) bs).toNat := by
  cases bs with
  | nil => exact (toNat_ofInt hh).symm
  | cons b bs => rfl

theorem feed_bijOn (bs : List UInt8) : Set.BijOn (feed · bs) words words := by
  refine ⟨fun h hh => ?_, fun g hg h hh he => ?_, fun h hh => ?_⟩
  · show feed h bs ∈ words
    rw [feed_of_mem_words hh]
    exact toNat_mem_words _
  · have he' : feed g bs = feed h bs := he
    rw [feed_of_mem_words hg, feed_of_mem_words hh] at he'
    have hw := (absorbAll_bijective bs).injective (UInt64.toNat_inj.1 (Int.ofNat.inj he'))
    rw [← toNat_ofInt hg, ← toNat_ofInt hh, hw]
  · obtain ⟨w, hw⟩ := (absorbAll_bijective bs).surjective (UInt64.ofInt h)
    refine ⟨w.toNat, toNat_mem_words w, ?_⟩
    show feed w.toNat bs = h
    rw [feed_of_mem_words (toNat_mem_words w), ofInt_toNat]
    exact (congrArg (fun u : UInt64 => (u.toNat : Int)) hw).trans (toNat_ofInt hh)

theorem addText_bijOn (s : String) : Set.BijOn (addText · s) words words := feed_bijOn (utf8 s)

theorem feed_of_ne_nil (h : Int) {bs : List UInt8} (hbs : bs ≠ []) :
    feed h bs = (absorbAll (UInt64.ofInt h) bs).toNat := by
  cases bs with
  | nil => exact absurd rfl hbs
  | cons b bs => rfl

@[simp] theorem length_utf8 (s : String) : (utf8 s).length = s.utf8ByteSize := by
  have hsize := congrArg ByteArray.size (String.utf8Encode_toList (b := s))
  simpa [List.utf8Encode, utf8] using hsize

theorem utf8_injective {s t : String} (h : utf8 s = utf8 t) : s = t := by
  apply String.toByteArray_inj.1
  rw [← String.utf8Encode_toList, ← String.utf8Encode_toList]
  exact congrArg List.toByteArray h

theorem addText_ne_of_short (h : Int) (p q : String) {u v : String} (hne : u ≠ v)
    (hlength : u.utf8ByteSize = v.utf8ByteSize) (hshort : u.utf8ByteSize ≤ 4) :
    addText h (p ++ u ++ q) ≠ addText h (p ++ v ++ q) := by
  have hbytes : utf8 u ≠ utf8 v := fun he => hne (utf8_injective he)
  rw [← length_utf8, ← length_utf8] at hlength
  rw [← length_utf8] at hshort
  have hu : utf8 u ≠ [] := by
    intro hnil
    rw [hnil, List.length_nil] at hlength
    exact hbytes (hnil.trans (List.length_eq_zero_iff.1 hlength.symm).symm)
  have hv : utf8 v ≠ [] := by
    intro hnil
    rw [hnil, List.length_nil] at hlength
    exact hu (List.length_eq_zero_iff.1 hlength)
  have hwords := absorbAll_ne_of_short (UInt64.ofInt (addText h p)) hlength hshort hbytes
  simp only [addText, utf8_append, feed_append]
  rw [feed_of_ne_nil _ hu, feed_of_ne_nil _ hv]
  intro he
  have hsame := (feed_bijOn (utf8 q)).injOn (toNat_mem_words _) (toNat_mem_words _) he
  exact hwords (UInt64.toNat_inj.1 (Int.ofNat.inj hsame))

end PolicyAudit.Hash
