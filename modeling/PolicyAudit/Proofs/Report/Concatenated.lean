import PolicyAudit.Proofs.Hash.Integers
import PolicyAudit.Proofs.Json.Decoding
import PolicyAudit.Report.Basic

/-! Identities of findings and reports from their texts in one piece.
Where one text ends and the next begins is not part of an identity: it is the decimal numeral of the
hash of all the texts put together (`Finding.hashNumeral_fingerprint`, `hashNumeral_decimal`). -/

namespace PolicyAudit

/-- `s` writes `n` in decimal digits, without a sign and with no zero in front of other digits. -/
structure Numeral (s : String) (n : Nat) : Prop where
  digits : ∀ c ∈ s.toList, c.isDigit
  nonempty : s ≠ ""
  noLeadingZero : ∀ cs, s.toList = '0' :: cs → cs = []
  value : Nat.ofDigitChars 10 s.toList 0 = n

theorem numeral_decimal (n : Nat) : Numeral (Finding.decimal n) n := by
  have hlist : (Finding.decimal n).toList = Nat.toDigits 10 n := by
    rw [Finding.decimal, String.toList_ofList, intDigits, if_neg (by omega), Int.natAbs_natCast]
  refine ⟨?_, ?_, ?_, ?_⟩
  · rw [hlist]
    exact fun c hc => Nat.isDigit_of_mem_toDigits (by decide) (by decide) hc
  · intro hempty
    rw [hempty] at hlist
    exact Nat.toDigits_ne_nil hlist.symm
  · intro cs hcs
    rw [hlist] at hcs
    by_cases hn : n = 0
    · subst hn
      exact (List.cons.inj hcs).2.symm
    · exact absurd hcs (Json.toDigits_ne_zero_cons hn cs)
  · rw [hlist]
    exact Nat.ofDigitChars_ten_toDigits

theorem exists_numeral_of_mem_words {h : Int} (hh : h ∈ Hash.words) :
    ∃ n : Nat, n < 2 ^ 64 ∧ (n : Int) = h ∧ Numeral (Finding.decimal h) n := by
  obtain ⟨n, rfl⟩ := Int.eq_ofNat_of_zero_le hh.1
  exact ⟨n, by exact_mod_cast hh.2, rfl, numeral_decimal n⟩

def HashNumeral (s text : String) : Prop :=
  ∃ n : Nat, n < 2 ^ 64 ∧ (n : Int) = Hash.fnv1a Hash.offsetBasis text.toUTF8.data.toList ∧
    Numeral s n

theorem hashNumeral_decimal (parts : List (Option String)) :
    HashNumeral (Finding.decimal (Hash.ofTexts parts)) (Hash.joined parts) := by
  have hhash : Hash.ofTexts parts = _ := Hash.addTexts_eq_fnv1a Hash.offsetBasis parts
  obtain ⟨n, hlt, hn, hnumeral⟩ := exists_numeral_of_mem_words (Hash.ofTexts_mem_words parts)
  exact ⟨n, hlt, hn.trans hhash, hnumeral⟩

theorem ofTexts_congr {parts parts' : List (Option String)}
    (h : Hash.joined parts = Hash.joined parts') : Hash.ofTexts parts = Hash.ofTexts parts' := by
  rw [Hash.ofTexts, Hash.ofTexts, Hash.addTexts_eq_feed, Hash.addTexts_eq_feed, h]

namespace Finding

def contentText (f : Finding) : String :=
  (f.resource?.bind (·.name)).getD "" ++ (f.resource?.bind (·.uid)).getD "" ++ f.policy.getD "" ++
    f.rule.getD "" ++ f.status.getD "" ++ f.category.getD "" ++ f.message.getD ""

theorem joined_content (f : Finding) : Hash.joined f.content = f.contentText := by
  simp [Hash.joined, content, contentText, String.join_cons, String.append_assoc]

theorem hashNumeral_fingerprint (f : Finding) : HashNumeral f.fingerprint f.contentText := by
  rw [← joined_content]
  exact hashNumeral_decimal f.content

theorem fingerprint_congr {f g : Finding} (h : f.contentText = g.contentText) :
    f.fingerprint = g.fingerprint := by
  rw [← joined_content, ← joined_content] at h
  exact congrArg decimal (ofTexts_congr h)

theorem identity_of_not_asserted {f : Finding} (hsettled : f.settled = none)
    (hasserted : f.asserted? = none) : f.identity = f.fingerprint := by
  rw [identity, hsettled, hasserted]
  rfl

end Finding

theorem joined_pair (name ns : Option String) :
    Hash.joined [name, ns] = name.getD "" ++ ns.getD "" := by
  simp [Hash.joined, String.join_cons]

/-- Parts fed in turn are the bytes of their concatenation folded into the seed, which may be any
whole number; so it does not matter how a text is cut. No bytes leave the seed as it is; bytes lead
to a word, and reduce the seed first. The identity of a finding that asserts none is the numeral of
the hash of its seven texts in one piece, that of a report the numeral for name and namespace. -/
theorem parts_hash_as_one_text :
    (∀ (seed : Int) (parts : List (Option String)),
      let bytes := (Hash.joined parts).toUTF8.data.toList
      Hash.addTexts seed parts = Hash.fnv1a seed bytes ∧
      (bytes = [] → Hash.addTexts seed parts = seed) ∧
      (bytes ≠ [] → Hash.addTexts seed parts = bytes.foldl Hash.spread seed % 2 ^ 64 ∧
        0 ≤ Hash.addTexts seed parts ∧ Hash.addTexts seed parts < 2 ^ 64 ∧
        ∀ seed', seed' ≡ seed [ZMOD 2 ^ 64] →
          Hash.addTexts seed' parts = Hash.addTexts seed parts) ∧
      ∀ parts', Hash.joined parts' = Hash.joined parts →
        Hash.addTexts seed parts' = Hash.addTexts seed parts) ∧
    (∀ f : Finding, f.settled = none → f.asserted? = none →
      HashNumeral f.identity f.contentText ∧
      ∀ g : Finding, g.settled = none → g.asserted? = none → g.contentText = f.contentText →
        g.identity = f.identity) ∧
    ∀ name ns : Option String,
      HashNumeral (reportId name ns) (name.getD "" ++ ns.getD "") ∧
      ∀ name' ns' : Option String, name'.getD "" ++ ns'.getD "" = name.getD "" ++ ns.getD "" →
        reportId name' ns' = reportId name ns := by
  refine ⟨fun seed parts => ?_, fun f hsettled hasserted => ⟨?_, ?_⟩, fun name ns => ⟨?_, ?_⟩⟩
  · intro bytes
    have hfeed : ∀ seed, Hash.addTexts seed parts = Hash.feed seed bytes :=
      fun seed => Hash.addTexts_eq_feed seed parts
    refine ⟨Hash.addTexts_eq_fnv1a seed parts, fun hnone => ?_, fun hsome => ?_, fun parts' h => ?_⟩
    · rw [hfeed, hnone, Hash.feed_nil]
    · obtain ⟨hlow, hhigh⟩ := Hash.feed_mem_words seed hsome
      rw [hfeed]
      refine ⟨Hash.feed_eq_emod seed hsome, hlow, hhigh, fun seed' hseed => ?_⟩
      rw [hfeed]
      exact Hash.feed_congr hseed hsome
    · rw [hfeed, Hash.addTexts_eq_feed, h]
  · rw [f.identity_of_not_asserted hsettled hasserted]
    exact f.hashNumeral_fingerprint
  · intro g hgsettled hgasserted htext
    rw [Finding.identity_of_not_asserted hsettled hasserted,
      Finding.identity_of_not_asserted hgsettled hgasserted, Finding.fingerprint_congr htext]
  · rw [← joined_pair]
    exact hashNumeral_decimal [name, ns]
  · intro name' ns' h
    rw [← joined_pair, ← joined_pair] at h
    exact congrArg Finding.decimal (ofTexts_congr h)

/-- A negative seed and one far above a word, an absent part, and a letter that moves from one text
to the next. -/
theorem parts_hash_as_one_text_shifted :
    Hash.addTexts (-1) [some "fo", none, some "o"] = Hash.addTexts (2 ^ 70 - 1) [some "foo"] ∧
    (let f : Finding := { policy := some "p", rule := some "ab", category := some "c" }
      let g : Finding := { policy := some "p", rule := some "a", message := some "bc" }
      f.identity = g.identity) ∧
    reportId (some "ab") none = reportId (some "a") (some "b") := by
  obtain ⟨hparts, hfindings, hreports⟩ := parts_hash_as_one_text
  refine ⟨?_, ?_, (hreports (some "a") (some "b")).2 (some "ab") none rfl⟩
  · obtain ⟨-, -, hbytes, hcut⟩ := hparts (2 ^ 70 - 1) [some "foo"]
    obtain ⟨-, -, -, hseed⟩ := hbytes (by decide)
    rw [← hseed (-1) (by decide)]
    exact (hparts (-1) [some "foo"]).2.2.2 _ rfl
  · intro f g
    exact (hfindings g rfl rfl).2 f rfl rfl rfl

end PolicyAudit
