import Mathlib.Data.List.TakeWhile
import PolicyAudit.Proofs.Calendar.Date
import PolicyAudit.Proofs.Calendar.Digits

/-! Moments written and read back.
Only moments that exist come out of texts and numbers (`valid_of_ofText?`, `valid_of_ofNumber?`),
and a moment that exists is read back from its texts exactly as it is (`ofText?_zulu`,
`ofText?_iso`). -/

namespace PolicyAudit.Moment

/-- A moment of the years 1 to 9999 whose offset, if any, is less than a day in whole minutes. -/
structure Valid (m : Moment) : Prop where
  date : m.date.Valid
  one_le_year : 1 ≤ m.date.year
  year_le : m.date.year ≤ 9999
  hour_lt : m.hour < 24
  minute_lt : m.minute < 60
  second_lt : m.second < 60
  micro_lt : m.micro < 1000000
  offset_lt : ∀ o ∈ m.offset, o.natAbs < 86400
  offset_minutes : ∀ o ∈ m.offset, o.natAbs % 60 = 0

theorem valid_ofUnix_of_year {seconds : Int} {micro : Nat}
    (hlo : 1 ≤ (ofUnix seconds micro).date.year) (hhi : (ofUnix seconds micro).date.year ≤ 9999)
    (hmicro : micro < 1000000) : (ofUnix seconds micro).Valid := by
  have hclock : (seconds % 86400).toNat < 86400 := by omega
  refine ⟨Date.valid_ofDays _, hlo, hhi, ?_, ?_, ?_, hmicro, ?_, ?_⟩
  · show (seconds % 86400).toNat / 3600 < 24
    omega
  · show (seconds % 86400).toNat / 60 % 60 < 60
    omega
  · show (seconds % 86400).toNat % 60 < 60
    omega
  · simp [ofUnix]
  · simp [ofUnix]

theorem valid_ofUnix {seconds : Int} {micro : Nat} (hlo : -62135596800 ≤ seconds)
    (hhi : seconds ≤ 253402300799) (hmicro : micro < 1000000) : (ofUnix seconds micro).Valid :=
  valid_ofUnix_of_year (Date.one_le_year_ofDays_iff.2 (by omega))
    (Date.year_ofDays_le_iff.2 (by omega)) hmicro

theorem one_le_year_ofUnix {m : Moment} (hm : m.date.Valid) (h : 1 ≤ m.date.year)
    (later micro : Nat) : 1 ≤ (ofUnix (m.toUnix + later) micro).date.year := by
  refine Date.one_le_year_ofDays_iff.2 ?_
  have hdays := Date.le_toDays hm h
  unfold toUnix
  omega

theorem Valid.withOffset {m : Moment} (h : m.Valid) {offset : Option Int}
    (hlt : ∀ o ∈ offset, o.natAbs < 86400) (hminutes : ∀ o ∈ offset, o.natAbs % 60 = 0) :
    Valid { m with offset } :=
  { h with offset_lt := hlt, offset_minutes := hminutes }

theorem valid_atMidnight {d : Date} (h : d.Valid) (hlo : 1 ≤ d.year) (hhi : d.year ≤ 9999) :
    (atMidnight d).Valid := by
  refine ⟨h, hlo, hhi, ?_, ?_, ?_, ?_, ?_, ?_⟩ <;> simp [atMidnight]

theorem valid_of_ofNumber? {n : Int} {micro : Nat} {m : Moment} (h : ofNumber? n micro = some m) :
    m.Valid := by
  simp only [ofNumber?, Option.ite_none_right_eq_some] at h
  obtain ⟨hrange, hm⟩ := h
  rw [← Option.some.inj hm]
  exact valid_ofUnix hrange.1 hrange.2 (Nat.mod_lt _ (by decide))

theorem valid_of_date? {cs rest : List Char} {d : Date} (h : date? cs = some (d, rest)) :
    d.Valid ∧ 1 ≤ d.year ∧ d.year ≤ 9999 := by
  simp only [date?, Option.bind_eq_bind, Option.bind_eq_some_iff] at h
  obtain ⟨⟨century, cs₁⟩, hc, ⟨year, cs₂⟩, hy, h⟩ := h
  have hcentury := two?_lt hc
  have hyear := two?_lt hy
  split at h
  · obtain ⟨⟨month, cs₃⟩, -, h⟩ := Option.bind_eq_some_iff.1 h
    split at h
    · obtain ⟨⟨day, cs₄⟩, -, h⟩ := Option.bind_eq_some_iff.1 h
      obtain ⟨d', hd', h⟩ := Option.bind_eq_some_iff.1 h
      obtain ⟨rfl, hvalid⟩ := Date.make?_eq_some_iff.1 hd'
      split at h
      · cases h
      · rename_i hzero
        cases h
        refine ⟨hvalid, ?_, ?_⟩
        · dsimp only at hzero ⊢
          omega
        · dsimp only
          omega
    · cases h
  · cases h

theorem seconds?_lt {cs rest : List Char} {second micro : Nat}
    (h : seconds? cs = some (second, micro, rest)) : second < 60 ∧ micro < 1000000 := by
  unfold seconds? at h
  split at h
  · obtain ⟨⟨n, cs⟩, -, h⟩ := Option.bind_eq_some_iff.1 h
    simp only [Option.ite_none_left_eq_some] at h
    obtain ⟨hn, h⟩ := h
    split at h
    · split at h
      · simp only [Option.ite_none_left_eq_some, Option.some.injEq, Prod.mk.injEq] at h
        obtain ⟨-, rfl, rfl, -⟩ := h
        exact ⟨by omega, micros_lt fun c hc => List.mem_takeWhile_imp hc⟩
      · cases h
        exact ⟨by omega, by decide⟩
    · cases h
      exact ⟨by omega, by decide⟩
  · cases h
    exact ⟨by decide, by decide⟩

theorem signedOffset?_lt {negative : Bool} {cs : List Char} {o : Int}
    (h : signedOffset? negative cs = some o) : o.natAbs < 86400 ∧ o.natAbs % 60 = 0 := by
  simp only [signedOffset?, Option.bind_eq_bind, Option.bind_eq_some_iff,
    Option.ite_none_right_eq_some, Option.some.injEq] at h
  obtain ⟨⟨hour, rest⟩, -, ⟨minute, rest'⟩, -, ⟨-, hminute, hhour⟩, rfl⟩ := h
  constructor <;> split <;> omega

theorem offset?_lt {cs : List Char} {offset : Option Int} (h : offset? cs = some offset) :
    ∀ o ∈ offset, o.natAbs < 86400 ∧ o.natAbs % 60 = 0 := by
  unfold offset? at h
  intro o ho
  obtain rfl := Option.mem_def.1 ho
  split at h
  · cases h
  · split at h
    · cases h
      decide
    · cases h
  · split at h
    · obtain ⟨_, h, ⟨⟩⟩ := Option.map_eq_some_iff.1 h
      exact signedOffset?_lt h
    · split at h
      · obtain ⟨_, h, ⟨⟩⟩ := Option.map_eq_some_iff.1 h
        exact signedOffset?_lt h
      · cases h

theorem valid_of_ofRfc3339? {cs : List Char} {m : Moment} (h : ofRfc3339? cs = some m) :
    m.Valid := by
  simp only [ofRfc3339?, Option.bind_eq_bind, Option.bind_eq_some_iff] at h
  obtain ⟨⟨date, rest⟩, hdate, h⟩ := h
  obtain ⟨hvalid, hlo, hhi⟩ := valid_of_date? hdate
  split at h
  · cases h
    exact valid_atMidnight hvalid hlo hhi
  · simp only [Option.ite_none_right_eq_some, Option.bind_eq_some_iff] at h
    obtain ⟨-, ⟨hour, rest⟩, -, h⟩ := h
    split at h
    · simp only [Option.ite_none_right_eq_some, Option.bind_eq_some_iff] at h
      obtain ⟨⟨minute, rest⟩, -, ⟨second, micro, rest⟩, hs, offset, ho, ⟨hhour, hminute⟩, h⟩ := h
      cases h
      obtain ⟨hsecond, hmicro⟩ := seconds?_lt hs
      exact ⟨hvalid, hlo, hhi, hhour, hminute, hsecond, hmicro, fun o h => (offset?_lt ho o h).1,
        fun o h => (offset?_lt ho o h).2⟩
    · cases h

theorem valid_of_ofReal? {x : Binary64} {m : Moment} (h : ofReal? x = some m) : m.Valid := by
  simp only [ofReal?, Option.bind_eq_bind, Option.bind_eq_some_iff] at h
  obtain ⟨_, -, _, -, _, -, _, -, h⟩ := h
  exact valid_of_ofNumber? h

theorem valid_of_ofPointed? {x : Binary64} {m : Moment} (h : ofPointed? x = some m) :
    m.Valid := by
  simp only [ofPointed?, Option.bind_eq_bind, Option.bind_eq_some_iff] at h
  obtain ⟨_, -, h⟩ := h
  split at h <;> simp only [Option.bind_eq_some_iff] at h
  all_goals
    obtain ⟨_, -, _, -, _, -, _, -, _, -, h⟩ := h
    exact valid_of_ofNumber? h

theorem valid_of_ofDigits? {cs : List Char} {m : Moment} (h : ofDigits? cs = some m) :
    m.Valid := by
  simp only [ofDigits?, Option.ite_none_left_eq_some] at h
  obtain ⟨-, h⟩ := h
  split at h
  · exact valid_of_ofNumber? h
  · simp only [Option.ite_none_right_eq_some] at h
    exact valid_of_ofPointed? h.2
  · cases h

theorem valid_of_ofText? {cs : List Char} {m : Moment} (h : ofText? cs = some m) : m.Valid := by
  rcases Option.or_eq_some_iff.1 h with h | ⟨-, h⟩
  · exact valid_of_ofRfc3339? h
  · exact valid_of_ofDigits? h

theorem date?_written {d : Date} (h : d.Valid) (hlo : 1 ≤ d.year) (hhi : d.year ≤ 9999)
    (rest : List Char) :
    date? (padded 4 d.year.toNat ++ '-' :: (padded 2 d.month ++ '-' :: (padded 2 d.day ++ rest))) =
      some (d, rest) := by
  obtain ⟨high, low, middle, hhigh, hlow, hyear⟩ := two?_padded_four (n := d.year.toNat) (by omega)
    ('-' :: (padded 2 d.month ++ '-' :: (padded 2 d.day ++ rest)))
  have hmonth : d.month < 100 := Nat.lt_of_le_of_lt h.month_le (by decide)
  have hday : d.day < 100 := Nat.lt_of_le_of_lt h.day_le (by decide)
  have hmake : Date.make? (100 * high + low : Nat) d.month d.day = some d := by
    rw [Date.make?_eq_some_iff, hyear, Int.toNat_of_nonneg (by omega)]
    exact ⟨rfl, h⟩
  have hzero : d.year ≠ 0 := by omega
  simp only [date?, hhigh, hlow, two?_padded hmonth, two?_padded hday, hmake, Option.bind_eq_bind,
    Option.bind_some, if_neg hzero]

def zone : Option Int → List Char
  | none => []
  | some o => if o = 0 then ['Z'] else offsetText o

theorem zone_cases (offset : Option Int) :
    zone offset = [] ∨ ∃ c cs, zone offset = c :: cs ∧ (c = 'Z' ∨ c = '-' ∨ c = '+') := by
  cases offset with
  | none => exact .inl rfl
  | some o =>
    by_cases hzero : o = 0
    · exact .inr ⟨'Z', [], by simp [zone, hzero], .inl rfl⟩
    · refine .inr ⟨_, _, by rw [zone, if_neg hzero]; rfl, .inr ?_⟩
      split
      · exact .inl rfl
      · exact .inr rfl

theorem seconds?_written {second micro : Nat} (hs : second < 60) (hm : micro < 1000000)
    {rest : List Char} (hrest : rest = [] ∨ ∃ c cs, rest = c :: cs ∧ (c = 'Z' ∨ c = '-' ∨ c = '+')) :
    seconds? (':' :: (padded 2 second ++
      ((if micro = 0 then [] else '.' :: padded 6 micro) ++ rest))) = some (second, micro, rest) := by
  simp only [seconds?, two?_padded (show second < 100 by omega), Option.bind_eq_bind,
    Option.bind_some, if_neg (show ¬ 59 < second by omega)]
  by_cases hzero : micro = 0
  · subst hzero
    rcases hrest with hz | ⟨c, cs, hz, rfl | rfl | rfl⟩ <;> simp [hz]
  · have hdigits : (padded 6 micro ++ rest).takeWhile Char.isDigit = padded 6 micro := by
      rw [List.takeWhile_append_of_pos fun c hc => isDigit_of_mem_padded hc]
      rcases hrest with hz | ⟨c, cs, hz, rfl | rfl | rfl⟩ <;> simp [hz]
    have hlen := length_padded (w := 6) (by decide) hm
    have hne : padded 6 micro ≠ [] := fun h => by simp [h] at hlen
    simp [hzero, hdigits, hne, micros_padded hm]

theorem signedOffset?_written {n : Nat} (hlt : n < 86400) (hmin : n % 60 = 0) (negative : Bool) :
    signedOffset? negative (padded 2 (n / 3600) ++ ':' :: padded 2 (n / 60 % 60)) =
      some (if negative then -(n : Int) else n) := by
  have hminute := two?_padded (show n / 60 % 60 < 100 by omega) []
  rw [List.append_nil] at hminute
  have hn : 3600 * (n / 3600) + 60 * (n / 60 % 60) = n := by omega
  simp only [signedOffset?, two?_padded (show n / 3600 < 100 by omega), hminute, hn,
    Option.bind_eq_bind, Option.bind_some, List.isEmpty_nil]
  rw [if_pos ⟨trivial, by omega, by omega⟩]

theorem offset?_cons (sign : Char) {cs : List Char} (h : cs ≠ []) :
    offset? (sign :: cs) =
      if sign = '+' then (signedOffset? false cs).map some
      else if sign = '-' ∨ sign = '\u2212' then (signedOffset? true cs).map some
      else none := by
  cases cs with
  | nil => exact absurd rfl h
  | cons c cs => rfl

theorem offset?_zone {offset : Option Int} (hlt : ∀ o ∈ offset, o.natAbs < 86400)
    (hmin : ∀ o ∈ offset, o.natAbs % 60 = 0) : offset? (zone offset) = some offset := by
  cases offset with
  | none => rfl
  | some o =>
    by_cases hzero : o = 0
    · subst hzero
      rfl
    · have hwritten := signedOffset?_written (hlt o rfl) (hmin o rfl)
      show offset? (if o = 0 then ['Z'] else offsetText o) = _
      rw [if_neg hzero, offsetText, List.cons_append, offset?_cons _ (by simp)]
      by_cases hneg : o < 0
      · have habs : -(o.natAbs : Int) = o := by omega
        rw [if_pos hneg, if_neg (by decide), if_pos (.inl rfl), hwritten, if_pos rfl, habs]
        rfl
      · have habs : (o.natAbs : Int) = o := by omega
        rw [if_neg hneg, if_pos rfl, hwritten, if_neg (by decide), habs]
        rfl

theorem stem_append (m : Moment) (rest : List Char) : m.stem ++ rest =
    padded 4 m.date.year.toNat ++ '-' :: (padded 2 m.date.month ++ '-' :: (padded 2 m.date.day ++
      'T' :: (padded 2 m.hour ++ ':' :: (padded 2 m.minute ++ ':' :: (padded 2 m.second ++
        ((if m.micro = 0 then [] else '.' :: padded 6 m.micro) ++ rest)))))) := by
  unfold stem
  simp only [List.append_assoc, List.cons_append]

theorem ofText?_stem {m : Moment} (h : m.Valid) {rest : List Char}
    (hrest : rest = [] ∨ ∃ c cs, rest = c :: cs ∧ (c = 'Z' ∨ c = '-' ∨ c = '+'))
    (hoffset : offset? rest = some m.offset) : ofText? (m.stem ++ rest) = some m := by
  have hhour := two?_padded (Nat.lt_trans h.hour_lt (by decide : 24 < 100))
  have hminute := two?_padded (Nat.lt_trans h.minute_lt (by decide : 60 < 100))
  have hread : ofRfc3339? (m.stem ++ rest) = some m := by
    rw [stem_append]
    simp only [ofRfc3339?, date?_written h.date h.one_le_year h.year_le, hhour, hminute,
      seconds?_written h.second_lt h.micro_lt hrest, hoffset, Option.bind_eq_bind, Option.bind_some,
      true_or, if_true]
    rw [if_pos ⟨h.hour_lt, h.minute_lt⟩]
    rfl
  rw [ofText?, hread]
  rfl

theorem ofText?_zulu {m : Moment} (h : m.Valid) : ofText? m.zulu.toList = some m := by
  have htext : m.zulu.toList = m.stem ++ zone m.offset := String.toList_ofList
  rw [htext]
  exact ofText?_stem h (zone_cases m.offset) (offset?_zone h.offset_lt h.offset_minutes)

theorem toList_iso {m : Moment} (hutc : m.offset = some 0) :
    m.iso.toList = m.stem ++ "+00:00".toList := by
  rw [iso, hutc, String.toList_ofList]
  rfl

theorem ofText?_iso {m : Moment} (h : m.Valid) (hutc : m.offset = some 0) :
    ofText? m.iso.toList = some m := by
  rw [toList_iso hutc]
  exact ofText?_stem h (.inr ⟨'+', _, rfl, .inr (.inr rfl)⟩) (hutc ▸ rfl)

end PolicyAudit.Moment
