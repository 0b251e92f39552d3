import PolicyAudit.Json.Standard
import PolicyAudit.Proofs.Calendar.Digits
import PolicyAudit.Proofs.Document.Plain
import PolicyAudit.Proofs.Json.Quoted

/-! Decoding what is written.
`render` writes a plain document so that the standard reads the same document back, whatever follows
that does not go on with a number (`decodeValue_render`); so a document is determined by its text
(`toText_inj`). -/

namespace PolicyAudit.Json

/-! ### Whole numbers -/

/-- Nothing at the head of the text goes on with a number. -/
def EndsNumber (cs : List Char) : Prop :=
  ∀ c ∈ cs.head?, c.isDigit = false ∧ c ≠ '.' ∧ c ≠ 'e' ∧ c ≠ 'E'

theorem endsNumber_nil : EndsNumber [] := nofun

theorem endsNumber_cons {c : Char} {cs : List Char}
    (h : c.isDigit = false ∧ c ≠ '.' ∧ c ≠ 'e' ∧ c ≠ 'E') : EndsNumber (c :: cs) := by
  rintro _ ⟨⟩
  exact h

theorem toDigits_ne_zero_cons {n : Nat} (hn : n ≠ 0) (cs : List Char) :
    Nat.toDigits 10 n ≠ '0' :: cs := by
  intro h
  have hdigit : ∀ c ∈ cs, c.isDigit := fun c hc =>
    Nat.isDigit_of_mem_toDigits (b := 10) (n := n) (by decide) (by decide)
      (h ▸ List.mem_cons_of_mem _ hc)
  have hvalue : Nat.ofDigitChars 10 cs 0 = n := by
    have hall := Nat.ofDigitChars_ten_toDigits (n := n)
    rwa [h, Nat.ofDigitChars_cons] at hall
  have hlt := Moment.ofDigitChars_lt cs 0 hdigit
  rw [hvalue, Nat.mul_one] at hlt
  cases cs with
  | nil =>
    rw [List.length_nil, Nat.pow_zero] at hlt
    omega
  | cons c cs =>
    have hlength := (Nat.length_toDigits_le_iff (b := 10) (by decide) (by simp)).2 hlt
    rw [h, List.length_cons] at hlength
    omega

theorem readWhole_toDigits (n : Nat) {rest : List Char} (h : EndsNumber rest) :
    readWhole (Nat.toDigits 10 n ++ rest) = some (Nat.toDigits 10 n, rest) := by
  by_cases hn : n = 0
  · subst hn
    rfl
  · have hall : ∀ c ∈ Nat.toDigits 10 n, c.isDigit := fun c hc =>
      Nat.isDigit_of_mem_toDigits (by decide) (by decide) hc
    have hstop : rest.takeWhile Char.isDigit = [] := by
      cases rest with
      | nil => rfl
      | cons c rest => simp [(h c rfl).1]
    have hnonempty : Nat.toDigits 10 n ≠ [] := Nat.toDigits_ne_nil
    have htake : (Nat.toDigits 10 n ++ rest).takeWhile Char.isDigit = Nat.toDigits 10 n := by
      rw [List.takeWhile_append_of_pos hall, hstop, List.append_nil]
    unfold readWhole
    split
    · rename_i cs heq
      cases hd : Nat.toDigits 10 n with
      | nil => exact absurd hd hnonempty
      | cons c ds =>
        rw [hd, List.cons_append, List.cons.injEq] at heq
        obtain ⟨rfl, -⟩ := heq
        exact absurd hd (toDigits_ne_zero_cons hn ds)
    · simp [htake, hnonempty]

theorem decodeNumber_toDigits (negative : Bool) (n : Nat) {rest : List Char} (h : EndsNumber rest) :
    decodeNumber negative (Nat.toDigits 10 n ++ rest) =
      some (.int (if negative then -n else n), rest) := by
  have hfraction : readFraction rest = none := by
    unfold readFraction
    split
    · exact absurd rfl (h '.' rfl).2.1
    · rfl
  have hexponent : readExponent rest = none := by
    unfold readExponent
    split
    · rename_i e rest'
      exact if_neg (by rintro (rfl | rfl) <;> simp_all [EndsNumber])
    · rfl
  rw [decodeNumber, readWhole_toDigits n h]
  simp [hfraction, hexponent, digitsIn]

/-! ### Items between commas -/

theorem skipBlanks_newline (depth : Nat) (cs : List Char) :
    skipBlanks (newline depth ++ cs) = skipBlanks cs := by
  have hblank : ∀ c ∈ newline depth, isBlank c := by
    refine List.forall_mem_cons.2 ⟨rfl, fun c hc => ?_⟩
    rw [(List.mem_replicate.1 hc).2]
    rfl
  exact List.dropWhile_append_of_pos hblank

theorem skipBlanks_cons {c : Char} (h : isBlank c = false) (cs : List Char) :
    skipBlanks (c :: cs) = c :: cs := by
  rw [skipBlanks, List.dropWhile_cons, if_neg (by simp [h])]

def Opens (cs : List Char) : Prop :=
  ∃ c rest, cs = c :: rest ∧ isBlank c = false ∧ c ≠ ']' ∧ c ≠ '}'

theorem skipBlanks_of_opens {cs : List Char} (h : Opens cs) (rest : List Char) :
    skipBlanks (cs ++ rest) = cs ++ rest := by
  obtain ⟨c, cs, rfl, hc, -⟩ := h
  exact skipBlanks_cons hc _

/-- What follows an item in a container: further items, a line break and the closing mark. -/
def follow (write : α → List Char) (depth : Nat) (close : Char) (as : List α) : List Char :=
  (as.flatMap fun a => ',' :: newline (depth + 1) ++ write a) ++ newline depth ++ [close]

theorem follow_nil (write : α → List Char) (depth : Nat) (close : Char) :
    follow write depth close [] = newline depth ++ [close] := rfl

theorem follow_cons (write : α → List Char) (depth : Nat) (close : Char) (a : α) (as : List α) :
    follow write depth close (a :: as) =
      ',' :: newline (depth + 1) ++ write a ++ follow write depth close as := by
  simp only [follow, List.flatMap_cons, List.append_assoc, List.cons_append]

theorem endsNumber_follow (write : α → List Char) (depth : Nat) (close : Char) (as : List α)
    (rest : List Char) : EndsNumber (follow write depth close as ++ rest) := by
  cases as with
  | nil => exact endsNumber_cons (by decide)
  | cons a as =>
    rw [follow_cons]
    exact endsNumber_cons (by decide)

section items

variable {item : List Char → Option (α × List Char)} {write : α → List Char} {close : Char}

/-- `item` reads what `write` writes, up to the end of a number. -/
def Reads (item : List Char → Option (α × List Char)) (write : α → List Char) (a : α) : Prop :=
  ∀ rest, EndsNumber rest → item (write a ++ rest) = some (a, rest)

theorem decodeItems_follow (hclose : isBlank close = false ∧ close ≠ ',') (depth : Nat) {a : α}
    {as : List α} (hopens : ∀ b ∈ as, Opens (write b)) (ha : Reads item write a)
    (has : ∀ b ∈ as, Reads item write b) {fuel : Nat} (hfuel : as.length < fuel) (rest : List Char) :
    decodeItems item close fuel (write a ++ (follow write depth close as ++ rest)) =
      some (a :: as, rest) := by
  induction as generalizing a fuel with
  | nil =>
    obtain ⟨fuel, rfl⟩ := Nat.exists_eq_succ_of_ne_zero (Nat.ne_of_gt hfuel)
    rw [decodeItems, ha _ (endsNumber_follow write depth close [] rest), follow_nil,
      List.append_assoc]
    simp [skipBlanks_newline, skipBlanks_cons hclose.1, hclose.2]
  | cons b bs ih =>
    obtain ⟨fuel, rfl⟩ := Nat.exists_eq_succ_of_ne_zero (Nat.ne_zero_of_lt hfuel)
    rw [List.forall_mem_cons] at hopens has
    have hrest := ih hopens.2 has.1 has.2 (Nat.lt_of_succ_lt_succ hfuel)
    rw [decodeItems, ha _ (endsNumber_follow write depth close (b :: bs) rest), follow_cons]
    simp only [Option.bind_eq_bind, Option.bind_some, List.cons_append, List.append_assoc]
    rw [skipBlanks_cons rfl]
    simp only [if_true]
    rw [skipBlanks_newline, skipBlanks_of_opens hopens.1, hrest]
    rfl

theorem length_lt_follow (depth : Nat) (as : List α) :
    as.length < (follow write depth close as).length := by
  induction as with
  | nil => simp [follow_nil]
  | cons a as ih =>
    rw [follow_cons]
    simp only [List.cons_append, List.length_cons, List.length_append]
    omega

theorem length_le_items (depth : Nat) {a b : α} {as : List α} (hb : b ∈ a :: as) :
    (write b).length ≤ (write a ++ follow write depth close as).length := by
  induction as generalizing a with
  | nil =>
    obtain rfl := List.mem_singleton.1 hb
    simp
  | cons c cs ih =>
    rw [List.length_append]
    rcases List.mem_cons.1 hb with rfl | hb
    · omega
    · have hle := ih hb
      simp only [follow_cons, List.cons_append, List.length_cons, List.length_append] at hle ⊢
      omega

theorem decodeAll_follow (hclose : close = ']' ∨ close = '}') (depth : Nat) {a : α} {as : List α}
    (hopens : ∀ b ∈ a :: as, Opens (write b)) (hreads : ∀ b ∈ a :: as, Reads item write b)
    (rest : List Char) :
    decodeAll item close (newline (depth + 1) ++ (write a ++ (follow write depth close as ++ rest))) =
      some (a :: as, rest) := by
  rw [List.forall_mem_cons] at hopens hreads
  have hmark : isBlank close = false ∧ close ≠ ',' := by
    rcases hclose with rfl | rfl <;> decide
  have hlength : as.length < (write a ++ (follow write depth close as ++ rest)).length := by
    have hfollow : as.length < (follow write depth close as).length := length_lt_follow depth as
    simp only [List.length_append]
    omega
  have hitems := decodeItems_follow hmark depth hopens.2 hreads.1 hreads.2 hlength rest
  rw [decodeAll, skipBlanks_newline, skipBlanks_of_opens hopens.1]
  obtain ⟨c, cs, hwrite, -, hlist, hmap⟩ := hopens.1
  rw [hwrite] at hitems ⊢
  have hc : c ≠ close := by
    rcases hclose with rfl | rfl
    · exact hlist
    · exact hmap
  simp only [List.cons_append, if_neg hc] at hitems ⊢
  exact hitems

end items

/-! ### Documents -/

def renderEntry (depth : Nat) (e : Key × Value) : List Char :=
  quote e.1.shown.toList ++ ": ".toList ++ render depth e.2

theorem render_list (depth : Nat) (v : Value) (vs : List Value) :
    render depth (.list (v :: vs)) =
      '[' :: (newline (depth + 1) ++
        (render (depth + 1) v ++ follow (render (depth + 1)) depth ']' vs)) := by
  have hitems : ∀ vs, renderItems (depth + 1) vs =
      vs.flatMap fun v => ',' :: newline (depth + 1) ++ render (depth + 1) v := by
    intro vs
    induction vs with
    | nil => rw [renderItems, List.flatMap_nil]
    | cons v vs ih => rw [renderItems, ih, List.flatMap_cons]
  rw [render, hitems, follow]
  simp only [List.cons_append, List.append_assoc]

theorem render_map (depth : Nat) (e : Key × Value) (es : Entries) :
    render depth (.map (e :: es)) =
      '{' :: (newline (depth + 1) ++
        (renderEntry (depth + 1) e ++ follow (renderEntry (depth + 1)) depth '}' es)) := by
  have hentries : ∀ es, renderEntries (depth + 1) es =
      es.flatMap fun e => ',' :: newline (depth + 1) ++ renderEntry (depth + 1) e := by
    intro es
    induction es with
    | nil => rw [renderEntries, List.flatMap_nil]
    | cons e es ih =>
      rw [renderEntries, ih, List.flatMap_cons, renderEntry]
      simp only [List.cons_append, List.append_assoc]
  obtain ⟨k, v⟩ := e
  rw [render, hentries, follow, renderEntry]
  simp only [List.cons_append, List.append_assoc]

theorem ne_of_isDigit {c x : Char} (hc : c.isDigit) (hx : x.isDigit = false) : c ≠ x := by
  rintro rfl
  rw [hc] at hx
  cases hx

theorem word?_of_isDigit {c : Char} (h : c.isDigit) : word? c = none := by
  unfold word?
  split
  · cases h
  · cases h
  · cases h
  · rfl

theorem exists_toDigits_eq_cons (n : Nat) : ∃ c cs, Nat.toDigits 10 n = c :: cs ∧ c.isDigit := by
  cases hn : Nat.toDigits 10 n with
  | nil => exact absurd hn Nat.toDigits_ne_nil
  | cons c cs =>
    exact ⟨c, cs, rfl, Nat.isDigit_of_mem_toDigits (b := 10) (n := n) (by decide) (by decide)
      (hn ▸ List.mem_cons_self)⟩

theorem opens_renderEntry (depth : Nat) (e : Key × Value) : Opens (renderEntry depth e) :=
  ⟨'"', _, rfl, by decide⟩

theorem opens_intDigits (n : Int) : Opens (intDigits n) := by
  unfold intDigits
  split
  · exact ⟨'-', _, rfl, by decide⟩
  · obtain ⟨c, cs, hcs, hc⟩ := exists_toDigits_eq_cons n.natAbs
    have hblank : isBlank c = false := by
      simp [isBlank, ne_of_isDigit hc (x := ' ') rfl, ne_of_isDigit hc (x := '\t') rfl,
        ne_of_isDigit hc (x := '\n') rfl, ne_of_isDigit hc (x := '\r') rfl]
    exact ⟨c, cs, hcs, hblank, ne_of_isDigit hc rfl, ne_of_isDigit hc rfl⟩

theorem opens_render {v : Value} (h : v.Plain) (depth : Nat) : Opens (render depth v) := by
  cases h with
  | null => exact ⟨'n', _, rfl, by decide⟩
  | bool b => cases b <;> exact ⟨_, _, rfl, by decide⟩
  | int n => exact opens_intDigits n
  | text s => exact ⟨'"', _, rfl, by decide⟩
  | @list vs _ =>
    cases vs with
    | nil => exact ⟨'[', _, rfl, by decide⟩
    | cons v vs => exact ⟨'[', _, render_list depth v vs, by decide⟩
  | @map es _ _ _ =>
    cases es with
    | nil => exact ⟨'{', _, rfl, by decide⟩
    | cons e es => exact ⟨'{', _, render_map depth e es, by decide⟩

theorem decodeValue_int (fuel depth : Nat) (n : Int) :
    Reads (decodeValue (fuel + 1)) (render depth) (.int n) := by
  intro rest hrest
  show decodeValue (fuel + 1) (intDigits n ++ rest) = _
  have hnumber := fun negative => decodeNumber_toDigits negative n.natAbs hrest
  unfold intDigits
  split
  · have hn : -(n.natAbs : Int) = n := by omega
    rw [List.cons_append, decodeValue, if_neg (by decide), if_neg (by decide), if_neg (by decide)]
    show decodeNumber true (Nat.toDigits 10 n.natAbs ++ rest) = _
    rw [hnumber, if_pos rfl, hn]
  · have hn : (n.natAbs : Int) = n := by omega
    obtain ⟨c, cs, hcs, hc⟩ := exists_toDigits_eq_cons n.natAbs
    rw [hcs] at hnumber ⊢
    rw [List.cons_append] at hnumber ⊢
    rw [decodeValue, if_neg (ne_of_isDigit hc rfl), if_neg (ne_of_isDigit hc rfl),
      if_neg (ne_of_isDigit hc rfl), word?_of_isDigit hc]
    simp only [if_neg (ne_of_isDigit hc (x := '-') rfl), hnumber]
    simp [hn]

theorem decodeValue_text (fuel depth : Nat) (s : String) :
    Reads (decodeValue (fuel + 1)) (render depth) (.text s) := by
  intro rest _
  show decodeValue (fuel + 1) ('"' :: (s.toList.flatMap escape ++ ['"']) ++ rest) = _
  have hquote := readQuoted_quote [] s.toList rest
  rw [List.cons_append, List.append_assoc, List.singleton_append, decodeValue, if_pos rfl, hquote]
  simp

theorem decodeEntry_renderEntry {value : List Char → Option (Value × List Char)} {depth : Nat}
    {e : Key × Value} (hkey : ∃ s, e.1 = .text s) (hv : e.2.Plain)
    (hread : Reads value (render depth) e.2) : Reads (decodeEntry value) (renderEntry depth) e := by
  obtain ⟨k, v⟩ := e
  obtain ⟨s, rfl⟩ := hkey
  intro rest hrest
  have hquote := readQuoted_quote [] s.toList (": ".toList ++ (render depth v ++ rest))
  have hvalue : skipBlanks (' ' :: (render depth v ++ rest)) = render depth v ++ rest :=
    skipBlanks_of_opens (opens_render hv depth) rest
  show decodeEntry value
    ('"' :: (s.toList.flatMap escape ++ ['"']) ++ ": ".toList ++ render depth v ++ rest) = _
  simp only [List.cons_append, List.append_assoc, List.nil_append]
  rw [decodeEntry, hquote]
  simp [hvalue, hread rest hrest, skipBlanks_cons (c := ':') rfl]

/-- Every document is read back from its text, at any depth and in front of any text that does not go
on with a number. -/
theorem decodeValue_render {v : Value} (h : v.Plain) {fuel depth : Nat}
    (hfuel : (render depth v).length < fuel) : Reads (decodeValue fuel) (render depth) v := by
  obtain ⟨fuel, rfl⟩ := Nat.exists_eq_succ_of_ne_zero (Nat.ne_zero_of_lt hfuel)
  induction h generalizing fuel depth with
  | null => exact fun rest _ => by simp [render, scalar, decodeValue, word?, after?]
  | bool b => exact fun rest _ => by cases b <;> simp [render, scalar, decodeValue, word?, after?]
  | int n => exact decodeValue_int fuel depth n
  | text s => exact decodeValue_text fuel depth s
  | @list vs h ih =>
    intro rest _
    cases vs with
    | nil => rfl
    | cons v vs =>
      rw [render_list, List.length_cons, List.length_append] at hfuel
      have hreads : ∀ w ∈ v :: vs, Reads (decodeValue fuel) (render (depth + 1)) w := by
        intro w hw
        have hlength : (render (depth + 1) w).length ≤
            (render (depth + 1) v ++ follow (render (depth + 1)) depth ']' vs).length :=
          length_le_items depth hw
        obtain ⟨fuel, rfl⟩ := Nat.exists_eq_succ_of_ne_zero (n := fuel) (by omega)
        exact ih w hw fuel (by omega)
      have hall := decodeAll_follow (.inl rfl) depth (fun w hw => opens_render (h w hw) (depth + 1))
        hreads rest
      rw [render_list]
      simp only [List.cons_append, List.append_assoc]
      rw [decodeValue, if_neg (by decide), if_pos rfl, hall]
      rfl
  | @map es hkeys hdistinct h ih =>
    intro rest _
    cases es with
    | nil => rfl
    | cons e es =>
      rw [render_map, List.length_cons, List.length_append] at hfuel
      have hreads : ∀ x ∈ e :: es,
          Reads (decodeEntry (decodeValue fuel)) (renderEntry (depth + 1)) x := by
        intro x hx
        have hlength : (renderEntry (depth + 1) x).length ≤
            (renderEntry (depth + 1) e ++ follow (renderEntry (depth + 1)) depth '}' es).length :=
          length_le_items depth hx
        have hvalue : (render (depth + 1) x.2).length ≤ (renderEntry (depth + 1) x).length := by
          simp only [renderEntry, List.length_append]
          omega
        obtain ⟨fuel, rfl⟩ := Nat.exists_eq_succ_of_ne_zero (n := fuel) (by omega)
        exact decodeEntry_renderEntry (hkeys x hx) (h x hx) (ih x hx fuel (by omega))
      have hall := decodeAll_follow (.inr rfl) depth (fun x _ => opens_renderEntry (depth + 1) x)
        hreads rest
      rw [render_map]
      simp only [List.cons_append, List.append_assoc]
      rw [decodeValue, if_neg (by decide), if_neg (by decide), if_pos rfl, hall, Option.bind_some]
      exact if_pos hdistinct

theorem decode?_toText {v : Value} (h : v.Plain) : decode? (toText v) = some v := by
  have hopens := skipBlanks_of_opens (opens_render h 0) []
  rw [List.append_nil] at hopens
  have hvalue := decodeValue_render h (Nat.lt_succ_self (render 0 v).length) [] endsNumber_nil
  rw [List.append_nil] at hvalue
  rw [decode?, toText, String.toList_ofList, hopens]
  simp only [hvalue, Option.bind_eq_bind, Option.bind_some]
  rfl

example : decode? " [\"\\ud83d\\ude00\",-12 , []]" =
    some (.list [.text "😀", .int (-12), .list []]) := rfl

example : decode? "[1,]" = none := rfl

end PolicyAudit.Json
