import PolicyAudit.Proofs.Document.Timely
import PolicyAudit.Yaml.Document

/-! The moments in YAML documents exist.
A stamp is given a value only if its date is one of the calendar, its time one of a day and its
offset less than a day; what rounding carries over stays in range. -/

namespace PolicyAudit.Yaml

theorem Stamp.year_le_of_ofText? {short : Bool} {cs : List Char} {s : Stamp}
    (h : ofText? short cs = some s) : s.year ≤ 9999 := by
  obtain ⟨⟨century, cs₁⟩, hc, h⟩ := Option.bind_eq_some_iff.1 h
  obtain ⟨⟨year, cs₂⟩, hy, h⟩ := Option.bind_eq_some_iff.1 h
  have hcentury := Moment.two?_lt hc
  have hyear := Moment.two?_lt hy
  have hle : 100 * century + year ≤ 9999 := by omega
  dsimp only at h
  split at h
  · obtain ⟨⟨month, cs₃⟩, -, h⟩ := Option.bind_eq_some_iff.1 h
    dsimp only at h
    split at h
    · obtain ⟨⟨day, cs₄⟩, -, h⟩ := Option.bind_eq_some_iff.1 h
      dsimp only at h
      split at h
      · split at h
        · cases h
          exact hle
        · cases h
      · obtain ⟨_, -, ⟨⟩⟩ := Option.bind_eq_some_iff.1 h
        exact hle
    · cases h
  · cases h

namespace Content

theorem valid_of_moment? {s : Stamp} {m : Moment} (hs : s.year ≤ 9999) (h : moment? s = some m) :
    m.Valid := by
  obtain ⟨date, hdate, h⟩ := Option.bind_eq_some_iff.1 h
  obtain ⟨rfl, hvalid⟩ := Date.make?_eq_some_iff.1 hdate
  rw [Option.ite_none_left_eq_some] at h
  obtain ⟨hzero, h⟩ := h
  have hyear : 1 ≤ (s.year : Int) := by omega
  split at h
  · cases h
    exact Moment.valid_atMidnight hvalid hyear (Int.ofNat_le.2 hs)
  · simp only [Option.ite_none_left_eq_some] at h
    obtain ⟨htime, hoffset, hcarried, h⟩ := h
    rw [← Option.some.inj h]
    refine (Moment.valid_ofUnix_of_year (Moment.one_le_year_ofUnix hvalid hyear _ _)
      (not_lt.1 hcarried) (Nat.mod_lt _ (by decide))).withOffset (fun o ho => ?_) fun o ho => ?_
    · by_contra hge
      exact hoffset ((Option.any_eq_true _ _).2 ⟨o, ho, by simpa using hge⟩)
    · obtain ⟨_, -, rfl⟩ := Option.mem_map.1 ho
      split <;> omega

theorem timely_of_number {n : Except Number.Failure α} {read : α → Value} {v : Value}
    (hread : ∀ a, (read a).Timely) (h : number n read = .ok v) : v.Timely := by
  unfold number at h
  split at h <;> cases h
  exact hread _

theorem orMalformed_eq_ok {o : Option Value} {v : Value} (h : orMalformed o = .ok v) :
    o = some v := by
  cases o with
  | none => cases h
  | some w =>
    cases h
    rfl

theorem timely_scalar {legacy : Bool} {tag : Tag} {text : String} {v : Value}
    (h : scalar legacy tag text = .ok v) : v.Timely := by
  unfold scalar at h
  split at h
  · cases h
    simp
  · split at h <;> cases h
    simp
  · exact timely_of_number Value.timely_int h
  · exact timely_of_number Value.timely_real h
  · cases h
    simp
  · split at h
    · obtain ⟨bs, -, rfl⟩ := Option.map_eq_some_iff.1 (orMalformed_eq_ok h)
      exact Value.timely_bytes bs
    · cases h
  · obtain ⟨m, hm, rfl⟩ := Option.map_eq_some_iff.1 (orMalformed_eq_ok h)
    obtain ⟨s, hs, hm⟩ := Option.bind_eq_some_iff.1 hm
    exact Value.timely_moment.2 (valid_of_moment? (Stamp.year_le_of_ofText? hs) hm)
  · cases h

/-- Keys are values too: the members of a set were keys. -/
def TimelyEntries (es : List (Value × Value)) : Prop := ∀ e ∈ es, e.1.Timely ∧ e.2.Timely

theorem TimelyEntries.put {k v : Value} {es : List (Value × Value)} (hes : TimelyEntries es)
    (hk : k.Timely) (hv : v.Timely) : TimelyEntries (Content.put k v es) := by
  induction es with
  | nil => exact List.forall_mem_singleton.2 ⟨hk, hv⟩
  | cons e rest ih =>
    obtain ⟨hfirst, hrest⟩ := List.forall_mem_cons.1 hes
    obtain ⟨k', v'⟩ := e
    rw [Content.put]
    split
    · exact List.forall_mem_cons.2 ⟨⟨hfirst.1, hv⟩, hrest⟩
    · exact List.forall_mem_cons.2 ⟨hfirst, ih hrest⟩

theorem TimelyEntries.distinct {es : List (Value × Value)} (h : TimelyEntries es) :
    TimelyEntries (distinct es) :=
  List.foldlRecOn (motive := TimelyEntries) es _ (by simp [TimelyEntries])
    fun _ hacc e he => hacc.put (h e he).1 (h e he).2

theorem TimelyEntries.append {es fs : List (Value × Value)} (hes : TimelyEntries es)
    (hfs : TimelyEntries fs) : TimelyEntries (es ++ fs) :=
  List.forall_mem_append.2 ⟨hes, hfs⟩

theorem TimelyEntries.entries {es : List (Value × Value)} (h : TimelyEntries es) :
    ∀ e ∈ entries es, e.2.Timely :=
  Entries.timely_ofList (List.forall_mem_map.2 fun e he => (h.distinct e he).2)

theorem bind_eq_ok_iff {x : Except Failure α} {f : α → Except Failure β} {b : β} :
    (x >>= f) = .ok b ↔ ∃ a, x = .ok a ∧ f a = .ok b := by
  cases x with
  | error e => simp [bind, Except.bind]
  | ok a => simp [bind, Except.bind]

mutual

theorem timely_value {legacy : Bool} {n : Node} {v : Value} (h : value legacy n = .ok v) :
    v.Timely := by
  cases n with
  | scalar tag text => exact timely_scalar h
  | sequence tag items =>
    unfold value at h
    split at h
    · obtain ⟨vs, hvs, ⟨⟩⟩ := bind_eq_ok_iff.1 h
      exact Value.timely_list.2 (timely_values hvs)
    · obtain ⟨es, hes, ⟨⟩⟩ := bind_eq_ok_iff.1 h
      exact Value.timely_map.2 (timely_singles hes).entries
    · obtain ⟨es, hes, ⟨⟩⟩ := bind_eq_ok_iff.1 h
      exact Value.timely_list.2
        (List.forall_mem_map.2 fun e he => Value.timely_pair.2 (timely_singles hes e he))
    · cases h
  | mapping tag merged own =>
    unfold value at h
    split at h
    · obtain ⟨first, hfirst, h⟩ := bind_eq_ok_iff.1 h
      obtain ⟨es, hes, ⟨⟩⟩ := bind_eq_ok_iff.1 h
      exact Value.timely_map.2 ((timely_pairs hfirst).append (timely_pairs hes)).entries
    · obtain ⟨first, hfirst, h⟩ := bind_eq_ok_iff.1 h
      obtain ⟨es, hes, ⟨⟩⟩ := bind_eq_ok_iff.1 h
      have hmembers := ((timely_pairs hfirst).append (timely_pairs hes)).distinct
      exact Value.timely_list.2 (List.forall_mem_map.2 fun e he => (hmembers e he).1)
    · cases h

theorem timely_values {legacy : Bool} {ns : List Node} {vs : List Value}
    (h : values legacy ns = .ok vs) : ∀ v ∈ vs, v.Timely := by
  cases ns with
  | nil =>
    cases h
    simp
  | cons n ns =>
    obtain ⟨v, hv, h⟩ := bind_eq_ok_iff.1 h
    obtain ⟨vs, hvs, ⟨⟩⟩ := bind_eq_ok_iff.1 h
    exact List.forall_mem_cons.2 ⟨timely_value hv, timely_values hvs⟩

theorem timely_pairs {legacy distinct : Bool} {earlier : List Value} {ns : List (Node × Node)}
    {es : List (Value × Value)} (h : pairs legacy distinct earlier ns = .ok es) :
    TimelyEntries es := by
  cases ns with
  | nil =>
    cases h
    simp [TimelyEntries]
  | cons n ns =>
    obtain ⟨k, v⟩ := n
    obtain ⟨k', hk, h⟩ := bind_eq_ok_iff.1 h
    obtain ⟨v', hv, h⟩ := bind_eq_ok_iff.1 h
    obtain ⟨_, -, h⟩ := bind_eq_ok_iff.1 h
    obtain ⟨es, hes, ⟨⟩⟩ := bind_eq_ok_iff.1 h
    exact List.forall_mem_cons.2 ⟨⟨timely_value hk, timely_value hv⟩, timely_pairs hes⟩

theorem timely_singles {legacy : Bool} {ns : List Node} {es : List (Value × Value)}
    (h : singles legacy ns = .ok es) : TimelyEntries es := by
  match ns, h with
  | [], h =>
    cases h
    simp [TimelyEntries]
  | .mapping _ [] [(k, v)] :: ns, h =>
    obtain ⟨k', hk, h⟩ := bind_eq_ok_iff.1 h
    obtain ⟨v', hv, h⟩ := bind_eq_ok_iff.1 h
    obtain ⟨es, hes, ⟨⟩⟩ := bind_eq_ok_iff.1 h
    exact List.forall_mem_cons.2 ⟨⟨timely_value hk, timely_value hv⟩, timely_singles hes⟩
  | .scalar .. :: _, h | .sequence .. :: _, h | .mapping _ (_ :: _) _ :: _, h
  | .mapping _ [] [] :: _, h | .mapping _ [] (_ :: _ :: _) :: _, h => cases h

end

end Content

theorem Document.timely_values {fuel : Nat} {legacy bare : Bool} {ks : List Token} {vs : List Value}
    (h : values fuel legacy bare ks = .ok vs) : ∀ v ∈ vs, v.Timely := by
  induction fuel generalizing legacy bare ks vs with
  | zero => cases h
  | succ fuel ih =>
    unfold values at h
    split at h
    · cases h
    · cases h
      simp
    · obtain ⟨v, hv, h⟩ := Content.bind_eq_ok_iff.1 h
      obtain ⟨vs, hvs, ⟨⟩⟩ := Content.bind_eq_ok_iff.1 h
      exact List.forall_mem_cons.2 ⟨Content.timely_value hv, ih hvs⟩

theorem timely_of_documents {text : String} {vs : List Value} (h : documents text = .ok vs) :
    ∀ v ∈ vs, v.Timely := by
  simp only [documents] at h
  split at h
  · cases h
  · exact Document.timely_values h

end PolicyAudit.Yaml
