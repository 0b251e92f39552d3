import PolicyAudit.Cluster.Listing

/-! What a listing asks for and what comes of it.
A script holds the replies to the calls, after which pages are empty. The first reply that is a
refusal or names no continuation ends the listing, and there is one at the latest after the script
(`exists_endsAt`). The replies up to there decide on all that a listing does (`pages_of_endsAt`). -/

namespace PolicyAudit.Cluster

structure IsPage (body : Value) : Prop where
  record : ∃ es, body = .map es
  items : ∀ v, body.get? "items" = some v → v = .null ∨ ∃ vs, v = .list vs
  metadata : ∀ v, body.get? "metadata" = some v → v = .null ∨ ∃ es, v = .map es

def itemsOf (body : Value) : List Value :=
  match body.get? "items" with
  | some (.list vs) => vs
  | _ => []

def continuationOf (body : Value) : Value :=
  ((body.get? "metadata").bind (·.get? "continue")).getD .null

namespace Reply

def items : Reply → List Value
  | .answer body => itemsOf body
  | .refusal .. => []

def continuation : Reply → Value
  | .answer body => continuationOf body
  | .refusal .. => .null

def isLast : Reply → Bool
  | .answer body => (continuationOf body).isNothing
  | .refusal .. => true

end Reply

def emptyPage : Value := .record [("items", .list [])]

/-- The reply to a call; after the script, pages are empty. -/
def replyAt (script : List Reply) (i : Nat) : Reply := script[i]?.getD (.answer emptyPage)

/-- The first reply that ends the listing is the one at `k`. -/
def EndsAt (script : List Reply) (k : Nat) : Prop :=
  (replyAt script k).isLast ∧ ∀ i < k, ¬ (replyAt script i).isLast

def itemsUpTo (script : List Reply) (k : Nat) : List Value :=
  (List.range (k + 1)).flatMap fun i => (replyAt script i).items

theorem members_items {body : Value} (h : IsPage body) :
    members (Value.orElse (some ((body.get? "items").getD .null)) (.list [])) =
      .ok (itemsOf body) := by
  unfold itemsOf
  cases hv : body.get? "items" with
  | none => rfl
  | some v =>
    rcases h.items v hv with rfl | ⟨vs, rfl⟩
    · rfl
    · cases vs <;> rfl

theorem field_continue {body : Value} (h : IsPage body) :
    field (Value.orElse (some ((body.get? "metadata").getD .null)) (.map [])) "continue" =
      .ok (continuationOf body) := by
  unfold continuationOf
  cases hv : body.get? "metadata" with
  | none => rfl
  | some v =>
    rcases h.metadata v hv with rfl | ⟨es, rfl⟩
    · rfl
    · cases es <;> rfl

theorem page_of_isPage {body : Value} (h : IsPage body) :
    page body = .ok (itemsOf body, continuationOf body) := by
  have hfield (name : String) : field body name = .ok ((body.get? name).getD .null) := by
    obtain ⟨es, rfl⟩ := h.record
    rfl
  have hitems := members_items h
  have hcontinue := field_continue h
  unfold page
  simp only [hfield, bind, Except.bind, hitems, hcontinue]
  rfl

@[simp] theorem replyAt_zero (r : Reply) (script : List Reply) : replyAt (r :: script) 0 = r := rfl

@[simp] theorem replyAt_succ (r : Reply) (script : List Reply) (i : Nat) :
    replyAt (r :: script) (i + 1) = replyAt script i := by
  simp [replyAt]

theorem endsAt_zero {script : List Reply} (h : (replyAt script 0).isLast) : EndsAt script 0 :=
  ⟨h, fun _ hi => absurd hi (Nat.not_lt_zero _)⟩

theorem endsAt_succ_iff {r : Reply} {script : List Reply} {k : Nat} :
    EndsAt (r :: script) (k + 1) ↔ ¬ r.isLast ∧ EndsAt script k := by
  unfold EndsAt
  rw [replyAt_succ, Nat.forall_lt_succ_left]
  simp only [replyAt_zero, replyAt_succ]
  exact and_left_comm

theorem exists_endsAt (script : List Reply) : ∃ k ≤ script.length, EndsAt script k := by
  induction script with
  | nil => exact ⟨0, Nat.le_refl _, endsAt_zero rfl⟩
  | cons r script ih =>
    by_cases hr : r.isLast
    · exact ⟨0, Nat.zero_le _, endsAt_zero hr⟩
    · obtain ⟨k, hk, hend⟩ := ih
      exact ⟨k + 1, Nat.succ_le_succ hk, endsAt_succ_iff.2 ⟨hr, hend⟩⟩

theorem EndsAt.unique {script : List Reply} {j k : Nat} (hj : EndsAt script j)
    (hk : EndsAt script k) : j = k := by
  rcases Nat.lt_trichotomy j k with h | h | h
  · exact absurd hj.1 (hk.2 j h)
  · exact h
  · exact absurd hk.1 (hj.2 k h)

theorem EndsAt.eq_zero {script : List Reply} {k : Nat} (h : EndsAt script k)
    (hlast : (replyAt script 0).isLast) : k = 0 :=
  Nat.eq_zero_of_not_pos fun hk => h.2 0 hk hlast

@[simp] theorem itemsUpTo_zero (script : List Reply) :
    itemsUpTo script 0 = (replyAt script 0).items := by
  simp [itemsUpTo]

theorem itemsUpTo_succ (r : Reply) (script : List Reply) (k : Nat) :
    itemsUpTo (r :: script) (k + 1) = r.items ++ itemsUpTo script k := by
  unfold itemsUpTo
  rw [List.range_succ_eq_map, List.flatMap_cons, List.flatMap_map]
  simp only [replyAt_zero, replyAt_succ]

def ending (script : List Reply) (k : Nat) : Except Stop (List Value) :=
  match replyAt script k with
  | .answer _ => .ok (itemsUpTo script k)
  | .refusal status reason =>
    .error (if isForbidden status then .forbidden else .failed (.refused status reason))

theorem ending_succ (r : Reply) (script : List Reply) (k : Nat) :
    ending (r :: script) (k + 1) = (ending script k).map (r.items ++ ·) := by
  unfold ending
  rw [replyAt_succ, itemsUpTo_succ]
  cases replyAt script k <;> rfl

theorem pages_of_endsAt {script : List Reply} (hpages : ∀ body, .answer body ∈ script → IsPage body)
    {k : Nat} (hend : EndsAt script k) (start : Value) :
    pages start script =
      ⟨start :: (List.range k).map fun i => (replyAt script i).continuation, ending script k⟩ := by
  induction script generalizing k start with
  | nil =>
    obtain rfl := hend.eq_zero rfl
    rfl
  | cons r script ih =>
    have hrest : ∀ body, .answer body ∈ script → IsPage body :=
      fun body hb => hpages body (List.mem_cons_of_mem _ hb)
    cases r with
    | refusal status reason =>
      obtain rfl := hend.eq_zero rfl
      rfl
    | answer body =>
      rw [pages, page_of_isPage (hpages body List.mem_cons_self)]
      by_cases hlast : (continuationOf body).isNothing
      · obtain rfl := hend.eq_zero hlast
        simp [hlast, ending, Reply.items]
      · cases k with
        | zero => exact absurd hend.1 hlast
        | succ k =>
          rw [ending_succ, List.range_succ_eq_map, List.map_cons, List.map_map]
          simp only [hlast, ih hrest (endsAt_succ_iff.1 hend).2]
          rfl

def callsUpTo (variant : Variant) (script : List Reply) (k : Nat) : List Call :=
  ⟨variant, .null⟩ :: (List.range k).map fun i => ⟨variant, (replyAt script i).continuation⟩

def listed (variant : Variant) (n : Nat) : Record :=
  ⟨.debug, .cluster, "listed " ++ toString n ++ " " ++ variant.plural⟩

def unpermitted (variant : Variant) : Record :=
  ⟨.warning, .cluster, "no permission to list " ++ variant.plural ++ "." ++ group ++ ", skipping"⟩

theorem isForbidden_iff {status : Int} : isForbidden status ↔ status = 401 ∨ status = 403 := by
  simp [isForbidden]

section

variable {script : List Reply} (hpages : ∀ body, .answer body ∈ script → IsPage body) {k : Nat}
  (hend : EndsAt script k) (variant : Variant)

include hpages hend

theorem calls_objects : (objects variant script).calls = callsUpTo variant script k := by
  have hcalls : (objects variant script).calls =
      (pages .null script).continuations.map (Call.mk variant) := by
    unfold objects
    dsimp only
    split <;> rfl
  rw [hcalls, pages_of_endsAt hpages hend, List.map_cons, List.map_map]
  rfl

theorem objects_of_answer {body : Value} (h : replyAt script k = .answer body) :
    objects variant script = ⟨callsUpTo variant script k,
      [listed variant (itemsUpTo script k).length], .ok (itemsUpTo script k)⟩ := by
  have hitems : (pages .null script).items = .ok (itemsUpTo script k) := by
    rw [pages_of_endsAt hpages hend, ending, h]
  rw [← calls_objects hpages hend variant]
  simp only [objects, hitems]
  rfl

theorem objects_of_refusal {status : Int} {reason : Option String}
    (h : replyAt script k = .refusal status reason) :
    objects variant script = ⟨callsUpTo variant script k,
      if isForbidden status then [unpermitted variant] else [],
      if isForbidden status then .ok [] else .error (.refused status reason)⟩ := by
  have hitems : (pages .null script).items =
      .error (if isForbidden status then .forbidden else .failed (.refused status reason)) := by
    rw [pages_of_endsAt hpages hend, ending, h]
  rw [← calls_objects hpages hend variant]
  by_cases hs : isForbidden status
  · rw [if_pos hs] at hitems
    simp only [objects, hitems, if_pos hs]
    rfl
  · rw [if_neg hs] at hitems
    simp only [objects, hitems, if_neg hs]

theorem list_of_answer {body : Value} (h : replyAt script k = .answer body) :
    list variant script = ⟨callsUpTo variant script k,
      listed variant (itemsUpTo script k).length :: (reports variant (itemsUpTo script k)).1,
      (reports variant (itemsUpTo script k)).2⟩ := by
  rw [list, objects_of_answer hpages hend variant h]
  rfl

end

/-- A listing ends at the latest with the call after the script. It asks for each page where the
page before says, and comes to the objects of all pages or to none of them. The reports listed
follow from the objects and not from the pages they came in. -/
theorem objects_complete_or_none (variant : Variant) {script : List Reply}
    (hpages : ∀ body, .answer body ∈ script → IsPage body) :
    ∃ k ≤ script.length, EndsAt script k ∧
      let found := objects variant script
      found.calls.length = k + 1 ∧ found.calls[0]? = some ⟨variant, .null⟩ ∧
      (∀ i < k, found.calls[i + 1]? = some ⟨variant, (replyAt script i).continuation⟩) ∧
      (∀ body, replyAt script k = .answer body → found.result = .ok (itemsUpTo script k)) ∧
      (∀ status reason, replyAt script k = .refusal status reason →
        (status = 401 ∨ status = 403 →
          found.result = .ok [] ∧ found.log = [unpermitted variant]) ∧
        (¬ (status = 401 ∨ status = 403) → found.result = .error (.refused status reason))) ∧
      ∀ (script' : List Reply) (k' : Nat), (∀ body, .answer body ∈ script' → IsPage body) →
        EndsAt script' k' → itemsUpTo script' k' = itemsUpTo script k →
        ∀ body body', replyAt script k = .answer body → replyAt script' k' = .answer body' →
          (list variant script').result = (list variant script).result ∧
          (list variant script').log = (list variant script).log := by
  obtain ⟨k, hk, hend⟩ := exists_endsAt script
  refine ⟨k, hk, hend, ?_⟩
  intro found
  have hcalls : found.calls = callsUpTo variant script k := calls_objects hpages hend variant
  refine ⟨?_, ?_, ?_, ?_, ?_, ?_⟩
  · rw [hcalls, callsUpTo, List.length_cons, List.length_map, List.length_range]
  · rw [hcalls]
    rfl
  · intro i hi
    rw [hcalls, callsUpTo, List.getElem?_cons_succ, List.getElem?_map,
      List.getElem?_range hi]
    rfl
  · intro body h
    exact congrArg Listing.result (objects_of_answer hpages hend variant h)
  · intro status reason h
    have hfound : found = _ := objects_of_refusal hpages hend variant h
    rw [hfound, ← isForbidden_iff]
    exact ⟨fun hs => ⟨if_pos hs, if_pos hs⟩, fun hs => if_neg hs⟩
  · intro script' k' hpages' hend' hitems body body' h h'
    rw [list_of_answer hpages hend variant h, list_of_answer hpages' hend' variant h', hitems]
    exact ⟨rfl, rfl⟩

/-- Three pages, the second without objects and with a number to continue at, are as good as one. -/
theorem objects_complete_or_none_three_pages :
    let item (name : String) : Value := .record [("metadata", .record [("name", .text name)])]
    let page (items continuation : Value) : Value :=
      .record [("items", items), ("metadata", .record [("continue", continuation)])]
    let script := [.answer (page (.list [item "a"]) (.text "x")), .answer (page .null (.int 7)),
      .answer (page (.list [item "b"]) (.bool false)), .refusal 500 none]
    let script' := [.answer (page (.list [item "a", item "b"]) .null)]
    (objects .namespaced script).result = .ok [item "a", item "b"] ∧
    (objects .namespaced script).calls[2]? = some ⟨.namespaced, .int 7⟩ ∧
    (list .namespaced script').result = (list .namespaced script).result := by
  intro item page script script'
  have hpage (items continuation : Value) (h : items = .null ∨ ∃ vs, items = .list vs) :
      IsPage (page items continuation) := by
    refine ⟨⟨_, rfl⟩, fun v hv => ?_, fun v hv => ?_⟩
    · obtain rfl := Option.some.inj hv
      exact h
    · obtain rfl := Option.some.inj hv
      exact .inr ⟨_, rfl⟩
  have hpages : ∀ body, .answer body ∈ script → IsPage body := by
    intro body hbody
    simp only [script, List.mem_cons, Reply.answer.injEq, reduceCtorEq, List.not_mem_nil,
      or_false] at hbody
    rcases hbody with rfl | rfl | rfl
    · exact hpage _ _ (.inr ⟨_, rfl⟩)
    · exact hpage _ _ (.inl rfl)
    · exact hpage _ _ (.inr ⟨_, rfl⟩)
  have hpages' : ∀ body, .answer body ∈ script' → IsPage body := by
    intro body hbody
    obtain rfl := Reply.answer.inj (List.mem_singleton.1 hbody)
    exact hpage _ _ (.inr ⟨_, rfl⟩)
  have hend : EndsAt script 2 := ⟨rfl, by decide⟩
  obtain ⟨k, -, hk, -, -, hcalls, hanswer, -, hsame⟩ :=
    objects_complete_or_none .namespaced hpages
  obtain rfl := hk.unique hend
  exact ⟨hanswer _ rfl, hcalls 1 (by decide),
    (hsame script' 0 hpages' (endsAt_zero rfl) rfl _ _ rfl rfl).1⟩

end PolicyAudit.Cluster
