import PolicyAudit.Proofs.Cluster.Items

/-! What a listing comes to.
It passes, with the reports of its objects or, without permission, with none; or its last reply is
another refusal and it fails with that. Its calls and its outcome follow from its own script, so the
two listings of a run have nothing to do with each other but that the second is not begun when the
first fails. -/

namespace PolicyAudit.Cluster

structure Served (script : List Reply) : Prop where
  isPage : ∀ body, .answer body ∈ script → IsPage body
  isObject : ∀ body, .answer body ∈ script → ∀ item ∈ itemsOf body, IsObject item

namespace Served

theorem nil : Served [] := ⟨nofun, nofun⟩

theorem answer {script : List Reply} {body : Value} (h : Served script) (hbody : IsPage body)
    (hitems : ∀ item ∈ itemsOf body, IsObject item) : Served (.answer body :: script) := by
  refine ⟨fun b hb => ?_, fun b hb => ?_⟩
  · rcases List.mem_cons.1 hb with hb | hb
    · exact Reply.answer.inj hb ▸ hbody
    · exact h.isPage b hb
  · rcases List.mem_cons.1 hb with hb | hb
    · exact Reply.answer.inj hb ▸ hitems
    · exact h.isObject b hb

theorem refusal {script : List Reply} (h : Served script) (status : Int) (reason : Option String) :
    Served (.refusal status reason :: script) :=
  ⟨fun b hb => h.isPage b ((List.mem_cons.1 hb).resolve_left nofun),
    fun b hb => h.isObject b ((List.mem_cons.1 hb).resolve_left nofun)⟩

end Served

def onePage (items : List Value) : List Reply := [.answer (.record [("items", .list items)])]

theorem served_onePage {items : List Value} (h : ∀ item ∈ items, IsObject item) :
    Served (onePage items) :=
  Served.nil.answer (isPage_items items) h

/-- The objects that a listing comes to; without an answer in the end there are none. -/
def objectsUpTo (script : List Reply) (k : Nat) : List Value :=
  match replyAt script k with
  | .answer _ => itemsUpTo script k
  | .refusal .. => []

def reportsUpTo (variant : Variant) (script : List Reply) (k : Nat) : List Audit :=
  (objectsUpTo script k).filterMap (report? variant)

/-- The last reply is no refusal, unless for want of permission. -/
def Passes (script : List Reply) (k : Nat) : Prop :=
  ∀ status reason, replyAt script k = .refusal status reason → status = 401 ∨ status = 403

variable {script : List Reply} {k : Nat}

theorem passes_or_refused (script : List Reply) (k : Nat) : Passes script k ∨
    ∃ status reason, replyAt script k = .refusal status reason ∧
      ¬ (status = 401 ∨ status = 403) := by
  by_cases h : Passes script k
  · exact .inl h
  · simp only [Passes, not_forall] at h
    obtain ⟨status, reason, hreply, hstatus⟩ := h
    exact .inr ⟨status, reason, hreply, hstatus⟩

theorem passes_of_answer {body : Value} (h : replyAt script k = .answer body) :
    Passes script k := by
  intro status reason hreply
  cases h.symm.trans hreply

theorem isObject_of_mem_itemsUpTo (hserved : Served script) {item : Value}
    (h : item ∈ itemsUpTo script k) : IsObject item := by
  obtain ⟨i, -, h⟩ := List.mem_flatMap.1 h
  unfold replyAt at h
  cases hi : script[i]? with
  | none =>
    rw [hi] at h
    cases h
  | some r =>
    rw [hi] at h
    cases r with
    | answer body => exact hserved.isObject body (List.mem_of_getElem? hi) item h
    | refusal => cases h

theorem isObject_of_mem_objectsUpTo (hserved : Served script) {item : Value}
    (h : item ∈ objectsUpTo script k) : IsObject item := by
  unfold objectsUpTo at h
  split at h
  · exact isObject_of_mem_itemsUpTo hserved h
  · cases h

theorem reportsUpTo_of_refusal (variant : Variant) {status : Int} {reason : Option String}
    (h : replyAt script k = .refusal status reason) : reportsUpTo variant script k = [] := by
  rw [reportsUpTo, objectsUpTo, h]
  rfl

theorem result_list_of_items {variant : Variant} {items : List Value}
    (h : (objects variant script).result = .ok items) :
    (list variant script).result = (reports variant items).2 := by
  simp only [list, h]

theorem result_list_of_failure {variant : Variant} {f : Failure}
    (h : (objects variant script).result = .error f) : (list variant script).result = .error f := by
  simp only [list, h]

section

variable (hserved : Served script) (hend : EndsAt script k) (variant : Variant)

include hserved hend

theorem calls_list : (list variant script).calls = callsUpTo variant script k := by
  rw [← calls_objects hserved.isPage hend variant]
  unfold list
  dsimp only
  split <;> rfl

theorem result_list_of_passes (h : Passes script k) :
    (list variant script).result = .ok (reportsUpTo variant script k) := by
  have hitems : (objects variant script).result = .ok (objectsUpTo script k) := by
    unfold objectsUpTo
    cases hreply : replyAt script k with
    | answer body => rw [objects_of_answer hserved.isPage hend variant hreply]
    | refusal status reason =>
      -- The objects of the pages before the refusal are given up too.
      rw [objects_of_refusal hserved.isPage hend variant hreply]
      exact if_pos (isForbidden_iff.2 (h status reason hreply))
  rw [result_list_of_items hitems, reports_of_objects variant fun _ hitem =>
    isObject_of_mem_objectsUpTo hserved hitem]
  rfl

theorem result_list_of_refusal {status : Int} {reason : Option String}
    (h : replyAt script k = .refusal status reason) (hstatus : ¬ (status = 401 ∨ status = 403)) :
    (list variant script).result = .error (.refused status reason) := by
  apply result_list_of_failure
  rw [objects_of_refusal hserved.isPage hend variant h]
  exact if_neg (isForbidden_iff.not.2 hstatus)

end

section

variable {replies : Variant → List Reply}

theorem listAll_of_error {f : Failure} (skip : Bool)
    (h : (list .namespaced (replies .namespaced)).result = .error f) :
    (listAll skip replies).calls = (list .namespaced (replies .namespaced)).calls ∧
    (listAll skip replies).result = .error f := by
  simp only [listAll, h, and_self]

theorem listAll_skipping {rs : List Audit}
    (h : (list .namespaced (replies .namespaced)).result = .ok rs) :
    (listAll true replies).calls = (list .namespaced (replies .namespaced)).calls ∧
    (listAll true replies).result = .ok rs := by
  simp only [listAll, h]
  exact ⟨rfl, rfl⟩

theorem listAll_both {rs : List Audit}
    (h : (list .namespaced (replies .namespaced)).result = .ok rs) :
    (listAll false replies).calls = (list .namespaced (replies .namespaced)).calls ++
      (list .clusterWide (replies .clusterWide)).calls ∧
    (listAll false replies).result =
      (list .clusterWide (replies .clusterWide)).result.map (rs ++ ·) := by
  simp only [listAll, h]
  exact ⟨rfl, rfl⟩

end

end PolicyAudit.Cluster
