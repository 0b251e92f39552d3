import Mathlib.Data.List.Basic
import PolicyAudit.Proofs.Cluster.Listing

/-! What comes of the objects listed.
An object is read under its own kind, or under the kind listed if it names none, and is a report or
is skipped with a warning. A listing gets over any object so long as its kind is no collection;
anything else breaks it, and the reports of the objects before are lost with it
(`reports_of_breaks`). -/

namespace PolicyAudit.Cluster

variable {item : Value} {f : Failure} {variant : Variant}

def underKind (variant : Variant) : Value → Value
  | .map es =>
    let kind := Value.orElse (Entries.get? es "kind") (.text variant.kind)
    .map (Entries.put es (.text "kind") kind)
  | v => v

def report? (variant : Variant) (item : Value) : Option Audit :=
  (Report.parse (underKind variant item)).toOption

def warning? (variant : Variant) (item : Value) : Option Record :=
  match Report.parse (underKind variant item) with
  | .ok _ => none
  | .error e => some (skipped e)

/-- What a listing gets over: a record whose kind, unless it counts as missing, is no collection. -/
structure IsObject (item : Value) : Prop where
  record : ∃ es, item = .map es
  kind : ∀ kind, item.get? "kind" = some kind → ¬ kind.isNothing →
    (∀ vs, kind ≠ .list vs) ∧ ∀ es, kind ≠ .map es

inductive Breaks : Value → Failure → Prop
  | noFields {item : Value} (h : ∀ es, item ≠ .map es) : Breaks item .noFields
  | compoundKind {es : Entries} {kind : Value} (hkind : Entries.get? es "kind" = some kind)
    (hfilled : ¬ kind.isNothing) (hcompound : (∃ vs, kind = .list vs) ∨ ∃ es', kind = .map es') :
    Breaks (.map es) .compoundKind

theorem isObject_or_breaks (item : Value) : IsObject item ∨ ∃ f, Breaks item f := by
  cases item with
  | map es =>
    by_cases h : ∃ kind, Entries.get? es "kind" = some kind ∧ ¬ kind.isNothing ∧
        ((∃ vs, kind = .list vs) ∨ ∃ es', kind = .map es')
    · obtain ⟨kind, hkind, hfilled, hcompound⟩ := h
      exact .inr ⟨_, .compoundKind hkind hfilled hcompound⟩
    · refine .inl ⟨⟨es, rfl⟩, fun kind hkind hfilled => ⟨fun vs hvs => ?_, fun es' hes' => ?_⟩⟩
      · exact h ⟨kind, hkind, hfilled, .inl ⟨vs, hvs⟩⟩
      · exact h ⟨kind, hkind, hfilled, .inr ⟨es', hes'⟩⟩
  | _ => exact .inr ⟨_, .noFields nofun⟩

theorem isObject_of_kind {es : Entries} {kind : Value} (h : Entries.get? es "kind" = some kind)
    (hkind : kind = .null ∨ ∃ s, kind = .text s) : IsObject (.map es) := by
  refine ⟨⟨es, rfl⟩, fun k hk _ => ?_⟩
  obtain rfl := Option.some.inj (h.symm.trans hk)
  rcases hkind with rfl | ⟨s, rfl⟩ <;> simp

theorem isObject_of_no_kind {es : Entries} (h : Entries.get? es "kind" = none) :
    IsObject (.map es) := by
  refine ⟨⟨es, rfl⟩, fun k hk => ?_⟩
  cases h.symm.trans hk

theorem get?_kind_underKind (es : Entries) :
    (underKind variant (.map es)).get? "kind" =
      some (Value.orElse (Entries.get? es "kind") (.text variant.kind)) :=
  Entries.get?_put_self ..

theorem orElse_cases (v : Option Value) (fallback : Value) :
    Value.orElse v fallback = fallback ∨
      ∃ w, v = some w ∧ ¬ w.isNothing ∧ Value.orElse v fallback = w := by
  cases v with
  | none => exact .inl rfl
  | some w =>
    by_cases hw : w.isNothing
    · exact .inl (if_pos hw)
    · exact .inr ⟨w, rfl, hw, if_neg hw⟩

theorem parse_eq_compoundKind_iff {doc kind : Value} (h : doc.get? "kind" = some kind) :
    Report.parse doc = .error .compoundKind ↔ (∃ vs, kind = .list vs) ∨ ∃ es, kind = .map es := by
  -- Once the kind is known only fields are read, and no field is refused for a compound kind.
  have hread (v : Variant) : Report.variantOf kind = .ok v →
      Report.parse doc ≠ .error .compoundKind := by
    intro hv
    rw [Report.parse, h, Option.getD_some, hv]
    simp only [bind, Except.bind]
    split <;> nofun
  have hrefused (e : Report.Refusal) : Report.variantOf kind = .error e →
      Report.parse doc = .error e := by
    intro he
    rw [Report.parse, h, Option.getD_some, he]
    rfl
  cases kind with
  | list vs => simp [hrefused .compoundKind rfl]
  | map es => simp [hrefused .compoundKind rfl]
  | text s =>
    cases hs : Variant.ofKind? s with
    | none =>
      have := hrefused (.otherKind (.text s)) (by simp only [Report.variantOf, hs])
      simp [this]
    | some v => simp [hread v (by simp only [Report.variantOf, hs])]
  | _ => simp [hrefused _ rfl]

theorem judge_map (es : Entries) : judge variant (.map es) =
    match Report.parse (underKind variant (.map es)) with
    | .error .compoundKind => .error Failure.compoundKind
    | read => .ok read := rfl

theorem judge_of_isObject (h : IsObject item) :
    judge variant item = .ok (Report.parse (underKind variant item)) := by
  obtain ⟨es, rfl⟩ := h.record
  have hparse : Report.parse (underKind variant (.map es)) ≠ .error .compoundKind := by
    rw [Ne, parse_eq_compoundKind_iff (get?_kind_underKind es)]
    rcases orElse_cases (Entries.get? es "kind") (.text variant.kind) with
      hk | ⟨kind, hkind, hfilled, hk⟩
    · rw [hk]
      simp
    · rw [hk]
      obtain ⟨hlist, hmap⟩ := h.kind kind hkind hfilled
      rintro (⟨vs, hvs⟩ | ⟨es', hes'⟩)
      · exact hlist vs hvs
      · exact hmap es' hes'
  rw [judge_map]
  split
  · contradiction
  · rfl

theorem judge_of_breaks (h : Breaks item f) : judge variant item = .error f := by
  cases h with
  | noFields h =>
    cases item with
    | map es => exact absurd rfl (h es)
    | _ => rfl
  | @compoundKind es kind hkind hfilled hcompound =>
    have hparse : Report.parse (underKind variant (.map es)) = .error .compoundKind := by
      rw [parse_eq_compoundKind_iff (get?_kind_underKind es), hkind]
      rwa [show Value.orElse (some kind) _ = kind from if_neg hfilled]
    rw [judge_map, hparse]

theorem reports_cons_of_isObject (h : IsObject item) (items : List Value) :
    reports variant (item :: items) =
      ((warning? variant item).toList ++ (reports variant items).1,
        (reports variant items).2.map ((report? variant item).toList ++ ·)) := by
  rw [reports, judge_of_isObject h, report?, warning?]
  cases Report.parse (underKind variant item) with
  | ok r => rfl
  | error e => cases (reports variant items).2 <;> simp [Except.map, Except.toOption]

theorem reports_append (variant : Variant) {before : List Value}
    (h : ∀ item ∈ before, IsObject item) (after : List Value) : reports variant (before ++ after) =
      (before.filterMap (warning? variant) ++ (reports variant after).1,
        (reports variant after).2.map (before.filterMap (report? variant) ++ ·)) := by
  induction before with
  | nil => cases h : (reports variant after).2 <;> simp [h, Except.map, Prod.ext_iff]
  | cons item before ih =>
    rw [List.forall_mem_cons] at h
    rw [List.cons_append, reports_cons_of_isObject h.1, ih h.2]
    simp only [List.filterMap_eq_flatMap_toList, List.flatMap_cons, List.append_assoc]
    cases (reports variant after).2 <;> simp [Except.map]

theorem reports_of_objects (variant : Variant) {items : List Value}
    (h : ∀ item ∈ items, IsObject item) :
    reports variant items =
      (items.filterMap (warning? variant), .ok (items.filterMap (report? variant))) := by
  have hall := reports_append variant h []
  simpa [reports, Except.map] using hall

theorem reports_of_breaks (variant : Variant) {before : List Value}
    (hbefore : ∀ item ∈ before, IsObject item) (h : Breaks item f) (after : List Value) :
    reports variant (before ++ item :: after) =
      (before.filterMap (warning? variant), .error f) := by
  rw [reports_append variant hbefore, reports, judge_of_breaks h]
  simp [Except.map]

theorem objects_or_first_breaks (items : List Value) : (∀ item ∈ items, IsObject item) ∨
    ∃ before item after f, items = before ++ item :: after ∧ (∀ i ∈ before, IsObject i) ∧
      Breaks item f := by
  classical
  cases h : items.find? fun i => ¬ IsObject i with
  | none => exact .inl fun i hi => by simpa using List.find?_eq_none.1 h i hi
  | some item =>
    obtain ⟨hitem, before, after, rfl, hbefore⟩ := List.find?_eq_some_iff_append.1 h
    obtain ⟨f, hf⟩ := (isObject_or_breaks item).resolve_left (by simpa using hitem)
    exact .inr ⟨before, item, after, f, rfl, fun i hi => by simpa using hbefore i hi, hf⟩

theorem report?_or_warning? (variant : Variant) (item : Value) :
    (∃ r, Report.parse (underKind variant item) = .ok r ∧
      report? variant item = some r ∧ warning? variant item = none) ∨
    ∃ e, Report.parse (underKind variant item) = .error e ∧
      report? variant item = none ∧ warning? variant item = some (skipped e) := by
  unfold report? warning?
  cases Report.parse (underKind variant item) with
  | ok r => exact .inl ⟨r, rfl, rfl, rfl⟩
  | error e => exact .inr ⟨e, rfl, rfl, rfl⟩

theorem isPage_items (items : List Value) : IsPage (.record [("items", .list items)]) := by
  refine ⟨⟨_, rfl⟩, fun v hv => ?_, nofun⟩
  obtain rfl := Option.some.inj hv
  exact .inr ⟨_, rfl⟩

theorem exists_answer_replyAt {script : List Reply} (h : ∀ r ∈ script, ∃ body, r = .answer body)
    (i : Nat) : ∃ body, replyAt script i = .answer body := by
  unfold replyAt
  cases hi : script[i]? with
  | none => exact ⟨emptyPage, rfl⟩
  | some r => exact h r (List.mem_of_getElem? hi)

/-- A listing of pages returns just if all that is listed are objects. Then each is a report in its
place or a warning, by itself. Otherwise the first thing that is no object ends the listing after
the warnings before it. -/
theorem list_returns_iff_objects (variant : Variant) {script : List Reply}
    (hpages : ∀ r ∈ script, ∃ body, r = .answer body ∧ IsPage body) :
    ∃ k ≤ script.length, EndsAt script k ∧
      let items := itemsUpTo script k
      let found := list variant script
      ((∃ rs, found.result = .ok rs) ↔ ∀ item ∈ items, IsObject item) ∧
      ((∀ item ∈ items, IsObject item) →
        found.result = .ok (items.filterMap (report? variant)) ∧
        found.log = listed variant items.length :: items.filterMap (warning? variant) ∧
        ∀ item ∈ items,
          (∃ r, Report.parse (underKind variant item) = .ok r ∧
            report? variant item = some r ∧ warning? variant item = none) ∨
          ∃ e, Report.parse (underKind variant item) = .error e ∧
            report? variant item = none ∧ warning? variant item = some (skipped e)) ∧
      ∀ before item after f, items = before ++ item :: after → (∀ i ∈ before, IsObject i) →
        Breaks item f → found.result = .error f ∧
          found.log = listed variant items.length :: before.filterMap (warning? variant) := by
  obtain ⟨k, hk, hend⟩ := exists_endsAt script
  refine ⟨k, hk, hend, ?_⟩
  intro items found
  have hbodies : ∀ body, .answer body ∈ script → IsPage body := by
    intro body hbody
    obtain ⟨_, h, hpage⟩ := hpages _ hbody
    exact Reply.answer.inj h ▸ hpage
  obtain ⟨body, hbody⟩ :=
    exists_answer_replyAt (fun r hr => (hpages r hr).imp fun _ h => h.1) k
  have hfound : found = _ := list_of_answer hbodies hend variant hbody
  have hobjects (h : ∀ item ∈ items, IsObject item) :
      found.result = .ok (items.filterMap (report? variant)) ∧
      found.log = listed variant items.length :: items.filterMap (warning? variant) := by
    rw [hfound, reports_of_objects variant h]
    exact ⟨rfl, rfl⟩
  have hbreaks {before after : List Value} {item : Value} {f : Failure}
      (hitems : items = before ++ item :: after) (hbefore : ∀ i ∈ before, IsObject i)
      (hf : Breaks item f) : found.result = .error f ∧
        found.log = listed variant items.length :: before.filterMap (warning? variant) := by
    have hreports := reports_of_breaks variant hbefore hf after
    rw [← hitems] at hreports
    rw [hfound, hreports]
    exact ⟨rfl, rfl⟩
  refine ⟨⟨?_, fun h => ⟨_, (hobjects h).1⟩⟩, fun h => ?_, fun _ _ _ _ => hbreaks⟩
  · rintro ⟨rs, hrs⟩
    -- What breaks the listing first would have ended it, and it returned.
    rcases objects_or_first_breaks items with h | ⟨before, item, after, f, hitems, hbefore, hf⟩
    · exact h
    · rw [(hbreaks hitems hbefore hf).1] at hrs
      cases hrs
  · exact ⟨(hobjects h).1, (hobjects h).2, fun item _ => report?_or_warning? variant item⟩

/-- An object without a name is skipped, one that names another kind is read as it says, and null
breaks the listing. -/
theorem list_returns_iff_objects_mixed :
    let item (kind : Value) (name : String) : Value :=
      .record [("kind", kind), ("metadata", .record [("name", .text name)])]
    let a := item .null "a"
    let unnamed : Value := .record [("metadata", .record [])]
    let b := item (.text "ClusterPolicyReport") "b"
    let script (items : List Value) : List Reply := [.answer (.record [("items", .list items)])]
    (∃ rs, (list .namespaced (script [a, unnamed, b])).result = .ok rs ∧
      rs.map (fun r => (r.variant, r.metadata.name)) =
        [(.namespaced, some "a"), (.clusterWide, some "b")]) ∧
    (list .namespaced (script [a, unnamed, b])).log =
      [listed .namespaced 3, ⟨.warning, .cluster, "skipping object: metadata.name:missing"⟩] ∧
    (list .namespaced (script [a, .null, b])).result = .error .noFields := by
  intro item a unnamed b script
  have hpages (items : List Value) :
      ∀ r ∈ script items, ∃ body, r = .answer body ∧ IsPage body := by
    intro r hr
    obtain rfl := List.mem_singleton.1 hr
    exact ⟨_, rfl, isPage_items items⟩
  have ha : IsObject a := isObject_of_kind rfl (.inl rfl)
  have hb : IsObject b := isObject_of_kind rfl (.inr ⟨_, rfl⟩)
  have hunnamed : IsObject unnamed := isObject_of_no_kind rfl
  have hobjects : ∀ i ∈ [a, unnamed, b], IsObject i := by simp [ha, hb, hunnamed]
  obtain ⟨k, -, hk, -, hall, -⟩ := list_returns_iff_objects .namespaced (hpages [a, unnamed, b])
  obtain rfl : k = 0 := hk.eq_zero rfl
  obtain ⟨hresult, hlog, -⟩ := hall hobjects
  obtain ⟨j, -, hj, -, -, hbreaks⟩ := list_returns_iff_objects .namespaced (hpages [a, .null, b])
  obtain rfl : j = 0 := hj.eq_zero rfl
  have hnull := hbreaks [a] .null [b] _ rfl (by simp [ha]) (.noFields nofun)
  exact ⟨⟨_, hresult, rfl⟩, hlog, hnull.1⟩

theorem not_all_items_skipped :
    ¬ ∀ (variant : Variant) (script : List Reply),
      (∀ r ∈ script, ∃ body, r = .answer body ∧ IsPage body) →
      ∃ rs, (list variant script).result = .ok rs := by
  intro h
  let ok : Value :=
    .record [("metadata", .record [("name", .text "ok"), ("namespace", .text "ns")])]
  let page : Value := .record [("items", .list [.null, ok])]
  obtain ⟨rs, hrs⟩ := h .namespaced [.answer page]
    (fun r hr => ⟨page, List.mem_singleton.1 hr, isPage_items _⟩)
  have hfails : (list .namespaced [.answer page]).result = .error .noFields := rfl
  exact absurd (hfails.symm.trans hrs) nofun

end PolicyAudit.Cluster
