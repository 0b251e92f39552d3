import PolicyAudit.Proofs.Cluster.Kinds
import PolicyAudit.Proofs.Command.Listings

/-! Runs that skip cluster-wide reports.
Reports from manifests are left out by their variant, which narrowing keeps, so such a run writes
what it writes otherwise without the cluster-wide reports. On a cluster it is their listing that is
left out. The two agree unless an object of the namespaced listing names the other kind itself: that
report is not skipped. -/

namespace PolicyAudit.Command

open Cluster Report
open Manifest (kind? load)

theorem narrowAll_chosen (s : Settings) (keep : Finding → Bool) (rs : List Audit) :
    narrowAll keep (s.chosen rs) = s.chosen (narrowAll keep rs) := by
  unfold Settings.chosen
  split
  · exact narrowAll_filter_variant keep (· ≠ .clusterWide) rs
  · rfl

theorem chosen_eq_self {s : Settings} {rs : List Audit} (h : ∀ r ∈ rs, r.variant ≠ .clusterWide) :
    s.chosen rs = rs := by
  unfold Settings.chosen
  split
  · exact List.filter_eq_self.2 fun r hr => decide_eq_true (h r hr)
  · rfl

theorem run_skipping_takes_first_listing {s : Settings} {w : Surroundings} (hpath : s.path? = none)
    (hskip : s.skipClusterWide = true) (hserved : Served (w.replies .namespaced)) :
    ∃ n, EndsAt (w.replies .namespaced) n ∧
      let script := w.replies .namespaced
      let items := objectsUpTo script n
      let rs := reportsUpTo .namespaced script n
      let criteria : Criteria := ⟨s.minimum, s.sources⟩
      let kept := narrowAll criteria.admits rs
      (run s w).calls = callsUpTo .namespaced script n ∧
      (∀ status reason, replyAt script n = .refusal status reason →
        ¬ (status = 401 ∨ status = 403) →
          (run s w).result = .ok (told (.cluster (.refused status reason)))) ∧
      (Passes script n → (run s w).result = written s kept) ∧
      kept.filter (·.variant = .clusterWide) = narrowAll criteria.admits
        ((items.filter (kind? · = some .clusterWide)).filterMap (report? .namespaced)) ∧
      ((∀ item ∈ items, kind? item ≠ some .clusterWide) →
        (∀ r ∈ kept, r.variant = .namespaced) ∧
        (Passes script n → ∀ (w' : Surroundings) (path : String), path ≠ "" →
          (load w'.files path).result = .ok rs →
          (run { s with manifests := some path } w').result = (run s w).result)) := by
  obtain ⟨n, -, hn⟩ := exists_endsAt (w.replies .namespaced)
  refine ⟨n, hn, ?_⟩
  intro script items rs criteria kept
  have hclusterWide : kept.filter (·.variant = .clusterWide) = narrowAll criteria.admits
      ((items.filter (kind? · = some .clusterWide)).filterMap (report? .namespaced)) := by
    have hne : Variant.clusterWide ≠ .namespaced := nofun
    rw [← filter_filterMap_report? hne]
    exact (narrowAll_filter_variant criteria.admits (· = .clusterWide) rs).symm
  have hresult := fun h => (run_skipping hpath hserved hn h hskip).2
  refine ⟨?_, ?_, hresult, hclusterWide, fun hitems => ?_⟩
  · rcases passes_or_refused script n with h | ⟨status, reason, hreply, hstatus⟩
    · exact (run_skipping hpath hserved hn h hskip).1
    · exact (run_of_first_refused hpath hserved hn hreply hstatus).1
  · intro status reason hreply hstatus
    exact (run_of_first_refused hpath hserved hn hreply hstatus).2
  · have hnone : items.filter (kind? · = some .clusterWide) = [] :=
      List.filter_eq_nil_iff.2 fun item hitem => by simpa using hitems item hitem
    rw [hnone] at hclusterWide
    have hkept : ∀ r ∈ kept, r.variant ≠ .clusterWide := fun r hr => by
      simpa using List.filter_eq_nil_iff.1 hclusterWide r hr
    refine ⟨fun r hr => ?_, fun h w' path hpath' hload => ?_⟩
    · cases hvariant : r.variant with
      | namespaced => rfl
      | clusterWide => exact absurd hvariant (hkept r hr)
    · -- The manifests hold no cluster-wide report either, so leaving those out changes nothing.
      have hsome : Settings.path? { s with manifests := some path } = some path := by
        simp [Settings.path?, Option.filter, hpath']
      rw [hresult h, result_run_of_loaded hsome hload, narrowAll_chosen]
      exact congrArg (written s) (chosen_eq_self hkept)

/-- An object that names the other kind is in the output with the flag; one that names none is read
as the kind listed, as it is from a manifest. Either is narrowed. -/
theorem run_skipping_takes_first_listing_named :
    let s : Settings := { skipClusterWide := true, minimum := .warning }
    let item (kind : Value) (name : String) : Value := .record
      [("kind", kind), ("metadata", .record [("name", .text name)]), ("results", .list
        [.record [("policy", .text "p")],
          .record [("policy", .text "q"), ("severity", .text "high")]])]
    let report (variant : Variant) (name : String) : Audit :=
      ⟨variant, apiVersionDefault, { name := some name }, none, none, .zero,
        [{ policy := some "q", severity := some "high", priority := .error }]⟩
    let a := "\x7b\"kind\":\"PolicyReport\",\"metadata\":\x7b\"name\":\"a\"\x7d,\"results\":" ++
      "[\x7b\"policy\":\"p\"\x7d,\x7b\"policy\":\"q\",\"severity\":\"high\"\x7d]\x7d"
    let w (items : List Value) : Surroundings :=
      ⟨[(["a.json"], .file a.toUTF8)], fun _ => onePage items⟩
    (run s (w [item .null "a", item (.text "ClusterPolicyReport") "b"])).result =
      written s [report .namespaced "a", report .clusterWide "b"] ∧
    (run { s with manifests := some "a.json" } (w [])).result =
      (run s (w [item .null "a"])).result := by
  intro s item report a w
  have hitem (kind : Value) (name : String) (h : kind = .null ∨ ∃ s, kind = .text s) :
      IsObject (item kind name) := isObject_of_kind rfl h
  constructor
  · obtain ⟨n, hn, -, -, hresult, -, -⟩ := run_skipping_takes_first_listing (s := s)
      (w := w [item .null "a", item (.text "ClusterPolicyReport") "b"]) rfl rfl
      (served_onePage (by simp [hitem]))
    obtain rfl : n = 0 := hn.eq_zero rfl
    exact hresult (passes_of_answer rfl)
  · obtain ⟨n, hn, -, -, -, -, hsame⟩ := run_skipping_takes_first_listing (s := s)
      (w := w [item .null "a"]) rfl rfl (served_onePage (by simp [hitem]))
    obtain rfl : n = 0 := hn.eq_zero rfl
    refine (hsame (fun i hi => ?_)).2 (passes_of_answer rfl) (w []) "a.json" (by decide) ?_
    · obtain rfl := List.mem_singleton.1 (show i ∈ [item .null "a"] from hi)
      decide
    · decide +kernel

theorem clusterWide_not_always_skipped :
    ¬ ∀ (s : Settings) (w : Surroundings) (rs : List Audit), s.path? = none →
      s.skipClusterWide = true →
      (∀ body, .answer body ∈ w.replies .namespaced → IsPage body ∧
        ∀ item ∈ itemsOf body, ∃ es, item = .map es ∧
          ∀ kind, Entries.get? es "kind" = some kind → ∃ name, kind = .text name) →
      (list .namespaced (w.replies .namespaced)).result = .ok rs →
      let criteria : Criteria := ⟨s.minimum, s.sources⟩
      (run s w).result = written s (narrowAll criteria.admits (s.chosen rs)) := by
  intro h
  let item : Value := .record [("kind", .text "ClusterPolicyReport"),
    ("metadata", .record [("name", .text "c")])]
  have hitem : IsObject item := isObject_of_kind rfl (.inr ⟨_, rfl⟩)
  have hserved : Served (onePage [item]) := served_onePage (by simpa using hitem)
  have hrun := h { skipClusterWide := true } ⟨[], fun _ => onePage [item]⟩ _ rfl rfl
    (fun body hbody => ⟨hserved.isPage body hbody, fun i hi => ?_⟩) rfl
  · exact absurd hrun (by decide +kernel)
  · obtain rfl := Reply.answer.inj (List.mem_singleton.1 hbody)
    obtain rfl := List.mem_singleton.1 (show i ∈ [item] from hi)
    refine ⟨_, rfl, fun kind hkind => ?_⟩
    obtain rfl := Option.some.inj hkind
    exact ⟨_, rfl⟩

end PolicyAudit.Command
