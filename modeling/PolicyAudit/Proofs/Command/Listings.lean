import PolicyAudit.Proofs.Cluster.Outcome
import PolicyAudit.Proofs.Command.Reading
import PolicyAudit.Proofs.Report.Narrow

/-! Runs on a cluster.
The namespaced reports are listed first and then, unless they are skipped, the cluster-wide ones.
A run writes what is kept of both listings or nothing at all: a listing that fails is told, and one
that is not permitted has no reports but leaves the other as it is. -/

namespace PolicyAudit.Command

open Cluster Report

section

variable {s : Settings} {w : Surroundings} (hpath : s.path? = none) {n c : Nat}
  (hserved : Served (w.replies .namespaced)) (hn : EndsAt (w.replies .namespaced) n)

include hpath hserved hn

theorem run_of_first_refused {status : Int} {reason : Option String}
    (h : replyAt (w.replies .namespaced) n = .refusal status reason)
    (hstatus : ¬ (status = 401 ∨ status = 403)) :
    (run s w).calls = callsUpTo .namespaced (w.replies .namespaced) n ∧
    (run s w).result = .ok (told (.cluster (.refused status reason))) := by
  obtain ⟨hcalls, hresult⟩ := listAll_of_error s.skipClusterWide
    (result_list_of_refusal hserved hn .namespaced h hstatus)
  rw [calls_run_of_cluster hpath, hcalls, result_run_of_refused hpath hresult]
  exact ⟨calls_list hserved hn .namespaced, rfl⟩

variable (h : Passes (w.replies .namespaced) n)

include h

theorem run_skipping (hskip : s.skipClusterWide = true) :
    (run s w).calls = callsUpTo .namespaced (w.replies .namespaced) n ∧
    (run s w).result = written s (narrowAll s.criteria.admits
      (reportsUpTo .namespaced (w.replies .namespaced) n)) := by
  obtain ⟨hcalls, hresult⟩ := listAll_skipping (result_list_of_passes hserved hn .namespaced h)
  rw [← hskip] at hcalls hresult
  rw [calls_run_of_cluster hpath, hcalls, result_run_of_listed hpath hresult]
  exact ⟨calls_list hserved hn .namespaced, rfl⟩

variable (hskip : s.skipClusterWide = false) (hserved' : Served (w.replies .clusterWide))
  (hc : EndsAt (w.replies .clusterWide) c)

include hskip hserved' hc

theorem calls_run_both : (run s w).calls =
    callsUpTo .namespaced (w.replies .namespaced) n ++
      callsUpTo .clusterWide (w.replies .clusterWide) c := by
  have hcalls := (listAll_both (result_list_of_passes hserved hn .namespaced h)).1
  rw [← hskip] at hcalls
  rw [calls_run_of_cluster hpath, hcalls, calls_list hserved hn, calls_list hserved' hc]

theorem run_of_second_refused {status : Int} {reason : Option String}
    (hreply : replyAt (w.replies .clusterWide) c = .refusal status reason)
    (hstatus : ¬ (status = 401 ∨ status = 403)) :
    (run s w).result = .ok (told (.cluster (.refused status reason))) := by
  have hresult := (listAll_both (result_list_of_passes hserved hn .namespaced h)).2
  rw [← hskip, result_list_of_refusal hserved' hc .clusterWide hreply hstatus] at hresult
  exact result_run_of_refused hpath hresult

theorem run_both (h' : Passes (w.replies .clusterWide) c) :
    (run s w).result = written s
      (narrowAll s.criteria.admits (reportsUpTo .namespaced (w.replies .namespaced) n) ++
        narrowAll s.criteria.admits (reportsUpTo .clusterWide (w.replies .clusterWide) c)) := by
  have hresult := (listAll_both (result_list_of_passes hserved hn .namespaced h)).2
  rw [← hskip, result_list_of_passes hserved' hc .clusterWide h'] at hresult
  rw [result_run_of_listed hpath hresult, narrowAll_append]

end

/-- The listings of a run, the cluster-wide one after the other and only if it is not skipped. A
listing that is refused ends the run with status 1 and nothing on the output, unless the refusal is
for want of permission; then the listing has no reports and the run goes on. What is written with
status 0 is kept of both listings, in order. -/
theorem run_keeps_listings_apart {s : Settings} {w : Surroundings} (hpath : s.path? = none)
    (hserved : ∀ variant, Served (w.replies variant)) :
    ∃ last : Variant → Nat, (∀ variant, EndsAt (w.replies variant) (last variant)) ∧
      let reply variant := replyAt (w.replies variant) (last variant)
      let passes variant := Passes (w.replies variant) (last variant)
      let calls variant := callsUpTo variant (w.replies variant) (last variant)
      let criteria : Criteria := ⟨s.minimum, s.sources⟩
      let kept variant := narrowAll criteria.admits
        (reportsUpTo variant (w.replies variant) (last variant))
      let r := run s w
      (∀ variant status reason, reply variant = .refusal status reason → kept variant = []) ∧
      (∀ status reason, reply .namespaced = .refusal status reason →
        ¬ (status = 401 ∨ status = 403) → r.calls = calls .namespaced ∧
          r.result = .ok (told (.cluster (.refused status reason)))) ∧
      (passes .namespaced → s.skipClusterWide = true → r.calls = calls .namespaced ∧
        r.result = written s (kept .namespaced)) ∧
      (passes .namespaced → s.skipClusterWide = false →
        r.calls = calls .namespaced ++ calls .clusterWide ∧
        (∀ status reason, reply .clusterWide = .refusal status reason →
          ¬ (status = 401 ∨ status = 403) →
            r.result = .ok (told (.cluster (.refused status reason)))) ∧
        (passes .clusterWide → r.result = written s (kept .namespaced ++ kept .clusterWide))) ∧
      ∀ o, r.result = .ok o → o.status = 1 ∧ o.out = "" ∨
        o.status = 0 ∧ (s.format = .json → o.out = toJson (kept .namespaced ++
          if s.skipClusterWide then [] else kept .clusterWide) ++ "\n") := by
  -- Where a listing ends is a matter of its own replies, also if the run does not get to it.
  obtain ⟨n, -, hn⟩ := exists_endsAt (w.replies .namespaced)
  obtain ⟨c, -, hc⟩ := exists_endsAt (w.replies .clusterWide)
  refine ⟨fun variant => if variant = .namespaced then n else c, fun variant => ?_, ?_⟩
  · cases variant
    · exact hn
    · exact hc
  intro reply passes calls criteria kept r
  have hfirst (status : Int) (reason : Option String)
      (hreply : reply .namespaced = .refusal status reason) :=
    run_of_first_refused hpath (hserved _) hn hreply
  have hskipping := run_skipping hpath (hserved _) hn
  have hboth (h : passes .namespaced) (hskip : s.skipClusterWide = false) :=
    run_both hpath (hserved _) hn h hskip (hserved _) hc
  have hsecond (h : passes .namespaced) (hskip : s.skipClusterWide = false) (status : Int)
      (reason : Option String) (hreply : reply .clusterWide = .refusal status reason) :=
    run_of_second_refused hpath (hserved _) hn h hskip (hserved _) hc hreply
  have htold {o : Output} {status reason}
      (h : r.result = .ok (told (.cluster (.refused status reason)))) (ho : r.result = .ok o) :
      o.status = 1 ∧ o.out = "" := by
    rw [← Except.ok.inj (h.symm.trans ho)]
    exact ⟨rfl, rfl⟩
  refine ⟨fun variant status reason h => congrArg (narrowAll _) (reportsUpTo_of_refusal variant h),
    hfirst, hskipping, fun h hskip => ?_, fun o ho => ?_⟩
  · have hcalls := calls_run_both hpath (hserved _) hn h hskip (hserved _) hc
    exact ⟨hcalls, hsecond h hskip, hboth h hskip⟩
  · rcases passes_or_refused (w.replies .namespaced) n with h | ⟨status, reason, hreply, hstatus⟩
    · cases hskip : s.skipClusterWide with
      | true =>
        rw [if_pos rfl, List.append_nil]
        exact .inr (eq_of_written ((hskipping h hskip).2.symm.trans ho))
      | false =>
        rw [if_neg Bool.false_ne_true]
        rcases passes_or_refused (w.replies .clusterWide) c with
          h' | ⟨status, reason, hreply, hstatus⟩
        · exact .inr (eq_of_written ((hboth h hskip h').symm.trans ho))
        · exact .inl (htold (hsecond h hskip status reason hreply hstatus) ho)
    · exact .inl (htold (hfirst status reason hreply hstatus).2 ho)

/-- The namespaced listing loses its permission after one page, and the other is whole; or the
cluster-wide one breaks down after both have given a page. The filter leaves one finding of the
report `c` and nothing of `d`. -/
theorem run_keeps_listings_apart_second_pages :
    let page (items : List Value) (continuation : Value) : Reply := .answer (.record
      [("items", .list items), ("metadata", .record [("continue", continuation)])])
    let item (name : String) (results : List Value) : Value := .record
      [("metadata", .record [("name", .text name)]), ("results", .list results)]
    let result (source severity : String) : Value := .record
      [("policy", .text "p"), ("source", .text source), ("severity", .text severity)]
    let found (source severity : String) (priority : Priority) : Finding :=
      { policy := some "p", source := some source, severity := some severity, priority }
    let report (name : String) (findings : List Finding) : Audit :=
      ⟨.clusterWide, apiVersionDefault, { name := some name }, none, none, .zero, findings⟩
    let a := item "a" []
    let c := item "c" [result "x" "low", result "y" "high", result "x" "high"]
    let d := item "d" [result "y" "low"]
    let denied : Surroundings := ⟨[], fun
      | .namespaced => [page [a] (.text "x"), .refusal 403 none]
      | .clusterWide => [page [c, d] .null]⟩
    let broken : Surroundings := ⟨[], fun
      | .namespaced => [page [a] .null]
      | .clusterWide => [page [c] (.text "x"), .refusal 500 none]⟩
    let s : Settings := { minimum := .warning, sources := ["x"] }
    (run {} denied).result = .ok ⟨0, toJson
      [report "c" [found "x" "low" .info, found "y" "high" .error, found "x" "high" .error],
        report "d" [found "y" "low" .info]] ++ "\n", ""⟩ ∧
    (run s denied).result = .ok ⟨0, toJson [report "c" [found "x" "high" .error]] ++ "\n", ""⟩ ∧
    (run s denied).calls.length = 3 ∧
    (run s broken).result = .ok ⟨1, "", "error: (500)\nReason: None\n\n"⟩ := by
  intro page item result found report a c d denied broken s
  have hitem (name : String) (results : List Value) : IsObject (item name results) :=
    isObject_of_no_kind rfl
  have hpage {items : List Value} (hitems : ∀ i ∈ items, IsObject i) (continuation : Value)
      {script : List Reply} (h : Served script) : Served (page items continuation :: script) := by
    refine h.answer ⟨⟨_, rfl⟩, fun v hv => ?_, fun v hv => ?_⟩ hitems
    · obtain rfl := Option.some.inj hv
      exact .inr ⟨_, rfl⟩
    · obtain rfl := Option.some.inj hv
      exact .inr ⟨_, rfl⟩
  have ha : ∀ i ∈ [a], IsObject i := by simp [a, hitem]
  have hdenied : ∀ variant, Served (denied.replies variant)
    | .namespaced => hpage ha _ (Served.nil.refusal 403 none)
    | .clusterWide => hpage (by simp [c, d, hitem]) _ .nil
  have hbroken : ∀ variant, Served (broken.replies variant)
    | .namespaced => hpage ha _ .nil
    | .clusterWide => hpage (by simp [c, hitem]) _ (Served.nil.refusal 500 none)
  have hruns (s : Settings) (hpath : s.path? = none) (hskip : s.skipClusterWide = false) :
      (run s denied).calls.length = 3 ∧
      (run s denied).result = written s (narrowAll (Criteria.admits ⟨s.minimum, s.sources⟩)
        (reportsUpTo .clusterWide [page [c, d] .null] 0)) := by
    obtain ⟨last, hlast, -, -, -, hboth, -⟩ := run_keeps_listings_apart hpath hdenied
    have hn : last .namespaced = 1 := (hlast .namespaced).unique ⟨rfl, by decide⟩
    have hc : last .clusterWide = 0 := (hlast .clusterWide).unique ⟨rfl, by decide⟩
    simp only [hn, hc] at hboth
    obtain ⟨hcalls, -, hresult⟩ := hboth (by rintro _ _ ⟨⟩; exact .inr rfl) hskip
    exact ⟨by rw [hcalls]; rfl, hresult (passes_of_answer rfl)⟩
  refine ⟨?_, ?_, (hruns s rfl rfl).1, ?_⟩
  · rw [(hruns {} rfl rfl).2]
    rfl
  · rw [(hruns s rfl rfl).2]
    rfl
  · obtain ⟨last, hlast, -, -, -, hboth, -⟩ := run_keeps_listings_apart (s := s) rfl hbroken
    have hn : last .namespaced = 0 := (hlast .namespaced).unique ⟨rfl, by decide⟩
    have hc : last .clusterWide = 1 := (hlast .clusterWide).unique ⟨rfl, by decide⟩
    simp only [hn, hc] at hboth
    exact (hboth (passes_of_answer rfl) rfl).2.1 500 none rfl (by decide)

end PolicyAudit.Command
