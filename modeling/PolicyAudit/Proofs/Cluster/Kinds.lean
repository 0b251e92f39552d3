import PolicyAudit.Proofs.Cluster.Outcome
import PolicyAudit.Proofs.Manifest.Documents
import PolicyAudit.Proofs.Report.Fresh
import PolicyAudit.Report.Json

/-! Which kind of report a listed object is.
A report has the kind of the document it was read from. In a listing of one kind the reports of the
other are those of the objects that name it themselves (`filter_filterMap_report?`). -/

namespace PolicyAudit

open Manifest

theorem Variant.kind_injective {v v' : Variant} (h : v.kind = v'.kind) : v = v' := by
  cases v <;> cases v' <;> first | rfl | exact absurd h (by decide)

theorem Report.kind?_of_parse {doc : Value} {r : Audit} (h : parse doc = .ok r) :
    kind? doc = some r.variant := by
  obtain ⟨variant, hvariant⟩ := exists_kind?_of_parse h
  rw [parse_of_kind? hvariant] at h
  split at h
  · rename_i hread
    obtain rfl := Except.ok.inj h
    rw [variant_of_ofValue hread, hvariant]
  · cases h

namespace Cluster

variable {variant v : Variant}

theorem kind?_underKind (hv : v ≠ variant) (item : Value) :
    kind? (underKind variant item) = some v ↔ kind? item = some v := by
  rw [kind?_eq_some_iff, kind?_eq_some_iff]
  cases item with
  | map es =>
    rw [get?_kind_underKind]
    constructor
    · intro h
      rcases orElse_cases (Entries.get? es "kind") (.text variant.kind) with
        hk | ⟨kind, hown, -, hk⟩
      · rw [hk] at h
        exact absurd (Variant.kind_injective (Value.text.inj (Option.some.inj h))).symm hv
      · rw [hk] at h
        exact hown.trans h
    · intro hown
      have hkind : ¬ (Value.text v.kind).isNothing := by cases v <;> decide
      rw [show Entries.get? es "kind" = _ from hown]
      exact congrArg some (if_neg hkind)
  | _ => rfl

theorem kind?_of_report? {item : Value} {r : Audit} (h : report? variant item = some r) :
    kind? (underKind variant item) = some r.variant := by
  unfold report? at h
  cases hparse : Report.parse (underKind variant item) with
  | error e =>
    rw [hparse] at h
    cases h
  | ok r' =>
    rw [hparse] at h
    obtain rfl := Option.some.inj h
    exact Report.kind?_of_parse hparse

theorem filter_filterMap_report? (hv : v ≠ variant) (items : List Value) :
    (items.filterMap (report? variant)).filter (·.variant = v) =
      (items.filter (kind? · = some v)).filterMap (report? variant) := by
  -- Both sides read the objects one by one and keep a report just if its object names `v`.
  have hitem (item : Value) : (report? variant item).filter (·.variant = v) =
      if kind? item = some v then report? variant item else none := by
    cases h : report? variant item with
    | none => simp
    | some r =>
      simp only [← kind?_underKind hv, kind?_of_report? h, Option.some.injEq]
      simp [Option.filter]
  rw [List.filter_filterMap, List.filterMap_filter]
  simp only [decide_eq_true_eq]
  exact congrArg (List.filterMap · items) (funext hitem)

end Cluster

end PolicyAudit
