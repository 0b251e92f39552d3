import PolicyAudit.Proofs.Calendar.Moment
import PolicyAudit.Document.Value

/-! Documents whose moments exist.
A document holds a moment only where its text had one, so what the readers of JSON and YAML give is
timely (`Json.timely_of_read?`, `Yaml.timely_of_documents`); the property passes from the parts to the
whole and back. -/

namespace PolicyAudit

/-- A document holds a moment as such, at any depth. -/
inductive Value.Contains : Value → Moment → Prop
  | moment (m : Moment) : Contains (.moment m) m
  | item {vs : List Value} {v : Value} {m : Moment} (hv : v ∈ vs) (h : Contains v m) :
      Contains (.list vs) m
  | first {v w : Value} {m : Moment} (h : Contains v m) : Contains (.pair v w) m
  | second {v w : Value} {m : Moment} (h : Contains w m) : Contains (.pair v w) m
  | entry {es : Entries} {k : Key} {v : Value} {m : Moment} (hv : (k, v) ∈ es) (h : Contains v m) :
      Contains (.map es) m

/-- Every moment that a document holds as such exists. -/
def Value.Timely (v : Value) : Prop := ∀ m, v.Contains m → m.Valid

namespace Value

@[simp] theorem timely_moment {m : Moment} : Timely (.moment m) ↔ m.Valid := by
  constructor
  · exact fun h => h m (.moment m)
  · rintro h _ ⟨⟩
    exact h

@[simp] theorem timely_list {vs : List Value} : Timely (.list vs) ↔ ∀ v ∈ vs, v.Timely := by
  constructor
  · exact fun h v hv m hm => h m (.item hv hm)
  · intro h m hm
    cases hm with
    | item hv hm => exact h _ hv m hm

@[simp] theorem timely_pair {v w : Value} : Timely (.pair v w) ↔ v.Timely ∧ w.Timely := by
  constructor
  · exact fun h => ⟨fun m hm => h m (.first hm), fun m hm => h m (.second hm)⟩
  · rintro ⟨hv, hw⟩ m hm
    cases hm with
    | first h => exact hv m h
    | second h => exact hw m h

@[simp] theorem timely_map {es : Entries} : Timely (.map es) ↔ ∀ e ∈ es, e.2.Timely := by
  constructor
  · exact fun h e he m hm => h m (.entry (k := e.1) he hm)
  · intro h m hm
    cases hm with
    | entry hv hm => exact h _ hv m hm

@[simp] theorem timely_null : Timely .null := nofun

@[simp] theorem timely_bool (b : Bool) : Timely (.bool b) := nofun

@[simp] theorem timely_int (n : Int) : Timely (.int n) := nofun

@[simp] theorem timely_real (x : Binary64) : Timely (.real x) := nofun

@[simp] theorem timely_text (s : String) : Timely (.text s) := nofun

@[simp] theorem timely_bytes (bs : List UInt8) : Timely (.bytes bs) := nofun

@[simp] theorem timely_record {fs : List (String × Value)} :
    Timely (.record fs) ↔ ∀ f ∈ fs, f.2.Timely :=
  timely_map.trans List.forall_mem_map

end Value

namespace Entries

theorem timely_put {es : Entries} {k : Key} {v : Value} (hes : ∀ e ∈ es, e.2.Timely)
    (hv : v.Timely) : ∀ e ∈ es.put k v, e.2.Timely := by
  induction es with
  | nil => simpa [put] using hv
  | cons e rest ih =>
    rw [List.forall_mem_cons] at hes
    obtain ⟨k', v'⟩ := e
    rw [put]
    split
    · exact List.forall_mem_cons.2 ⟨hv, hes.2⟩
    · exact List.forall_mem_cons.2 ⟨hes.1, ih hes.2⟩

theorem timely_ofList {es : List (Key × Value)} (h : ∀ e ∈ es, e.2.Timely) :
    ∀ e ∈ ofList es, e.2.Timely :=
  List.foldlRecOn (motive := fun acc : Entries => ∀ e ∈ acc, e.2.Timely) es _ (by simp)
    fun acc hacc e he => timely_put hacc (h e he)

end Entries

end PolicyAudit
