import Mathlib.Data.List.TakeWhile
import PolicyAudit.Proofs.Manifest.InTurn

/-! The files that a path stands for.
Below a directory these are the files with a manifest's name (`IsManifestName`), in ascending order
of their paths. `Visits` says so without a word on how the tree is listed, and it fixes the files
(`Visits.unique`): the order of the listing does not matter, nor do files of other names. -/

namespace PolicyAudit

namespace Location

theorem before_iff (ps qs : List String) : before ps qs ↔ ¬ qs < ps := by
  induction ps generalizing qs with
  | nil => simp [before]
  | cons p ps ih =>
    cases qs with
    | nil => simp [before]
    | cons q qs =>
      have hcons : ¬ q :: qs < p :: ps ↔ p < q ∨ p = q ∧ ¬ qs < ps := List.cons_le_cons_iff
      rw [before, Bool.or_eq_true, Bool.and_eq_true, decide_eq_true_iff, beq_iff_eq, ih, hcons]

theorem before_trans {ps qs rs : List String} (hpq : before ps qs) (hqr : before qs rs) :
    before ps rs := by
  rw [before_iff] at *
  exact List.le_trans hpq hqr

theorem before_total (ps qs : List String) : before ps qs || before qs ps := by
  rw [Bool.or_eq_true, before_iff, before_iff]
  exact List.le_total ps qs

theorem lt_of_before {ps qs : List String} (h : before ps qs) (hne : ps ≠ qs) : ps < qs := by
  by_contra hnot
  exact hne (List.le_antisymm ((before_iff ps qs).1 h) hnot)

theorem suffix_of_not_mem {name : String} (h : '.' ∉ name.toList) : suffix name = "" := by
  have hall : ∀ c ∈ name.toList.reverse, decide (c ≠ '.') = true := by
    intro c hc
    simpa using fun heq : c = '.' => h (heq ▸ List.mem_reverse.1 hc)
  have hending : name.toList.reverse.takeWhile (· ≠ '.') = name.toList.reverse :=
    List.takeWhile_eq_self_iff.2 hall
  rw [suffix, hending, List.reverse_reverse, if_pos]
  exact .inr (by rw [← String.length_toList]; omega)

theorem suffix_of_toList_eq {name : String} {stem ending : List Char}
    (h : name.toList = stem ++ '.' :: ending) (hpoint : '.' ∉ ending) :
    suffix name =
      if ending = [] ∨ stem = [] then "" else String.ofList ('.' :: ending.map Char.toLower) := by
  have hall : ∀ c ∈ ending.reverse, decide (c ≠ '.') = true := by
    intro c hc
    simpa using fun heq : c = '.' => hpoint (heq ▸ List.mem_reverse.1 hc)
  have hending : (name.toList.reverse.takeWhile (· ≠ '.')).reverse = ending := by
    rw [h, List.reverse_append, List.reverse_cons, List.append_assoc,
      List.takeWhile_append_of_pos hall]
    simp
  have hlength : name.length = stem.length + (ending.length + 1) := by
    rw [← String.length_toList, h, List.length_append, List.length_cons]
  have hstem : name.length ≤ ending.length + 1 ↔ stem = [] := by
    rw [hlength, ← List.length_eq_zero_iff]
    omega
  simp only [suffix, hending, hstem, List.isEmpty_iff]

end Location

namespace Manifest

def endings : List (List Char) := ["yaml".toList, "yml".toList, "json".toList]

/-- Something, a point and one of the endings, in whatever case. -/
def IsManifestName (name : String) : Prop :=
  ∃ stem ending, stem ≠ [] ∧ name.toList = stem ++ '.' :: ending ∧ ending.map Char.toLower ∈ endings

theorem contains_suffixes_iff (cs : List Char) :
    suffixes.contains (String.ofList ('.' :: cs)) ↔ cs ∈ endings := by
  simp [suffixes, endings, ← String.toList_inj]

theorem contains_suffix_iff (name : String) :
    suffixes.contains (Location.suffix name) ↔ IsManifestName name := by
  have hempty : ¬ suffixes.contains "" := by decide
  constructor
  · intro h
    by_cases hpoint : '.' ∈ name.toList
    · obtain ⟨after, before, hname, hafter⟩ :=
        List.eq_append_cons_of_mem (List.mem_reverse.2 hpoint)
      have htoList : name.toList = before.reverse ++ '.' :: after.reverse := by
        rw [← List.reverse_reverse name.toList, hname]
        simp
      rw [Location.suffix_of_toList_eq htoList (by simpa using hafter)] at h
      split at h
      · exact absurd h hempty
      · rename_i hne
        exact ⟨_, _, fun hstem => hne (.inr hstem), htoList, (contains_suffixes_iff _).1 h⟩
    · rw [Location.suffix_of_not_mem hpoint] at h
      exact absurd h hempty
  · rintro ⟨stem, ending, hstem, htoList, hending⟩
    have hpoint : '.' ∉ ending := by
      intro hmem
      have hlower : '.' ∈ ending.map Char.toLower := List.mem_map.2 ⟨'.', hmem, by decide⟩
      have hnone : ∀ cs ∈ endings, '.' ∉ cs := by decide
      exact hnone _ hending hlower
    have hne : ending ≠ [] := by
      rintro rfl
      revert hending
      decide
    rw [Location.suffix_of_toList_eq htoList hpoint, if_neg (by simp [hne, hstem])]
    exact (contains_suffixes_iff _).2 hending

end Manifest

namespace Tree

/-- No two entries are at the same place. -/
def Distinct (t : Tree) : Prop := (t.map (·.1)).Nodup

def place? (t : Tree) (l : Location) : Option (List String) :=
  if l.root = "" then Location.walk? t.isDir [] l.parts else none

def HasFile (t : Tree) (l : Location) (e : Entry) : Prop :=
  ∃ place, t.place? l = some place ∧ t.file? place = some e

def HasDirectory (t : Tree) (l : Location) (place : List String) : Prop :=
  t.place? l = some place ∧ t.file? place = none ∧ t.isDir place

def HoldsManifest (t : Tree) (place rest : List String) (e : Entry) : Prop :=
  (place ++ rest, e) ∈ t ∧ e.isFile ∧
    ∃ name, rest.getLast? = some name ∧ Manifest.IsManifestName name

theorem below_eq_some_iff {place : List String} {v w : List String × Entry} :
    (if place.isPrefixOf v.1 ∧ v.2.isFile then some (v.1.drop place.length, v.2) else none) =
      some w ↔ v = (place ++ w.1, w.2) ∧ w.2.isFile := by
  obtain ⟨place', e'⟩ := v
  obtain ⟨rest, e⟩ := w
  rw [Option.ite_none_right_eq_some, List.isPrefixOf_iff_prefix, List.prefix_iff_eq_append]
  constructor
  · rintro ⟨⟨hplace, hfile⟩, hw⟩
    obtain ⟨rfl, rfl⟩ := Prod.mk.inj (Option.some.inj hw)
    exact ⟨by rw [hplace], hfile⟩
  · rintro ⟨hv, hfile⟩
    obtain ⟨rfl, rfl⟩ := Prod.mk.inj hv
    simp [hfile]

theorem mem_filesBelow {t : Tree} {place : List String} {w : List String × Entry} :
    w ∈ t.filesBelow place ↔ (place ++ w.1, w.2) ∈ t ∧ w.2.isFile ∧ w.1 ≠ [] := by
  rw [filesBelow, (List.mergeSort_perm _ _).mem_iff, List.mem_filter, List.mem_filterMap]
  constructor
  · rintro ⟨⟨v, hv, hw⟩, hrest⟩
    obtain ⟨rfl, hfile⟩ := below_eq_some_iff.1 hw
    exact ⟨hv, hfile, by simpa using hrest⟩
  · rintro ⟨hv, hfile, hrest⟩
    exact ⟨⟨_, hv, below_eq_some_iff.2 ⟨rfl, hfile⟩⟩, by simpa using hrest⟩

theorem distinct_filesBelow {t : Tree} (ht : t.Distinct) (place : List String) :
    (t.filesBelow place).Pairwise fun v w => v.1 ≠ w.1 := by
  have hplaces : t.Pairwise fun v w => v.1 ≠ w.1 := List.pairwise_map.1 ht
  refine (List.mergeSort_perm _ _).symm.pairwise ?_ fun h => h.symm
  refine List.Pairwise.filter _ (hplaces.filterMap _ fun v w hvw v' hv w' hw heq => hvw ?_)
  obtain ⟨rfl, -⟩ := below_eq_some_iff.1 hv
  obtain ⟨rfl, -⟩ := below_eq_some_iff.1 hw
  rw [heq]

theorem ascending_filesBelow {t : Tree} (ht : t.Distinct) (place : List String) :
    (t.filesBelow place).Pairwise fun v w => v.1 < w.1 := by
  have hsorted : (t.filesBelow place).Pairwise fun v w => Location.before v.1 w.1 := by
    refine List.pairwise_mergeSort ?_ ?_ _
    · intro u v w huv hvw
      exact Location.before_trans huv hvw
    · intro v w
      exact Location.before_total v.1 w.1
  exact (hsorted.and (distinct_filesBelow ht place)).imp fun h => Location.lt_of_before h.1 h.2

theorem lookup_eq_some_iff {t : Tree} (ht : t.Distinct) {place : List String} {e : Entry} :
    t.lookup place = some e ↔ (place, e) ∈ t := by
  induction t with
  | nil => simp
  | cons v t ih =>
    obtain ⟨place', e'⟩ := v
    obtain ⟨hfirst, hrest⟩ := List.nodup_cons.1 ht
    have hnot : (place', e) ∉ t := fun hmem => hfirst (List.mem_map_of_mem (f := (·.1)) hmem)
    by_cases h : place = place'
    · subst h
      simp [hnot, eq_comm]
    · have hbeq : (place == place') = false := by simpa using h
      simp [List.lookup_cons, hbeq, h, ih hrest]

variable {t t' : Tree}

theorem isDir_perm (h : t'.Perm t) : t'.isDir = t.isDir := by
  funext place
  rw [isDir, isDir, h.any_eq]

theorem place?_perm (h : t'.Perm t) (l : Location) : t'.place? l = t.place? l := by
  rw [place?, place?, isDir_perm h]

theorem distinct_perm (h : t'.Perm t) (ht : t.Distinct) : t'.Distinct :=
  (h.map _).nodup_iff.2 ht

theorem file?_perm (h : t'.Perm t) (ht : t.Distinct) (place : List String) :
    t'.file? place = t.file? place := by
  have hlookup : t'.lookup place = t.lookup place := Option.ext fun e => by
    rw [lookup_eq_some_iff ht, lookup_eq_some_iff (distinct_perm h ht), h.mem_iff]
  rw [file?, file?, hlookup]

end Tree

namespace Manifest

/-- The files to visit for a directory: those with a manifest's name, in ascending order of paths.
Their paths start with the path given for the directory. -/
structure Visits (t : Tree) (l : Location) (place : List String)
    (files : List (Location × Entry)) : Prop where
  mem_iff : ∀ v, v ∈ files ↔ ∃ rest, t.HoldsManifest place rest v.2 ∧ v.1 = l.append rest
  ascending : files.Pairwise fun v w => v.1.parts < w.1.parts

theorem Visits.nodup {t : Tree} {l : Location} {place : List String}
    {files : List (Location × Entry)} (h : Visits t l place files) : files.Nodup := by
  refine h.ascending.imp fun hlt heq => ?_
  rw [heq] at hlt
  exact List.lt_irrefl _ hlt

theorem Visits.unique {t t' : Tree} {l : Location} {place : List String}
    {files files' : List (Location × Entry)} (h : Visits t l place files)
    (h' : Visits t' l place files')
    (hsame : ∀ rest e, t'.HoldsManifest place rest e ↔ t.HoldsManifest place rest e) :
    files' = files := by
  have hperm : files'.Perm files :=
    (List.perm_ext_iff_of_nodup h'.nodup h.nodup).2 fun v => by
      rw [h.mem_iff, h'.mem_iff]
      simp only [hsame]
  refine hperm.eq_of_pairwise (fun v w _ _ hvw hwv => ?_) h'.ascending h.ascending
  exact absurd (List.lt_trans hvw hwv) (List.lt_irrefl _)

def chosen (t : Tree) (l : Location) (place : List String) : List (Location × Entry) :=
  ((t.filesBelow place).filter fun (rest, _) =>
    suffixes.contains (Location.suffix ((rest.getLast?).getD ""))).map
      fun (rest, e) => (l.append rest, e)

theorem visits_chosen {t : Tree} (ht : t.Distinct) (l : Location) (place : List String) :
    Visits t l place (chosen t l place) where
  mem_iff v := by
    obtain ⟨l', e⟩ := v
    simp only [chosen, List.mem_map, List.mem_filter, Tree.mem_filesBelow, contains_suffix_iff]
    constructor
    · rintro ⟨⟨rest, e⟩, ⟨⟨hmem, hfile, hne⟩, hname⟩, heq⟩
      obtain ⟨rfl, rfl⟩ := Prod.mk.inj heq
      obtain ⟨name, hlast⟩ := List.getLast?_isSome.2 hne |> Option.isSome_iff_exists.1
      dsimp only at hname
      rw [hlast] at hname
      exact ⟨rest, ⟨hmem, hfile, name, hlast, hname⟩, rfl⟩
    · rintro ⟨rest, ⟨hmem, hfile, name, hlast, hname⟩, rfl⟩
      refine ⟨(rest, e), ⟨⟨hmem, hfile, ?_⟩, ?_⟩, rfl⟩
      · rintro rfl
        cases hlast
      · dsimp only
        rw [hlast]
        exact hname
  ascending := by
    refine List.pairwise_map.2 (((Tree.ascending_filesBelow ht place).filter _).imp ?_)
    exact List.append_left_lt

def filesFrom (t : Tree) (l : Location) (place : List String) : Option (List (Location × Entry)) :=
  match t.file? place with
  | some e => some [(l, e)]
  | none => if t.isDir place then some (chosen t l place) else none

theorem filesAt_eq_bind (t : Tree) (l : Location) :
    filesAt t l = (t.place? l).bind (filesFrom t l) := by
  unfold filesAt Tree.place?
  split <;> rfl

theorem filesAt_of_directory {t : Tree} {l : Location} {place : List String}
    (h : t.HasDirectory l place) : filesAt t l = some (chosen t l place) := by
  obtain ⟨hplace, hfile, hdir⟩ := h
  rw [filesAt_eq_bind, hplace, Option.bind_some, filesFrom, hfile]
  exact if_pos hdir

theorem filesAt_of_file {t : Tree} {l : Location} {e : Entry} (h : t.HasFile l e) :
    filesAt t l = some [(l, e)] := by
  obtain ⟨place, hplace, hfile⟩ := h
  rw [filesAt_eq_bind, hplace, Option.bind_some, filesFrom, hfile]

theorem load_of_filesAt {t : Tree} {path : String} {files : List (Location × Entry)}
    (h : filesAt t (Location.ofText path) = some files) :
    load t path = .inTurn (files.map reading) := by
  simp only [load, h, loadFiles_eq_inTurn]

theorem load_of_visits {t : Tree} (ht : t.Distinct) {path : String} {place : List String}
    (h : t.HasDirectory (Location.ofText path) place) {files : List (Location × Entry)}
    (hfiles : Visits t (Location.ofText path) place files) :
    load t path = .inTurn (files.map reading) := by
  rw [load_of_filesAt (filesAt_of_directory h),
    hfiles.unique (visits_chosen ht _ place) fun _ _ => Iff.rfl]

theorem filesAt_perm {t t' : Tree} (ht : t.Distinct) (h : t'.Perm t) (l : Location) :
    filesAt t' l = filesAt t l := by
  rw [filesAt_eq_bind, filesAt_eq_bind, Tree.place?_perm h]
  congr 1
  funext place
  have hchosen : chosen t' l place = chosen t l place :=
    (visits_chosen ht l place).unique (visits_chosen (Tree.distinct_perm h ht) l place)
      fun rest e => by rw [Tree.HoldsManifest, Tree.HoldsManifest, h.mem_iff]
  rw [filesFrom, filesFrom, Tree.file?_perm h ht, Tree.isDir_perm h, hchosen]

theorem load_perm {t t' : Tree} (ht : t.Distinct) (h : t'.Perm t) (path : String) :
    load t' path = load t path := by
  rw [load, load, filesAt_perm ht h]

/-- What is loaded does not depend on the order in which a tree is listed. Of a directory, the files
with a manifest's name are read in the order of their paths, up to one that fails, and no other file
matters. A file that is named is read whatever its name. -/
theorem load_follows_paths {t : Tree} (ht : t.Distinct) (path : String) :
    let l := Location.ofText path
    (∀ t' : Tree, t'.Perm t → load t' path = load t path) ∧
    (∀ place, t.HasDirectory l place → ∃ files, Visits t l place files ∧
      ((∀ v ∈ files, (reading v).Succeeds) → load t path =
        ⟨files.flatMap fun v => (reading v).log, .ok (files.flatMap fun v => (reading v).reports)⟩) ∧
      (∀ before v after f, files = before ++ v :: after → (∀ u ∈ before, (reading u).Succeeds) →
        (reading v).result = .error f →
        load t path = ⟨(before.flatMap fun u => (reading u).log) ++ (reading v).log, .error f⟩) ∧
      ∀ t' : Tree, t'.Distinct → t'.HasDirectory l place →
        (∀ rest e, t'.HoldsManifest place rest e ↔ t.HoldsManifest place rest e) →
        load t' path = load t path) ∧
    ∀ e, t.HasFile l e → load t path = loadFile l e := by
  intro l
  refine ⟨fun t' h => load_perm ht h path, ?_, ?_⟩
  · intro place hplace
    have hvisits := visits_chosen ht l place
    have hload := load_of_visits ht hplace hvisits
    refine ⟨chosen t l place, hvisits, ?_, ?_, ?_⟩
    · intro hall
      rw [hload, Loading.inTurn_of_succeeds (List.forall_mem_map.2 hall), List.flatMap_map,
        List.flatMap_map]
    · intro before v after f hfiles hbefore hv
      rw [hload, hfiles, List.map_append, List.map_cons,
        Loading.inTurn_of_fails (List.forall_mem_map.2 hbefore) hv, List.flatMap_map]
    · intro t' ht' hplace' hsame
      have hvisits' := visits_chosen ht' l place
      rw [load_of_visits ht' hplace' hvisits', hvisits.unique hvisits' hsame, hload]
  · intro e he
    rw [load_of_filesAt (filesAt_of_file he), List.map_cons, List.map_nil,
      Loading.inTurn_singleton]
    rfl

/-- By its text, `a/b.YAML` would come last of the three; a name that is only an ending is none. -/
theorem load_follows_paths_by_name :
    let t : Tree := [(["m", "a-b", "c.yaml"], .locked), (["m", "a.yml"], .locked),
      (["m", "a", "b.YAML"], .locked), (["m", "a", ".yaml"], .locked)]
    t.Distinct ∧ t.HasDirectory (Location.ofText "m/") ["m"] ∧
    load t "m/" = ⟨[], .error (.unreadable "m/a/b.YAML")⟩ ∧ load t.reverse "m/" = load t "m/" := by
  intro t
  have ht : t.Distinct := by
    show ([["m", "a-b", "c.yaml"], ["m", "a.yml"], ["m", "a", "b.YAML"], ["m", "a", ".yaml"]] :
      List (List String)).Nodup
    decide
  have hdir : t.HasDirectory (Location.ofText "m/") ["m"] := ⟨rfl, rfl, rfl⟩
  obtain ⟨horder, hdirectory, -⟩ := load_follows_paths ht "m/"
  obtain ⟨files, hfiles, -, hfails, -⟩ := hdirectory ["m"] hdir
  have hname : IsManifestName "b.YAML" := ⟨['b'], "YAML".toList, by decide, by decide, by decide⟩
  let v : Location × Entry := (⟨"", ["m", "a", "b.YAML"]⟩, .locked)
  have hv : v ∈ files := (hfiles.mem_iff v).2
    ⟨["a", "b.YAML"], ⟨by simp [t, v], rfl, "b.YAML", rfl, hname⟩, rfl⟩
  obtain ⟨before, after, hsplit⟩ := List.append_of_mem hv
  have hbefore : before = [] := by
    refine List.eq_nil_iff_forall_not_mem.2 fun u hu => ?_
    have hlt : u.1.parts < v.1.parts :=
      (List.pairwise_append.1 (hsplit ▸ hfiles.ascending)).2.2 u hu v List.mem_cons_self
    obtain ⟨rest, ⟨hmem, -, name, hlast, hmanifest⟩, hparts⟩ :=
      (hfiles.mem_iff u).1 (hsplit ▸ List.mem_append_left _ hu)
    have hparts : u.1.parts = "m" :: rest := congrArg Location.parts hparts
    rw [hparts] at hlt
    simp only [t, List.mem_cons, Prod.mk.injEq, List.singleton_append, List.not_mem_nil, or_false,
      List.cons.injEq, true_and] at hmem
    rcases hmem with ⟨rfl, -⟩ | ⟨rfl, -⟩ | ⟨rfl, -⟩ | ⟨rfl, -⟩
    · exact absurd hlt (by decide)
    · exact absurd hlt (by decide)
    · exact absurd hlt (by decide)
    · obtain rfl := Option.some.inj hlast
      exact absurd ((contains_suffix_iff _).2 hmanifest) (by decide)
  refine ⟨ht, hdir, ?_, horder _ (List.reverse_perm t)⟩
  rw [hbefore] at hsplit
  exact hfails [] v after _ hsplit (by simp) rfl

end Manifest

end PolicyAudit
