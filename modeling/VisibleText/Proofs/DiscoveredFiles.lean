import Mathlib.Data.List.Forall2
import Mathlib.Data.List.Infix
import Mathlib.Data.List.Nodup
import VisibleText.Discovery.Scan
import VisibleText.Proofs.PathWalks
import VisibleText.Proofs.Paths

/-!
The files that a search finds below a directory. Entries are left out one by one while directories are
entered, and the files that remain are sorted at the end. The outcome is that of a filter on the whole paths
of all regular files: ignoring a directory is ignoring every path that goes through it.
-/
namespace VisibleText

inductive Entry.IsTree : Entry → Prop
  | file (content : Except FileError Bytes) : IsTree (.file content)
  | link (target : String) : IsTree (.link target)
  | directory {entries : List (String × Entry)} (hnames : ∀ x ∈ entries, Path.IsName x.1.toList)
      (hnodup : (entries.map Prod.fst).Nodup) (hbelow : ∀ x ∈ entries, IsTree x.2) : IsTree (.directory entries)

theorem lookup_eq_some_of_nodup {α : Type} {entries : List (String × α)} (h : (entries.map Prod.fst).Nodup)
    {name : String} {x : α} : entries.lookup name = some x ↔ (name, x) ∈ entries := by
  rw [List.lookup_eq_some_iff]
  constructor
  · rintro ⟨before, after, rfl, -⟩
    simp
  · intro hmem
    obtain ⟨before, after, rfl⟩ := List.append_of_mem hmem
    refine ⟨before, after, rfl, ?_⟩
    intro y hy
    rw [List.map_append, List.nodup_append] at h
    have hne := h.2.2 y.1 (List.mem_map_of_mem hy) name (by simp)
    simpa using Ne.symm hne

theorem Entry.IsTree.names {e : Entry} (h : e.IsTree) {names : List String} {found : Entry}
    (hfound : e.get? names = some found) : ∀ name ∈ names, Path.IsName name.toList := by
  induction names generalizing e with
  | nil => simp
  | cons name names ih =>
    rw [get?_cons] at hfound
    obtain ⟨c, hc, hrest⟩ := Option.bind_eq_some_iff.mp hfound
    cases h with
    | file content => cases hc
    | link target => cases hc
    | directory hnames hnodup hbelow =>
      have hmem := (lookup_eq_some_of_nodup hnodup).mp hc
      exact List.forall_mem_cons.mpr ⟨hnames _ hmem, ih (hbelow _ hmem) hrest⟩

namespace Discovery

section Reachable

variable {hidden : List String → Bool}

theorem mem_below {names found : List String} {entries : List (String × Entry)} :
    found ∈ reachable.below hidden names entries ↔ ∃ x ∈ entries, hidden (names ++ [x.1]) = false ∧
      found ∈ reachable hidden (names ++ [x.1]) x.2 := by
  induction entries with
  | nil => simp [reachable.below]
  | cons x entries ih =>
    obtain ⟨name, e⟩ := x
    rw [reachable.below, List.mem_append, ih, List.exists_mem_cons_iff]
    cases hidden (names ++ [name]) <;> simp

def Visible (hidden : List String → Bool) (names rel : List String) : Prop :=
  ∀ front, front <+: rel → front ≠ [] → hidden (names ++ front) = false

theorem visible_nil (names : List String) : Visible hidden names [] := by
  intro front hfront hne
  exact absurd (List.prefix_nil.mp hfront) hne

theorem visible_cons {names rel : List String} {name : String} :
    Visible hidden names (name :: rel) ↔ hidden (names ++ [name]) = false ∧ Visible hidden (names ++ [name]) rel := by
  constructor
  · intro h
    refine ⟨h [name] (by simp) (by simp), ?_⟩
    intro front hfront _
    simpa using h (name :: front) (by simpa using hfront) (by simp)
  · rintro ⟨hname, hrel⟩ front hfront hne
    cases front with
    | nil => exact absurd rfl hne
    | cons first rest =>
      obtain ⟨rfl, hrest⟩ := List.cons_prefix_cons.mp hfront
      by_cases hnil : rest = []
      · rwa [hnil]
      · simpa using hrel rest hrest hnil

theorem mem_reachable {e : Entry} (h : e.IsTree) {names found : List String} :
    found ∈ reachable hidden names e ↔ ∃ rel content, found = names ++ rel ∧ e.get? rel = some (.file content) ∧
      Visible hidden names rel := by
  induction h generalizing names with
  | file content =>
    rw [reachable, List.mem_singleton]
    constructor
    · rintro rfl
      exact ⟨[], content, by simp, rfl, visible_nil _⟩
    · rintro ⟨rel, _, rfl, hget, -⟩
      cases rel with
      | nil => simp
      | cons name rel => cases hget
  | link target =>
    rw [reachable]
    simp only [List.not_mem_nil, false_iff]
    rintro ⟨rel, content, -, hget, -⟩
    cases rel with
    | nil => cases hget
    | cons name rel => cases hget
  | @directory entries hnames hnodup hbelow ih =>
    rw [reachable, mem_below]
    constructor
    · rintro ⟨x, hx, hvisible, hfound⟩
      obtain ⟨rel, content, rfl, hget, hrel⟩ := (ih x hx).mp hfound
      refine ⟨x.1 :: rel, content, by simp, ?_, visible_cons.mpr ⟨hvisible, hrel⟩⟩
      rw [Entry.get?_cons, Entry.child?, (lookup_eq_some_of_nodup hnodup).mpr hx]
      exact hget
    · rintro ⟨rel, content, rfl, hget, hrel⟩
      cases rel with
      | nil => cases hget
      | cons name rel =>
        rw [Entry.get?_cons] at hget
        obtain ⟨c, hc, hrest⟩ := Option.bind_eq_some_iff.mp hget
        obtain ⟨hvisible, hbehind⟩ := visible_cons.mp hrel
        have hmem := (lookup_eq_some_of_nodup hnodup).mp hc
        exact ⟨(name, c), hmem, hvisible, (ih _ hmem).mpr ⟨rel, content, by simp, hrest, hbehind⟩⟩

theorem reachable_nodup {e : Entry} (h : e.IsTree) (names : List String) : (reachable hidden names e).Nodup := by
  induction h generalizing names with
  | file content => simp [reachable]
  | link target => simp [reachable]
  | @directory entries hnames hnodup hbelow ih =>
    rw [reachable]
    clear hnames
    induction entries with
    | nil => simp [reachable.below]
    | cons x entries ihentries =>
      obtain ⟨hx, hentries⟩ := List.forall_mem_cons.mp ih
      obtain ⟨htree, htrees⟩ := List.forall_mem_cons.mp hbelow
      obtain ⟨hfresh, hnodup⟩ := List.nodup_cons.mp hnodup
      rw [reachable.below]
      apply List.Nodup.append
      · split_ifs
        · exact List.nodup_nil
        · exact hx _
      · exact ihentries hnodup htrees hentries
      · intro found hfirst hrest
        obtain ⟨y, hy, -, hyfound⟩ := mem_below.mp hrest
        split_ifs at hfirst
        · cases hfirst
        · obtain ⟨rel, _, rfl, -⟩ := (mem_reachable htree).mp hfirst
          obtain ⟨rel', _, heq, -⟩ := (mem_reachable (htrees y hy)).mp hyfound
          obtain ⟨hname, -⟩ : x.1 = y.1 ∧ rel = rel' := by simpa using heq
          exact hfresh (hname ▸ List.mem_map_of_mem hy)

end Reachable

theorem sorted_names {found : List (List String)} (h : found.Nodup) :
    (found.mergeSort namesLe).Pairwise (· < ·) := by
  have hiff : ∀ a b, namesLe a b = true ↔ ¬ b < a := by simp [namesLe]
  have hle : (found.mergeSort namesLe).Pairwise fun a b => namesLe a b = true := by
    apply List.pairwise_mergeSort
    · intro a b c hab hbc
      rw [hiff] at hab hbc ⊢
      exact List.not_lt.mpr (List.le_trans (List.not_lt.mp hab) (List.not_lt.mp hbc))
    · intro a b
      rw [Bool.or_eq_true, hiff, hiff]
      exact (List.le_total a b).imp List.not_lt.mpr List.not_lt.mpr
  have hnodup : (found.mergeSort namesLe).Nodup := (List.mergeSort_perm _ _).nodup_iff.mpr h
  refine (hle.and hnodup).imp ?_
  rintro a b ⟨hab, hne⟩
  exact (List.le_iff_lt_or_eq.mp (List.not_lt.mp ((hiff a b).mp hab))).resolve_right hne

end Discovery

namespace Discovery

theorem start?_of_stat {fs : FileSystem} {root : Path} {entries : List (String × Entry)}
    (h : fs.stat root = .ok (.directory entries)) : start? fs root = .ok (some (.directory entries)) := by
  obtain ⟨place, hplace, he⟩ := FileSystem.stat_ok h
  obtain ⟨place', hwalks, hend⟩ := (FileSystem.walks_of_walk (FileSystem.walk_of_follow hplace)).unfollowed
  have hfollow := FileSystem.follow_of_walk (FileSystem.text_ne_of_follow hplace) hwalks.walk_eq
  rw [start?, hfollow]
  rcases hend with rfl | ⟨target, htarget⟩
  · simp [he, bind, Except.bind, pure, Except.pure]
  · simp [FileSystem.outlineAt_eq_link.mp htarget, h, bind, Except.bind, pure, Except.pure]

theorem forall₂_filterMap {α β : Type} {find : α → Option β} {R : α → β → Prop} (xs : List α)
    (h : ∀ x ∈ xs, ∀ y, find x = some y → R x y) :
    List.Forall₂ R (xs.filter fun x => (find x).isSome) (xs.filterMap find) := by
  induction xs with
  | nil => exact .nil
  | cons x xs ih =>
    obtain ⟨hx, hxs⟩ := List.forall_mem_cons.mp h
    cases hfind : find x with
    | none => simpa [hfind] using ih hxs
    | some y => simpa [hfind] using ⟨hx y hfind, ih hxs⟩

end Discovery

def Path.below (root : Path) (names : List String) : Path := names.foldl (fun p n => p.join ⟨n⟩) root

theorem Path.below_components (root : Path) {names : List String} (h : ∀ name ∈ names, IsName name.toList) :
    (root.below names).components = root.components ++ names.map .name := by
  induction names generalizing root with
  | nil => simp [below]
  | cons name names ih =>
    obtain ⟨hname, hnames⟩ := List.forall_mem_cons.mp h
    have hrest := ih (root.join ⟨name⟩) hnames
    rw [join_components root hname] at hrest
    simpa [below] using hrest

namespace Discovery

/-- A regular file below a directory, reached without a link, whose path matches the pattern and whose name
tells a kind; neither the path nor any directory on it is ignored. -/
structure Wanted (top : Entry) (root : Path) (pattern : Pattern) (ignores : Ignores) (names : List String) : Prop where
  file : ∃ content, top.get? names = some (.file content)
  included : pattern.isMatch (Ignores.relativeText names) = true
  kind : (FileKind.ofPath? (root.below names)).isSome = true
  visible : ∀ front, front <+: names → front ≠ [] → ignores.hides front = false

def source? (root : Path) (pattern : Pattern) (names : List String) : Option SourceFile :=
  if pattern.isMatch (Ignores.relativeText names) then
    (FileKind.ofPath? (root.below names)).map (⟨root.below names, ·⟩)
  else none

theorem source?_some {root : Path} {pattern : Pattern} {names : List String} {f : SourceFile}
    (h : source? root pattern names = some f) :
    f.path = root.below names ∧ FileKind.ofPath? f.path = some f.kind := by
  rw [source?] at h
  split_ifs at h
  obtain ⟨kind, hkind, rfl⟩ := Option.map_eq_some_iff.mp h
  exact ⟨rfl, hkind⟩

theorem source?_isSome {root : Path} {pattern : Pattern} {names : List String} :
    (source? root pattern names).isSome = true ↔ pattern.isMatch (Ignores.relativeText names) = true ∧
      (FileKind.ofPath? (root.below names)).isSome = true := by
  rw [source?]
  split_ifs with hmatch <;> simp [hmatch]

theorem scan_finds_wanted {fs : FileSystem} {root : Path} {entries : List (String × Entry)} {text : String}
    {pattern : Pattern} (hroot : fs.stat root = .ok (.directory entries)) (htree : (Entry.directory entries).IsTree)
    (hpattern : Pattern.parse text = .ok pattern) (color verbose : Bool) (ignores : List String) :
    ∃ found wanted, scan fs color verbose root text ignores = .ok found ∧ found.skipped = 0 ∧
      wanted.Pairwise (· < ·) ∧
      (∀ names, names ∈ wanted ↔ Wanted (.directory entries) root pattern (Ignores.parse ignores).1 names) ∧
      List.Forall₂ (fun names f => f.path = root.below names ∧
        f.path.components = root.components ++ names.map .name ∧ FileKind.ofPath? f.path = some f.kind)
        wanted found.files := by
  let hidden := (Ignores.parse ignores).1.hides
  let sorted := (reachable hidden [] (.directory entries)).mergeSort namesLe
  have hmem : ∀ names, names ∈ sorted ↔ ∃ content, (Entry.directory entries).get? names = some (.file content) ∧
      Visible hidden [] names := by
    intro names
    rw [List.mem_mergeSort, mem_reachable htree]
    constructor
    · rintro ⟨rel, content, rfl, hfile, hvisible⟩
      exact ⟨content, hfile, hvisible⟩
    · rintro ⟨content, hfile, hvisible⟩
      exact ⟨names, content, rfl, hfile, hvisible⟩
  have hscan : ∃ found, scan fs color verbose root text ignores = .ok found ∧ found.skipped = 0 ∧
      found.files = sorted.filterMap (source? root pattern) := by
    simp only [scan, hpattern, start?_of_stat hroot, bind, Except.bind]
    exact ⟨_, rfl, rfl, rfl⟩
  obtain ⟨found, hfound, hskipped, hfiles⟩ := hscan
  refine ⟨found, sorted.filter fun names => (source? root pattern names).isSome, hfound, hskipped, ?_, ?_, ?_⟩
  · exact (sorted_names (reachable_nodup htree [])).filter _
  · intro names
    rw [List.mem_filter, hmem, source?_isSome]
    constructor
    · rintro ⟨⟨content, hfile, hvisible⟩, hincluded, hkind⟩
      exact ⟨⟨content, hfile⟩, hincluded, hkind, hvisible⟩
    · rintro ⟨⟨content, hfile⟩, hincluded, hkind, hvisible⟩
      exact ⟨⟨content, hfile, hvisible⟩, hincluded, hkind⟩
  · rw [hfiles]
    apply forall₂_filterMap
    intro names hnames f hf
    obtain ⟨content, hfile, -⟩ := (hmem names).mp hnames
    obtain ⟨hpath, hkind⟩ := source?_some hf
    exact ⟨hpath, by rw [hpath, Path.below_components root (htree.names hfile)], hkind⟩

def project : List (String × Entry) :=
  [("vendor", .directory [("a.php", .file (.ok []))]), ("c.php", .link "src/b.php"),
    ("src", .directory [("b.php", .file (.ok [])), ("a.blade.php", .file (.ok [])), ("a.js", .file (.ok []))])]

theorem project_isTree : (Entry.directory project).IsTree := by
  let all := ["vendor", "c.php", "src", "a.php", "b.php", "a.blade.php", "a.js"]
  have hall : ∀ name ∈ all, Path.IsName name.toList := by
    intro name hname
    constructor <;> revert name <;> decide
  have hnames {entries : List (String × Entry)} (h : entries.map Prod.fst ⊆ all) :
      ∀ x ∈ entries, Path.IsName x.1.toList := fun x hx => hall x.1 (h (List.mem_map_of_mem hx))
  refine .directory (hnames (by decide)) (by decide) ?_
  simp only [project, List.forall_mem_cons]
  refine ⟨.directory (hnames (by decide)) (by decide) ?_, .link _, .directory (hnames (by decide)) (by decide) ?_, by simp⟩
  all_goals simp [Entry.IsTree.file]

theorem project_stat : FileSystem.stat ⟨.directory project, []⟩ ⟨"."⟩ = .ok (.directory project) := by
  have hsteps : FileSystem.steps ⟨"."⟩ = ["."] := by decide
  have hrelative : Path.isAbsolute ⟨"."⟩ = false := by decide
  have hfollow : FileSystem.follow ⟨.directory project, []⟩ true ⟨"."⟩ = .ok [] := by
    simp [FileSystem.follow, hsteps, hrelative, FileSystem.walk, Entry.get?]
  simp only [FileSystem.stat, hfollow]
  rfl

theorem scan_finds_wanted_project :
    (Entry.directory project).IsTree ∧ FileSystem.stat ⟨.directory project, []⟩ ⟨"."⟩ = .ok (.directory project) ∧
    ∃ pattern found wanted, Pattern.parse "**/*.php" = .ok pattern ∧
      scan ⟨.directory project, []⟩ false false ⟨"."⟩ "**/*.php" ["vendor/"] = .ok found ∧
      wanted.Pairwise (· < ·) ∧ ["src", "b.php"] ∈ wanted ∧ ["vendor", "a.php"] ∉ wanted ∧ ["c.php"] ∉ wanted ∧
      List.Forall₂ (fun names f => f.path = Path.below ⟨"."⟩ names) wanted found.files := by
  refine ⟨project_isTree, project_stat, ?_⟩
  let pattern : Pattern := [.anyComponents, .anySequence, .char '.', .char 'p', .char 'h', .char 'p']
  have hpattern : Pattern.parse "**/*.php" = .ok pattern := by decide +kernel
  obtain ⟨found, wanted, hscan, -, hsorted, hwanted, hfiles⟩ :=
    scan_finds_wanted project_stat project_isTree hpattern false false ["vendor/"]
  refine ⟨pattern, found, wanted, hpattern, hscan, hsorted, ?_, ?_, ?_, hfiles.imp fun _ _ h => h.1⟩
  · refine (hwanted _).mpr ⟨⟨.ok [], rfl⟩, by decide, by decide, ?_⟩
    have hfronts : ∀ front ∈ ["src", "b.php"].inits, front ≠ [] → (Ignores.parse ["vendor/"]).1.hides front = false := by
      decide
    exact fun front hfront => hfronts front ((List.mem_inits _ _).mpr hfront)
  · intro hmem
    have hhidden : (Ignores.parse ["vendor/"]).1.hides ["vendor"] = true := by decide
    have hvisible := ((hwanted _).mp hmem).visible ["vendor"] (by simp) (by simp)
    exact absurd (hhidden.symm.trans hvisible) (by decide)
  · intro hmem
    obtain ⟨content, hcontent⟩ := ((hwanted _).mp hmem).file
    cases hcontent

end Discovery

end VisibleText
