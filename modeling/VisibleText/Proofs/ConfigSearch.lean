import Mathlib.Data.List.Infix
import VisibleText.Config
import VisibleText.Proofs.PathWalks
import VisibleText.Proofs.Paths

namespace VisibleText

namespace Path

instance (name : List Char) : Decidable (IsName name) :=
  decidable_of_iff ('/' ∉ name ∧ name ≠ [] ∧ name ≠ ['.'] ∧ name ≠ ['.', '.'])
    ⟨fun h => ⟨h.1, h.2.1, h.2.2.1, h.2.2.2⟩, fun h => ⟨h.notMem, h.ne_nil, h.ne_dot, h.ne_dots⟩⟩

theorem IsName.proper {name : String} (h : IsName name.toList) : name ≠ "." ∧ name ≠ ".." := by
  constructor
  · rintro rfl
    exact h.ne_dot rfl
  · rintro rfl
    exact h.ne_dots rfl

theorem length_piecesFrom_le (read : ℕ) (piece cs : List Char) : (piecesFrom read piece cs).length ≤ cs.length + 1 := by
  induction cs generalizing read piece with
  | nil => simp [piecesFrom]
  | cons c cs ih =>
    rw [piecesFrom, List.length_cons]
    split_ifs
    · rw [List.length_cons]
      have := ih (read + 1) []
      omega
    · have := ih (read + 1) (c :: piece)
      omega

theorem length_components_le (p : Path) : p.components.length ≤ p.text.length + 1 := by
  obtain ⟨first, rest, hpieces⟩ := List.exists_cons_of_ne_nil (piecesFrom_ne_nil 0 [] p.text.toList)
  have hlength := length_piecesFrom_le 0 [] p.text.toList
  have hfront := front_length_le first rest.isEmpty
  have hbehind : (behind rest).length ≤ rest.length := List.length_filterMap_le _ _
  rw [hpieces, List.length_cons, String.length_toList] at hlength
  rw [components, List.length_map, located_eq hpieces, List.length_append]
  omega

theorem ne_root_of_mem_tail {p : Path} {c : Component} (h : c ∈ p.components.tail) : c ≠ .root := by
  obtain ⟨first, rest, hpieces⟩ := List.exists_cons_of_ne_nil (piecesFrom_ne_nil 0 [] p.text.toList)
  have hbehind : c ∈ (behind rest).map Prod.fst := by
    have hfront := front_length_le first rest.isEmpty
    rw [components, located_eq hpieces] at h
    cases hx : front first rest.isEmpty with
    | nil =>
      rw [hx, List.nil_append] at h
      exact List.mem_of_mem_tail h
    | cons x xs =>
      rw [hx, List.length_cons] at hfront
      obtain rfl : xs = [] := List.length_eq_zero_iff.mp (by omega)
      rw [hx] at h
      exact h
  obtain ⟨x, hx, rfl⟩ := List.mem_map.mp hbehind
  obtain ⟨y, -, hy⟩ := List.mem_filterMap.mp hx
  obtain ⟨c, hc, rfl⟩ := Option.map_eq_some_iff.mp hy
  rintro rfl
  simp only [component?] at hc
  split_ifs at hc <;> cases hc

theorem parent?_eq_none_iff {p : Path} :
    p.parent? = none ↔ p.components = [] ∨ p.components.getLast? = some .root := by
  rw [components, List.getLast?_map, List.getLast?_eq_head?_reverse, List.map_eq_nil_iff, ← List.reverse_eq_nil_iff,
    parent?]
  cases p.located.reverse with
  | nil => simp
  | cons x before =>
    obtain ⟨c, n⟩ := x
    cases c <;> cases before <;> simp

theorem parent?_length_lt {p above : Path} (h : p.parent? = some above) :
    above.components.length < p.components.length := by
  have hne : p.components ≠ [] := by
    intro hnil
    rw [parent?, List.map_eq_nil_iff.mp hnil] at h
    cases h
  have := List.length_pos_iff.mpr hne
  rw [parent?_components h, List.length_dropLast]
  omega

def lineage (p : Path) : List Path :=
  match _ : p.parent? with
  | none => [p]
  | some above => p :: lineage above
termination_by p.components.length
decreasing_by exact parent?_length_lt ‹_›

theorem lineage_none {p : Path} (h : p.parent? = none) : p.lineage = [p] := by
  rw [lineage]
  split
  · rfl
  · next hsome => cases h.symm.trans hsome

theorem lineage_some {p above : Path} (h : p.parent? = some above) : p.lineage = p :: above.lineage := by
  rw [lineage]
  split
  · next hnone => cases h.symm.trans hnone
  · next hsome => rw [Option.some.inj (h.symm.trans hsome)]

theorem components_of_isAbsolute {p : Path} (h : p.isAbsolute = true) : ∃ rest, p.components = .root :: rest := by
  rw [isAbsolute, decide_eq_true_eq] at h
  exact ⟨_, List.eq_cons_of_mem_head? h⟩

theorem parent?_eq_none_iff_top {p : Path} (h : p.isAbsolute = true) : p.parent? = none ↔ p.components = [.root] := by
  obtain ⟨rest, hp⟩ := components_of_isAbsolute h
  rw [parent?_eq_none_iff, hp]
  cases rest with
  | nil => simp
  | cons c rest =>
    have hlast : (c :: rest).getLast? ≠ some .root := by
      intro hroot
      have hmem : Component.root ∈ p.components.tail := by
        rw [hp]
        exact List.mem_of_getLast? hroot
      exact ne_root_of_mem_tail hmem rfl
    simpa using hlast

theorem components_parent? {p above : Path} (habs : p.isAbsolute = true) (h : p.parent? = some above) :
    above.isAbsolute = true ∧ ∃ c, p.components = above.components ++ [c] := by
  obtain ⟨rest, hp⟩ := components_of_isAbsolute habs
  have hrest : rest ≠ [] := by
    rintro rfl
    cases h.symm.trans ((parent?_eq_none_iff_top habs).mpr hp)
  obtain ⟨front, c, rfl⟩ := (List.eq_nil_or_concat' rest).resolve_left hrest
  have habove : above.components = .root :: front := by
    rw [parent?_components h, hp, ← List.cons_append, List.dropLast_concat]
  refine ⟨?_, c, ?_⟩
  · rw [isAbsolute, habove]
    rfl
  · rw [hp, habove]
    rfl

theorem isAbsolute_join {p : Path} (h : p.isAbsolute = true) {name : String} (hname : IsName name.toList) :
    (p.join ⟨name⟩).isAbsolute = true := by
  obtain ⟨rest, hp⟩ := components_of_isAbsolute h
  rw [isAbsolute, join_components p hname, hp]
  rfl

theorem text_ne_of_isAbsolute {p : Path} (h : p.isAbsolute = true) : p.text ≠ "" := by
  intro hempty
  obtain rfl : p = ⟨""⟩ := congrArg Path.mk hempty
  cases h

theorem lineage_components {p : Path} (h : p.isAbsolute = true) :
    p.lineage.map components = p.components.inits.tail.reverse := by
  induction p using lineage.induct with
  | case1 p hnone =>
    rw [lineage_none hnone, List.map_singleton, (parent?_eq_none_iff_top h).mp hnone]
    rfl
  | case2 p above hsome ih =>
    obtain ⟨habove, c, hp⟩ := components_parent? h hsome
    have hinits : above.components.inits ≠ [] := by
      apply List.ne_nil_of_length_pos
      simp
    rw [lineage_some hsome, List.map_cons, ih habove, hp, List.inits_append, List.tail_append_of_ne_nil hinits]
    simp

theorem length_lineage {p : Path} (h : p.isAbsolute = true) : p.lineage.length ≤ p.text.length + 1 := by
  have hlength := congrArg List.length (lineage_components h)
  rw [List.length_map, List.length_reverse, List.length_tail, List.length_inits] at hlength
  have := length_components_le p
  omega

end Path

namespace FileSystem

def entryIn? (fs : FileSystem) (dir : Path) (name : String) : Option Entry :=
  (fs.stat dir).toOption.bind (Entry.child? name)

def Holds (fs : FileSystem) (dir : Path) (name : String) : Prop :=
  ∃ e, fs.entryIn? dir name = some e ∧ ∀ target, e = .link target → ∃ found, fs.stat (dir.join ⟨name⟩) = .ok found

theorem entryIn?_eq_some_iff {fs : FileSystem} {dir : Path} {name : String} {e : Entry} :
    fs.entryIn? dir name = some e ↔
      ∃ entries, fs.stat dir = .ok (.directory entries) ∧ entries.lookup name = some e := by
  rw [entryIn?]
  cases fs.stat dir with
  | error err => simp [Except.toOption]
  | ok found => cases found <;> simp [Except.toOption, Entry.child?]

theorem entryIn?_of_stat {fs : FileSystem} {dir : Path} {e : Entry} (h : fs.stat dir = .ok e) (name : String) :
    fs.entryIn? dir name = e.child? name := by
  rw [entryIn?, h]
  rfl

theorem not_holds_of_stat {fs : FileSystem} {dir : Path} {e : Entry} {name : String} (h : fs.stat dir = .ok e)
    (hname : e.child? name = none) : ¬ fs.Holds dir name := by
  rintro ⟨found, hfound, -⟩
  cases (hfound.symm.trans (entryIn?_of_stat h name)).trans hname

theorem stat_eq_ok_iff_of_walks {fs : FileSystem} {p : Path} {names place : List String} (hp : p.isAbsolute = true)
    (hsteps : steps p = names) (h : Walks fs true maxLinks [] names place) {e : Entry} :
    fs.stat p = .ok e ↔ fs.root.get? place = some e := by
  have hfollow : fs.follow true p = .ok place := by
    have hstart : fs.start p = [] := if_pos hp
    apply follow_of_walk (Path.text_ne_of_isAbsolute hp)
    rw [hstart, hsteps]
    exact h.walk_eq
  constructor
  · intro hstat
    obtain ⟨place', hfollow', he⟩ := stat_ok hstat
    rwa [Except.ok.inj (hfollow.symm.trans hfollow')]
  · exact stat_of_follow hfollow

theorem stat_top (fs : FileSystem) : fs.stat ⟨"/"⟩ = .ok fs.root :=
  (stat_eq_ok_iff_of_walks (by decide) (show _ = [] by decide) .done).mpr rfl

theorem start_join {fs : FileSystem} {dir : Path} (h : dir.isAbsolute = true) {name : String}
    (hname : Path.IsName name.toList) : fs.start (dir.join ⟨name⟩) = fs.start dir := by
  rw [start, start, h, Path.isAbsolute_join h hname]

theorem descends_of_join {fs : FileSystem} {dir : Path} {name : String} (hname : Path.IsName name.toList)
    {above there here : List String} {links links' : ℕ} (hsteps : steps (dir.join ⟨name⟩) = above ++ [name]) :
    Descends fs links here above links' there ↔ Descends fs links here (steps dir) links' there := by
  have hfilter := Path.steps_filter (dir.join ⟨name⟩)
  have hkeep : [name].filter (· ≠ ".") = [name] := List.filter_cons_of_pos (by simpa using hname.proper.1)
  rw [hsteps, Path.join_components dir hname, List.filter_append, hkeep, List.filterMap_append,
    ← Path.steps_filter] at hfilter
  have hsame := List.append_cancel_right hfilter
  exact ⟨fun h => h.congr hsame.symm, fun h => h.congr hsame⟩

theorem stat_join {fs : FileSystem} {dir p : Path} (name : String) {entries : List (String × Entry)} {e : Entry}
    (habs : dir.isAbsolute = true) (hname : Path.IsName name.toList) (hp : dir.join ⟨name⟩ = p)
    (hdir : fs.stat dir = .ok (.directory entries)) (hentry : entries.lookup name = some e)
    (hlink : ∀ target, e ≠ .link target) : fs.stat p = .ok e := by
  obtain ⟨above, hsteps⟩ := Path.join_steps dir hname
  obtain ⟨there, hfollow, hentries⟩ := stat_ok hdir
  obtain ⟨links, hthere⟩ := (walks_of_walk (walk_of_follow hfollow)).descends
    (outlineAt_eq_directory.mpr ⟨entries, hentries⟩)
  rw [← descends_of_join hname hsteps, ← start_join habs hname] at hthere
  have hplace : fs.root.get? (there ++ [name]) = some e := (Entry.get?_concat_directory hentries name).trans hentry
  have hjoin : fs.follow true (dir.join ⟨name⟩) = .ok (there ++ [name]) := by
    apply follow_of_descends (Path.text_ne_of_isAbsolute (Path.isAbsolute_join habs hname)) hsteps hthere hname.proper.1
      hname.proper.2
    rintro - target htarget
    exact hlink target (Option.some.inj (hplace.symm.trans htarget))
  rw [← hp]
  exact stat_of_follow hjoin hplace

theorem entryIn?_of_stat_join {fs : FileSystem} {dir : Path} {name : String} {e : Entry} (habs : dir.isAbsolute = true)
    (hname : Path.IsName name.toList) (h : fs.stat (dir.join ⟨name⟩) = .ok e) :
    ∃ found, fs.entryIn? dir name = some found := by
  obtain ⟨above, hsteps⟩ := Path.join_steps dir hname
  obtain ⟨place, hfollow, hplace⟩ := stat_ok h
  have hwalk := walk_of_follow hfollow
  rw [hsteps, start_join habs hname] at hwalk
  obtain ⟨links, there, hthere, hlast⟩ := descends_of_walk hwalk
  obtain ⟨entries, hentries⟩ := outlineAt_eq_directory.mp hthere.directory
  have hdir : fs.follow true dir = .ok there :=
    follow_of_walk (Path.text_ne_of_isAbsolute habs) ((descends_of_join hname hsteps).mp hthere).walks.walk_eq
  cases hentry : entries.lookup name with
  | some found => exact ⟨found, entryIn?_eq_some_iff.mpr ⟨entries, stat_of_follow hdir hentries, hentry⟩⟩
  | none =>
    -- a missing name is reached, but nothing is there
    have hnone : fs.root.get? (there ++ [name]) = none := (Entry.get?_concat_directory hentries name).trans hentry
    have hmissing : fs.walk true links there [name] = .ok (there ++ [name]) := by
      apply walk_name hthere.directory hname.proper.1 hname.proper.2
      rintro - target htarget
      cases hnone.symm.trans htarget
    rw [← Except.ok.inj (hmissing.symm.trans hlast), hnone] at hplace
    cases hplace

theorem doesExist_join_iff (fs : FileSystem) {dir : Path} (habs : dir.isAbsolute = true) {name : String}
    (hname : Path.IsName name.toList) : fs.doesExist (dir.join ⟨name⟩) = true ↔ fs.Holds dir name := by
  rw [doesExist_iff]
  constructor
  · rintro ⟨e, he⟩
    obtain ⟨found, hfound⟩ := entryIn?_of_stat_join habs hname he
    exact ⟨found, hfound, fun _ _ => ⟨e, he⟩⟩
  · rintro ⟨e, hentry, hlink⟩
    by_cases htarget : ∃ target, e = .link target
    · obtain ⟨target, htarget⟩ := htarget
      exact hlink target htarget
    · obtain ⟨entries, hdir, hlookup⟩ := entryIn?_eq_some_iff.mp hentry
      exact ⟨e, stat_join name habs hname rfl hdir hlookup (not_exists.mp htarget)⟩

end FileSystem

namespace Config

/-- The first of some directories that has a configuration, if none before it is the top of a repository. -/
def Nearest (holds : Path → String → Prop) (dirs : List Path) (dir : Path) : Prop :=
  ∃ below above, dirs = below ++ dir :: above ∧ holds dir fileName ∧
    ∀ d ∈ below, ¬ holds d fileName ∧ ¬ holds d ".git"

theorem nearest_cons {holds : Path → String → Prop} {d dir : Path} {dirs : List Path} :
    Nearest holds (d :: dirs) dir ↔ d = dir ∧ holds d fileName ∨
      ¬ holds d fileName ∧ ¬ holds d ".git" ∧ Nearest holds dirs dir := by
  constructor
  · rintro ⟨below, above, hdirs, hdir, hbelow⟩
    cases below with
    | nil =>
      obtain ⟨rfl, -⟩ := List.cons.inj hdirs
      exact .inl ⟨rfl, hdir⟩
    | cons first below =>
      obtain ⟨rfl, hrest⟩ := List.cons.inj hdirs
      rw [List.forall_mem_cons] at hbelow
      exact .inr ⟨hbelow.1.1, hbelow.1.2, below, above, hrest, hdir, hbelow.2⟩
  · rintro (⟨rfl, hdir⟩ | ⟨hfile, hgit, below, above, rfl, hdir, hbelow⟩)
    · exact ⟨[], dirs, rfl, hdir, by simp⟩
    · exact ⟨d :: below, above, rfl, hdir, List.forall_mem_cons.mpr ⟨⟨hfile, hgit⟩, hbelow⟩⟩

theorem not_nearest_nil {holds : Path → String → Prop} {dir : Path} : ¬ Nearest holds [] dir := by
  rintro ⟨below, above, hdirs, -⟩
  simp at hdirs

theorem findFrom_succ_iff (fs : FileSystem) (depth : ℕ) {start : Path} (habs : start.isAbsolute = true) (file : Path) :
    findFrom fs (depth + 1) start = some file ↔
      fs.Holds start fileName ∧ file = start.join ⟨fileName⟩ ∨ ¬ fs.Holds start fileName ∧ ¬ fs.Holds start ".git" ∧
        ∃ above, start.parent? = some above ∧ findFrom fs depth above = some file := by
  have hfile : fs.doesExist (start.join ⟨fileName⟩) = true ↔ fs.Holds start fileName :=
    fs.doesExist_join_iff habs (by decide)
  have hgit : fs.doesExist (start.join ⟨".git"⟩) = true ↔ fs.Holds start ".git" :=
    fs.doesExist_join_iff habs (by decide)
  rw [findFrom, ← hfile, ← hgit]
  split_ifs with hhere hstop
  · rw [Option.some_inj, eq_comm]
    simp [hhere]
  · simp [hhere, hstop]
  · cases hparent : start.parent? with
    | none => simp [hhere]
    | some above => simp [hhere, hstop]

theorem findFrom_eq_some_iff (fs : FileSystem) {depth : ℕ} {start : Path} (habs : start.isAbsolute = true)
    (hdepth : start.lineage.length ≤ depth) (file : Path) :
    findFrom fs depth start = some file ↔ ∃ dir, Nearest fs.Holds start.lineage dir ∧ file = dir.join ⟨fileName⟩ := by
  induction start using Path.lineage.induct generalizing depth with
  | case1 start hnone =>
    rw [Path.lineage_none hnone] at hdepth ⊢
    obtain ⟨depth, rfl⟩ := Nat.exists_eq_add_of_le' hdepth
    change findFrom fs (depth + 1) start = some file ↔ _
    simp [findFrom_succ_iff fs depth habs, hnone, nearest_cons, not_nearest_nil]
  | case2 start above hsome ih =>
    rw [Path.lineage_some hsome, List.length_cons] at hdepth
    obtain ⟨depth, rfl⟩ := Nat.exists_eq_add_of_le' (Nat.le_of_add_left_le hdepth)
    have habove : findFrom fs depth above = some file ↔
        ∃ dir, Nearest fs.Holds above.lineage dir ∧ file = dir.join ⟨fileName⟩ :=
      ih (Path.components_parent? habs hsome).1 (by omega)
    rw [findFrom_succ_iff fs depth habs, Path.lineage_some hsome]
    simp only [nearest_cons, hsome, Option.some.injEq, exists_eq_left', habove]
    constructor
    · rintro (⟨hfile, rfl⟩ | ⟨hfile, hgit, dir, hdir, rfl⟩)
      · exact ⟨start, .inl ⟨rfl, hfile⟩, rfl⟩
      · exact ⟨dir, .inr ⟨hfile, hgit, hdir⟩, rfl⟩
    · rintro ⟨dir, ⟨rfl, hfile⟩ | ⟨hfile, hgit, hdir⟩, rfl⟩
      · exact .inl ⟨hfile, rfl⟩
      · exact .inr ⟨hfile, hgit, dir, hdir, rfl⟩

def unlinked : FileSystem := ⟨.directory [(".i18nrc.json", .file (.ok (utf8 "\x7b\x7d".toList))),
  ("app", .directory [(".git", .link "gone")])], []⟩

theorem find?_beyond_broken_link :
    find? unlinked ⟨"/app"⟩ = some ⟨"/.i18nrc.json"⟩ ∧ unlinked.entryIn? ⟨"/app"⟩ ".git" = some (.link "gone") ∧
      ∀ dir, ¬ Nearest (fun d name => unlinked.entryIn? d name ≠ none) (Path.lineage ⟨"/app"⟩) dir := by
  have hparent : Path.parent? ⟨"/app"⟩ = some ⟨"/"⟩ := by decide
  have htop : Path.parent? ⟨"/"⟩ = none := by decide
  have hlineage : Path.lineage ⟨"/app"⟩ = [⟨"/app"⟩, ⟨"/"⟩] := by
    rw [Path.lineage_some hparent, Path.lineage_none htop]
  have hroot := unlinked.stat_top
  have happ : unlinked.stat ⟨"/app"⟩ = .ok (.directory [(".git", .link "gone")]) :=
    FileSystem.stat_join "app" (by decide) (by decide) (by decide) hroot rfl (by rintro target ⟨⟩)
  have hfile : unlinked.entryIn? ⟨"/app"⟩ fileName = none := FileSystem.entryIn?_of_stat happ fileName
  have hmark : unlinked.entryIn? ⟨"/app"⟩ ".git" = some (.link "gone") := FileSystem.entryIn?_of_stat happ ".git"
  refine ⟨?_, hmark, ?_⟩
  · have hbroken : ¬ unlinked.Holds ⟨"/app"⟩ ".git" := by
      rintro ⟨e, he, hlink⟩
      obtain ⟨found, hfound⟩ := hlink "gone" (Option.some.inj (he.symm.trans hmark))
      have hwalks : FileSystem.Walks unlinked true FileSystem.maxLinks [] ["app", ".git"] ["app", "gone"] := by
        apply FileSystem.Walks.enter rfl (by decide) (by decide) rfl (by rintro target ⟨⟩)
        apply FileSystem.Walks.link rfl (by decide) (by decide) rfl (.inl rfl)
        have htarget : FileSystem.steps ⟨"gone"⟩ = ["gone"] := by decide
        have hrelative : Path.isAbsolute ⟨"gone"⟩ = false := by decide
        rw [htarget, hrelative]
        exact .missing rfl (by decide) (by decide) rfl
      cases (FileSystem.stat_eq_ok_iff_of_walks (by decide) (by decide) hwalks).mp hfound
    have hholds : unlinked.Holds ⟨"/"⟩ fileName :=
      ⟨_, FileSystem.entryIn?_of_stat hroot fileName, by rintro target ⟨⟩⟩
    apply (findFrom_eq_some_iff unlinked (by decide) (Path.length_lineage (by decide)) _).mpr
    refine ⟨⟨"/"⟩, ?_, by decide⟩
    rw [hlineage]
    exact nearest_cons.mpr (.inr ⟨FileSystem.not_holds_of_stat happ rfl, hbroken, nearest_cons.mpr (.inl ⟨rfl, hholds⟩)⟩)
  · intro dir hdir
    rw [hlineage, nearest_cons] at hdir
    rcases hdir with ⟨-, hhas⟩ | ⟨-, hnone, -⟩
    · exact hhas hfile
    · exact hnone (by simp [hmark])

theorem find?_nearest (fs : FileSystem) {start : Path} (habs : start.isAbsolute = true) :
    (∀ file, find? fs start = some file ↔ ∃ dir, Nearest fs.Holds start.lineage dir ∧ file = dir.join ⟨fileName⟩) ∧
    (find? fs start = none ↔ ∀ dir, ¬ Nearest fs.Holds start.lineage dir) ∧
    start.lineage.map Path.components = start.components.inits.tail.reverse ∧
    ∀ depth, start.lineage.length ≤ depth → findFrom fs depth start = find? fs start := by
  have hfound := findFrom_eq_some_iff fs habs (Path.length_lineage habs)
  refine ⟨hfound, ?_, Path.lineage_components habs, ?_⟩
  · rw [Option.eq_none_iff_forall_ne_some]
    constructor
    · intro hnone dir hdir
      exact hnone _ ((hfound _).mpr ⟨dir, hdir, rfl⟩)
    · intro hnone file hfile
      obtain ⟨dir, hdir, -⟩ := (hfound file).mp hfile
      exact hnone dir hdir
  · intro depth hdepth
    apply Option.ext
    intro file
    exact (findFrom_eq_some_iff fs habs hdepth file).trans (hfound file).symm

def nested : FileSystem := ⟨.directory [(".i18nrc.json", .file (.ok [])), ("repo", .directory [(".git", .directory []),
  (".i18nrc.json", .file (.ok [])), ("app", .directory [("vendor", .directory [(".git", .file (.ok [])),
    ("src", .directory [])])])])], []⟩

theorem find?_nearest_nested :
    find? nested ⟨"/repo/app"⟩ = some ⟨"/repo/.i18nrc.json"⟩ ∧ find? nested ⟨"/repo/app/vendor/src"⟩ = none ∧
      findFrom nested 3 ⟨"/repo/app"⟩ = find? nested ⟨"/repo/app"⟩ := by
  have hrepo : nested.stat ⟨"/repo"⟩ = .ok (.directory [(".git", .directory []), (".i18nrc.json", .file (.ok [])),
      ("app", .directory [("vendor", .directory [(".git", .file (.ok [])), ("src", .directory [])])])]) :=
    FileSystem.stat_join "repo" (by decide) (by decide) (by decide) nested.stat_top rfl
      (by rintro target ⟨⟩)
  have happ : nested.stat ⟨"/repo/app"⟩ =
      .ok (.directory [("vendor", .directory [(".git", .file (.ok [])), ("src", .directory [])])]) :=
    FileSystem.stat_join "app" (by decide) (by decide) (by decide) hrepo rfl (by rintro target ⟨⟩)
  have hvendor : nested.stat ⟨"/repo/app/vendor"⟩ = .ok (.directory [(".git", .file (.ok [])), ("src", .directory [])]) :=
    FileSystem.stat_join "vendor" (by decide) (by decide) (by decide) happ rfl (by rintro target ⟨⟩)
  have hsrc : nested.stat ⟨"/repo/app/vendor/src"⟩ = .ok (.directory []) :=
    FileSystem.stat_join "src" (by decide) (by decide) (by decide) hvendor rfl (by rintro target ⟨⟩)
  have hconfig : nested.Holds ⟨"/repo"⟩ fileName := ⟨_, FileSystem.entryIn?_of_stat hrepo fileName, by rintro target ⟨⟩⟩
  have hmark : nested.Holds ⟨"/repo/app/vendor"⟩ ".git" :=
    ⟨_, FileSystem.entryIn?_of_stat hvendor ".git", by rintro target ⟨⟩⟩
  have happUp : Path.parent? ⟨"/repo/app"⟩ = some ⟨"/repo"⟩ := by decide
  have hrepoUp : Path.parent? ⟨"/repo"⟩ = some ⟨"/"⟩ := by decide
  have hsrcUp : Path.parent? ⟨"/repo/app/vendor/src"⟩ = some ⟨"/repo/app/vendor"⟩ := by decide
  have hvendorUp : Path.parent? ⟨"/repo/app/vendor"⟩ = some ⟨"/repo/app"⟩ := by decide
  have htop : Path.parent? ⟨"/"⟩ = none := by decide
  have happLineage : Path.lineage ⟨"/repo/app"⟩ = [⟨"/repo/app"⟩, ⟨"/repo"⟩, ⟨"/"⟩] := by
    rw [Path.lineage_some happUp, Path.lineage_some hrepoUp, Path.lineage_none htop]
  obtain ⟨hfound, -, -, hdepth⟩ := @find?_nearest nested ⟨"/repo/app"⟩ (by decide)
  obtain ⟨-, hmissing, -⟩ := @find?_nearest nested ⟨"/repo/app/vendor/src"⟩ (by decide)
  refine ⟨?_, ?_, hdepth 3 (by rw [happLineage]; decide)⟩
  · refine (hfound _).mpr ⟨⟨"/repo"⟩, ?_, by decide⟩
    rw [happLineage]
    exact nearest_cons.mpr (.inr ⟨FileSystem.not_holds_of_stat happ rfl, FileSystem.not_holds_of_stat happ rfl,
      nearest_cons.mpr (.inl ⟨rfl, hconfig⟩)⟩)
  · apply hmissing.mpr
    intro dir hdir
    rw [Path.lineage_some hsrcUp, Path.lineage_some hvendorUp, nearest_cons, nearest_cons] at hdir
    rcases hdir with ⟨-, hhere⟩ | ⟨-, -, ⟨-, hhere⟩ | ⟨-, hstop, -⟩⟩
    · exact FileSystem.not_holds_of_stat hsrc rfl hhere
    · exact FileSystem.not_holds_of_stat hvendor rfl hhere
    · exact hstop hmark

end Config

end VisibleText
