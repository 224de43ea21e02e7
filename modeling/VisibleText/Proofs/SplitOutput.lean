import Mathlib.Data.List.Forall2
import Mathlib.Data.List.Nodup
import VisibleText.Proofs.FileTree
import VisibleText.Proofs.Paths
import VisibleText.Record.Output

namespace VisibleText

theorem flatten_chunksOf {α : Type} (limit : ℕ) (xs : List α) : (chunksOf limit xs).flatten = xs := by
  fun_induction chunksOf limit xs with
  | case1 => rfl
  | case2 x rest ih =>
    rw [List.flatten_cons, ih]
    exact List.take_append_drop (limit - 1 + 1) (x :: rest)

theorem chunksOf_lengths {α : Type} {limit : ℕ} (hlimit : 1 ≤ limit) {xs : List α} (hxs : xs ≠ []) :
    ∃ front last, chunksOf limit xs = front ++ [last] ∧ (∀ piece ∈ front, piece.length = limit) ∧
      1 ≤ last.length ∧ last.length ≤ limit := by
  fun_induction chunksOf limit xs with
  | case1 => exact absurd rfl hxs
  | case2 x rest ih =>
    have hfirst : ((x :: rest).take (limit - 1 + 1)).length = min limit (rest.length + 1) := by
      rw [List.length_take, List.length_cons, Nat.sub_add_cancel hlimit]
    by_cases hrest : rest.drop (limit - 1) = []
    · refine ⟨[], _, by rw [hrest, chunksOf]; rfl, nofun, ?_, ?_⟩ <;> omega
    · obtain ⟨front, last, hsplit, hfront, hlast⟩ := ih hrest
      refine ⟨_ :: front, last, by rw [hsplit]; rfl, ?_, hlast⟩
      intro piece hpiece
      rcases List.mem_cons.mp hpiece with rfl | hpiece
      · have hlong := List.length_pos_of_ne_nil hrest
        rw [List.length_drop] at hlong
        omega
      · exact hfront piece hpiece

/-- The pieces are the records in order; under a limit that they pass, every piece is full but for the last. -/
structure IsSplit (limit : Option ℕ) (records : List Record) (pieces : List (List Record)) : Prop where
  flatten : pieces.flatten = records
  full : ∀ k, limit = some k → 1 ≤ k → k < records.length → ∃ front last, pieces = front ++ [last] ∧
    (∀ piece ∈ front, piece.length = k) ∧ 1 ≤ last.length ∧ last.length ≤ k
  whole : (∀ k, limit = some k → 1 ≤ k → records.length ≤ k) → pieces = [records]

theorem isSplit_splitRecords (limit : Option ℕ) (records : List Record) :
    IsSplit limit records (splitRecords limit records) := by
  cases limit with
  | none => exact ⟨List.flatten_singleton, nofun, fun _ => rfl⟩
  | some k =>
    rw [splitRecords]
    split_ifs with hk
    · refine ⟨flatten_chunksOf k records, ?_, ?_⟩
      · rintro _ ⟨⟩ hpos hlong
        exact chunksOf_lengths hpos (List.ne_nil_of_length_pos (by omega))
      · intro hshort
        have := hshort k rfl hk.1
        omega
    · refine ⟨List.flatten_singleton, ?_, fun _ => rfl⟩
      rintro _ ⟨⟩ hpos hlong
      exact absurd ⟨hpos, hlong⟩ hk

namespace Path

variable {p : Path} {name : String}

theorem numberedName_proper (h : p.fileName? = some name) (n : ℕ) :
    numberedName name n ≠ "." ∧ numberedName name n ≠ ".." := by
  have hproper := isName_numberedName (isName_of_fileName? h) n
  constructor
  · intro heq
    exact hproper.ne_dot (by rw [heq]; rfl)
  · intro heq
    exact hproper.ne_dots (by rw [heq]; rfl)

theorem numbered_steps (h : p.fileName? = some name) {n : ℕ} (hn : 2 ≤ n) :
    ∃ above, FileSystem.steps (p.numbered n) = above ++ [numberedName name n] := by
  obtain ⟨base, -, hnumbered⟩ := numbered_eq h hn
  rw [hnumbered]
  exact join_steps base (isName_numberedName (isName_of_fileName? h) n)

theorem numbered_steps_filter (h : p.fileName? = some name) (n : ℕ) :
    (FileSystem.steps (p.numbered n)).filter (· ≠ ".") =
      p.components.dropLast.filterMap Component.step? ++ [numberedName name n] := by
  rw [steps_filter, numbered_components h, List.filterMap_append]
  rfl

theorem numbered_isAbsolute (h : p.fileName? = some name) (n : ℕ) : (p.numbered n).isAbsolute = p.isAbsolute := by
  rw [isAbsolute, isAbsolute, numbered_components h, components_of_fileName? h, List.dropLast_concat]
  cases p.components.dropLast with
  | nil => rfl
  | cons c cs => rfl

theorem numbered_text_ne (h : p.fileName? = some name) (n : ℕ) : (p.numbered n).text ≠ "" := by
  intro hempty
  have hnone : (p.numbered n).components = [] := by
    rw [components, located, hempty]
    rfl
  rw [numbered_components h] at hnone
  exact absurd hnone (by simp)

end Path

namespace FileSystem

def HasDirectory (fs : FileSystem) (p : Path) (there : List String) : Prop :=
  ∃ links, Descends fs maxLinks (fs.start p) (p.components.dropLast.filterMap Path.Component.step?) links there

section

variable {fs fs' : FileSystem} {p : Path} {name : String} {there above : List String} {n : ℕ}

theorem HasDirectory.mono {written : List String → Prop} (h : HasDirectory fs p there) (hgrows : Grows written fs fs') :
    HasDirectory fs' p there := by
  obtain ⟨links, hlinks⟩ := h
  refine ⟨links, ?_⟩
  have hstart : fs'.start p = fs.start p := by rw [start, start, hgrows.workingDir]
  rw [hstart]
  exact hlinks.mono hgrows

theorem HasDirectory.follow {last : Bool} (h : HasDirectory fs p there) (hname : p.fileName? = some name)
    (hsteps : steps (p.numbered n) = above ++ [Path.numberedName name n])
    (hlink : last = true → ∀ target, fs.root.get? (there ++ [Path.numberedName name n]) ≠ some (.link target)) :
    fs.follow last (p.numbered n) = .ok (there ++ [Path.numberedName name n]) := by
  obtain ⟨links, hlinks⟩ := h
  obtain ⟨hdot, hup⟩ := Path.numberedName_proper hname n
  have habove : above.filter (· ≠ ".") = p.components.dropLast.filterMap Path.Component.step? := by
    have hfilter := Path.numbered_steps_filter hname n
    rw [hsteps, List.filter_append, List.filter_cons_of_pos (by simpa using hdot)] at hfilter
    exact List.append_cancel_right hfilter
  have hstart : fs.start (p.numbered n) = fs.start p := by rw [start, start, Path.numbered_isAbsolute hname]
  have hdescends : Descends fs maxLinks (fs.start (p.numbered n)) above links there := by
    rw [hstart]
    apply hlinks.congr
    rw [← habove, List.filter_filter]
    simp
  exact follow_of_descends (Path.numbered_text_ne hname n) hsteps hdescends hdot hup hlink

theorem hasDirectory_of_write {content : Bytes} (hname : p.fileName? = some name) (h : fs.write p content = .ok fs') :
    (∃ above, steps p = above ++ [name]) ∧ ∃ there, HasDirectory fs p there := by
  obtain ⟨place, hfollow, hplace, -⟩ := write_eq h
  have hwalk := walk_of_follow hfollow
  have hfilter := Path.numbered_steps_filter hname 1
  obtain ⟨before, after, hall, hbefore, hafter⟩ := List.filter_eq_append_iff.mp hfilter
  obtain ⟨dots, trailing, rfl, hdots, -, htrailing⟩ := List.filter_eq_cons_iff.mp hafter
  have hsteps : steps p = (before ++ dots) ++ name :: trailing := by
    rw [List.append_assoc]
    exact hall
  have hnone : trailing = [] := by
    rcases List.eq_nil_or_concat trailing with rfl | ⟨init, x, rfl⟩
    · rfl
    · have hx : x = "." := by
        have hmem := List.filter_eq_nil_iff.mp htrailing x (by simp)
        simpa using hmem
      rw [hsteps, hx, List.append_cons, List.concat_eq_append, ← List.append_assoc] at hwalk
      exact absurd (directory_of_walk_dot hwalk) hplace
  rw [hnone] at hsteps
  rw [hsteps] at hwalk
  obtain ⟨links, there, hthere, -⟩ := descends_of_walk hwalk
  refine ⟨⟨_, hsteps⟩, there, links, hthere.congr ?_⟩
  have hdots' : dots.filter (· ≠ ".") = [] := List.filter_eq_nil_iff.mpr hdots
  rw [List.filter_append, hdots', List.append_nil, ← hbefore, List.filter_filter]
  simp

theorem write_numbered {content : Bytes} (h : HasDirectory fs p there) (hname : p.fileName? = some name)
    (hsteps : steps (p.numbered n) = above ++ [Path.numberedName name n])
    (hlink : ∀ target, fs.root.get? (there ++ [Path.numberedName name n]) ≠ some (.link target))
    (hwrite : fs.write (p.numbered n) content = .ok fs') :
    Grows (· = there ++ [Path.numberedName name n]) fs fs' ∧
      fs'.root.get? (there ++ [Path.numberedName name n]) = some (.file (.ok content)) := by
  obtain ⟨place, hfollow, hplace, rfl⟩ := write_eq hwrite
  have hthere : fs.follow true (p.numbered n) = .ok (there ++ [Path.numberedName name n]) :=
    h.follow hname hsteps fun _ => hlink
  obtain rfl := Except.ok.inj (hthere.symm.trans hfollow)
  constructor
  · exact grows_setFile fs content hplace hlink
  · obtain ⟨links, hlinks⟩ := h
    obtain ⟨entries, hentries⟩ := outlineAt_eq_directory.mp hlinks.directory
    exact Entry.get?_set_concat hentries _ _

end

def isLink (fs : FileSystem) (p : Path) : Bool :=
  match fs.follow false p with
  | .ok place =>
    match fs.root.get? place with
    | some (.link _) => true
    | _ => false
  | .error _ => false

theorem not_link_of_isLink {fs : FileSystem} {p : Path} {place : List String} (h : ¬ fs.isLink p)
    (hplace : fs.follow false p = .ok place) (target : String) : fs.root.get? place ≠ some (.link target) := by
  intro htarget
  simp [isLink, hplace, htarget] at h

end FileSystem

namespace Record

open FileSystem

def roomFor (fs : FileSystem) (p : Path) : FileSystem :=
  let above := match p.parent? with
    | some d => d
    | none => ⟨""⟩
  (fs.makeDirectories (above.text.length + 1) above).2

theorem grows_roomFor (fs : FileSystem) (p : Path) : Grows (fun _ => False) fs (roomFor fs p) :=
  grows_makeDirectories fs _ _

theorem save_ok {fs fs' : FileSystem} {p : Path} {piece : List Record} (h : save fs p piece = (.ok (), fs')) :
    (roomFor fs p).write p (utf8 (render piece).toList) = .ok fs' := by
  simp only [save] at h
  split at h
  · cases h
  · next made hmade =>
    have hroom : roomFor fs p = made := congrArg Prod.snd hmade
    rw [hroom]
    split at h
    · next written hwritten => rw [hwritten, (Prod.mk.inj h).2]
    · cases h

theorem roomFor_beside {fs : FileSystem} {p : Path} (habove : p.parent? = some ⟨""⟩) : roomFor fs p = fs := by
  simp only [roomFor, habove]
  rw [makeDirectories, if_pos (by decide)]

theorem save_beside {fs fs' : FileSystem} {p : Path} {piece : List Record} (habove : p.parent? = some ⟨""⟩)
    (h : fs.write p (utf8 (render piece).toList) = .ok fs') : save fs p piece = (.ok (), fs') := by
  simp only [save, habove]
  rw [makeDirectories, if_pos (by decide)]
  simp only [h]

theorem saveAll_cons (fs : FileSystem) (p : Path) (n : ℕ) (piece : List Record) (rest : List (List Record)) :
    saveAll fs p n (piece :: rest) =
      match save fs (p.numbered n) piece with
      | (.error e, fs) => (.error e, fs)
      | (.ok (), fs) =>
        match saveAll fs p (n + 1) rest with
        | (.error e, fs) => (.error e, fs)
        | (.ok paths, fs) => (.ok (p.numbered n :: paths), fs) := rfl

theorem saveAll_cons_ok {fs fs' : FileSystem} {p : Path} {n : ℕ} {piece : List Record} {rest : List (List Record)}
    {paths : List Path} (h : saveAll fs p n (piece :: rest) = (.ok paths, fs')) :
    ∃ saved others, (roomFor fs (p.numbered n)).write (p.numbered n) (utf8 (render piece).toList) = .ok saved ∧
      saveAll saved p (n + 1) rest = (.ok others, fs') ∧ paths = p.numbered n :: others := by
  rw [saveAll_cons] at h
  split at h
  · cases h
  · next saved hsaved =>
    split at h
    · cases h
    · next others last hothers =>
      obtain ⟨hpaths, rfl⟩ := Prod.mk.inj h
      exact ⟨saved, others, save_ok hsaved, hothers, (Except.ok.inj hpaths).symm⟩

theorem saveAll_paths {fs fs' : FileSystem} {p : Path} {n : ℕ} {pieces : List (List Record)} {paths : List Path}
    (h : saveAll fs p n pieces = (.ok paths, fs')) : paths = (List.range' n pieces.length).map p.numbered := by
  induction pieces generalizing fs n paths with
  | nil =>
    obtain ⟨hpaths, -⟩ := Prod.mk.inj h
    exact (Except.ok.inj hpaths).symm
  | cons piece rest ih =>
    obtain ⟨saved, others, -, hothers, rfl⟩ := saveAll_cons_ok h
    rw [ih hothers]
    rfl

theorem saveAll_read {fs fs' : FileSystem} {p : Path} {name : String} {there : List String} {n : ℕ}
    {pieces : List (List Record)} {paths : List Path} (hname : p.fileName? = some name) (hn : 1 ≤ n)
    (hsteps : ∀ m, n ≤ m → ∃ above, steps (p.numbered m) = above ++ [Path.numberedName name m])
    (hdir : HasDirectory (roomFor fs (p.numbered n)) p there)
    (hlinks : ∀ m, n ≤ m → m < n + pieces.length → ∀ target,
      (roomFor fs (p.numbered n)).root.get? (there ++ [Path.numberedName name m]) ≠ some (.link target))
    (h : saveAll fs p n pieces = (.ok paths, fs')) :
    Grows (fun place => ∃ m, n ≤ m ∧ place = there ++ [Path.numberedName name m]) fs fs' ∧
      List.Forall₂ (fun m piece => fs'.read (p.numbered m) = .ok (utf8 (render piece).toList))
        (List.range' n pieces.length) pieces := by
  induction pieces generalizing fs n paths with
  | nil =>
    obtain ⟨-, rfl⟩ := Prod.mk.inj h
    exact ⟨.refl _ _, .nil⟩
  | cons piece rest ih =>
    obtain ⟨saved, others, hwrite, hothers, -⟩ := saveAll_cons_ok h
    have hroom := grows_roomFor fs (p.numbered n)
    obtain ⟨above, habove⟩ := hsteps n (le_refl n)
    obtain ⟨hsaved, hfile⟩ := write_numbered hdir hname habove (hlinks n (le_refl n) (by simp)) hwrite
    have hroom' := grows_roomFor saved (p.numbered (n + 1))
    obtain ⟨hrest, hreads⟩ := ih (Nat.le_succ_of_le hn) (fun m hm => hsteps m (by omega))
      ((hdir.mono hsaved).mono hroom')
      (fun m hm hlength target htarget =>
        hlinks m (by omega) (by rw [List.length_cons]; omega) target (hsaved.link _ _ (hroom'.link _ _ htarget))) hothers
    constructor
    · refine (hroom.mono fun _ => False.elim).trans ((hsaved.mono ?_).trans (hrest.mono ?_))
      · exact fun place hplace => ⟨n, le_refl n, hplace⟩
      · exact fun place ⟨m, hm, hplace⟩ => ⟨m, by omega, hplace⟩
    · refine .cons ?_ hreads
      -- the files that follow have other names
      have hkept : fs'.root.get? (there ++ [Path.numberedName name n]) = some (.file (.ok (utf8 (render piece).toList))) := by
        rw [hrest.file]
        · exact hfile
        · rintro ⟨m, hm, hplace⟩
          have hsame := Path.numberedName_injective hn (by omega)
            (List.singleton_inj.mp (List.append_cancel_left hplace))
          omega
      have hdir' := (hdir.mono hsaved).mono hrest
      refine read_of_follow (hdir'.follow hname habove fun _ target htarget => ?_) hkept
      cases hkept.symm.trans htarget

theorem write_read {fs fs' : FileSystem} {p : Path} {name : String} {limit : Option ℕ} {records : List Record}
    {paths : List Path} (hname : p.fileName? = some name) (h : write fs p limit records = (.ok paths, fs'))
    (hlinks : ∀ q ∈ paths, ¬ (roomFor fs p).isLink q) :
    List.Forall₂ (fun q piece => fs'.read q = .ok (utf8 (render piece).toList)) paths (splitRecords limit records) := by
  have hpaths := saveAll_paths h
  rw [write] at h
  rw [hpaths, List.forall₂_map_left_iff]
  generalize splitRecords limit records = pieces at h hpaths
  cases pieces with
  | nil => exact .nil
  | cons piece rest =>
    obtain ⟨saved, others, hwrite, -, -⟩ := saveAll_cons_ok h
    obtain ⟨⟨above, habove⟩, there, hdir⟩ := hasDirectory_of_write hname hwrite
    have hsteps : ∀ m, 1 ≤ m → ∃ above, steps (p.numbered m) = above ++ [Path.numberedName name m] := by
      intro m hm
      rcases Nat.eq_or_lt_of_le hm with rfl | hm
      · exact ⟨above, habove⟩
      · exact Path.numbered_steps hname hm
    refine (saveAll_read hname (le_refl 1) hsteps hdir ?_ h).2
    intro m hm hlength
    obtain ⟨above, habove⟩ := hsteps m hm
    have hmem : p.numbered m ∈ paths := by
      rw [hpaths]
      exact List.mem_map_of_mem (List.mem_range'_1.mpr ⟨hm, hlength⟩)
    exact not_link_of_isLink (hlinks _ hmem) (hdir.follow hname habove nofun)

/-- Splitting loses no record and overwrites no file. The directory of the files may still have to be made; links
are looked for once it is there. -/
theorem write_splits {p : Path} {name : String} (hname : p.fileName? = some name) :
    (∀ m n, 1 ≤ m → 1 ≤ n → (p.numbered m).components = (p.numbered n).components → m = n) ∧
    ∀ (fs fs' : FileSystem) (limit : Option ℕ) (records : List Record) (paths : List Path),
      write fs p limit records = (.ok paths, fs') → (∀ q ∈ paths, ¬ (roomFor fs p).isLink q) →
      ∃ pieces, IsSplit limit records pieces ∧ paths = (List.range' 1 pieces.length).map p.numbered ∧
        (paths.map Path.components).Nodup ∧ (pieces.length = 1 → paths = [p]) ∧
        List.Forall₂ (fun q piece => fs'.read q = .ok (utf8 (render piece).toList)) paths pieces := by
  refine ⟨fun m n hm hn => Path.numbered_injective hname hm hn, fun fs fs' limit records paths h hlinks => ?_⟩
  have hpaths := saveAll_paths h
  refine ⟨splitRecords limit records, isSplit_splitRecords limit records, hpaths, ?_, ?_, ?_⟩
  · rw [hpaths, List.map_map]
    apply List.Nodup.map_on _ List.nodup_range'
    intro m hm n hn heq
    exact Path.numbered_injective hname (List.mem_range'_1.mp hm).1 (List.mem_range'_1.mp hn).1 heq
  · intro hone
    rw [hpaths, hone]
    rfl
  · exact write_read hname h hlinks

def occupied : FileSystem := ⟨.directory [("s-2.json", .file (.ok []))], []⟩

theorem write_occupied : ∃ fs', write occupied ⟨"s.json"⟩ (some 1) [⟨"a", []⟩, ⟨"b", []⟩] =
    (.ok [⟨"s.json"⟩, ⟨"s-2.json"⟩], fs') := by
  have hpieces : splitRecords (some 1) [⟨"a", []⟩, ⟨"b", []⟩] = [[⟨"a", []⟩], [⟨"b", []⟩]] := by
    simp [splitRecords, chunksOf]
  have hnumbered : Path.numbered ⟨"s.json"⟩ (1 + 1) = ⟨"s-2.json"⟩ := by decide
  have hfirst : ∃ c, save occupied ⟨"s.json"⟩ [⟨"a", []⟩] =
      (.ok (), ⟨.directory [("s-2.json", .file (.ok [])), ("s.json", .file (.ok c))], []⟩) :=
    ⟨_, save_beside (by decide) (write_of_follow _ (follow_beside "s.json" (by decide) (by decide)
      (by decide) (by decide) (by simp [List.lookup_cons])) (by rintro entries ⟨⟩))⟩
  have hsecond : ∀ c, ∃ fs', save ⟨.directory [("s-2.json", .file (.ok [])), ("s.json", .file (.ok c))], []⟩ ⟨"s-2.json"⟩
      [⟨"b", []⟩] = (.ok (), fs') := fun c =>
    ⟨_, save_beside (by decide) (write_of_follow _ (follow_beside "s-2.json" (by decide) (by decide)
      (by decide) (by decide) (by simp)) (by rintro entries ⟨⟩))⟩
  obtain ⟨c, hfirst⟩ := hfirst
  obtain ⟨fs', hsecond⟩ := hsecond c
  refine ⟨fs', ?_⟩
  rw [write, hpieces, saveAll_cons, Path.numbered_one, hfirst]
  dsimp only
  rw [saveAll_cons, hnumbered, hsecond]
  rfl

theorem write_splits_occupied : ∃ fs', write occupied ⟨"s.json"⟩ (some 1) [⟨"a", []⟩, ⟨"b", []⟩] =
      (.ok [⟨"s.json"⟩, ⟨"s-2.json"⟩], fs') ∧
    ∃ pieces, IsSplit (some 1) [⟨"a", []⟩, ⟨"b", []⟩] pieces ∧
      List.Forall₂ (fun q piece => fs'.read q = .ok (utf8 (render piece).toList)) [⟨"s.json"⟩, ⟨"s-2.json"⟩] pieces := by
  obtain ⟨fs', h⟩ := write_occupied
  have hname : Path.fileName? ⟨"s.json"⟩ = some "s.json" := by decide
  have hroom : roomFor occupied ⟨"s.json"⟩ = occupied := roomFor_beside (by decide)
  have hlinks : ∀ q ∈ [(⟨"s.json"⟩ : Path), ⟨"s-2.json"⟩], ¬ (roomFor occupied ⟨"s.json"⟩).isLink q := by
    rw [hroom]
    have hfirst : occupied.follow false ⟨"s.json"⟩ = .ok ["s.json"] :=
      follow_beside "s.json" (by decide) (by decide) (by decide) (by decide) nofun
    have hsecond : occupied.follow false ⟨"s-2.json"⟩ = .ok ["s-2.json"] :=
      follow_beside "s-2.json" (by decide) (by decide) (by decide) (by decide) nofun
    have hnew : occupied.isLink ⟨"s.json"⟩ = false := by
      simp only [isLink, hfirst]
      rfl
    have hold : occupied.isLink ⟨"s-2.json"⟩ = false := by
      simp only [isLink, hsecond]
      rfl
    simp [hnew, hold]
  obtain ⟨pieces, hsplit, -, -, -, hread⟩ := (write_splits hname).2 _ _ _ _ _ h hlinks
  exact ⟨fs', h, pieces, hsplit, hread⟩

end Record

end VisibleText
