import VisibleText.Command.Run
import VisibleText.Proofs.Dictionaries
import VisibleText.Proofs.PathWalks
import VisibleText.Proofs.Runs
import VisibleText.Proofs.SplitOutput

/-!
What a search does to the files. Every step of writing keeps where paths lead and all files but the one
that it writes, also when a later step fails; a search that cannot start has not come to its first step.
-/
namespace VisibleText

theorem Path.isAbsolute_of_steps {p : Path} (hp : p.text ≠ "") (h : FileSystem.steps p = []) : p.isAbsolute = true := by
  have hempty : ∀ x ∈ piecesFrom 0 [] p.text.toList, x.1 = [] := by
    have hnames : (((piecesFrom 0 [] p.text.toList).map fun piece => String.ofList piece.1).filter
        fun s => !s.isEmpty) = [] := by
      simp only [FileSystem.steps] at h
      split_ifs at h
      · simp at h
      · exact h
    intro x hx
    have := List.filter_eq_nil_iff.mp hnames _ (List.mem_map_of_mem hx)
    simpa using this
  obtain ⟨first, rest, hpieces⟩ := List.exists_cons_of_ne_nil (piecesFrom_ne_nil 0 [] p.text.toList)
  have hfirst : first.1 = [] := hempty first (by rw [hpieces]; exact List.mem_cons_self)
  have hrest : rest.isEmpty = false := by
    rw [List.isEmpty_eq_false_iff]
    rintro rfl
    rw [piecesFrom_singleton hpieces] at hfirst
    exact hp (by simpa using hfirst)
  simp [isAbsolute, components, located_eq hpieces, front, hfirst, hrest]

namespace FileSystem

def fileAt (fs : FileSystem) (place : List String) : Option (Except FileError Bytes) :=
  match fs.root.get? place with
  | some (.file content) => some content
  | _ => none

theorem fileAt_eq_some {fs : FileSystem} {place : List String} {content : Except FileError Bytes} :
    fs.fileAt place = some content ↔ fs.root.get? place = some (.file content) := by
  rw [fileAt]
  split
  · next c hc => simp [hc]
  · next hnone =>
    constructor
    · rintro ⟨⟩
    · exact fun h => absurd h (hnone content)

structure Touches (written : List String → Prop) (fs fs' : FileSystem) : Prop where
  follow : ∀ p place, fs.follow true p = .ok place → fs'.follow true p = .ok place
  file : ∀ place, ¬ written place → fs'.fileAt place = fs.fileAt place

section

variable {written more : List String → Prop} {fs fs₁ fs₂ : FileSystem}

theorem Touches.refl (written : List String → Prop) (fs : FileSystem) : Touches written fs fs :=
  ⟨fun _ _ h => h, fun _ _ => rfl⟩

theorem Touches.mono (h : Touches written fs fs₁) (hmore : ∀ place, written place → more place) : Touches more fs fs₁ :=
  ⟨h.follow, fun place hplace => h.file place fun hwritten => hplace (hmore place hwritten)⟩

theorem Touches.trans (h : Touches written fs fs₁) (h' : Touches written fs₁ fs₂) : Touches written fs fs₂ where
  follow p place hplace := h'.follow p place (h.follow p place hplace)
  file place hplace := (h'.file place hplace).trans (h.file place hplace)

theorem Grows.touches (h : Grows written fs fs₁) : Touches written fs fs₁ := by
  refine ⟨fun p place => follow_mono h, ?_⟩
  intro place hplace
  apply Option.ext
  intro content
  rw [fileAt_eq_some, fileAt_eq_some]
  exact h.file place content hplace

theorem place_of_link {p : Path} {place : List String} {target : String} (h : fs.follow true p = .ok place)
    (hplace : fs.root.get? place = some (.link target)) : place = [] := by
  have hwalk := walk_of_follow h
  cases hsteps : steps p with
  | nil =>
    rw [hsteps, walk, start, if_pos (Path.isAbsolute_of_steps (text_ne_of_follow h) hsteps)] at hwalk
    exact (Except.ok.inj hwalk).symm
  | cons name rest =>
    rw [hsteps] at hwalk
    have hstart := directory_of_walk hwalk
    refine absurd (outlineAt_eq_link.mpr hplace) ((walks_of_walk hwalk).not_link ?_ target)
    intro target
    rw [hstart]
    rintro ⟨⟩

theorem touches_of_root_link {target : String} (h : fs.root = .link target) (content : Bytes) :
    Touches (· = []) fs { fs with root := .file (.ok content) } := by
  constructor
  · intro p place hplace
    apply follow_of_walk (text_ne_of_follow hplace)
    have hwalk := walk_of_follow hplace
    cases hsteps : steps p with
    | nil =>
      rw [hsteps, walk] at hwalk
      rw [walk]
      exact hwalk
    | cons name rest =>
      rw [hsteps] at hwalk
      have hroot := outlineAt_of_append [] (directory_of_walk hwalk)
      rw [outlineAt, h] at hroot
      cases hroot
  · intro place hplace
    obtain ⟨name, rest, rfl⟩ := List.exists_cons_of_ne_nil hplace
    rw [fileAt, fileAt, h]
    rfl

theorem write_touches {p : Path} {content : Bytes} (h : fs.write p content = .ok fs₁) :
    Touches (fun place => fs₁.follow true p = .ok place) fs fs₁ := by
  obtain ⟨place, hfollow, hplace, rfl⟩ := write_eq h
  have hone : Touches (· = place) fs { fs with root := fs.root.set (.file (.ok content)) place } := by
    by_cases hlink : ∃ target, fs.root.get? place = some (.link target)
    · obtain ⟨target, htarget⟩ := hlink
      obtain rfl := place_of_link hfollow htarget
      exact touches_of_root_link (Option.some.inj htarget) content
    · exact (grows_setFile fs content hplace fun target htarget => hlink ⟨target, htarget⟩).touches
  apply hone.mono
  intro there hthere
  rw [hthere]
  exact hone.follow p place hfollow

end

end FileSystem

namespace Record

open FileSystem

theorem save_touches (fs : FileSystem) (p : Path) (piece : List Record) :
    Touches (fun place => (save fs p piece).2.follow true p = .ok place) fs (save fs p piece).2 := by
  have hroom : Touches (fun _ => False) fs (roomFor fs p) := (grows_roomFor fs p).touches
  have hkept : (save fs p piece).2 = roomFor fs p ∨
      (roomFor fs p).write p (utf8 (render piece).toList) = .ok (save fs p piece).2 := by
    simp only [save]
    split
    · next made hmade =>
      left
      exact (congrArg Prod.snd hmade).symm
    · next made hmade =>
      have hmade : roomFor fs p = made := congrArg Prod.snd hmade
      rw [hmade]
      split
      · next written hwritten => exact .inr hwritten
      · exact .inl rfl
  rcases hkept with hkept | hwritten
  · rw [hkept]
    exact hroom.mono fun _ => False.elim
  · exact (hroom.mono fun _ => False.elim).trans (write_touches hwritten)

theorem saveAll_touches (fs : FileSystem) (p : Path) (n : ℕ) (pieces : List (List Record)) :
    Touches (fun place => ∃ m, n ≤ m ∧ m < n + pieces.length ∧
      (saveAll fs p n pieces).2.follow true (p.numbered m) = .ok place) fs (saveAll fs p n pieces).2 := by
  induction pieces generalizing fs n with
  | nil => exact .refl _ fs
  | cons piece rest ih =>
    have hfirst := save_touches fs (p.numbered n) piece
    rw [saveAll_cons, List.length_cons]
    split
    · next e saved hsaved =>
      rw [hsaved] at hfirst
      apply hfirst.mono
      exact fun place hplace => ⟨n, le_refl n, by omega, hplace⟩
    · next saved hsaved =>
      rw [hsaved] at hfirst
      have hrest := ih saved (n + 1)
      have hboth : Touches (fun place => ∃ m, n ≤ m ∧ m < n + (rest.length + 1) ∧
          (saveAll saved p (n + 1) rest).2.follow true (p.numbered m) = .ok place) fs
          (saveAll saved p (n + 1) rest).2 := by
        refine (hfirst.mono ?_).trans (hrest.mono ?_)
        · exact fun place hplace => ⟨n, le_refl n, by omega, hrest.follow _ _ hplace⟩
        · rintro place ⟨m, hn, hm, hplace⟩
          exact ⟨m, by omega, by omega, hplace⟩
      split
      · next e last hlast =>
        rw [hlast] at hboth
        exact hboth
      · next others last hlast =>
        rw [hlast] at hboth
        exact hboth

theorem write_changes {fs : FileSystem} {p : Path} {limit : Option ℕ} {records : List Record} {place : List String}
    (h : (write fs p limit records).2.fileAt place ≠ fs.fileAt place) :
    ∃ n, 1 ≤ n ∧ n ≤ (splitRecords limit records).length ∧
      (write fs p limit records).2.follow true (p.numbered n) = .ok place := by
  by_contra hnone
  apply h
  apply (saveAll_touches fs p 1 (splitRecords limit records)).file
  rintro ⟨n, hn, hlt, hfollow⟩
  exact hnone ⟨n, hn, by omega, hfollow⟩

end Record

theorem Exclusion.Dictionary.appendFiles_isOk (e : Engines) {fs : FileSystem} (d : Dictionary) (paths : List Path) :
    (∃ d', d.appendFiles e fs paths = .ok d') ↔ ∀ p ∈ paths, ∃ text, fs.readText p = .ok text := by
  induction paths generalizing d with
  | nil => simp [appendFiles]
  | cons p paths ih =>
    rw [appendFiles, List.forall_mem_cons]
    cases fs.readText p with
    | error x => simp
    | ok text => simpa using ih (d.append e text)

namespace Command

open FileSystem Search

/-- Why a search has nothing to write: the arguments contradict each other, the directory is missing, the
configuration is broken or invalid, a dictionary cannot be read, or the pattern is none. -/
inductive CannotStart (fs : FileSystem) (o : ExtractOptions) : Prop
  | format (houtput : o.output.isSome) (hformat : o.format = .text)
  | root {e : FileError} (hroot : fs.canonical o.dir = .error e)
  | config {root : Path} {e : Config.LoadError} (hroot : fs.canonical o.dir = .ok root)
      (hload : Config.load fs root = .error e)
  | invalid {root : Path} {loaded : Config.Loaded} {e : Config.Invalid} (hroot : fs.canonical o.dir = .ok root)
      (hload : Config.load fs root = .ok loaded) (hinvalid : (loaded.config.override o).validate = .error e)
  | dictionary {root p : Path} {loaded : Config.Loaded} {e : FileError} (hroot : fs.canonical o.dir = .ok root)
      (hload : Config.load fs root = .ok loaded)
      (hp : p ∈ dictionaryPaths (loaded.baseDir?.getD root) (loaded.config.override o) o)
      (hread : fs.readText p = .error e)
  | pattern {root : Path} {loaded : Config.Loaded} {e : Discovery.PatternError}
      (hroot : fs.canonical o.dir = .ok root) (hload : Config.load fs root = .ok loaded)
      (hpattern : Discovery.Pattern.parse (loaded.config.override o).pattern = .error e)

variable {e : Engines} {fs : FileSystem} {color : Bool} {o : ExtractOptions}

theorem not_prepared (h : CannotStart fs o) (hformat : ¬ (o.output.isSome ∧ o.format = .text)) (s : Search)
    (told : String) : (prepare e fs color o).run.run "" ≠ (.ok s, told) := by
  intro hs
  obtain ⟨root, loaded, hroot, hloaded, hvalid, hdictionary⟩ := prepare_steps hs
  cases h with
  | format houtput htext => exact hformat ⟨houtput, htext⟩
  | root hroot' => cases hroot.symm.trans hroot'
  | config hroot' hload =>
    obtain rfl := Except.ok.inj (hroot.symm.trans hroot')
    cases hloaded.symm.trans hload
  | invalid hroot' hload hinvalid =>
    obtain rfl := Except.ok.inj (hroot.symm.trans hroot')
    obtain rfl := Except.ok.inj (hloaded.symm.trans hload)
    cases hvalid.symm.trans hinvalid
  | dictionary hroot' hload hp hread =>
    obtain rfl := Except.ok.inj (hroot.symm.trans hroot')
    obtain rfl := Except.ok.inj (hloaded.symm.trans hload)
    obtain ⟨text, htext⟩ := (Exclusion.Dictionary.appendFiles_isOk e _ _).mp ⟨_, hdictionary⟩ _ hp
    cases htext.symm.trans hread
  | pattern hroot' hload hpattern =>
    obtain rfl := Except.ok.inj (hroot.symm.trans hroot')
    obtain rfl := Except.ok.inj (hloaded.symm.trans hload)
    obtain ⟨parsed, hparsed⟩ := Config.validate_pattern hvalid
    cases hparsed.symm.trans hpattern

theorem prepared_of_not (e : Engines) (color : Bool) (h : ¬ CannotStart fs o) :
    ∃ s told, (prepare e fs color o).run.run "" = (.ok s, told) := by
  cases hroot : fs.canonical o.dir with
  | error e => exact absurd (.root hroot) h
  | ok root =>
    cases hloaded : Config.load fs root with
    | error e => exact absurd (.config hroot hloaded) h
    | ok loaded =>
      cases hvalid : (loaded.config.override o).validate with
      | error e => exact absurd (.invalid hroot hloaded hvalid) h
      | ok u =>
        have hreadable : ∀ p ∈ dictionaryPaths (loaded.baseDir?.getD root) (loaded.config.override o) o,
            ∃ text, fs.readText p = .ok text := by
          intro p hp
          cases hread : fs.readText p with
          | error e => exact absurd (.dictionary hroot hloaded hp hread) h
          | ok text => exact ⟨text, rfl⟩
        obtain ⟨dictionary, hdictionary⟩ := (Exclusion.Dictionary.appendFiles_isOk e (.builtIn e) _).mpr hreadable
        exact prepare_of_ok hroot hloaded hvalid hdictionary color ""

theorem runExtract_stopped (h : ∀ s told, (prepare e fs color o).run.run "" ≠ (.ok s, told)) :
    let out := runExtract e fs color o
    out.files = fs ∧ out.stdout = "" ∧ out.exitCode = 2 := by
  rcases hp : (prepare e fs color o).run.run "" with ⟨result, told⟩
  cases result with
  | ok s => exact absurd hp (h s told)
  | error e =>
    simp only [runExtract, hp]
    split_ifs <;> exact ⟨rfl, rfl, rfl⟩

theorem runExtract_crashed {s : Search} {told : String} {fault : Fault}
    (hformat : ¬ (o.output.isSome ∧ o.format = .text)) (h : (prepare e fs color o).run.run "" = (.ok s, told))
    (hfault : s.extract e fs = .error fault) : runExtract e fs color o = crashed fs told := by
  simp only [runExtract, if_neg hformat, h, hfault]

theorem runExtract_prepared {s : Search} {told : String} {x : Extraction}
    (hformat : ¬ (o.output.isSome ∧ o.format = .text)) (h : (prepare e fs color o).run.run "" = (.ok s, told))
    (hx : s.extract e fs = .ok x) :
    let out := runExtract e fs color o
    (o.output = none → out.files = fs ∧ out.exitCode = 0) ∧
    ∀ p, o.output = some p →
      let written := Record.write fs p s.config.splitThreshold (sortByText x.records)
      out.files = written.2 ∧ out.exitCode = if written.1.isOk then 0 else 2 := by
  simp only [runExtract, if_neg hformat, h, hx, deliver]
  constructor
  · intro hnone
    rw [hnone]
    cases o.format <;> exact ⟨rfl, rfl⟩
  · intro p hp
    simp only [hp]
    rcases Record.write fs p s.config.splitThreshold (sortByText x.records) with ⟨result, files⟩
    cases result <;> exact ⟨rfl, rfl⟩

/-- Without an output a search changes nothing. With one it changes at most the numbered files of its pieces. If it
cannot start, it changes and prints nothing and fails, and so it does at a file that ends the run; otherwise only
writing can make it fail, and what is written comes from the files that can be read. -/
theorem run_extract_effects (e : Engines) (fs : FileSystem) (color : Bool) (o : ExtractOptions) :
    let out := run e fs color (.extract o)
    (o.output = none → out.files = fs) ∧
    (CannotStart fs o → out.files = fs ∧ out.stdout = "" ∧ out.exitCode = 2) ∧
    (¬ CannotStart fs o → ∃ search told, (prepare e fs color o).run.run "" = (.ok search, told) ∧
      let c := search.config
      let legible := (search.files.filter fun f => c.scanOptions.scans f.kind).filter fun f => fs.Legible f.path
      ((∃ f ∈ legible, Extraction.Faults e fs c.scanOptions f) →
        out.files = fs ∧ out.stdout = "" ∧ out.exitCode = 101) ∧
      ((∀ f ∈ legible, ¬ Extraction.Faults e fs c.scanOptions f) →
        ∃ x, Extraction.run e fs search.dictionary c.scanOptions legible = .ok x ∧
          let records := sortByText x.records
          (o.output = none → out.exitCode = 0) ∧
          ∀ p, o.output = some p →
            (out.exitCode = if (Record.write fs p c.splitThreshold records).1.isOk then 0 else 2) ∧
            ∃ pieces, IsSplit c.splitThreshold records pieces ∧
              ∀ place, out.files.fileAt place ≠ fs.fileAt place →
                ∃ n, 1 ≤ n ∧ n ≤ pieces.length ∧ out.files.follow true (p.numbered n) = .ok place)) := by
  intro out
  have hstopped : CannotStart fs o → out.files = fs ∧ out.stdout = "" ∧ out.exitCode = 2 := by
    intro h
    by_cases hformat : o.output.isSome ∧ o.format = .text
    · have hout : out = failed fs "" _ := if_pos hformat
      rw [hout]
      exact ⟨rfl, rfl, rfl⟩
    · exact runExtract_stopped (not_prepared h hformat)
  have hformat : ¬ CannotStart fs o → ¬ (o.output.isSome ∧ o.format = .text) := by
    rintro h ⟨houtput, htext⟩
    exact h (.format houtput htext)
  refine ⟨?_, hstopped, ?_⟩
  · intro hnone
    by_cases h : CannotStart fs o
    · exact (hstopped h).1
    · obtain ⟨s, told, hs⟩ := prepared_of_not e color h
      cases hx : s.extract e fs with
      | error fault =>
        have hout : out = crashed fs told := runExtract_crashed (hformat h) hs hx
        rw [hout]
        rfl
      | ok x => exact ((runExtract_prepared (hformat h) hs hx).1 hnone).1
  · intro h
    obtain ⟨s, told, hs⟩ := prepared_of_not e color h
    refine ⟨s, told, hs, ?_, ?_⟩
    · intro hfaults
      obtain ⟨fault, hfault⟩ := Extraction.run_eq_error.mpr (Extraction.faults_legible.mpr hfaults)
      have hout : out = crashed fs told := runExtract_crashed (hformat h) hs hfault
      rw [hout]
      exact ⟨rfl, rfl, rfl⟩
    · intro hsound
      obtain ⟨x, hx⟩ := Extraction.run_isOk.mpr (Extraction.not_faults_legible.mpr hsound)
      obtain ⟨hreported, hwritten⟩ := runExtract_prepared (hformat h) hs hx
      refine ⟨_, Extraction.run_legible hx, fun hnone => (hreported hnone).2, ?_⟩
      intro p hp
      obtain ⟨hfiles, hexit⟩ := hwritten p hp
      refine ⟨hexit, _, isSplit_splitRecords _ _, ?_⟩
      intro place hplace
      have hout : out.files = _ := hfiles
      rw [hout] at hplace ⊢
      exact Record.write_changes hplace

end Command

end VisibleText
