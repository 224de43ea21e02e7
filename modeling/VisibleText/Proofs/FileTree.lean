import Mathlib.Data.List.Basic
import Mathlib.Tactic.Cases
import VisibleText.FileSystem.Write
import VisibleText.Proofs.Encoding

/-!
What writing and making directories does to a tree, and which names lead from one directory to
another. `FileSystem.Grows` says what every operation keeps: the kind of every entry, every link, and
the files at all places but those written to. `FileSystem.Descends` is the part of following a path
that is the same for every name at its end; a tree that has grown is descended in the same way.
-/
namespace VisibleText

namespace Entry

def outline : Entry → Entry
  | file _ => file (.ok [])
  | link target => link target
  | directory _ => directory []

theorem outline_eq_link {e : Entry} {target : String} : e.outline = .link target ↔ e = .link target := by
  cases e <;> simp [outline]

theorem outline_eq_directory {e : Entry} : e.outline = .directory [] ↔ ∃ entries, e = .directory entries := by
  cases e <;> simp [outline]

theorem get?_append (e : Entry) (as bs : List String) : e.get? (as ++ bs) = (e.get? as).bind (·.get? bs) := by
  induction as generalizing e with
  | nil => rfl
  | cons a as ih =>
    rw [List.cons_append, get?, get?]
    cases e.child? a with
    | none => rfl
    | some c => exact ih c

theorem get?_cons (e : Entry) (name : String) (q : List String) :
    e.get? (name :: q) = (e.child? name).bind (·.get? q) := by
  rw [get?]
  cases e.child? name <;> rfl

theorem get?_of_childless {e : Entry} (h : ∀ name, e.child? name = none) {q : List String} (hq : q ≠ []) :
    e.get? q = none := by
  cases q with
  | nil => exact absurd rfl hq
  | cons name q => rw [get?_cons, h name, Option.bind_none]

theorem get?_concat_directory {e : Entry} {here : List String} {entries : List (String × Entry)}
    (h : e.get? here = some (.directory entries)) (name : String) : e.get? (here ++ [name]) = entries.lookup name := by
  rw [get?_append, h, Option.bind_some, get?_cons, child?]
  cases entries.lookup name <;> rfl

theorem lookup_setEntry (name n : String) (e : Entry) (entries : List (String × Entry)) :
    (setEntry name e entries).lookup n = if n = name then some e else entries.lookup n := by
  induction entries with
  | nil =>
    by_cases hn : n = name
    · simp [setEntry, hn]
    · have hne : (n == name) = false := by simpa using hn
      simp [setEntry, List.lookup_cons, hne, hn]
  | cons x entries ih =>
    obtain ⟨m, old⟩ := x
    rw [setEntry]
    by_cases hn : n = m
    · subst hn
      by_cases hm : n = name <;> simp [hm]
    · have hne : (n == m) = false := by simpa using hn
      by_cases hm : m = name
      · subst hm
        simp [List.lookup_cons, hne, hn]
      · simp only [if_neg hm, List.lookup_cons, hne, ih]

theorem set_cons_some {entries : List (String × Entry)} {name : String} {c : Entry} (new : Entry)
    (rest : List String) (h : entries.lookup name = some c) :
    (directory entries).set new (name :: rest) = directory (setEntry name (c.set new rest) entries) := by
  rw [set]
  exact h

theorem set_singleton_none {entries : List (String × Entry)} {name : String} (new : Entry)
    (h : entries.lookup name = none) :
    (directory entries).set new [name] = directory (setEntry name new entries) := by
  simp [set, h]

theorem set_cons_none {entries : List (String × Entry)} {name : String} {rest : List String} (new : Entry)
    (h : entries.lookup name = none) (hrest : rest ≠ []) :
    (directory entries).set new (name :: rest) = directory entries := by
  cases rest with
  | nil => exact absurd rfl hrest
  | cons r rest => simp [set, h]

theorem get?_cons_setEntry (name n : String) (e : Entry) (entries : List (String × Entry)) (q : List String) :
    (directory (setEntry name e entries)).get? (n :: q) =
      if n = name then e.get? q else (directory entries).get? (n :: q) := by
  simp only [get?_cons, child?, lookup_setEntry]
  split_ifs <;> rfl

theorem get?_set_of_not_prefix (t new : Entry) {place q : List String} (h : ¬ place <+: q) :
    (t.set new place).get? q = t.get? q ∨
      ∃ a b, t.get? q = some (.directory a) ∧ (t.set new place).get? q = some (.directory b) := by
  induction place generalizing t q with
  | nil => exact absurd List.nil_prefix h
  | cons name rest ih =>
    cases t with
    | file content => exact .inl rfl
    | link target => exact .inl rfl
    | directory entries =>
      have hstays : ∃ b, (directory entries).set new (name :: rest) = directory b := by
        cases hc : entries.lookup name with
        | some c => exact ⟨_, set_cons_some new rest hc⟩
        | none =>
          by_cases hrest : rest = []
          · subst hrest
            exact ⟨_, set_singleton_none new hc⟩
          · exact ⟨_, set_cons_none new hc hrest⟩
      cases q with
      | nil =>
        obtain ⟨b, hb⟩ := hstays
        exact .inr ⟨entries, b, rfl, by rw [hb]; rfl⟩
      | cons n q =>
        cases hc : entries.lookup name with
        | some c =>
          rw [set_cons_some new rest hc, get?_cons_setEntry]
          by_cases hn : n = name
          · subst hn
            have hrest : ¬ rest <+: q := fun hp => h (List.cons_prefix_cons.mpr ⟨rfl, hp⟩)
            simpa [get?_cons, child?, hc] using ih c hrest
          · simp [hn]
        | none =>
          left
          by_cases hrest : rest = []
          · subst hrest
            have hn : n ≠ name := fun hn => h (List.cons_prefix_cons.mpr ⟨hn.symm, List.nil_prefix⟩)
            rw [set_singleton_none new hc, get?_cons_setEntry, if_neg hn]
          · rw [set_cons_none new hc hrest]

theorem get?_set_append (t new : Entry) (place q : List String) :
    (t.set new place).get? (place ++ q) = new.get? q ∨
      (t.set new place).get? (place ++ q) = t.get? (place ++ q) := by
  induction place generalizing t with
  | nil => exact .inl rfl
  | cons name rest ih =>
    cases t with
    | file content => exact .inr rfl
    | link target => exact .inr rfl
    | directory entries =>
      cases hc : entries.lookup name with
      | some c =>
        rw [set_cons_some new rest hc, List.cons_append, get?_cons_setEntry, if_pos rfl]
        simpa [get?_cons, child?, hc] using ih c
      | none =>
        by_cases hrest : rest = []
        · subst hrest
          left
          rw [set_singleton_none new hc, List.cons_append, get?_cons_setEntry, if_pos rfl]
          rfl
        · right
          rw [set_cons_none new hc hrest]

theorem get?_set_concat {t : Entry} {here : List String} {entries : List (String × Entry)}
    (h : t.get? here = some (.directory entries)) (new : Entry) (name : String) :
    (t.set new (here ++ [name])).get? (here ++ [name]) = some new := by
  induction here generalizing t with
  | nil =>
    obtain rfl : t = .directory entries := Option.some.inj h
    cases hc : entries.lookup name with
    | some c =>
      rw [List.nil_append, set_cons_some new [] hc, get?_cons_setEntry, if_pos rfl]
      rfl
    | none =>
      rw [List.nil_append, set_singleton_none new hc, get?_cons_setEntry, if_pos rfl]
      rfl
  | cons n here ih =>
    rw [get?_cons] at h
    obtain ⟨c, hc, hhere⟩ := Option.bind_eq_some_iff.mp h
    cases t with
    | file content => cases hc
    | link target => cases hc
    | directory es =>
      rw [List.cons_append, set_cons_some new _ hc, get?_cons_setEntry, if_pos rfl]
      exact ih hhere

end Entry

namespace FileSystem

def outlineAt (fs : FileSystem) (place : List String) : Option Entry := (fs.root.get? place).map Entry.outline

theorem outlineAt_eq_link {fs : FileSystem} {place : List String} {target : String} :
    fs.outlineAt place = some (.link target) ↔ fs.root.get? place = some (.link target) := by
  simp [outlineAt, Entry.outline_eq_link]

theorem outlineAt_eq_directory {fs : FileSystem} {place : List String} :
    fs.outlineAt place = some (.directory []) ↔ ∃ entries, fs.root.get? place = some (.directory entries) := by
  simp only [outlineAt, Option.map_eq_some_iff, Entry.outline_eq_directory]
  constructor
  · rintro ⟨e, he, entries, rfl⟩
    exact ⟨entries, he⟩
  · rintro ⟨entries, he⟩
    exact ⟨_, he, entries, rfl⟩

/-- What stays when files are written to some places and directories are made anywhere. -/
structure Grows (written : List String → Prop) (fs fs' : FileSystem) : Prop where
  workingDir : fs'.workingDir = fs.workingDir
  outline : ∀ place kind, fs.outlineAt place = some kind → fs'.outlineAt place = some kind
  link : ∀ place target, fs'.root.get? place = some (.link target) → fs.root.get? place = some (.link target)
  file : ∀ place content, ¬ written place →
    (fs'.root.get? place = some (.file content) ↔ fs.root.get? place = some (.file content))

namespace Grows

variable {written more : List String → Prop} {fs fs₁ fs₂ : FileSystem}

theorem refl (written : List String → Prop) (fs : FileSystem) : Grows written fs fs :=
  ⟨rfl, fun _ _ h => h, fun _ _ h => h, fun _ _ _ => Iff.rfl⟩

theorem trans (h : Grows written fs fs₁) (h' : Grows written fs₁ fs₂) : Grows written fs fs₂ where
  workingDir := h'.workingDir.trans h.workingDir
  outline place kind hkind := h'.outline place kind (h.outline place kind hkind)
  link place target hlink := h.link place target (h'.link place target hlink)
  file place content hplace := (h'.file place content hplace).trans (h.file place content hplace)

theorem mono (h : Grows written fs fs₁) (hmore : ∀ place, written place → more place) : Grows more fs fs₁ :=
  ⟨h.workingDir, h.outline, h.link, fun place content hplace =>
    h.file place content fun hwritten => hplace (hmore place hwritten)⟩

end Grows

theorem grows_set {written : List String → Prop} (fs : FileSystem) {place : List String} {new : Entry}
    (hbelow : ∀ q, q ≠ [] → new.get? q = none) (hlink : ∀ target, new ≠ .link target)
    (hold : ∀ e, fs.root.get? place = some e → e.outline = new.outline ∧ ∀ q, q ≠ [] → e.get? q = none)
    (hwritten : ∀ content, new = .file content → written place) :
    Grows written fs { fs with root := fs.root.set new place } := by
  -- a place is apart from the one that is set, the same, or below it
  have hat : ∀ q, ¬ place <+: q ∨ q = place ∨ ∃ r, r ≠ [] ∧ q = place ++ r := by
    intro q
    by_cases hq : place <+: q
    · obtain ⟨r, rfl⟩ := hq
      by_cases hr : r = []
      · exact .inr (.inl (by rw [hr, List.append_nil]))
      · exact .inr (.inr ⟨r, hr, rfl⟩)
    · exact .inl hq
  have hself : (fs.root.set new place).get? place = some new ∨
      (fs.root.set new place).get? place = fs.root.get? place := by
    simpa [Entry.get?] using fs.root.get?_set_append new place []
  have hunder : ∀ r, r ≠ [] → fs.root.get? (place ++ r) = none := by
    intro r hr
    rw [Entry.get?_append]
    cases he : fs.root.get? place with
    | none => rfl
    | some e => exact (hold e he).2 r hr
  have hunder' : ∀ r, r ≠ [] → (fs.root.set new place).get? (place ++ r) = none := by
    intro r hr
    rcases fs.root.get?_set_append new place r with h | h
    · rw [h, hbelow r hr]
    · rw [h, hunder r hr]
  constructor
  · rfl
  · intro q kind hq
    rcases hat q with hout | rfl | ⟨r, hr, rfl⟩
    · rcases fs.root.get?_set_of_not_prefix new hout with h | ⟨a, b, ha, hb⟩
      · rwa [outlineAt, h]
      · rw [outlineAt, ha] at hq
        rw [outlineAt, hb]
        exact hq
    · rcases hself with h | h
      · obtain ⟨e, he, rfl⟩ := Option.map_eq_some_iff.mp hq
        rw [outlineAt, h, (hold e he).1]
        rfl
      · rwa [outlineAt, h]
    · rw [outlineAt, hunder r hr] at hq
      cases hq
  · intro q target hq
    rcases hat q with hout | rfl | ⟨r, hr, rfl⟩
    · rcases fs.root.get?_set_of_not_prefix new hout with h | ⟨a, b, -, hb⟩
      · exact h.symm.trans hq
      · cases hb.symm.trans hq
    · rcases hself with h | h
      · exact absurd (Option.some.inj (h.symm.trans hq)) (hlink target)
      · exact h.symm.trans hq
    · cases (hunder' r hr).symm.trans hq
  · intro q content hq
    rcases hat q with hout | rfl | ⟨r, hr, rfl⟩
    · rcases fs.root.get?_set_of_not_prefix new hout with h | ⟨a, b, ha, hb⟩
      · rw [h]
      · simp [ha, hb]
    · have hnew : ∀ c, new ≠ .file c := fun c hc => hq (hwritten c hc)
      rcases hself with h | h
      · have hnone : ∀ c, fs.root.get? q ≠ some (.file c) := by
          intro c hc
          have hkind := (hold _ hc).1
          cases new with
          | file d => exact hnew d rfl
          | link target => cases hkind
          | directory entries => cases hkind
        simp [h, hnew, hnone]
      · rw [h]
    · simp [hunder r hr, hunder' r hr]

theorem grows_setFile (fs : FileSystem) {place : List String} (content : Bytes)
    (hdirectory : fs.outlineAt place ≠ some (.directory []))
    (hlink : ∀ target, fs.root.get? place ≠ some (.link target)) :
    Grows (· = place) fs { fs with root := fs.root.set (.file (.ok content)) place } := by
  apply grows_set
  · exact fun q => Entry.get?_of_childless fun _ => rfl
  · rintro target ⟨⟩
  · intro e he
    cases e with
    | file old => exact ⟨rfl, fun q => Entry.get?_of_childless fun _ => rfl⟩
    | link target => exact absurd he (hlink target)
    | directory entries => exact absurd (outlineAt_eq_directory.mpr ⟨entries, he⟩) hdirectory
  · exact fun _ _ => rfl

theorem write_eq {fs fs' : FileSystem} {p : Path} {content : Bytes} (h : fs.write p content = .ok fs') :
    ∃ place, fs.follow true p = .ok place ∧ fs.outlineAt place ≠ some (.directory []) ∧
      fs' = { fs with root := fs.root.set (.file (.ok content)) place } := by
  rw [write] at h
  split at h
  · split_ifs at h
    split at h <;> cases h
  · next place hplace =>
    split at h
    · cases h
    · next hfree =>
      refine ⟨place, hplace, ?_, (Except.ok.inj h).symm⟩
      rw [ne_eq, outlineAt_eq_directory]
      rintro ⟨entries, hentries⟩
      exact hfree entries hentries

theorem write_of_follow {fs : FileSystem} {p : Path} {place : List String} (content : Bytes)
    (h : fs.follow true p = .ok place) (hplace : ∀ entries, fs.root.get? place ≠ some (.directory entries)) :
    fs.write p content = .ok { fs with root := fs.root.set (.file (.ok content)) place } := by
  rw [write]
  simp only [h]
  rfl

theorem grows_makeDirectory {fs fs' : FileSystem} {p : Path} (h : fs.makeDirectory p = .ok fs') :
    Grows (fun _ => False) fs fs' := by
  rw [makeDirectory] at h
  dsimp only at h
  generalize fs.follow false _ = place at h
  cases place with
  | error e => cases h
  | ok place =>
    cases hold : fs.root.get? place with
    | some e => simp [hold, bind, Except.bind] at h
    | none =>
      simp only [hold, bind, Except.bind, pure, Except.pure, Except.ok.injEq] at h
      rw [← h]
      apply grows_set
      · exact fun q => Entry.get?_of_childless fun _ => rfl
      · exact nofun
      · intro e he
        cases hold.symm.trans he
      · exact nofun

theorem grows_makeDirectories (fs : FileSystem) (fuel : ℕ) (p : Path) :
    Grows (fun _ => False) fs (fs.makeDirectories fuel p).2 := by
  induction fuel generalizing fs p with
  | zero => exact .refl _ fs
  | succ fuel ih =>
    rw [makeDirectories]
    split
    · exact .refl _ fs
    · split
      · next hmade => exact grows_makeDirectory hmade
      · split
        · exact .refl _ fs
        · next above _ =>
          have habove := ih fs above
          split
          · next fs₁ hfs₁ =>
            rw [hfs₁] at habove
            split
            · next hmade => exact habove.trans (grows_makeDirectory hmade)
            · split_ifs <;> exact habove
          · exact habove
      · split_ifs <;> exact .refl _ fs

/-- Names lead from a directory to another, with the links that may be followed before and after. -/
inductive Descends (fs : FileSystem) : ℕ → List String → List String → ℕ → List String → Prop
  | done {links here} (hhere : fs.outlineAt here = some (.directory [])) : Descends fs links here [] links here
  | dot {links here rest links' there} (hhere : fs.outlineAt here = some (.directory []))
      (hrest : Descends fs links here rest links' there) : Descends fs links here ("." :: rest) links' there
  | up {links here rest links' there} (hhere : fs.outlineAt here = some (.directory []))
      (hrest : Descends fs links here.dropLast rest links' there) : Descends fs links here (".." :: rest) links' there
  | link {links here name rest target links' there} (hhere : fs.outlineAt here = some (.directory []))
      (hdot : name ≠ ".") (hup : name ≠ "..") (hlink : fs.outlineAt (here ++ [name]) = some (.link target))
      (hrest : Descends fs links (if (Path.mk target).isAbsolute then [] else here) (steps ⟨target⟩ ++ rest) links' there) :
      Descends fs (links + 1) here (name :: rest) links' there
  | enter {links here name rest kind links' there} (hhere : fs.outlineAt here = some (.directory []))
      (hdot : name ≠ ".") (hup : name ≠ "..") (hname : fs.outlineAt (here ++ [name]) = some kind)
      (hkind : ∀ target, kind ≠ .link target)
      (hrest : Descends fs links (here ++ [name]) rest links' there) : Descends fs links here (name :: rest) links' there

namespace Descends

variable {fs fs' : FileSystem} {links links' : ℕ} {here there names : List String}

theorem directory (h : Descends fs links here names links' there) : fs.outlineAt there = some (.directory []) := by
  induction h with
  | done hhere => exact hhere
  | dot _ _ ih => exact ih
  | up _ _ ih => exact ih
  | link _ _ _ _ _ ih => exact ih
  | enter _ _ _ _ _ _ ih => exact ih

theorem mono {written : List String → Prop} (h : Descends fs links here names links' there) (hgrows : Grows written fs fs') :
    Descends fs' links here names links' there := by
  induction h with
  | done hhere => exact .done (hgrows.outline _ _ hhere)
  | dot hhere _ ih => exact .dot (hgrows.outline _ _ hhere) ih
  | up hhere _ ih => exact .up (hgrows.outline _ _ hhere) ih
  | link hhere hdot hup hlink _ ih => exact .link (hgrows.outline _ _ hhere) hdot hup (hgrows.outline _ _ hlink) ih
  | enter hhere hdot hup hname hkind _ ih =>
    exact .enter (hgrows.outline _ _ hhere) hdot hup (hgrows.outline _ _ hname) hkind ih

theorem walk (h : Descends fs links here names links' there) (last : Bool) (name : String) (rest : List String) :
    fs.walk last links here (names ++ name :: rest) = fs.walk last links' there (name :: rest) := by
  induction h with
  | done hhere => rfl
  | @dot links here names _ _ hhere _ ih =>
    obtain ⟨entries, hentries⟩ := outlineAt_eq_directory.mp hhere
    rw [List.cons_append, FileSystem.walk]
    simpa [hentries] using ih
  | up hhere _ ih =>
    obtain ⟨entries, hentries⟩ := outlineAt_eq_directory.mp hhere
    rw [List.cons_append, FileSystem.walk]
    simpa [hentries] using ih
  | link hhere hdot hup hlink _ ih =>
    obtain ⟨entries, hentries⟩ := outlineAt_eq_directory.mp hhere
    rw [outlineAt_eq_link, Entry.get?_concat_directory hentries] at hlink
    rw [List.cons_append, FileSystem.walk]
    simpa [hentries, hdot, hup, hlink] using ih
  | enter hhere hdot hup hname hkind _ ih =>
    obtain ⟨entries, hentries⟩ := outlineAt_eq_directory.mp hhere
    rw [outlineAt, Entry.get?_concat_directory hentries] at hname
    obtain ⟨e, he, rfl⟩ := Option.map_eq_some_iff.mp hname
    rw [List.cons_append, FileSystem.walk]
    cases e with
    | link target => exact absurd rfl (hkind target)
    | file content => simpa [hentries, hdot, hup, he] using ih
    | directory es => simpa [hentries, hdot, hup, he] using ih

theorem dots (hhere : fs.outlineAt here = some (.directory [])) {ds : List String} (hds : ∀ d ∈ ds, d = ".")
    (h : Descends fs links here names links' there) : Descends fs links here (ds ++ names) links' there := by
  induction ds with
  | nil => exact h
  | cons d ds ih =>
    rw [List.forall_mem_cons] at hds
    obtain rfl := hds.1
    exact .dot hhere (ih hds.2)

theorem congr (h : Descends fs links here names links' there) {other : List String}
    (hother : other.filter (· ≠ ".") = names.filter (· ≠ ".")) : Descends fs links here other links' there := by
  induction h generalizing other with
  | done hhere =>
    have hdots : ∀ d ∈ other, d = "." := by simpa using hother
    simpa using dots hhere hdots (.done hhere)
  | dot _ _ ih => exact ih (by simpa using hother)
  | up hhere _ ih =>
    obtain ⟨ds, rest, rfl, hds, -, hrest⟩ := List.filter_eq_cons_iff.mp (hother.trans (List.filter_cons_of_pos (by decide)))
    exact dots hhere (by simpa using hds) (.up hhere (ih hrest))
  | link hhere hdot hup hlink _ ih =>
    obtain ⟨ds, rest, rfl, hds, -, hrest⟩ :=
      List.filter_eq_cons_iff.mp (hother.trans (List.filter_cons_of_pos (by simpa using hdot)))
    exact dots hhere (by simpa using hds) (.link hhere hdot hup hlink
      (ih (by rw [List.filter_append, List.filter_append, hrest])))
  | enter hhere hdot hup hname hkind _ ih =>
    obtain ⟨ds, rest, rfl, hds, -, hrest⟩ :=
      List.filter_eq_cons_iff.mp (hother.trans (List.filter_cons_of_pos (by simpa using hdot)))
    exact dots hhere (by simpa using hds) (.enter hhere hdot hup hname hkind (ih hrest))

end Descends

theorem directory_of_walk {fs : FileSystem} {last : Bool} {links : ℕ} {here rest place : List String} {name : String}
    (h : fs.walk last links here (name :: rest) = .ok place) : fs.outlineAt here = some (.directory []) := by
  rw [walk] at h
  split at h
  · next entries hentries => exact outlineAt_eq_directory.mpr ⟨entries, hentries⟩
  · cases h
  · cases h

theorem descends_of_walk {fs : FileSystem} {last : Bool} {links : ℕ} {here names place : List String} {name : String}
    (h : fs.walk last links here (names ++ [name]) = .ok place) :
    ∃ links' there, Descends fs links here names links' there ∧ fs.walk last links' there [name] = .ok place := by
  cases names with
  | nil => exact ⟨links, here, .done (directory_of_walk h), h⟩
  | cons n names =>
    have hhere := directory_of_walk h
    obtain ⟨entries, hentries⟩ := outlineAt_eq_directory.mp hhere
    rw [List.cons_append, walk] at h
    simp only [hentries] at h
    by_cases hdot : n = "."
    · subst hdot
      obtain ⟨links', there, hrest, hwalk⟩ := descends_of_walk (by simpa using h)
      exact ⟨links', there, .dot hhere hrest, hwalk⟩
    · by_cases hup : n = ".."
      · subst hup
        obtain ⟨links', there, hrest, hwalk⟩ := descends_of_walk (by simpa using h)
        exact ⟨links', there, .up hhere hrest, hwalk⟩
      · simp only [if_neg hdot, if_neg hup] at h
        cases he : entries.lookup n with
        | none => simp [he] at h
        | some e =>
          have hname : fs.outlineAt (here ++ [n]) = some e.outline := by
            rw [outlineAt, Entry.get?_concat_directory hentries, he]
            rfl
          cases e with
          | link target =>
            cases links with
            | zero => simp [he] at h
            | succ links =>
              have htarget : fs.walk last links (if (Path.mk target).isAbsolute then [] else here)
                  ((steps ⟨target⟩ ++ names) ++ [name]) = .ok place := by simpa [he] using h
              obtain ⟨links', there, hrest, hwalk⟩ := descends_of_walk htarget
              exact ⟨links', there, .link hhere hdot hup hname hrest, hwalk⟩
          | file content =>
            obtain ⟨links', there, hrest, hwalk⟩ := descends_of_walk (by simpa [he] using h)
            exact ⟨links', there, .enter hhere hdot hup hname (by rintro target ⟨⟩) hrest, hwalk⟩
          | directory es =>
            obtain ⟨links', there, hrest, hwalk⟩ := descends_of_walk (by simpa [he] using h)
            exact ⟨links', there, .enter hhere hdot hup hname (by rintro target ⟨⟩) hrest, hwalk⟩
termination_by (links, names.length)

theorem directory_of_walk_dot {fs : FileSystem} {last : Bool} {links : ℕ} {here names place : List String}
    (h : fs.walk last links here (names ++ ["."]) = .ok place) : fs.outlineAt place = some (.directory []) := by
  obtain ⟨links', there, hthere, hwalk⟩ := descends_of_walk h
  obtain ⟨entries, hentries⟩ := outlineAt_eq_directory.mp hthere.directory
  have hplace : there = place := by simpa [walk, hentries] using hwalk
  exact hplace ▸ hthere.directory

theorem walk_name {fs : FileSystem} {last : Bool} {links : ℕ} {here : List String} {name : String}
    (hhere : fs.outlineAt here = some (.directory [])) (hdot : name ≠ ".") (hup : name ≠ "..")
    (hlink : last = true → ∀ target, fs.root.get? (here ++ [name]) ≠ some (.link target)) :
    fs.walk last links here [name] = .ok (here ++ [name]) := by
  obtain ⟨entries, hentries⟩ := outlineAt_eq_directory.mp hhere
  rw [Entry.get?_concat_directory hentries] at hlink
  cases he : entries.lookup name with
  | none => simp [walk, hentries, hdot, hup, he]
  | some e =>
    cases e with
    | file content => simp [walk, hentries, hdot, hup, he]
    | directory es => simp [walk, hentries, hdot, hup, he]
    | link target =>
      cases last with
      | false => simp [walk, hentries, hdot, hup, he]
      | true => exact absurd he (hlink rfl target)

def start (fs : FileSystem) (p : Path) : List String := if p.isAbsolute then [] else fs.workingDir

theorem follow_of_descends {fs : FileSystem} {last : Bool} {p : Path} {links : ℕ} {above there : List String} {name : String}
    (hp : p.text ≠ "") (hsteps : steps p = above ++ [name]) (h : Descends fs maxLinks (fs.start p) above links there)
    (hdot : name ≠ ".") (hup : name ≠ "..")
    (hlink : last = true → ∀ target, fs.root.get? (there ++ [name]) ≠ some (.link target)) :
    fs.follow last p = .ok (there ++ [name]) := by
  have htext : p.text.isEmpty = false := by simpa using hp
  rw [follow, htext, hsteps]
  exact (h.walk last name []).trans (walk_name h.directory hdot hup hlink)

theorem walk_of_follow {fs : FileSystem} {last : Bool} {p : Path} {place : List String}
    (h : fs.follow last p = .ok place) : fs.walk last maxLinks (fs.start p) (steps p) = .ok place := by
  rw [follow] at h
  split at h
  · cases h
  · exact h

theorem read_of_follow {fs : FileSystem} {p : Path} {place : List String} {content : Bytes}
    (h : fs.follow true p = .ok place) (hfile : fs.root.get? place = some (.file (.ok content))) : fs.read p = .ok content := by
  simp only [read, stat, h, bind, Except.bind, hfile]
  rfl

theorem doesExist_of_readText {fs : FileSystem} {p : Path} {content : List Char}
    (h : fs.readText p = .ok content) : fs.doesExist p = true := by
  rw [readText, read] at h
  rw [doesExist]
  cases hstat : fs.stat p with
  | ok e => rfl
  | error e =>
    rw [hstat] at h
    cases h

theorem follow_beside {entries : List (String × Entry)} {last : Bool} {p : Path} (name : String) (hp : p.text ≠ "")
    (hsteps : steps p = [name]) (hdot : name ≠ ".") (hup : name ≠ "..")
    (hlink : last = true → ∀ target, entries.lookup name ≠ some (.link target)) :
    follow ⟨.directory entries, []⟩ last p = .ok [name] := by
  let fs : FileSystem := ⟨.directory entries, []⟩
  have hroot : fs.root.get? [] = some (.directory entries) := rfl
  have hstart : fs.start p = [] := by
    rw [start]
    split_ifs <;> rfl
  have hhere : Descends fs maxLinks (fs.start p) [] maxLinks [] := by
    rw [hstart]
    exact .done rfl
  apply follow_of_descends hp hsteps hhere hdot hup
  rw [Entry.get?_concat_directory hroot]
  exact hlink

theorem readText_beside {entries : List (String × Entry)} {p : Path} {content : List Char} (name : String)
    (hp : p.text ≠ "") (hsteps : steps p = [name]) (hdot : name ≠ ".") (hup : name ≠ "..")
    (hfile : entries.lookup name = some (.file (.ok (utf8 content)))) :
    readText ⟨.directory entries, []⟩ p = .ok content := by
  have hfollow : follow ⟨.directory entries, []⟩ true p = .ok [name] := by
    apply follow_beside name hp hsteps hdot hup
    intro _ target htarget
    cases hfile.symm.trans htarget
  have hname : (Entry.directory entries).get? ([] ++ [name]) = some (.file (.ok (utf8 content))) :=
    (Entry.get?_concat_directory rfl name).trans hfile
  exact readText_eq_ok_iff.mpr (read_of_follow hfollow hname)

end FileSystem

end VisibleText
