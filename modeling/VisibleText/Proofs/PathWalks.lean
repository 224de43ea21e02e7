import VisibleText.Proofs.FileTree

namespace VisibleText.FileSystem

/-- Names lead from a place to another while at most so many links are followed. -/
inductive Walks (fs : FileSystem) (last : Bool) : ℕ → List String → List String → List String → Prop
  | done {links here} : Walks fs last links here [] here
  | dot {links here rest place} (hhere : fs.outlineAt here = some (.directory []))
      (hrest : Walks fs last links here rest place) : Walks fs last links here ("." :: rest) place
  | up {links here rest place} (hhere : fs.outlineAt here = some (.directory []))
      (hrest : Walks fs last links here.dropLast rest place) : Walks fs last links here (".." :: rest) place
  | missing {links here name} (hhere : fs.outlineAt here = some (.directory [])) (hdot : name ≠ ".") (hup : name ≠ "..")
      (hname : fs.outlineAt (here ++ [name]) = none) : Walks fs last links here [name] (here ++ [name])
  | stop {links here name target} (hhere : fs.outlineAt here = some (.directory [])) (hdot : name ≠ ".")
      (hup : name ≠ "..") (hname : fs.outlineAt (here ++ [name]) = some (.link target)) (hlast : last = false) :
      Walks fs last links here [name] (here ++ [name])
  | link {links here name rest target place} (hhere : fs.outlineAt here = some (.directory [])) (hdot : name ≠ ".")
      (hup : name ≠ "..") (hname : fs.outlineAt (here ++ [name]) = some (.link target)) (hgo : last = true ∨ rest ≠ [])
      (hrest : Walks fs last links (if (Path.mk target).isAbsolute then [] else here) (steps ⟨target⟩ ++ rest) place) :
      Walks fs last (links + 1) here (name :: rest) place
  | enter {links here name rest kind place} (hhere : fs.outlineAt here = some (.directory [])) (hdot : name ≠ ".")
      (hup : name ≠ "..") (hname : fs.outlineAt (here ++ [name]) = some kind) (hkind : ∀ target, kind ≠ .link target)
      (hrest : Walks fs last links (here ++ [name]) rest place) : Walks fs last links here (name :: rest) place

theorem walks_of_walk {fs : FileSystem} {last : Bool} {links : ℕ} {here names place : List String}
    (h : fs.walk last links here names = .ok place) : Walks fs last links here names place := by
  cases names with
  | nil =>
    rw [walk] at h
    obtain rfl := Except.ok.inj h
    exact .done
  | cons name rest =>
    have hhere := directory_of_walk h
    obtain ⟨entries, hentries⟩ := outlineAt_eq_directory.mp hhere
    have hat : fs.outlineAt (here ++ [name]) = (entries.lookup name).map Entry.outline := by
      rw [outlineAt, Entry.get?_concat_directory hentries]
    rw [walk] at h
    simp only [hentries] at h
    by_cases hdot : name = "."
    · subst hdot
      exact .dot hhere (walks_of_walk (by simpa using h))
    by_cases hup : name = ".."
    · subst hup
      exact .up hhere (walks_of_walk (by simpa using h))
    simp only [if_neg hdot, if_neg hup] at h
    cases he : entries.lookup name with
    | none =>
      rw [he] at h hat
      cases rest with
      | nil =>
        obtain rfl : here ++ [name] = place := by simpa using h
        exact .missing hhere hdot hup hat
      | cons next rest => simp at h
    | some e =>
      rw [he] at h hat
      cases e with
      | file content => exact .enter hhere hdot hup hat (by rintro target ⟨⟩) (walks_of_walk h)
      | directory es => exact .enter hhere hdot hup hat (by rintro target ⟨⟩) (walks_of_walk h)
      | link target =>
        by_cases hstop : rest = [] ∧ last = false
        · obtain ⟨rfl, rfl⟩ := hstop
          obtain rfl : here ++ [name] = place := by simpa using h
          exact .stop hhere hdot hup hat rfl
        · have hgo : last = true ∨ rest ≠ [] := by
            by_cases hrest : rest = []
            · exact .inl (by simpa [hrest] using hstop)
            · exact .inr hrest
          simp only [Bool.and_eq_true, List.isEmpty_iff, Bool.not_eq_true', hstop, if_false] at h
          cases links with
          | zero => simp at h
          | succ links => exact .link hhere hdot hup hat hgo (walks_of_walk h)
termination_by (links, names.length)

variable {fs fs' : FileSystem} {last : Bool} {links : ℕ} {here names place : List String}

theorem Walks.walk_eq (h : Walks fs last links here names place) : fs.walk last links here names = .ok place := by
  induction h with
  | done => rw [walk]
  | dot hhere _ ih =>
    obtain ⟨entries, hentries⟩ := outlineAt_eq_directory.mp hhere
    simpa [walk, hentries] using ih
  | up hhere _ ih =>
    obtain ⟨entries, hentries⟩ := outlineAt_eq_directory.mp hhere
    simpa [walk, hentries] using ih
  | missing hhere hdot hup hname =>
    obtain ⟨entries, hentries⟩ := outlineAt_eq_directory.mp hhere
    rw [outlineAt, Entry.get?_concat_directory hentries, Option.map_eq_none_iff] at hname
    simp [walk, hentries, hdot, hup, hname]
  | stop hhere hdot hup hname hlast =>
    obtain ⟨entries, hentries⟩ := outlineAt_eq_directory.mp hhere
    rw [outlineAt_eq_link, Entry.get?_concat_directory hentries] at hname
    simp [walk, hentries, hdot, hup, hname, hlast]
  | @link links here name rest target place hhere hdot hup hname hgo _ ih =>
    obtain ⟨entries, hentries⟩ := outlineAt_eq_directory.mp hhere
    rw [outlineAt_eq_link, Entry.get?_concat_directory hentries] at hname
    have hstop : ¬ (rest = [] ∧ last = false) := by
      rintro ⟨rfl, rfl⟩
      simp at hgo
    rw [walk]
    simpa [hentries, hdot, hup, hname, hstop] using ih
  | enter hhere hdot hup hname hkind _ ih =>
    obtain ⟨entries, hentries⟩ := outlineAt_eq_directory.mp hhere
    rw [outlineAt, Entry.get?_concat_directory hentries] at hname
    obtain ⟨e, he, rfl⟩ := Option.map_eq_some_iff.mp hname
    cases e with
    | link target => exact absurd rfl (hkind target)
    | file content => simpa [walk, hentries, hdot, hup, he] using ih
    | directory es => simpa [walk, hentries, hdot, hup, he] using ih

theorem Walks.mono {written : List String → Prop} (hgrows : Grows written fs fs')
    (h : Walks fs last links here names place) : Walks fs' last links here names place := by
  induction h with
  | done => exact .done
  | dot hhere _ ih => exact .dot (hgrows.outline _ _ hhere) ih
  | up hhere _ ih => exact .up (hgrows.outline _ _ hhere) ih
  | @missing links here name hhere hdot hup hname =>
    have hhere' := hgrows.outline _ _ hhere
    cases hname' : fs'.outlineAt (here ++ [name]) with
    | none => exact .missing hhere' hdot hup hname'
    | some kind =>
      refine .enter hhere' hdot hup hname' ?_ .done
      rintro target rfl
      have hlink := hgrows.link _ _ (outlineAt_eq_link.mp hname')
      cases hname.symm.trans (outlineAt_eq_link.mpr hlink)
  | stop hhere hdot hup hname hlast => exact .stop (hgrows.outline _ _ hhere) hdot hup (hgrows.outline _ _ hname) hlast
  | link hhere hdot hup hname hgo _ ih =>
    exact .link (hgrows.outline _ _ hhere) hdot hup (hgrows.outline _ _ hname) hgo ih
  | enter hhere hdot hup hname hkind _ ih =>
    exact .enter (hgrows.outline _ _ hhere) hdot hup (hgrows.outline _ _ hname) hkind ih

theorem Walks.unfollowed (h : Walks fs true links here names place) :
    ∃ place', Walks fs false links here names place' ∧
      (place' = place ∨ ∃ target, fs.outlineAt place' = some (.link target)) := by
  induction h with
  | done => exact ⟨_, .done, .inl rfl⟩
  | dot hhere _ ih =>
    obtain ⟨place', hplace', hend⟩ := ih
    exact ⟨place', .dot hhere hplace', hend⟩
  | up hhere _ ih =>
    obtain ⟨place', hplace', hend⟩ := ih
    exact ⟨place', .up hhere hplace', hend⟩
  | missing hhere hdot hup hname => exact ⟨_, .missing hhere hdot hup hname, .inl rfl⟩
  | stop _ _ _ _ hlast => cases hlast
  | @link links here name rest target place hhere hdot hup hname _ _ ih =>
    by_cases hrest : rest = []
    · subst hrest
      exact ⟨_, .stop hhere hdot hup hname rfl, .inr ⟨target, hname⟩⟩
    · obtain ⟨place', hplace', hend⟩ := ih
      exact ⟨place', .link hhere hdot hup hname (.inr hrest) hplace', hend⟩
  | enter hhere hdot hup hname hkind _ ih =>
    obtain ⟨place', hplace', hend⟩ := ih
    exact ⟨place', .enter hhere hdot hup hname hkind hplace', hend⟩

theorem outlineAt_of_append (front : List String) {back : List String} (h : fs.outlineAt (front ++ back) = some (.directory [])) :
    fs.outlineAt front = some (.directory []) := by
  obtain ⟨entries, hentries⟩ := outlineAt_eq_directory.mp h
  rw [Entry.get?_append] at hentries
  obtain ⟨e, he, hback⟩ := Option.bind_eq_some_iff.mp hentries
  cases back with
  | nil => simpa using h
  | cons name back =>
    rw [Entry.get?_cons] at hback
    cases e with
    | file content => cases hback
    | link target => cases hback
    | directory es => exact outlineAt_eq_directory.mpr ⟨es, he⟩

theorem Walks.not_link (h : Walks fs true links here names place)
    (hstart : ∀ target, fs.outlineAt here ≠ some (.link target)) (target : String) :
    fs.outlineAt place ≠ some (.link target) := by
  -- every directory on the way is below the root, which is then a directory as well
  have hdirectory {here : List String} (hhere : fs.outlineAt here = some (.directory [])) (target : String) :
      fs.outlineAt here ≠ some (.link target) := by
    rw [hhere]
    rintro ⟨⟩
  induction h with
  | done => exact hstart target
  | dot _ _ ih => exact ih hstart
  | @up _ here _ _ hhere _ ih =>
    rcases List.eq_nil_or_concat here with rfl | ⟨front, name, rfl⟩
    · exact ih hstart
    · rw [List.concat_eq_append] at hhere
      exact ih (by simpa using hdirectory (outlineAt_of_append front hhere))
  | missing _ _ _ hname =>
    rw [hname]
    rintro ⟨⟩
  | stop _ _ _ _ hlast => cases hlast
  | @link _ here _ _ t _ hhere _ _ _ _ _ ih =>
    apply ih
    split_ifs
    · exact hdirectory (outlineAt_of_append [] hhere)
    · exact hdirectory hhere
  | enter _ _ _ hname hkind _ ih =>
    apply ih
    intro target heq
    exact hkind target (Option.some.inj (hname.symm.trans heq))

theorem text_ne_of_follow {p : Path} (h : fs.follow last p = .ok place) : p.text ≠ "" := by
  intro hempty
  simp [follow, hempty] at h

theorem follow_of_walk {p : Path} (hp : p.text ≠ "") (h : fs.walk last maxLinks (fs.start p) (steps p) = .ok place) :
    fs.follow last p = .ok place := by
  rw [follow, if_neg (by simpa using hp)]
  exact h

theorem follow_mono {written : List String → Prop} {p : Path} (hgrows : Grows written fs fs')
    (h : fs.follow last p = .ok place) : fs'.follow last p = .ok place := by
  apply follow_of_walk (text_ne_of_follow h)
  have hstart : fs'.start p = fs.start p := by rw [start, start, hgrows.workingDir]
  rw [hstart]
  exact ((walks_of_walk (walk_of_follow h)).mono hgrows).walk_eq

theorem Walks.descends (h : Walks fs true links here names place) (hplace : fs.outlineAt place = some (.directory [])) :
    ∃ links', Descends fs links here names links' place := by
  induction h with
  | done => exact ⟨_, .done hplace⟩
  | dot hhere _ ih =>
    obtain ⟨links', hrest⟩ := ih hplace
    exact ⟨links', .dot hhere hrest⟩
  | up hhere _ ih =>
    obtain ⟨links', hrest⟩ := ih hplace
    exact ⟨links', .up hhere hrest⟩
  | missing _ _ _ hname => cases hname.symm.trans hplace
  | stop _ _ _ _ hlast => cases hlast
  | link hhere hdot hup hname _ _ ih =>
    obtain ⟨links', hrest⟩ := ih hplace
    exact ⟨links', .link hhere hdot hup hname hrest⟩
  | enter hhere hdot hup hname hkind _ ih =>
    obtain ⟨links', hrest⟩ := ih hplace
    exact ⟨links', .enter hhere hdot hup hname hkind hrest⟩

theorem Descends.walks {links' : ℕ} (h : Descends fs links here names links' place) :
    Walks fs true links here names place := by
  induction h with
  | done => exact .done
  | dot hhere _ ih => exact .dot hhere ih
  | up hhere _ ih => exact .up hhere ih
  | link hhere hdot hup hlink _ ih => exact .link hhere hdot hup hlink (.inl rfl) ih
  | enter hhere hdot hup hname hkind _ ih => exact .enter hhere hdot hup hname hkind ih

theorem stat_ok {p : Path} {e : Entry} (h : fs.stat p = .ok e) :
    ∃ place, fs.follow true p = .ok place ∧ fs.root.get? place = some e := by
  rw [stat] at h
  cases hplace : fs.follow true p with
  | error err =>
    rw [hplace] at h
    cases h
  | ok place =>
    rw [hplace] at h
    cases he : fs.root.get? place with
    | none => simp [he, bind, Except.bind] at h
    | some found => simp_all [bind, Except.bind, pure, Except.pure]

theorem stat_of_follow {p : Path} {e : Entry} (h : fs.follow true p = .ok place) (he : fs.root.get? place = some e) :
    fs.stat p = .ok e := by
  simp only [stat, h, bind, Except.bind, he]
  rfl

theorem doesExist_iff {p : Path} : fs.doesExist p = true ↔ ∃ e, fs.stat p = .ok e := by
  rw [doesExist]
  cases fs.stat p <;> simp

end VisibleText.FileSystem
