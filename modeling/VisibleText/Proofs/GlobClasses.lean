import VisibleText.Proofs.Globs

/-!
What a glob that is one class matches. The body of a class lists characters and runs of characters, and a caret in front
turns the list around. All that has a meaning of its own in a class of a pattern is written there behind a backslash, the
dash alone excepted: as long as no two dashes stand next to each other the class is read as it is listed, and two dashes
behind a member take away what is listed behind them.
-/
namespace VisibleText

namespace Glob

open Pattern

/-- The runs of characters that the body of a class lists, from left to right: two characters with a dash between them
are the ends of a run, any other character is a run of its own. -/
def ranges : List Char → List (Char × Char)
  | x :: '-' :: y :: rest => (x, y) :: ranges rest
  | x :: rest => (x, x) :: ranges rest
  | [] => []

def Lists (t : List Char) (c : Char) : Prop := ∃ r ∈ ranges t, r.1 ≤ c ∧ c ≤ r.2

def members (s : List Char) : List Char := if s.head? = some '^' then s.tail else s

def cuts : List Char → List Char × List (List Char)
  | '-' :: '-' :: rest => ([], (cuts rest).1 :: (cuts rest).2)
  | c :: rest => (c :: (cuts rest).1, (cuts rest).2)
  | [] => ([], [])

def undashed (t : List Char) : List Char := t.dropWhile (· == '-')

/-- What a class has with these members: dashes in front stand for themselves, and later on two dashes take away what is
listed behind them. -/
def Keeps (t : List Char) (c : Char) : Prop :=
  (t.head? = some '-' ∧ c = '-' ∨ Lists (cuts (undashed t)).1 c) ∧ ∀ v ∈ (cuts (undashed t)).2, ¬ Lists v c

def classText (t : List Char) : List Char := t.flatMap (classChar false)

variable {c d x y : Char} {s t rest tail : List Char}

theorem classChar_cases (c : Char) : classChar false c = ['\\', c] ∧ isMeta c = true ∨
    classChar false c = [c] ∧ c ≠ '\\' ∧ c ≠ '[' ∧ c ≠ '&' ∧ c ≠ '~' ∧ c ≠ '^' := by
  rw [classChar]
  split_ifs with h
  · left
    simp only [Bool.or_eq_true, decide_eq_true_eq, Bool.not_false, Bool.and_true] at h
    refine ⟨rfl, isMeta_iff.mpr ?_⟩
    rcases h with (((rfl | rfl) | rfl) | rfl) | rfl <;> simp
  · right
    simpa [and_assoc] using h

theorem classAtom?_classChar (c : Char) (rest : List Char) :
    classAtom? {} (classChar false c ++ rest) = some (.char c false, rest) := by
  rcases classChar_cases c with ⟨hc, hmeta⟩ | ⟨hc, hslash, -⟩
  · rw [hc, List.cons_append, classAtom?]
    exact escape?_meta hmeta rest
  · rw [hc, List.singleton_append, classAtom?]
    exact hslash

theorem head?_classChar (hd : d ≠ '\\') (hc : c ≠ d) (rest : List Char) :
    (classChar false c ++ rest).head? ≠ some d := by
  rcases classChar_cases c with ⟨htext, -⟩ | ⟨htext, -⟩
  · rw [htext]
    rintro ⟨⟩
    exact hd rfl
  · rw [htext]
    rintro ⟨⟩
    exact hc rfl

theorem classItem?_alone (c : Char) (hne : rest ≠ [])
    (hrest : rest.head? = some '-' → rest.tail.head? = some ']' ∨ rest.tail.head? = some '-') :
    classItem? {} (classChar false c ++ rest) = some (.singleton c, rest) := by
  by_cases hdash : rest.head? = some '-'
  · obtain ⟨more, rfl⟩ := List.head?_eq_some_iff.mp hdash
    rw [classItem?_dash (classAtom?_classChar c _)]
    exact if_pos (hrest rfl)
  · exact classItem?_single (classAtom?_classChar c rest) hne hdash

theorem classItem?_range (hclose : y ≠ ']') (hdash : y ≠ '-') (hle : x ≤ y) (rest : List Char) :
    classItem? {} (classChar false x ++ '-' :: (classChar false y ++ rest)) = some (.ofRange x y, rest) := by
  rw [classItem?_dash (classAtom?_classChar x _), if_neg, classAtom?_classChar]
  · exact if_pos hle
  · rintro (hhead | hhead)
    · exact head?_classChar (by decide) hclose rest hhead
    · exact head?_classChar (by decide) hdash rest hhead

theorem classBody?_classChar {item : CharSet} (hclose : c ≠ ']') (hop : c = '-' → rest.head? ≠ some '-')
    (hitem : classItem? {} (classChar false c ++ rest) = some (item, tail)) (negated : Bool) (fuel : ℕ)
    (pending : Option (SetOp × CharSet)) (union : CharSet) :
    classBody? {} negated (fuel + 1) pending union (classChar false c ++ rest) =
      classBody? {} negated fuel pending (union.union item) tail := by
  rcases classChar_cases c with ⟨htext, -⟩ | ⟨htext, -, hopen, hand, htilde, -⟩
  · rw [htext] at hitem ⊢
    exact classBody?_item (by decide) (by decide) rfl hitem negated fuel pending union
  · rw [htext] at hitem ⊢
    apply classBody?_item hclose hopen _ hitem
    change setOp? (c :: rest) = none
    rw [setOp?]
    · rintro more ⟨⟩
      exact hand rfl
    · rintro more ⟨⟩
      exact hop rfl rfl
    · rintro more ⟨⟩
      exact htilde rfl

structure IsRun (item : CharSet) (first last : Char) : Prop where
  normal : item.Normal
  length_le : item.runs.length ≤ 1
  contains_iff : ∀ c, item.contains c = true ↔ first ≤ c ∧ c ≤ last

theorem isRun_singleton (c : Char) : IsRun (.singleton c) c c where
  normal := CharSet.normal_singleton c
  length_le := Nat.le_refl 1
  contains_iff d := by
    rw [CharSet.contains_singleton_iff]
    constructor
    · rintro rfl
      exact ⟨Char.le_refl d, Char.le_refl d⟩
    · rintro ⟨hle, hge⟩
      exact Char.le_antisymm hge hle

theorem isRun_ofRange (x y : Char) : IsRun (.ofRange x y) x y where
  normal := CharSet.normal_ofRange x y
  length_le := (CharSet.ofRuns_spec _).2.1
  contains_iff _ := CharSet.contains_ofRange_iff

structure Adds (t : List Char) (s s' : CharSet) : Prop where
  normal : s'.Normal
  length_le : s'.runs.length ≤ s.runs.length + t.length
  contains_iff : ∀ c, s'.contains c = true ↔ s.contains c = true ∨ Lists t c

theorem adds_nil {s : CharSet} (hs : s.Normal) : Adds [] s s where
  normal := hs
  length_le := Nat.le_refl _
  contains_iff c := by simp [Lists, ranges]

theorem IsRun.adds {item s s' : CharSet} (hitem : IsRun item x y) (hs : s.Normal) (ht : ranges t = (x, y) :: ranges rest)
    (hlength : rest.length < t.length) (h : Adds rest (s.union item) s') : Adds t s s' where
  normal := h.normal
  length_le := by
    have hunion := CharSet.length_union s item
    have hrest := h.length_le
    have hone := hitem.length_le
    omega
  contains_iff c := by
    rw [h.contains_iff, CharSet.contains_union_iff hs hitem.normal, hitem.contains_iff, or_assoc]
    simp only [Lists, ht, List.mem_cons, or_and_right, exists_or, exists_eq_left]

def Closes (t tail : List Char) : Prop := tail.head? = some ']' ∨ ['-', '-'] <+: tail ∧ ¬ ['-'] <:+ t

theorem Closes.mono (h : Closes t tail) (hrest : rest <:+ t) : Closes rest tail := by
  rcases h with hend | ⟨hdashes, hlast⟩
  · exact .inl hend
  · exact .inr ⟨hdashes, fun hdash => hlast (hdash.trans hrest)⟩

theorem Closes.head?_tail (h : Closes ['-'] tail) : tail.head? = some ']' :=
  h.resolve_right fun hdashes => hdashes.2 (List.suffix_refl _)

theorem classText_cons (c : Char) (t : List Char) : classText (c :: t) = classChar false c ++ classText t := List.flatMap_cons

theorem head?_classText (hd : d ≠ '\\') (hc : c ≠ d) (t tail : List Char) :
    (classText (c :: t) ++ tail).head? ≠ some d := by
  rw [classText_cons, List.append_assoc]
  exact head?_classChar hd hc _

theorem Closes.behind_dash (h : Closes (x :: rest) tail) (hrun : ∀ y more, rest ≠ '-' :: y :: more)
    (hdash : (classText rest ++ tail).head? = some '-') :
    (classText rest ++ tail).tail.head? = some ']' ∨ (classText rest ++ tail).tail.head? = some '-' := by
  cases rest with
  | nil =>
    rcases h with hend | ⟨⟨more, rfl⟩, -⟩
    · exact absurd (hend.symm.trans hdash) (by decide)
    · exact .inr rfl
  | cons c rest =>
    by_cases hc : c = '-'
    · subst hc
      cases rest with
      | nil => exact .inl (h.mono (List.suffix_cons x _)).head?_tail
      | cons y more => exact absurd rfl (hrun y more)
    · exact absurd hdash (head?_classText (by decide) hc rest tail)

theorem Closes.head?_ne_dash (h : Closes ('-' :: rest) tail) (hdashes : ¬ ['-', '-'] <:+: '-' :: rest) :
    (classText rest ++ tail).head? ≠ some '-' := by
  cases rest with
  | nil =>
    intro hdash
    exact absurd (h.head?_tail.symm.trans hdash) (by decide)
  | cons c rest =>
    apply head?_classText (by decide)
    rintro rfl
    exact hdashes ⟨[], rest, rfl⟩

theorem classBody?_members {s : CharSet} (hclose : ']' ∉ t) (hdashes : ¬ ['-', '-'] <:+: t)
    (hforward : ∀ r ∈ ranges t, r.1 ≤ r.2) (hs : s.Normal) :
    ∃ s', Adds t s s' ∧ ∃ steps ≤ t.length, ∀ negated pending fuel tail, Closes t tail →
      classBody? {} negated (steps + fuel) pending s (classText t ++ tail) =
        classBody? {} negated fuel pending s' tail := by
  fun_induction ranges t generalizing s with
  | case1 x y rest ih =>
    obtain ⟨hx, -, hy, hrest⟩ : x ≠ ']' ∧ ']' ≠ '-' ∧ y ≠ ']' ∧ ']' ∉ rest := by
      simpa [eq_comm] using hclose
    have hxdash : x ≠ '-' := by
      rintro rfl
      exact hdashes ⟨[], y :: rest, rfl⟩
    have hydash : y ≠ '-' := by
      rintro rfl
      exact hdashes ⟨[x], rest, rfl⟩
    obtain ⟨hxy, hforward⟩ := List.forall_mem_cons.mp hforward
    have hsuffix : rest <:+ x :: '-' :: y :: rest := ⟨[x, '-', y], rfl⟩
    have hrun := isRun_ofRange x y
    obtain ⟨s', hadds, steps, hsteps, hread⟩ := ih hrest (fun h => hdashes (h.trans hsuffix.isInfix)) hforward
      (CharSet.normal_union s (.ofRange x y))
    refine ⟨s', hrun.adds hs (by rw [ranges]) (by simp only [List.length_cons]; omega) hadds, steps + 1, by simp only [List.length_cons]; omega, ?_⟩
    intro negated pending fuel tail htail
    have hitem := classItem?_range hy hydash hxy (classText rest ++ tail)
    rw [classText_cons, classText_cons, classText_cons, List.append_assoc, List.append_assoc, List.append_assoc,
      Nat.add_right_comm]
    exact (classBody?_classChar hx (fun h => absurd h hxdash) hitem _ _ _ _).trans
      (hread negated pending fuel tail (htail.mono hsuffix))
  | case2 x rest hnot ih =>
    obtain ⟨hx, hrest⟩ : x ≠ ']' ∧ ']' ∉ rest := by simpa [eq_comm] using hclose
    obtain ⟨-, hforward⟩ := List.forall_mem_cons.mp hforward
    have hsuffix : rest <:+ x :: rest := List.suffix_cons x rest
    obtain ⟨s', hadds, steps, hsteps, hread⟩ := ih hrest (fun h => hdashes (h.trans hsuffix.isInfix)) hforward
      (CharSet.normal_union s (.singleton x))
    refine ⟨s', (isRun_singleton x).adds hs ?_ (by simp) hadds, steps + 1, by simp only [List.length_cons]; omega, ?_⟩
    · rw [ranges]
      exact hnot
    intro negated pending fuel tail htail
    -- a dash behind `x` makes no run of it, and `x` itself is no dash with another one behind it
    have hne : classText rest ++ tail ≠ [] := by
      rcases htail with hend | ⟨⟨more, rfl⟩, -⟩
      · exact List.append_ne_nil_of_right_ne_nil _ (by rintro rfl; cases hend)
      · simp
    have hitem : classItem? {} (classChar false x ++ (classText rest ++ tail)) = some (.singleton x, classText rest ++ tail) := by
      apply classItem?_alone x hne
      exact htail.behind_dash fun y more hmore => hnot y more hmore
    rw [classText_cons, List.append_assoc, Nat.add_right_comm]
    apply (classBody?_classChar hx ?_ hitem _ _ _ _).trans (hread negated pending fuel tail (htail.mono hsuffix))
    rintro rfl
    exact htail.head?_ne_dash hdashes
  | case3 =>
    exact ⟨s, adds_nil hs, 0, Nat.le_refl 0, fun negated pending fuel tail _ => by rw [Nat.zero_add]; rfl⟩

theorem not_infix_dashes_cons (hc : c = '-' → t.head? ≠ some '-') (h : ¬ ['-', '-'] <:+: t) :
    ¬ ['-', '-'] <:+: c :: t := by
  rw [List.infix_cons_iff]
  rintro (⟨more, hmore⟩ | hpair)
  · cases hmore
    exact hc rfl rfl
  · exact h hpair

theorem cuts_cases (t : List Char) : cuts t = (t, []) ∧ ¬ ['-', '-'] <:+: t ∨
    ∃ u rest, t = u ++ '-' :: '-' :: rest ∧ cuts t = (u, (cuts rest).1 :: (cuts rest).2) ∧
      ¬ ['-', '-'] <:+: u ∧ ¬ ['-'] <:+ u := by
  fun_induction cuts t with
  | case1 rest => exact .inr ⟨[], rest, rfl, rfl, by simp, by simp⟩
  | case2 c rest hnot ih =>
    have hfirst : c = '-' → rest.head? ≠ some '-' := by
      rintro rfl hdash
      obtain ⟨more, rfl⟩ := List.head?_eq_some_iff.mp hdash
      exact hnot more rfl rfl
    rcases ih with ⟨hcuts, hdashes⟩ | ⟨u, more, rfl, hcuts, hdashes, hlast⟩
    · exact .inl ⟨by rw [hcuts], not_infix_dashes_cons hfirst hdashes⟩
    · refine .inr ⟨c :: u, more, rfl, by rw [hcuts], not_infix_dashes_cons ?_ hdashes, ?_⟩
      · rintro rfl hdash
        obtain ⟨_, rfl⟩ := List.head?_eq_some_iff.mp hdash
        exact hfirst rfl rfl
      · rw [List.suffix_cons_iff]
        rintro (hone | hsuffix)
        · cases hone
          exact hfirst rfl rfl
        · exact hlast hsuffix
  | case3 => exact .inl ⟨rfl, by simp⟩

def joined (vs : List (List Char)) : List Char := vs.flatMap fun v => '-' :: '-' :: v

theorem joined_cons (v : List Char) (vs : List (List Char)) : joined (v :: vs) = '-' :: '-' :: (v ++ joined vs) :=
  List.flatMap_cons

theorem cuts_joined (t : List Char) : (cuts t).1 ++ joined (cuts t).2 = t := by
  fun_induction cuts t with
  | case1 rest ih => rw [joined_cons, ih, List.nil_append]
  | case2 c rest _ ih => rw [List.cons_append, ih]
  | case3 => rfl

structure Leaves (vs : List (List Char)) (s s' : CharSet) : Prop where
  normal : s'.Normal
  length_le : s'.runs.length ≤ s.runs.length + 2 * (joined vs).length
  contains_iff : ∀ c, s'.contains c = true ↔ s.contains c = true ∧ ∀ v ∈ vs, ¬ Lists v c

theorem leaves_nil {s : CharSet} (hs : s.Normal) : Leaves [] s s where
  normal := hs
  length_le := Nat.le_refl _
  contains_iff c := by simp

theorem Leaves.cons {v : List Char} {vs : List (List Char)} {s part s' : CharSet} (h : Leaves vs (s.diff part) s')
    (hs : s.Normal) (hpart : Adds v .empty part) : Leaves (v :: vs) s s' where
  normal := h.normal
  length_le := by
    have hdiff := CharSet.length_diff hs hpart.normal
    have hlength := hpart.length_le
    have hs' := h.length_le
    have hempty : CharSet.empty.runs.length = 0 := rfl
    rw [joined_cons, List.length_cons, List.length_cons, List.length_append]
    omega
  contains_iff c := by
    rw [h.contains_iff, CharSet.contains_diff_iff hs hpart.normal, hpart.contains_iff, List.forall_mem_cons, and_assoc,
      or_iff_right (CharSet.not_contains_empty c)]

theorem normal_remaining {left : Option CharSet} {s : CharSet} (hs : s.Normal) : (remaining left s).Normal := by
  cases left with
  | none => exact hs
  | some left => exact CharSet.normal_diff left s

theorem classBody?_cuts (left : Option CharSet) {s : CharSet} (hclose : ']' ∉ t)
    (hforward : ∀ v ∈ (cuts t).1 :: (cuts t).2, ∀ r ∈ ranges v, r.1 ≤ r.2) (hs : s.Normal) :
    ∃ part set, Adds (cuts t).1 s part ∧ Leaves (cuts t).2 (remaining left part) set ∧
      ∃ steps ≤ t.length, ∀ negated fuel rest,
        classBody? {} negated (steps + (fuel + 1)) (left.map fun l => (.difference, l)) s (classText t ++ ']' :: rest) =
          some (foldAndNegate {} negated set, rest) := by
  -- on the length, since a whole part goes away with each two dashes; what the part leaves becomes the new `left`
  induction hn : t.length using Nat.strong_induction_on generalizing t left s with
  | _ n ih =>
    subst hn
    rcases cuts_cases t with ⟨hcuts, hdashes⟩ | ⟨u, more, rfl, hcuts, hdashes, hlast⟩
    · rw [hcuts] at hforward ⊢
      obtain ⟨part, hadds, steps, hsteps, hread⟩ :=
        classBody?_members hclose hdashes (hforward t List.mem_cons_self) hs
      refine ⟨part, _, hadds, leaves_nil (normal_remaining hadds.normal), steps, hsteps, ?_⟩
      intro negated fuel rest
      rw [hread _ _ _ _ (.inl rfl), classBody?_close]
    · rw [hcuts] at hforward ⊢
      obtain ⟨hu, hmore⟩ := List.forall_mem_cons.mp hforward
      have hclose' : ']' ∉ u ∧ ']' ∉ more := by simpa using hclose
      obtain ⟨part, hadds, steps, hsteps, hread⟩ := classBody?_members hclose'.1 hdashes hu hs
      have hlength : more.length + 2 ≤ (u ++ '-' :: '-' :: more).length := by simp
      obtain ⟨part', set, hadds', hleaves, steps', hsteps', hread'⟩ := ih more.length (by omega)
        (some (remaining left part)) hclose'.2 hmore CharSet.normal_empty rfl
      refine ⟨part, set, hadds, hleaves.cons (normal_remaining hadds.normal) hadds', steps + (1 + steps'), ?_, ?_⟩
      · simp only [List.length_append, List.length_cons]
        omega
      · intro negated fuel rest
        have hsplit : classText (u ++ '-' :: '-' :: more) ++ ']' :: rest =
            classText u ++ '-' :: '-' :: (classText more ++ ']' :: rest) := by
          simp only [classText, List.flatMap_append, List.append_assoc]
          rfl
        have hfuel : steps + (1 + steps') + (fuel + 1) = steps + (steps' + (fuel + 1) + 1) := by omega
        have hcloses : Closes u ('-' :: '-' :: (classText more ++ ']' :: rest)) := .inr ⟨⟨_, rfl⟩, hlast⟩
        rw [hsplit, hfuel, hread _ _ _ _ hcloses, classBody?_dashes]
        exact hread' negated fuel rest

theorem undashed_eq (h : t.head? ≠ some '-') : undashed t = t := by
  cases t with
  | nil => rfl
  | cons c t => exact List.dropWhile_cons_of_neg (by simpa using h)

theorem leadingDashes_classText {s : CharSet} (hs : s.Normal) : ∃ lead, lead.Normal ∧
    lead.runs.length + (undashed t).length ≤ s.runs.length + t.length ∧
    (∀ c, lead.contains c = true ↔ s.contains c = true ∨ t.head? = some '-' ∧ c = '-') ∧
    ∀ rest, leadingDashes {} s (classText t ++ ']' :: rest) = (lead, classText (undashed t) ++ ']' :: rest) := by
  induction t generalizing s with
  | nil => exact ⟨s, hs, Nat.le_refl _, by simp, fun rest => rfl⟩
  | cons d t ih =>
    by_cases hd : d = '-'
    · subst hd
      obtain ⟨lead, hlead, hlength, hcontains, hread⟩ := ih (CharSet.normal_union s (.singleton '-'))
      have hunion := CharSet.length_union s (.singleton '-')
      have hone : (CharSet.singleton '-').runs.length = 1 := rfl
      refine ⟨lead, hlead, ?_, fun c => ?_, hread⟩
      · change lead.runs.length + (undashed t).length ≤ s.runs.length + (t.length + 1)
        omega
      · rw [hcontains, CharSet.contains_union_iff hs (CharSet.normal_singleton _), CharSet.contains_singleton_iff]
        simp only [List.head?_cons, true_and]
        tauto
    · have hundashed : undashed (d :: t) = d :: t := undashed_eq (by simpa using hd)
      refine ⟨s, hs, by rw [hundashed], by simp [hd], fun rest => ?_⟩
      rw [hundashed, leadingDashes_stop (head?_classText (by decide) hd t _)]

theorem length_le_classText (t : List Char) : t.length ≤ (classText t).length := by
  induction t with
  | nil => exact Nat.le_refl 0
  | cons c t ih =>
    rw [classText_cons, List.length_append, List.length_cons]
    rcases classChar_cases c with ⟨hc, -⟩ | ⟨hc, -⟩ <;> simp only [hc, List.length_cons, List.length_nil] <;> omega

theorem classChars_eq (s : List Char) :
    classChars s = (if s.head? = some '^' then ['^'] else []) ++ classText (members s) := by
  cases s with
  | nil => rfl
  | cons c s =>
    rw [classChars, members]
    by_cases hc : c = '^'
    · subst hc
      rfl
    · have hchar : classChar true c = classChar false c := by simp [classChar, hc]
      simp only [List.head?_cons, Option.some_inj, hc, ↓reduceIte, List.nil_append, classText_cons, hchar]
      rfl

theorem members_suffix (s : List Char) : members s <:+ s := by
  rw [members]
  split_ifs
  · exact List.tail_suffix s
  · exact List.suffix_refl s

theorem undashed_suffix (t : List Char) : undashed t <:+ t := List.dropWhile_suffix _

theorem contains_foldAndNegate_iff {s : CharSet} (hs : s.Normal) (negated : Bool) :
    (foldAndNegate {} negated s).contains c = true ↔ (s.contains c = true ↔ negated = false) := by
  cases negated with
  | false =>
    change s.contains c = true ↔ _
    simp
  | true =>
    change s.compl.contains c = true ↔ _
    simp [CharSet.contains_compl_iff hs]

theorem length_foldAndNegate {s : CharSet} (hs : s.Normal) (negated : Bool) :
    (foldAndNegate {} negated s).runs.length ≤ s.runs.length + 1 := by
  cases negated with
  | false => exact Nat.le_succ _
  | true => exact hs.length_compl

theorem head?_undashed (hclose : ']' ∉ t) (hne : t ≠ []) :
    t.head? = some '-' ∨ ∀ tail, (classText (undashed t) ++ tail).head? ≠ some ']' := by
  by_cases hdash : t.head? = some '-'
  · exact .inl hdash
  · right
    intro tail
    rw [undashed_eq hdash]
    obtain ⟨c, t, rfl⟩ := List.exists_cons_of_ne_nil hne
    apply head?_classText (by decide)
    rintro rfl
    exact hclose List.mem_cons_self

theorem class?_classText {t : List Char} (hclose : ']' ∉ t) (hne : t ≠ [])
    (hforward : ∀ v ∈ (cuts (undashed t)).1 :: (cuts (undashed t)).2, ∀ r ∈ ranges v, r.1 ≤ r.2) :
    ∃ set, set.Normal ∧ set.runs.length ≤ 2 * t.length ∧ (∀ c, set.contains c = true ↔ Keeps t c) ∧
      ∀ rest, class? {} ('^' :: (classText t ++ ']' :: rest)) = some (foldAndNegate {} true set, rest) ∧
        (t.head? ≠ some '^' → class? {} (classText t ++ ']' :: rest) = some (foldAndNegate {} false set, rest)) := by
  obtain ⟨lead, hlead, hlength, hcontains, hdashes⟩ := leadingDashes_classText (t := t) CharSet.normal_empty
  have hinner : ']' ∉ undashed t := fun hmem => hclose ((undashed_suffix t).subset hmem)
  obtain ⟨part, set, hadds, hleaves, steps, hsteps, hread⟩ := classBody?_cuts none hinner hforward hlead
  refine ⟨set, hleaves.normal, ?_, fun c => ?_, fun rest => ?_⟩
  · have hpart := hadds.length_le
    have hset : set.runs.length ≤ part.runs.length + _ := hleaves.length_le
    have hcuts := congrArg List.length (cuts_joined (undashed t))
    rw [List.length_append] at hcuts
    have hempty : CharSet.empty.runs.length = 0 := rfl
    omega
  · rw [hleaves.contains_iff, Keeps, remaining, hadds.contains_iff, hcontains,
      or_iff_right (CharSet.not_contains_empty c)]
  · have hstart : lead.isEmpty = true → (classText (undashed t) ++ ']' :: rest).head? ≠ some ']' := by
      intro hnone
      rcases head?_undashed hclose hne with hdash | hhead
      · have hmem := (hcontains '-').mpr (.inr ⟨hdash, rfl⟩)
        rw [CharSet.contains, List.isEmpty_iff.mp hnone] at hmem
        cases hmem
      · exact hhead _
    have hclass {cs : List Char} {negated : Bool} (hroom : (classText t).length ≤ cs.length)
        (hcs : classStart {} cs = (negated, lead, classText (undashed t) ++ ']' :: rest)) :
        class? {} cs = some (foldAndNegate {} negated set, rest) := by
      have hle := length_le_classText t
      have hsuffix := (undashed_suffix t).length_le
      obtain ⟨fuel, hfuel⟩ : ∃ fuel, cs.length + 1 = steps + (fuel + 1) := ⟨cs.length - steps, by omega⟩
      rw [class?, hcs, hfuel]
      exact hread negated fuel rest
    constructor
    · apply hclass _ (classStart_caret (hdashes rest) hstart)
      simp only [List.length_cons, List.length_append]
      omega
    · intro hcaret
      obtain ⟨c, t, rfl⟩ := List.exists_cons_of_ne_nil hne
      have hc : c ≠ '^' := fun h => hcaret (congrArg some h)
      apply hclass _ (classStart_plain (hdashes rest) hstart (head?_classText (by decide) hc t _))
      rw [List.length_append]
      omega

theorem bodyText_class (hclose : ']' ∉ s) : bodyText ('[' :: s ++ [']']) = '[' :: (classChars s ++ [']']) := by
  have hinner : (s ++ [']']).takeWhile (· != ']') = s := by
    rw [List.takeWhile_append_of_pos]
    · simp
    · intro c hc
      simpa using fun h : c = ']' => hclose (h ▸ hc)
  rw [List.cons_append, bodyText]
  simp only [hinner]
  rw [if_pos (by simp), List.drop_of_length_le (by simp), bodyText]
  rfl

theorem isMatch_class_iff {set : CharSet} {text : List Char} :
    (anchored [chars set]).isMatch text = true ↔ ∃ c, text = [c] ∧ set.contains c = true := by
  rw [isMatch_anchored_iff (by simp [WellFormed]), seqAll, matches_chars_iff]
  constructor
  · rintro ⟨hlength, c, hc, hset⟩
    obtain ⟨d, rfl⟩ := List.length_eq_one_iff.mp hlength
    cases hc
    exact ⟨_, rfl, hset⟩
  · rintro ⟨c, rfl, hset⟩
    exact ⟨rfl, c, rfl, hset⟩

/-- The glob that is one class with this body compiles, room allowing, and matches the texts of one character that has
the property, or that does not have it if the body starts with a caret. -/
def Selects (s : List Char) (holds : Char → Prop) : Prop :=
  ∃ p, compile? ('[' :: s ++ [']']) = (if p.weight ≤ maxWeight then some p else none) ∧
    p.weight ≤ 128 * (s.length + 1) ∧
    ∀ text, p.isMatch text = true ↔ ∃ c, text = [c] ∧ (holds c ↔ s.head? ≠ some '^')

theorem selects_keeps (hclose : ']' ∉ s) (hne : members s ≠ [])
    (hforward : ∀ v ∈ (cuts (undashed (members s))).1 :: (cuts (undashed (members s))).2, ∀ r ∈ ranges v, r.1 ≤ r.2) :
    Selects s (Keeps (members s)) := by
  have hmembers : ']' ∉ members s := fun hmem => hclose ((members_suffix s).subset hmem)
  obtain ⟨set, hnormal, hlength, hcontains, hclass⟩ := class?_classText hmembers hne hforward
  have hread (rest : List Char) : class? {} (classChars s ++ [']'] ++ rest) =
      some (foldAndNegate {} (decide (s.head? = some '^')) set, rest) := by
    obtain ⟨hcaret, hplain⟩ := hclass rest
    rw [classChars_eq, List.append_assoc, List.append_assoc, List.singleton_append]
    by_cases hhead : s.head? = some '^'
    · simpa [hhead] using hcaret
    · have hsame : members s = s := by rw [members, if_neg hhead]
      rw [hsame] at hplain ⊢
      simpa [hhead] using hplain hhead
  have hwritten := written_class hread
  rw [← bodyText_class hclose] at hwritten
  refine ⟨_, compile?_of_written hwritten (by rw [bodyText_class hclose]; rintro ⟨⟩), ?_, fun text => ?_⟩
  · have hset := length_foldAndNegate hnormal (decide (s.head? = some '^'))
    have hle := (members_suffix s).length_le
    have hweight := weight_chars_le (foldAndNegate {} (decide (s.head? = some '^')) set)
    rw [weight_anchored, seqAll]
    omega
  · simp only [isMatch_class_iff, contains_foldAndNegate_iff hnormal, hcontains, decide_eq_false_iff_not]

theorem cuts_undashed (h : ¬ ['-', '-'] <:+: t) : cuts (undashed t) = (undashed t, []) := by
  rcases cuts_cases (undashed t) with ⟨hcuts, -⟩ | ⟨u, rest, hsplit, -⟩
  · exact hcuts
  · have hpair : ['-', '-'] <:+: undashed t := ⟨u, rest, by rw [hsplit, List.append_assoc]; rfl⟩
    exact absurd (hpair.trans (undashed_suffix t).isInfix) h

theorem mem_ranges_iff (h : ¬ ['-', '-'] <:+: t) {r : Char × Char} :
    r ∈ ranges t ↔ t.head? = some '-' ∧ r = ('-', '-') ∨ r ∈ ranges (undashed t) := by
  by_cases hdash : t.head? = some '-'
  · obtain ⟨rest, rfl⟩ := List.head?_eq_some_iff.mp hdash
    have hrest : rest.head? ≠ some '-' := by
      intro hsecond
      obtain ⟨more, rfl⟩ := List.head?_eq_some_iff.mp hsecond
      exact h ⟨[], more, rfl⟩
    have hundashed : undashed ('-' :: rest) = rest := undashed_eq hrest
    have hranges : ranges ('-' :: rest) = ('-', '-') :: ranges rest := by
      rw [ranges]
      rintro y more rfl
      exact hrest rfl
    rw [hundashed, hranges, List.mem_cons, and_iff_right hdash]
  · rw [undashed_eq hdash]
    simp [hdash]

theorem keeps_iff_lists (h : ¬ ['-', '-'] <:+: t) : Keeps t c ↔ Lists t c := by
  have hdash : c = '-' ↔ '-' ≤ c ∧ c ≤ '-' := by
    rw [← (isRun_singleton '-').contains_iff, CharSet.contains_singleton_iff]
  simp only [Keeps, cuts_undashed h, Lists, mem_ranges_iff h, List.not_mem_nil, false_implies, implies_true, and_true,
    or_and_right, exists_or, and_assoc, exists_and_left, exists_eq_left, hdash]

theorem compile?_class (hclose : ']' ∉ s) (hne : members s ≠ []) :
    (¬ ['-', '-'] <:+: members s → (∀ r ∈ ranges (members s), r.1 ≤ r.2) → Selects s (Lists (members s))) ∧
      ((∀ v ∈ (cuts (undashed (members s))).1 :: (cuts (undashed (members s))).2, ∀ r ∈ ranges v, r.1 ≤ r.2) →
        Selects s (Keeps (members s))) := by
  refine ⟨fun hdashes hforward => ?_, selects_keeps hclose hne⟩
  have hsame : Keeps (members s) = Lists (members s) := by
    funext c
    exact propext (keeps_iff_lists hdashes)
  rw [← hsame]
  apply selects_keeps hclose hne
  rw [cuts_undashed hdashes]
  rintro v hv r hr
  obtain rfl := List.mem_singleton.mp hv
  exact hforward r ((mem_ranges_iff hdashes).mpr (.inr hr))

theorem compile?_class_operators :
    let s := ['^', 'a', '-', 'c', '&', '&', '[']
    let s' := ['+', '-', '-']
    (']' ∉ s ∧ members s ≠ [] ∧ ¬ ['-', '-'] <:+: members s ∧ (∀ r ∈ ranges (members s), r.1 ≤ r.2) ∧
      ∃ p, compile? ('[' :: s ++ [']']) = some p ∧ p.isMatch ['b'] = false ∧ p.isMatch ['&'] = false ∧
        p.isMatch ['d'] = true) ∧
    ']' ∉ s' ∧ members s' ≠ [] ∧ (∀ r ∈ ranges (members s'), r.1 ≤ r.2) ∧ Lists (members s') ',' ∧
      ∃ p, compile? ('[' :: s' ++ [']']) = some p ∧ p.isMatch ['+'] = true ∧ p.isMatch [','] = false := by
  intro s s'
  constructor
  · have hclose : ']' ∉ s := by decide
    have hne : members s ≠ [] := by decide
    have hdashes : ¬ ['-', '-'] <:+: members s := by decide
    have hforward : ∀ r ∈ ranges (members s), r.1 ≤ r.2 := by decide
    obtain ⟨p, hp, hweight, hmatch⟩ := (compile?_class hclose hne).1 hdashes hforward
    have hroom : p.weight ≤ maxWeight := Nat.le_trans hweight (by decide)
    refine ⟨hclose, hne, hdashes, hforward, p, hp.trans (if_pos hroom), ?_, ?_, ?_⟩
    all_goals simp [← Bool.not_eq_true, hmatch, Lists, members, ranges, s]
  · have hclose : ']' ∉ s' := by decide
    have hne : members s' ≠ [] := by decide
    have hcuts : cuts (undashed (members s')) = (['+'], [[]]) := by decide
    have hforward : ∀ v ∈ (cuts (undashed (members s'))).1 :: (cuts (undashed (members s'))).2,
        ∀ r ∈ ranges v, r.1 ≤ r.2 := by
      decide
    obtain ⟨p, hp, hweight, hmatch⟩ := (compile?_class hclose hne).2 hforward
    have hroom : p.weight ≤ maxWeight := Nat.le_trans hweight (by decide)
    refine ⟨hclose, hne, by decide, ⟨('+', '-'), by decide⟩, p, hp.trans (if_pos hroom), ?_, ?_⟩
    all_goals simp [← Bool.not_eq_true, hmatch, Keeps, hcuts, Lists, ranges]
    all_goals simp [s']

end Glob

end VisibleText
