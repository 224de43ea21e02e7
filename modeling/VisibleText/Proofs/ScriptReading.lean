import VisibleText.JavaScript.Program
import VisibleText.Proofs.ScriptTokens

/-!
What a reader keeps of the string literals it reads. A reader collects literals when the trees it returns hold, in the
order of the program, the literals that it has read or that were held before, all but those that it has passed over. What
it holds stands before the place where reading goes on; a reader that fails passes over nothing that was held before.
-/
namespace VisibleText.JavaScript

namespace Tree

@[simp] theorem allStrings_nil : allStrings [] = [] := by rw [allStrings]

@[simp] theorem allStrings_cons (t : Tree) (ts : List Tree) : allStrings (t :: ts) = t.strings ++ allStrings ts := by
  rw [allStrings]

@[simp] theorem allStrings_append (ts us : List Tree) : allStrings (ts ++ us) = allStrings ts ++ allStrings us := by
  induction ts with
  | nil => rw [allStrings_nil]; rfl
  | cons t ts ih => rw [List.cons_append, allStrings_cons, allStrings_cons, ih, List.append_assoc]

theorem strings_node {k : Kind} (hk : k ≠ .string) (s : Span) (cs : List Tree) : (node k s cs).strings = allStrings cs := by
  rw [strings]
  exact hk

def IsLiteral (code : List Char) (t : Tree) : Prop := t.children = [] ∧ ∃ l : Literal, l.IsAt code t.span

theorem IsLiteral.start_lt {code : List Char} {t : Tree} (h : t.IsLiteral code) : t.span.start < t.span.stop := by
  obtain ⟨-, l, hl⟩ := h
  exact hl.start_lt

end Tree

open VisibleText.JavaScript.Tree (strings allStrings)

/-- The program is cut into tokens up to the lexeme, and these are the strings among them, the last one first. Behind a
backtick or the brace that ends a substitution stands template text; a slash can begin a regular expression. -/
inductive Scanned (code : List Char) : List Span → Lexeme → Prop
  | first : Scanned code [] (firstLexeme code)
  | token {strings : List Span} {l : Lexeme} (h : Scanned code strings l) :
      Scanned code (if l.token = .string then l.span :: strings else strings) (lexemeFrom l.next false)
  | template {strings : List Span} {l : Lexeme} {tagged closed : Bool} {fuel : ℕ} {after : Cursor}
      (h : Scanned code strings l) (hmark : l.token = .mark "`" ∨ l.token = .mark "\x7d")
      (htext : templateText? tagged fuel l.next = some (after, closed)) : Scanned code strings (lexemeFrom after false)
  | regex {strings : List Span} {l : Lexeme} {fuel : ℕ} {after : Cursor} (h : Scanned code strings l)
      (hmark : l.token = .mark "/" ∨ l.token = .mark "/=")
      (hend : regexEnd? fuel (l.here.skip 1) false = some after) :
      Scanned code strings (lexemeFrom (after.skipWhile isIdentifierPart) false)

structure State.Fits (code : List Char) (s : State) : Prop where
  lexeme : s.lexeme.IsIn code
  lastStop_le : s.lastStop ≤ s.lexeme.here.offset
  scanned : Scanned code s.strings s.lexeme
  strings_le : ∀ x ∈ s.strings, x.stop ≤ s.lastStop

structure State.Reaches (code : List Char) (s s' : State) : Prop where
  fits : s'.Fits code
  lastStop_le : s.lastStop ≤ s'.lastStop
  strings : ∃ new, s'.strings = new ++ s.strings ∧ ∀ x ∈ new, s.lastStop ≤ x.start
  passed : s.passed ⊆ s'.passed

structure Clear (ts : List Tree) (s : State) : Prop where
  apart : ∀ t ∈ ts, t.span ∉ s.passed
  read : s.passed ⊆ s.strings

/-- String nodes that stand for the string tokens read so far, in order, apart from those that were passed over. -/
structure Held (code : List Char) (ts : List Tree) (s : State) : Prop where
  ordered : ts.Pairwise fun t u => t.span.stop ≤ u.span.start
  isLiteral : ∀ t ∈ ts, t.IsLiteral code
  before : ∀ t ∈ ts, t.span.stop ≤ s.lastStop
  read : ∀ t ∈ ts, t.span ∈ s.strings
  complete : ∀ x ∈ s.strings, x ∈ s.passed ∨ ∃ t ∈ ts, t.span = x
  clear : Clear ts s

/-- From the states with the property, a reader that has `e` in hand reads on, and its result `a` leaves it with `f a`.
If it fails, what it does not have in hand is not lost. -/
def CollectsFrom {α : Type} (P : State → Prop) (e : List Tree) (p : Parser α) (f : α → List Tree) : Prop :=
  ∀ code s, P s → s.Fits code → s.Reaches code (p s).2 ∧
    ∀ held, Held code (held ++ e) s → Clear held (p s).2 ∧
      ∀ a, (p s).1 = some a → Held code (held ++ f a) (p s).2

def Collects {α : Type} (e : List Tree) (p : Parser α) (f : α → List Tree) : Prop := CollectsFrom (fun _ => True) e p f

class Reads {α : Type} (p : Parser α) (f : outParam (α → List Tree)) : Prop where
  collects : Collects [] p f

class Quiet {α : Type} (p : Parser α) : Prop where
  collects : Collects [] p fun _ => []

class Barren (p : Parser Tree) : Prop where
  quiet : Quiet p
  strings_eq : ∀ s t, (p s).1 = some t → t.strings = []

namespace State

variable {code : List Char} {s s' s'' : State}

theorem Fits.reaches (h : s.Fits code) : s.Reaches code s :=
  ⟨h, Nat.le_refl _, ⟨[], rfl, List.forall_mem_nil _⟩, List.Subset.refl _⟩

theorem Reaches.trans (h : s.Reaches code s') (h' : s'.Reaches code s'') : s.Reaches code s'' := by
  obtain ⟨new, hnew, hbehind⟩ := h.strings
  obtain ⟨more, hmore, hbehind'⟩ := h'.strings
  refine ⟨h'.fits, Nat.le_trans h.lastStop_le h'.lastStop_le, ⟨more ++ new, ?_, ?_⟩, List.Subset.trans h.passed h'.passed⟩
  · rw [hmore, hnew, List.append_assoc]
  · rw [List.forall_mem_append]
    exact ⟨fun x hx => Nat.le_trans h.lastStop_le (hbehind' x hx), hbehind⟩

theorem Reaches.passFrom (h : s.Reaches code s') : s.Reaches code (s.passFrom s') :=
  ⟨⟨h.fits.lexeme, h.fits.lastStop_le, h.fits.scanned, h.fits.strings_le⟩, h.lastStop_le, h.strings,
    fun _ hx => List.mem_append_right _ (h.passed hx)⟩

theorem passFrom_passed {new : List Span} (h : s'.strings = new ++ s.strings) :
    (s.passFrom s').passed = new ++ s'.passed := by
  simp only [State.passFrom, h, List.length_append, Nat.add_sub_cancel, List.take_left]

end State

section Rules

variable {α β : Type} {P : State → Prop} {code : List Char} {e e' ts us : List Tree} {s s' : State}
  {p : Parser α} {k : α → Parser β} {f : α → List Tree} {f' : β → List Tree}

theorem Clear.sublist (h : Clear us s) (hsub : ts ⊆ us) : Clear ts s := ⟨fun t ht => h.apart t (hsub ht), h.read⟩

theorem Clear.of_passed (h : Clear ts s) (hpassed : s'.passed = s.passed) (hstrings : s.strings ⊆ s'.strings) :
    Clear ts s' := by
  refine ⟨?_, ?_⟩
  · rw [hpassed]
    exact h.apart
  · rw [hpassed]
    exact List.Subset.trans h.read hstrings

theorem Held.later (h : Held code ts s) (hs : s.Reaches code s') (hclear : Clear ts s')
    (hnew : ∀ x ∈ s'.strings, x ∈ s.strings ∨ x ∈ s'.passed) : Held code ts s' := by
  obtain ⟨new, hstrings, -⟩ := hs.strings
  refine ⟨h.ordered, h.isLiteral, fun t ht => Nat.le_trans (h.before t ht) hs.lastStop_le, fun t ht => ?_,
    fun x hx => ?_, hclear⟩
  · rw [hstrings]
    exact List.mem_append_right _ (h.read t ht)
  · rcases hnew x hx with hx | hx
    · exact (h.complete x hx).imp_left fun hx => hs.passed hx
    · exact .inl hx

theorem Held.front (h : Held code (ts ++ us) s) : Clear ts s := h.clear.sublist (List.subset_append_left _ _)

/-- What was read since then stands behind all that was held. -/
theorem Held.clear_passFrom (h : Held code ts s) (hs : s.Reaches code s') (hclear : Clear ts s') :
    Clear ts (s.passFrom s') := by
  obtain ⟨new, hstrings, hbehind⟩ := hs.strings
  constructor
  · intro t ht hm
    rw [State.passFrom_passed hstrings] at hm
    rcases List.mem_append.mp hm with hm | hm
    · have hle := hbehind _ hm
      have hbefore := h.before t ht
      have hlt := (h.isLiteral t ht).start_lt
      omega
    · exact hclear.apart t ht hm
  · rw [State.passFrom_passed hstrings]
    refine List.append_subset.mpr ⟨?_, hclear.read⟩
    change new ⊆ s'.strings
    rw [hstrings]
    exact List.subset_append_left _ _

theorem Held.passFrom (h : Held code ts s) (hs : s.Reaches code s') (hclear : Clear ts s') :
    Held code ts (s.passFrom s') := by
  refine h.later hs.passFrom (h.clear_passFrom hs hclear) fun x hx => ?_
  obtain ⟨new, hstrings, -⟩ := hs.strings
  have hx : x ∈ s'.strings := hx
  rw [hstrings] at hx
  rw [State.passFrom_passed hstrings]
  exact (List.mem_append.mp hx).symm.imp_right fun hx => List.mem_append_left _ hx

theorem bind_some {a : α} (h : p s = (some a, s')) : (p >>= k) s = k a s' := by
  simp only [Bind.bind, OptionT.bind, OptionT.mk, StateT.bind, h]

theorem bind_none (h : p s = (none, s')) : (p >>= k) s = (none, s') := by
  simp only [Bind.bind, OptionT.bind, OptionT.mk, StateT.bind, h]
  rfl

theorem bind_result {b : β} (h : ((p >>= k) s).1 = some b) : ∃ a, (p s).1 = some a ∧ (k a (p s).2).1 = some b := by
  rcases hrun : p s with ⟨_ | a, s'⟩
  · rw [bind_none hrun] at h
    cases h
  · rw [bind_some hrun] at h
    exact ⟨a, rfl, h⟩

theorem CollectsFrom.frame (hp : CollectsFrom P e' p f) (e : List Tree) :
    CollectsFrom P (e ++ e') p fun a => e ++ f a := by
  intro code s hP hs
  obtain ⟨hreaches, hheld⟩ := hp code s hP hs
  refine ⟨hreaches, fun held h => ?_⟩
  rw [← List.append_assoc] at h
  obtain ⟨hclear, hresult⟩ := hheld (held ++ e) h
  refine ⟨hclear.sublist (List.subset_append_left _ _), fun a ha => ?_⟩
  rw [← List.append_assoc]
  exact hresult a ha

theorem CollectsFrom.bind (hp : CollectsFrom P e p f) (hk : ∀ a, Collects (f a) (k a) f') :
    CollectsFrom P e (p >>= k) f' := by
  intro code s hP hs
  obtain ⟨hreaches, hheld⟩ := hp code s hP hs
  rcases hrun : p s with ⟨_ | a, s'⟩
  · rw [bind_none hrun]
    rw [hrun] at hreaches hheld
    exact ⟨hreaches, fun held he => ⟨(hheld held he).1, nofun⟩⟩
  · rw [bind_some hrun]
    rw [hrun] at hreaches hheld
    obtain ⟨hreaches', hheld'⟩ := hk a code s' trivial hreaches.fits
    exact ⟨hreaches.trans hreaches', fun held he => hheld' held ((hheld held he).2 a rfl)⟩

namespace Collects

theorem anywhere (hp : Collects e p f) : CollectsFrom P e p f := fun code s _ hs => hp code s trivial hs

theorem of_eq (hp : Collects e' p f) (he : e' = e) : Collects e p f := he ▸ hp

theorem bind (hp : Collects e p f) (hk : ∀ a, Collects (f a) (k a) f') : Collects e (p >>= k) f' := CollectsFrom.bind hp hk

theorem bind_last (hp : Collects e' p f) (hk : ∀ a, Collects (e ++ f a) (k a) f') : Collects (e ++ e') (p >>= k) f' :=
  CollectsFrom.bind (hp.frame e) hk

theorem bind_new (hp : Collects [] p f) (hk : ∀ a, Collects (e ++ f a) (k a) f') : Collects e (p >>= k) f' := by
  rw [← List.append_nil e]
  exact bind_last hp hk

theorem read [hp : Reads p f] (hk : ∀ a, Collects (e ++ f a) (k a) f') : Collects e (p >>= k) f' :=
  bind_new hp.collects hk

theorem afresh [hp : Reads p f] : Collects [] p f := hp.collects

theorem skip [hp : Quiet p] (hk : ∀ a, Collects e (k a) f') : Collects e (p >>= k) f' := by
  apply bind_new hp.collects
  simpa only [List.append_nil] using hk

theorem pass {p : Parser Tree} {k : Tree → Parser β} [hp : Barren p]
    (hk : ∀ t, t.strings = [] → Collects e (k t) f') : Collects e (p >>= k) f' := by
  intro code s _ hs
  obtain ⟨hreaches, hheld⟩ := hp.quiet.collects.frame e code s trivial hs
  rw [List.append_nil] at hheld
  rcases hrun : p s with ⟨_ | t, s'⟩
  · rw [bind_none hrun]
    rw [hrun] at hreaches hheld
    exact ⟨hreaches, fun held he => ⟨(hheld held he).1, nofun⟩⟩
  · rw [bind_some hrun]
    have ht := hp.strings_eq s t (by rw [hrun])
    rw [hrun] at hreaches hheld
    obtain ⟨hreaches', hheld'⟩ := hk t ht code s' trivial hreaches.fits
    refine ⟨hreaches.trans hreaches', fun held he => hheld' held ?_⟩
    simpa using (hheld held he).2 t rfl

theorem done {a : α} (h : f a = e) : Collects e (pure a) f := by
  intro code s _ hs
  refine ⟨hs.reaches, fun held he => ⟨he.front, fun b hb => ?_⟩⟩
  obtain rfl : a = b := Option.some.inj hb
  rwa [h]

theorem fail : Collects e (Parser.fail : Parser α) f := fun _ _ _ hs => ⟨hs.reaches, fun _ he => ⟨he.front, nofun⟩⟩

theorem ite {c : Prop} [Decidable c] {q : Parser α} (hp : c → Collects e p f) (hq : ¬c → Collects e q f) :
    Collects e (if c then p else q) f := by
  split
  · exact hp ‹c›
  · exact hq ‹¬c›

theorem node {kind : Kind} {start : ℕ} {cs : List Tree} (hkind : kind ≠ .string) (h : allStrings cs = e) :
    Collects e (Parser.node kind start cs) strings := by
  intro code s _ hs
  refine ⟨hs.reaches, fun held he => ⟨he.front, fun t ht => ?_⟩⟩
  obtain rfl : Tree.node kind ⟨start, s.lastStop⟩ cs = t := Option.some.inj ht
  rwa [Tree.strings_node hkind, h]

theorem whenOne {c : Prop} [Decidable c] {q : Parser Tree} [Reads q strings] {k : List Tree → Parser β}
    (hk : ∀ ts, Collects (e ++ allStrings ts) (k ts) f') :
    Collects e (if c then q >>= fun t => pure [t] >>= k else pure [] >>= k) f' := by
  refine .ite (fun _ => .read fun t => .bind (.done ?_) hk) fun _ => .bind (.done ?_) hk
  all_goals simp

theorem unlessOne {c : Prop} [Decidable c] {q : Parser Tree} [Reads q strings] {k : List Tree → Parser β}
    (hk : ∀ ts, Collects (e ++ allStrings ts) (k ts) f') :
    Collects e (if c then pure [] >>= k else q >>= fun t => pure [t] >>= k) f' := by
  refine .ite (fun _ => .bind (.done ?_) hk) fun _ => .read fun t => .bind (.done ?_) hk
  all_goals simp

end Collects

instance reads_of_barren {p : Parser Tree} [hp : Barren p] : Reads p strings := by
  refine ⟨fun code s _ hs => ?_⟩
  obtain ⟨hreaches, hheld⟩ := hp.quiet.collects code s trivial hs
  refine ⟨hreaches, fun held he => ⟨(hheld held he).1, fun t ht => ?_⟩⟩
  rw [hp.strings_eq s t ht]
  exact (hheld held he).2 t ht

theorem quiet_of_held (h : ∀ (code : List Char) (s : State), s.Fits code →
    s.Reaches code (p s).2 ∧ ∀ held, Held code held s → Held code held (p s).2) : Quiet p := by
  refine ⟨fun code s _ hs => ?_⟩
  obtain ⟨hreaches, hheld⟩ := h code s hs
  refine ⟨hreaches, fun held he => ?_⟩
  have he := hheld (held ++ []) he
  exact ⟨he.front, fun _ _ => he⟩

theorem quiet_of_still (h : ∀ s, (p s).2 = s) : Quiet p := by
  refine quiet_of_held fun code s hs => ?_
  rw [h]
  exact ⟨hs.reaches, fun _ he => he⟩

instance quiet_pure (a : α) : Quiet (pure a : Parser α) := ⟨.done rfl⟩

instance quiet_fail : Quiet (Parser.fail : Parser α) := ⟨.fail⟩

instance quiet_bind [Quiet p] [∀ a, Quiet (k a)] : Quiet (p >>= k) := ⟨.skip fun _ => Quiet.collects⟩

instance quiet_ite {c : Prop} [Decidable c] {q : Parser α} [Quiet p] [Quiet q] : Quiet (if c then p else q) :=
  ⟨.ite (fun _ => Quiet.collects) fun _ => Quiet.collects⟩

theorem quiet_passOver_of (hp : ∀ (code : List Char) (s : State), s.Fits code →
    s.Reaches code (p s).2 ∧ ∀ held, Held code held s → Clear held (p s).2) : Quiet (Parser.passOver p) := by
  refine quiet_of_held fun code s hs => ?_
  obtain ⟨hreaches, hclear⟩ := hp code s hs
  exact ⟨hreaches.passFrom, fun held he => he.passFrom hreaches (hclear held he)⟩

theorem Reads.clear [hp : Reads p f] {code : List Char} {s : State} (hs : s.Fits code) {held : List Tree}
    (he : Held code held s) : Clear held (p s).2 := by
  rw [← List.append_nil held] at he
  exact ((hp.collects code s trivial hs).2 held he).1

instance quiet_passOver [hp : Reads p f] : Quiet (Parser.passOver p) :=
  quiet_passOver_of fun code s hs => ⟨(hp.collects code s trivial hs).1, fun _ he => Reads.clear hs he⟩

instance quiet_forget [hp : Reads p f] : Quiet (Parser.forget p) := by
  refine quiet_of_held fun code s hs => ?_
  have hreaches := (hp.collects code s trivial hs).1
  exact ⟨hreaches.passFrom, fun held he => he.passFrom hreaches (Reads.clear hs he)⟩

instance reads_attempt [hp : Reads p f] : Reads (Parser.attempt p) fun r => r.elim [] f := by
  refine ⟨fun code s _ hs => ?_⟩
  obtain ⟨hreaches, hheld⟩ := hp.collects code s trivial hs
  rcases hrun : p s with ⟨_ | a, s'⟩
  · have hattempt : Parser.attempt p s = (some none, s.passFrom s') := by simp only [Parser.attempt, hrun]
    rw [hrun] at hreaches hheld
    rw [hattempt]
    refine ⟨hreaches.passFrom, fun held he => ?_⟩
    have hclear := (hheld held he).1
    rw [List.append_nil] at he
    have hpassed := he.passFrom hreaches hclear
    refine ⟨hpassed.clear, fun r hr => ?_⟩
    obtain rfl : none = r := Option.some.inj hr
    simpa using hpassed
  · have hattempt : Parser.attempt p s = (some (some a), s') := by simp only [Parser.attempt, hrun]
    rw [hrun] at hreaches hheld
    rw [hattempt]
    refine ⟨hreaches, fun held he => ⟨(hheld held he).1, fun r hr => ?_⟩⟩
    obtain rfl : some a = r := Option.some.inj hr
    exact (hheld held he).2 a rfl

end Rules

namespace Parser

instance quiet_get : Quiet (get : Parser State) := quiet_of_still fun _ => rfl

instance quiet_arrowStart (start : ℕ) : Quiet (modify fun s => { s with arrowStart := start } : Parser PUnit) := by
  refine quiet_of_held fun code s hs => ?_
  have hreaches : s.Reaches code { s with arrowStart := start } := ⟨⟨hs.lexeme, hs.lastStop_le, hs.scanned, hs.strings_le⟩,
    Nat.le_refl _, ⟨[], rfl, List.forall_mem_nil _⟩, List.Subset.refl _⟩
  exact ⟨hreaches, fun held he =>
    he.later hreaches (he.clear.of_passed rfl (List.Subset.refl _)) fun x hx => .inl hx⟩

theorem clear_passLost {code : List Char} {held old new : List Tree} {s : State}
    (h : (allStrings new).Sublist (allStrings old)) (he : Held code (held ++ allStrings old) s) :
    Clear (held ++ allStrings new) (s.passLost old new) := by
  have hsub : held ++ allStrings new ⊆ held ++ allStrings old := (h.append_left held).subset
  constructor
  · intro t ht hm
    rcases List.mem_append.mp hm with hm | hm
    · obtain ⟨hm, hlost⟩ := List.mem_filter.mp hm
      obtain ⟨u, hu, hspan⟩ := List.mem_map.mp hm
      rcases List.mem_append.mp ht with ht | ht
      · have hle := (List.pairwise_append.mp he.ordered).2.2 t ht u hu
        have hlt := (he.isLiteral t (List.mem_append_left _ ht)).start_lt
        rw [hspan] at hle
        omega
      · simp [List.mem_map_of_mem ht] at hlost
    · exact he.clear.apart t (hsub ht) hm
  · refine List.append_subset.mpr ⟨fun x hx => ?_, he.clear.read⟩
    obtain ⟨u, hu, rfl⟩ := List.mem_map.mp (List.mem_filter.mp hx).1
    exact he.read u (List.mem_append_right _ hu)

theorem collects_passLost {old new : List Tree} (h : (allStrings new).Sublist (allStrings old)) :
    Collects (allStrings old) (modify (State.passLost old new) : Parser PUnit) fun _ => allStrings new := by
  intro code s _ hs
  have hreaches : s.Reaches code (s.passLost old new) := ⟨⟨hs.lexeme, hs.lastStop_le, hs.scanned, hs.strings_le⟩,
    Nat.le_refl _, ⟨[], rfl, List.forall_mem_nil _⟩, fun _ hx => List.mem_append_right _ hx⟩
  refine ⟨hreaches, fun held he => ?_⟩
  have hclear := clear_passLost h he
  refine ⟨hclear.sublist (List.subset_append_left _ _), fun _ _ => ?_⟩
  have hsub : (held ++ allStrings new).Sublist (held ++ allStrings old) := h.append_left held
  refine ⟨he.ordered.sublist hsub, fun t ht => he.isLiteral t (hsub.subset ht), fun t ht => he.before t (hsub.subset ht),
    fun t ht => he.read t (hsub.subset ht), fun x hx => ?_, hclear⟩
  rcases he.complete x hx with hx | ⟨t, ht, rfl⟩
  · exact .inl (hreaches.passed hx)
  · rcases List.mem_append.mp ht with ht | ht
    · exact .inr ⟨t, List.mem_append_left _ ht, rfl⟩
    · by_cases hkept : t.span ∈ (allStrings new).map Tree.span
      · obtain ⟨u, hu, hspan⟩ := List.mem_map.mp hkept
        exact .inr ⟨u, List.mem_append_right _ hu, hspan⟩
      · refine .inl (List.mem_append_left _ (List.mem_filter.mpr ⟨List.mem_map_of_mem ht, ?_⟩))
        simpa using hkept

instance quiet_lexeme : Quiet lexeme := by unfold lexeme; infer_instance

instance quiet_token : Quiet token := by unfold token; infer_instance

instance quiet_position : Quiet position := by unfold position; infer_instance

instance quiet_onNewLine : Quiet onNewLine := by unfold onNewLine; infer_instance

instance quiet_peek : Quiet peek := by unfold peek; infer_instance

instance quiet_check (b : Bool) : Quiet (check b) := by unfold check; infer_instance

theorem collects_check {α : Type} {P : State → Prop} {e : List Tree} {b : Bool} {k : Unit → Parser α} {f : α → List Tree}
    (hk : b = true → CollectsFrom P e (k ()) f) : CollectsFrom P e (check b >>= k) f := by
  cases b with
  | true => exact fun code s => hk rfl code s
  | false => exact fun code s _ hs => ⟨hs.reaches, fun _ he => ⟨he.front, nofun⟩⟩

instance quiet_isMark (m : String) : Quiet (isMark m) := by unfold isMark; infer_instance

instance quiet_isWord (w : String) : Quiet (isWord w) := by unfold isWord; infer_instance

instance quiet_isFinish : Quiet isFinish := by unfold isFinish; infer_instance

instance quiet_isMarkOf (ms : List String) : Quiet (isMarkOf ms) := by
  refine ⟨.skip fun t => ?_⟩
  cases t <;> exact Quiet.collects

theorem collects_lexeme {α : Type} {e : List Tree} {k : Lexeme → Parser α} {f : α → List Tree}
    (hk : ∀ l, CollectsFrom (fun s => s.lexeme = l) e (k l) f) : Collects e (lexeme >>= k) f :=
  fun code s _ hs => hk s.lexeme code s rfl hs

theorem collects_resume {e : List Tree} {l : Lexeme} {c : Cursor} (hat : ∀ code, l.IsIn code → c.IsAt code)
    (hle : ∀ code, l.IsIn code → l.here.offset ≤ c.offset)
    (hscanned : ∀ code strings, Scanned code strings l → Scanned code strings (lexemeFrom c false)) :
    CollectsFrom (fun s => s.lexeme = l) e (resume c) fun _ => e := by
  rintro code s rfl hs
  obtain ⟨hlexeme, hstart⟩ := lexemeFrom_isIn (hat code hs.lexeme) false
  have hstop : s.lastStop ≤ c.offset := Nat.le_trans hs.lastStop_le (hle code hs.lexeme)
  have hreaches : s.Reaches code (resume c s).2 :=
    ⟨⟨hlexeme, hstart, hscanned code _ hs.scanned, fun x hx => Nat.le_trans (hs.strings_le x hx) hstop⟩, hstop,
      ⟨[], rfl, List.forall_mem_nil _⟩, List.Subset.refl _⟩
  refine ⟨hreaches, fun held he => ⟨he.front.of_passed rfl (List.Subset.refl _), fun _ _ => ?_⟩⟩
  exact he.later hreaches (he.clear.of_passed rfl (List.Subset.refl _)) fun x hx => .inl hx

theorem advance_eq (s : State) : advance s = (some (), { s with
    lexeme := lexemeFrom s.lexeme.next false, lastStop := s.lexeme.next.offset,
    strings := if s.lexeme.token = .string then s.lexeme.span :: s.strings else s.strings }) := by
  rw [advance, bind_some (rfl : lexeme s = (some s.lexeme, s))]
  split <;> rfl

theorem reaches_advance {code : List Char} {s : State} (hs : s.Fits code) : s.Reaches code (advance s).2 := by
  obtain ⟨hlexeme, hstart⟩ := lexemeFrom_isIn hs.lexeme.next false
  have hstop : s.lastStop ≤ s.lexeme.next.offset := Nat.le_trans hs.lastStop_le hs.lexeme.here_le
  have hstrings : ∀ x ∈ s.strings, x.stop ≤ s.lexeme.next.offset := fun x hx => Nat.le_trans (hs.strings_le x hx) hstop
  rw [advance_eq]
  refine ⟨⟨hlexeme, hstart, hs.scanned.token, ?_⟩, hstop, ?_, List.Subset.refl _⟩
  · dsimp only
    split
    · exact List.forall_mem_cons.mpr ⟨Nat.le_refl _, hstrings⟩
    · exact hstrings
  · dsimp only
    split
    · exact ⟨[s.lexeme.span], rfl, List.forall_mem_singleton.mpr hs.lastStop_le⟩
    · exact ⟨[], rfl, List.forall_mem_nil _⟩

theorem clear_advance {ts : List Tree} {s : State} (h : Clear ts s) : Clear ts (advance s).2 := by
  refine h.of_passed (by rw [advance_eq]) ?_
  rw [advance_eq]
  dsimp only
  split
  · exact List.subset_cons_self _ _
  · exact List.Subset.refl _

instance quiet_passOver_advance : Quiet (passOver advance) :=
  quiet_passOver_of fun _ _ hs => ⟨reaches_advance hs, fun _ he => clear_advance he.clear⟩

instance quiet_eat : Quiet eat := by
  refine ⟨fun code s _ hs => ?_⟩
  by_cases htoken : s.lexeme.token = .string
  · have hrun : eat s = (none, s) := by
      rw [eat, bind_some (rfl : token s = (some s.lexeme.token, s)), htoken]
      rfl
    rw [hrun]
    exact ⟨hs.reaches, fun held he => ⟨he.front, nofun⟩⟩
  · have hrun : eat s = advance s := by
      rw [eat, bind_some (rfl : token s = (some s.lexeme.token, s)), bne_iff_ne.mpr htoken]
      rfl
    have hreaches := reaches_advance hs
    rw [hrun]
    refine ⟨hreaches, fun held he => ⟨clear_advance he.front, fun _ _ => ?_⟩⟩
    refine he.later hreaches (clear_advance he.clear) fun x hx => .inl ?_
    rwa [advance_eq, if_neg htoken] at hx

instance quiet_eatMark (m : String) : Quiet (eatMark m) := by unfold eatMark; infer_instance

instance quiet_eatWord (w : String) : Quiet (eatWord w) := by unfold eatWord; infer_instance

instance quiet_expectMark (m : String) : Quiet (expectMark m) := by unfold expectMark; infer_instance

instance quiet_expectWord (w : String) : Quiet (expectWord w) := by unfold expectWord; infer_instance

instance quiet_atSemicolon : Quiet atSemicolon := by unfold atSemicolon; infer_instance

instance quiet_eatSemicolon : Quiet eatSemicolon := by unfold eatSemicolon; infer_instance

instance quiet_semicolon : Quiet semicolon := by unfold semicolon; infer_instance

theorem barren_leaf {kind : Kind} (hkind : kind ≠ .string) : Barren (leaf kind) := by
  refine ⟨⟨.skip fun _ => .skip fun _ => ?_⟩, fun s t ht => ?_⟩
  · exact (quiet_of_still fun _ => rfl).collects
  · obtain ⟨start, -, ht⟩ := bind_result ht
    obtain ⟨-, -, ht⟩ := bind_result ht
    obtain rfl := Option.some.inj ht
    rw [Tree.strings_node hkind, Tree.allStrings_nil]

instance barren_leaf_other : Barren (leaf .other) := barren_leaf (by decide)

instance barren_leaf_identifier : Barren (leaf .identifier) := barren_leaf (by decide)

instance barren_leaf_propertyName : Barren (leaf .propertyName) := barren_leaf (by decide)

instance reads_literal : Reads literal strings := by
  refine ⟨fun code s _ hs => ?_⟩
  by_cases htoken : s.lexeme.token = .string
  · have hrun : literal s = (some (.node .string s.lexeme.span []), (advance s).2) := by
      rw [literal, bind_some (rfl : token s = (some s.lexeme.token, s)), decide_eq_true htoken,
        bind_some (rfl : check true s = (some (), s)),
        bind_some (rfl : position s = (some s.lexeme.here.offset, s)), bind_some (advance_eq s), advance_eq]
      rfl
    have hreaches := reaches_advance hs
    have hstrings : (advance s).2.strings = s.lexeme.span :: s.strings := by rw [advance_eq, if_pos htoken]
    have hstop : (advance s).2.lastStop = s.lexeme.next.offset := by rw [advance_eq]
    have hpassed : (advance s).2.passed = s.passed := by rw [advance_eq]
    rw [hrun]
    refine ⟨hreaches, fun held he => ⟨clear_advance he.front, fun t ht => ?_⟩⟩
    obtain rfl : .node .string s.lexeme.span [] = t := Option.some.inj ht
    rw [List.append_nil] at he
    have hbefore : ∀ t ∈ held, t.span.stop ≤ s.lexeme.here.offset :=
      fun t ht => Nat.le_trans (he.before t ht) hs.lastStop_le
    rw [Tree.strings, Tree.allStrings_nil]
    refine ⟨?_, ?_, ?_, ?_, ?_, ?_, (clear_advance he.clear).read⟩
    · rw [List.pairwise_append]
      exact ⟨he.ordered, List.pairwise_singleton _ _, fun t ht u hu => List.mem_singleton.mp hu ▸ hbefore t ht⟩
    · rw [List.forall_mem_append, List.forall_mem_singleton]
      exact ⟨he.isLiteral, rfl, hs.lexeme.literal htoken⟩
    · rw [List.forall_mem_append, List.forall_mem_singleton, hstop]
      exact ⟨fun t ht => Nat.le_trans (hbefore t ht) hs.lexeme.here_le, Nat.le_refl _⟩
    · rw [List.forall_mem_append, List.forall_mem_singleton, hstrings]
      exact ⟨fun t ht => List.mem_cons_of_mem _ (he.read t ht), List.mem_cons_self⟩
    · rw [hstrings, List.forall_mem_cons]
      refine ⟨.inr ⟨_, List.mem_append_right _ List.mem_cons_self, rfl⟩, fun x hx => ?_⟩
      refine (he.complete x hx).imp (fun hx => hreaches.passed hx) ?_
      rintro ⟨t, ht, hspan⟩
      exact ⟨t, List.mem_append_left _ ht, hspan⟩
    · rw [List.forall_mem_append, List.forall_mem_singleton, hpassed]
      refine ⟨he.clear.apart, fun hm => ?_⟩
      -- the token stands behind all that was read
      have hle := hs.strings_le _ (he.clear.read hm)
      obtain ⟨l, hl⟩ := hs.lexeme.literal htoken
      have hlt := hl.start_lt
      have hstart := hs.lastStop_le
      exact absurd (Nat.lt_of_lt_of_le hlt hle) (Nat.not_lt.mpr hstart)
  · have hrun : literal s = (none, s) := by
      rw [literal, bind_some (rfl : token s = (some s.lexeme.token, s)), decide_eq_false htoken]
      rfl
    rw [hrun]
    exact ⟨hs.reaches, fun held he => ⟨he.front, nofun⟩⟩

instance barren_identifier : Barren identifier := by
  refine ⟨⟨.skip fun t => ?_⟩, fun s t ht => ?_⟩
  · cases t with
    | word w escaped => exact .skip fun _ => (barren_leaf_identifier).quiet.collects
    | _ => exact .fail
  · obtain ⟨token, -, ht⟩ := bind_result ht
    cases token with
    | word w escaped =>
      obtain ⟨-, -, ht⟩ := bind_result ht
      exact barren_leaf_identifier.strings_eq _ t ht
    | _ => cases ht

section

variable {σ α : Type} {step : σ → Parser (σ ⊕ α)} {inv : σ → List Tree} {f : α → List Tree}

theorem collects_iterate (hstep : ∀ a, Collects (inv a) (step a) (Sum.elim inv f)) (fuel : ℕ) (a : σ) :
    Collects (inv a) (iterate step fuel a) f := by
  induction fuel generalizing a with
  | zero => exact .fail
  | succ fuel ih =>
    refine .bind (hstep a) fun r => ?_
    cases r with
    | inl b => exact ih b
    | inr b => exact .done rfl

theorem collects_repeated (inv : σ → List Tree) {e : List Tree} {a : σ} (ha : inv a = e)
    (hstep : ∀ a, Collects (inv a) (step a) (Sum.elim inv f)) : Collects e (repeated a step) f :=
  .skip fun _ => (collects_iterate hstep _ a).of_eq ha

end

def gathered : List Tree ⊕ List Tree → List Tree := Sum.elim (fun acc => allStrings acc.reverse) allStrings

@[simp] theorem gathered_inl (acc : List Tree) : gathered (.inl acc) = allStrings acc.reverse := rfl

@[simp] theorem gathered_inr (ts : List Tree) : gathered (.inr ts) = allStrings ts := rfl

theorem reads_repeated {step : List Tree → Parser (List Tree ⊕ List Tree)}
    (hstep : ∀ acc, Collects (allStrings acc.reverse) (step acc) gathered) : Reads (repeated [] step) allStrings := by
  refine ⟨collects_repeated (fun acc => allStrings acc.reverse) ?_ hstep⟩
  rw [List.reverse_nil, Tree.allStrings_nil]

instance reads_commaSeparated (close : String) (item : Parser Tree) [Reads item strings] :
    Reads (commaSeparated close item) allStrings := by
  refine reads_repeated fun acc => .skip fun closed => .ite (fun _ => .done (by simp)) fun _ => ?_
  refine .read fun t => .skip fun more => .ite (fun _ => .done (by simp)) fun _ => ?_
  exact .skip fun _ => .done (by simp)

end Parser

class Grammar.KeepsLiterals (g : Grammar) : Prop where
  expression (c : Context) : Reads (g.expression c) strings
  assignment (c : Context) : Reads (g.assignment c) strings
  unary (c : Context) : Reads (g.unary c) strings
  leftHandSide (c : Context) : Reads (g.leftHandSide c) strings
  constructed (c : Context) : Reads (g.constructed c) strings
  binding (c : Context) : Reads (g.binding c) strings
  statement (c : Context) (decl : Bool) : Reads (g.statement c decl) strings

attribute [instance] Grammar.KeepsLiterals.expression Grammar.KeepsLiterals.assignment Grammar.KeepsLiterals.unary
  Grammar.KeepsLiterals.leftHandSide Grammar.KeepsLiterals.constructed Grammar.KeepsLiterals.binding
  Grammar.KeepsLiterals.statement

end VisibleText.JavaScript
