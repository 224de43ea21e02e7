import VisibleText.Proofs.ScriptStatements
import VisibleText.Proofs.SpanSets

/-!
The string literals that are selected as text. A literal is left out for the part it plays in the syntax tree: a name that is
spelled out, a part of an import declaration or of an export from elsewhere, or a whole statement. Main statement:
`literals_by_role`, every other literal is selected, once and in the order of the program.
-/
namespace VisibleText.JavaScript

/-- The tree has the node `u` at the end of the path, which leads through the nodes above it from the root on. -/
inductive Tree.Contains : Tree → List Tree → Tree → Prop
  | here (t : Tree) : Contains t [] t
  | part {parent child u : Tree} {path : List Tree} (hchild : child ∈ parent.children) (h : Contains child path u) :
      Contains parent (parent :: path) u

def Kind.hidesText : Kind → Bool
  | .propertyName | .importDeclaration | .namedExport | .exportAll => true
  | _ => false

structure InTextPlace (path : List Tree) (u : Tree) : Prop where
  outside : ∀ a ∈ path, a.kind.hidesText = false
  notAlone : ∀ a ∈ path.getLast?, a.kind = .expressionStatement → a.children ≠ [u]

def Tree.HasText (t u : Tree) : Prop := ∃ path, t.Contains path u ∧ u.kind = .string ∧ InTextPlace path u

def Tree.body? (t : Tree) : Option Span :=
  if t.span.start + 2 ≤ t.span.stop then some ⟨t.span.start + 1, t.span.stop - 1⟩ else none

namespace Tree

theorem strings_sublist_of_mem {t : Tree} {ts : List Tree} (h : t ∈ ts) : t.strings.Sublist (allStrings ts) := by
  obtain ⟨before, after, rfl⟩ := List.append_of_mem h
  rw [allStrings_append, allStrings_cons]
  exact (List.sublist_append_left _ _).trans (List.sublist_append_right _ _)

theorem mem_strings_of_contains {t u : Tree} {path : List Tree} (h : t.Contains path u) (hu : u.kind = .string) :
    u ∈ t.strings := by
  induction h with
  | here t =>
    obtain ⟨k, s, cs⟩ := t
    obtain rfl : k = .string := hu
    rw [strings]
    exact List.mem_cons_self
  | part hchild _ ih => exact (allStrings_children _).subset ((strings_sublist_of_mem hchild).subset (ih hu))

theorem contains_of_mem_strings {u : Tree} :
    (∀ t : Tree, u ∈ t.strings → ∃ path, t.Contains path u ∧ u.kind = .string) ∧
    ∀ ts : List Tree, u ∈ allStrings ts → ∃ t ∈ ts, ∃ path, t.Contains path u ∧ u.kind = .string := by
  have hpart {k : Kind} {s : Span} {cs : List Tree}
      (h : ∃ t ∈ cs, ∃ path, t.Contains path u ∧ u.kind = .string) :
      ∃ path, (node k s cs).Contains path u ∧ u.kind = .string := by
    obtain ⟨t, ht, path, hpath, hu⟩ := h
    exact ⟨_, .part ht hpath, hu⟩
  apply strings.mutual_induct
  case case1 =>
    intro s cs ih h
    rw [strings, List.mem_cons] at h
    rcases h with rfl | h
    · exact ⟨[], .here _, rfl⟩
    · exact hpart (ih h)
  case case2 =>
    intro k s cs hk ih h
    rw [strings_node hk] at h
    exact hpart (ih h)
  case case3 =>
    intro h
    rw [allStrings_nil] at h
    cases h
  case case4 =>
    intro t ts iht ihts h
    rw [allStrings_cons, List.mem_append] at h
    rcases h with h | h
    · exact ⟨t, List.mem_cons_self, iht h⟩
    · obtain ⟨t', ht', hpath⟩ := ihts h
      exact ⟨t', List.mem_cons_of_mem _ ht', hpath⟩

section

variable {k : Kind} {s : Span} {cs : List Tree} {u : Tree}

theorem hasText_string (hcs : cs = []) : (node .string s cs).HasText u ↔ u = node .string s cs := by
  obtain rfl := hcs
  constructor
  · rintro ⟨path, hpath, -, -⟩
    cases hpath with
    | here => rfl
    | part hchild => cases hchild
  · rintro rfl
    exact ⟨[], .here _, rfl, List.forall_mem_nil _, nofun⟩

theorem not_hasText_of_hidesText (hk : k.hidesText = true) : ¬(node k s cs).HasText u := by
  rintro ⟨path, hpath, hu, hplace⟩
  cases hpath with
  | here =>
    obtain rfl : k = .string := hu
    cases hk
  | part =>
    have hhides : k.hidesText = false := hplace.outside _ List.mem_cons_self
    rw [hk] at hhides
    cases hhides

theorem not_hasText_statement {s' : Span} : ¬(node .expressionStatement s [node .string s' []]).HasText u := by
  rintro ⟨path, hpath, hu, hplace⟩
  cases hpath with
  | here => cases hu
  | part hchild h =>
    obtain rfl := List.mem_singleton.mp hchild
    cases h with
    | here => exact hplace.notAlone _ rfl rfl rfl
    | part hchild => cases hchild

theorem hasText_node (hstring : k ≠ .string) (hhides : k.hidesText = false)
    (halone : ∀ s' cs', k = .expressionStatement → cs ≠ [node .string s' cs']) :
    (node k s cs).HasText u ↔ ∃ child ∈ cs, child.HasText u := by
  constructor
  · rintro ⟨path, hpath, hu, houtside, hnotAlone⟩
    cases hpath with
    | here => exact absurd hu hstring
    | @part _ child _ path hchild h =>
      refine ⟨child, hchild, path, h, hu, fun a ha => houtside a (List.mem_cons_of_mem _ ha), fun a ha => hnotAlone a ?_⟩
      cases path with
      | nil => cases ha
      | cons b path => exact ha
  · rintro ⟨child, hchild, path, h, hu, houtside, hnotAlone⟩
    refine ⟨_, .part hchild h, hu, List.forall_mem_cons.mpr ⟨hhides, houtside⟩, fun a ha => ?_⟩
    cases path with
    | cons b path => exact hnotAlone a ha
    | nil =>
      obtain rfl : node k s cs = a := Option.some.inj ha
      obtain ⟨k', s', cs'⟩ := u
      obtain rfl : k' = .string := hu
      exact halone s' cs'

end

theorem literalBodies_string (s : Span) (cs : List Tree) :
    (node .string s cs).literalBodies = (node .string s cs).body?.toList := by
  rw [literalBodies, body?, apply_ite Option.toList]
  rfl

theorem mem_bodies (b : Span) :
    (∀ t : Tree, (∀ u ∈ t.strings, u.children = []) → (b ∈ t.literalBodies ↔ ∃ u, t.HasText u ∧ u.body? = some b)) ∧
    ∀ ts : List Tree, (∀ u ∈ allStrings ts, u.children = []) →
      (b ∈ allLiteralBodies ts ↔ ∃ t ∈ ts, ∃ u, t.HasText u ∧ u.body? = some b) := by
  have hleaf {s : Span} {cs : List Tree} (h : ∀ u ∈ (node .string s cs).strings, u.children = []) : cs = [] :=
    h (node .string s cs) (by rw [strings]; exact List.mem_cons_self)
  have hnone {t : Tree} (h : ∀ u, ¬t.HasText u) : b ∈ [] ↔ ∃ u, t.HasText u ∧ u.body? = some b := by
    constructor
    · intro hb
      exact absurd hb List.not_mem_nil
    · rintro ⟨u, hu, -⟩
      exact absurd hu (h u)
  -- The clauses of the bodies in their order: a literal, the four kinds that hide text, a literal alone, and all else.
  apply literalBodies.mutual_induct
  case case1 | case2 =>
    intro s cs _ h
    obtain rfl := hleaf h
    simp only [hasText_string, exists_eq_left, literalBodies_string, Option.mem_toList]
  case case3 | case4 | case5 | case6 =>
    intro s cs _
    rw [literalBodies]
    exact hnone fun u => not_hasText_of_hidesText rfl
  case case7 =>
    intro s s' cs h
    rw [strings_node (by decide), allStrings_cons, allStrings_nil, List.append_nil] at h
    obtain rfl := hleaf h
    rw [literalBodies]
    exact hnone fun u => not_hasText_statement
  case case8 =>
    intro k s cs hstring hname himport hexport hall halone ih h
    rw [strings_node hstring] at h
    have hhides : k.hidesText = false := by
      unfold Kind.hidesText
      split
      · exact absurd rfl hname
      · exact absurd rfl himport
      · exact absurd rfl hexport
      · exact absurd rfl hall
      · rfl
    have hbodies : (node k s cs).literalBodies = allLiteralBodies cs := by rw [literalBodies] <;> assumption
    simp only [hbodies, ih h, hasText_node hstring hhides halone]
    constructor
    · rintro ⟨t, ht, u, hu, hb⟩
      exact ⟨u, ⟨t, ht, hu⟩, hb⟩
    · rintro ⟨u, ⟨t, ht, hu⟩, hb⟩
      exact ⟨t, ht, u, hu, hb⟩
  case case9 =>
    intro _
    rw [allLiteralBodies]
    simp only [List.not_mem_nil, false_and, exists_false]
  case case10 =>
    intro t ts iht ihts h
    rw [allStrings_cons, List.forall_mem_append] at h
    rw [allLiteralBodies, List.mem_append, iht h.1, ihts h.2, List.exists_mem_cons_iff]

theorem bodies_sublist : (∀ t : Tree, t.literalBodies.Sublist (t.strings.filterMap body?)) ∧
    ∀ ts : List Tree, (allLiteralBodies ts).Sublist ((allStrings ts).filterMap body?) := by
  apply literalBodies.mutual_induct
  case case1 | case2 =>
    intro s cs _
    rw [literalBodies_string, strings, List.filterMap_cons]
    cases (node .string s cs).body? with
    | none => exact List.nil_sublist _
    | some b => exact (List.nil_sublist _).cons_cons b
  case case3 | case4 | case5 | case6 =>
    intro s cs
    rw [literalBodies]
    exact List.nil_sublist _
  case case7 =>
    intro s s' cs
    rw [literalBodies]
    exact List.nil_sublist _
  case case8 =>
    intro k s cs hstring _ _ _ _ _ ih
    rw [strings_node hstring, literalBodies]
    · exact ih
    all_goals assumption
  case case9 => rw [allLiteralBodies]; exact List.nil_sublist _
  case case10 =>
    intro t ts iht ihts
    rw [allLiteralBodies, allStrings_cons, List.filterMap_append]
    exact iht.append ihts

end Tree

/-- The bytes that are given for a literal that starts here: what is inside a closed one; of one that is not closed, all but the
last byte, as if the quote stood there, and nothing if it is a quote alone. -/
def Literal.body (l : Literal) (start : ℕ) : Option Span :=
  if l.closed then some ⟨start + 1, start + 1 + byteLength l.inner⟩
  else if l.inner.isEmpty then none
  else some ⟨start + 1, start + byteLength l.inner⟩

theorem Tree.bounds_of_body? {t : Tree} {b : Span} (h : t.body? = some b) :
    b.start = t.span.start + 1 ∧ b.stop + 1 = t.span.stop ∧ b.start ≤ b.stop := by
  unfold Tree.body? at h
  split_ifs at h
  obtain rfl := Option.some.inj h
  dsimp only
  omega

theorem Literal.byteLength_text {l : Literal} (hquote : l.quote = '"' ∨ l.quote = '\'') :
    byteLength l.text = 1 + byteLength l.inner + if l.closed then 1 else 0 := by
  have hsize : l.quote.utf8Size = 1 := by rcases hquote with h | h <;> rw [h] <;> rfl
  rw [Literal.text, byteLength_append, byteLength_cons, hsize]
  split
  · rw [byteLength_cons, hsize, byteLength_nil]
  · rfl

theorem Literal.IsAt.body?_eq {l : Literal} {code : List Char} {t : Tree} (h : l.IsAt code t.span) :
    t.body? = l.body t.span.start := by
  obtain ⟨_, _, _, _, hstop, hl⟩ := h
  rw [Literal.byteLength_text hl.quote] at hstop
  have hinner : l.inner.isEmpty = true ↔ byteLength l.inner = 0 := by rw [List.isEmpty_iff, byteLength_eq_zero]
  unfold Tree.body? Literal.body
  split_ifs at hstop ⊢ <;> grind

theorem bodies_ordered {t : Tree} (h : t.strings.Pairwise fun u v => u.span.stop ≤ v.span.start) :
    t.literalBodies.Pairwise fun a b => a.stop < b.start ∧ a.start ≤ b.start := by
  refine List.Pairwise.sublist (Tree.bodies_sublist.1 t) (h.filterMap _ fun u v huv a ha b hb => ?_)
  have hu := Tree.bounds_of_body? ha
  have hv := Tree.bounds_of_body? hb
  omega

theorem byteLength_unmarked_le (code : List Char) : byteLength (unmarked code) ≤ byteLength code := by
  unfold unmarked
  split
  · exact Nat.le_add_left _ _
  · exact Nat.le_refl _

theorem literals_eq {t : Tree} (h : t.strings.Pairwise fun u v => u.span.stop ≤ v.span.start) :
    t.literals = t.literalBodies :=
  List.mergeSort_of_pairwise ((bodies_ordered h).imp fun h => decide_eq_true h.2)

theorem program?_apart {code : List Char} {t : Tree} (h : program? code = some t) :
    t.literals.Pairwise Span.Disjoint ∧ ∀ s ∈ t.literals, s.stop ≤ byteLength code := by
  obtain ⟨p, hp, rfl⟩ := Option.map_eq_some_iff.mp h
  obtain ⟨s, hfits, -, -, -, hheld⟩ := read?_held hp
  rw [literals_eq hheld.ordered]
  constructor
  · refine (bodies_ordered hheld.ordered).imp ?_
    rintro a b ⟨hlt, -⟩ n ⟨ha, hb⟩
    rw [Span.contains_iff] at ha hb
    omega
  · intro b hb
    obtain ⟨u, hu, hbody⟩ := List.mem_filterMap.mp ((Tree.bodies_sublist.1 p.tree).subset hb)
    obtain ⟨-, l, before, after, hcode, hstart, hstop, -⟩ := hheld.isLiteral u hu
    have hbounds := Tree.bounds_of_body? hbody
    have hlength := congrArg byteLength hcode
    have hunmarked := byteLength_unmarked_le code
    simp only [byteLength_append] at hlength
    omega

theorem literals_by_role {code : List Char} {t : Tree} (h : parse? (unmarked code) = some t) :
    ∃ spans, literals? code = some spans ∧ spans.Pairwise (fun a b => a.stop < b.start) ∧
      (∀ path u, t.Contains path u → u.kind = .string → ∃ l : Literal, l.IsAt (unmarked code) u.span) ∧
      (∀ span, span ∈ spans ↔ ∃ path u, ∃ l : Literal, t.Contains path u ∧ u.kind = .string ∧ InTextPlace path u ∧
        l.IsAt (unmarked code) u.span ∧ l.body u.span.start = some span) ∧
      ∃ p last, read? (unmarked code) = some p ∧ p.tree = t ∧
        Scanned (unmarked code) p.strings.reverse last ∧ last.token = .finish ∧
        (∀ path u, t.Contains path u → u.kind = .string → u.span ∉ p.passed) ∧
        ∀ span, span ∈ p.strings ↔
          span ∈ p.passed ∨ ∃ path u, t.Contains path u ∧ u.kind = .string ∧ u.span = span := by
  obtain ⟨p, hp, rfl⟩ := Option.map_eq_some_iff.mp h
  obtain ⟨s, hfits, hfinish, hstrings, hpassed, hheld⟩ := read?_held hp
  refine ⟨p.tree.literalBodies, ?_, (bodies_ordered hheld.ordered).imp And.left, ?_, fun span => ?_, p, s.lexeme, hp, rfl,
    ?_, hfinish, ?_, ?_⟩
  · rw [literals?, program?, h, Option.map_some, literals_eq hheld.ordered]
  · exact fun path u hpath hu => (hheld.isLiteral u (Tree.mem_strings_of_contains hpath hu)).2
  · rw [(Tree.mem_bodies span).1 p.tree fun u hu => (hheld.isLiteral u hu).1]
    constructor
    · rintro ⟨u, ⟨path, hpath, hu, hplace⟩, hbody⟩
      obtain ⟨-, l, hl⟩ := hheld.isLiteral u (Tree.mem_strings_of_contains hpath hu)
      exact ⟨path, u, l, hpath, hu, hplace, hl, hl.body?_eq ▸ hbody⟩
    · rintro ⟨path, u, l, hpath, hu, hplace, hl, hbody⟩
      exact ⟨u, ⟨path, hpath, hu, hplace⟩, hl.body?_eq.trans hbody⟩
  · rw [hstrings, List.reverse_reverse]
    exact hfits.scanned
  · intro path u hpath hu
    rw [hpassed]
    exact hheld.clear.apart u (Tree.mem_strings_of_contains hpath hu)
  · intro span
    rw [hstrings, List.mem_reverse, hpassed]
    constructor
    · intro hspan
      refine (hheld.complete span hspan).imp_right ?_
      rintro ⟨u, hu, rfl⟩
      obtain ⟨path, hpath, hkind⟩ := Tree.contains_of_mem_strings.1 p.tree hu
      exact ⟨path, u, hpath, hkind, rfl⟩
    · rintro (hspan | ⟨path, u, hpath, hu, rfl⟩)
      · exact hheld.clear.read hspan
      · exact hheld.read u (Tree.mem_strings_of_contains hpath hu)

def unclosedScript : List Char :=
  "'a'; x = \x7b'k': 'é', ['y']: `$\x7b's'\x7d`, m(p = 'd') \x7b f('b') \x7d\x7d; x = 'cd".toList

theorem literals_by_role_unclosed : ∃ t, parse? (unmarked unclosedScript) = some t ∧
    t.literalBodies = [⟨16, 18⟩, ⟨23, 24⟩, ⟨32, 33⟩, ⟨45, 46⟩, ⟨54, 55⟩, ⟨67, 68⟩] ∧
    ∃ spans, literals? unclosedScript = some spans ∧ spans.Pairwise (fun a b => a.stop < b.start) ∧
      (∀ span, span ∈ spans ↔ ∃ path u, ∃ l : Literal, t.Contains path u ∧ u.kind = .string ∧ InTextPlace path u ∧
        l.IsAt (unmarked unclosedScript) u.span ∧ l.body u.span.start = some span) ∧
      ∃ p last, read? (unmarked unclosedScript) = some p ∧ p.passed = [] ∧
        Scanned (unmarked unclosedScript) p.strings.reverse last ∧ last.token = .finish ∧
        ∀ span, span ∈ p.strings ↔ ∃ path u, t.Contains path u ∧ u.kind = .string ∧ u.span = span := by
  have hbodies : (parse? (unmarked unclosedScript)).map Tree.literalBodies =
      some [⟨16, 18⟩, ⟨23, 24⟩, ⟨32, 33⟩, ⟨45, 46⟩, ⟨54, 55⟩, ⟨67, 68⟩] := by decide +kernel
  have hpassed : (read? (unmarked unclosedScript)).map Outcome.passed = some [] := by decide +kernel
  obtain ⟨t, ht, hbodies⟩ := Option.map_eq_some_iff.mp hbodies
  obtain ⟨spans, hspans, hordered, -, hmem, p, last, hp, -, hscanned, hfinish, -, hcomplete⟩ := literals_by_role ht
  rw [hp, Option.map_some, Option.some.injEq] at hpassed
  refine ⟨t, ht, hbodies, spans, hspans, hordered, hmem, p, last, hp, hpassed, hscanned, hfinish, fun span => ?_⟩
  rw [hcomplete span, hpassed]
  exact or_iff_right List.not_mem_nil

end VisibleText.JavaScript
