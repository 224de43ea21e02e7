import Mathlib.Data.List.Forall2
import VisibleText.Proofs.HitOrder
import VisibleText.Proofs.MarkupTree
import VisibleText.Proofs.Regions
import VisibleText.Template

/-!
Hits of templates. Every hit of the markup stands in the content and outside of template code, and as
long as the literals of scripts do not overlap, the hits come in order: lines of a run of text,
literals of a script and nodes of the tree each do, one inside the other.
-/
namespace VisibleText

section

variable {α β ε : Type}

theorem bind_eq_ok {x : Except ε α} {f : α → Except ε β} {b : β} :
    (x >>= f) = .ok b ↔ ∃ a, x = .ok a ∧ f a = .ok b := by
  cases x with
  | error e => exact ⟨fun h => (by cases h), fun ⟨_, h, _⟩ => (by cases h)⟩
  | ok a => exact ⟨fun h => ⟨a, rfl, h⟩, fun ⟨_, h, hb⟩ => Except.ok.inj h ▸ hb⟩

theorem bind_pure_eq_ok {x : Except ε α} {g : α → β} {b : β} :
    (x >>= fun a => pure (g a)) = .ok b ↔ ∃ a, x = .ok a ∧ b = g a := by
  rw [bind_eq_ok]
  exact exists_congr fun a => and_congr_right fun _ => ⟨fun h => (Except.ok.inj h).symm, fun h => h ▸ rfl⟩

theorem mapM_eq_ok {f : α → Except ε β} {xs : List α} {ys : List β} :
    xs.mapM f = .ok ys ↔ List.Forall₂ (fun x y => f x = .ok y) xs ys := by
  induction xs generalizing ys with
  | nil =>
    rw [List.mapM_nil, List.forall₂_nil_left_iff]
    exact ⟨fun h => (Except.ok.inj h).symm, fun h => h ▸ rfl⟩
  | cons x xs ih =>
    rw [List.mapM_cons, List.forall₂_cons_left_iff]
    constructor
    · intro h
      obtain ⟨y, hy, h⟩ := bind_eq_ok.mp h
      obtain ⟨rest, hrest, h⟩ := bind_eq_ok.mp h
      exact ⟨y, rest, hy, ih.mp hrest, (Except.ok.inj h).symm⟩
    · rintro ⟨y, rest, hy, hrest, rfl⟩
      rw [hy, ih.mpr hrest]
      rfl

theorem forall₂_graph_iff {p : α → Prop} {g : α → β} {xs : List α} {ys : List β} :
    List.Forall₂ (fun x y => p x ∧ y = g x) xs ys ↔ (∀ x ∈ xs, p x) ∧ ys = xs.map g := by
  rw [List.forall₂_and_left, eq_comm (a := ys), ← List.forall₂_eq_eq_eq, List.forall₂_map_left_iff]
  simp only [eq_comm]

theorem mapM_isOk {f : α → Except ε β} {xs : List α} :
    (∃ ys, xs.mapM f = .ok ys) ↔ ∀ x ∈ xs, ∃ y, f x = .ok y := by
  simp only [mapM_eq_ok]
  induction xs with
  | nil => simp
  | cons x xs ih => simp [List.forall₂_cons_left_iff, ← ih]

end

theorem cut_eq_ok {content text : List Char} {s : Span} :
    cut content s = .ok text ↔ Cuts content s ∧ text = sliceBytes content s.start s.stop := by
  constructor
  · intro h
    rw [cut] at h
    split at h
    · next found hfound =>
      obtain rfl := Except.ok.inj h
      have hcuts := cuts_of_slice? hfound
      exact ⟨hcuts, Option.some.inj (hfound.symm.trans hcuts.slice?_eq)⟩
    · cases h
  · rintro ⟨hcuts, rfl⟩
    rw [cut, hcuts.slice?_eq]

namespace Template

theorem lineSpansFrom_bounds (start stop : ℕ) (cs : List Char) (h : start ≤ stop) :
    ∀ s ∈ lineSpansFrom start stop cs, start ≤ s.start ∧ s.start ≤ s.stop ∧ s.stop ≤ stop + byteLength cs := by
  induction cs generalizing start stop with
  | nil => simpa [lineSpansFrom] using h
  | cons c cs ih =>
    have hpos := c.utf8Size_pos
    simp only [lineSpansFrom]
    split_ifs with hc
    · subst hc
      refine List.forall_mem_cons.mpr ⟨by simp only; omega, fun s hs => ?_⟩
      have := ih (stop + 1) (stop + 1) (Nat.le_refl _) s hs
      have hone : '\n'.utf8Size = 1 := by decide
      simp only [byteLength_cons]
      omega
    · intro s hs
      have := ih start (stop + c.utf8Size) (by omega) s hs
      simp only [byteLength_cons]
      omega

theorem lineSpansFrom_pairwise (start stop : ℕ) (cs : List Char) (h : start ≤ stop) :
    (lineSpansFrom start stop cs).Pairwise fun a b => a.stop ≤ b.start := by
  induction cs generalizing start stop with
  | nil => simp [lineSpansFrom]
  | cons c cs ih =>
    simp only [lineSpansFrom]
    split_ifs with hc
    · refine List.Pairwise.cons (fun s hs => ?_) (ih _ _ (Nat.le_refl _))
      have := lineSpansFrom_bounds _ _ cs (Nat.le_refl _) s hs
      simp only
      omega
    · exact ih _ _ (by omega)

theorem lineSpansFrom_cuts (before line cs after : List Char) :
    ∀ s ∈ lineSpansFrom (byteLength before) (byteLength before + byteLength line) cs,
      Cuts (before ++ (line ++ cs) ++ after) s := by
  induction cs generalizing before line with
  | nil =>
    intro s hs
    rw [lineSpansFrom, List.mem_singleton] at hs
    subst hs
    exact StandsAt.cuts ⟨before, after, by simp, rfl⟩
  | cons c cs ih =>
    simp only [lineSpansFrom]
    split_ifs with hc
    · refine List.forall_mem_cons.mpr ⟨StandsAt.cuts ⟨before, c :: cs ++ after, by simp, rfl⟩, ?_⟩
      have hrest := ih (before ++ line ++ [c]) []
      have hone : c.utf8Size = 1 := by
        rw [hc]
        decide
      simpa [hone, Nat.add_assoc] using hrest
    · have hrest := ih before (line ++ [c])
      simpa [Nat.add_assoc] using hrest

def LiteralsApart (script? : List Char → Option JavaScript.Tree) (code : List Char) : Prop :=
  ∀ tree ∈ script? code, tree.literals.Pairwise Span.Disjoint ∧ ∀ s ∈ tree.literals, s.stop ≤ byteLength code

structure Sound (script? : List Char → Option JavaScript.Tree) (content : List Char) (n : Markup.Node) : Prop where
  nests : n.Nests
  literals : n.kind = .scriptElement → ∀ raw ∈ n.children, raw.kind = .rawText →
    LiteralsApart script? (sliceBytes content raw.span.start raw.span.stop)

/-- A node that can be cut out of the content, whose children do not run backwards, and, if it is a script,
whose literals can be cut out of it. -/
structure Cuttable (script? : List Char → Option JavaScript.Tree) (content : List Char) (n : Markup.Node) :
    Prop where
  span : Cuts content n.span
  siblings : n.children.Pairwise fun a b => a.span.start ≤ b.span.stop
  literals : n.kind = .scriptElement → ∀ raw ∈ n.children, raw.kind = .rawText →
    ∀ tree ∈ script? (sliceBytes content raw.span.start raw.span.stop),
      ∀ s ∈ tree.literals, Cuts (sliceBytes content raw.span.start raw.span.stop) s

namespace Source

variable (t : Source)

def hit? (s : Span) : Option Hit := (Hit.at? t.content s).filter fun hit => !t.excluded.overlaps hit.span

theorem candidate?_eq_ok {s : Span} {found : Option Hit} :
    t.candidate? s = .ok found ↔ Cuts t.content s ∧ found = t.hit? s := by
  rw [candidate?, bind_pure_eq_ok]
  constructor
  · rintro ⟨raw, hraw, rfl⟩
    obtain ⟨hcuts, rfl⟩ := cut_eq_ok.mp hraw
    exact ⟨hcuts, rfl⟩
  · rintro ⟨hcuts, rfl⟩
    exact ⟨_, cut_eq_ok.mpr ⟨hcuts, rfl⟩, rfl⟩

theorem hitsAt_eq_ok {spans : List Span} {hits : List Hit} :
    t.hitsAt spans = .ok hits ↔ (∀ s ∈ spans, Cuts t.content s) ∧ hits = spans.filterMap t.hit? := by
  have hmap : (spans.map t.hit?).filterMap id = spans.filterMap t.hit? := by
    rw [List.filterMap_map]
    rfl
  simp only [hitsAt, bind_pure_eq_ok, mapM_eq_ok, candidate?_eq_ok, forall₂_graph_iff]
  constructor
  · rintro ⟨found, ⟨hcuts, rfl⟩, rfl⟩
    exact ⟨hcuts, hmap⟩
  · rintro ⟨hcuts, rfl⟩
    exact ⟨_, ⟨hcuts, rfl⟩, hmap.symm⟩

theorem hit?_spec {s : Span} {h : Hit} (hcuts : Cuts t.content s) (hh : t.hit? s = some h) :
    h.Genuine t.content ∧ (s.start ≤ h.offset ∧ h.stop ≤ s.stop) ∧ t.excluded.overlaps h.span = false := by
  obtain ⟨hat, hover⟩ := Option.filter_eq_some_iff.mp hh
  exact ⟨Hit.at?_genuine hcuts.ordered hcuts.start hcuts.stop hat, Hit.at?_bounds hcuts.ordered hat,
    by simpa using hover⟩

theorem span_lt_of_hit? {s : Span} {h : Hit} (hcuts : Cuts t.content s) (hh : t.hit? s = some h) :
    s.start < s.stop := by
  obtain ⟨hg, hw, -⟩ := t.hit?_spec hcuts hh
  have := hg.offset_lt_stop
  omega

theorem runHits_eq_ok {run : Span} {hits : List Hit} :
    t.runHits run = .ok hits ↔ Cuts t.content run ∧ hits =
      (lineSpansFrom run.start run.start (sliceBytes t.content run.start run.stop)).filterMap t.hit? := by
  rw [runHits, bind_eq_ok]
  constructor
  · rintro ⟨text, htext, h⟩
    obtain ⟨hcuts, rfl⟩ := cut_eq_ok.mp htext
    exact ⟨hcuts, (t.hitsAt_eq_ok.mp h).2⟩
  · rintro ⟨hcuts, rfl⟩
    refine ⟨_, cut_eq_ok.mpr ⟨hcuts, rfl⟩, t.hitsAt_eq_ok.mpr ⟨?_, rfl⟩⟩
    obtain ⟨⟨before, after, hcontent, hbefore⟩, -⟩ := hcuts.sliceBytes_standsAt
    have hlines := lineSpansFrom_cuts before [] (sliceBytes t.content run.start run.stop) after
    rwa [byteLength_nil, Nat.add_zero, hbefore, List.nil_append, ← hcontent] at hlines

theorem runHits_ordered {run : Span} {hits : List Hit} (h : t.runHits run = .ok hits) :
    Ordered Hit.span run.start run.stop hits := by
  obtain ⟨text, htext, hhits⟩ := bind_eq_ok.mp h
  obtain ⟨hcuts, rfl⟩ := cut_eq_ok.mp htext
  obtain ⟨hlines, rfl⟩ := t.hitsAt_eq_ok.mp hhits
  have hstop := hcuts.sliceBytes_standsAt.2
  refine Ordered.filterMap id (fun s hs h hh => (t.hit?_spec (hlines s hs) hh).2.1) (fun s hs => ?_) ?_
  · have := lineSpansFrom_bounds _ _ _ (Nat.le_refl _) s hs
    simp only [id]
    omega
  · exact (lineSpansFrom_pairwise _ _ _ (Nat.le_refl _)).imp fun hle _ _ => hle

theorem bodyHits_ordered {bodies : List Span} {start len : ℕ} {hits : List Hit}
    (h : t.hitsAt (bodies.map (Span.shift start)) = .ok hits) (hstop : ∀ s ∈ bodies, s.stop ≤ len)
    (hpair : bodies.Pairwise fun a b => b.start < b.stop → a.stop ≤ b.start) :
    Ordered Hit.span start (start + len) hits := by
  obtain ⟨hcuts, rfl⟩ := t.hitsAt_eq_ok.mp h
  rw [List.forall_mem_map] at hcuts
  rw [List.filterMap_map]
  refine Ordered.filterMap (Span.shift start) (fun s hs h hh => (t.hit?_spec (hcuts s hs) hh).2.1)
    (fun s hs => ?_) (hpair.imp_of_mem ?_)
  · have := hstop s hs
    simp only [Span.shift]
    omega
  · intro a b _ hb hab h hh
    have hlt := t.span_lt_of_hit? (hcuts b hb) hh
    simp only [Span.shift] at hlt ⊢
    have := hab (by omega)
    omega

theorem scriptBodies_apart {code : List Char} (hapart : LiteralsApart t.script? code) :
    (∀ s ∈ t.scriptBodies code, s.stop ≤ byteLength code) ∧
      (t.scriptBodies code).Pairwise fun a b => b.start < b.stop → a.stop ≤ b.start := by
  rw [scriptBodies]
  split
  · next tree htree =>
    obtain ⟨hdisjoint, hstop⟩ := hapart tree htree
    exact ⟨hstop, ((mergeSort_sorted Span.start tree.literalBodies).and hdisjoint).imp
      fun h hlt => h.2.stop_le h.1 hlt⟩
  · constructor
    · intro s hs
      obtain ⟨l, hl, rfl⟩ := List.mem_map.mp hs
      have := Code.literals_bounds hl
      dsimp only at this
      omega
    · rw [List.pairwise_map]
      refine (Code.literals_pairwise .js (utf8 code) ⟨0, byteLength code⟩).imp_of_mem ?_
      intro a b ha hb hle _
      have := Code.literals_bounds ha
      have := Code.literals_bounds hb
      omega

theorem scriptHits_ordered {children : List Markup.Node} {lo hi : ℕ} {hits : List Hit}
    (h : t.scriptHits children = .ok hits)
    (hin : ∀ n ∈ children, lo ≤ n.span.start ∧ n.span.stop ≤ hi)
    (hapart : ∀ n ∈ children, n.kind = .rawText →
      LiteralsApart t.script? (sliceBytes t.content n.span.start n.span.stop)) :
    Ordered Hit.span lo hi hits := by
  rw [scriptHits] at h
  split at h
  · exact Except.ok.inj h ▸ .nil _ lo hi
  · next n hfind =>
    have hn := List.mem_of_find?_eq_some hfind
    have hkind : n.kind = .rawText := by simpa using List.find?_some hfind
    obtain ⟨hlo, hhi⟩ := hin n hn
    obtain ⟨code, hcode, hhits⟩ := bind_eq_ok.mp h
    obtain ⟨hcuts, rfl⟩ := cut_eq_ok.mp hcode
    obtain ⟨hstop, hpair⟩ := t.scriptBodies_apart (hapart n hn hkind)
    have hlen := hcuts.sliceBytes_standsAt.2
    exact (t.bodyHits_ordered hhits hstop hpair).mono hlo (by omega)

theorem valueSpan?_mem {children : List Markup.Node} {s : Span} (h : valueSpan? children = some s) :
    ∃ n ∈ children, s = n.span ∨ ∃ m ∈ n.children, s = m.span := by
  -- the fold keeps a value already found, so the statement is about what it starts with as well
  suffices key : ∀ found : Option Span, List.foldl _ found children = some s → found = some s ∨
      ∃ n ∈ children, s = n.span ∨ ∃ m ∈ n.children, s = m.span from (key none h).resolve_left (by simp)
  clear h
  induction children with
  | nil => exact fun found h => .inl h
  | cons n ns ih =>
    intro found h
    rw [List.foldl_cons] at h
    rcases ih _ h with hfound | ⟨m, hm, hs⟩
    · split at hfound
      · exact .inr ⟨n, List.mem_cons_self, .inl (Option.some.inj hfound).symm⟩
      · obtain ⟨m, hm, hspan⟩ := Option.map_eq_some_iff.mp hfound
        exact .inr ⟨n, List.mem_cons_self, .inr ⟨m, List.mem_of_find?_eq_some hm, hspan.symm⟩⟩
      · exact .inl hfound
    · exact .inr ⟨m, List.mem_cons_of_mem n hm, hs⟩

theorem attributeHits_cases {children : List Markup.Node} {hits : List Hit}
    (h : t.attributeHits children = .ok hits) :
    hits = [] ∨ ∃ s, valueSpan? children = some s ∧ t.hitsAt [s] = .ok hits := by
  obtain ⟨names, -, h⟩ := bind_eq_ok.mp h
  dsimp only at h
  split at h
  · next s hs =>
    split_ifs at h
    · exact .inr ⟨s, hs, h⟩
    · exact .inl (Except.ok.inj h).symm
  · exact .inl (Except.ok.inj h).symm

theorem attributeHits_ordered {n : Markup.Node} {hits : List Hit} (h : t.attributeHits n.children = .ok hits)
    (hnests : ∀ m ∈ n.nodes, m.Nests) : Ordered Hit.span n.span.start n.span.stop hits := by
  rcases t.attributeHits_cases h with rfl | ⟨s, hs, h⟩
  · exact .nil _ _ _
  · have hin : n.span.start ≤ s.start ∧ s.stop ≤ n.span.stop := by
      obtain ⟨c, hc, rfl | ⟨m, hm, rfl⟩⟩ := valueSpan?_mem hs
      · exact (hnests n n.self_mem_nodes).children.within c hc
      · have := (hnests n n.self_mem_nodes).children.within c hc
        have := (hnests c (Markup.Node.mem_nodes_of_child hc c.self_mem_nodes)).children.within m hm
        omega
    obtain ⟨hcuts, rfl⟩ := t.hitsAt_eq_ok.mp h
    refine Ordered.filterMap id (fun s hs h hh => (t.hit?_spec (hcuts s hs) hh).2.1) ?_ (by simp)
    simpa using hin

theorem pendingHits_ordered {lo hi : ℕ} {run : Option Span} {hits : List Hit} (h : t.pendingHits run = .ok hits)
    (hrun : ∀ r ∈ run, lo ≤ r.start ∧ r.stop ≤ hi) : Ordered Hit.span lo hi hits := by
  cases run with
  | none => exact Except.ok.inj h ▸ .nil _ _ _
  | some r =>
    obtain ⟨hlo, hhi⟩ := hrun r rfl
    exact (t.runHits_ordered h).mono hlo hhi

theorem childHits_node_eq_ok {run : Option Span} {n : Markup.Node} {ns : List Markup.Node} {hits : List Hit}
    (h : (do
      let before ← t.pendingHits run
      let here ← t.nodeHits n
      let behind ← t.childHits none ns
      return before ++ here ++ behind) = Except.ok hits) :
    ∃ before here behind, t.pendingHits run = .ok before ∧ t.nodeHits n = .ok here ∧
      t.childHits none ns = .ok behind ∧ hits = before ++ here ++ behind := by
  obtain ⟨before, hbefore, h⟩ := bind_eq_ok.mp h
  obtain ⟨here, hhere, h⟩ := bind_eq_ok.mp h
  obtain ⟨behind, hbehind, h⟩ := bind_eq_ok.mp h
  exact ⟨before, here, behind, hbefore, hhere, hbehind, (Except.ok.inj h).symm⟩

theorem nodeHits_ordered (n : Markup.Node) : (∀ m ∈ n.nodes, Sound t.script? t.content m) →
    ∀ hits, t.nodeHits n = .ok hits → Ordered Hit.span n.span.start n.span.stop hits := by
  -- of siblings: a pending run ends at `mid`, behind which the siblings stand
  refine nodeHits.induct_unfolding t
    (fun n found => (∀ m ∈ n.nodes, Sound t.script? t.content m) →
      ∀ hits, found = .ok hits → Ordered Hit.span n.span.start n.span.stop hits)
    (fun run ns found => (∀ n ∈ ns, ∀ m ∈ n.nodes, Sound t.script? t.content m) →
      ∀ lo mid hi, lo ≤ mid → mid ≤ hi → (∀ r ∈ run, lo ≤ r.start ∧ r.stop ≤ mid) →
      Ordered Markup.Node.span mid hi ns → ∀ hits, found = .ok hits → Ordered Hit.span lo hi hits)
    ?comment ?style ?script ?attr ?parent ?done ?text ?node n
  case comment => exact fun _ _ _ hits h => Except.ok.inj h ▸ .nil _ _ _
  case style => exact fun _ _ _ hits h => Except.ok.inj h ▸ .nil _ _ _
  case script =>
    intro span children hsound hits h
    obtain ⟨hnests, hlit⟩ := hsound _ (Markup.Node.self_mem_nodes _)
    exact t.scriptHits_ordered h hnests.children.within (hlit rfl)
  case attr =>
    intro span children hsound hits h
    exact t.attributeHits_ordered (n := .mk .attr span children) h fun m hm => (hsound m hm).nests
  case parent =>
    intro kind span children _ _ _ _ ih hsound
    have hnests := (hsound _ (Markup.Node.self_mem_nodes _)).nests
    exact ih (fun n hn m hm => hsound m (Markup.Node.mem_nodes_of_child hn hm)) span.start span.start span.stop
      (Nat.le_refl _) hnests.span_le (by simp) hnests.children
  case done =>
    intro run _ lo mid hi _ hhi hrun _ hits h
    exact (t.pendingHits_ordered h hrun).mono (Nat.le_refl _) hhi
  case text =>
    intro run n ns _ ih hsound lo mid hi hlo hhi hrun hin
    have hn := hin.within n List.mem_cons_self
    have hspan := (hsound n List.mem_cons_self n n.self_mem_nodes).nests.span_le
    refine ih (fun m hm => hsound m (List.mem_cons_of_mem n hm)) lo n.span.stop hi (by omega) hn.2 ?_ hin.tail
    rintro r ⟨⟩
    cases run with
    | none => exact ⟨Nat.le_trans hlo hn.1, Nat.le_refl _⟩
    | some r =>
      have := hrun r rfl
      simp only [extendRun]
      omega
  case node =>
    intro run n ns _ ihn ihns hsound lo mid hi hlo hhi hrun hin hits h
    obtain ⟨before, here, behind, hbefore, hhere, hbehind, rfl⟩ := t.childHits_node_eq_ok h
    have hn := hin.within n List.mem_cons_self
    have hspan := (hsound n List.mem_cons_self n n.self_mem_nodes).nests.span_le
    have hnode := (ihn (hsound n List.mem_cons_self) here hhere).mono hn.1 (Nat.le_refl _)
    have hrest := ihns (fun m hm => hsound m (List.mem_cons_of_mem n hm)) n.span.stop n.span.stop hi
      (Nat.le_refl _) hn.2 (by simp) hin.tail behind hbehind
    exact ((t.pendingHits_ordered hbefore hrun).append hnode hlo (by omega)).append hrest (by omega) hn.2

theorem hitsAt_mem {spans : List Span} {hits : List Hit} (h : t.hitsAt spans = .ok hits) :
    ∀ hit ∈ hits, ∃ s, Cuts t.content s ∧ t.hit? s = some hit := by
  obtain ⟨hcuts, rfl⟩ := t.hitsAt_eq_ok.mp h
  intro hit hm
  obtain ⟨s, hs, hh⟩ := List.mem_filterMap.mp hm
  exact ⟨s, hcuts s hs, hh⟩

theorem pendingHits_mem {run : Option Span} {hits : List Hit} (h : t.pendingHits run = .ok hits) :
    ∀ hit ∈ hits, ∃ s, Cuts t.content s ∧ t.hit? s = some hit := by
  cases run with
  | none => exact Except.ok.inj h ▸ by simp
  | some r =>
    obtain ⟨text, -, h⟩ := bind_eq_ok.mp h
    exact t.hitsAt_mem h

theorem nodeHits_mem (n : Markup.Node) :
    ∀ hits, t.nodeHits n = .ok hits → ∀ hit ∈ hits, ∃ s, Cuts t.content s ∧ t.hit? s = some hit := by
  refine nodeHits.induct_unfolding t
    (fun _ found => ∀ hits, found = .ok hits → ∀ hit ∈ hits, ∃ s, Cuts t.content s ∧ t.hit? s = some hit)
    (fun _ _ found => ∀ hits, found = .ok hits → ∀ hit ∈ hits, ∃ s, Cuts t.content s ∧ t.hit? s = some hit)
    ?comment ?style ?script ?attr ?parent ?done ?text ?node n
  case comment => exact fun _ _ hits h => Except.ok.inj h ▸ by simp
  case style => exact fun _ _ hits h => Except.ok.inj h ▸ by simp
  case script =>
    intro span children hits h
    rw [scriptHits] at h
    split at h
    · exact Except.ok.inj h ▸ by simp
    · obtain ⟨code, -, h⟩ := bind_eq_ok.mp h
      exact t.hitsAt_mem h
  case attr =>
    intro span children hits h
    rcases t.attributeHits_cases h with rfl | ⟨s, -, h⟩
    · simp
    · exact t.hitsAt_mem h
  case parent => exact fun _ _ _ _ _ _ _ ih => ih
  case done => exact fun run hits h => t.pendingHits_mem h
  case text => exact fun _ _ _ _ ih => ih
  case node =>
    intro run n ns _ ihn ihns hits h hit hm
    obtain ⟨before, here, behind, hbefore, hhere, hbehind, rfl⟩ := t.childHits_node_eq_ok h
    rcases List.mem_append.mp hm with hm | hm
    · rcases List.mem_append.mp hm with hm | hm
      · exact t.pendingHits_mem hbefore hit hm
      · exact ihn here hhere hit hm
    · exact ihns behind hbehind hit hm

theorem scriptBodies_cuts {code : List Char}
    (h : ∀ tree ∈ t.script? code, ∀ s ∈ tree.literals, Cuts code s) : ∀ s ∈ t.scriptBodies code, Cuts code s := by
  rw [scriptBodies]
  split
  · next tree htree => exact h tree htree
  · intro s hs
    obtain ⟨l, hl, rfl⟩ := List.mem_map.mp hs
    obtain ⟨hstart, hstop⟩ := Code.literal_boundaries hl
    exact cuts_of_boundaries (Code.literals_bounds hl).2.2.1 hstart hstop

theorem scriptHits_isOk {children : List Markup.Node} (hspans : ∀ n ∈ children, Cuts t.content n.span)
    (hliterals : ∀ raw ∈ children, raw.kind = .rawText →
      ∀ tree ∈ t.script? (sliceBytes t.content raw.span.start raw.span.stop),
        ∀ s ∈ tree.literals, Cuts (sliceBytes t.content raw.span.start raw.span.stop) s) :
    ∃ hits, t.scriptHits children = .ok hits := by
  rw [scriptHits]
  split
  · exact ⟨_, rfl⟩
  · next n hfind =>
    have hn := List.mem_of_find?_eq_some hfind
    have hbodies := t.scriptBodies_cuts (hliterals n hn (by simpa using List.find?_some hfind))
    refine ⟨_, bind_eq_ok.mpr ⟨_, cut_eq_ok.mpr ⟨hspans n hn, rfl⟩, t.hitsAt_eq_ok.mpr ⟨?_, rfl⟩⟩⟩
    rw [List.forall_mem_map]
    exact fun s hs => (hspans n hn).shift (hbodies s hs)

theorem attributeHits_isOk {n : Markup.Node} (hspans : ∀ m ∈ n.nodes, Cuts t.content m.span) :
    ∃ hits, t.attributeHits n.children = .ok hits := by
  have hchild : ∀ c ∈ n.children, ∀ m ∈ c.nodes, Cuts t.content m.span :=
    fun c hc m hm => hspans m (Markup.Node.mem_nodes_of_child hc hm)
  obtain ⟨names, hnames⟩ : ∃ names, (n.children.filter fun c => c.kind = .attributeName).mapM
      (fun c => cut t.content c.span) = .ok names := by
    rw [mapM_isOk]
    exact fun c hc => ⟨_, cut_eq_ok.mpr ⟨hchild c (List.mem_filter.mp hc).1 c c.self_mem_nodes, rfl⟩⟩
  simp only [attributeHits, hnames, bind, Except.bind]
  split
  · next s hs =>
    have hcuts : Cuts t.content s := by
      obtain ⟨c, hc, rfl | ⟨m, hm, rfl⟩⟩ := valueSpan?_mem hs
      · exact hchild c hc c c.self_mem_nodes
      · exact hchild c hc m (Markup.Node.mem_nodes_of_child hm m.self_mem_nodes)
    split_ifs
    · exact ⟨_, t.hitsAt_eq_ok.mpr ⟨by simpa using hcuts, rfl⟩⟩
    · exact ⟨_, rfl⟩
  · exact ⟨_, rfl⟩

theorem pendingHits_isOk {run : Option Span} (hrun : ∀ r ∈ run, Cuts t.content r) :
    ∃ hits, t.pendingHits run = .ok hits := by
  cases run with
  | none => exact ⟨_, rfl⟩
  | some r => exact ⟨_, t.runHits_eq_ok.mpr ⟨hrun r rfl, rfl⟩⟩

theorem nodeHits_isOk (n : Markup.Node) :
    (∀ m ∈ n.nodes, Cuttable t.script? t.content m) → ∃ hits, t.nodeHits n = .ok hits := by
  -- of siblings: a pending run can be cut out and starts before each of them ends
  refine nodeHits.induct_unfolding t
    (fun n found => (∀ m ∈ n.nodes, Cuttable t.script? t.content m) → ∃ hits, found = .ok hits)
    (fun run ns found => (∀ n ∈ ns, ∀ m ∈ n.nodes, Cuttable t.script? t.content m) →
      (ns.Pairwise fun a b => a.span.start ≤ b.span.stop) →
      (∀ r ∈ run, Cuts t.content r ∧ ∀ n ∈ ns, r.start ≤ n.span.stop) → ∃ hits, found = .ok hits)
    ?comment ?style ?script ?attr ?parent ?done ?text ?node n
  case comment => exact fun _ _ _ => ⟨_, rfl⟩
  case style => exact fun _ _ _ => ⟨_, rfl⟩
  case script =>
    intro span children hcut
    refine t.scriptHits_isOk (fun n hn => ?_) ((hcut _ (Markup.Node.self_mem_nodes _)).literals rfl)
    exact (hcut n (Markup.Node.mem_nodes_of_child hn n.self_mem_nodes)).span
  case attr =>
    intro span children hcut
    exact t.attributeHits_isOk (n := .mk .attr span children) fun m hm => (hcut m hm).span
  case parent =>
    intro kind span children _ _ _ _ ih hcut
    exact ih (fun n hn m hm => hcut m (Markup.Node.mem_nodes_of_child hn hm))
      (hcut _ (Markup.Node.self_mem_nodes _)).siblings (by simp)
  case done => exact fun run _ _ hrun => t.pendingHits_isOk fun r hr => (hrun r hr).1
  case text =>
    intro run n ns _ ih hcut hpair hrun
    obtain ⟨hbehind, hpair⟩ := List.pairwise_cons.mp hpair
    refine ih (fun m hm => hcut m (List.mem_cons_of_mem n hm)) hpair ?_
    have hn := (hcut n List.mem_cons_self n n.self_mem_nodes).span
    rintro r ⟨⟩
    cases run with
    | none => exact ⟨hn, hbehind⟩
    | some r =>
      obtain ⟨hr, hle⟩ := hrun r rfl
      exact ⟨cuts_of_boundaries (hle n List.mem_cons_self) hr.start hn.stop,
        fun m hm => hle m (List.mem_cons_of_mem n hm)⟩
  case node =>
    intro run n ns _ ihn ihns hcut hpair hrun
    obtain ⟨before, hbefore⟩ := t.pendingHits_isOk fun r hr => (hrun r hr).1
    obtain ⟨here, hhere⟩ := ihn (hcut n List.mem_cons_self)
    obtain ⟨behind, hbehind⟩ := ihns (fun m hm => hcut m (List.mem_cons_of_mem n hm)) hpair.of_cons (by simp)
    exact ⟨before ++ here ++ behind, by rw [hbefore, hhere, hbehind]; rfl⟩

end Source

end Template

end VisibleText
