import VisibleText.Engines.Own
import VisibleText.Proofs.Ordered

/-!
Trees of markup nest: whatever is read, the children of each node come in order inside the node. A
reader goes from one place of the input to a later one, and the nodes it gives lie between the two.
-/
namespace VisibleText.Markup

namespace Node

def nodes : Node → List Node
  | mk k s children => mk k s children :: nodesOf children
where
  nodesOf : List Node → List Node
    | [] => []
    | n :: ns => n.nodes ++ nodesOf ns

theorem self_mem_nodes (n : Node) : n ∈ n.nodes := by
  cases n
  simp [nodes]

theorem mem_nodesOf {m : Node} {ns : List Node} : m ∈ nodes.nodesOf ns ↔ ∃ n ∈ ns, m ∈ n.nodes := by
  induction ns with
  | nil => simp [nodes.nodesOf]
  | cons n ns ih => simp [nodes.nodesOf, ih]

theorem mem_nodes_of_child {n c m : Node} (hc : c ∈ n.children) (hm : m ∈ c.nodes) : m ∈ n.nodes := by
  cases n with
  | mk k s children =>
    rw [nodes, List.mem_cons, mem_nodesOf]
    exact .inr ⟨c, hc, hm⟩

structure Nests (n : Node) : Prop where
  span_le : n.span.start ≤ n.span.stop
  children : Ordered span n.span.start n.span.stop n.children

end Node

namespace Cursor

def Forward (c d : Cursor) : Prop := c.offset ≤ d.offset ∧ d.offset + d.rest.length = c.offset + c.rest.length

theorem Forward.refl (c : Cursor) : c.Forward c := ⟨Nat.le_refl _, rfl⟩

theorem Forward.trans {c d e : Cursor} (h : c.Forward d) (h' : d.Forward e) : c.Forward e := by
  simp only [Forward] at *
  omega

theorem advance_forward {c : Cursor} {n : ℕ} (h : n ≤ c.rest.length) : c.Forward (c.advance n) := by
  simp only [Forward, advance, List.length_drop]
  omega

theorem expect?_some {c d : Cursor} {b : UInt8} (h : c.expect? b = some d) : c.Forward d ∧ c.offset + 1 = d.offset := by
  unfold expect? at h
  split_ifs at h with hb
  obtain rfl := Option.some.inj h
  refine ⟨advance_forward ?_, rfl⟩
  rw [head?, List.head?_eq_some_iff] at hb
  obtain ⟨rest, hrest⟩ := hb
  simp [hrest]

theorem length_le_of_startsWith {c : Cursor} {bs : Bytes} (h : c.startsWith bs = true) :
    bs.length ≤ c.rest.length := (List.isPrefixOf_iff_prefix.mp h).length_le

end Cursor

structure Reads (c : Cursor) (ns : List Node) (d : Cursor) : Prop where
  forward : c.Forward d
  nests : ∀ n ∈ ns, ∀ m ∈ n.nodes, m.Nests
  ordered : Ordered Node.span c.offset d.offset ns

namespace Reads

variable {c d e : Cursor} {ns ms : List Node}

theorem nil (h : c.Forward d) : Reads c [] d := ⟨h, by simp, .nil _ _ _⟩

theorem append (h : Reads c ns d) (h' : Reads d ms e) : Reads c (ns ++ ms) e := by
  refine ⟨h.forward.trans h'.forward, fun n hn => ?_, h.ordered.append h'.ordered h.forward.1 h'.forward.1⟩
  rcases List.mem_append.mp hn with hn | hn
  · exact h.nests n hn
  · exact h'.nests n hn

theorem cons {n : Node} (h : Reads c [n] d) (h' : Reads d ms e) : Reads c (n :: ms) e := h.append h'

theorem move (h : c.Forward d) (h' : Reads d ns e) : Reads c ns e := (nil h).append h'

theorem then_move (h : Reads c ns d) (h' : d.Forward e) : Reads c ns e := by
  simpa using h.append (nil h')

theorem node (kind : Kind) (h : Reads c ns d) : Reads c [.mk kind ⟨c.offset, d.offset⟩ ns] d := by
  refine ⟨h.forward, ?_, .singleton (Nat.le_refl _) (Nat.le_refl _)⟩
  intro n hn m hm
  rw [List.mem_singleton] at hn
  subst hn
  rw [Node.nodes, List.mem_cons, Node.mem_nodesOf] at hm
  rcases hm with rfl | ⟨k, hk, hm⟩
  · exact ⟨h.forward.1, h.ordered⟩
  · exact h.nests k hk m hm

theorem leaf (kind : Kind) {n : ℕ} (h : n ≤ c.rest.length) :
    Reads c [.leaf kind c.offset (c.offset + n)] (c.advance n) :=
  node kind (nil (Cursor.advance_forward h))

end Reads

theorem runLength_le (p : UInt8 → Bool) (c : Cursor) : runLength p c ≤ c.rest.length :=
  (List.takeWhile_sublist p).length_le

theorem skipBlanks_forward (c : Cursor) : c.Forward (skipBlanks c) := Cursor.advance_forward (runLength_le isBlankByte c)

theorem commentTail?_le {dashes n : ℕ} {bs : Bytes} (h : commentTail? dashes bs = some n) : n ≤ bs.length := by
  induction bs generalizing dashes n with
  | nil => simp [commentTail?] at h
  | cons b bs ih =>
    simp only [commentTail?] at h
    split at h
    · obtain rfl := Option.some.inj h
      simp
    · split at h
      · cases h
      · obtain ⟨k, hk, rfl⟩ := Option.map_eq_some_iff.mp h
        simpa using ih hk

theorem commentLength?_le {c : Cursor} {n : ℕ} (h : commentLength? c = some n) : n ≤ c.rest.length := by
  unfold commentLength? at h
  split_ifs at h with hstart
  obtain ⟨k, hk, rfl⟩ := Option.map_eq_some_iff.mp h
  have hfour : 4 ≤ c.rest.length := Cursor.length_le_of_startsWith hstart
  have := commentTail?_le hk
  rw [List.length_drop] at this
  omega

theorem comments_reads (c : Cursor) (fuel : ℕ) : Reads c (comments c fuel).1 (comments c fuel).2 := by
  induction fuel generalizing c with
  | zero => exact .nil (.refl c)
  | succ fuel ih =>
    simp only [comments]
    split
    · next n hn =>
      exact .move (skipBlanks_forward c) ((Reads.leaf .comment (commentLength?_le hn)).cons (ih _))
    · exact .nil (.refl c)

theorem extras_reads (c : Cursor) : Reads c (extras c).1 (extras c).2 :=
  (comments_reads c c.rest.length).then_move (skipBlanks_forward _)

theorem textLength_le (c : Cursor) : textLength c ≤ c.rest.length := by
  have hdrop := (List.dropWhile_sublist isBlankByte (l := (c.rest.takeWhile isTextByte).reverse)).length_le
  rw [List.length_reverse] at hdrop
  exact Nat.le_trans hdrop (runLength_le isTextByte c)

theorem attributeValue?_reads {c d : Cursor} {n : Node} (h : attributeValue? c = some (n, d)) : Reads c [n] d := by
  simp only [attributeValue?, bind, Option.bind_eq_some_iff] at h
  obtain ⟨quote, hq, h⟩ := h
  split at h
  · obtain ⟨rest, hrest⟩ := List.head?_eq_some_iff.mp hq
    have hnotes := comments_reads (c.advance 1) c.rest.length
    generalize comments (c.advance 1) c.rest.length = notes at h hnotes
    obtain ⟨after, hafter, h⟩ := Option.bind_eq_some_iff.mp h
    obtain ⟨rfl, rfl⟩ := Prod.mk.inj (Option.some.inj h)
    have hvalue := runLength_le (fun b => b != quote && b != 0) notes.2
    refine .node _ (.move (Cursor.advance_forward (by simp [hrest])) (hnotes.append ?_))
    refine Reads.then_move ?_ (Cursor.expect?_some hafter).1
    split
    · exact .nil (Cursor.advance_forward hvalue)
    · exact .leaf _ hvalue
  · split at h
    · cases h
    · obtain ⟨rfl, rfl⟩ := Prod.mk.inj (Option.some.inj h)
      exact .leaf _ (runLength_le isAttributeValueByte c)

theorem attribute?_reads {c d : Cursor} {ns : List Node} (h : attribute? c = some (ns, d)) : Reads c ns d := by
  simp only [attribute?, bind] at h
  split at h
  · cases h
  · have hname : Reads c [_] _ := .leaf .attributeName (runLength_le isAttributeNameByte c)
    have hnotes := extras_reads (c.advance (runLength isAttributeNameByte c))
    split at h
    · next eq heq =>
      obtain ⟨value, hvalue, h⟩ := Option.bind_eq_some_iff.mp h
      obtain ⟨rfl, rfl⟩ := Prod.mk.inj (Option.some.inj h)
      have hmore := (extras_reads eq).append (attributeValue?_reads hvalue)
      have hall := (hname.append hnotes).append (.move (Cursor.expect?_some heq).1 hmore)
      rw [← List.append_assoc] at hall
      exact .node _ hall
    · obtain ⟨rfl, rfl⟩ := Prod.mk.inj (Option.some.inj h)
      exact (Reads.node _ hname).cons hnotes

theorem attributes?_reads {c d : Cursor} {fuel : ℕ} {ns : List Node} (h : attributes? c fuel = some (ns, d)) :
    Reads c ns d := by
  induction fuel generalizing c ns with
  | zero => cases h
  | succ fuel ih =>
    have hnotes := extras_reads c
    simp only [attributes?, bind] at h
    split at h
    · cases h
    · split at h
      · obtain ⟨rfl, rfl⟩ := Prod.mk.inj (Option.some.inj h)
        exact hnotes
      · obtain ⟨⟨nodes, after⟩, hnodes, h⟩ := Option.bind_eq_some_iff.mp h
        obtain ⟨⟨more, last⟩, hmore, h⟩ := Option.bind_eq_some_iff.mp h
        obtain ⟨rfl, rfl⟩ := Prod.mk.inj (Option.some.inj h)
        exact (hnotes.append (attribute?_reads hnodes)).append (ih hmore)

theorem startTag?_reads {c d : Cursor} {tag : Tag} {close : TagEnd} {n : Node} (hc : c.rest ≠ [])
    (h : startTag? c = some (tag, close, n, d)) : Reads c [n] d ∧ n.span = ⟨c.offset, d.offset⟩ := by
  simp only [startTag?, bind] at h
  split at h
  · cases h
  · obtain ⟨⟨attrs, last⟩, hattrs, h⟩ := Option.bind_eq_some_iff.mp h
    have hone : Reads c [] (c.advance 1) := .nil (Cursor.advance_forward (List.length_pos_iff.mpr hc))
    have hname : Reads _ [_] _ := .leaf .tagName (runLength_le Tag.isNameByte (extras (c.advance 1)).2)
    have hall := (hone.append (extras_reads _)).append (hname.cons (attributes?_reads hattrs))
    dsimp only at h
    split at h
    · next hrest =>
      simp only [pure, Option.some.injEq, Prod.mk.injEq] at h
      obtain ⟨-, -, rfl, rfl⟩ := h
      exact ⟨.node _ (hall.then_move (Cursor.advance_forward (by simp [hrest]))), rfl⟩
    · next hrest =>
      split at h
      · cases h
      · simp only [pure, Option.some.injEq, Prod.mk.injEq] at h
        obtain ⟨-, -, rfl, rfl⟩ := h
        exact ⟨.node _ (hall.then_move (Cursor.advance_forward (by simp [hrest]))), rfl⟩
    · cases h

theorem endTag?_reads {c d : Cursor} {tag : Tag} {name : Span} {before behind : List Node} (kind : Kind)
    (hc : 2 ≤ c.rest.length) (h : endTag? c = some (tag, name, before, behind, d)) :
    Reads c (before ++ .mk kind name [] :: behind) d := by
  simp only [endTag?, bind] at h
  split at h
  · cases h
  · obtain ⟨after, hafter, h⟩ := Option.bind_eq_some_iff.mp h
    simp only [pure, Option.some.injEq, Prod.mk.injEq] at h
    obtain ⟨-, rfl, rfl, rfl, rfl⟩ := h
    have htwo : Reads c [] (c.advance 2) := .nil (Cursor.advance_forward hc)
    have hname : Reads _ [_] _ := .leaf kind (runLength_le Tag.isNameByte (extras (c.advance 2)).2)
    exact ((htwo.append (extras_reads _)).append (hname.cons (extras_reads _))).then_move
      (Cursor.expect?_some hafter).1

theorem doctype?_reads {c d : Cursor} {n : Node} (hc : 2 ≤ c.rest.length) (h : doctype? c = some (n, d)) :
    Reads c [n] d := by
  simp only [doctype?, bind] at h
  split at h
  · cases h
  · next hword =>
    have hnotes := (Reads.nil (Cursor.advance_forward hc)).append (extras_reads (c.advance 2))
    generalize extras (c.advance 2) = notes at h hword hnotes
    have hseven : 7 ≤ notes.2.rest.length := by
      simp only [bne_iff_ne, ne_eq, not_not] at hword
      have hlen := congrArg List.length hword
      simp only [List.length_map, List.length_take, List.length_cons, List.length_nil] at hlen
      omega
    have hmore := comments_reads (notes.2.advance 7) c.rest.length
    generalize comments (notes.2.advance 7) c.rest.length = more at h hmore
    split at h
    · cases h
    · obtain ⟨after, hafter, h⟩ := Option.bind_eq_some_iff.mp h
      obtain ⟨rfl, rfl⟩ := Prod.mk.inj (Option.some.inj h)
      have hend := (Cursor.advance_forward (runLength_le (fun b => b != greater && b != 0) more.2)).trans
        (Cursor.expect?_some hafter).1
      exact .node _ ((hnotes.append (.move (Cursor.advance_forward hseven) hmore)).then_move hend)

theorem entityLength?_le {c : Cursor} {n : ℕ} (h : entityLength? c = some n) : n ≤ c.rest.length := by
  obtain ⟨k, hk, rfl⟩ := Option.map_eq_some_iff.mp h
  have hbody : k ≤ c.rest.length := by
    split at hk
    · next x rest hrest =>
      have hhex := (List.takeWhile_sublist isHexByte (l := rest)).length_le
      have hdec := (List.takeWhile_sublist isDecimalByte (l := x :: rest)).length_le
      rw [hrest]
      simp only [List.length_cons] at hdec ⊢
      dsimp only at hk
      split_ifs at hk <;> obtain rfl := Option.some.inj hk <;> omega
    · next rest _ hrest =>
      have hletters := (List.takeWhile_sublist isLetterByte (l := rest)).length_le
      rw [hrest]
      simp only [List.length_cons]
      dsimp only at hk
      split_ifs at hk
      obtain rfl := Option.some.inj hk
      omega
    · cases hk
  split_ifs with hsemi
  · obtain ⟨rest, hrest⟩ := List.head?_eq_some_iff.mp hsemi
    have hlen := congrArg List.length hrest
    simp only [Cursor.advance, List.length_drop, List.length_cons] at hlen
    omega
  · exact hbody

theorem rawTextLength_le (mark : Bytes) (matched : ℕ) (bs : Bytes) :
    rawTextLength mark matched bs ≤ matched + bs.length := by
  induction bs generalizing matched with
  | nil => simp [rawTextLength]
  | cons b bs ih =>
    have := ih (matched + 1)
    have := ih 0
    simp only [rawTextLength, List.length_cons]
    split_ifs <;> omega

theorem rawElement?_reads {s c d : Cursor} {lenient : Bool} {tag : Tag} {start n : Node}
    (hstart : Reads s [start] c) (hspan : start.span = ⟨s.offset, c.offset⟩)
    (h : rawElement? lenient tag start c = some (n, d)) : Reads s [n] d := by
  have hlen := rawTextLength_le (rawTextMark tag) 0 c.rest
  rw [Nat.zero_add] at hlen
  have hraw := hstart.append (.leaf .rawText hlen)
  simp only [rawElement?, hspan, bind] at h
  split at h
  · next hended =>
    obtain rfl := Option.some.inj h
    have hnotes := hraw.append (extras_reads _)
    split at hended
    · cases hended
    · next hslash =>
      obtain ⟨⟨endTag, name, before, behind, after⟩, hend, hended⟩ := Option.bind_eq_some_iff.mp hended
      dsimp only at hended
      split at hended
      · cases hended
      · obtain ⟨rfl, rfl⟩ := Prod.mk.inj (Option.some.inj hended)
        have htwo := Cursor.length_le_of_startsWith (by simpa using hslash)
        exact .node _ (hnotes.append (.node .endTag (endTag?_reads .tagName htwo hend)))
  · split at h
    · obtain ⟨rfl, rfl⟩ := Prod.mk.inj (Option.some.inj h)
      have hrest : (c.advance (rawTextLength (rawTextMark tag) 0 c.rest)).Forward (c.advance c.rest.length) := by
        simp only [Cursor.Forward, Cursor.advance, List.length_drop]
        omega
      exact .node _ (hraw.then_move hrest)
    · cases h

/-- Up to the place `c` the finished nodes were read, and behind them for each open element, from the
outermost to the innermost, its children. -/
inductive Opened (origin : Cursor) : Progress → Cursor → Prop
  | top {ns : List Node} {c : Cursor} (h : Reads origin ns.reverse c) : Opened origin ⟨[], ns⟩ c
  | element {stack : List Open} {ns : List Node} {s c : Cursor} {o : Open} (outer : Opened origin ⟨stack, ns⟩ s)
      (hstart : o.start = s.offset) (h : Reads s o.children.reverse c) : Opened origin ⟨o :: stack, ns⟩ c

namespace Opened

variable {origin c d : Cursor} {p : Progress}

theorem add {ns : List Node} (hp : Opened origin p c) (hns : Reads c ns d) : Opened origin (p.add ns) d := by
  cases hp with
  | top h => exact .top (by simpa using h.append hns)
  | element outer hstart h => exact .element outer hstart (by simpa using h.append hns)

theorem close (hp : Opened origin p c) : Opened origin (p.close c.offset) c := by
  cases hp with
  | top h => exact .top h
  | element outer hstart h =>
    have hnode := h.node .element
    rw [← hstart] at hnode
    exact outer.add hnode

theorem top_reads (hp : Opened origin p c) : Reads origin p.top.reverse c := by
  induction hp with
  | top h => exact h
  | element outer hstart h ih => exact ih.then_move h.forward

theorem closeAll_reads (hp : Opened origin p c) : Reads origin (p.closeAll c.offset) c := by
  have hclose : ∀ (opens : List Open) (q : Progress), Opened origin q c →
      Opened origin (opens.foldl (fun q _ => q.close c.offset) q) c := by
    intro opens
    induction opens with
    | nil => exact fun q hq => hq
    | cons o opens ih => exact fun q hq => ih _ hq.close
  exact (hclose p.stack p hp).top_reads

end Opened

theorem step?_reads {lenient : Bool} {p q : Progress} {origin here d : Cursor} (hp : Opened origin p here)
    (h : step? lenient p here = some (q, d)) : Opened origin q d := by
  simp only [step?, bind] at h
  split at h
  · cases h
  · next b rest hrest =>
    have hone : here.rest ≠ [] := by simp [hrest]
    have htwo (b' : UInt8) (hb : rest.head? = some b') : 2 ≤ here.rest.length := by
      obtain ⟨more, rfl⟩ := List.head?_eq_some_iff.mp hb
      simp [hrest]
    split at h
    · split at h
      · next hbang =>
        obtain ⟨⟨node, after⟩, hnode, h⟩ := Option.bind_eq_some_iff.mp h
        obtain ⟨rfl, rfl⟩ := Prod.mk.inj (Option.some.inj h)
        exact hp.add (doctype?_reads (htwo _ hbang) hnode)
      · split at h
        · obtain ⟨rfl, rfl⟩ := Prod.mk.inj (Option.some.inj h)
          exact hp.close
        · split at h
          · next hslash =>
            obtain ⟨⟨tag, name, before, behind, after⟩, hend, h⟩ := Option.bind_eq_some_iff.mp h
            dsimp only at h
            split at h <;> obtain ⟨rfl, rfl⟩ := Prod.mk.inj (Option.some.inj h)
            · exact (hp.add (.node .endTag (endTag?_reads .tagName (htwo _ hslash) hend))).close
            · exact hp.add (.node _ (endTag?_reads _ (htwo _ hslash) hend))
          · obtain ⟨⟨tag, close, node, after⟩, htag, h⟩ := Option.bind_eq_some_iff.mp h
            obtain ⟨hnode, hspan⟩ := startTag?_reads hone htag
            dsimp only at h
            split at h
            · obtain ⟨rfl, rfl⟩ := Prod.mk.inj (Option.some.inj h)
              exact hp.add (hspan ▸ hnode.node .element)
            · split at h
              · obtain ⟨⟨whole, last⟩, hwhole, h⟩ := Option.bind_eq_some_iff.mp h
                obtain ⟨rfl, rfl⟩ := Prod.mk.inj (Option.some.inj h)
                exact hp.add (rawElement?_reads hnode hspan hwhole)
              · obtain ⟨rfl, rfl⟩ := Prod.mk.inj (Option.some.inj h)
                exact .element (o := ⟨tag, here.offset, [node]⟩) hp rfl hnode
    · split at h
      · obtain ⟨n, hn, h⟩ := Option.bind_eq_some_iff.mp h
        obtain ⟨rfl, rfl⟩ := Prod.mk.inj (Option.some.inj h)
        exact hp.add (.leaf _ (entityLength?_le hn))
      · split at h
        · obtain ⟨rfl, rfl⟩ := Prod.mk.inj (Option.some.inj h)
          exact hp.add (.leaf _ (textLength_le here))
        · cases h

theorem nodes?_reads {lenient : Bool} {fuel : ℕ} {p : Progress} {origin c : Cursor} {ns : List Node}
    (hp : Opened origin p c) (h : nodes? lenient fuel p c = some ns) : ∃ d, Reads origin ns d := by
  induction fuel generalizing p c with
  | zero => cases h
  | succ fuel ih =>
    have hp := hp.add (extras_reads c)
    simp only [nodes?] at h
    generalize p.add (extras c).1 = q at h hp
    generalize (extras c).2 = here at h hp
    split at h
    · split_ifs at h
      · obtain rfl := Option.some.inj h
        exact ⟨here, hp.top_reads⟩
      · exact ih hp.close h
      · obtain rfl := Option.some.inj h
        exact ⟨here, hp.closeAll_reads⟩
    · next hrest =>
      split at h
      · next hstep => exact ih (step?_reads hp hstep) h
      · split at h
        · have hone : 1 ≤ here.rest.length := by
            rw [Nat.succ_le_iff, List.length_pos_iff]
            simpa using hrest
          exact ih (hp.add (.leaf .error hone)) h
        · cases h

theorem parse?_nests {lenient : Bool} {bs : Bytes} {tree : Node} (h : parse? lenient bs = some tree) :
    ∀ m ∈ tree.nodes, m.Nests := by
  simp only [parse?, bind, Option.bind_eq_some_iff] at h
  obtain ⟨ns, hns, h⟩ := h
  obtain rfl := Option.some.inj h
  obtain ⟨start, hlen, hns⟩ : ∃ start : Cursor, start.offset + start.rest.length = bs.length ∧
      nodes? lenient (2 * bs.length + 2) ⟨[], []⟩ start = some ns := by
    split at hns
    · next hmark =>
      refine ⟨_, ?_, hns⟩
      have hthree := (List.isPrefixOf_iff_prefix.mp hmark).length_le
      simp only [List.length_drop, List.length_cons, List.length_nil] at hthree ⊢
      omega
    · exact ⟨_, by simp, hns⟩
  obtain ⟨d, hreads⟩ := nodes?_reads (.top (.nil (.refl start))) hns
  have hd : d.offset ≤ bs.length := by
    have := hreads.forward.2
    omega
  intro m hm
  rw [Node.nodes, List.mem_cons, Node.mem_nodesOf] at hm
  rcases hm with rfl | ⟨n, hn, hm⟩
  · cases ns with
    | nil => exact ⟨Nat.le_refl _, .nil _ _ _⟩
    | cons n ns =>
      have hn := hreads.ordered.within n List.mem_cons_self
      have hspan := (hreads.nests n List.mem_cons_self n n.self_mem_nodes).span_le
      have hstop := Nat.le_trans hn.2 hd
      have hfirst : Ordered Node.span n.span.start n.span.stop [n] := .singleton (Nat.le_refl _) (Nat.le_refl _)
      exact ⟨Nat.le_trans hspan hstop, hfirst.append (hreads.ordered.tail.mono (Nat.le_refl _) hd) hspan hstop⟩
  · exact hreads.nests n hn m hm

theorem ofTemplate_nests (bs : Bytes) : ∀ m ∈ (ofTemplate bs).nodes, m.Nests := by
  unfold ofTemplate
  split
  · next hparse => exact parse?_nests hparse
  · dsimp only
    split
    · next hparse => exact parse?_nests hparse
    · cases hparse : parse? true (quiet (Blade.codeOutsideComments bs) bs) with
      | some tree => exact parse?_nests hparse
      | none =>
        intro m hm
        obtain rfl : m = .leaf .error 0 bs.length := by simpa [Node.leaf, Node.nodes, Node.nodes.nodesOf] using hm
        exact ⟨Nat.zero_le _, .nil _ _ _⟩

end VisibleText.Markup
