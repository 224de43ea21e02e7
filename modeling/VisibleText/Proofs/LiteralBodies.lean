import Mathlib.Data.List.Pairwise
import VisibleText.Proofs.Windows

/-!
Literals and each other. With another text of the same length between its quotes, a literal leaves the other
literals, the partners of braces and the mask as they were, but for line feeds in the mask. So its text cannot
make another literal an array key or put it inside a call; it can only stand for the head of a definition.
-/
namespace VisibleText.Code

theorem lexemes_change {front back : List Lexeme} {q : UInt8} {bs bs' : Bytes}
    (h : lexemes .php isQuote ((front ++ .literal (q :: bs) :: back).flatMap Lexeme.bytes) =
      front ++ .literal (q :: bs) :: back)
    (hlead : Leads .php isQuote (.literal (q :: bs')) (back.flatMap Lexeme.bytes)) :
    lexemes .php isQuote ((front ++ .literal (q :: bs') :: back).flatMap Lexeme.bytes) =
      front ++ .literal (q :: bs') :: back := by
  induction front with
  | nil =>
    obtain ⟨-, hback⟩ := lexemes_cons_inv h
    rw [List.nil_append, List.flatMap_cons]
    exact hlead.trans (by rw [hback])
  | cons l front ih =>
    rw [List.cons_append] at h
    obtain ⟨hl, hrest⟩ := lexemes_cons_inv h
    have hhead : ∀ bs : Bytes, ((front ++ .literal (q :: bs) :: back).flatMap Lexeme.bytes).head? =
        (front.flatMap Lexeme.bytes).head?.or (some q) := by
      intro bs
      rw [List.flatMap_append, List.head?_append]
      rfl
    have hlead' : Leads .php isQuote l ((front ++ .literal (q :: bs') :: back).flatMap Lexeme.bytes) := by
      refine (leads_of_lexemes h).change hl ?_ ?_
      · rw [List.flatMap_append]
        exact List.append_ne_nil_of_right_ne_nil _ (List.cons_ne_nil _ _)
      · rintro rfl
        rw [hhead, ← hhead bs]
        exact commentLength?_slash_none (leads_code.mp (leads_of_lexemes h)).1
    rw [List.cons_append, List.flatMap_cons]
    exact hlead'.trans (by rw [ih hrest])

structure Setting where
  before : List Char
  quote : Char
  after : List Char
  front : List Lexeme
  back : List Lexeme

namespace Setting

def fill (s : Setting) (text : List Char) : List Char := s.before ++ s.quote :: (text ++ s.quote :: s.after)

def literal (s : Setting) (text : List Char) : Lexeme := .literal (utf8 (s.quote :: (text ++ [s.quote])))

def through (s : Setting) (text : List Char) : List Char := s.before ++ s.quote :: (text ++ [s.quote])

def body (s : Setting) (text : List Char) : Span :=
  ⟨byteLength s.before + 1, byteLength s.before + 1 + byteLength text⟩

structure Holds (s : Setting) (text : List Char) : Prop where
  quote : s.quote = '\'' ∨ s.quote = '"'
  before : utf8 s.before = s.front.flatMap Lexeme.bytes
  after : utf8 s.after = s.back.flatMap Lexeme.bytes
  lexemes : lexemes .php isQuote (utf8 (s.fill text)) = s.front ++ s.literal text :: s.back

theorem fill_eq (s : Setting) (text : List Char) :
    s.fill text = (s.before ++ [s.quote]) ++ (text ++ (s.quote :: s.after)) := by
  simp [fill]

theorem fill_eq_through (s : Setting) (text : List Char) : s.fill text = s.through text ++ s.after := by
  simp [fill, through]

variable {s : Setting} {text text' : List Char}

theorem Holds.byteLength_quote (h : s.Holds text) : byteLength [s.quote] = 1 := by
  rcases h.quote with hq | hq <;> rw [hq] <;> decide

theorem Holds.byteLength_through (h : s.Holds text) (text' : List Char) :
    byteLength (s.through text') = byteLength s.before + byteLength text' + 2 := by
  have hcons : s.through text' = s.before ++ ([s.quote] ++ (text' ++ [s.quote])) := rfl
  rw [hcons, byteLength_append, byteLength_append, byteLength_append, h.byteLength_quote]
  omega

theorem Holds.sealed (h : s.Holds text) (front back : List Char) :
    Sealed (front ++ [s.quote]) [] ∧ Sealed [] (s.quote :: back) := by
  have hquote : isBlank s.quote = false ∧ s.quote ≠ '[' ∧ s.quote ∉ ['=', '>', ']'] := by
    rcases h.quote with hq | hq <;> rw [hq] <;> decide
  constructor
  · refine ⟨?_, by simp⟩
    intro c hc
    obtain rfl : s.quote = c := by simpa using hc
    exact ⟨hquote.1, hquote.2.1⟩
  · refine ⟨by simp, ?_⟩
    intro c hc
    obtain rfl : s.quote = c := by simpa using hc
    exact ⟨hquote.1, hquote.2.2⟩

theorem Holds.ascii (h : s.Holds text) : ∃ q, isQuote q ∧ utf8 [s.quote] = [q] := by
  rcases h.quote with hq | hq <;> rw [hq]
  · exact ⟨singleQuote, by decide, by decide⟩
  · exact ⟨doubleQuote, by decide, by decide⟩

theorem exists_of_literal {content : List Char} {l : Literal}
    (hl : l ∈ literals .php (utf8 content) ⟨0, byteLength content⟩) :
    ∃ s text, content = fill s text ∧ s.Holds text ∧ l.body = s.body text := by
  rw [literals, scope_whole] at hl
  obtain ⟨front, q, bytes, back, hls, rfl⟩ := Literal.mem_ofLexemes hl
  have hmem : Lexeme.literal (q :: bytes) ∈ Code.lexemes .php isQuote (utf8 content) := by
    rw [hls]
    exact List.mem_append_right _ List.mem_cons_self
  obtain ⟨quote, body, hquote, heq⟩ := lexemes_quoted _ _ _ _ hmem _ rfl
  obtain ⟨rfl, rfl⟩ := List.cons.inj heq
  have hbytes : utf8 content = front.flatMap Lexeme.bytes ++ q :: (body ++ q :: back.flatMap Lexeme.bytes) := by
    rw [← lexemes_spell .php isQuote (utf8 content), hls, List.flatMap_append, List.flatMap_cons]
    simp [Lexeme.bytes]
  obtain ⟨before, c, rest, rfl, hbefore, hc, hrest⟩ := utf8_split_ascii hbytes (isQuote_ascii hquote)
  obtain ⟨text, c', after, rfl, htext, hc', hafter⟩ := utf8_split_ascii hrest (isQuote_ascii hquote)
  obtain rfl : c' = c := List.singleton_inj.mp (utf8_inj (hc'.trans hc.symm))
  have hquoted : utf8 (c' :: (text ++ [c'])) = q :: (body ++ [q]) := by
    rw [← List.singleton_append, utf8_append, utf8_append, hc, htext]
    rfl
  have hchar : c' = '\'' ∨ c' = '"' := by
    have hcode := toNat_of_mem_utf8 (hc ▸ List.mem_singleton_self q) (isQuote_ascii hquote)
    simp only [isQuote, Bool.or_eq_true, beq_iff_eq] at hquote
    rcases hquote with rfl | rfl
    · exact .inr (Char.toNat_inj.mp hcode)
    · exact .inl (Char.toNat_inj.mp hcode)
  refine ⟨⟨before, c', after, front, back⟩, text, rfl, ⟨hchar, hbefore, hafter, ?_⟩, ?_⟩
  · rw [literal, hquoted]
    exact hls
  · have hstart : (front.flatMap Lexeme.bytes).length = byteLength before := by rw [← hbefore, length_utf8]
    have hlength : body.length = byteLength text := by rw [← htext, length_utf8]
    simp only [Setting.body, hstart, hlength, List.length_append, List.length_singleton, Nat.zero_add, Nat.add_assoc,
      Nat.add_comm 1]

theorem literal_eq {q : UInt8} (hq : utf8 [s.quote] = [q]) (text : List Char) :
    s.literal text = .literal (q :: (utf8 text ++ [q])) := by
  rw [literal, ← List.singleton_append, utf8_append, utf8_append, hq]
  rfl

theorem Holds.utf8_fill (h : s.Holds text) (text' : List Char) :
    utf8 (s.fill text') = (s.front ++ s.literal text' :: s.back).flatMap Lexeme.bytes := by
  rw [fill_eq, List.flatMap_append, List.flatMap_cons, ← h.before, ← h.after, literal, Lexeme.bytes,
    ← utf8_append, ← utf8_append]
  congr 1
  simp

theorem utf8_letters (n : ℕ) : utf8 (List.replicate n 'x') = List.replicate n 0x78 := by
  induction n with
  | zero => rfl
  | succ n ih =>
    rw [List.replicate_succ, List.replicate_succ, ← ih]
    rfl

theorem closingLength?_letters {q : UInt8} (hq : isQuote q) (n : ℕ) (t : Bytes) :
    closingLength? q (List.replicate n 0x78 ++ q :: t) = some (n + 1) := by
  have hplain : q ≠ backslash ∧ 0x78 ≠ q := by
    constructor <;> rintro rfl <;> revert hq <;> decide
  induction n with
  | zero => rw [List.replicate_zero, List.nil_append, closingLength?_cons hplain.1, if_pos rfl]
  | succ n ih =>
    rw [List.replicate_succ, List.cons_append, closingLength?_cons (by decide), if_neg hplain.2, ih, Option.map_some]

theorem Holds.letters (h : s.Holds text) (n : ℕ) : s.Holds (List.replicate n 'x') := by
  refine ⟨h.quote, h.before, h.after, ?_⟩
  obtain ⟨q, hquote, hq⟩ := h.ascii
  have hls := h.lexemes
  rw [h.utf8_fill, literal_eq hq] at hls ⊢
  refine lexemes_change hls (leads_literal.mpr ⟨?_, hquote, ?_⟩)
  · apply commentLength?_cons_none
    · rintro ⟨-, rfl⟩
      exact absurd hquote (by decide)
    · rintro rfl
      exact absurd hquote (by decide)
  · rw [utf8_letters, List.append_assoc, List.singleton_append, closingLength?_letters hquote, List.length_append,
      List.length_replicate, List.length_singleton]

section

variable (h : s.Holds text) (h' : s.Holds text') (hlen : byteLength text' = byteLength text)

include hlen in
theorem length_literal (s : Setting) : (s.literal text').length = (s.literal text).length := by
  simp only [literal, Lexeme.length, Lexeme.bytes, length_utf8, byteLength_cons, byteLength_append, hlen]

include hlen in
theorem byteLength_fill (s : Setting) : byteLength (s.fill text') = byteLength (s.fill text) := by
  simp only [fill, byteLength_append, byteLength_cons, hlen]

include h h' hlen

theorem Holds.literals_eq : literals .php (utf8 (s.fill text')) ⟨0, byteLength (s.fill text')⟩ =
    literals .php (utf8 (s.fill text)) ⟨0, byteLength (s.fill text)⟩ := by
  obtain ⟨q, -, hq⟩ := h.ascii
  rw [literals, literals, scope_whole, scope_whole, h.lexemes, h'.lexemes]
  apply Literal.ofLexemes_append_congr
  intro offset
  have hlength := length_literal hlen s
  rw [literal_eq hq, literal_eq hq] at hlength ⊢
  simp only [Literal.ofLexemes, hlength, List.length_append, length_utf8, hlen]

theorem Holds.masked_flat : (masked (s.fill text')).map flatByte = (masked (s.fill text)).map flatByte := by
  have hblank : ∀ bs : Bytes, (Lexeme.literal bs).masked.map flatByte = List.replicate bs.length space := by
    intro bs
    have hmasked : (Lexeme.literal bs).masked = bs.map blank := rfl
    rw [hmasked, List.map_map, List.eq_replicate_iff]
    refine ⟨List.length_map _, ?_⟩
    intro x hx
    obtain ⟨b, -, rfl⟩ := List.mem_map.mp hx
    rcases blank_cases b with hb | hb <;> rw [Function.comp_apply, hb] <;> decide
  have hlength := length_literal hlen s
  simp only [masked_eq, h.lexemes, h'.lexemes, List.flatMap_append, List.flatMap_cons, List.map_append]
  rw [literal, literal, hblank, hblank]
  simp only [literal, Lexeme.length, Lexeme.bytes] at hlength
  rw [hlength]

theorem Holds.categoryBefore?_eq {l : Literal}
    (hl : l ∈ literals .php (utf8 (s.fill text)) ⟨0, byteLength (s.fill text)⟩) :
    categoryBefore? (masked (s.fill text')) l.start = categoryBefore? (masked (s.fill text)) l.start := by
  obtain ⟨w, hw, hfree⟩ := window_text hl
  rw [← h.literals_eq h' hlen] at hl
  obtain ⟨w', hw', hfree'⟩ := window_text hl
  exact categoryBefore?_congr (h.masked_flat h' hlen) hw' hw hfree' hfree

omit h' in
theorem Holds.getElem?_eq {i : ℕ} (hi : ¬ (s.body text).Contains i) :
    (utf8 (s.fill text'))[i]? = (utf8 (s.fill text))[i]? := by
  have hquote := h.byteLength_quote
  have hcut : byteLength (s.before ++ [s.quote]) = byteLength s.before + 1 := by rw [byteLength_append, hquote]
  simp only [Span.Contains, body, not_and_or, Nat.not_le, Nat.not_lt] at hi
  have hbytes : ∀ t, utf8 (s.fill t) = utf8 (s.before ++ [s.quote]) ++ (utf8 t ++ utf8 (s.quote :: s.after)) := by
    intro t
    rw [fill_eq, utf8_append, utf8_append t]
  rw [hbytes, hbytes]
  rcases hi with hi | hi
  · rw [List.getElem?_append_left (by rw [length_utf8]; omega), List.getElem?_append_left (by rw [length_utf8]; omega)]
  · have hbehind : ∀ t, byteLength t = byteLength text →
        (utf8 (s.before ++ [s.quote]) ++ (utf8 t ++ utf8 (s.quote :: s.after)))[i]? =
          (utf8 (s.quote :: s.after))[i - (byteLength s.before + 1) - byteLength text]? := by
      intro t ht
      rw [List.getElem?_append_right (by rw [length_utf8]; omega), length_utf8, hcut,
        List.getElem?_append_right (by rw [length_utf8]; omega), length_utf8, ht]
    rw [hbehind text' hlen, hbehind text rfl]

theorem Holds.at?_eq {l : Literal} (hl : l ∈ literals .php (utf8 (s.fill text)) ⟨0, byteLength (s.fill text)⟩)
    (hother : l.stop ≤ byteLength s.before ∨ (s.body text).stop < l.start) :
    Hit.at? (s.fill text') l.body = Hit.at? (s.fill text) l.body := by
  have hbounds := literals_bounds hl
  have hcut := literal_boundaries hl
  rw [← h.literals_eq h' hlen] at hl
  have hcut' := literal_boundaries hl
  rw [Hit.at?, Hit.at?]
  congr 1
  refine sliceBytes_congr hbounds.2.2.1 hcut' hcut fun i hstart hstop => h.getElem?_eq hlen ?_
  simp only [Span.Contains, body] at hother ⊢
  omega

omit h' in
theorem Holds.isArrayKey_eq {l : Literal} (hl : l ∈ literals .php (utf8 (s.fill text)) ⟨0, byteLength (s.fill text)⟩)
    (hother : l.stop ≤ byteLength s.before ∨ (s.body text).stop < l.start) :
    isArrayKey (s.fill text') l = isArrayKey (s.fill text) l := by
  obtain ⟨lit, ⟨x, y, hxy, hx⟩, hstop⟩ := literal_standsAt hl
  rw [← hx] at hstop
  rcases hother with hleft | hright
  · have hprefix : x ++ lit <+: s.before :=
      prefix_of_byteLength_le ⟨y, hxy.symm⟩ ⟨_, rfl⟩ (by rw [byteLength_append]; omega)
    obtain ⟨m, hm⟩ := hprefix
    have hkey : ∀ t, isArrayKey (s.fill t) l = keyed x m := by
      intro t
      have hfill : s.fill t = x ++ lit ++ (m ++ s.quote :: (t ++ s.quote :: s.after)) := by simp [fill, ← hm]
      rw [hfill, Code.isArrayKey_eq x lit _ hx.symm hstop]
      exact (h.sealed [] _).2.keyed_eq x m
    rw [hkey, hkey]
  · have hthrough := h.byteLength_through
    rw [body] at hright
    have hprefix : s.through text <+: x :=
      prefix_of_byteLength_le ⟨s.after, (fill_eq_through s text).symm⟩ ⟨lit ++ y, by rw [hxy, List.append_assoc]⟩ (by
        rw [hthrough]
        simp only at hright
        omega)
    obtain ⟨m, rfl⟩ := hprefix
    have hafter : s.after = m ++ (lit ++ y) := by
      rw [fill_eq_through, List.append_assoc, List.append_assoc] at hxy
      exact List.append_cancel_left hxy
    have hkey : ∀ t, byteLength t = byteLength text → isArrayKey (s.fill t) l = keyed m y := by
      intro t ht
      have hsame : byteLength (s.through t ++ m) = byteLength (s.through text ++ m) := by
        rw [byteLength_append, byteLength_append, hthrough, hthrough, ht]
      rw [fill_eq_through, hafter, ← List.append_assoc, ← List.append_assoc,
        Code.isArrayKey_eq (s.through t ++ m) lit y (by rw [hsame, hx]) (by rw [hsame, hstop])]
      have hsealed := (h.sealed (s.before ++ s.quote :: t) []).1.keyed_eq m y
      rwa [List.append_nil, List.append_assoc s.before] at hsealed
    rw [hkey text' hlen, hkey text rfl]

end

theorem piece_beside {α : Type} {c : α} {pre word post before rest : List α} (hword : c ∉ word)
    (h : pre ++ (word ++ post) = before ++ c :: rest) :
    (∃ m, before = pre ++ (word ++ m) ∧ post = m ++ c :: rest) ∨
      ∃ m, pre = before ++ c :: m ∧ rest = m ++ (word ++ post) := by
  rcases List.append_eq_append_iff.mp h with ⟨m, rfl, hm⟩ | ⟨m, rfl, hm⟩
  · rcases List.append_eq_append_iff.mp hm with ⟨k, rfl, hk⟩ | ⟨k, rfl, hk⟩
    · exact .inl ⟨k, rfl, hk⟩
    · cases k with
      | nil => exact .inl ⟨[], by simp, by simpa using hk.symm⟩
      | cons d k =>
        obtain ⟨rfl, -⟩ := List.cons.inj hk
        exact absurd (List.mem_append_right m List.mem_cons_self) hword
  · cases m with
    | nil =>
      cases word with
      | nil => exact .inl ⟨[], by simp, by simpa using hm.symm⟩
      | cons d word =>
        obtain ⟨rfl, -⟩ := List.cons.inj hm
        exact absurd List.mem_cons_self hword
    | cons d m =>
      obtain ⟨rfl, hrest⟩ := List.cons.inj hm
      exact .inr ⟨m, rfl, hrest⟩

theorem Holds.mem_headSpans (h : s.Holds text) {head : List HeadPart} (hhead : head ∈ excludedHeads) {span : Span}
    (hm : span ∈ headSpans head 0 none (s.fill text)) :
    (∀ text', byteLength text' = byteLength text → span ∈ headSpans head 0 none (s.fill text')) ∨
      ∃ m word n, text = m ++ (word ++ n) ∧ Spells head word ∧
        span = ⟨(s.body text).start + byteLength m, (s.body text).start + byteLength m + byteLength word⟩ := by
  obtain ⟨pre, word, post, hcs, hspells, hboundary, rfl⟩ := (mem_headSpans_iff hhead 0 none _ span).mp hm
  have hquote : s.quote ∉ word := by
    obtain ⟨middle, rfl, hmiddle⟩ := hspells.shape hhead
    have hmiddle' : s.quote ∉ middle := by
      intro hmem
      rcases h.quote with hq | hq
      · exact (hmiddle _ hmem).2.1 hq
      · exact (hmiddle _ hmem).2.2 hq
    have hends : s.quote ≠ 'p' ∧ s.quote ≠ '\x7b' := by rcases h.quote with hq | hq <;> rw [hq] <;> decide
    simp [hmiddle', hends]
  have hsize : s.quote.utf8Size = 1 := by simpa using h.byteLength_quote
  rcases piece_beside hquote hcs.symm with ⟨m, hbefore, -⟩ | ⟨m, rfl, hrest⟩
  · left
    intro text' _
    refine (mem_headSpans_iff hhead 0 none _ _).mpr
      ⟨pre, word, m ++ s.quote :: (text' ++ s.quote :: s.after), ?_, hspells, hboundary, rfl⟩
    simp [fill, hbefore]
  · rcases piece_beside hquote hrest.symm with ⟨n, htext, -⟩ | ⟨n, rfl, hafter⟩
    · right
      refine ⟨m, word, n, htext, hspells, ?_⟩
      simp only [body, byteLength_append, byteLength_cons, hsize, Nat.zero_add, Nat.add_assoc]
    · left
      intro text' hlen
      refine (mem_headSpans_iff hhead 0 none _ _).mpr
        ⟨s.before ++ s.quote :: (text' ++ s.quote :: n), word, post, ?_, hspells, ?_, ?_⟩
      · simp [fill, hafter]
      · have hlast : ∀ t, (s.before ++ s.quote :: (t ++ s.quote :: n)).getLast? = (s.quote :: n).getLast? := by
          intro t
          rw [← List.cons_append, ← List.append_assoc, List.getLast?_append_of_ne_nil _ (List.cons_ne_nil _ _)]
        rw [hlast] at hboundary ⊢
        exact hboundary
      · simp only [byteLength_append, byteLength_cons, hlen]

theorem Holds.masked_body (h : s.Holds text) {i : ℕ} (hi : (s.body text).Contains i) :
    (masked (s.fill text))[i]? ≠ some 0x7B := by
  have hlength : (s.front.flatMap Lexeme.masked).length = byteLength s.before := by
    rw [← length_utf8, h.before, List.length_flatMap, List.length_flatMap]
    simp only [length_masked]
  have hquoted : (utf8 (s.quote :: (text ++ [s.quote]))).length = byteLength text + 2 := by
    rw [← List.singleton_append, length_utf8, byteLength_append, byteLength_append, h.byteLength_quote]
    omega
  have hmasked : (s.literal text).masked = (utf8 (s.quote :: (text ++ [s.quote]))).map blank := rfl
  simp only [Span.Contains, body] at hi
  rw [masked_eq, h.lexemes, List.flatMap_append, List.flatMap_cons, List.getElem?_append_right (by omega), hmasked,
    List.getElem?_append_left (by rw [List.length_map]; omega)]
  intro hbrace
  obtain ⟨b, -, hb⟩ := List.mem_map.mp (List.mem_of_getElem? hbrace)
  rcases blank_cases b with hblank | hblank <;> rw [hblank] at hb <;> revert hb <;> decide

section

variable (h : s.Holds text) (h' : s.Holds text') (hlen : byteLength text' = byteLength text)

include h hlen

theorem Holds.mem_headSpans_of_inCode {head : List HeadPart} (hhead : head ∈ excludedHeads) {span : Span}
    (hm : span ∈ headSpans head 0 none (s.fill text)) (hcode : InCode (s.fill text) span) :
    span ∈ headSpans head 0 none (s.fill text') := by
  rcases h.mem_headSpans hhead hm with hstays | ⟨m, word, n, rfl, hspells, rfl⟩
  · exact hstays text' hlen
  · obtain ⟨middle, rfl, -⟩ := hspells.shape hhead
    refine absurd hcode.brace (h.masked_body ?_)
    have hpos := ('p').utf8Size_pos
    simp only [Span.Contains, body, byteLength_append, byteLength_cons]
    omega

include h'

theorem Holds.headSpans_iff
    (hcode : ∀ head ∈ excludedHeads, ∀ span ∈ headSpans head 0 none (s.fill text), InCode (s.fill text) span)
    (hp : 'p' ∉ text') {head : List HeadPart} (hhead : head ∈ excludedHeads) (span : Span) :
    span ∈ headSpans head 0 none (s.fill text') ↔ span ∈ headSpans head 0 none (s.fill text) := by
  constructor
  · intro hm
    rcases h'.mem_headSpans hhead hm with hstays | ⟨m, word, n, rfl, hspells, -⟩
    · exact hstays text hlen.symm
    · obtain ⟨middle, rfl, -⟩ := hspells.shape hhead
      exact absurd (List.mem_append_right m List.mem_cons_self) hp
  · intro hm
    exact h.mem_headSpans_of_inCode hlen hhead hm (hcode head hhead span hm)

theorem Holds.definitionSpan_eq {span : Span} (hcode : InCode (s.fill text) span) (hpos : 0 < span.stop) (stop : ℕ) :
    definitionSpan (utf8 (s.fill text')) stop span = definitionSpan (utf8 (s.fill text)) stop span := by
  obtain ⟨f, b, hls, hstop, hback⟩ := hcode.lexemes hpos
  have hsplit : f ++ ([.code 0x7B] ++ b) = s.front ++ s.literal text :: s.back := hls.symm.trans h.lexemes
  have hnot : s.literal text ∉ [Lexeme.code 0x7B] := by simp [literal]
  have hlength := length_literal hlen s
  rcases piece_beside hnot hsplit with ⟨m, hfront, rfl⟩ | ⟨m, rfl, hrest⟩
  · have hls' : Code.lexemes .php isQuote (utf8 (s.fill text')) = f ++ .code 0x7B :: (m ++ s.literal text' :: s.back) := by
      rw [h'.lexemes, hfront]
      simp
    have hback' : ∀ l ∈ m ++ s.literal text' :: s.back, l ≠ .code backquote := by
      simp only [List.forall_mem_append, List.forall_mem_cons] at hback ⊢
      exact ⟨hback.1, by simp [literal], hback.2.2⟩
    have hsame : ∀ depth, closerOffset? 0x7B 0x7D depth (s.literal text' :: s.back) =
        closerOffset? 0x7B 0x7D depth (s.literal text :: s.back) := by
      intro depth
      simp only [literal] at hlength
      simp only [literal, closerOffset?, hlength]
    rw [definitionSpan_of_lexemes hls hstop hback, definitionSpan_of_lexemes hls' hstop hback',
      closerOffset?_append_congr hsame]
  · have hls' : Code.lexemes .php isQuote (utf8 (s.fill text')) = (s.front ++ s.literal text' :: m) ++ .code 0x7B :: b := by
      rw [h'.lexemes, hrest]
      simp
    have hstop' : ((s.front ++ s.literal text' :: m).flatMap Lexeme.bytes).length + 1 = span.stop := by
      simp only [Lexeme.length] at hlength
      rw [← hstop]
      simp only [List.flatMap_append, List.flatMap_cons, List.length_append, hlength]
    rw [definitionSpan_of_lexemes hls hstop hback, definitionSpan_of_lexemes hls' hstop' hback]

end

end Setting

/-- The content with the letter `x` for each byte in the body of a literal. -/
def blot (content : List Char) (l : Literal) : List Char :=
  takeBytes l.body.start content ++ List.replicate (l.body.stop - l.body.start) 'x' ++ dropBytes l.body.stop content

theorem exists_setting {content : List Char} {l : Literal}
    (hl : l ∈ literals .php (utf8 content) ⟨0, byteLength content⟩) :
    ∃ (s : Setting) (text text' : List Char), content = s.fill text ∧ blot content l = s.fill text' ∧ s.Holds text ∧
      s.Holds text' ∧ byteLength text' = byteLength text ∧ 'p' ∉ text' ∧ l.body = s.body text := by
  obtain ⟨s, text, rfl, h, hbody⟩ := Setting.exists_of_literal hl
  have hcut : byteLength (s.before ++ [s.quote]) = byteLength s.before + 1 := by rw [byteLength_append, h.byteLength_quote]
  refine ⟨s, text, List.replicate (byteLength text) 'x', rfl, ?_, h, h.letters _, ?_, ?_, hbody⟩
  · rw [blot, hbody, Setting.body, Nat.add_sub_cancel_left, s.fill_eq, s.fill_eq, ← hcut, takeBytes_append, ← byteLength_append,
      ← List.append_assoc, dropBytes_append]
    simp
  · rw [← length_utf8, Setting.utf8_letters, List.length_replicate]
  · intro hmem
    have := List.eq_of_mem_replicate hmem
    revert this
    decide

theorem literals_apart {content : List Char} {l l' : Literal}
    (hl : l ∈ literals .php (utf8 content) ⟨0, byteLength content⟩)
    (hl' : l' ∈ literals .php (utf8 content) ⟨0, byteLength content⟩) (hne : l' ≠ l) :
    l'.stop ≤ l.start ∨ l.stop ≤ l'.start := by
  have hsymm : Std.Symm fun a b : Literal => a.stop ≤ b.start ∨ b.stop ≤ a.start := ⟨fun _ _ h => h.symm⟩
  have hpairs : (literals .php (utf8 content) ⟨0, byteLength content⟩).Pairwise
      fun a b => a.stop ≤ b.start ∨ b.stop ≤ a.start := (literals_pairwise _ _ _).imp Or.inl
  exact hpairs.forall hl' hl hne

theorem at?_filter_body {content : List Char} {l : Literal}
    (hl : l ∈ literals .php (utf8 content) ⟨0, byteLength content⟩) :
    (Hit.at? content l.body).filter (fun h => ¬ l.body.Contains h.offset) = none := by
  have hbounds := literals_bounds hl
  obtain ⟨hstart, hstop⟩ := literal_boundaries hl
  cases hat : Hit.at? content l.body with
  | none => rfl
  | some h =>
    have hinside := Hit.at?_bounds hbounds.2.2.1 hat
    have hpos := (Hit.at?_genuine hbounds.2.2.1 hstart hstop hat).offset_lt_stop
    have hcontains : l.body.Contains h.offset := by
      simp only [Span.Contains]
      omega
    simp [hcontains]

/-- The text of a literal has no part in finding the other literals, nor in whether they are array keys or stand in a call.
Where every head of a definition stands in code, it changes no hit but its own. -/
theorem extract_blot {content : List Char} {l : Literal}
    (hl : l ∈ literals .php (utf8 content) ⟨0, byteLength content⟩) :
    literals .php (utf8 (blot content l)) ⟨0, byteLength (blot content l)⟩ =
        literals .php (utf8 content) ⟨0, byteLength content⟩ ∧
      (∀ l' ∈ literals .php (utf8 content) ⟨0, byteLength content⟩, l' ≠ l →
        isArrayKey (blot content l) l' = isArrayKey content l' ∧
          categoryBefore? (masked (blot content l)) l'.start = categoryBefore? (masked content) l'.start) ∧
      ((∀ head ∈ excludedHeads, ∀ h ∈ headSpans head 0 none content, InCode content h) →
        (extract (blot content l)).filter (fun h => ¬ l.body.Contains h.offset) =
          (extract content).filter (fun h => ¬ l.body.Contains h.offset)) := by
  obtain ⟨s, text, text', rfl, hblot, h, h', hlen, hp, hbody⟩ := exists_setting hl
  have hother : ∀ l' ∈ literals .php (utf8 (s.fill text)) ⟨0, byteLength (s.fill text)⟩, l' ≠ l →
      l'.stop ≤ byteLength s.before ∨ (s.body text).stop < l'.start := by
    intro l' hl' hne
    have hapart := literals_apart hl hl' hne
    simp only [Literal.start, Literal.stop, hbody, Setting.body] at hapart ⊢
    omega
  rw [hblot]
  refine ⟨h.literals_eq h' hlen, fun l' hl' hne => ⟨?_, h.categoryBefore?_eq h' hlen hl'⟩, fun hcode => ?_⟩
  · exact h.isArrayKey_eq hlen hl' (hother l' hl' hne)
  have hoverlaps := overlaps_congr (fun head hhead span => h.headSpans_iff h' hlen hcode hp hhead span) (by
    intro head hhead span hm
    have hbounds := headSpans_bounds hhead 0 none _ span hm
    rw [Setting.byteLength_fill hlen, h.definitionSpan_eq h' hlen (hcode head hhead span hm) (by omega)])
  simp only [extract, extractRange, List.filter_filterMap, h.literals_eq h' hlen, hoverlaps]
  apply List.filterMap_congr
  intro l' hl'
  by_cases hne : l' = l
  · subst hne
    have hown : ∀ (b : Bool) (o : Option Hit), o.filter (fun h => ¬ l'.body.Contains h.offset) = none →
        (if b then none else o).filter (fun h => ¬ l'.body.Contains h.offset) = none := by
      intro b o ho
      cases b with
      | true => rfl
      | false => exact ho
    rw [hown _ _ (at?_filter_body hl)]
    exact hown _ _ (at?_filter_body (by rwa [h.literals_eq h' hlen]))
  · have hcategory := h.categoryBefore?_eq h' hlen hl'
    rw [masked, masked] at hcategory
    rw [h.isArrayKey_eq hlen hl' (hother l' hl' hne), Nat.sub_zero, hcategory, h.at?_eq h' hlen hl' (hother l' hl' hne)]

def braced : List Char := "public function rules(): array \x7b return '\x7d Log::info('; \x7d $x = 'Hi';".toList

theorem inCode_braced : ∀ head ∈ excludedHeads, ∀ h ∈ headSpans head 0 none braced, InCode braced h := by
  intro head hhead h hm
  obtain rfl : h = ⟨0, 32⟩ :=
    headSpan_of_single hhead [] "ublic function rules(): array ".toList " return '\x7d Log::info('; \x7d $x = 'Hi';".toList
      (by decide) (by decide) hm
  exact ⟨by decide +kernel, by decide +kernel⟩

theorem extract_blot_braced :
    ⟨singleQuote, ⟨41, 53⟩⟩ ∈ literals .php (utf8 braced) ⟨0, byteLength braced⟩ ∧
      (∀ head ∈ excludedHeads, ∀ h ∈ headSpans head 0 none braced, InCode braced h) ∧
      (extract (blot braced ⟨singleQuote, ⟨41, 53⟩⟩)).filter (fun h => ¬ (⟨41, 53⟩ : Span).Contains h.offset) =
        (extract braced).filter (fun h => ¬ (⟨41, 53⟩ : Span).Contains h.offset) := by
  have hl : ⟨singleQuote, ⟨41, 53⟩⟩ ∈ literals .php (utf8 braced) ⟨0, byteLength braced⟩ := by decide +kernel
  exact ⟨hl, inCode_braced, (extract_blot hl).2.2 inCode_braced⟩

end VisibleText.Code
