import Mathlib.Data.List.TakeWhile
import VisibleText.Proofs.Encoding
import VisibleText.Proofs.Heads
import VisibleText.Proofs.WordCharacters

/-!
Code without its comments. Blanking the comments changes neither the literals nor the mask, so it cannot change
which signature encloses a literal. Heads of definitions and the neighbours of array keys are looked for in the
code as written; they stay the same where no comment touches a head or stands next to a literal.
-/
namespace VisibleText.Code

def Lexeme.isComment : Lexeme → Bool
  | comment _ => true
  | _ => false

theorem exists_comment {l : Lexeme} (h : l.isComment = true) : ∃ c, l = .comment c := by
  cases l with
  | comment c => exact ⟨c, rfl⟩
  | code b => cases h
  | literal bs => cases h
  | unclosed bs => cases h

def blankComments (bs : Bytes) : Bytes :=
  (lexemes .php isQuote bs).flatMap fun
    | .comment c => c.map blank
    | l => l.bytes

def withoutComments (content : List Char) : List Char := (decode (blankComments (utf8 content))).toList

def uncommented (ls : List Lexeme) : List Lexeme := ls.flatMap (Lexeme.blanked Lexeme.isComment)

theorem blankComments_eq (bs : Bytes) :
    blankComments bs = (uncommented (lexemes .php isQuote bs)).flatMap Lexeme.bytes := by
  rw [blankComments, uncommented, List.flatMap_assoc]
  congr 1
  funext l
  rw [Lexeme.blanked_bytes]
  cases l <;> rfl

theorem utf8_withoutComments (content : List Char) : utf8 (withoutComments content) = blankComments (utf8 content) := by
  obtain ⟨cs, hcs⟩ := exists_blanked_text (d := .php) Lexeme.isComment (fun _ => rfl) content
  rw [withoutComments, blankComments_eq, uncommented, ← hcs, decode_utf8, String.toList_ofList]

theorem lexemes_withoutComments (content : List Char) :
    lexemes .php isQuote (utf8 (withoutComments content)) = uncommented (lexemes .php isQuote (utf8 content)) := by
  rw [utf8_withoutComments, blankComments_eq, uncommented, lexemes_blanked]
  rw [lexemes_spell]

theorem uncommented_append (as bs : List Lexeme) : uncommented (as ++ bs) = uncommented as ++ uncommented bs :=
  List.flatMap_append

theorem uncommented_cons {l : Lexeme} (h : l.isComment = false) (ls : List Lexeme) :
    uncommented (l :: ls) = l :: uncommented ls := by
  rw [uncommented, List.flatMap_cons, Lexeme.blanked, h]
  rfl

theorem uncommented_comment (c : Bytes) (ls : List Lexeme) :
    uncommented (.comment c :: ls) = (c.map blank).map .code ++ uncommented ls := rfl

theorem uncommented_of_none {ls : List Lexeme} (h : ∀ l ∈ ls, l.isComment = false) : uncommented ls = ls := by
  induction ls with
  | nil => rfl
  | cons l ls ih =>
    obtain ⟨hl, hls⟩ := List.forall_mem_cons.mp h
    rw [uncommented_cons hl, ih hls]

theorem length_uncommented (ls : List Lexeme) :
    ((uncommented ls).flatMap Lexeme.bytes).length = (ls.flatMap Lexeme.bytes).length := by
  induction ls with
  | nil => rfl
  | cons l ls ih =>
    rw [uncommented, blanked_spell, List.flatMap_cons, List.length_append, List.length_append, ← ih, uncommented]
    split_ifs
    · rw [List.length_map]
    · rfl

theorem byteLength_withoutComments (content : List Char) :
    byteLength (withoutComments content) = byteLength content := by
  rw [← length_utf8, utf8_withoutComments, blankComments_eq, length_uncommented, lexemes_spell, length_utf8]

theorem ofLexemes_code (offset : ℕ) (bs : Bytes) (ls : List Lexeme) :
    Literal.ofLexemes offset (bs.map .code ++ ls) = Literal.ofLexemes (offset + bs.length) ls := by
  induction bs generalizing offset with
  | nil => rfl
  | cons b bs ih =>
    rw [List.map_cons, List.cons_append, List.length_cons, Nat.add_comm bs.length, ← Nat.add_assoc, ← ih]
    rfl

theorem ofLexemes_uncommented (offset : ℕ) (ls : List Lexeme) :
    Literal.ofLexemes offset (uncommented ls) = Literal.ofLexemes offset ls := by
  induction ls generalizing offset with
  | nil => rfl
  | cons l ls ih =>
    by_cases hl : l.isComment
    · obtain ⟨c, rfl⟩ := exists_comment hl
      rw [uncommented_comment, ofLexemes_code, ih, List.length_map]
      rfl
    · rw [uncommented_cons (by simpa using hl)]
      exact Literal.ofLexemes_append_congr ih [l] offset

theorem masked_uncommented (ls : List Lexeme) : (uncommented ls).flatMap Lexeme.masked = ls.flatMap Lexeme.masked := by
  induction ls with
  | nil => rfl
  | cons l ls ih =>
    by_cases hl : l.isComment
    · obtain ⟨c, rfl⟩ := exists_comment hl
      rw [uncommented_comment, List.flatMap_append, List.flatMap_cons, ih, List.flatMap_map]
      congr 1
      exact List.flatMap_singleton' _
    · rw [uncommented_cons (by simpa using hl), List.flatMap_cons, List.flatMap_cons, ih]

theorem closerOffset?_uncommented (depth : ℕ) (ls : List Lexeme) :
    closerOffset? 0x7B 0x7D depth (uncommented ls) = closerOffset? 0x7B 0x7D depth ls := by
  induction ls generalizing depth with
  | nil => rfl
  | cons l ls ih =>
    by_cases hl : l.isComment
    · obtain ⟨c, rfl⟩ := exists_comment hl
      rw [uncommented_comment, closerOffset?_blanks (by decide) (by decide), ih]
      rfl
    · rw [uncommented_cons (by simpa using hl)]
      exact closerOffset?_append_congr ih [l] depth

section

variable {content : List Char} {front back : List Lexeme}

theorem utf8_content_split {l : Lexeme} (h : lexemes .php isQuote (utf8 content) = front ++ l :: back) :
    utf8 content = front.flatMap Lexeme.bytes ++ (l.bytes ++ back.flatMap Lexeme.bytes) := by
  rw [← lexemes_spell .php isQuote (utf8 content), h, List.flatMap_append, List.flatMap_cons]

theorem texts_at_literal {bs : Bytes} (h : lexemes .php isQuote (utf8 content) = front ++ .literal bs :: back) :
    ∃ before text after before' after', content = before ++ text ++ after ∧
      withoutComments content = before' ++ text ++ after' ∧ utf8 text = bs ∧
      utf8 before = front.flatMap Lexeme.bytes ∧ utf8 after = back.flatMap Lexeme.bytes ∧
      utf8 before' = (uncommented front).flatMap Lexeme.bytes ∧
      utf8 after' = (uncommented back).flatMap Lexeme.bytes := by
  have h' : lexemes .php isQuote (utf8 (withoutComments content)) =
      uncommented front ++ .literal bs :: uncommented back := by
    rw [lexemes_withoutComments, h, uncommented_append, uncommented_cons rfl]
  obtain ⟨hne, -⟩ := lexemes_cons_inv (lexemes_back h)
  obtain ⟨before, text, after, hcontent, hbefore, htext, hafter⟩ :=
    (leads_of_lexemes (lexemes_back h)).text hne rfl (utf8_content_split h)
  obtain ⟨before', text', after', hcontent', hbefore', htext', hafter'⟩ :=
    (leads_of_lexemes (lexemes_back h')).text hne rfl (utf8_content_split h')
  obtain rfl : text' = text := utf8_inj (htext'.trans htext.symm)
  exact ⟨before, text', after, before', after', hcontent, hcontent', htext, hbefore, hafter, hbefore', hafter'⟩

theorem texts_at_comment {c : Bytes} (h : lexemes .php isQuote (utf8 content) = front ++ .comment c :: back) :
    ∃ before text after before' after', content = before ++ text ++ after ∧
      withoutComments content = before' ++ blankChars text ++ after' ∧ utf8 text = c ∧
      utf8 before = front.flatMap Lexeme.bytes ∧ utf8 after = back.flatMap Lexeme.bytes ∧
      utf8 before' = (uncommented front).flatMap Lexeme.bytes ∧
      utf8 after' = (uncommented back).flatMap Lexeme.bytes := by
  obtain ⟨hne, -⟩ := lexemes_cons_inv (lexemes_back h)
  obtain ⟨before, text, after, hcontent, hbefore, htext, hafter⟩ :=
    (leads_of_lexemes (lexemes_back h)).text hne rfl (utf8_content_split h)
  have hblanks : utf8 (withoutComments content) = (uncommented front).flatMap Lexeme.bytes ++
      (utf8 (blankChars text) ++ (uncommented back).flatMap Lexeme.bytes) := by
    rw [utf8_withoutComments, blankComments_eq, h, uncommented_append, uncommented_comment, List.flatMap_append,
      List.flatMap_append, flatMap_bytes_code, utf8_blankChars, htext]
    rfl
  obtain ⟨b, bs, hbs⟩ := List.exists_cons_of_ne_nil hne
  have hfirst : utf8 (withoutComments content) = (uncommented front).flatMap Lexeme.bytes ++
      blank b :: (bs.map blank ++ (uncommented back).flatMap Lexeme.bytes) := by
    rw [hblanks, utf8_blankChars, htext, hbs]
    rfl
  have hascii : blank b < 0x80 := by rcases blank_cases b with hb | hb <;> rw [hb] <;> decide
  obtain ⟨before', x, more, hcontent', hbefore', -, -⟩ := utf8_split_ascii hfirst hascii
  have hmore : utf8 (x :: more) = utf8 (blankChars text) ++ (uncommented back).flatMap Lexeme.bytes := by
    rw [hcontent', utf8_append, hbefore'] at hblanks
    exact List.append_cancel_left hblanks
  obtain ⟨after', hsplit, hafter'⟩ := utf8_append_inv hmore
  refine ⟨before, text, after, before', after', hcontent, ?_, htext, hbefore, hafter, hbefore', hafter'⟩
  rw [hcontent', hsplit, List.append_assoc]

end

theorem first_comment (ls : List Lexeme) : (∀ l ∈ ls, l.isComment = false) ∨
    ∃ front c back, ls = front ++ .comment c :: back ∧ ∀ l ∈ front, l.isComment = false := by
  induction ls with
  | nil => exact .inl (by simp)
  | cons l ls ih =>
    by_cases hl : l.isComment
    · obtain ⟨c, rfl⟩ := exists_comment hl
      exact .inr ⟨[], c, ls, rfl, by simp⟩
    · have hl : l.isComment = false := by simpa using hl
      rcases ih with hnone | ⟨front, c, back, rfl, hfront⟩
      · exact .inl (List.forall_mem_cons.mpr ⟨hl, hnone⟩)
      · exact .inr ⟨l :: front, c, back, rfl, List.forall_mem_cons.mpr ⟨hl, hfront⟩⟩

theorem last_comment (ls : List Lexeme) : (∀ l ∈ ls, l.isComment = false) ∨
    ∃ front c back, ls = front ++ .comment c :: back ∧ ∀ l ∈ back, l.isComment = false := by
  rcases first_comment ls.reverse with hnone | ⟨front, c, back, hls, hfront⟩
  · exact .inl fun l hl => hnone l (List.mem_reverse.mpr hl)
  · refine .inr ⟨back.reverse, c, front.reverse, ?_, fun l hl => hfront l (List.mem_reverse.mp hl)⟩
    rw [← List.reverse_reverse ls, hls]
    simp

def commentSpans (offset : ℕ) : List Lexeme → List Span
  | [] => []
  | l :: ls =>
    let rest := commentSpans (offset + l.length) ls
    if l.isComment then ⟨offset, offset + l.length⟩ :: rest else rest

def comments (content : List Char) : List Span := commentSpans 0 (lexemes .php isQuote (utf8 content))

theorem mem_commentSpans (offset : ℕ) (front : List Lexeme) (c : Bytes) (back : List Lexeme) :
    ⟨offset + (front.flatMap Lexeme.bytes).length, offset + (front.flatMap Lexeme.bytes).length + c.length⟩ ∈
      commentSpans offset (front ++ .comment c :: back) := by
  induction front generalizing offset with
  | nil => exact List.mem_cons_self
  | cons l front ih =>
    have hrest := ih (offset + l.length)
    rw [List.flatMap_cons, List.length_append, ← Nat.add_assoc]
    rw [List.cons_append, commentSpans]
    split_ifs
    · exact List.mem_cons_of_mem _ hrest
    · exact hrest

theorem mem_comments {content : List Char} {front back : List Lexeme} {c : Bytes}
    (h : lexemes .php isQuote (utf8 content) = front ++ .comment c :: back) :
    ⟨(front.flatMap Lexeme.bytes).length, (front.flatMap Lexeme.bytes).length + c.length⟩ ∈ comments content := by
  have := mem_commentSpans 0 front c back
  rwa [Nat.zero_add, ← h] at this

/-- What two texts have in common around a head: the bytes from behind the last comment through the brace. -/
def Common (content content' : List Char) (h : Span) : Prop :=
  ∃ x y x' y' : List Char, ∃ shared rest rest' : Bytes, content = x ++ y ∧ content' = x' ++ y' ∧
    utf8 y = shared ++ rest ∧ utf8 y' = shared ++ rest' ∧ byteLength x = byteLength x' ∧
    x.getLast?.any Unicode.isWord = x'.getLast?.any Unicode.isWord ∧ byteLength x ≤ h.start ∧
    h.stop = byteLength x + shared.length

theorem Common.symm {content content' : List Char} {h : Span} (hc : Common content content' h) :
    Common content' content h := by
  obtain ⟨x, y, x', y', shared, rest, rest', hx, hx', hy, hy', hlen, hword, hstart, hstop⟩ := hc
  exact ⟨x', y', x, y, shared, rest', rest, hx', hx, hy', hy, hlen.symm, hword.symm, by omega, by omega⟩

theorem Common.mem_headSpans {content content' : List Char} {head : List HeadPart} {h : Span}
    (hc : Common content content' h) (hhead : head ∈ excludedHeads) (hm : h ∈ headSpans head 0 none content) :
    h ∈ headSpans head 0 none content' := by
  obtain ⟨x, y, x', y', shared, rest, rest', rfl, rfl, hy, hy', hlen, hword, hstart, hstop⟩ := hc
  obtain ⟨pre, text, post, heq, hspells, hboundary, rfl⟩ := (mem_headSpans_iff hhead 0 none _ h).mp hm
  simp only [Nat.zero_add] at hstart hstop
  obtain ⟨m, rfl⟩ := prefix_of_byteLength_le ⟨y, rfl⟩ ⟨text ++ post, heq.symm⟩ hstart
  rw [List.append_assoc] at heq
  obtain rfl := List.append_cancel_left heq
  have hshared : utf8 (m ++ text) = shared := by
    rw [← List.append_assoc, utf8_append] at hy
    refine List.append_inj_left hy ?_
    simp only [length_utf8, byteLength_append] at hstop ⊢
    omega
  rw [← hshared] at hy'
  obtain ⟨post', rfl, -⟩ := utf8_append_inv hy'
  refine (mem_headSpans_iff hhead 0 none _ _).mpr ⟨x' ++ m, text, post', by simp, hspells, ?_, ?_⟩
  · rw [Option.or_none] at hboundary ⊢
    rw [← hboundary, Unicode.atWordBoundary, Unicode.atWordBoundary]
    congr 1
    rw [List.getLast?_append, List.getLast?_append]
    cases m.getLast? with
    | none => exact hword.symm
    | some c => rfl
  · simp only [byteLength_append, hlen]

theorem not_word_of_last {cs : List Char} {init : Bytes} {b : UInt8} (h : utf8 cs = init ++ [b]) (hb : b.toNat < 48) :
    cs.getLast?.any Unicode.isWord = false := by
  have hascii : b < 0x80 := Nat.lt_trans hb (by decide)
  obtain ⟨before, c, after, rfl, -, hc, hafter⟩ := utf8_split_ascii h hascii
  obtain rfl : after = [] := byteLength_eq_zero.mp (by rw [← length_utf8, hafter]; rfl)
  have hcode : c.toNat = b.toNat := toNat_of_mem_utf8 (by rw [hc]; exact List.mem_singleton_self b) hascii
  rw [List.getLast?_concat, Option.any_some]
  exact Unicode.not_isWord_of_lt (by rw [hcode]; exact hb)

theorem behind_last_comment {content : List Char} {front back : List Lexeme}
    (h : lexemes .php isQuote (utf8 content) = front ++ back) (hback : back ≠ []) :
    ∃ x x' : List Char, ∃ shared : Bytes, front.flatMap Lexeme.bytes = utf8 x ++ shared ∧
      (uncommented front).flatMap Lexeme.bytes = utf8 x' ++ shared ∧ byteLength x' = byteLength x ∧
      (x = [] ∧ x' = [] ∨ (∃ c ∈ comments content, c.start < c.stop ∧ c.stop = byteLength x) ∧
        x.getLast?.any Unicode.isWord = false ∧ x'.getLast?.any Unicode.isWord = false) := by
  rcases last_comment front with hnone | ⟨f, c, g, rfl, hg⟩
  · exact ⟨[], [], front.flatMap Lexeme.bytes, rfl, by rw [uncommented_of_none hnone]; rfl, rfl, .inl ⟨rfl, rfl⟩⟩
  · rw [List.append_assoc, List.cons_append] at h
    have hcomment := mem_comments h
    obtain ⟨hne, hrest⟩ := lexemes_cons_inv (lexemes_back h)
    have hbehind : (g ++ back).flatMap Lexeme.bytes ≠ [] := by
      intro hnil
      rw [hnil, lexemes] at hrest
      exact hback (List.append_eq_nil_iff.mp hrest.symm).2
    obtain ⟨-, b, hb, hbyte⟩ := commentLength?_behind hbehind ((leads_comment hne).mp (leads_of_lexemes (lexemes_back h))) []
    obtain ⟨init, rfl⟩ := List.getLast?_eq_some_iff.mp hb
    obtain ⟨x, text, y, x', y', -, -, htext, hx, -, hx', -⟩ := texts_at_comment h
    have hend : utf8 (x ++ text) = (utf8 x ++ init) ++ [b] := by rw [utf8_append, htext, List.append_assoc]
    have hend' : utf8 (x' ++ blankChars text) = (utf8 x' ++ init.map blank) ++ [blank b] := by
      rw [utf8_append, utf8_blankChars, htext, List.map_append, List.append_assoc]
      rfl
    have hlength := congrArg List.length hx
    have hlength' := congrArg List.length hx'
    have htextLength := congrArg List.length htext
    simp only [length_utf8, length_uncommented] at hlength hlength' htextLength
    refine ⟨x ++ text, x' ++ blankChars text, g.flatMap Lexeme.bytes, ?_, ?_, ?_, .inr ⟨⟨_, hcomment, ?_, ?_⟩, ?_, ?_⟩⟩
    · rw [List.flatMap_append, List.flatMap_cons, utf8_append, hx, htext, List.append_assoc]
      rfl
    · rw [uncommented_append, uncommented_comment, uncommented_of_none hg, List.flatMap_append, List.flatMap_append,
        flatMap_bytes_code, utf8_append, utf8_blankChars, hx', htext, List.append_assoc]
    · have hblanks : byteLength (blankChars text) = byteLength text := by
        rw [← length_utf8, utf8_blankChars, List.length_map, length_utf8]
      rw [byteLength_append, byteLength_append, hlength, hlength', hblanks]
    · simp
    · rw [byteLength_append, hlength, htextLength]
    · exact not_word_of_last hend (by rcases hbyte with rfl | rfl <;> decide)
    · exact not_word_of_last hend' (by rcases blank_cases b with hblank | hblank <;> rw [hblank] <;> decide)

theorem common_of_inCode {content : List Char} {h : Span} (hcode : InCode content h) (hstart : h.start < h.stop)
    (hapart : ∀ c ∈ comments content, c.Disjoint h) : Common content (withoutComments content) h := by
  obtain ⟨front, back, hls, hstop, -⟩ := hcode.lexemes (by omega)
  have hls' : lexemes .php isQuote (utf8 (withoutComments content)) =
      uncommented front ++ .code 0x7B :: uncommented back := by
    rw [lexemes_withoutComments, hls, uncommented_append, uncommented_cons rfl]
  obtain ⟨x, x', shared, hx, hx', hlength, hlast⟩ := behind_last_comment hls (List.cons_ne_nil _ _)
  have hcontent := utf8_content_split hls
  have hcontent' := utf8_content_split hls'
  rw [hx, List.append_assoc, ← List.append_assoc shared] at hcontent
  rw [hx', List.append_assoc, ← List.append_assoc shared] at hcontent'
  obtain ⟨y, hy, hrest⟩ := utf8_append_inv hcontent
  obtain ⟨y', hy', hrest'⟩ := utf8_append_inv hcontent'
  have hsum := congrArg List.length hx
  rw [List.length_append, length_utf8] at hsum
  refine ⟨x, y, x', y', _, _, _, hy, hy', hrest, hrest', hlength.symm, ?_, ?_, ?_⟩
  · rcases hlast with ⟨rfl, rfl⟩ | ⟨-, hword, hword'⟩
    · rfl
    · rw [hword, hword']
  · rcases hlast with ⟨rfl, -⟩ | ⟨⟨c, hc, hpos, hcstop⟩, -⟩
    · exact Nat.zero_le _
    · have hnot := hapart c hc (max c.start h.start)
      simp only [Span.Contains] at hnot
      omega
  · simp only [Lexeme.bytes, List.length_append, List.length_singleton]
    omega

theorem definitionSpan_withoutComments {content : List Char} {h : Span} (hcode : InCode content h) (hpos : 0 < h.stop)
    (stop : ℕ) : definitionSpan (utf8 (withoutComments content)) stop h = definitionSpan (utf8 content) stop h := by
  obtain ⟨front, back, hls, hstop, hback⟩ := hcode.lexemes hpos
  have hls' : lexemes .php isQuote (utf8 (withoutComments content)) =
      uncommented front ++ .code 0x7B :: uncommented back := by
    rw [lexemes_withoutComments, hls, uncommented_append, uncommented_cons rfl]
  have hback' : ∀ l ∈ uncommented back, l ≠ .code backquote := by
    rintro l hl rfl
    obtain ⟨x, hx, hmem⟩ := List.mem_flatMap.mp hl
    by_cases hcomment : x.isComment
    · obtain ⟨c, rfl⟩ := exists_comment hcomment
      obtain ⟨b, hb, heq⟩ := List.mem_map.mp hmem
      obtain ⟨b', -, rfl⟩ := List.mem_map.mp hb
      have hblank : blank b' = backquote := Lexeme.code.inj heq
      rcases blank_cases b' with h | h <;> rw [h] at hblank <;> revert hblank <;> decide
    · rw [Lexeme.blanked, if_neg hcomment, List.mem_singleton] at hmem
      exact hback x hx hmem.symm
  rw [definitionSpan_of_lexemes hls hstop hback, definitionSpan_of_lexemes hls' (by rw [length_uncommented, hstop]) hback',
    closerOffset?_uncommented]

theorem trimEnd_ne_nil {cs : List Char} (h : cs.all isBlank = false) : trimEnd cs ≠ [] := by
  induction cs with
  | nil => cases h
  | cons c cs ih =>
    rw [List.all_cons, Bool.and_eq_false_iff] at h
    rw [trimEnd_cons]
    rcases h with hc | hcs
    · simp [hc]
    · simp [ih hcs]

theorem keyed_append_left (front : List Char) {before : List Char} (h : before.all isBlank = false) (after : List Char) :
    keyed (front ++ before) after = keyed before after := by
  have hne := trimEnd_ne_nil h
  have hlast : (trimEnd (front ++ before)).getLast? = (trimEnd before).getLast? := by
    rw [trimEnd_append, if_neg (by simpa using hne), List.getLast?_append_of_ne_nil _ hne]
  rw [keyed, keyed, hlast]

theorem trimStart_ne_nil {cs : List Char} (h : cs.all isBlank = false) : trimStart cs ≠ [] := by
  intro hnil
  rw [trimStart, List.dropWhile_eq_nil_iff, ← List.all_eq_true, h] at hnil
  cases hnil

theorem mem_blankChars {cs : List Char} {x : Char} (h : x ∈ blankChars cs) : x = '\n' ∨ x = ' ' := by
  obtain ⟨c, -, hx⟩ := List.mem_flatMap.mp h
  split_ifs at hx
  · exact .inl (List.mem_singleton.mp hx)
  · exact .inr (List.eq_of_mem_replicate hx)

theorem head_ne_arrow {text : List Char} {t : Bytes} (hne : utf8 text ≠ [])
    (h : commentLength? .php (utf8 text ++ t) = some (utf8 text).length) (back back' : List Char) :
    (text ++ back).head? ≠ some '>' ∧ (blankChars text ++ back').head? ≠ some '>' := by
  constructor
  · intro hhead
    cases text with
    | nil => exact hne rfl
    | cons c cs =>
      obtain rfl : c = '>' := by simpa using hhead
      have hnone : commentLength? .php (utf8 ('>' :: cs) ++ t) = none :=
        commentLength?_cons_none (by decide) (fun hslash => absurd hslash (by decide))
      rw [hnone] at h
      cases h
  · intro hhead
    have hblanks : blankChars text ≠ [] := by
      intro hnil
      have hbytes := utf8_blankChars text
      rw [hnil] at hbytes
      exact hne (List.map_eq_nil_iff.mp hbytes.symm)
    rw [List.head?_append_of_ne_nil _ hblanks] at hhead
    rcases mem_blankChars (List.mem_of_head? hhead) with h | h <;> revert h <;> decide

section

variable {content : List Char} {front back : List Lexeme} {before before' after after' : List Char}

theorem keyed_before (hls : lexemes .php isQuote (utf8 content) = front ++ back) (hback : back ≠ [])
    (hbefore : utf8 before = front.flatMap Lexeme.bytes)
    (hbefore' : utf8 before' = (uncommented front).flatMap Lexeme.bytes)
    (hapart : ∀ c ∈ comments content, c.stop ≤ byteLength before →
      (sliceBytes content c.stop (byteLength before)).all isBlank = false) (after : List Char) :
    keyed before' after = keyed before after := by
  obtain ⟨x, x', shared, hx, hx', -, hlast⟩ := behind_last_comment hls hback
  have hcontent : utf8 content = front.flatMap Lexeme.bytes ++ back.flatMap Lexeme.bytes := by
    rw [← lexemes_spell .php isQuote (utf8 content), hls, List.flatMap_append]
  rw [hx] at hbefore
  rw [hx'] at hbefore'
  obtain ⟨m, rfl, hm⟩ := utf8_append_inv hbefore
  obtain ⟨m', rfl, hm'⟩ := utf8_append_inv hbefore'
  obtain rfl : m' = m := utf8_inj (hm'.trans hm.symm)
  rcases hlast with ⟨rfl, rfl⟩ | ⟨⟨c, hc, -, hstop⟩, -⟩
  · rfl
  · rw [hx, ← hm, ← utf8_append] at hcontent
    obtain ⟨rest, rfl, -⟩ := utf8_append_inv hcontent
    have hstands : StandsAt (x ++ m' ++ rest) (byteLength x) m' := ⟨x, rest, rfl, rfl⟩
    have hnonblank := hapart c hc (by rw [hstop, byteLength_append]; omega)
    rw [hstop, byteLength_append, hstands.sliceBytes_eq] at hnonblank
    rw [keyed_append_left _ hnonblank, keyed_append_left _ hnonblank]

theorem keyed_after (hls : lexemes .php isQuote (utf8 content) = front ++ back)
    (hbefore : utf8 before = front.flatMap Lexeme.bytes) (hafter : utf8 after = back.flatMap Lexeme.bytes)
    (hbefore' : utf8 before' = (uncommented front).flatMap Lexeme.bytes)
    (hafter' : utf8 after' = (uncommented back).flatMap Lexeme.bytes)
    (hapart : ∀ c ∈ comments content, byteLength before ≤ c.start →
      (sliceBytes content (byteLength before) c.start).all isBlank = false) (text : List Char) :
    keyed text after' = keyed text after := by
  rcases first_comment back with hnone | ⟨f, c, g, rfl, hf⟩
  · rw [uncommented_of_none hnone, ← hafter] at hafter'
    rw [utf8_inj hafter']
  · rw [← List.append_assoc] at hls
    have hcomment := mem_comments hls
    obtain ⟨hne, -⟩ := lexemes_cons_inv (lexemes_back hls)
    have hlead := (leads_comment hne).mp (leads_of_lexemes (lexemes_back hls))
    obtain ⟨x, word, y, x', y', rfl, -, rfl, hx, hy, hx', hy'⟩ := texts_at_comment hls
    rw [List.flatMap_append, ← hbefore] at hx
    rw [uncommented_append, uncommented_of_none hf, List.flatMap_append, ← hbefore'] at hx'
    obtain ⟨n, rfl, hn⟩ := utf8_append_inv hx
    obtain ⟨n', rfl, hn'⟩ := utf8_append_inv hx'
    obtain rfl : n' = n := utf8_inj (hn'.trans hn.symm)
    obtain rfl : after = n' ++ (word ++ y) := by
      apply utf8_inj
      rw [hafter, List.flatMap_append, List.flatMap_cons, utf8_append, utf8_append, hn, hy]
      rfl
    obtain rfl : after' = n' ++ (blankChars word ++ y') := by
      apply utf8_inj
      rw [hafter', uncommented_append, uncommented_of_none hf, uncommented_comment, List.flatMap_append, List.flatMap_append,
        flatMap_bytes_code, utf8_append, utf8_append, utf8_blankChars, hn, hy']
    have hstart : ((front ++ f).flatMap Lexeme.bytes).length = byteLength before + byteLength n' := by
      rw [List.flatMap_append, ← hbefore, ← hn, List.length_append, length_utf8, length_utf8]
    have hstands : StandsAt (before ++ n' ++ word ++ y) (byteLength before) n' := ⟨before, word ++ y, by simp, rfl⟩
    rw [hstart] at hcomment
    have hnonblank := hapart _ hcomment (Nat.le_add_right _ _)
    simp only [hstands.sliceBytes_eq] at hnonblank
    obtain ⟨harrow, harrow'⟩ := head_ne_arrow hne hlead y y'
    rw [keyed_append_right _ (trimStart_ne_nil hnonblank) harrow, keyed_append_right _ (trimStart_ne_nil hnonblank) harrow']

end

theorem literals_withoutComments (content : List Char) :
    literals .php (utf8 (withoutComments content)) ⟨0, byteLength (withoutComments content)⟩ =
      literals .php (utf8 content) ⟨0, byteLength content⟩ := by
  rw [literals, literals, scope_whole, scope_whole, lexemes_withoutComments, ofLexemes_uncommented]

theorem masked_withoutComments (content : List Char) : masked (withoutComments content) = masked content := by
  rw [masked_eq, masked_eq, lexemes_withoutComments, masked_uncommented]

/-- Every head stands in code, no comment reaches into one, and none stands next to a literal. -/
structure CommentsApart (content : List Char) : Prop where
  heads : ∀ head ∈ excludedHeads, ∀ h ∈ headSpans head 0 none content ++ headSpans head 0 none (withoutComments content),
    InCode content h ∧ ∀ c ∈ comments content, c.Disjoint h
  before : ∀ l ∈ literals .php (utf8 content) ⟨0, byteLength content⟩, ∀ c ∈ comments content, c.stop ≤ l.start →
    (sliceBytes content c.stop l.start).all isBlank = false
  behind : ∀ l ∈ literals .php (utf8 content) ⟨0, byteLength content⟩, ∀ c ∈ comments content, l.stop ≤ c.start →
    (sliceBytes content l.stop c.start).all isBlank = false

section

variable {content : List Char} (h : CommentsApart content)

include h

theorem CommentsApart.overlaps_eq (s : Span) :
    (excludedDefinitions (withoutComments content) ⟨0, byteLength (withoutComments content)⟩).overlaps s =
      (excludedDefinitions content ⟨0, byteLength content⟩).overlaps s := by
  apply overlaps_congr
  · intro head hhead span
    constructor
    · intro hspan
      obtain ⟨hcode, hapart⟩ := h.heads head hhead span (List.mem_append_right _ hspan)
      have hbounds := headSpans_bounds hhead 0 none _ span hspan
      exact (common_of_inCode hcode hbounds.2.1 hapart).symm.mem_headSpans hhead hspan
    · intro hspan
      obtain ⟨hcode, hapart⟩ := h.heads head hhead span (List.mem_append_left _ hspan)
      have hbounds := headSpans_bounds hhead 0 none _ span hspan
      exact (common_of_inCode hcode hbounds.2.1 hapart).mem_headSpans hhead hspan
  · intro head hhead span hspan
    obtain ⟨hcode, -⟩ := h.heads head hhead span (List.mem_append_left _ hspan)
    have hbounds := headSpans_bounds hhead 0 none _ span hspan
    rw [byteLength_withoutComments, definitionSpan_withoutComments hcode (by omega)]

theorem CommentsApart.isArrayKey_eq {l : Literal} (hl : l ∈ literals .php (utf8 content) ⟨0, byteLength content⟩) :
    isArrayKey (withoutComments content) l = isArrayKey content l := by
  have hbefore := h.before l hl
  have hbehind := h.behind l hl
  rw [literals, scope_whole] at hl
  obtain ⟨front, q, body, back, hls, rfl⟩ := Literal.mem_ofLexemes hl
  obtain ⟨x, text, y, x', y', hcontent, hcontent', htext, hx, hy, hx', hy'⟩ := texts_at_literal hls
  have hfront : (front.flatMap Lexeme.bytes).length = byteLength x := by rw [← hx, length_utf8]
  have hfront' : byteLength x' = byteLength x := by rw [← length_utf8, hx', length_uncommented, hfront]
  have hbody : body.length + 1 = byteLength text := by rw [← length_utf8, htext, List.length_cons]
  simp only [Literal.start, Literal.stop, Nat.zero_add, Nat.add_sub_cancel, Nat.add_assoc, hfront, hbody] at hbefore hbehind
  have hkey : isArrayKey content ⟨q, ⟨byteLength x + 1, byteLength x + body.length⟩⟩ = keyed x y := by
    rw [hcontent]
    exact Code.isArrayKey_eq x text y rfl (by rw [← hbody]; rfl)
  have hkey' : isArrayKey (withoutComments content) ⟨q, ⟨byteLength x + 1, byteLength x + body.length⟩⟩ =
      keyed x' y' := by
    rw [hcontent', ← hfront']
    exact Code.isArrayKey_eq x' text y' rfl (by rw [← hbody]; rfl)
  have hthrough : utf8 (x ++ text) = (front ++ [Lexeme.literal (q :: body)]).flatMap Lexeme.bytes := by
    rw [utf8_append, hx, htext, List.flatMap_append]
    exact congrArg _ (List.append_nil _).symm
  have hthrough' : utf8 (x' ++ text) = (uncommented (front ++ [Lexeme.literal (q :: body)])).flatMap Lexeme.bytes := by
    rw [utf8_append, hx', htext, uncommented_append, List.flatMap_append]
    exact congrArg _ (List.append_nil _).symm
  rw [Nat.zero_add, hfront, hkey, hkey', keyed_before hls (List.cons_ne_nil _ _) hx hx' hbefore]
  refine keyed_after (by rw [hls, List.append_assoc]; rfl) hthrough hy hthrough' hy' ?_ x
  rw [byteLength_append]
  exact hbehind

end

theorem at?_withoutComments {content : List Char} {l : Literal}
    (hl : l ∈ literals .php (utf8 content) ⟨0, byteLength content⟩) :
    Hit.at? (withoutComments content) l.body = Hit.at? content l.body := by
  have hbounds := literals_bounds hl
  have hcut := literal_boundaries hl
  have hcut' := literal_boundaries ((literals_withoutComments content).symm ▸ hl)
  rw [literals, scope_whole] at hl
  obtain ⟨front, q, body, back, hls, rfl⟩ := Literal.mem_ofLexemes hl
  have hbytes := utf8_content_split hls
  have hbytes' : utf8 (withoutComments content) =
      (uncommented front).flatMap Lexeme.bytes ++ ((q :: body) ++ (uncommented back).flatMap Lexeme.bytes) := by
    refine utf8_content_split (l := .literal (q :: body)) ?_
    rw [lexemes_withoutComments, hls, uncommented_append, uncommented_cons rfl]
  rw [Hit.at?, Hit.at?]
  congr 1
  refine sliceBytes_congr hbounds.2.2.1 hcut' hcut ?_
  intro i hstart hstop
  simp only [Nat.zero_add] at hstart hstop
  have hinside : ∀ x y : Bytes, x.length = (front.flatMap Lexeme.bytes).length →
      (x ++ ((q :: body) ++ y))[i]? = (q :: body)[i - (front.flatMap Lexeme.bytes).length]? := by
    intro x y hx
    rw [List.getElem?_append_right (by omega), hx, List.getElem?_append_left (by rw [List.length_cons]; omega)]
  rw [hbytes, hbytes', hinside _ _ (length_uncommented front)]
  exact (hinside _ _ rfl).symm

theorem extract_withoutComments (content : List Char) :
    literals .php (utf8 (withoutComments content)) ⟨0, byteLength (withoutComments content)⟩ =
        literals .php (utf8 content) ⟨0, byteLength content⟩ ∧
      masked (withoutComments content) = masked content ∧
      (CommentsApart content → extract (withoutComments content) = extract content) := by
  refine ⟨literals_withoutComments content, masked_withoutComments content, fun h => ?_⟩
  have hmask : mask .php (utf8 (withoutComments content)) ⟨0, byteLength (withoutComments content)⟩ =
      mask .php (utf8 content) ⟨0, byteLength content⟩ := masked_withoutComments content
  simp only [extract, extractRange, literals_withoutComments, hmask, h.overlaps_eq]
  apply List.filterMap_congr
  intro l hl
  rw [h.isArrayKey_eq hl, at?_withoutComments hl]

def remarked : List Char := "public function rules(): array \x7b return 'a'; \x7d // Log::info(\n$x = 'Hi';".toList

theorem withoutComments_remarked :
    withoutComments remarked = "public function rules(): array \x7b return 'a'; \x7d              \n$x = 'Hi';".toList := by
  apply utf8_inj
  rw [utf8_withoutComments]
  decide +kernel

theorem commentsApart_remarked : CommentsApart remarked := by
  refine ⟨?_, by decide +kernel, by decide +kernel⟩
  intro head hhead h hm
  obtain rfl : h = ⟨0, 32⟩ := by
    rcases List.mem_append.mp hm with hm | hm
    · exact headSpan_of_single hhead [] "ublic function rules(): array ".toList
        " return 'a'; \x7d // Log::info(\n$x = 'Hi';".toList (by decide) (by decide) hm
    · rw [withoutComments_remarked] at hm
      exact headSpan_of_single hhead [] "ublic function rules(): array ".toList
        " return 'a'; \x7d              \n$x = 'Hi';".toList (by decide) (by decide) hm
  refine ⟨⟨by decide +kernel, by decide +kernel⟩, ?_⟩
  have hcomments : comments remarked = [⟨47, 61⟩] := by decide +kernel
  rw [hcomments]
  intro c hc n hn
  obtain rfl := List.mem_singleton.mp hc
  simp only [Span.Contains] at hn
  omega

theorem extract_withoutComments_remarked :
    CommentsApart remarked ∧ extract (withoutComments remarked) = extract remarked :=
  ⟨commentsApart_remarked, (extract_withoutComments remarked).2.2 commentsApart_remarked⟩

end VisibleText.Code
