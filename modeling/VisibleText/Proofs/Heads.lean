import VisibleText.Proofs.Blanking
import VisibleText.Proofs.CodeLocality

namespace VisibleText.Code

inductive Spells : List HeadPart → List Char → Prop
  | last {part : HeadPart} (hpart : part.blankAfter = false) : Spells [part] part.text.toList
  | cons {part : HeadPart} {parts : List HeadPart} {blanks text : List Char} (hblanks : ∀ c ∈ blanks, isBlank c)
      (hafter : part.blankAfter → blanks ≠ []) (hparts : parts ≠ []) (htext : Spells parts text) :
      Spells (part :: parts) (part.text.toList ++ (blanks ++ text))

structure IsHead (head : List HeadPart) : Prop where
  parts : ∀ part ∈ head, part.text.toList ≠ [] ∧ part.text.toList.all (!isBlank ·)
  last : ∃ part ∈ head.getLast?, part.blankAfter = false

def visible (head : List HeadPart) : List Char := head.flatMap fun part => part.text.toList

theorem isHead_of_excluded {head : List HeadPart} (h : head ∈ excludedHeads) : IsHead head := by
  have hall : ∀ head ∈ excludedHeads, (∀ part ∈ head, part.text.toList ≠ [] ∧ part.text.toList.all (!isBlank ·)) ∧
      ∃ part ∈ head.getLast?, part.blankAfter = false := by
    decide
  exact ⟨(hall head h).1, (hall head h).2⟩

section

variable {head : List HeadPart} {text : List Char}

theorem IsHead.tail {part : HeadPart} {parts : List HeadPart} (h : IsHead (part :: parts)) (hparts : parts ≠ []) :
    IsHead parts := by
  refine ⟨fun p hp => h.parts p (List.mem_cons_of_mem part hp), ?_⟩
  obtain ⟨p, hp, hlast⟩ := h.last
  refine ⟨p, ?_, hlast⟩
  rwa [List.getLast?_cons_of_ne_nil hparts] at hp

theorem Spells.filter_visible (h : Spells head text) (hhead : IsHead head) :
    text.filter (!isBlank ·) = visible head := by
  induction h with
  | @last part hpart =>
    obtain ⟨-, hall⟩ := hhead.parts part List.mem_cons_self
    rw [List.filter_eq_self.mpr (List.all_eq_true.mp hall)]
    exact (List.append_nil _).symm
  | @cons part parts blanks text hblanks hafter hparts htext ih =>
    obtain ⟨-, hall⟩ := hhead.parts part List.mem_cons_self
    have hnone : blanks.filter (!isBlank ·) = [] := by
      apply List.filter_eq_nil_iff.mpr
      intro c hc
      simp [hblanks c hc]
    rw [List.filter_append, List.filter_append, hnone, List.filter_eq_self.mpr (List.all_eq_true.mp hall),
      ih (hhead.tail hparts)]
    rfl

theorem Spells.exists_cons (h : Spells head text) (hhead : IsHead head) :
    ∃ c cs, text = c :: cs ∧ isBlank c = false ∧ (visible head).head? = some c := by
  have hfirst : ∀ {part : HeadPart} {parts : List HeadPart}, IsHead (part :: parts) →
      ∃ c cs, part.text.toList = c :: cs ∧ isBlank c = false ∧ (visible (part :: parts)).head? = some c := by
    intro part parts hhead
    obtain ⟨hne, hall⟩ := hhead.parts part List.mem_cons_self
    obtain ⟨c, cs, hcs⟩ := List.exists_cons_of_ne_nil hne
    rw [hcs, List.all_cons, Bool.and_eq_true, Bool.not_eq_true'] at hall
    exact ⟨c, cs, hcs, hall.1, by rw [visible, List.flatMap_cons, hcs]; rfl⟩
  cases h with
  | last hpart => exact hfirst hhead
  | cons hblanks hafter hparts htext =>
    obtain ⟨c, cs, hcs, hc⟩ := hfirst hhead
    exact ⟨c, _, by rw [hcs, List.cons_append], hc⟩

theorem Spells.getLast?_eq (h : Spells head text) (hhead : IsHead head) : text.getLast? = (visible head).getLast? := by
  induction h with
  | last hpart => exact congrArg List.getLast? (List.append_nil _).symm
  | @cons part parts blanks text hblanks hafter hparts htext ih =>
    have hrest := ih (hhead.tail hparts)
    obtain ⟨c, cs, rfl, -⟩ := htext.exists_cons (hhead.tail hparts)
    have hvisible : visible (part :: parts) = part.text.toList ++ visible parts := rfl
    rw [hvisible, List.getLast?_append, List.getLast?_append, List.getLast?_append, ← hrest, List.getLast?_cons]
    rfl

theorem afterHead?_append (part : HeadPart) (parts : List HeadPart) (more : List Char) :
    afterHead? (part :: parts) (part.text.toList ++ more) =
      if part.blankAfter && !(more.head?.any isBlank) then none
      else afterHead? parts (if parts.isEmpty then more else trimStart more) := by
  have hdrop : (part.text.toList ++ more).drop part.text.length = more := by
    rw [← String.length_toList, List.drop_left]
  rw [afterHead?, if_pos (List.isPrefixOf_iff_prefix.mpr (List.prefix_append _ more))]
  simp only [hdrop]

theorem Spells.afterHead? (h : Spells head text) (hhead : IsHead head) (rest : List Char) :
    afterHead? head (text ++ rest) = some rest := by
  induction h with
  | last hpart =>
    rw [afterHead?_append, hpart]
    rfl
  | @cons part parts blanks text hblanks hafter hparts htext ih =>
    obtain ⟨c, cs, rfl, hc, -⟩ := htext.exists_cons (hhead.tail hparts)
    have hblank : (part.blankAfter && !((blanks ++ c :: cs ++ rest).head?.any isBlank)) = false := by
      cases hpart : part.blankAfter with
      | false => rfl
      | true =>
        obtain ⟨b, bs, rfl⟩ := List.exists_cons_of_ne_nil (hafter hpart)
        simpa using hblanks b List.mem_cons_self
    have htrim : trimStart (blanks ++ c :: cs ++ rest) = c :: cs ++ rest := by
      rw [List.append_assoc, trimStart, List.dropWhile_append_of_pos hblanks, List.cons_append,
        List.dropWhile_cons_of_neg (by simpa using hc)]
    rw [List.append_assoc, afterHead?_append, hblank, htrim, if_neg Bool.false_ne_true, if_neg (by simpa using hparts)]
    exact ih (hhead.tail hparts)

theorem spells_of_afterHead? (hhead : IsHead head) {cs rest : List Char} (h : afterHead? head cs = some rest) :
    ∃ text, cs = text ++ rest ∧ Spells head text := by
  induction head generalizing cs with
  | nil =>
    obtain ⟨part, hpart, -⟩ := hhead.last
    cases hpart
  | cons part parts ih =>
    obtain ⟨more, rfl⟩ : part.text.toList <+: cs := by
      by_contra hno
      rw [afterHead?, if_neg (fun hprefix => hno (List.isPrefixOf_iff_prefix.mp hprefix))] at h
      cases h
    rw [afterHead?_append] at h
    split_ifs at h with hblank hparts
    · obtain rfl := List.isEmpty_iff.mp hparts
      obtain ⟨part', hpart', hlast⟩ := hhead.last
      obtain rfl : part = part' := by simpa using hpart'
      obtain rfl : more = rest := Option.some.inj h
      exact ⟨_, rfl, .last hlast⟩
    · have hparts : parts ≠ [] := by simpa using hparts
      obtain ⟨text, htext, hspells⟩ := ih (hhead.tail hparts) h
      have hmore : more = more.takeWhile isBlank ++ (text ++ rest) := by
        rw [← htext, trimStart, List.takeWhile_append_dropWhile]
      refine ⟨part.text.toList ++ (more.takeWhile isBlank ++ text), ?_, .cons ?_ ?_ hparts hspells⟩
      · conv_lhs => rw [hmore]
        simp only [List.append_assoc]
      · exact List.all_eq_true.mp List.all_takeWhile
      · intro hafter
        cases more with
        | nil => simp [hafter] at hblank
        | cons c more =>
          have hc : isBlank c = true := by simpa [hafter] using hblank
          simp [hc]

theorem Spells.shape (hhead : head ∈ excludedHeads) (h : Spells head text) :
    ∃ middle, text = 'p' :: (middle ++ ['\x7b']) ∧ ∀ c ∈ middle, c ≠ 'p' ∧ c ≠ '\'' ∧ c ≠ '"' := by
  have hall : ∀ head ∈ excludedHeads, (visible head).head? = some 'p' ∧ (visible head).getLast? = some '\x7b' ∧
      (visible head).count 'p' = 1 ∧ '\'' ∉ visible head ∧ '"' ∉ visible head := by
    decide
  obtain ⟨hfirst, hlast, hcount, hsingle, hdouble⟩ := hall head hhead
  have hfilter := h.filter_visible (isHead_of_excluded hhead)
  obtain ⟨c, cs, rfl, hc, hvisible⟩ := h.exists_cons (isHead_of_excluded hhead)
  obtain rfl : c = 'p' := Option.some.inj (hvisible.symm.trans hfirst)
  have hend := h.getLast?_eq (isHead_of_excluded hhead)
  rw [hlast] at hend
  obtain ⟨init, hinit⟩ := List.getLast?_eq_some_iff.mp hend
  cases init with
  | nil => cases (List.cons.inj hinit).1
  | cons c middle =>
    obtain ⟨rfl, rfl⟩ := List.cons.inj hinit
    have hquote : ∀ q, isBlank q = false → q ∉ visible head → q ∉ middle := by
      intro q hq hnone hmem
      apply hnone
      rw [← hfilter, List.mem_filter]
      exact ⟨by simp [hmem], by simp [hq]⟩
    have honce : 'p' ∉ middle := by
      rw [← hfilter, List.count_filter (by decide)] at hcount
      simpa [List.count_eq_zero] using hcount
    refine ⟨middle, rfl, ?_⟩
    intro c hmem
    refine ⟨?_, ?_, ?_⟩
    · rintro rfl
      exact honce hmem
    · rintro rfl
      exact hquote _ (by decide) hsingle hmem
    · rintro rfl
      exact hquote _ (by decide) hdouble hmem

theorem Spells.apart {pre text post first rest : List Char} (hhead : head ∈ excludedHeads) (h : Spells head text)
    (hfirst : Spells head first) (hpre : pre ≠ []) (heq : first ++ rest = pre ++ (text ++ post)) :
    ∃ between, pre = first ++ between ∧ rest = between ++ (text ++ post) := by
  rcases List.append_eq_append_iff.mp heq with ⟨between, hsplit, hrest⟩ | ⟨inside, hsplit, htext⟩
  · exact ⟨between, hsplit, hrest⟩
  · cases inside with
    | nil => exact ⟨[], by simpa using hsplit.symm, by simpa using htext.symm⟩
    | cons c inside =>
      -- the first letter of the head would stand inside the other one
      obtain ⟨middle, rfl, -⟩ := h.shape hhead
      obtain ⟨middle', rfl, hmiddle⟩ := hfirst.shape hhead
      obtain ⟨p, pre, rfl⟩ := List.exists_cons_of_ne_nil hpre
      obtain ⟨rfl, -⟩ := List.cons.inj htext
      obtain ⟨-, hinside⟩ := List.cons.inj hsplit
      have hmem : 'p' ∈ middle' ++ ['\x7b'] := by simp [hinside]
      rcases List.mem_append.mp hmem with hmem | hmem
      · exact absurd rfl (hmiddle _ hmem).1
      · exact absurd (List.mem_singleton.mp hmem) (by decide)

theorem getLast?_append_or {front : List Char} (hfront : front ≠ []) (pre : List Char) (before : Option Char) :
    (front ++ pre).getLast?.or before = pre.getLast?.or front.getLast? := by
  obtain ⟨c, cs, rfl⟩ := List.exists_cons_of_ne_nil hfront
  rw [List.getLast?_append, Option.or_assoc, List.getLast?_cons]
  rfl

theorem mem_headSpans_iff (hhead : head ∈ excludedHeads) (offset : ℕ) (before : Option Char) (cs : List Char) (h : Span) :
    h ∈ headSpans head offset before cs ↔ ∃ pre text post, cs = pre ++ (text ++ post) ∧ Spells head text ∧
      Unicode.atWordBoundary (pre.getLast?.or before) text.head? = true ∧
      h = ⟨offset + byteLength pre, offset + byteLength pre + byteLength text⟩ := by
  have hparts := isHead_of_excluded hhead
  fun_induction headSpans head offset before cs with
  | case1 offset before =>
    simp only [List.not_mem_nil, false_iff]
    rintro ⟨pre, text, post, hcs, hspells, -⟩
    obtain ⟨c, cs, rfl, -⟩ := hspells.exists_cons hparts
    simp at hcs
  | case2 offset before c more found rest hrest used stop ih =>
    simp only [found, dite_eq_ite] at hrest
    split_ifs at hrest with hboundary
    obtain ⟨first, hsplit, hfirst⟩ := spells_of_afterHead? hparts hrest
    obtain ⟨x, xs, hxs, -⟩ := hfirst.exists_cons hparts
    have hne : first ≠ [] := by simp [hxs]
    have hused : used = first.length := by simp [used, hsplit]
    have htake : (c :: more).take used = first := by rw [hused, hsplit, List.take_left]
    have hlast : (c :: more)[used - 1]? = first.getLast? := by
      rw [hsplit, hused, List.getLast?_eq_getElem?, List.getElem?_append_left (by simp [hxs])]
    have hdrop : more.drop (used - 1) = rest := by
      have : (c :: more).drop used = rest := by rw [hused, hsplit, List.drop_left]
      rw [← this, hused, hxs]
      rfl
    have hstop : stop = offset + byteLength first := by simp only [stop, htake]
    have hfound : first.head? = some c := by
      rw [hxs, (List.cons.inj (hsplit.trans (by rw [hxs, List.cons_append]))).1]
      rfl
    refine List.mem_cons.trans ((or_congr_right ih).trans ?_)
    rw [hlast, hdrop, hstop, hsplit]
    constructor
    · rintro (rfl | ⟨pre, text, post, rfl, hspells, hbefore, rfl⟩)
      · exact ⟨[], first, rest, rfl, hfirst, by rw [hfound]; exact hboundary, rfl⟩
      · refine ⟨first ++ pre, text, post, (List.append_assoc _ _ _).symm, hspells, ?_, ?_⟩
        · rwa [getLast?_append_or hne]
        · simp only [byteLength_append, Nat.add_assoc]
    · rintro ⟨pre, text, post, heq, hspells, hbefore, rfl⟩
      by_cases hpre : pre = []
      · subst hpre
        have hrest : rest = post := by
          have := hspells.afterHead? hparts post
          rw [← List.nil_append (text ++ post), ← heq, hfirst.afterHead? hparts] at this
          exact Option.some.inj this
        subst hrest
        exact .inl (by rw [List.append_cancel_right (heq.trans (List.nil_append _))]; rfl)
      · obtain ⟨between, rfl, hrest⟩ := hspells.apart hhead hfirst hpre heq
        refine .inr ⟨between, text, post, hrest, hspells, ?_, ?_⟩
        · rwa [getLast?_append_or hne] at hbefore
        · simp only [byteLength_append, Nat.add_assoc]
  | case3 offset before c more found hnone ih =>
    simp only [found, dite_eq_ite] at hnone
    refine Iff.trans ih ?_
    constructor
    · rintro ⟨pre, text, post, rfl, hspells, hboundary, rfl⟩
      refine ⟨[c] ++ pre, text, post, rfl, hspells, ?_, ?_⟩
      · rwa [getLast?_append_or (List.cons_ne_nil c [])]
      · simp only [byteLength_append, byteLength_cons, byteLength_nil, Nat.add_assoc, Nat.zero_add]
    · rintro ⟨pre, text, post, hcs, hspells, hboundary, rfl⟩
      cases pre with
      | nil =>
        obtain ⟨x, xs, rfl, -⟩ := hspells.exists_cons hparts
        obtain ⟨rfl, -⟩ := List.cons.inj hcs
        have hboundary : Unicode.atWordBoundary before (some c) = true := hboundary
        rw [if_pos hboundary, hcs, List.nil_append, hspells.afterHead? hparts] at hnone
        cases hnone
      | cons x pre =>
        obtain ⟨rfl, rfl⟩ := List.cons.inj hcs
        refine ⟨pre, text, post, rfl, hspells, ?_, ?_⟩
        · rwa [← List.singleton_append, getLast?_append_or (List.cons_ne_nil c [])] at hboundary
        · simp only [byteLength_cons, Nat.add_assoc]

end

theorem closerOffset?_append_congr {opener closer : UInt8} {back back' : List Lexeme}
    (h : ∀ depth, closerOffset? opener closer depth back = closerOffset? opener closer depth back')
    (front : List Lexeme) (depth : ℕ) :
    closerOffset? opener closer depth (front ++ back) = closerOffset? opener closer depth (front ++ back') := by
  induction front generalizing depth with
  | nil => exact h depth
  | cons l front ih =>
    cases l with
    | code b =>
      simp only [List.cons_append, closerOffset?, ih]
    | comment bs => simp only [List.cons_append, closerOffset?, ih]
    | literal bs => simp only [List.cons_append, closerOffset?, ih]
    | unclosed bs => rfl

theorem closerOffset?_blanks {opener closer : UInt8} (hopener : opener ≠ lineFeed ∧ opener ≠ space)
    (hcloser : closer ≠ lineFeed ∧ closer ≠ space) (depth : ℕ) (bs : Bytes) (ls : List Lexeme) :
    closerOffset? opener closer depth ((bs.map blank).map .code ++ ls) =
      (closerOffset? opener closer depth ls).map (· + bs.length) := by
  induction bs with
  | nil => exact Option.map_id'.symm
  | cons b bs ih =>
    have hb : blank b ≠ opener ∧ blank b ≠ closer := by
      rcases blank_cases b with hb | hb <;> rw [hb]
      · exact ⟨hopener.1.symm, hcloser.1.symm⟩
      · exact ⟨hopener.2.symm, hcloser.2.symm⟩
    simp only [List.map_cons, List.cons_append, closerOffset?, if_neg hb.1, if_neg hb.2, ih, Option.map_map]
    rfl

theorem lexemes_backquoted {d : Dialect} {bs : Bytes} (h : ∀ l ∈ lexemes d isQuote bs, l ≠ .code backquote) :
    lexemes d isQuoteOrBackquote bs = lexemes d isQuote bs := by
  fun_induction lexemes d isQuote bs with
  | case1 => simp [lexemes]
  | case2 b rest n hn ih =>
    obtain ⟨k, rfl⟩ : ∃ k, n = k + 1 := ⟨n - 1, by have := commentLength?_pos hn; omega⟩
    rw [lexemes_comment hn, List.drop_succ_cons]
    exact congrArg _ (ih fun l hl => h l (List.mem_cons_of_mem _ hl))
  | case3 b rest hn hq n hc ih =>
    rw [lexemes_literal hn (by simp [isQuoteOrBackquote, hq]) hc, ih fun l hl => h l (List.mem_cons_of_mem _ hl)]
  | case4 b rest hn hq hc => rw [lexemes_unclosed hn (by simp [isQuoteOrBackquote, hq]) hc]
  | case5 b rest hn hq ih =>
    have hb : b ≠ backquote := by
      rintro rfl
      exact h _ List.mem_cons_self rfl
    rw [lexemes_code hn (by simpa [isQuoteOrBackquote, hb] using hq), ih fun l hl => h l (List.mem_cons_of_mem _ hl)]

theorem partner?_of_lexemes {d : Dialect} {bs : Bytes} {front back : List Lexeme} {opener closer : UInt8}
    (h : lexemes d isQuote bs = front ++ .code opener :: back) (hcloser : closer? opener = some closer)
    (hback : ∀ l ∈ back, l ≠ .code backquote) :
    partner? d bs (front.flatMap Lexeme.bytes).length =
      (closerOffset? opener closer 0 back).map (· + ((front.flatMap Lexeme.bytes).length + 1)) := by
  have hdrop : bs.drop (front.flatMap Lexeme.bytes).length = opener :: back.flatMap Lexeme.bytes := by
    rw [← lexemes_spell d isQuote bs, h, List.flatMap_append, List.drop_left]
    rfl
  have hlexemes : lexemes d isQuote (back.flatMap Lexeme.bytes) = back := by
    rw [List.append_cons] at h
    exact lexemes_back h
  have hquotes : lexemes d isQuoteOrBackquote (back.flatMap Lexeme.bytes) = back := by
    rw [lexemes_backquoted (by rwa [hlexemes]), hlexemes]
  rw [partner?, hdrop]
  simp only [partnerAfter?, hcloser, hquotes, Option.bind_eq_bind, Option.bind_some]

theorem length_masked (l : Lexeme) : l.masked.length = l.bytes.length := by
  cases l <;> simp [Lexeme.masked, Lexeme.bytes]

theorem code_of_masked {ls : List Lexeme} {i : ℕ} {b : UInt8} (h : (ls.flatMap Lexeme.masked)[i]? = some b)
    (hfeed : b ≠ lineFeed) (hspace : b ≠ space) :
    ∃ front back, ls = front ++ .code b :: back ∧ (front.flatMap Lexeme.bytes).length = i := by
  have hblank : ∀ (bs : Bytes) (i : ℕ), (bs.map blank)[i]? ≠ some b := by
    intro bs i hb
    obtain ⟨c, -, hc⟩ := List.mem_map.mp (List.mem_of_getElem? hb)
    rcases blank_cases c with hcase | hcase
    · exact hfeed (hc.symm.trans hcase)
    · exact hspace (hc.symm.trans hcase)
  induction ls generalizing i with
  | nil => simp at h
  | cons l ls ih =>
    rw [List.flatMap_cons] at h
    by_cases hi : i < l.masked.length
    · rw [List.getElem?_append_left hi] at h
      cases l with
      | code c =>
        obtain rfl : i = 0 := by simpa [Lexeme.masked] using hi
        obtain rfl : c = b := by simpa [Lexeme.masked] using h
        exact ⟨[], ls, rfl, rfl⟩
      | comment bs => exact absurd h (hblank bs i)
      | literal bs => exact absurd h (hblank bs i)
      | unclosed bs => exact absurd h (hblank bs i)
    · rw [List.getElem?_append_right (by omega), length_masked] at h
      obtain ⟨front, back, rfl, hfront⟩ := ih h
      refine ⟨l :: front, back, rfl, ?_⟩
      rw [List.flatMap_cons, List.length_append, hfront, ← length_masked]
      omega

def masked (content : List Char) : Bytes := mask .php (utf8 content) ⟨0, byteLength content⟩

theorem masked_eq (content : List Char) :
    masked content = (lexemes .php isQuote (utf8 content)).flatMap Lexeme.masked := by
  rw [masked, mask, scope_whole]

/-- The opening brace at the end of the head is code, and no backquote behind it is. -/
structure InCode (content : List Char) (h : Span) : Prop where
  brace : (masked content)[h.stop - 1]? = some 0x7B
  backquotes : backquote ∉ (masked content).drop h.stop

theorem InCode.lexemes {content : List Char} {h : Span} (hcode : InCode content h) (hstop : 0 < h.stop) :
    ∃ front back, lexemes .php isQuote (utf8 content) = front ++ .code 0x7B :: back ∧
      (front.flatMap Lexeme.bytes).length + 1 = h.stop ∧ ∀ l ∈ back, l ≠ .code backquote := by
  have hbrace := hcode.brace
  rw [masked_eq] at hbrace
  obtain ⟨front, back, hls, hfront⟩ := code_of_masked hbrace (by decide) (by decide)
  refine ⟨front, back, hls, by omega, ?_⟩
  rintro l hl rfl
  apply hcode.backquotes
  have hlength : (front.flatMap Lexeme.masked ++ (Lexeme.code 0x7B).masked).length = h.stop := by
    have hsame : (front.flatMap Lexeme.masked).length = (front.flatMap Lexeme.bytes).length := by
      simp only [List.length_flatMap, length_masked]
    have hone : (Lexeme.code 0x7B).masked.length = 1 := rfl
    rw [List.length_append, hsame, hone]
    omega
  rw [masked_eq, hls, List.flatMap_append, List.flatMap_cons, ← List.append_assoc, List.drop_left' hlength]
  exact List.mem_flatMap.mpr ⟨_, hl, List.mem_singleton_self _⟩

theorem definitionSpan_of_lexemes {content : List Char} {h : Span} {front back : List Lexeme}
    (hls : Code.lexemes .php isQuote (utf8 content) = front ++ .code 0x7B :: back)
    (hstop : (front.flatMap Lexeme.bytes).length + 1 = h.stop) (hback : ∀ l ∈ back, l ≠ .code backquote) (stop : ℕ) :
    definitionSpan (utf8 content) stop h =
      match closerOffset? 0x7B 0x7D 0 back with
      | some n => ⟨h.start, h.stop + n + 1⟩
      | none => ⟨h.start, stop⟩ := by
  have hcloser : closer? 0x7B = some 0x7D := by decide
  have hpartner := partner?_of_lexemes hls hcloser hback
  have hplace : h.stop - 1 = (front.flatMap Lexeme.bytes).length := by omega
  rw [definitionSpan, hplace, hpartner, hstop]
  cases closerOffset? 0x7B 0x7D 0 back with
  | none => rfl
  | some n => simp only [Option.map_some, Nat.add_comm n]

theorem excludedDefinitions_covers_whole (content : List Char) (n : ℕ) :
    (excludedDefinitions content ⟨0, byteLength content⟩).Covers n ↔ ∃ head ∈ excludedHeads,
      ∃ h ∈ headSpans head 0 none content, (definitionSpan (utf8 content) (byteLength content) h).Contains n := by
  have hwhole := (standsAt_whole content).sliceBytes_eq
  rw [Nat.zero_add] at hwhole
  rw [excludedDefinitions_covers, hwhole]

theorem overlaps_congr {content content' : List Char}
    (hheads : ∀ head ∈ excludedHeads, ∀ h, h ∈ headSpans head 0 none content' ↔ h ∈ headSpans head 0 none content)
    (hends : ∀ head ∈ excludedHeads, ∀ h ∈ headSpans head 0 none content,
      definitionSpan (utf8 content') (byteLength content') h = definitionSpan (utf8 content) (byteLength content) h)
    (s : Span) : (excludedDefinitions content' ⟨0, byteLength content'⟩).overlaps s =
      (excludedDefinitions content ⟨0, byteLength content⟩).overlaps s := by
  rw [Bool.eq_iff_iff]
  refine (SpanSet.overlaps_ofSpans _ _).trans (Iff.trans ?_ (SpanSet.overlaps_ofSpans _ _).symm)
  refine exists_congr fun n => and_congr_right fun _ => ?_
  refine (excludedDefinitions_covers_whole content' n).trans (Iff.trans ?_ (excludedDefinitions_covers_whole content n).symm)
  refine exists_congr fun head => and_congr_right fun hhead => exists_congr fun h => ?_
  rw [hheads head hhead h]
  refine and_congr_right fun hh => ?_
  rw [hends head hhead h hh]

theorem headSpan_of_single {head : List HeadPart} (hhead : head ∈ excludedHeads) (before middle after : List Char)
    (hp : 'p' ∉ before ∧ 'p' ∉ middle) (hbrace : '\x7b' ∉ before ++ 'p' :: middle ∧ '\x7b' ∉ after) {h : Span}
    (hm : h ∈ headSpans head 0 none (before ++ 'p' :: middle ++ '\x7b' :: after)) :
    h = ⟨byteLength before, byteLength before + byteLength ('p' :: middle) + 1⟩ := by
  obtain ⟨pre, text, post, hcs, hspells, -, rfl⟩ := (mem_headSpans_iff hhead 0 none _ h).mp hm
  obtain ⟨m, rfl, -⟩ := hspells.shape hhead
  have hcut : before ++ 'p' :: middle ++ '\x7b' :: after = (pre ++ 'p' :: m) ++ '\x7b' :: post := by simpa using hcs
  obtain ⟨hfront, -, -⟩ := (List.append_cons_inj_of_notMem hbrace.1 hbrace.2).mp hcut
  obtain ⟨rfl, -, rfl⟩ := (List.append_cons_inj_of_notMem hp.1 hp.2).mp hfront
  have hone : byteLength ['\x7b'] = 1 := by decide
  rw [Nat.zero_add, ← List.cons_append, byteLength_append ('p' :: middle), hone, Nat.add_assoc]

end VisibleText.Code
