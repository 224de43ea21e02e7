import Mathlib.Data.List.Find
import Mathlib.Data.Option.Basic
import VisibleText.Proofs.Encoding
import VisibleText.Proofs.Heads
import VisibleText.Proofs.WordCharacters

namespace VisibleText.Code

def flatByte (b : UInt8) : UInt8 := if b = lineFeed then space else b

def flat (c : Char) : Char := if c = '\n' then ' ' else c

theorem flatByte_eq_iff {b k : UInt8} (hfeed : k ≠ lineFeed) (hspace : k ≠ space) : flatByte b = k ↔ b = k := by
  by_cases hb : b = lineFeed
  · simp [flatByte, hb, hfeed.symm, hspace.symm]
  · simp [flatByte, hb]

theorem utf8_flat (cs : List Char) : utf8 (cs.map flat) = (utf8 cs).map flatByte := by
  induction cs with
  | nil => rfl
  | cons c cs ih =>
    have hchar : utf8 [flat c] = (utf8 [c]).map flatByte := by
      by_cases hc : c = '\n'
      · subst hc
        decide
      · have hkept : ∀ b ∈ utf8 [c], flatByte b = b := by
          intro b hb
          apply if_neg
          rintro rfl
          exact hc (Char.toNat_inj.mp (toNat_of_mem_utf8 hb (by decide)))
        rw [flat, if_neg hc]
        exact ((List.map_congr_left hkept).trans (List.map_id _)).symm
    have hcons : ∀ (x : Char) (xs : List Char), utf8 (x :: xs) = utf8 [x] ++ utf8 xs := fun x xs => utf8_append [x] xs
    rw [List.map_cons, hcons (flat c), hcons c, hchar, ih, List.map_append]

theorem flat_eq_iff {c k : Char} (hfeed : k ≠ '\n') (hspace : k ≠ ' ') : flat c = k ↔ c = k := by
  by_cases hc : c = '\n'
  · simp [flat, hc, hfeed.symm, hspace.symm]
  · simp [flat, hc]

theorem isBlank_flat (c : Char) : isBlank (flat c) = isBlank c := by
  by_cases hc : c = '\n'
  · subst hc
    decide
  · rw [flat, if_neg hc]

theorem isWord_flat (c : Char) : Unicode.isWord (flat c) = Unicode.isWord c := by
  by_cases hc : c = '\n'
  · subst hc
    rw [Unicode.not_isWord_of_lt (by decide), Unicode.not_isWord_of_lt (by decide)]
  · rw [flat, if_neg hc]

theorem atWordBoundary_flat (before after : Option Char) :
    Unicode.atWordBoundary (before.map flat) (after.map flat) = Unicode.atWordBoundary before after := by
  have hany : ∀ c : Option Char, (c.map flat).any Unicode.isWord = c.any Unicode.isWord := by
    intro c
    cases c with
    | none => rfl
    | some c => rw [Option.map_some, Option.any_some, Option.any_some, isWord_flat]
  rw [Unicode.atWordBoundary, Unicode.atWordBoundary, hany, hany]

theorem isStemChar_flat (c : Char) : isStemChar (flat c) = isStemChar c := by
  by_cases hc : c = '\n'
  · subst hc
    decide
  · rw [flat, if_neg hc]

theorem freesName_flat (c : Char) : freesName (flat c) = freesName c := by
  by_cases hc : c = '\n'
  · subst hc
    rw [freesName, freesName, isWord_flat]
    rfl
  · rw [flat, if_neg hc]

theorem dropWhile_flat {p : Char → Bool} (hp : ∀ c, p (flat c) = p c) (cs : List Char) :
    (cs.map flat).dropWhile p = (cs.dropWhile p).map flat := by
  rw [List.dropWhile_map]
  congr 2
  funext c
  exact hp c

theorem trimStart_flat (cs : List Char) : trimStart (cs.map flat) = (trimStart cs).map flat :=
  dropWhile_flat isBlank_flat cs

def isSolid (word : List Char) : Bool := word.all fun c => c != '\n' && c != ' '

def Name.isSolid : Name → Bool
  | .oneOf names => names.all fun n => Code.isSolid n.toList
  | .stem s => Code.isSolid s.toList

def Shape.isSolid : Shape → Bool
  | .call _ name => name.isSolid
  | .statement keywords => keywords.all fun k => Code.isSolid k.toList

theorem signatures_solid : signatures.all (fun s => s.shape.isSolid) = true := by decide +kernel

theorem isPrefixOf_flat {word : List Char} (hword : isSolid word) (cs : List Char) :
    word.isPrefixOf (cs.map flat) = word.isPrefixOf cs := by
  induction word generalizing cs with
  | nil => rfl
  | cons w word ih =>
    simp only [isSolid, List.all_cons, Bool.and_eq_true, bne_iff_ne] at hword
    cases cs with
    | nil => rfl
    | cons c cs =>
      have hhead : (w == flat c) = (w == c) := by
        rw [Bool.eq_iff_iff, beq_iff_eq, beq_iff_eq, eq_comm, flat_eq_iff hword.1.1 hword.1.2, eq_comm]
      rw [List.map_cons, List.isPrefixOf, List.isPrefixOf, hhead, ih hword.2]

theorem after?_flat {word : List Char} (hword : isSolid word) (cs : List Char) :
    after? word (cs.map flat) = (after? word cs).map (List.map flat) := by
  rw [after?, after?, isPrefixOf_flat hword]
  split_ifs
  · rw [Option.map_some, List.map_drop]
  · rfl

theorem afterOpening?_flat (cs : List Char) : afterOpening? (cs.map flat) = (afterOpening? cs).map (List.map flat) := by
  rw [afterOpening?, afterOpening?, trimStart_flat, after?_flat (by decide)]

theorem findSome?_flat {words : List String} {f g : String → Option (List Char)}
    (h : ∀ w ∈ words, f w = (g w).map (List.map flat)) :
    words.findSome? f = (words.findSome? g).map (List.map flat) := by
  induction words with
  | nil => rfl
  | cons w words ih =>
    obtain ⟨hw, hwords⟩ := List.forall_mem_cons.mp h
    rw [List.findSome?_cons, List.findSome?_cons, hw, ih hwords]
    cases g w with
    | none => rfl
    | some rest => rfl

theorem Name.callAt?_flat {name : Name} (hname : name.isSolid) (cs : List Char) :
    name.callAt? (cs.map flat) = (name.callAt? cs).map (List.map flat) := by
  cases name with
  | oneOf names =>
    apply findSome?_flat
    intro n hn
    rw [after?_flat (List.all_eq_true.mp hname n hn)]
    cases after? n.toList cs with
    | none => rfl
    | some rest => exact afterOpening?_flat rest
  | stem s =>
    simp only [Name.callAt?]
    rw [after?_flat hname]
    cases after? s.toList cs with
    | none => rfl
    | some rest =>
      simp only [Option.map_some, Option.bind_eq_bind, Option.bind_some, dropWhile_flat isStemChar_flat, List.length_map]
      split_ifs
      · exact afterOpening?_flat _
      · rfl

theorem orElse_flat (a b : Option (List Char)) :
    (a.map (List.map flat) <|> b.map (List.map flat)) = (a <|> b).map (List.map flat) := by
  cases a with
  | none => rfl
  | some x => rfl

theorem Lead.callAt?_flat (lead : Lead) {name : Name} (hname : name.isSolid) (before : Option Char) (cs : List Char) :
    lead.callAt? name (before.map flat) (cs.map flat) = (lead.callAt? name before cs).map (List.map flat) := by
  have hcall := Name.callAt?_flat hname
  cases lead with
  | anywhere => exact hcall cs
  | boundary =>
    simp only [Lead.callAt?, List.head?_map, atWordBoundary_flat]
    split_ifs
    · exact hcall cs
    · rfl
  | free =>
    simp only [Lead.callAt?]
    rw [← orElse_flat]
    congr 1
    · rw [Option.isNone_map]
      split_ifs
      · exact hcall cs
      · rfl
    · funext _
      cases cs with
      | nil => rfl
      | cons c rest =>
        simp only [List.map_cons, freesName_flat]
        split_ifs
        · exact hcall rest
        · rfl
  | member =>
    simp only [Lead.callAt?]
    rw [after?_flat (by decide), after?_flat (by decide), orElse_flat]
    cases after? ['-', '>'] cs <|> after? [':', ':'] cs with
    | none => rfl
    | some rest =>
      simp only [Option.map_some, Option.bind_eq_bind, Option.bind_some, trimStart_flat]
      exact hcall _

theorem keywordAt?_flat {keywords : List String} (h : keywords.all fun k => isSolid k.toList) (before : Option Char)
    (cs : List Char) :
    keywordAt? keywords (before.map flat) (cs.map flat) = (keywordAt? keywords before cs).map (List.map flat) := by
  simp only [keywordAt?, List.head?_map, atWordBoundary_flat]
  split_ifs
  · apply findSome?_flat
    intro k hk
    rw [after?_flat (List.all_eq_true.mp h k hk)]
    cases after? k.toList cs with
    | none => rfl
    | some rest =>
      cases rest with
      | nil => rfl
      | cons c more =>
        simp only [Option.map_some, Option.bind_eq_bind, Option.bind_some, List.map_cons, isBlank_flat]
        split_ifs
        · rfl
        · rfl
  · rfl

theorem Shape.occursAt?_flat {shape : Shape} (h : shape.isSolid) (before : Option Char) (cs : List Char) :
    shape.occursAt? (before.map flat) (cs.map flat) = (shape.occursAt? before cs).map (List.map flat) := by
  cases shape with
  | call lead name => exact lead.callAt?_flat h before cs
  | statement keywords => exact keywordAt?_flat h before cs

theorem Shape.rests_flat {shape : Shape} (h : shape.isSolid) (before : Option Char) (cs : List Char) :
    shape.rests (before.map flat) (cs.map flat) = (shape.rests before cs).map (List.map flat) := by
  fun_induction Shape.rests shape before cs with
  | case1 before => simp [Shape.rests]
  | case2 before c more rest hrest used ih =>
    have hflat := Shape.occursAt?_flat h before (c :: more)
    rw [hrest, List.map_cons] at hflat
    rw [List.map_cons, Shape.rests, hflat]
    rw [List.map_drop, ← List.getElem?_map, List.map_cons] at ih
    simp only [Option.map_some, List.map_cons, List.length_cons, List.length_map, ← ih]
    rfl
  | case3 before c more hnone ih =>
    have hflat := Shape.occursAt?_flat h before (c :: more)
    rw [hnone, List.map_cons] at hflat
    rw [List.map_cons, Shape.rests, hflat]
    exact ih

def CommentFree (bs : Bytes) : Prop := ∀ t, t <:+ bs → commentLength? .php t = none

theorem CommentFree.back {as bs : Bytes} (h : CommentFree bs) (hs : as <:+ bs) : CommentFree as := fun t ht =>
  h t (ht.trans hs)

theorem CommentFree.front {as bs : Bytes} (h : CommentFree bs) (hp : as <+: bs) : CommentFree as := by
  obtain ⟨more, rfl⟩ := hp
  rintro t ⟨front, rfl⟩
  cases hn : commentLength? .php t with
  | none => rfl
  | some n =>
    obtain ⟨m, hm, -⟩ := commentLength?_append more hn
    have hnone := h (t ++ more) ⟨front, by rw [List.append_assoc]⟩
    rw [hm] at hnone
    cases hnone

theorem head?_flat_eq_iff {bs : Bytes} {k : UInt8} (hfeed : k ≠ lineFeed) (hspace : k ≠ space) :
    (bs.map flatByte).head? = some k ↔ bs.head? = some k := by
  cases bs with
  | nil => simp
  | cons b bs => simp [flatByte_eq_iff hfeed hspace]

theorem commentLength?_flat {bs : Bytes} (h : commentLength? .php bs = none) :
    commentLength? .php (bs.map flatByte) = none := by
  cases bs with
  | nil => rfl
  | cons b bs =>
    apply commentLength?_cons_none
    · rw [flatByte_eq_iff (by decide) (by decide)]
      simpa using (commentLength?_none h).2.2
    · rw [flatByte_eq_iff (by decide) (by decide)]
      rintro rfl
      rw [Ne, Ne, head?_flat_eq_iff (by decide) (by decide), head?_flat_eq_iff (by decide) (by decide)]
      exact commentLength?_slash_none h

section

variable {quote : UInt8} (hfeed : quote ≠ lineFeed) (hspace : quote ≠ space)

include hfeed hspace

theorem closingLength?_flat (bs : Bytes) : closingLength? quote (bs.map flatByte) = closingLength? quote bs := by
  fun_induction closingLength? quote bs with
  | case1 => rfl
  | case2 => rfl
  | case3 escaped rest ih =>
    have hback : flatByte backslash = backslash := by decide
    rw [List.map_cons, List.map_cons, hback, closingLength?_escaped, ih]
  | case4 bs hq =>
    rw [List.map_cons, (flatByte_eq_iff hfeed hspace).mpr rfl, closingLength?_cons hq, if_pos rfl]
  | case5 b bs hb hq ih =>
    rw [List.map_cons, closingLength?_cons (by rwa [Ne, flatByte_eq_iff (by decide) (by decide)]),
      if_neg (by rwa [flatByte_eq_iff hfeed hspace]), ih]

end

theorem isQuoteOrBackquote_flat (b : UInt8) : isQuoteOrBackquote (flatByte b) = isQuoteOrBackquote b := by
  by_cases hb : b = lineFeed
  · subst hb
    decide
  · rw [flatByte, if_neg hb]

theorem not_blank_of_quote {b : UInt8} (h : isQuoteOrBackquote b) : b ≠ lineFeed ∧ b ≠ space := by
  constructor
  · rintro rfl
    revert h
    decide
  · rintro rfl
    revert h
    decide

theorem closerOffset?_flat {bs : Bytes} (h : CommentFree bs) (depth : ℕ) :
    closerOffset? 0x28 0x29 depth (lexemes .php isQuoteOrBackquote (bs.map flatByte)) =
      closerOffset? 0x28 0x29 depth (lexemes .php isQuoteOrBackquote bs) := by
  fun_induction lexemes .php isQuoteOrBackquote bs generalizing depth with
  | case1 => simp [lexemes]
  | case2 b rest n hn ih =>
    rw [h _ List.suffix_rfl] at hn
    cases hn
  | case3 b rest hn hq n hc ih =>
    obtain ⟨hfeed, hspace⟩ := not_blank_of_quote hq
    have hn' := commentLength?_flat hn
    have hb : flatByte b = b := (flatByte_eq_iff hfeed hspace).mpr rfl
    rw [List.map_cons, hb] at hn' ⊢
    rw [lexemes_literal hn' hq ((closingLength?_flat hfeed hspace rest).trans hc)]
    rw [← List.map_drop, ← List.map_take]
    simp only [closerOffset?, Lexeme.length, Lexeme.bytes, List.length_cons, List.length_map]
    rw [ih (h.back ((List.drop_suffix n rest).trans (List.suffix_cons b rest)))]
  | case4 b rest hn hq hc =>
    obtain ⟨hfeed, hspace⟩ := not_blank_of_quote hq
    have hn' := commentLength?_flat hn
    have hb : flatByte b = b := (flatByte_eq_iff hfeed hspace).mpr rfl
    rw [List.map_cons, hb] at hn' ⊢
    rw [lexemes_unclosed hn' hq ((closingLength?_flat hfeed hspace rest).trans hc)]
    rfl
  | case5 b rest hn hq ih =>
    have hn' := commentLength?_flat hn
    rw [List.map_cons] at hn' ⊢
    rw [lexemes_code hn' (by rwa [isQuoteOrBackquote_flat])]
    have hrest := ih (h.back (List.suffix_cons b rest))
    have hopen : flatByte b = 0x28 ↔ b = 0x28 := flatByte_eq_iff (by decide) (by decide)
    have hclose : flatByte b = 0x29 ↔ b = 0x29 := flatByte_eq_iff (by decide) (by decide)
    simp only [closerOffset?, hopen, hclose, hrest]

theorem Shape.leavesOpen_flat (shape : Shape) {rest : List Char} (h : CommentFree (utf8 rest)) :
    shape.leavesOpen (rest.map flat) = shape.leavesOpen rest := by
  cases shape with
  | call lead name =>
    have hcloser : closer? 0x28 = some 0x29 := by decide
    simp only [leavesOpen, partnerAfter?, hcloser, Option.bind_eq_bind, Option.bind_some, utf8_flat, closerOffset?_flat h]
  | statement keywords =>
    have hmem : ';' ∈ rest.map flat ↔ ';' ∈ rest := by
      rw [List.mem_map]
      constructor
      · rintro ⟨c, hc, heq⟩
        rwa [(flat_eq_iff (by decide) (by decide)).mp heq] at hc
      · intro hc
        exact ⟨';', hc, by decide⟩
    simp only [leavesOpen, List.contains_eq_mem, hmem]

theorem after?_suffix {word cs rest : List Char} (h : after? word cs = some rest) : rest <:+ cs := by
  simp only [after?] at h
  split_ifs at h
  obtain rfl := Option.some.inj h
  exact List.drop_suffix _ _

theorem afterOpening?_suffix {cs rest : List Char} (h : afterOpening? cs = some rest) : rest <:+ cs :=
  (after?_suffix h).trans (List.dropWhile_suffix _)

theorem Name.callAt?_suffix {name : Name} {cs rest : List Char} (h : name.callAt? cs = some rest) : rest <:+ cs := by
  cases name with
  | oneOf names =>
    obtain ⟨n, -, hn⟩ := List.exists_of_findSome?_eq_some h
    obtain ⟨r, hr, hrest⟩ := Option.bind_eq_some_iff.mp hn
    exact (afterOpening?_suffix hrest).trans (after?_suffix hr)
  | stem s =>
    obtain ⟨r, hr, hrest⟩ := Option.bind_eq_some_iff.mp h
    simp only [] at hrest
    split_ifs at hrest
    exact (afterOpening?_suffix hrest).trans ((List.dropWhile_suffix _).trans (after?_suffix hr))

theorem Lead.callAt?_suffix {lead : Lead} {name : Name} {before : Option Char} {cs rest : List Char}
    (h : lead.callAt? name before cs = some rest) : rest <:+ cs := by
  cases lead with
  | anywhere => exact Name.callAt?_suffix h
  | boundary =>
    simp only [Lead.callAt?] at h
    split_ifs at h
    exact Name.callAt?_suffix h
  | free =>
    simp only [Lead.callAt?] at h
    rcases (Option.orElse_eq_some _ _ _).mp h with hhere | ⟨-, hnext⟩
    · split_ifs at hhere
      exact Name.callAt?_suffix hhere
    · cases cs with
      | nil => cases hnext
      | cons c cs =>
        simp only [] at hnext
        split_ifs at hnext
        exact (Name.callAt?_suffix hnext).trans (List.suffix_cons c cs)
  | member =>
    obtain ⟨r, hr, hrest⟩ := Option.bind_eq_some_iff.mp h
    have hr : r <:+ cs := by
      rcases (Option.orElse_eq_some _ _ _).mp hr with harrow | ⟨-, hcolons⟩
      · exact after?_suffix harrow
      · exact after?_suffix hcolons
    exact (Name.callAt?_suffix hrest).trans ((List.dropWhile_suffix _).trans hr)

theorem keywordAt?_suffix {keywords : List String} {before : Option Char} {cs rest : List Char}
    (h : keywordAt? keywords before cs = some rest) : rest <:+ cs := by
  simp only [keywordAt?] at h
  split_ifs at h
  obtain ⟨k, -, hk⟩ := List.exists_of_findSome?_eq_some h
  obtain ⟨r, hr, hrest⟩ := Option.bind_eq_some_iff.mp hk
  cases r with
  | nil => cases hrest
  | cons c more =>
    simp only [] at hrest
    split_ifs at hrest
    obtain rfl := Option.some.inj hrest
    exact (List.suffix_cons c more).trans (after?_suffix hr)

theorem Shape.rests_suffix {shape : Shape} {before : Option Char} {cs rest : List Char}
    (h : rest ∈ shape.rests before cs) :
    rest <:+ cs := by
  fun_induction Shape.rests shape before cs with
  | case1 before => cases h
  | case2 before c more r hr used ih =>
    rcases List.mem_cons.mp h with rfl | h
    · cases shape with
      | call lead name => exact Lead.callAt?_suffix hr
      | statement keywords => exact keywordAt?_suffix hr
    · exact (ih h).trans ((List.drop_suffix _ _).trans (List.suffix_cons c more))
  | case3 before c more hnone ih => exact (ih h).trans (List.suffix_cons c more)

theorem Signature.encloses_flat {s : Signature} (hs : s ∈ signatures) {w : List Char} (h : CommentFree (utf8 w)) :
    s.encloses (w.map flat) = s.encloses w := by
  have hsolid := List.all_eq_true.mp signatures_solid s hs
  have hrests := Shape.rests_flat hsolid none w
  rw [Option.map_none] at hrests
  rw [Signature.encloses, Signature.encloses, hrests, List.any_map]
  rw [Bool.eq_iff_iff, List.any_eq_true, List.any_eq_true]
  refine exists_congr fun rest => and_congr_right fun hrest => ?_
  have hfree : CommentFree (utf8 rest) := by
    obtain ⟨front, rfl⟩ := Shape.rests_suffix hrest
    exact h.back ⟨utf8 front, (utf8_append front rest).symm⟩
  rw [Function.comp_apply, Shape.leavesOpen_flat _ hfree]

theorem ceilBoundary_utf8 (cs : List Char) (n : ℕ) :
    ∃ rest, rest <:+ cs ∧ ceilBoundary ((utf8 cs).drop n) = utf8 rest := by
  induction cs generalizing n with
  | nil => exact ⟨[], List.suffix_rfl, by simp [utf8, ceilBoundary]⟩
  | cons c cs ih =>
    obtain ⟨b, bs, henc, hb, hbs⟩ := utf8EncodeChar_continuation c
    have hcons : utf8 (c :: cs) = b :: (bs ++ utf8 cs) := by
      rw [utf8, List.flatMap_cons, henc]
      rfl
    cases n with
    | zero =>
      refine ⟨c :: cs, List.suffix_rfl, ?_⟩
      rw [List.drop_zero, hcons, ceilBoundary, List.dropWhile_cons_of_neg (by simp [hb])]
    | succ n =>
      obtain ⟨rest, hrest, heq⟩ := ih (n - bs.length)
      refine ⟨rest, hrest.trans (List.suffix_cons c cs), ?_⟩
      have hskip : ∀ x ∈ bs.drop n, isContinuation x = true := fun x hx => hbs x (List.mem_of_mem_drop hx)
      rw [hcons, List.drop_succ_cons, List.drop_append, ceilBoundary, List.dropWhile_append_of_pos hskip]
      exact heq

theorem commentFree_of_lexemes {bs : Bytes} (h : lexemes .php isQuote bs = bs.map .code) : CommentFree bs :=
  (plain_of_lexemes h).1

theorem window_text {content : List Char} {l : Literal}
    (hl : l ∈ literals .php (utf8 content) ⟨0, byteLength content⟩) :
    ∃ w, window (masked content) l.start = utf8 w ∧ CommentFree (utf8 w) := by
  obtain ⟨text, htext⟩ := exists_blanked_text (d := .php) (fun l => !l.isCode) (fun _ => rfl) content
  have hmasked : masked content = utf8 text := by
    rw [masked, mask_eq, scope_whole, htext]
  have hfree : CommentFree (masked content) := commentFree_of_lexemes (lexemes_mask _ _)
  rw [literals, scope_whole] at hl
  obtain ⟨front, q, body, back, hls, rfl⟩ := Literal.mem_ofLexemes hl
  simp only [Literal.start, Nat.zero_add, Nat.add_sub_cancel]
  -- The place of the quote is blank in the mask, so the text is cut between characters there.
  have hquote : (utf8 text)[(front.flatMap Lexeme.bytes).length]? = some (blank q) := by
    have hlength : (front.flatMap Lexeme.masked).length = (front.flatMap Lexeme.bytes).length := by
      simp only [List.length_flatMap, length_masked]
    rw [← hmasked, masked_eq, hls, List.flatMap_append, ← hlength, List.getElem?_append_right (Nat.le_refl _), Nat.sub_self]
    rfl
  have hascii : blank q < 0x80 := by rcases blank_cases q with hq | hq <;> rw [hq] <;> decide
  obtain ⟨before, after, rfl, hbefore⟩ := isBoundary_iff.mp (isBoundary_of_ascii hquote hascii).1
  rw [← hbefore, window, hmasked, utf8_append, ← length_utf8, List.take_left]
  obtain ⟨w, ⟨start, rfl⟩, hw⟩ := ceilBoundary_utf8 before ((utf8 before).length - lookbehind)
  refine ⟨w, hw, ?_⟩
  rw [hmasked] at hfree
  exact (hfree.front ⟨utf8 after, (utf8_append _ after).symm⟩).back ⟨utf8 start, (utf8_append start w).symm⟩

theorem window_flat (m : Bytes) (stop : ℕ) : window (m.map flatByte) stop = (window m stop).map flatByte := by
  have hcontinuation : ∀ b, isContinuation (flatByte b) = isContinuation b := by
    intro b
    by_cases hb : b = lineFeed
    · subst hb
      decide
    · rw [flatByte, if_neg hb]
  rw [window, window, ceilBoundary, ceilBoundary, ← List.map_take, ← List.map_drop, List.dropWhile_map]
  congr 2
  funext b
  exact hcontinuation b

theorem categoryBefore?_congr {m m' : Bytes} (hflat : m.map flatByte = m'.map flatByte) {stop : ℕ} {w w' : List Char}
    (hw : window m stop = utf8 w) (hw' : window m' stop = utf8 w') (hfree : CommentFree (utf8 w))
    (hfree' : CommentFree (utf8 w')) : categoryBefore? m stop = categoryBefore? m' stop := by
  have htext : w.map flat = w'.map flat := by
    apply utf8_inj
    rw [utf8_flat, utf8_flat, ← hw, ← hw', ← window_flat, ← window_flat, hflat]
  have hsame : ∀ s ∈ signatures, s.encloses w = s.encloses w' := by
    intro s hs
    rw [← Signature.encloses_flat hs hfree, htext, Signature.encloses_flat hs hfree']
  simp only [categoryBefore?, hw, hw', decode_utf8, String.toList_ofList]
  rw [List.find?_congr hsame]

end VisibleText.Code
