import VisibleText.Proofs.HitOrder
import VisibleText.Proofs.LexemeLocality
import VisibleText.Proofs.SpanSets

namespace VisibleText

def Hit.shift (n : ℕ) (h : Hit) : Hit := ⟨h.text, h.offset + n⟩

namespace Code

def Literal.shift (n : ℕ) (l : Literal) : Literal := ⟨l.quote, l.body.shift n⟩

theorem Literal.shift_start (n : ℕ) (l : Literal) (h : 0 < l.body.start) : (l.shift n).start = l.start + n := by
  simp only [start, shift, Span.shift]
  omega

theorem Literal.shift_stop (n : ℕ) (l : Literal) : (l.shift n).stop = l.stop + n := Nat.add_right_comm _ _ _

theorem headSpans_shift (head : List HeadPart) (n offset : ℕ) (before : Option Char) (cs : List Char) :
    headSpans head (offset + n) before cs = (headSpans head offset before cs).map (Span.shift n) := by
  fun_induction headSpans head offset before cs with
  | case1 => simp [headSpans]
  | case2 offset before c more found rest hrest used stop ih =>
    simp only [found, dite_eq_ite] at hrest
    have hstop : offset + n + byteLength ((c :: more).take used) = stop + n := Nat.add_right_comm _ _ _
    rw [headSpans, hrest, List.map_cons, ← ih, ← hstop]
    exact congrArg (· :: _) (congrArg (Span.mk _) hstop)
  | case3 offset before c more found hnone ih =>
    simp only [found, dite_eq_ite] at hnone
    rw [headSpans, hnone, ← ih, Nat.add_right_comm]

theorem afterHead?_length_le {head : List HeadPart} {cs rest : List Char} (h : afterHead? head cs = some rest) :
    rest.length ≤ cs.length := by
  fun_induction afterHead? head cs with
  | case1 cs => simp_all
  | case2 => simp at h
  | case3 part parts cs hp after next hblank ih =>
    have hafter : after.length ≤ cs.length := by simp [after]
    have hnext : next.length ≤ after.length := by
      simp only [next]
      split_ifs
      · exact Nat.le_refl _
      · exact (List.dropWhile_suffix _).length_le
    have := ih h
    omega
  | case4 => simp at h

theorem afterHead?_length_lt {head : List HeadPart} (hhead : head ∈ excludedHeads) {cs rest : List Char}
    (h : afterHead? head cs = some rest) : rest.length < cs.length := by
  have hwords : ∀ head ∈ excludedHeads, head.head?.any fun part => !part.text.toList.isEmpty := by decide
  have hword := hwords head hhead
  cases head with
  | nil => simp at hword
  | cons part parts =>
    simp only [afterHead?] at h
    split_ifs at h with hp hblank hlast
    all_goals
      have hrest := afterHead?_length_le h
      have hlen := (List.isPrefixOf_iff_prefix.mp hp).length_le
      have hpos : 0 < part.text.toList.length := List.length_pos_iff.mpr (by simpa using hword)
      have htrim := (List.dropWhile_suffix isBlank (l := cs.drop part.text.length)).length_le
      simp only [trimStart, List.length_drop, String.length_toList] at *
      omega

theorem headSpans_bounds {head : List HeadPart} (hhead : head ∈ excludedHeads) (offset : ℕ) (before : Option Char)
    (cs : List Char) : ∀ h ∈ headSpans head offset before cs,
      offset ≤ h.start ∧ h.start < h.stop ∧ h.stop ≤ offset + byteLength cs := by
  fun_induction headSpans head offset before cs with
  | case1 => simp
  | case2 offset before c more found rest hrest used stop ih =>
    have hlt : rest.length < (c :: more).length := by
      simp only [found, dite_eq_ite] at hrest
      split_ifs at hrest
      exact afterHead?_length_lt hhead hrest
    obtain ⟨k, hk⟩ : ∃ k, used = k + 1 := ⟨used - 1, by omega⟩
    have hcut : byteLength (c :: more) = byteLength ((c :: more).take used) + byteLength (more.drop (used - 1)) := by
      conv_lhs => rw [← List.take_append_drop used (c :: more)]
      rw [byteLength_append, hk, List.drop_succ_cons, Nat.add_sub_cancel]
    have hpos : 0 < byteLength ((c :: more).take used) := by
      have := c.utf8Size_pos
      rw [hk, List.take_succ_cons, byteLength_cons]
      omega
    refine List.forall_mem_cons.mpr ⟨⟨Nat.le_refl _, by simp only [stop]; omega, by simp only [stop]; omega⟩, ?_⟩
    intro h hh
    have := ih h hh
    simp only [stop] at this
    omega
  | case3 offset before c more found hnone ih =>
    intro h hh
    have := ih h hh
    rw [byteLength_cons]
    omega

def definitionSpan (bytes : Bytes) (stop : ℕ) (h : Span) : Span :=
  match partner? .php bytes (h.stop - 1) with
  | some close => ⟨h.start, close + 1⟩
  | none => ⟨h.start, stop⟩

theorem excludedDefinitions_covers (content : List Char) (s : Span) (n : ℕ) :
    (excludedDefinitions content s).Covers n ↔
      ∃ head ∈ excludedHeads, ∃ h ∈ headSpans head s.start none (sliceBytes content s.start s.stop),
        (definitionSpan (utf8 content) s.stop h).Contains n := by
  unfold excludedDefinitions
  rw [(SpanSet.ofSpans_spec _).2]
  simp only [List.mem_map, List.mem_flatMap, definitionSpan]
  constructor
  · rintro ⟨_, ⟨h, ⟨head, hhead, hh⟩, rfl⟩, hn⟩
    exact ⟨head, hhead, h, hh, hn⟩
  · rintro ⟨head, hhead, h, hh, hn⟩
    exact ⟨_, ⟨h, ⟨head, hhead, hh⟩, rfl⟩, hn⟩

section Piece

variable (pre mid post : List Char)

theorem standsAt_piece : StandsAt (pre ++ mid ++ post) (byteLength pre) mid := ⟨pre, post, rfl, rfl⟩

theorem standsAt_whole (cs : List Char) : StandsAt cs 0 cs := ⟨[], [], by simp, rfl⟩

theorem scope_piece :
    scope (utf8 (pre ++ mid ++ post)) ⟨byteLength pre, byteLength pre + byteLength mid⟩ = utf8 mid := by
  simp only [scope, utf8_append, ← length_utf8, ← List.length_append, List.take_left, List.drop_left]

theorem scope_whole (cs : List Char) : scope (utf8 cs) ⟨0, byteLength cs⟩ = utf8 cs := by
  simp only [scope, ← length_utf8, List.take_length, List.drop_zero]

theorem definitionSpan_piece {h : Span} (hpos : 0 < h.stop) (hstop : h.stop ≤ byteLength mid) {p : ℕ}
    (hp : p < byteLength mid) :
    (definitionSpan (utf8 (pre ++ mid ++ post)) (byteLength pre + byteLength mid) (h.shift (byteLength pre))).Contains
        (p + byteLength pre) ↔
      (definitionSpan (utf8 mid) (byteLength mid) h).Contains p := by
  have hplace : h.stop + byteLength pre - 1 = h.stop - 1 + (utf8 pre).length := by
    rw [length_utf8]
    omega
  have hpartner := partner?_extends .php (utf8 post) (i := h.stop - 1) (show h.stop - 1 < (utf8 mid).length by
    rw [length_utf8]
    omega)
  rw [length_utf8] at hpartner
  simp only [definitionSpan, Span.shift, hplace, List.append_assoc, utf8_append]
  rw [partner?_append_left, length_utf8]
  cases hshort : partner? .php (utf8 mid) (h.stop - 1) with
  | some close =>
    rw [hpartner.same close hshort]
    simp only [Option.map_some, Span.contains_iff]
    omega
  | none =>
    cases hlong : partner? .php (utf8 mid ++ utf8 post) (h.stop - 1) with
    | none =>
      simp only [Option.map_none, Span.contains_iff]
      omega
    | some close =>
      have := hpartner.beyond hshort close hlong
      simp only [Option.map_some, Span.contains_iff]
      omega

theorem excludedDefinitions_piece {p : ℕ} (hp : p < byteLength mid) :
    (excludedDefinitions (pre ++ mid ++ post) ⟨byteLength pre, byteLength pre + byteLength mid⟩).Covers
        (p + byteLength pre) ↔
      (excludedDefinitions mid ⟨0, byteLength mid⟩).Covers p := by
  have hslice := (standsAt_piece pre mid post).sliceBytes_eq
  have hwhole := (standsAt_whole mid).sliceBytes_eq
  rw [Nat.zero_add] at hwhole
  simp only [excludedDefinitions_covers, hslice, hwhole]
  refine exists_congr fun head => and_congr_right fun hhead => ?_
  have hshift := headSpans_shift head (byteLength pre) 0 none mid
  rw [Nat.zero_add] at hshift
  rw [hshift]
  constructor
  · rintro ⟨_, hm, hcontains⟩
    obtain ⟨h, hh, rfl⟩ := List.mem_map.mp hm
    have := headSpans_bounds hhead 0 none mid h hh
    exact ⟨h, hh, (definitionSpan_piece pre mid post (by omega) (by omega) hp).mp hcontains⟩
  · rintro ⟨h, hh, hcontains⟩
    have := headSpans_bounds hhead 0 none mid h hh
    exact ⟨_, List.mem_map_of_mem hh, (definitionSpan_piece pre mid post (by omega) (by omega) hp).mpr hcontains⟩

theorem overlaps_piece {s : Span} (hs : s.stop ≤ byteLength mid) :
    (excludedDefinitions (pre ++ mid ++ post) ⟨byteLength pre, byteLength pre + byteLength mid⟩).overlaps
        (s.shift (byteLength pre)) =
      (excludedDefinitions mid ⟨0, byteLength mid⟩).overlaps s := by
  rw [Bool.eq_iff_iff]
  refine (SpanSet.overlaps_ofSpans _ _).trans (Iff.trans ?_ (SpanSet.overlaps_ofSpans _ _).symm)
  simp only [Span.contains_iff, Span.shift]
  constructor
  · rintro ⟨n, hn, hcovers⟩
    obtain ⟨p, rfl⟩ : ∃ p, n = p + byteLength pre := ⟨n - byteLength pre, by omega⟩
    exact ⟨p, by omega, (excludedDefinitions_piece pre mid post (by omega)).mp hcovers⟩
  · rintro ⟨p, hp, hcovers⟩
    exact ⟨p + byteLength pre, by omega, (excludedDefinitions_piece pre mid post (by omega)).mpr hcovers⟩

theorem ofLexemes_shift (n offset : ℕ) (ls : List Lexeme) :
    Literal.ofLexemes (offset + n) ls = (Literal.ofLexemes offset ls).map (Literal.shift n) := by
  induction ls generalizing offset with
  | nil => rfl
  | cons l ls ih =>
    have hrest := ih (offset + l.length)
    rw [Nat.add_right_comm] at hrest
    simp only [Literal.ofLexemes, hrest]
    split
    · rw [List.map_cons, Literal.shift, Span.shift]
      simp only [Nat.add_right_comm _ n]
    · rfl

theorem literals_piece (d : Dialect) :
    literals d (utf8 (pre ++ mid ++ post)) ⟨byteLength pre, byteLength pre + byteLength mid⟩ =
      (literals d (utf8 mid) ⟨0, byteLength mid⟩).map (Literal.shift (byteLength pre)) := by
  have hshift := ofLexemes_shift (byteLength pre) 0 (lexemes d isQuote (utf8 mid))
  rw [Nat.zero_add] at hshift
  simp only [literals, scope_piece, scope_whole, hshift]

theorem mask_piece (d : Dialect) :
    mask d (utf8 (pre ++ mid ++ post)) ⟨byteLength pre, byteLength pre + byteLength mid⟩ =
      mask d (utf8 mid) ⟨0, byteLength mid⟩ := by
  simp only [mask, scope_piece, scope_whole]

end Piece

def keyed (before after : List Char) : Bool :=
  (['=', '>'].isPrefixOf (trimStart after) && byteLength (after.takeWhile isBlank) ≤ keyLookahead)
    || ((trimEnd before).getLast? = some '[' && (trimStart after).head? = some ']')

theorem isArrayKey_eq {l : Literal} (before lit after : List Char) (hstart : l.start = byteLength before)
    (hstop : l.stop = byteLength before + byteLength lit) :
    isArrayKey (before ++ lit ++ after) l = keyed before after := by
  unfold isArrayKey keyed
  rw [hstart, hstop, ← byteLength_append, dropBytes_append, List.append_assoc, takeBytes_append]

theorem keyed_append_right (before : List Char) {after : List Char} (h : trimStart after ≠ []) {back : List Char}
    (hback : back.head? ≠ some '>') : keyed before (after ++ back) = keyed before after := by
  have htrim : trimStart (after ++ back) = trimStart after ++ back := by
    rw [trimStart, List.dropWhile_append, ← trimStart, if_neg (by simpa using h)]
  have hblanks : (after ++ back).takeWhile isBlank = after.takeWhile isBlank := by
    have hlen := congrArg List.length (List.takeWhile_append_dropWhile (p := isBlank) (l := after))
    have hpos := List.length_pos_iff.mpr h
    rw [← trimStart, List.length_append] at hlen
    rw [List.takeWhile_append, if_neg (by omega)]
  obtain ⟨c, cs, hcs⟩ := List.exists_cons_of_ne_nil h
  have harrow : ['=', '>'].isPrefixOf (c :: (cs ++ back)) = ['=', '>'].isPrefixOf (c :: cs) := by
    cases cs with
    | cons d ds => rfl
    | nil =>
      cases back with
      | nil => rfl
      | cons d back =>
        have hd : '>' ≠ d := by simpa [eq_comm] using hback
        simp [List.isPrefixOf, hd]
  rw [keyed, keyed, htrim, hblanks, hcs, List.cons_append, harrow]
  rfl

/-- Neighbours of a piece of code that are neither blank nor a part of an array access. -/
structure Sealed (pre post : List Char) : Prop where
  before : ∀ c ∈ pre.getLast?, isBlank c = false ∧ c ≠ '['
  after : ∀ c ∈ post.head?, isBlank c = false ∧ c ∉ ['=', '>', ']']

namespace Sealed

variable {pre post : List Char}

theorem getLast?_trimEnd (h : Sealed pre post) : (trimEnd pre).getLast? ≠ some '[' := by
  rcases List.eq_nil_or_concat pre with rfl | ⟨init, c, rfl⟩
  · simp [trimEnd]
  · obtain ⟨hblank, hc⟩ := h.before c (by simp)
    have hkept : trimEnd [c] = [c] := by simp [trimEnd, hblank]
    rw [List.concat_eq_append, trimEnd_append, hkept]
    simpa using hc

theorem trimStart_post (h : Sealed pre post) :
    ['=', '>'].isPrefixOf (trimStart post) = false ∧ (trimStart post).head? ≠ some ']' := by
  cases post with
  | nil => simp [trimStart]
  | cons c post =>
    obtain ⟨hblank, hc⟩ := h.after c (by simp)
    simp only [List.mem_cons, List.not_mem_nil, or_false, not_or] at hc
    rw [trimStart, List.dropWhile_cons_of_neg (by simpa using hblank)]
    simp [List.isPrefixOf, hc, Ne.symm hc.1]

theorem bracket_before (h : Sealed pre post) (before : List Char) :
    (trimEnd (pre ++ before)).getLast? = some '[' ↔ (trimEnd before).getLast? = some '[' := by
  rw [trimEnd_append]
  cases hb : trimEnd before with
  | nil => simpa using h.getLast?_trimEnd
  | cons c cs => simp [List.getLast?_append]

theorem keyed_eq (h : Sealed pre post) (before after : List Char) :
    keyed (pre ++ before) (after ++ post) = keyed before after := by
  obtain ⟨harrow, hbracket⟩ := h.trimStart_post
  by_cases ha : trimStart after = []
  · have hskip : trimStart (after ++ post) = trimStart post := by
      rw [trimStart, List.dropWhile_append, ← trimStart, ha]
      rfl
    simp [keyed, ha, hskip, harrow, hbracket]
  · have hpost : post.head? ≠ some '>' := by
      intro hhead
      exact (h.after '>' hhead).2 (by decide)
    rw [keyed_append_right _ ha hpost, keyed, keyed, decide_eq_decide.mpr (h.bracket_before before)]

end Sealed

end Code

theorem Hit.ofRaw?_shift (raw : List Char) (offset n : ℕ) :
    ofRaw? raw (offset + n) = (ofRaw? raw offset).map (Hit.shift n) := by
  simp only [ofRaw?]
  split_ifs
  · rfl
  · rw [Option.map_some, Hit.shift, Nat.add_right_comm]

theorem Hit.at?_piece (pre mid post : List Char) {s : Span} (hle : s.start ≤ s.stop)
    (hstart : IsBoundary mid s.start) (hstop : IsBoundary mid s.stop) :
    at? (pre ++ mid ++ post) (s.shift (byteLength pre)) = (at? mid s).map (Hit.shift (byteLength pre)) := by
  obtain ⟨text, ht, hs⟩ := standsAt_of_boundaries hle hstart hstop
  have ht' : StandsAt (pre ++ mid ++ post) (s.start + byteLength pre) text := by
    obtain ⟨before, after, rfl, hbefore⟩ := ht
    refine ⟨pre ++ before, after ++ post, by simp, ?_⟩
    rw [byteLength_append, hbefore, Nat.add_comm]
  have hstop' : s.stop + byteLength pre = s.start + byteLength pre + byteLength text := by omega
  rw [at?, at?, Span.shift, hstop', ht'.sliceBytes_eq, hs, ht.sliceBytes_eq, ofRaw?_shift]

namespace Code

theorem isArrayKey_piece {pre post : List Char} (h : Sealed pre post) (mid : List Char) {l : Literal}
    (hl : l ∈ literals .php (utf8 mid) ⟨0, byteLength mid⟩) :
    isArrayKey (pre ++ mid ++ post) (l.shift (byteLength pre)) = isArrayKey mid l := by
  have hbounds := literals_bounds hl
  obtain ⟨lit, ⟨before, after, rfl, hbefore⟩, hlit⟩ := literal_standsAt hl
  rw [isArrayKey_eq before lit after hbefore.symm (by rw [hlit, hbefore])]
  have hsplit : pre ++ (before ++ lit ++ after) ++ post = (pre ++ before) ++ lit ++ (after ++ post) := by simp
  rw [hsplit, isArrayKey_eq (pre ++ before) lit (after ++ post), h.keyed_eq]
  · rw [l.shift_start _ (by omega), byteLength_append, hbefore, Nat.add_comm]
  · rw [l.shift_stop, byteLength_append, hbefore, hlit]
    omega

theorem extractRange_piece {pre post : List Char} (h : Sealed pre post) (mid : List Char) :
    extractRange (pre ++ mid ++ post) ⟨byteLength pre, byteLength pre + byteLength mid⟩ =
      (extract mid).map (Hit.shift (byteLength pre)) := by
  simp only [extract, extractRange, literals_piece, mask_piece, List.filterMap_map, List.map_filterMap]
  apply List.filterMap_congr
  intro l hl
  have hbounds := literals_bounds hl
  obtain ⟨hstart, hstop⟩ := literal_boundaries hl
  have hspan : (⟨(l.shift (byteLength pre)).start, (l.shift (byteLength pre)).stop⟩ : Span) =
      (⟨l.start, l.stop⟩ : Span).shift (byteLength pre) := by
    rw [l.shift_start _ (by omega), l.shift_stop, Span.shift]
  have hwindow : (l.shift (byteLength pre)).start - byteLength pre = l.start - 0 := by
    rw [l.shift_start _ (by omega)]
    omega
  simp only [Function.comp_apply]
  rw [hspan, overlaps_piece pre mid post hbounds.2.2.2.2, isArrayKey_piece h mid hl, hwindow]
  split_ifs
  · rfl
  · exact Hit.at?_piece pre mid post hbounds.2.2.1 hstart hstop

end Code

end VisibleText
