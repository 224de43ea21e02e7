import Mathlib.Order.Bounds.Basic
import VisibleText.Proofs.CandidateSpans
import VisibleText.Proofs.HitOrder
import VisibleText.Proofs.Lookbehind
import VisibleText.Proofs.Masks

/-!
The slices that the scanners take. All of them work on bytes, while a text can only be cut between its characters. Every
span that a scan reports starts and ends next to an ASCII byte or at an end of the text, so it can be cut out; the same
holds for the window before a literal, which is cut out of the masked code and not of the code itself.
-/
namespace VisibleText

theorem SpanSet.ends_of_mem {spans : List Span} {r : Span} (hr : r ∈ (ofSpans spans).spans) :
    (∃ s ∈ spans, s.start = r.start) ∧ ∃ s ∈ spans, s.stop = r.stop := by
  obtain ⟨hapart, hcovers⟩ := ofSpans_spec spans
  have hne := hapart.nonempty r hr
  -- a span that meets `r` lies inside of it
  have hinside : ∀ n, r.Contains n → ∃ s ∈ spans, s.Contains n ∧ r.start ≤ s.start ∧ s.stop ≤ r.stop := by
    intro n hn
    obtain ⟨s, hs, hsn⟩ := (hcovers n).mp ⟨r, hr, hn⟩
    rw [Span.contains_iff] at hn hsn
    obtain ⟨r', hr', hstart, hstop⟩ := hapart.exists_around (s := s) (by omega) fun m hm => (hcovers m).mpr ⟨s, hs, hm⟩
    obtain rfl : r = r' := by
      rcases hapart.separate hr hr' with hlt | rfl | hlt
      · omega
      · rfl
      · omega
    exact ⟨s, hs, hsn, hstart, hstop⟩
  constructor
  · obtain ⟨s, hs, hn, hstart, -⟩ := hinside r.start ⟨Nat.le_refl _, hne⟩
    exact ⟨s, hs, Nat.le_antisymm hn.1 hstart⟩
  · obtain ⟨s, hs, hn, -, hstop⟩ := hinside (r.stop - 1) ⟨by omega, by omega⟩
    have := hn.2
    exact ⟨s, hs, by omega⟩

theorem cuts_of_mem_ofSpans {content : List Char} {spans : List Span} (h : ∀ s ∈ spans, Cuts content s) {r : Span}
    (hr : r ∈ (SpanSet.ofSpans spans).spans) : Cuts content r := by
  obtain ⟨⟨s, hs, hstart⟩, t, ht, hstop⟩ := SpanSet.ends_of_mem hr
  have hne := (SpanSet.ofSpans_spec spans).1.nonempty r hr
  exact cuts_of_boundaries (by omega) (hstart ▸ (h s hs).start) (hstop ▸ (h t ht).stop)

namespace Blade

theorem find_cuts {content : List Char} {p n : ℕ} {block : Option Span}
    (h : (p, .code n block) ∈ finds 0 none (utf8 content)) : Cuts content ⟨p, p + n⟩ := by
  obtain ⟨hp, hfinds⟩ := find_at h
  obtain ⟨⟨b, hfirst, hb⟩, hlast⟩ := hfinds.solidEnds
  rw [List.getElem?_drop, Nat.add_zero] at hfirst
  refine cuts_of_boundaries (Nat.le_add_right p n) (isBoundary_of_ascii hfirst hb.2).1 ?_
  rcases hlast with rfl | ⟨c, hc, hsolid⟩
  · rw [List.length_drop, Nat.add_sub_cancel' hp.le, length_utf8]
    exact isBoundary_length content
  · have hpos : 0 < n := find_length_pos h
    rw [List.getElem?_drop] at hc
    have hstop := (isBoundary_of_ascii hc hsolid.2).2
    rwa [Nat.add_assoc, Nat.sub_add_cancel hpos] at hstop

theorem excluded_cuts (content : List Char) : ∀ s ∈ (scan (utf8 content)).excluded.spans, Cuts content s := by
  intro s hs
  refine cuts_of_mem_ofSpans ?_ hs
  intro r hr
  obtain ⟨x, hx, hspan⟩ := List.mem_filterMap.mp hr
  obtain ⟨p, n, block, rfl, rfl⟩ := span_of_find hspan
  exact find_cuts hx

theorem blocks_cuts (content : List Char) : ∀ s ∈ (scan (utf8 content)).blocks, Cuts content s := by
  intro s hs
  have hbody := blocks_isBody hs
  exact cuts_of_boundaries hbody.marked.1 hbody.boundaries.1 hbody.boundaries.2

def slicesFrom (bs : Bytes) (p : ℕ) : List Span :=
  ((fences.filter fun f => f.opening.isPrefixOf (bs.drop p)).map fun f => ⟨p + f.opening.length, bs.length⟩) ++
    if bs[p]? = some atSign then
      [⟨p + 1, p + 1 + ((bs.drop (p + 1)).takeWhile isWordByte).length⟩,
        ⟨p + 1 + ((bs.drop (p + 1)).takeWhile isWordByte).length, bs.length⟩]
    else []

theorem slicesFrom_cuts (content : List Char) (p : ℕ) : ∀ r ∈ slicesFrom (utf8 content) p, Cuts content r := by
  intro r hr
  rw [slicesFrom, length_utf8] at hr
  rcases List.mem_append.mp hr with hr | hr
  · obtain ⟨f, hf, rfl⟩ := List.mem_map.mp hr
    obtain ⟨hf, hopening⟩ := List.mem_filter.mp hf
    obtain ⟨hne, -, hsolid, -⟩ := marks_solid f (List.mem_cons_of_mem _ hf)
    exact cuts_back (isBoundary_of_run (fun b hb => (hsolid b hb).2) hne (List.isPrefixOf_iff_prefix.mp hopening)).2
  · rw [List.mem_ite_nil_right] at hr
    obtain ⟨hat, hr⟩ := hr
    have hstart := (isBoundary_of_ascii hat (by decide)).2
    have hend : IsBoundary content (p + 1 + (((utf8 content).drop (p + 1)).takeWhile isWordByte).length) := by
      by_cases hname : ((utf8 content).drop (p + 1)).takeWhile isWordByte = []
      · rwa [hname]
      · refine (isBoundary_of_run ?_ hname (List.takeWhile_prefix _)).2
        intro b hb
        exact (isSolid_of_isWordByte (List.all_eq_true.mp List.all_takeWhile b hb)).2
    rcases List.mem_cons.mp hr with rfl | hr
    · exact cuts_of_boundaries (Nat.le_add_right _ _) hstart hend
    · obtain rfl := List.mem_singleton.mp hr
      exact cuts_back hend

/-- The slices that the scanner takes at a find. Of template code it also takes all up to the end, to see whether the
closing mark stands there. -/
def slicesAt (bs : Bytes) : ℕ × Find → List Span
  | (p, .markup _) => slicesFrom bs p
  | (p, .code n _) => ⟨0, p + n⟩ :: slicesFrom bs p

theorem slicesAt_cuts {content : List Char} {x : ℕ × Find} (hx : x ∈ finds 0 none (utf8 content)) :
    ∀ r ∈ slicesAt (utf8 content) x, Cuts content r := by
  obtain ⟨p, found⟩ := x
  cases found with
  | markup n => exact slicesFrom_cuts content p
  | code n block => exact List.forall_mem_cons.mpr ⟨cuts_front (find_cuts hx).stop, slicesFrom_cuts content p⟩

end Blade

namespace Code

variable {content : List Char} {s : Span}

theorem literal_cuts {d : Dialect} {l : Literal} (h : l ∈ literals d (utf8 content) s) :
    Cuts content l.body ∧ Cuts content ⟨l.start, l.stop⟩ := by
  obtain ⟨hstart, hstop⟩ := literal_boundaries h
  have hbounds := literals_bounds h
  obtain ⟨text, ⟨before, after, rfl, hbefore⟩, hlength⟩ := literal_standsAt h
  refine ⟨cuts_of_boundaries hbounds.2.2.1 hstart hstop, cuts_of_boundaries (by simp only; omega) ?_ ?_⟩
  · exact isBoundary_iff.mpr ⟨before, text ++ after, List.append_assoc .., hbefore⟩
  · exact isBoundary_iff.mpr ⟨before ++ text, after, rfl, by rw [byteLength_append, hbefore, hlength]⟩

theorem partner?_boundary {d : Dialect} {p close : ℕ} (h : partner? d (utf8 content) p = some close) :
    p < close ∧ IsBoundary content (close + 1) := by
  cases hdrop : (utf8 content).drop p with
  | nil =>
    simp only [partner?, hdrop] at h
    cases h
  | cons opener rest =>
    simp only [partner?, hdrop] at h
    obtain ⟨n, hn, rfl⟩ := Option.map_eq_some_iff.mp h
    obtain ⟨closer, hcloser, hn⟩ := Option.bind_eq_some_iff.mp hn
    have hbyte := closerOffset?_closer hn
    rw [lexemes_spell] at hbyte
    have hindex : (utf8 content)[n + (p + 1)]? = some closer := by
      have hrest : (utf8 content).drop (p + 1) = rest := by
        rw [← List.drop_drop, hdrop, List.drop_one, List.tail_cons]
      rwa [Nat.add_comm, ← List.getElem?_drop, hrest]
    have hascii : closer < 0x80 := by
      rcases closer?_cases hcloser with h | h | h <;> rw [h.2] <;> decide
    exact ⟨by omega, (isBoundary_of_ascii hindex hascii).2⟩

theorem definitionSpan_cuts {stop : ℕ} {h : Span} (hh : Cuts content h) (hpos : h.start < h.stop) (hle : h.stop ≤ stop)
    (hstop : IsBoundary content stop) : Cuts content (definitionSpan (utf8 content) stop h) := by
  unfold definitionSpan
  split
  · next close hclose =>
    obtain ⟨hlt, hend⟩ := partner?_boundary hclose
    exact cuts_of_boundaries (by simp only; omega) hh.start hend
  · exact cuts_of_boundaries (Nat.le_trans hh.ordered hle) hh.start hstop

theorem excludedDefinitions_cuts (hs : Cuts content s) : ∀ r ∈ (excludedDefinitions content s).spans, Cuts content r := by
  obtain ⟨mid, hmid, hlength⟩ := hs.standsAt
  intro r hr
  refine cuts_of_mem_ofSpans ?_ hr
  intro t ht
  obtain ⟨h, hh, rfl⟩ := List.mem_map.mp ht
  obtain ⟨head, hhead, hh⟩ := List.mem_flatMap.mp hh
  rw [hlength, hmid.sliceBytes_eq] at hh
  have hbounds := headSpans_bounds hhead _ _ _ h hh
  refine definitionSpan_cuts ?_ hbounds.2.1 (by omega) hs.stop
  obtain ⟨pre, post, hcontent, hpre⟩ := hmid
  obtain ⟨front, text, back, hsplit, -, -, rfl⟩ := (mem_headSpans_iff hhead _ _ _ _).mp hh
  rw [hcontent, ← hpre]
  refine cuts_of_boundaries (Nat.le_add_right _ _) (isBoundary_piece ?_) ?_
  · exact isBoundary_iff.mpr ⟨front, text ++ back, hsplit, rfl⟩
  · simp only [Nat.add_assoc]
    refine isBoundary_piece (isBoundary_iff.mpr ⟨front ++ text, back, ?_, byteLength_append ..⟩)
    rw [hsplit, List.append_assoc]

theorem exists_mask_text (d : Dialect) (hs : Cuts content s) : ∃ text, utf8 text = mask d (utf8 content) s := by
  obtain ⟨piece, ⟨before, after, hcontent, hbefore⟩, hlength⟩ := hs.standsAt
  have hscope : scope (utf8 content) s = utf8 piece := by
    have hpiece := scope_piece before piece after
    rwa [hbefore, ← hlength, ← hcontent] at hpiece
  obtain ⟨text, htext⟩ := exists_blanked_text (d := d) (fun l => !l.isCode) (fun _ => rfl) piece
  rw [← hscope, ← mask_eq] at htext
  exact ⟨text, htext⟩

theorem mask_at_literal {d : Dialect} {bs : Bytes} {l : Literal} (h : l ∈ literals d bs s) :
    (mask d bs s)[l.start - s.start]? = some (blank l.quote) := by
  obtain ⟨front, q, body, back, hls, rfl⟩ := Literal.mem_ofLexemes h
  have hplace : Literal.start ⟨q, ⟨s.start + (front.flatMap Lexeme.bytes).length + 1,
      s.start + (front.flatMap Lexeme.bytes).length + body.length⟩⟩ - s.start = (front.flatMap Lexeme.masked).length := by
    simp only [Literal.start, List.length_flatMap, length_masked]
    omega
  rw [hplace, mask, hls, List.flatMap_append, List.getElem?_append_right (Nat.le_refl _), Nat.sub_self]
  rfl

theorem ceilBoundary_least (cs : List Char) {n : ℕ} (hn : n ≤ byteLength cs) :
    ∃ cut rest, cs = cut ++ rest ∧ ceilBoundary ((utf8 cs).drop n) = utf8 rest ∧
      IsLeast {b | IsBoundary cs b ∧ n ≤ b} (byteLength cut) := by
  induction cs generalizing n with
  | nil =>
    obtain rfl : n = 0 := Nat.le_zero.mp hn
    exact ⟨[], [], rfl, rfl, ⟨isBoundary_zero [], Nat.le_refl 0⟩, fun b _ => Nat.zero_le b⟩
  | cons c cs ih =>
    obtain ⟨b, bs, henc, hb, hbs⟩ := utf8EncodeChar_continuation c
    have hcons : utf8 (c :: cs) = b :: (bs ++ utf8 cs) := by
      rw [utf8, List.flatMap_cons, henc]
      rfl
    have hsize : c.utf8Size = bs.length + 1 := by
      rw [← String.length_utf8EncodeChar, henc, List.length_cons]
    cases n with
    | zero =>
      refine ⟨[], c :: cs, rfl, ?_, ⟨isBoundary_zero _, Nat.le_refl 0⟩, fun b _ => Nat.zero_le b⟩
      rw [List.drop_zero, hcons, ceilBoundary, List.dropWhile_cons_of_neg (by simp [hb])]
    | succ n =>
      rw [byteLength_cons] at hn
      obtain ⟨cut, rest, rfl, heq, ⟨hboundary, hge⟩, hleast⟩ := ih (n := n - bs.length) (by omega)
      refine ⟨c :: cut, rest, rfl, ?_, ⟨?_, ?_⟩, ?_⟩
      · have hskip : ∀ x ∈ bs.drop n, isContinuation x = true := fun x hx => hbs x (List.mem_of_mem_drop hx)
        rw [hcons, List.drop_succ_cons, List.drop_append, ceilBoundary, List.dropWhile_append_of_pos hskip]
        exact heq
      · exact isBoundary_iff.mpr ⟨c :: cut, rest, rfl, rfl⟩
      · rw [byteLength_cons]
        omega
      · rintro p ⟨hp, hle⟩
        obtain ⟨front, back, hsplit, rfl⟩ := isBoundary_iff.mp hp
        cases front with
        | nil => cases hle
        | cons x front =>
          obtain ⟨rfl, htail⟩ := List.cons.inj hsplit
          rw [byteLength_cons] at hle
          have hmin := hleast ⟨isBoundary_iff.mpr ⟨front, back, htail, rfl⟩, by omega⟩
          rw [byteLength_cons, byteLength_cons]
          omega

/-- The mask of a span is a text that can be cut right before a literal, and at the first place between characters among
the bytes before the literal that are searched. What is searched is the text between these two cuts. -/
def WindowCuts (content : List Char) (s : Span) (l : Literal) : Prop :=
  s.start ≤ l.start ∧ ∃ text start, utf8 text = mask .php (utf8 content) s ∧
    IsLeast {b | IsBoundary text b ∧ l.start - s.start - lookbehind ≤ b} start ∧ Cuts text ⟨start, l.start - s.start⟩ ∧
    slice? text start (l.start - s.start) = some (decode (window (mask .php (utf8 content) s) (l.start - s.start))).toList

theorem literal_windowCuts (hs : Cuts content s) {l : Literal} (hl : l ∈ literals .php (utf8 content) s) :
    WindowCuts content s l := by
  obtain ⟨text, htext⟩ := exists_mask_text .php hs
  have hquote := mask_at_literal hl
  have hascii : blank l.quote < 0x80 := by rcases blank_cases l.quote with hq | hq <;> rw [hq] <;> decide
  rw [← htext] at hquote
  obtain ⟨before, after, rfl, hbefore⟩ := isBoundary_iff.mp (isBoundary_of_ascii hquote hascii).1
  obtain ⟨cut, rest, rfl, hwindow, ⟨hcut, hge⟩, hleast⟩ :=
    ceilBoundary_least before (n := l.start - s.start - lookbehind) (by omega)
  have hstop : l.start - s.start = byteLength cut + byteLength rest := by rw [← hbefore, byteLength_append]
  refine ⟨(literals_bounds hl).1, cut ++ rest ++ after, byteLength cut, htext, ⟨⟨isBoundary_append hcut, hge⟩, ?_⟩, ?_, ?_⟩
  · rintro b ⟨hb, hle⟩
    rcases Nat.lt_or_ge (byteLength (cut ++ rest)) b with hlt | hle'
    · rw [byteLength_append] at hlt
      omega
    · exact hleast ⟨isBoundary_of_append hb hle', hle⟩
  · rw [hstop]
    exact cuts_of_boundaries (Nat.le_add_right _ _) (isBoundary_append hcut)
      (isBoundary_piece (isBoundary_length rest))
  · have hsearched : window (mask .php (utf8 content) s) (l.start - s.start) = utf8 rest := by
      rw [← htext, window, utf8_append, ← hbefore, ← length_utf8, List.take_left, length_utf8, hbefore, hwindow]
    rw [hsearched, decode_utf8, String.toList_ofList, hstop]
    exact slice?_piece cut rest after

def slices (content : List Char) (s : Span) : List Span :=
  s :: (literals .php (utf8 content) s).flatMap fun l => [l.body, ⟨l.stop, byteLength content⟩, ⟨0, l.start⟩]

theorem slices_cuts (hs : Cuts content s) : ∀ r ∈ slices content s, Cuts content r := by
  intro r hr
  rcases List.mem_cons.mp hr with rfl | hr
  · exact hs
  · obtain ⟨l, hl, hr⟩ := List.mem_flatMap.mp hr
    obtain ⟨hbody, hquoted⟩ := literal_cuts hl
    simp only [List.mem_cons, List.not_mem_nil, or_false] at hr
    rcases hr with rfl | rfl | rfl
    · exact hbody
    · exact cuts_back hquoted.stop
    · exact cuts_front hquoted.start

end Code

theorem scans_cut_between_characters (content : List Char) :
    (∀ s ∈ (Blade.scan (utf8 content)).excluded.spans ++ (Blade.scan (utf8 content)).blocks, Cuts content s) ∧
      (∀ d s, ∀ l ∈ Code.literals d (utf8 content) s,
        0 < l.body.start ∧ Cuts content l.body ∧ Cuts content ⟨l.start, l.stop⟩) ∧
      (∀ s, Cuts content s → ∀ r ∈ (Code.excludedDefinitions content s).spans, Cuts content r) ∧
      (∀ s, Cuts content s → ∀ l ∈ Code.literals .php (utf8 content) s, Code.WindowCuts content s l) ∧
      (∀ x ∈ Blade.finds 0 none (utf8 content), ∀ r ∈ Blade.slicesAt (utf8 content) x,
        slice? content r.start r.stop = some (sliceBytes content r.start r.stop)) ∧
      (∀ s ∈ ⟨0, byteLength content⟩ :: (Blade.scan (utf8 content)).blocks,
        (∀ r ∈ Code.slices content s, slice? content r.start r.stop = some (sliceBytes content r.start r.stop)) ∧
          ∀ l ∈ Code.literals .php (utf8 content) s, Code.WindowCuts content s l) := by
  have hspans : ∀ s ∈ ⟨0, byteLength content⟩ :: (Blade.scan (utf8 content)).blocks, Cuts content s :=
    List.forall_mem_cons.mpr ⟨cuts_whole content, Blade.blocks_cuts content⟩
  refine ⟨?_, ?_, fun s hs => Code.excludedDefinitions_cuts hs, fun s hs l hl => Code.literal_windowCuts hs hl, ?_, ?_⟩
  · exact List.forall_mem_append.mpr ⟨Blade.excluded_cuts content, Blade.blocks_cuts content⟩
  · intro d s l hl
    have hbounds := Code.literals_bounds hl
    exact ⟨by omega, Code.literal_cuts hl⟩
  · intro x hx r hr
    exact (Blade.slicesAt_cuts hx r hr).slice?_eq
  · intro s hs
    constructor
    · intro r hr
      exact (Code.slices_cuts (hspans s hs) r hr).slice?_eq
    · intro l hl
      exact Code.literal_windowCuts (hspans s hs) hl

def inflected : List Char := "é @php($ü) @php $à = 'ß\\ü'; @endphp \x7b\x7b ö".toList

theorem scans_cut_between_characters_inflected :
    (⟨17, 33⟩ ∈ (Blade.scan (utf8 inflected)).blocks ∧ Cuts inflected ⟨17, 33⟩) ∧
      (⟨0x27, ⟨25, 30⟩⟩ ∈ Code.literals .php (utf8 inflected) ⟨17, 33⟩ ∧ Cuts inflected ⟨25, 30⟩ ∧
        Code.WindowCuts inflected ⟨17, 33⟩ ⟨0x27, ⟨25, 30⟩⟩) ∧
      (⟨43, 46⟩ ∈ Blade.slicesAt (utf8 inflected) (41, .code 5 none) ∧ slice? inflected 43 46 = some " ö".toList) := by
  have hblock : ⟨17, 33⟩ ∈ (Blade.scan (utf8 inflected)).blocks := by decide +kernel
  have hliteral : ⟨0x27, ⟨25, 30⟩⟩ ∈ Code.literals .php (utf8 inflected) ⟨17, 33⟩ := by decide +kernel
  have hfind : (41, .code 5 none) ∈ Blade.finds 0 none (utf8 inflected) := by decide +kernel
  have hslice : ⟨43, 46⟩ ∈ Blade.slicesAt (utf8 inflected) (41, .code 5 none) := by decide
  obtain ⟨hspans, hliterals, -, hwindows, hscanner, -⟩ := scans_cut_between_characters inflected
  have hcuts := hspans _ (List.mem_append_right _ hblock)
  exact ⟨⟨hblock, hcuts⟩, ⟨hliteral, (hliterals _ _ _ hliteral).2.1, hwindows _ hcuts _ hliteral⟩, hslice,
    (hscanner _ hfind _ hslice).trans (by decide)⟩

end VisibleText
