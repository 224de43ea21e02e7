import VisibleText.Proofs.Blocks
import VisibleText.Proofs.RegionShapes

namespace VisibleText.Blade

theorem FirstMark.not_infix {mark text : Bytes} {q n : ℕ} (h : FirstMark mark text q n) (hne : mark ≠ []) :
    ¬ mark <:+: text.take q := by
  rintro ⟨front, back, hin⟩
  have hlen := congrArg List.length hin
  have hpos := List.length_pos_iff.mpr hne
  simp only [List.length_append, List.length_take] at hlen
  cases h with
  | missing h => exact h ⟨front, back, by rw [hin, List.take_length]⟩
  | found h =>
    -- the mark inside would be an earlier one
    apply h.2 front.length (by omega)
    have hdrop : (text.take q).drop front.length = mark ++ back := by
      rw [← hin, List.append_assoc, List.drop_left]
    have hprefix : mark <+: (text.drop front.length).take (q - front.length) := by
      rw [← List.drop_take, hdrop]
      exact List.prefix_append mark back
    exact hprefix.trans (List.take_prefix _ _)

theorem blockMarks_closing {marks : Bytes × Bytes} (h : marks ∈ blockMarks) : marks.2 ≠ [] := by
  obtain ⟨-, c, -, name, hname⟩ := blockMarks_spec h
  simp [hname]

theorem closing_apart {marks : Bytes × Bytes} (h : marks ∈ blockMarks) {part : Bytes} (hpart : part <+: marks.2)
    (hne : part ≠ []) : ¬ part <:+ marks.1 ∧ ¬ marks.1 <:+ part := by
  have hall : ∀ marks ∈ blockMarks, ∀ k ∈ List.range' 1 marks.2.length,
      ¬ marks.2.take k <:+ marks.1 ∧ ¬ marks.1 <:+ marks.2.take k := by decide
  rw [List.prefix_iff_eq_take.mp hpart]
  apply hall marks h
  have hlen := hpart.length_le
  have hpos := List.length_pos_iff.mpr hne
  rw [List.mem_range'_1]
  omega

theorem closing_in_body {marks : Bytes × Bytes} (h : marks ∈ blockMarks) {before body : Bytes}
    (hs : marks.2 <:+ before ++ marks.1 ++ body) : marks.2 <:+ body := by
  rcases List.suffix_or_suffix_of_suffix hs (List.suffix_append _ body) with hin | ⟨part, hpart⟩
  · exact hin
  · by_cases hne : part = []
    · rw [← hpart, hne]
      exact List.suffix_refl body
    · -- the rest of the mark would stand at the end of the opening mark, or go over it
      obtain ⟨front, hfront⟩ := hs
      rw [← hpart, ← List.append_assoc, List.append_left_inj] at hfront
      obtain ⟨hshort, hlong⟩ := closing_apart h ⟨body, hpart⟩ hne
      rcases List.suffix_or_suffix_of_suffix ⟨front, hfront⟩ (List.suffix_append before marks.1) with hin | hover
      · exact absurd hin hshort
      · exact absurd hover hlong

theorem FirstMark.told {marks : Bytes × Bytes} (hm : marks ∈ blockMarks) {bs : Bytes} {start q n : ℕ}
    (ho : marks.1 <:+ bs.take start) (h : FirstMark marks.2 (bs.drop start) q n) :
    (marks.2 <:+ bs.take (start + n) → q + marks.2.length = n) ∧ (¬ marks.2 <:+ bs.take (start + n) → q = n) := by
  obtain ⟨before, hbefore⟩ := ho
  rw [List.take_add, ← hbefore]
  cases h with
  | found h =>
    have hends : marks.2 <:+ before ++ marks.1 ++ (bs.drop start).take (q + marks.2.length) := by
      rw [List.take_add, ← List.prefix_iff_eq_take.mp h.1, ← List.append_assoc]
      exact List.suffix_append _ _
    exact ⟨fun _ => rfl, fun hnot => absurd hends hnot⟩
  | missing h =>
    rw [List.take_length]
    exact ⟨fun hends => absurd (closing_in_body hm hends).isInfix h, fun _ => rfl⟩

theorem IsBody.marked {bs : Bytes} {s : Span} (h : IsBody bs s) :
    s.start ≤ s.stop ∧ s.stop ≤ bs.length ∧ ∃ marks ∈ blockMarks, marks.1 <:+ bs.take s.start ∧
      ∃ n, FirstMark marks.2 (bs.drop s.start) (s.stop - s.start) n := by
  obtain ⟨opening, closing, before, body, after, hmarks, rfl, rfl, hend⟩ := h
  have hrest : (before ++ opening ++ body ++ after).drop (before ++ opening).length = body ++ after := by
    rw [List.append_assoc _ body, List.drop_left]
  have hfront : (before ++ opening ++ body ++ after).take (before ++ opening).length = before ++ opening := by
    rw [List.append_assoc _ body, List.take_left]
  have hbody : (before ++ opening ++ body).length - (before ++ opening).length = body.length := by
    rw [List.length_append, Nat.add_sub_cancel_left]
  refine ⟨by simp, by simp, (opening, closing), hmarks, ?_, ?_⟩
  · simp only [hfront]
    exact List.suffix_append before opening
  · simp only [hrest, hbody]
    rcases hend with hi | ⟨hnone, rfl⟩
    · exact ⟨_, .found (indexOf?_isFirst hi)⟩
    · rw [List.append_nil]
      exact ⟨_, .missing (not_infix_of_indexOf? hnone)⟩

theorem IsBody.boundaries {content : List Char} {s : Span} (h : IsBody (utf8 content) s) :
    IsBoundary content s.start ∧ IsBoundary content s.stop := by
  obtain ⟨pre, mid, post, rfl, rfl, -⟩ := h.sealed
  constructor
  · exact isBoundary_iff.mpr ⟨pre, mid ++ post, by simp, rfl⟩
  · exact isBoundary_iff.mpr ⟨pre ++ mid, post, rfl, byteLength_append pre mid⟩

theorem block_inside {bs : Bytes} {s : Span} (h : s ∈ (scan bs).blocks) :
    ∃ r ∈ (scan bs).excluded.spans, r.start ≤ s.start ∧ s.stop ≤ r.stop := by
  obtain ⟨start, n, block, hx, rfl⟩ := mem_blocks h
  obtain ⟨r, hr, hstart, hstop⟩ : ∃ r ∈ (scan bs).excluded.spans, r.start ≤ start ∧ start + n ≤ r.stop := by
    apply (SpanSet.ofSpans_spec _).1.exists_around (s := ⟨start, start + n⟩)
    · exact Nat.lt_add_of_pos_right (find_length_pos hx)
    · intro p hp
      exact (excluded_covers bs p).mpr ⟨start, n, some block, hx, hp.1, hp.2⟩
  obtain ⟨-, hbounds⟩ := find_block_bounds hx
  refine ⟨r, hr, ?_, ?_⟩ <;> simp only [Span.shift] <;> omega

theorem tag_mem_fences : (⟨ascii "<?php", ascii "?>", true⟩ : Fence) ∈ fences := by simp [fences]

theorem Finds.block_of_tag {before : Option UInt8} {bs : Bytes} {f : Find} (h : Finds before bs f)
    (ho : ascii "<?php" <+: bs) : ∃ n stop, f = .code n (some ⟨5, stop⟩) := by
  have hfenced : ¬ Unfenced bs := fun hun => hun _ tag_mem_fences ho
  cases h with
  | @fence f hf hopening hlongest =>
    have hlonger : ∀ f ∈ fences, (ascii "<?php").length ≤ f.opening.length →
        f.opening.length = 5 ∧ f.holdsBlock = true := by decide
    obtain ⟨hlen, hholds⟩ := hlonger f hf (hlongest _ tag_mem_fences ho)
    obtain ⟨q, n, hfind, -⟩ := f.find_firstMark hopening.length_le
    rw [hfind, hlen, hholds]
    exact ⟨_, _, rfl⟩
  | single h => exact absurd h hfenced
  | escaped h hat => exact absurd h hfenced
  | word h => exact absurd h.unfenced hfenced
  | bare h hplain hb => exact absurd h.unfenced hfenced
  | unmatched h ha hm => exact absurd h.unfenced hfenced
  | arguments h ha hm => exact absurd h.unfenced hfenced
  | block h hplain => exact absurd h.unfenced hfenced

theorem block_of_tag {bs : Bytes} {p : ℕ} (ho : ascii "<?php" <+: bs.drop p) :
    (∃ s ∈ (scan bs).blocks, s.start = p + 5) ∨ ∃ r, IsRegion bs r ∧ r.start < p ∧ p < r.stop := by
  obtain ⟨start, n, block, hx, hle, hlt⟩ := (finds_scan 0 none bs).opening_code tag_mem_fences ho
  rw [Nat.zero_add] at hle hlt
  rcases Nat.eq_or_lt_of_le hle with rfl | hinside
  · obtain ⟨m, stop, hfind⟩ := (find_at hx).2.block_of_tag ho
    obtain ⟨rfl, rfl⟩ := Find.code.inj hfind
    refine .inl ⟨(⟨5, stop⟩ : Span).shift start, List.mem_filterMap.mpr ⟨_, hx, rfl⟩, ?_⟩
    simp only [Span.shift]
    omega
  · exact .inr ⟨⟨start, start + n⟩, find_isRegion hx, hinside, hlt⟩

/-- The span lies in the text as the body of a block does: between characters, inside one span of the template code, right
behind an opening mark and up to the first closing mark, or up to the end if there is none. Whether there is one shows at
the end of the region. -/
structure Placed (content : List Char) (s : Span) : Prop where
  ordered : s.start ≤ s.stop
  bounded : s.stop ≤ byteLength content
  boundaries : IsBoundary content s.start ∧ IsBoundary content s.stop
  inside : ∃ r ∈ (scan (utf8 content)).excluded.spans, r.start ≤ s.start ∧ s.stop ≤ r.stop
  marked : ∃ marks ∈ blockMarks, marks.1 <:+ (utf8 content).take s.start ∧
    ¬ marks.2 <:+: ((utf8 content).drop s.start).take (s.stop - s.start) ∧
    ∃ n, FirstMark marks.2 ((utf8 content).drop s.start) (s.stop - s.start) n ∧
      (marks.2 <:+ (utf8 content).take (s.start + n) → s.stop + marks.2.length = s.start + n) ∧
      (¬ marks.2 <:+ (utf8 content).take (s.start + n) → s.stop = s.start + n)

theorem blocks_placed (content : List Char) :
    ((scan (utf8 content)).blocks.Pairwise fun a b => a.stop < b.start) ∧
      (∀ s ∈ (scan (utf8 content)).blocks, Placed content s) ∧
      ∀ p, ascii "<?php" <+: (utf8 content).drop p →
        (∃ s ∈ (scan (utf8 content)).blocks, s.start = p + 5) ∨
          ∃ r, IsRegion (utf8 content) r ∧ r.start < p ∧ p < r.stop := by
  refine ⟨blocks_pairwise _, ?_, fun p ho => block_of_tag ho⟩
  intro s hs
  have hbody := blocks_isBody hs
  obtain ⟨hordered, hbounded, marks, hmarks, hopening, n, hend⟩ := hbody.marked
  obtain ⟨hclosed, hopen⟩ := hend.told hmarks hopening
  rw [length_utf8] at hbounded
  refine ⟨hordered, hbounded, hbody.boundaries, block_inside hs, marks, hmarks, hopening,
    hend.not_infix (blockMarks_closing hmarks), n, hend, fun hends => ?_, fun hends => ?_⟩
  · have := hclosed hends
    omega
  · have := hopen hends
    omega

def blocked : List Char := "é@php'à'@endphp<!--<?php-->;<?php?><?php".toList

theorem blocks_placed_blocked :
    (scan (utf8 blocked)).blocks = [⟨6, 10⟩, ⟨35, 35⟩, ⟨42, 42⟩] ∧
      (∀ s ∈ [(⟨6, 10⟩ : Span), ⟨35, 35⟩, ⟨42, 42⟩], Placed blocked s) ∧
      ascii "<?php" <+: (utf8 blocked).drop 21 ∧ ∃ r, IsRegion (utf8 blocked) r ∧ r.start < 21 ∧ 21 < r.stop := by
  obtain ⟨-, hplaced, htags⟩ := blocks_placed blocked
  have hblocks : (scan (utf8 blocked)).blocks = [⟨6, 10⟩, ⟨35, 35⟩, ⟨42, 42⟩] := by decide +kernel
  have htag : ascii "<?php" <+: (utf8 blocked).drop 21 := by decide
  refine ⟨hblocks, hblocks ▸ hplaced, htag, (htags 21 htag).resolve_left ?_⟩
  rw [hblocks]
  decide

end VisibleText.Blade
