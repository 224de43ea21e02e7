import VisibleText.Code.Extract
import VisibleText.Proofs.Hits
import VisibleText.Proofs.Lexemes
import VisibleText.Proofs.Ordered

namespace VisibleText

@[simp]
theorem Hit.span_start (h : Hit) : h.span.start = h.offset := rfl

@[simp]
theorem Hit.span_stop (h : Hit) : h.span.stop = h.stop := rfl

theorem mergeSort_pairwise {hits : List Hit} (hne : ∀ h ∈ hits, h.offset < h.stop)
    (hapart : hits.Pairwise fun a b => a.stop ≤ b.offset ∨ b.stop ≤ a.offset) :
    (hits.mergeSort fun a b => a.offset ≤ b.offset).Pairwise fun a b => a.stop ≤ b.offset := by
  have hperm := List.mergeSort_perm hits fun a b => a.offset ≤ b.offset
  have hapart := hperm.symm.pairwise hapart fun h => h.symm
  refine ((mergeSort_sorted Hit.offset hits).and hapart).imp_of_mem ?_
  intro a b ha hb ⟨hle, hab⟩
  have := hne a (hperm.mem_iff.mp ha)
  have := hne b (hperm.mem_iff.mp hb)
  omega

namespace Code

theorem literal_boundaries {d : Dialect} {content : List Char} {s : Span} {l : Literal}
    (h : l ∈ literals d (utf8 content) s) :
    IsBoundary content l.body.start ∧ IsBoundary content l.body.stop := by
  obtain ⟨hq, hopen, hclose⟩ := literals_quotes h
  have hstart : l.start + 1 = l.body.start := by
    have := literals_bounds h
    simp only [Literal.start] at *
    omega
  exact ⟨hstart ▸ (isBoundary_of_ascii hopen (isQuote_ascii hq)).2,
    (isBoundary_of_ascii hclose (isQuote_ascii hq)).1⟩

theorem literal_standsAt {d : Dialect} {content : List Char} {s : Span} {l : Literal}
    (h : l ∈ literals d (utf8 content) s) : ∃ text, StandsAt content l.start text ∧ l.stop = l.start + byteLength text := by
  obtain ⟨hq, hopen, hclose⟩ := literals_quotes h
  have hbounds := literals_bounds h
  exact standsAt_of_boundaries (by omega) (isBoundary_of_ascii hopen (isQuote_ascii hq)).1
    (isBoundary_of_ascii hclose (isQuote_ascii hq)).2

theorem extractRange_literal {content : List Char} {s : Span} {h : Hit} (hm : h ∈ extractRange content s) :
    ∃ l ∈ literals .php (utf8 content) s, Hit.at? content l.body = some h := by
  obtain ⟨l, hl, hh⟩ := List.mem_filterMap.mp hm
  refine ⟨l, hl, ?_⟩
  split_ifs at hh
  exact hh

theorem extractRange_genuine {content : List Char} {s : Span} {h : Hit} (hm : h ∈ extractRange content s) :
    h.Genuine content := by
  obtain ⟨l, hl, hh⟩ := extractRange_literal hm
  obtain ⟨hstart, hstop⟩ := literal_boundaries hl
  exact Hit.at?_genuine (literals_bounds hl).2.2.1 hstart hstop hh

theorem extractRange_ordered (content : List Char) (s : Span) :
    Ordered Hit.span s.start s.stop (extractRange content s) := by
  refine Ordered.filterMap Literal.body ?_ ?_ ?_
  · intro l hl h hh
    split_ifs at hh
    exact Hit.at?_bounds (literals_bounds hl).2.2.1 hh
  · intro l hl
    have := literals_bounds hl
    omega
  · refine (literals_pairwise .php (utf8 content) s).imp_of_mem ?_
    intro a b ha hb hle _ _
    have := literals_bounds ha
    have := literals_bounds hb
    omega

theorem extractRange_within {content : List Char} {s : Span} {h : Hit} (hm : h ∈ extractRange content s) :
    s.start ≤ h.offset ∧ h.stop ≤ s.stop := (extractRange_ordered content s).within h hm

end Code

end VisibleText
