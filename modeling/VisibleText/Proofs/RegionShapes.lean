import VisibleText.Proofs.Delimiters
import VisibleText.Proofs.SpanForms
import VisibleText.Proofs.TemplateCode

/-!
What template code consists of. A region is fenced by an opening mark and the first closing mark behind it, or it is a
directive: a bare one, one with arguments in parentheses, or one that opens a PHP block. Each span of the template code
is filled by such regions, one right behind the other, and no opening mark stands outside of it.
-/
namespace VisibleText

theorem indexOf?_isFirst {needle bs : Bytes} {i : ℕ} (h : indexOf? needle bs = some i) :
    Code.IsFirst (fun j => needle <+: bs.drop j) i := by
  refine ⟨indexOf?_some h, ?_⟩
  fun_induction indexOf? needle bs generalizing i with
  | case1 hempty =>
    intro j hj
    simp at h
    omega
  | case2 hempty => simp at h
  | case3 b bs hprefix =>
    intro j hj
    simp at h
    omega
  | case4 b bs hprefix ih =>
    obtain ⟨k, hk, rfl⟩ := Option.map_eq_some_iff.mp h
    intro j hj
    cases j with
    | zero => simpa using hprefix
    | succ j => exact ih hk j (by omega)

theorem not_infix_of_indexOf? {needle bs : Bytes} (h : indexOf? needle bs = none) : ¬ needle <:+: bs := by
  fun_induction indexOf? needle bs with
  | case1 hempty => simp at h
  | case2 hempty => simpa using hempty
  | case3 b bs hprefix => simp at h
  | case4 b bs hprefix ih =>
    rw [List.infix_cons_iff, not_or]
    exact ⟨by simpa using hprefix, ih (by simpa using h)⟩

namespace Blade

/-- The first `mark` of the text starts at `q` and ends at `n`. If there is none, both are the end of the text. -/
inductive FirstMark (mark text : Bytes) : ℕ → ℕ → Prop
  | found {q : ℕ} (h : Code.IsFirst (fun i => mark <+: text.drop i) q) : FirstMark mark text q (q + mark.length)
  | missing (h : ¬ mark <:+: text) : FirstMark mark text text.length text.length

def fenceMarks : List (Bytes × Bytes) :=
  [(ascii "\x7b\x7b--", ascii "--\x7d\x7d"), (ascii "\x7b!!", ascii "!!\x7d"), (ascii "\x7b\x7b", ascii "\x7d\x7d"),
    (ascii "<!--", ascii "-->"), (ascii "<?php", ascii "?>"), (ascii "<?=", ascii "?>")]

/-- At place `k`, as many parentheses have been closed as opened. Comments and all that is quoted do not count. -/
def Balances (text : Bytes) (k : ℕ) : Prop :=
  Code.Closes 0x28 0x29 0 ((Code.lexemes .php Code.isQuoteOrBackquote text).flatMap Code.Lexeme.masked) k

inductive Region (before : Option UInt8) (bs : Bytes) : ℕ → Prop
  | fenced {opening closing : Bytes} {q n : ℕ} (hm : (opening, closing) ∈ fenceMarks) (ho : opening <+: bs)
      (hlongest : ∀ marks ∈ fenceMarks, marks.1 <+: bs → marks.1.length ≤ opening.length)
      (hend : FirstMark closing (bs.drop opening.length) q n) : Region before bs (opening.length + n)
  | bare {name : Bytes} (h : Named before bs name) (hplain : ∀ blanks rest, ¬ Argued bs name blanks rest)
      (hb : name ∈ bareDirectives.map ascii) : Region before bs (name.length + 1)
  | matched {name blanks rest : Bytes} {k : ℕ} (h : Named before bs name) (ha : Argued bs name blanks rest)
      (hk : Code.IsFirst (Balances (0x28 :: rest)) k) : Region before bs (name.length + 1 + blanks.length + (k + 1))
  | unmatched {name blanks rest : Bytes} (h : Named before bs name) (ha : Argued bs name blanks rest)
      (hnone : ∀ k, ¬ Balances (0x28 :: rest) k) : Region before bs (name.length + 1)
  | block {q n : ℕ} (h : Named before bs (ascii "php")) (hplain : ∀ blanks rest, ¬ Argued bs (ascii "php") blanks rest)
      (hend : FirstMark (ascii "@endphp") (bs.drop (ascii "@php").length) q n) :
      Region before bs ((ascii "@php").length + n)

theorem fences_marks : fences.map (fun f => (f.opening, f.closing)) = fenceMarks := by
  decide

theorem Fence.find_firstMark (f : Fence) {bs : Bytes} (hlen : f.opening.length ≤ bs.length) :
    ∃ q n, f.find bs = .code (f.opening.length + n)
        (if f.holdsBlock then some ⟨f.opening.length, f.opening.length + q⟩ else none) ∧
      FirstMark f.closing (bs.drop f.opening.length) q n := by
  cases hi : indexOf? f.closing (bs.drop f.opening.length) with
  | some i =>
    refine ⟨i, i + f.closing.length, ?_, .found (indexOf?_isFirst hi)⟩
    simp only [Fence.find, hi, Nat.add_assoc]
  | none =>
    refine ⟨_, _, ?_, .missing (not_infix_of_indexOf? hi)⟩
    simp only [Fence.find, hi, List.length_drop, Nat.add_sub_cancel' hlen]

theorem partnerAfter?_balances (rest : Bytes) (k : ℕ) :
    (Code.partnerAfter? .php 0x28 rest).map (· + 1) = some k ↔ Code.IsFirst (Balances (0x28 :: rest)) k :=
  Code.partnerAfter?_isFirst rfl rest k

theorem Finds.region {before : Option UInt8} {bs : Bytes} {n : ℕ} {block : Option Span}
    (h : Finds before bs (.code n block)) : Region before bs n := by
  generalize hg : Find.code n block = f at h
  cases h with
  | @fence f hf ho hlongest =>
    obtain ⟨q, m, hcode, hend⟩ := f.find_firstMark ho.length_le
    obtain ⟨rfl, -⟩ := Find.code.inj (hg.trans hcode)
    apply Region.fenced _ ho _ hend
    · rw [← fences_marks]
      exact List.mem_map_of_mem hf
    · rw [← fences_marks]
      exact List.forall_mem_map.mpr hlongest
  | single h => simp at hg
  | escaped h hat => simp at hg
  | word h => simp at hg
  | bare h hplain hb =>
    obtain ⟨rfl, -⟩ := Find.code.inj hg
    exact .bare h hplain hb
  | @unmatched name blanks rest h ha hm =>
    obtain ⟨rfl, -⟩ := Find.code.inj hg
    apply Region.unmatched h ha
    intro k hk
    obtain ⟨first, hfirst⟩ := Code.exists_isFirst ⟨k, hk⟩
    simpa [hm] using (partnerAfter?_balances rest first).mpr hfirst
  | @arguments name blanks rest m h ha hm =>
    obtain ⟨rfl, -⟩ := Find.code.inj hg
    exact .matched h ha ((partnerAfter?_balances rest (m + 1)).mp (by rw [hm]; rfl))
  | block h hplain =>
    obtain ⟨q, m, hcode, hend⟩ := blockFence.find_firstMark h.starts.length_le
    obtain ⟨rfl, -⟩ := Find.code.inj (hg.trans hcode)
    exact .block h hplain hend

def IsRegion (bs : Bytes) (s : Span) : Prop :=
  ∃ n, s.stop = s.start + n ∧ Region (bs.take s.start).getLast? (bs.drop s.start) n

theorem find_isRegion {bs : Bytes} {start n : ℕ} {block : Option Span}
    (h : (start, .code n block) ∈ finds 0 none bs) : IsRegion bs ⟨start, start + n⟩ :=
  ⟨n, rfl, (find_at h).2.region⟩

theorem excluded_tiled (bs : Bytes) : ∀ r ∈ (scan bs).excluded.spans,
    ∃ parts, SpanSet.Tiling r.start parts r.stop ∧ ∀ s ∈ parts, IsRegion bs s := by
  intro r hr
  have hscan := finds_scan 0 none bs
  obtain ⟨parts, htiling, hparts⟩ : ∃ parts, SpanSet.Tiling r.start parts r.stop ∧ parts ⊆ _ := by
    refine SpanSet.ofSpans_tiled ?_ ?_ r hr
    · intro s hs
      obtain ⟨x, hx, hs⟩ := List.mem_filterMap.mp hs
      obtain ⟨start, n, block, rfl, rfl⟩ := span_of_find hs
      exact Nat.lt_add_of_pos_right (find_length_pos hx)
    · rw [List.pairwise_filterMap]
      refine hscan.pairwise.imp ?_
      intro x y hle s hs t ht
      obtain ⟨start, n, block, rfl, rfl⟩ := span_of_find hs
      obtain ⟨start', n', block', rfl, rfl⟩ := span_of_find ht
      exact hle
  refine ⟨parts, htiling, ?_⟩
  intro s hs
  obtain ⟨x, hx, hs⟩ := List.mem_filterMap.mp (hparts hs)
  obtain ⟨start, n, block, rfl, rfl⟩ := span_of_find hs
  exact find_isRegion hx

theorem regions_complete_tight (bs : Bytes) :
    (∀ mark ∈ openings, ∀ p, utf8 mark.toList <+: bs.drop p → (scan bs).excluded.Covers p) ∧
      SpanSet.Apart (scan bs).excluded.spans ∧
      ∀ r ∈ (scan bs).excluded.spans, ∃ parts, SpanSet.Tiling r.start parts r.stop ∧ ∀ s ∈ parts, IsRegion bs s := by
  refine ⟨?_, (SpanSet.ofSpans_spec _).1, excluded_tiled bs⟩
  intro mark hmark p hp
  obtain ⟨f, hf, hopening, -⟩ := openings_fences mark hmark
  exact opening_covered hf (hopening ▸ hp)

def commented : Bytes := ascii "\x7b\x7b-- \x7b\x7b \x7d\x7d --\x7d\x7d@if (f(')'))b@c"

theorem regions_complete_tight_commented :
    (scan commented).excluded.spans = [⟨0, 27⟩] ∧ utf8 "\x7b\x7b".toList <+: commented.drop 5 ∧
      (scan commented).excluded.Covers 5 ∧
      ∃ parts, SpanSet.Tiling 0 parts 27 ∧ ∀ s ∈ parts, IsRegion commented s := by
  obtain ⟨hopenings, hapart, htiled⟩ := regions_complete_tight commented
  have hfinds : finds 0 none commented =
      [(0, .code 15 none), (15, .code 12 none), (27, .markup 1), (28, .markup 1), (29, .markup 1)] := by
    decide +kernel
  have hspans : (scan commented).excluded.spans = [⟨0, 27⟩] := by
    apply hapart.eq_of_covers ⟨by decide, by decide⟩
    intro n
    apply (excluded_covers commented n).trans
    simp only [hfinds, List.mem_cons, Prod.mk.injEq, Find.code.injEq, reduceCtorEq, and_false, List.not_mem_nil, or_false,
      exists_eq_left, Span.contains_iff]
    constructor
    · rintro ⟨start, m, block, ⟨rfl, rfl, rfl⟩ | ⟨rfl, rfl, rfl⟩, hle, hlt⟩ <;> omega
    · intro hn
      by_cases hfirst : n < 15
      · exact ⟨0, 15, none, .inl ⟨rfl, rfl, rfl⟩, by omega, by omega⟩
      · exact ⟨15, 12, none, .inr ⟨rfl, rfl, rfl⟩, by omega, by omega⟩
  have hopening : utf8 "\x7b\x7b".toList <+: commented.drop 5 := by decide
  exact ⟨hspans, hopening, hopenings _ (by decide) 5 hopening, htiled ⟨0, 27⟩ (by simp [hspans])⟩

end Blade

end VisibleText
