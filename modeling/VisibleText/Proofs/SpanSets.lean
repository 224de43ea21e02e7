import Mathlib.Data.List.Basic
import VisibleText.Span

namespace VisibleText

theorem Span.contains_iff (s : Span) (n : ℕ) : s.Contains n ↔ s.start ≤ n ∧ n < s.stop := Iff.rfl

instance (s : Span) (n : ℕ) : Decidable (s.Contains n) := inferInstanceAs (Decidable (_ ∧ _))

theorem Span.isEmpty_iff (s : Span) : s.isEmpty = true ↔ s.stop ≤ s.start := by simp [Span.isEmpty]

theorem Span.le_iff (a b : Span) :
    Span.le a b = true ↔ a.start < b.start ∨ a.start = b.start ∧ a.stop ≤ b.stop := by
  simp [Span.le]

theorem Span.start_le_of_le {a b : Span} (h : Span.le a b = true) : a.start ≤ b.start := by
  rw [Span.le_iff] at h
  omega

def Span.Disjoint (a b : Span) : Prop := ∀ n, ¬ (a.Contains n ∧ b.Contains n)

theorem Span.Disjoint.stop_le {a b : Span} (h : a.Disjoint b) (hab : a.start ≤ b.start)
    (hb : b.start < b.stop) : a.stop ≤ b.start := by
  by_contra hlt
  exact h b.start ⟨⟨hab, by omega⟩, ⟨Nat.le_refl _, hb⟩⟩

namespace SpanSet

structure Apart (spans : List Span) : Prop where
  nonempty : ∀ s ∈ spans, s.start < s.stop
  pairwise : spans.Pairwise fun a b => a.stop < b.start

theorem go_covers (current : Span) (rest : List Span) (hle : ∀ s ∈ rest, current.start ≤ s.start)
    (hsorted : rest.Pairwise fun a b => a.start ≤ b.start) (n : ℕ) :
    (∃ s ∈ joinAll.go current rest, s.Contains n) ↔ current.Contains n ∨ ∃ s ∈ rest, s.Contains n := by
  induction rest generalizing current with
  | nil => simp [joinAll.go]
  | cons s rest ih =>
    obtain ⟨hs, hrest⟩ := List.forall_mem_cons.mp hle
    obtain ⟨hnext, hsorted⟩ := List.pairwise_cons.mp hsorted
    simp only [joinAll.go, List.exists_mem_cons_iff]
    split_ifs with hjoin
    · have hwider : (⟨current.start, max current.stop s.stop⟩ : Span).Contains n ↔
          current.Contains n ∨ s.Contains n := by
        simp only [Span.contains_iff]
        omega
      rw [ih ⟨current.start, max current.stop s.stop⟩ hrest hsorted, hwider, or_assoc]
    · rw [List.exists_mem_cons_iff, ih s hnext hsorted]

theorem go_start_le (current : Span) (rest : List Span) (hle : ∀ s ∈ rest, current.start ≤ s.start)
    (hsorted : rest.Pairwise fun a b => a.start ≤ b.start) :
    ∀ s ∈ joinAll.go current rest, current.start ≤ s.start := by
  induction rest generalizing current with
  | nil => simp [joinAll.go]
  | cons s rest ih =>
    obtain ⟨hs, hrest⟩ := List.forall_mem_cons.mp hle
    obtain ⟨hnext, hsorted⟩ := List.pairwise_cons.mp hsorted
    simp only [joinAll.go]
    split_ifs
    · exact ih _ hrest hsorted
    · exact List.forall_mem_cons.mpr ⟨Nat.le_refl _, fun r hr => Nat.le_trans hs (ih s hnext hsorted r hr)⟩

theorem go_apart (current : Span) (rest : List Span) (hcurrent : current.start < current.stop)
    (hnonempty : ∀ s ∈ rest, s.start < s.stop) (hle : ∀ s ∈ rest, current.start ≤ s.start)
    (hsorted : rest.Pairwise fun a b => a.start ≤ b.start) : Apart (joinAll.go current rest) := by
  induction rest generalizing current with
  | nil => exact ⟨by simpa [joinAll.go] using hcurrent, by simp [joinAll.go]⟩
  | cons s rest ih =>
    obtain ⟨hs, hrest⟩ := List.forall_mem_cons.mp hle
    obtain ⟨hone, hnonempty⟩ := List.forall_mem_cons.mp hnonempty
    obtain ⟨hnext, hsorted⟩ := List.pairwise_cons.mp hsorted
    simp only [joinAll.go]
    split_ifs with hjoin
    · exact ih _ (by simp only; omega) hnonempty hrest hsorted
    · obtain ⟨hne, hpair⟩ := ih s hone hnonempty hnext hsorted
      refine ⟨List.forall_mem_cons.mpr ⟨hcurrent, hne⟩, List.pairwise_cons.mpr ⟨?_, hpair⟩⟩
      intro r hr
      have := go_start_le s rest hnext hsorted r hr
      omega

theorem joinAll_spec (spans : List Span) (hnonempty : ∀ s ∈ spans, s.start < s.stop)
    (hsorted : spans.Pairwise fun a b => a.start ≤ b.start) :
    Apart (joinAll spans) ∧ ∀ n, (∃ s ∈ joinAll spans, s.Contains n) ↔ ∃ s ∈ spans, s.Contains n := by
  cases spans with
  | nil => exact ⟨⟨by simp [joinAll], by simp [joinAll]⟩, by simp [joinAll]⟩
  | cons s rest =>
    obtain ⟨hone, hnonempty⟩ := List.forall_mem_cons.mp hnonempty
    obtain ⟨hle, hsorted⟩ := List.pairwise_cons.mp hsorted
    refine ⟨go_apart s rest hone hnonempty hle hsorted, fun n => ?_⟩
    rw [joinAll, go_covers s rest hle hsorted, List.exists_mem_cons_iff]

theorem ofSpans_spec (spans : List Span) :
    Apart (ofSpans spans).spans ∧ ∀ n, (ofSpans spans).Covers n ↔ ∃ s ∈ spans, s.Contains n := by
  let kept := (spans.filter fun s => !s.isEmpty).mergeSort Span.le
  have hmem : ∀ s, s ∈ kept ↔ s ∈ spans ∧ s.start < s.stop := by
    intro s
    simp [kept, Span.isEmpty]
  have hsorted : kept.Pairwise fun a b => a.start ≤ b.start := by
    have hle : kept.Pairwise fun a b => Span.le a b = true := by
      apply List.pairwise_mergeSort
      · intro a b c hab hbc
        rw [Span.le_iff] at *
        omega
      · intro a b
        rw [Bool.or_eq_true, Span.le_iff, Span.le_iff]
        omega
    exact hle.imp Span.start_le_of_le
  obtain ⟨hapart, hcovers⟩ := joinAll_spec kept (fun s hs => ((hmem s).mp hs).2) hsorted
  refine ⟨hapart, fun n => (hcovers n).trans ?_⟩
  constructor
  · rintro ⟨s, hs, hn⟩
    exact ⟨s, ((hmem s).mp hs).1, hn⟩
  · rintro ⟨s, hs, hn⟩
    have hlt : s.start < s.stop := Nat.lt_of_le_of_lt hn.1 hn.2
    exact ⟨s, (hmem s).mpr ⟨hs, hlt⟩, hn⟩

theorem Apart.find?_start_le {spans : List Span} (h : Apart spans) {n : ℕ} {r r' : Span}
    (hfind : spans.find? (fun s => n < s.stop) = some r) (hr : r' ∈ spans) (hn : n < r'.stop) :
    r.start ≤ r'.start := by
  obtain ⟨-, as, bs, rfl, hbefore⟩ := List.find?_eq_some_iff_append.mp hfind
  rcases List.mem_append.mp hr with hold | hnew
  · have := hbefore r' hold
    simp only [Bool.not_eq_true', decide_eq_false_iff_not] at this
    omega
  · rcases List.mem_cons.mp hnew with rfl | hlater
    · exact Nat.le_refl _
    · have := (List.pairwise_cons.mp (List.pairwise_append.mp h.pairwise).2.1).1 r' hlater
      have := h.nonempty r (by simp)
      omega

theorem overlaps_iff {set : SpanSet} (h : Apart set.spans) (span : Span) :
    set.overlaps span = true ↔ ∃ n, span.Contains n ∧ set.Covers n := by
  unfold overlaps
  split_ifs with hempty
  · have := (Span.isEmpty_iff span).mp hempty
    simp only [false_iff]
    rintro ⟨n, hn, -⟩
    rw [Span.contains_iff] at hn
    omega
  · have hspan : span.start < span.stop := by simpa [Span.isEmpty] using hempty
    cases hfind : set.spans.find? fun r => decide (span.start < r.stop) with
    | none =>
      simp only [Bool.false_eq_true, false_iff]
      rintro ⟨n, hn, r, hr, hrn⟩
      have := List.find?_eq_none.mp hfind r hr
      simp only [decide_eq_true_eq] at this
      rw [Span.contains_iff] at hn hrn
      omega
    | some r =>
      have hr := List.mem_of_find?_eq_some hfind
      have hstop : span.start < r.stop := by simpa using List.find?_some hfind
      have hne := h.nonempty r hr
      simp only [decide_eq_true_eq]
      constructor
      · intro hlt
        refine ⟨max span.start r.start, ?_, r, hr, ?_⟩ <;> rw [Span.contains_iff] <;> omega
      · rintro ⟨n, hn, r', hr', hrn⟩
        rw [Span.contains_iff] at hn hrn
        have := h.find?_start_le hfind hr' (by omega)
        omega

theorem overlaps_ofSpans (spans : List Span) (span : Span) :
    (ofSpans spans).overlaps span = true ↔ ∃ n, span.Contains n ∧ (ofSpans spans).Covers n :=
  overlaps_iff (ofSpans_spec spans).1 span

end SpanSet

end VisibleText
