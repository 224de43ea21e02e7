import Mathlib.Data.List.Basic
import VisibleText.Span

namespace VisibleText

structure Ordered {α : Type} (place : α → Span) (lo hi : ℕ) (xs : List α) : Prop where
  within : ∀ x ∈ xs, lo ≤ (place x).start ∧ (place x).stop ≤ hi
  pairwise : xs.Pairwise fun a b => (place a).stop ≤ (place b).start

namespace Ordered

variable {α β : Type} {place : α → Span} {lo hi : ℕ}

theorem nil (place : α → Span) (lo hi : ℕ) : Ordered place lo hi [] := ⟨by simp, .nil⟩

theorem singleton {x : α} (hlo : lo ≤ (place x).start) (hhi : (place x).stop ≤ hi) : Ordered place lo hi [x] :=
  ⟨by simpa using ⟨hlo, hhi⟩, by simp⟩

theorem mono {lo' hi' : ℕ} {xs : List α} (h : Ordered place lo hi xs) (hlo : lo' ≤ lo) (hhi : hi ≤ hi') :
    Ordered place lo' hi' xs :=
  ⟨fun x hx => ⟨Nat.le_trans hlo (h.within x hx).1, Nat.le_trans (h.within x hx).2 hhi⟩, h.pairwise⟩

theorem append {mid : ℕ} {xs ys : List α} (hx : Ordered place lo mid xs) (hy : Ordered place mid hi ys)
    (hlo : lo ≤ mid) (hhi : mid ≤ hi) : Ordered place lo hi (xs ++ ys) := by
  constructor
  · intro z hz
    rcases List.mem_append.mp hz with hz | hz
    · exact (hx.mono (Nat.le_refl lo) hhi).within z hz
    · exact (hy.mono hlo (Nat.le_refl hi)).within z hz
  · refine List.pairwise_append.mpr ⟨hx.pairwise, hy.pairwise, ?_⟩
    intro a ha b hb
    exact Nat.le_trans (hx.within a ha).2 (hy.within b hb).1

theorem tail {x : α} {xs : List α} (h : Ordered place lo hi (x :: xs)) : Ordered place (place x).stop hi xs := by
  obtain ⟨hhead, hpair⟩ := List.pairwise_cons.mp h.pairwise
  exact ⟨fun y hy => ⟨hhead y hy, (h.within y (List.mem_cons_of_mem x hy)).2⟩, hpair⟩

theorem filterMap {find : β → Option α} {xs : List β} (source : β → Span)
    (hfind : ∀ x ∈ xs, ∀ y, find x = some y →
      (source x).start ≤ (place y).start ∧ (place y).stop ≤ (source x).stop)
    (hwithin : ∀ x ∈ xs, lo ≤ (source x).start ∧ (source x).stop ≤ hi)
    (hpair : xs.Pairwise fun a b => ∀ y, find b = some y → (source a).stop ≤ (source b).start) :
    Ordered place lo hi (xs.filterMap find) := by
  constructor
  · intro y hy
    obtain ⟨x, hx, hxy⟩ := List.mem_filterMap.mp hy
    have := hfind x hx y hxy
    have := hwithin x hx
    omega
  · rw [List.pairwise_filterMap]
    refine hpair.imp_of_mem ?_
    intro a b ha hb hab y hy z hz
    have := hab z hz
    have := hfind a ha y hy
    have := hfind b hb z hz
    omega

end Ordered

theorem mergeSort_sorted {α κ : Type} [LE κ] [DecidableLE κ] [Std.IsLinearPreorder κ] (key : α → κ) (xs : List α) :
    (xs.mergeSort fun a b => key a ≤ key b).Pairwise fun a b => key a ≤ key b := by
  have hle : (xs.mergeSort fun a b => key a ≤ key b).Pairwise fun a b => decide (key a ≤ key b) = true := by
    apply List.pairwise_mergeSort
    · intro a b c hab hbc
      exact decide_eq_true (Std.le_trans (of_decide_eq_true hab) (of_decide_eq_true hbc))
    · intro a b
      simpa using Std.le_total
  exact hle.imp of_decide_eq_true

end VisibleText
