import Mathlib.Data.List.Basic
import VisibleText.Pattern.Basic

/-!
The search for a match finds one exactly when there is one. Each pattern relates the position at which a match starts
to the positions at which one can end; `Pattern.reach` turns a set of positions into the set of those related to it.
A repetition follows the relation of its body a number of times. Matches never go backwards, so a way that takes more
steps than there are positions stands still somewhere and can be made shorter: that is why it is enough to look for a
bounded number of repetitions.
-/
namespace VisibleText

def Marked (m : Marks) (i : ℕ) : Prop := m[i]? = some true

def Leaps (R : ℕ → ℕ → Prop) : ℕ → ℕ → ℕ → Prop
  | 0, i, j => i = j
  | n + 1, i, j => ∃ k, R i k ∧ Leaps R n k j

/-- On marks of a length, the function marks what the relation leads to from marked positions. -/
def Follows (length : ℕ) (f : Marks → Marks) (R : ℕ → ℕ → Prop) : Prop :=
  ∀ m, m.length = length → (f m).length = length ∧ ∀ j, Marked (f m) j ↔ ∃ i, Marked m i ∧ R i j

section

variable {length n : ℕ} {f : Marks → Marks} {R : ℕ → ℕ → Prop} {m : Marks} {i j : ℕ}

theorem Marked.lt (h : Marked m i) : i < m.length := (List.getElem?_eq_some_iff.mp h).1

theorem contains_true_iff : m.contains true = true ↔ ∃ i, Marked m i := by
  rw [List.contains_iff_mem, List.mem_iff_getElem?]
  rfl

theorem marked_union {a b : Marks} (h : a.length = b.length) : Marked (Marks.union a b) i ↔ Marked a i ∨ Marked b i := by
  simp only [Marked, Marks.union, List.getElem?_zipWith]
  by_cases hi : i < a.length
  · rw [List.getElem?_eq_getElem hi, List.getElem?_eq_getElem (h ▸ hi)]
    simp
  · rw [List.getElem?_eq_none (by omega), List.getElem?_eq_none (by omega)]
    simp

theorem Leaps.append {k : ℕ} (h : Leaps R n i k) {n' : ℕ} (h' : Leaps R n' k j) : Leaps R (n + n') i j := by
  induction n generalizing i with
  | zero =>
    obtain rfl : i = k := h
    rwa [Nat.zero_add]
  | succ n ih =>
    obtain ⟨l, hl, hrest⟩ := h
    rw [Nat.succ_add]
    exact ⟨l, hl, ih hrest⟩

theorem Leaps.split {n' : ℕ} (h : Leaps R (n + n') i j) : ∃ k, Leaps R n i k ∧ Leaps R n' k j := by
  induction n generalizing i with
  | zero =>
    rw [Nat.zero_add] at h
    exact ⟨i, rfl, h⟩
  | succ n ih =>
    rw [Nat.succ_add] at h
    obtain ⟨l, hl, hrest⟩ := h
    obtain ⟨k, hk, hk'⟩ := ih hrest
    exact ⟨k, ⟨l, hl, hk⟩, hk'⟩

theorem Leaps.shorten (hR : ∀ i j, R i j → i ≤ j) (h : Leaps R n i j) :
    i ≤ j ∧ ∃ k, k ≤ n ∧ k ≤ j - i ∧ Leaps R k i j := by
  induction n generalizing i with
  | zero =>
    obtain rfl : i = j := h
    exact ⟨Nat.le_refl i, 0, Nat.le_refl 0, Nat.zero_le _, rfl⟩
  | succ n ih =>
    obtain ⟨l, hl, hrest⟩ := h
    have hil := hR i l hl
    obtain ⟨hlj, k, hkn, hkj, hk⟩ := ih hrest
    refine ⟨by omega, ?_⟩
    by_cases hstill : l = i
    · subst hstill
      exact ⟨k, by omega, hkj, hk⟩
    · exact ⟨k + 1, by omega, by omega, l, hl, hk⟩

theorem Follows.times (hf : Follows length f R) (n : ℕ) : Follows length (Pattern.times f n) (Leaps R n) := by
  intro m hm
  induction n generalizing m with
  | zero => exact ⟨hm, fun j => by simp [Pattern.times, Leaps]⟩
  | succ n ih =>
    obtain ⟨hlength, hmarked⟩ := hf m hm
    rw [Pattern.times]
    split_ifs with hsome
    · obtain ⟨hlength', hmarked'⟩ := ih (f m) hlength
      refine ⟨hlength', fun j => ?_⟩
      rw [hmarked']
      constructor
      · rintro ⟨k, hk, hj⟩
        obtain ⟨i, hi, hik⟩ := (hmarked k).mp hk
        exact ⟨i, hi, k, hik, hj⟩
      · rintro ⟨i, hi, k, hik, hj⟩
        exact ⟨k, (hmarked k).mpr ⟨i, hi, hik⟩, hj⟩
    · -- nothing is marked, so nothing can be reached
      rw [contains_true_iff] at hsome
      refine ⟨hm, fun j => ⟨fun hj => absurd ⟨j, hj⟩ hsome, ?_⟩⟩
      rintro ⟨i, hi, -⟩
      exact absurd ⟨i, hi⟩ hsome

theorem Follows.close (hf : Follows length f R) (n : ℕ) :
    Follows length (Marks.close f n) fun i j => ∃ k ≤ n, Leaps R k i j := by
  intro m hm
  induction n generalizing m with
  | zero =>
    refine ⟨hm, fun j => ?_⟩
    simp [Marks.close, Leaps]
  | succ n ih =>
    obtain ⟨hlength, hmarked⟩ := hf m hm
    have hunion {j : ℕ} : Marked (Marks.union m (f m)) j ↔ Marked m j ∨ Marked (f m) j := marked_union (by omega)
    rw [Marks.close]
    dsimp only
    split_ifs with hfixed
    · -- one more step marks nothing new, so no number of steps does
      have hstays {i j : ℕ} (hi : Marked m i) (hij : R i j) : Marked m j := by
        rw [← beq_iff_eq.mp hfixed]
        exact hunion.mpr (Or.inr ((hmarked j).mpr ⟨i, hi, hij⟩))
      have hleaps {k i j : ℕ} (hi : Marked m i) (h : Leaps R k i j) : Marked m j := by
        induction k generalizing i with
        | zero =>
          obtain rfl : i = j := h
          exact hi
        | succ k ih =>
          obtain ⟨l, hl, hrest⟩ := h
          exact ih (hstays hi hl) hrest
      refine ⟨hm, fun j => ⟨fun hj => ⟨j, hj, 0, Nat.zero_le _, rfl⟩, ?_⟩⟩
      rintro ⟨i, hi, k, -, hk⟩
      exact hleaps hi hk
    · have hnext : (Marks.union m (f m)).length = length := by
        simp only [Marks.union, List.length_zipWith]
        omega
      obtain ⟨hlength', hmarked'⟩ := ih _ hnext
      refine ⟨hlength', fun j => ?_⟩
      rw [hmarked']
      constructor
      · rintro ⟨i, hi, k, hk, hleaps⟩
        rcases hunion.mp hi with hi | hi
        · exact ⟨i, hi, k, by omega, hleaps⟩
        · obtain ⟨l, hl, hli⟩ := (hmarked i).mp hi
          exact ⟨l, hl, k + 1, by omega, i, hli, hleaps⟩
      · rintro ⟨i, hi, k, hk, hleaps⟩
        cases k with
        | zero => exact ⟨i, hunion.mpr (Or.inl hi), 0, Nat.zero_le _, hleaps⟩
        | succ k =>
          obtain ⟨l, hl, hrest⟩ := hleaps
          exact ⟨l, hunion.mpr (Or.inr ((hmarked l).mpr ⟨i, hi, hl⟩)), k, by omega, hrest⟩

end

namespace Pattern

variable {text : List Char} {p q : Pattern} {i j : ℕ}

theorem matches_empty_iff : Matches text .empty i j ↔ i = j ∧ i ≤ text.length := by
  constructor
  · rintro ⟨_, hi⟩
    exact ⟨rfl, hi⟩
  · rintro ⟨rfl, hi⟩
    exact .empty i hi

theorem matches_chars_iff {s : CharSet} :
    Matches text (.chars s) i j ↔ j = i + 1 ∧ ∃ c, text[i]? = some c ∧ s.contains c = true := by
  constructor
  · rintro ⟨⟩
    exact ⟨rfl, _, ‹_›, ‹_›⟩
  · rintro ⟨rfl, c, hc, hs⟩
    exact .chars hc hs

theorem matches_look_iff {l : Look} : Matches text (.look l) i j ↔
    i = j ∧ i ≤ text.length ∧ l.holds (if i = 0 then none else text[i - 1]?) text[i]? = true := by
  constructor
  · rintro ⟨⟩
    exact ⟨rfl, ‹_›, ‹_›⟩
  · rintro ⟨rfl, hi, hl⟩
    exact .look hi hl

theorem matches_seq_iff : Matches text (.seq p q) i j ↔ ∃ k, Matches text p i k ∧ Matches text q k j := by
  constructor
  · rintro ⟨⟩
    exact ⟨_, ‹_›, ‹_›⟩
  · rintro ⟨k, hp, hq⟩
    exact .seq hp hq

theorem matches_alt_iff : Matches text (.alt p q) i j ↔ Matches text p i j ∨ Matches text q i j := by
  constructor
  · intro h
    cases h with
    | altLeft h => exact Or.inl h
    | altRight h => exact Or.inr h
  · rintro (h | h)
    · exact .altLeft h
    · exact .altRight h

theorem Matches.bounds (h : Matches text p i j) : i ≤ j ∧ j ≤ text.length := by
  induction h with
  | empty i hi => exact ⟨Nat.le_refl i, hi⟩
  | chars hc _ =>
    have := (List.getElem?_eq_some_iff.mp hc).1
    omega
  | look hi _ => exact ⟨Nat.le_refl _, hi⟩
  | seq _ _ ihp ihq => omega
  | altLeft _ ih => exact ih
  | altRight _ ih => exact ih
  | done hi => exact ⟨Nat.le_refl _, hi⟩
  | more _ _ _ ihp ihq => omega

theorem exists_leaps_of_matches {least : ℕ} {most : Option ℕ} (h : Matches text (.repeated p least most) i j) :
    ∃ k, least ≤ k ∧ (∀ n, most = some n → k ≤ n) ∧ Leaps (Matches text p) k i j := by
  generalize hq : Pattern.repeated p least most = q at h
  induction h generalizing least most with
  | done hi =>
    cases hq
    exact ⟨0, Nat.le_refl 0, fun n _ => Nat.zero_le n, rfl⟩
  | more hmost hfirst _ _ ih =>
    cases hq
    obtain ⟨k, hleast, hk, hleaps⟩ := ih rfl
    refine ⟨k + 1, by omega, fun n hn => ?_, _, hfirst, hleaps⟩
    have := hmost n hn
    have := hk (n - 1) (by rw [hn]; rfl)
    omega
  | _ => cases hq

theorem matches_of_leaps {k : ℕ} (hi : i ≤ text.length) (h : Leaps (Matches text p) k i j) {least : ℕ} {most : Option ℕ}
    (hleast : least ≤ k) (hmost : ∀ n, most = some n → k ≤ n) : Matches text (.repeated p least most) i j := by
  induction k generalizing i least most with
  | zero =>
    obtain rfl : i = j := h
    obtain rfl : least = 0 := by omega
    exact .done hi
  | succ k ih =>
    obtain ⟨l, hl, hrest⟩ := h
    refine .more (fun n hn => ?_) hl (ih hl.bounds.2 hrest (by omega) fun n hn => ?_)
    · have := hmost n hn
      omega
    · obtain ⟨n', hn', rfl⟩ := Option.map_eq_some_iff.mp hn
      have := hmost n' hn'
      omega

theorem matches_repeated_iff {least : ℕ} {most : Option ℕ} : Matches text (.repeated p least most) i j ↔
    i ≤ text.length ∧ ∃ k, least ≤ k ∧ (∀ n, most = some n → k ≤ n) ∧ Leaps (Matches text p) k i j := by
  constructor
  · intro h
    exact ⟨Nat.le_trans h.bounds.1 h.bounds.2, exists_leaps_of_matches h⟩
  · rintro ⟨hi, k, hleast, hmost, hleaps⟩
    exact matches_of_leaps hi hleaps hleast hmost

def WellFormed : Pattern → Prop
  | .seq p q => p.WellFormed ∧ q.WellFormed
  | .alt p q => p.WellFormed ∧ q.WellFormed
  | .repeated p least most => p.WellFormed ∧ ∀ n, most = some n → least ≤ n
  | _ => True

theorem surroundings_getElem? (hi : i ≤ text.length) :
    (surroundings text)[i]? = some (if i = 0 then none else text[i - 1]?, text[i]?) := by
  have hbefore : (none :: text.map some)[i]? = some (if i = 0 then none else text[i - 1]?) := by
    cases i with
    | zero => rfl
    | succ i => simp [List.getElem?_eq_getElem (show i < text.length by omega)]
  have hafter : (text.map some ++ [none])[i]? = some text[i]? := by
    by_cases hlast : i = text.length
    · subst hlast
      simp
    · have hlt : i < text.length := by omega
      simp [List.getElem?_append_left, hlt]
  exact List.getElem?_zip_eq_some.mpr ⟨hbefore, hafter⟩

theorem follows_chars (s : CharSet) :
    Follows (text.length + 1) (reach text (.chars s)) (Matches text (.chars s)) := by
  intro m hm
  constructor
  · simp only [reach, List.length_cons, List.length_zipWith]
    omega
  · intro j
    simp only [matches_chars_iff]
    cases j with
    | zero =>
      constructor
      · intro h
        cases h
      · rintro ⟨i, -, hi, -⟩
        omega
    | succ k =>
      rw [Marked, reach, List.getElem?_cons_succ, List.getElem?_zipWith_eq_some]
      constructor
      · rintro ⟨c, marked, hc, hmarked, hand⟩
        obtain ⟨rfl, hs⟩ := Bool.and_eq_true_iff.mp hand
        exact ⟨k, hmarked, rfl, c, hc, hs⟩
      · rintro ⟨i, hi, hk, c, hc, hs⟩
        obtain rfl : k = i := by omega
        exact ⟨c, true, hc, hi, by rw [hs]; rfl⟩

theorem follows_look (l : Look) : Follows (text.length + 1) (reach text (.look l)) (Matches text (.look l)) := by
  have hlength : (surroundings text).length = text.length + 1 := by simp [surroundings]
  intro m hm
  constructor
  · simp only [reach, List.length_zipWith]
    omega
  · intro j
    simp only [matches_look_iff]
    rw [Marked, reach, List.getElem?_zipWith_eq_some]
    constructor
    · rintro ⟨⟨before, after⟩, marked, hsides, hmarked, hand⟩
      obtain ⟨rfl, hl⟩ := Bool.and_eq_true_iff.mp hand
      have hj : j ≤ text.length := by
        have := (List.getElem?_eq_some_iff.mp hsides).1
        omega
      rw [surroundings_getElem? hj] at hsides
      obtain ⟨rfl, rfl⟩ := Prod.mk.inj (Option.some.inj hsides)
      exact ⟨j, hmarked, rfl, hj, hl⟩
    · rintro ⟨i, hi, rfl, hle, hl⟩
      exact ⟨_, true, surroundings_getElem? hle, hi, by simp only [hl]; rfl⟩

def rounds (length least : ℕ) : Option ℕ → ℕ
  | none => length + 1
  | some n => min (n - least) (length + 1)

theorem follows_repeated (hp : Follows (text.length + 1) (reach text p) (Matches text p)) {least : ℕ} {most : Option ℕ}
    (hmost : ∀ n, most = some n → least ≤ n) :
    Follows (text.length + 1) (reach text (.repeated p least most)) (Matches text (.repeated p least most)) := by
  have hreach (m : Marks) : reach text (.repeated p least most) m =
      Marks.close (reach text p) (rounds text.length least most) (times (reach text p) least m) := by
    cases most <;> rfl
  intro m hm
  obtain ⟨hlength, hmarked⟩ := hp.times least m hm
  obtain ⟨hlength', hmarked'⟩ := hp.close (rounds text.length least most) _ hlength
  rw [hreach]
  refine ⟨hlength', fun j => ?_⟩
  rw [hmarked']
  constructor
  · rintro ⟨l, hl, k, hk, hleaps⟩
    obtain ⟨i, hi, hfirst⟩ := (hmarked l).mp hl
    have hlt := hi.lt
    refine ⟨i, hi, matches_repeated_iff.mpr ⟨by omega, least + k, by omega, fun n hn => ?_, hfirst.append hleaps⟩⟩
    have hleast := hmost n hn
    subst hn
    rw [rounds] at hk
    omega
  · rintro ⟨i, hi, hmatch⟩
    obtain ⟨-, k, hleast, hk, hleaps⟩ := matches_repeated_iff.mp hmatch
    obtain ⟨more, rfl⟩ : ∃ more, k = least + more := ⟨k - least, by omega⟩
    obtain ⟨l, hfirst, hrest⟩ := hleaps.split
    obtain ⟨-, short, hshort, hsteps, hleaps⟩ := hrest.shorten fun _ _ h => h.bounds.1
    have hj := hmatch.bounds
    refine ⟨l, (hmarked l).mpr ⟨i, hi, hfirst⟩, short, ?_, hleaps⟩
    cases most with
    | none =>
      rw [rounds]
      omega
    | some n =>
      have := hk n rfl
      rw [rounds]
      omega

theorem follows_reach (text : List Char) (hp : p.WellFormed) : Follows (text.length + 1) (reach text p) (Matches text p) := by
  induction p with
  | empty =>
    intro m hm
    refine ⟨hm, fun j => ?_⟩
    simp only [reach, matches_empty_iff]
    constructor
    · intro hj
      have := hj.lt
      exact ⟨j, hj, rfl, by omega⟩
    · rintro ⟨i, hi, rfl, -⟩
      exact hi
  | chars s => exact follows_chars s
  | look l => exact follows_look l
  | seq p q ihp ihq =>
    intro m hm
    obtain ⟨hlength, hmarked⟩ := ihp hp.1 m hm
    obtain ⟨hlength', hmarked'⟩ := ihq hp.2 _ hlength
    refine ⟨hlength', fun j => ?_⟩
    simp only [matches_seq_iff]
    rw [reach, hmarked']
    constructor
    · rintro ⟨k, hk, hq⟩
      obtain ⟨i, hi, hp⟩ := (hmarked k).mp hk
      exact ⟨i, hi, k, hp, hq⟩
    · rintro ⟨i, hi, k, hp, hq⟩
      exact ⟨k, (hmarked k).mpr ⟨i, hi, hp⟩, hq⟩
  | alt p q ihp ihq =>
    intro m hm
    obtain ⟨hlength, hmarked⟩ := ihp hp.1 m hm
    obtain ⟨hlength', hmarked'⟩ := ihq hp.2 m hm
    refine ⟨?_, fun j => ?_⟩
    · simp only [reach, Marks.union, List.length_zipWith]
      omega
    · simp only [matches_alt_iff, and_or_left, exists_or]
      rw [reach, marked_union (by omega), hmarked, hmarked']
  | repeated p least most ih => exact follows_repeated (ih hp.1) hp.2

theorem isMatch_iff (hp : p.WellFormed) : p.isMatch text = true ↔ ∃ i j, Matches text p i j := by
  obtain ⟨-, hmarked⟩ := follows_reach text hp (List.replicate (text.length + 1) true) List.length_replicate
  rw [isMatch, contains_true_iff]
  constructor
  · rintro ⟨j, hj⟩
    obtain ⟨i, -, h⟩ := (hmarked j).mp hj
    exact ⟨i, j, h⟩
  · rintro ⟨i, j, h⟩
    have hi : Marked (List.replicate (text.length + 1) true) i := by
      have := h.bounds
      rw [Marked, List.getElem?_replicate, if_pos (by omega)]
    exact ⟨j, (hmarked j).mpr ⟨i, hi, h⟩⟩

end Pattern

end VisibleText
