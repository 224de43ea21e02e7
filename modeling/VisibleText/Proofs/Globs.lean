import Mathlib.Data.List.Basic
import VisibleText.Proofs.CharSets
import VisibleText.Proofs.Dictionaries
import VisibleText.Proofs.PatternMatching
import VisibleText.Proofs.PatternReading

namespace VisibleText

namespace Pattern

variable {text : List Char} {p : Pattern} {ps qs : List Pattern} {i j : ℕ}

theorem matches_seqAll_cons : Matches text (seqAll (p :: ps)) i j ↔
    ∃ k, Matches text p i k ∧ Matches text (seqAll ps) k j := by
  cases ps with
  | nil =>
    simp only [seqAll, matches_empty_iff]
    constructor
    · intro h
      exact ⟨j, h, rfl, h.bounds.2⟩
    · rintro ⟨k, h, rfl, -⟩
      exact h
  | cons q ps => exact matches_seq_iff

theorem matches_seqAll_append : Matches text (seqAll (ps ++ qs)) i j ↔
    ∃ k, Matches text (seqAll ps) i k ∧ Matches text (seqAll qs) k j := by
  induction ps generalizing i with
  | nil =>
    simp only [List.nil_append, seqAll, matches_empty_iff]
    constructor
    · intro h
      exact ⟨i, ⟨rfl, Nat.le_trans h.bounds.1 h.bounds.2⟩, h⟩
    · rintro ⟨k, ⟨rfl, -⟩, h⟩
      exact h
  | cons p ps ih =>
    rw [List.cons_append, matches_seqAll_cons]
    simp only [matches_seqAll_cons, ih]
    constructor
    · rintro ⟨k, hp, l, hps, hqs⟩
      exact ⟨l, ⟨k, hp, hps⟩, hqs⟩
    · rintro ⟨l, ⟨k, hp, hps⟩, hqs⟩
      exact ⟨k, hp, l, hps, hqs⟩

theorem matches_textStart_iff : Matches text (.look .textStart) i j ↔ i = 0 ∧ j = 0 := by
  rw [matches_look_iff]
  cases i with
  | zero => simp [Look.holds, eq_comm]
  | succ i =>
    simp only [Look.holds, Nat.add_one_ne_zero, false_and, iff_false, ↓reduceIte]
    rintro ⟨-, hi, hnone⟩
    rw [Nat.add_sub_cancel, List.getElem?_eq_getElem (by omega)] at hnone
    cases hnone

theorem matches_textEnd_iff : Matches text (.look .textEnd) i j ↔ i = text.length ∧ j = text.length := by
  simp only [matches_look_iff, Look.holds, Option.isNone_iff_eq_none, List.getElem?_eq_none_iff]
  omega

def anchored (ps : List Pattern) : Pattern := seqAll (look .textStart :: ps ++ [look .textEnd])

theorem matches_anchored_iff :
    Matches text (anchored ps) i j ↔ i = 0 ∧ j = text.length ∧ Matches text (seqAll ps) 0 text.length := by
  simp only [anchored, List.cons_append, matches_seqAll_cons, matches_seqAll_append, matches_textStart_iff]
  constructor
  · rintro ⟨_, ⟨rfl, rfl⟩, k, hps, l, hend, hlast⟩
    obtain ⟨rfl, rfl⟩ := matches_textEnd_iff.mp hend
    obtain ⟨rfl, -⟩ := matches_empty_iff.mp hlast
    exact ⟨rfl, rfl, hps⟩
  · rintro ⟨rfl, rfl, hps⟩
    exact ⟨0, ⟨rfl, rfl⟩, text.length, hps, text.length, matches_textEnd_iff.mpr ⟨rfl, rfl⟩,
      matches_empty_iff.mpr ⟨rfl, Nat.le_refl _⟩⟩

theorem wellFormed_seqAll (h : ∀ p ∈ ps, p.WellFormed) : (seqAll ps).WellFormed := by
  fun_induction seqAll ps with
  | case1 => trivial
  | case2 p => exact h p List.mem_cons_self
  | case3 p ps _ ih =>
    obtain ⟨hp, hps⟩ := List.forall_mem_cons.mp h
    exact ⟨hp, ih hps⟩

theorem isMatch_anchored_iff (h : ∀ p ∈ ps, p.WellFormed) :
    (anchored ps).isMatch text = true ↔ Matches text (seqAll ps) 0 text.length := by
  have hall : (anchored ps).WellFormed := by
    apply wellFormed_seqAll
    intro p hp
    rw [List.cons_append, List.mem_cons, List.mem_append, List.mem_singleton] at hp
    rcases hp with rfl | hp | rfl
    · trivial
    · exact h p hp
    · trivial
  simp only [isMatch_iff hall, matches_anchored_iff]
  constructor
  · rintro ⟨i, j, -, -, hm⟩
    exact hm
  · intro hm
    exact ⟨0, text.length, rfl, rfl, hm⟩

theorem weight_anchored (ps : List Pattern) : (anchored ps).weight = 64 + (seqAll ps).weight := by
  have hlook (l : Look) : (look l).weight = 32 := rfl
  rw [anchored, List.cons_append, weight_seqAll_cons, weight_seqAll_append, hlook]
  change 32 + ((seqAll ps).weight + 32) = _
  omega

end Pattern

def between (text : List Char) (i j : ℕ) : List Char := (text.drop i).take (j - i)

theorem between_append (text : List Char) {i j k : ℕ} (hij : i ≤ j) (hjk : j ≤ k) :
    between text i j ++ between text j k = between text i k := by
  have hdrop : text.drop j = (text.drop i).drop (j - i) := by
    rw [List.drop_drop]
    congr 1
    omega
  have hsum : k - i = (j - i) + (k - j) := by omega
  rw [between, between, between, hdrop, hsum, List.take_add]

theorem length_between {text : List Char} {i j : ℕ} (hj : j ≤ text.length) : (between text i j).length = j - i := by
  rw [between, List.length_take, List.length_drop]
  omega

theorem between_whole (text : List Char) : between text 0 text.length = text := by
  rw [between, List.drop_zero, Nat.sub_zero, List.take_length]

theorem between_succ {text : List Char} {i : ℕ} {c : Char} (h : text[i]? = some c) : between text i (i + 1) = [c] := by
  obtain ⟨hi, rfl⟩ := List.getElem?_eq_some_iff.mp h
  rw [between, List.drop_eq_getElem_cons hi, Nat.add_sub_cancel_left]
  rfl

theorem between_middle (a run b : List Char) :
    between (a ++ run ++ b) a.length ((a ++ run ++ b).length - b.length) = run := by
  have hstop : (a ++ run ++ b).length - b.length = a.length + run.length := by
    simp only [List.length_append]
    omega
  rw [hstop, between, Nat.add_sub_cancel_left, List.append_assoc, List.drop_left, List.take_left]

namespace Glob

open Pattern

def ClassFree (cs : List Char) : Prop := ∀ before after, cs = before ++ '[' :: after → ']' ∉ after

/-- The text comes from the glob by putting a run of allowed characters in the place of each star. -/
inductive FillsBy (allowed : Char → Prop) : List Char → List Char → Prop where
  | nil : FillsBy allowed [] []
  | keep {c : Char} {cs text : List Char} : c ≠ '*' → FillsBy allowed cs text → FillsBy allowed (c :: cs) (c :: text)
  | star {run cs text : List Char} : (∀ c ∈ run, allowed c) → FillsBy allowed cs text →
      FillsBy allowed ('*' :: cs) (run ++ text)

def Fills (cs text : List Char) : Prop := FillsBy (fun _ => True) cs text

def piece (c : Char) : Pattern :=
  if c = '*' then repeated (chars (CharSet.singleton '\n').compl) 0 none else chars (.singleton c)

def pieceText (c : Char) : List Char := if c = '*' then ['.', '*'] else escaped c

variable {allowed : Char → Prop} {c : Char} {cs text : List Char} {i j : ℕ}

theorem ClassFree.tail (h : ClassFree (c :: cs)) : ClassFree cs := by
  rintro before after rfl
  exact h (c :: before) after rfl

theorem classFree_iff : ClassFree cs ↔ (cs.dropWhile (· != '[')).contains ']' = false := by
  induction cs with
  | nil => simp [ClassFree]
  | cons c cs ih =>
    by_cases hc : c = '['
    · subst hc
      have hcontains : (('[' :: cs).dropWhile (· != '[')).contains ']' = false ↔ ']' ∉ cs := by simp
      rw [hcontains]
      constructor
      · intro h
        exact h [] cs rfl
      · rintro hnone before after hcut
        cases before with
        | nil =>
          obtain rfl := List.tail_eq_of_cons_eq hcut
          exact hnone
        | cons d before =>
          obtain rfl := List.tail_eq_of_cons_eq hcut
          exact fun hmem => hnone (by simp [hmem])
    · rw [List.dropWhile_cons_of_pos (by simpa using hc), ← ih]
      constructor
      · exact ClassFree.tail
      · rintro h before after hcut
        cases before with
        | nil => exact absurd (List.head_eq_of_cons_eq hcut) hc
        | cons d before => exact h before after (List.tail_eq_of_cons_eq hcut)

instance : DecidablePred ClassFree := fun _ => decidable_of_iff' _ classFree_iff

theorem ClassFree.bodyText_cons (h : ClassFree (c :: cs)) : bodyText (c :: cs) = pieceText c ++ bodyText cs := by
  by_cases hstar : c = '*'
  · subst hstar
    rw [bodyText]
    rfl
  · rw [pieceText, if_neg hstar]
    by_cases hbracket : c = '['
    · subst hbracket
      have hnone : cs.contains ']' = false := by simpa using h [] cs rfl
      rw [bodyText, hnone]
      rfl
    · rw [bodyText]
      · exact hstar
      · exact hbracket

theorem written_piece (c : Char) : Written [piece c] (pieceText c) := by
  rw [piece, pieceText]
  split_ifs
  · exact written_dotStar
  · rw [escaped]
    split_ifs with hmeta
    · exact written_escaped hmeta
    · exact written_plain (Bool.not_eq_true _ ▸ hmeta)

theorem pieceText_head (c : Char) (rest : List Char) : (pieceText c ++ rest).head? ≠ some '?' := by
  rw [pieceText, escaped]
  split_ifs with hstar hmeta
  · rintro ⟨⟩
  · rintro ⟨⟩
  · rintro ⟨⟩
    exact hmeta rfl

theorem ClassFree.bodyText_head (h : ClassFree cs) : (bodyText cs).head? ≠ some '?' := by
  cases cs with
  | nil => rw [bodyText]; decide
  | cons c cs =>
    rw [h.bodyText_cons]
    exact pieceText_head c _

theorem ClassFree.written_bodyText (h : ClassFree cs) : Written (cs.map piece) (bodyText cs) := by
  induction cs with
  | nil =>
    rw [bodyText]
    exact written_nil
  | cons c cs ih =>
    rw [h.bodyText_cons]
    exact (written_piece c).append (ih h.tail) h.tail.bodyText_head

theorem compile?_of_written {ps : List Pattern} (h : Written ps (bodyText cs)) (hhead : (bodyText cs).head? ≠ some '?') :
    compile? cs = if (anchored ps).weight ≤ maxWeight then some (anchored ps) else none := by
  apply Written.parse?
  exact (written_textStart.append h hhead).append written_textEnd (by decide)

theorem fillsBy_nil_iff : FillsBy allowed [] text ↔ text = [] := by
  constructor
  · rintro ⟨⟩
    rfl
  · rintro rfl
    exact .nil

theorem fillsBy_keep_iff (hc : c ≠ '*') :
    FillsBy allowed (c :: cs) text ↔ ∃ rest, text = c :: rest ∧ FillsBy allowed cs rest := by
  constructor
  · intro h
    cases h with
    | keep _ h => exact ⟨_, rfl, h⟩
    | star => exact absurd rfl hc
  · rintro ⟨rest, rfl, h⟩
    exact .keep hc h

theorem fillsBy_star_iff : FillsBy allowed ('*' :: cs) text ↔
    ∃ run rest, text = run ++ rest ∧ (∀ c ∈ run, allowed c) ∧ FillsBy allowed cs rest := by
  constructor
  · intro h
    cases h with
    | keep hc _ => exact absurd rfl hc
    | star hrun h => exact ⟨_, _, rfl, hrun, h⟩
  · rintro ⟨run, rest, rfl, hrun, h⟩
    exact .star hrun h

theorem fillsBy_cons_iff : FillsBy allowed (c :: cs) text ↔
    ∃ first rest, text = first ++ rest ∧ FillsBy allowed [c] first ∧ FillsBy allowed cs rest := by
  by_cases hc : c = '*'
  · subst hc
    simp only [fillsBy_star_iff, fillsBy_nil_iff]
    constructor
    · rintro ⟨run, rest, rfl, hrun, h⟩
      exact ⟨run, rest, rfl, ⟨run, [], (List.append_nil run).symm, hrun, rfl⟩, h⟩
    · rintro ⟨_, rest, rfl, ⟨run, _, rfl, hrun, rfl⟩, h⟩
      exact ⟨run, rest, by rw [List.append_nil], hrun, h⟩
  · simp only [fillsBy_keep_iff hc, fillsBy_nil_iff]
    constructor
    · rintro ⟨rest, rfl, h⟩
      exact ⟨[c], rest, rfl, ⟨[], rfl, rfl⟩, h⟩
    · rintro ⟨_, rest, rfl, ⟨_, rfl, rfl⟩, h⟩
      exact ⟨rest, rfl, h⟩

theorem leaps_chars_iff {s : CharSet} {n : ℕ} (hi : i ≤ text.length) : Leaps (Matches text (chars s)) n i j ↔
    j = i + n ∧ j ≤ text.length ∧ ∀ c ∈ between text i j, s.contains c = true := by
  induction n generalizing i with
  | zero =>
    simp only [Leaps, Nat.add_zero]
    constructor
    · rintro rfl
      exact ⟨rfl, hi, by simp [between]⟩
    · rintro ⟨rfl, -⟩
      rfl
  | succ n ih =>
    simp only [Leaps, matches_chars_iff]
    constructor
    · rintro ⟨_, ⟨rfl, c, hc, hs⟩, hrest⟩
      have hlt := (List.getElem?_eq_some_iff.mp hc).1
      obtain ⟨rfl, hj, hall⟩ := (ih hlt).mp hrest
      refine ⟨by omega, hj, ?_⟩
      rw [← between_append text (Nat.le_succ i) (Nat.le_add_right (i + 1) n), between_succ hc]
      exact List.forall_mem_cons.mpr ⟨hs, hall⟩
    · rintro ⟨rfl, hj, hall⟩
      have hlt : i < text.length := by omega
      have hc : text[i]? = some text[i] := List.getElem?_eq_getElem hlt
      have hle : i + 1 ≤ i + (n + 1) := by omega
      rw [← between_append text (Nat.le_succ i) hle, between_succ hc] at hall
      obtain ⟨hs, hall⟩ := List.forall_mem_cons.mp hall
      exact ⟨i + 1, ⟨rfl, _, hc, hs⟩, (ih hlt).mpr ⟨by omega, hj, hall⟩⟩

theorem matches_piece_iff : Matches text (piece c) i j ↔
    i ≤ j ∧ j ≤ text.length ∧ FillsBy (· ≠ '\n') [c] (between text i j) := by
  by_cases hc : c = '*'
  · subst hc
    have hset {d : Char} : (CharSet.singleton '\n').compl.contains d = true ↔ d ≠ '\n' := by
      rw [CharSet.contains_compl_iff (CharSet.normal_singleton _), CharSet.contains_singleton_iff]
    rw [piece, if_pos rfl, matches_repeated_iff]
    simp only [fillsBy_star_iff, fillsBy_nil_iff]
    constructor
    · rintro ⟨hi, k, -, -, hleaps⟩
      obtain ⟨rfl, hj, hall⟩ := (leaps_chars_iff hi).mp hleaps
      exact ⟨Nat.le_add_right i k, hj, _, [], (List.append_nil _).symm, fun d hd => hset.mp (hall d hd), rfl⟩
    · rintro ⟨hij, hj, run, _, hrun, hall, rfl⟩
      rw [List.append_nil] at hrun
      have hi : i ≤ text.length := Nat.le_trans hij hj
      refine ⟨hi, j - i, Nat.zero_le _, by simp, (leaps_chars_iff hi).mpr ⟨by omega, hj, fun d hd => ?_⟩⟩
      exact hset.mpr (hall d (hrun ▸ hd))
  · rw [piece, if_neg hc, matches_chars_iff]
    simp only [fillsBy_keep_iff hc, fillsBy_nil_iff, CharSet.contains_singleton_iff]
    constructor
    · rintro ⟨rfl, d, hd, rfl⟩
      exact ⟨Nat.le_succ i, (List.getElem?_eq_some_iff.mp hd).1, [], between_succ hd, rfl⟩
    · rintro ⟨hij, hj, _, hone, rfl⟩
      have hlength := length_between (i := i) hj
      rw [hone, List.length_singleton] at hlength
      obtain rfl : j = i + 1 := by omega
      have hd : text[i]? = some text[i] := List.getElem?_eq_getElem hj
      rw [between_succ hd] at hone
      exact ⟨rfl, text[i], hd, List.head_eq_of_cons_eq hone⟩

theorem matches_pieces_iff : Matches text (seqAll (cs.map piece)) i j ↔
    i ≤ j ∧ j ≤ text.length ∧ FillsBy (· ≠ '\n') cs (between text i j) := by
  induction cs generalizing i with
  | nil =>
    simp only [List.map_nil, seqAll, matches_empty_iff, fillsBy_nil_iff]
    constructor
    · rintro ⟨rfl, hi⟩
      exact ⟨Nat.le_refl i, hi, by simp [between]⟩
    · rintro ⟨hij, hj, hempty⟩
      have hlength := length_between (i := i) hj
      rw [hempty, List.length_nil] at hlength
      omega
  | cons c cs ih =>
    simp only [List.map_cons, matches_seqAll_cons, matches_piece_iff, ih]
    rw [fillsBy_cons_iff]
    constructor
    · rintro ⟨k, ⟨hik, hk, hfirst⟩, hkj, hj, hrest⟩
      exact ⟨by omega, hj, _, _, (between_append text hik hkj).symm, hfirst, hrest⟩
    · rintro ⟨hij, hj, first, rest, hcut, hfirst, hrest⟩
      have hlength := length_between (i := i) hj
      rw [hcut, List.length_append] at hlength
      have hk : i + first.length ≤ j := by omega
      rw [← between_append text (Nat.le_add_right i first.length) hk] at hcut
      obtain ⟨hfirst', hrest'⟩ := List.append_inj hcut (by rw [length_between (by omega)]; omega)
      refine ⟨i + first.length, ⟨Nat.le_add_right _ _, by omega, ?_⟩, hk, hj, ?_⟩
      · rwa [hfirst']
      · rwa [hrest']

theorem isMatch_pieces_iff : (anchored (cs.map piece)).isMatch text = true ↔ FillsBy (· ≠ '\n') cs text := by
  have hwell : ∀ p ∈ cs.map piece, p.WellFormed := by
    intro p hp
    obtain ⟨c, -, rfl⟩ := List.mem_map.mp hp
    rw [piece]
    split_ifs
    · exact ⟨trivial, by simp⟩
    · trivial
  rw [isMatch_anchored_iff hwell, matches_pieces_iff, between_whole]
  exact ⟨fun h => h.2.2, fun h => ⟨Nat.zero_le _, Nat.le_refl _, h⟩⟩

theorem weight_pieces_le (cs : List Char) : (anchored (cs.map piece)).weight ≤ 64 + 128 * cs.length := by
  have hpiece : ∀ p ∈ cs.map piece, p.weight ≤ 128 := by
    intro p hp
    obtain ⟨c, -, rfl⟩ := List.mem_map.mp hp
    rw [piece]
    split_ifs
    · decide
    · exact Nat.le_trans (weight_chars_le _) (by simp [CharSet.singleton])
  have hall := weight_seqAll_le hpiece
  rw [List.length_map] at hall
  rw [weight_anchored]
  omega

theorem ClassFree.compile?_eq (h : ClassFree cs) : compile? cs =
    if (anchored (cs.map piece)).weight ≤ maxWeight then some (anchored (cs.map piece)) else none :=
  compile?_of_written h.written_bodyText h.bodyText_head

theorem FillsBy.mono {more : Char → Prop} (h : FillsBy allowed cs text) (hmore : ∀ c ∈ text, allowed c → more c) :
    FillsBy more cs text := by
  induction h with
  | nil => exact .nil
  | keep hc _ ih => exact .keep hc (ih fun c hmem => hmore c (List.mem_cons_of_mem _ hmem))
  | star hrun _ ih =>
    apply FillsBy.star
    · exact fun c hmem => hmore c (List.mem_append_left _ hmem) (hrun c hmem)
    · exact ih fun c hmem => hmore c (List.mem_append_right _ hmem)

theorem compile?_matches_fillings (h : ClassFree cs) :
    ∃ p, compile? cs = (if p.weight ≤ maxWeight then some p else none) ∧ p.weight ≤ 64 + 128 * cs.length ∧
      (∀ text, '\n' ∉ text → (p.isMatch text = true ↔ Fills cs text)) ∧
      ∀ text, (p.isMatch text = true ↔ p.Matches text 0 text.length) ∧
        ∀ i j, p.Matches text i j → i = 0 ∧ j = text.length := by
  refine ⟨anchored (cs.map piece), h.compile?_eq, weight_pieces_le cs, fun text htext => ?_, fun text => ⟨?_, ?_⟩⟩
  · rw [isMatch_pieces_iff]
    constructor
    · intro hfills
      exact hfills.mono fun _ _ _ => trivial
    · intro hfills
      exact hfills.mono fun c hc _ => by rintro rfl; exact htext hc
  · rw [isMatch_pieces_iff, matches_anchored_iff, matches_pieces_iff, between_whole]
    simp
  · intro i j hm
    obtain ⟨hi, hj, -⟩ := matches_anchored_iff.mp hm
    exact ⟨hi, hj⟩

theorem compile?_matches_fillings_literal :
    let cs := ['a', '.', '*', '[', '?']
    ClassFree cs ∧ '\n' ∉ ['a', '.', 'x', 'y', '[', '?'] ∧ '\n' ∉ ['a', 'b', 'x', 'y', '[', '?'] ∧
      ∃ p, compile? cs = some p ∧ p.isMatch ['a', '.', 'x', 'y', '[', '?'] = true ∧
        p.isMatch ['a', 'b', 'x', 'y', '[', '?'] = false := by
  intro cs
  have hfree : ClassFree cs := by decide
  obtain ⟨p, hp, hweight, hmatch, -⟩ := compile?_matches_fillings hfree
  have hroom : p.weight ≤ maxWeight := Nat.le_trans hweight (by decide)
  refine ⟨hfree, by decide, by decide, p, hp.trans (if_pos hroom), ?_, ?_⟩
  · apply (hmatch _ (by decide)).mpr
    apply FillsBy.keep (by decide)
    apply FillsBy.keep (by decide)
    exact .star (fun _ (_ : _ ∈ ['x', 'y']) => trivial) (.keep (by decide) (.keep (by decide) .nil))
  · rw [← Bool.not_eq_true, hmatch _ (by decide), Fills, fillsBy_keep_iff (by decide)]
    rintro ⟨rest, hrest, hfills⟩
    obtain ⟨more, hmore, -⟩ := (fillsBy_keep_iff (by decide)).mp hfills
    rw [hmore] at hrest
    simp at hrest

theorem fillsBy_append_iff {front : List Char} (h : '*' ∉ front) :
    FillsBy allowed (front ++ cs) text ↔ ∃ rest, text = front ++ rest ∧ FillsBy allowed cs rest := by
  induction front generalizing text with
  | nil => simp
  | cons c front ih =>
    obtain ⟨hc, hfront⟩ : '*' ≠ c ∧ '*' ∉ front := by simpa using h
    rw [List.cons_append, fillsBy_keep_iff (Ne.symm hc)]
    simp only [ih hfront]
    constructor
    · rintro ⟨_, rfl, rest, rfl, hrest⟩
      exact ⟨rest, rfl, hrest⟩
    · rintro ⟨rest, rfl, hrest⟩
      exact ⟨front ++ rest, rfl, rest, rfl, hrest⟩

theorem fillsBy_singleStar_iff {a b : List Char} (ha : '*' ∉ a) (hb : '*' ∉ b) :
    FillsBy allowed (a ++ '*' :: b) text ↔ ∃ run, text = a ++ run ++ b ∧ ∀ c ∈ run, allowed c := by
  have hb' {rest : List Char} : FillsBy allowed b rest ↔ rest = b := by
    rw [← List.append_nil b, fillsBy_append_iff hb]
    simp [fillsBy_nil_iff]
  simp only [fillsBy_append_iff ha, fillsBy_star_iff, hb']
  constructor
  · rintro ⟨_, rfl, run, _, rfl, hrun, rfl⟩
    exact ⟨run, by rw [List.append_assoc], hrun⟩
  · rintro ⟨run, rfl, hrun⟩
    exact ⟨run ++ b, by rw [List.append_assoc], run, b, rfl, hrun, rfl⟩

theorem exists_middle_iff {a b : List Char} {good : Char → Prop} :
    (∃ run, text = a ++ run ++ b ∧ ∀ c ∈ run, good c) ↔
      a <+: text ∧ b <:+ text ∧ a.length + b.length ≤ text.length ∧
        ∀ c ∈ between text a.length (text.length - b.length), good c := by
  constructor
  · rintro ⟨run, rfl, hrun⟩
    rw [between_middle]
    refine ⟨⟨run ++ b, by rw [List.append_assoc]⟩, ⟨a ++ run, rfl⟩, ?_, hrun⟩
    simp only [List.length_append]
    omega
  · rintro ⟨⟨rest, hrest⟩, ⟨front, hfront⟩, hle, hgood⟩
    have hlength := congrArg List.length hfront
    rw [List.length_append] at hlength
    obtain ⟨run, rfl⟩ : a <+: front := List.prefix_of_prefix_length_le ⟨rest, hrest⟩ ⟨b, hfront⟩ (by omega)
    rw [← hfront, between_middle] at hgood
    exact ⟨run, hfront.symm, hgood⟩

theorem classFree_singleStar {a b : List Char} (ha : '[' ∉ a) (hb : '[' ∉ b) : ClassFree (a ++ '*' :: b) := by
  rintro before after hcut
  have hmem : '[' ∈ a ++ '*' :: b := by simp [hcut]
  simp [ha, hb] at hmem

theorem rule_star : Exclusion.Rule.parse? .own ['*'] =
    some ⟨.glob (patternText ['*']) (anchored [piece '*']).isMatch, false⟩ := by
  have hweight : (anchored [piece '*']).weight ≤ maxWeight := Nat.le_trans (weight_pieces_le ['*']) (by decide)
  have hcompile : compile? ['*'] = some (anchored [piece '*']) := by
    rw [ClassFree.compile?_eq (by decide)]
    exact if_pos hweight
  have hmatcher : Exclusion.Matcher.parse? .own ['*'] =
      ((compile? ['*']).map Pattern.isMatch).map (.glob (patternText ['*'])) := rfl
  have hrule : Exclusion.Rule.parse? .own ['*'] = (Exclusion.Matcher.parse? .own ['*']).map (⟨·, false⟩) := rfl
  rw [hrule, hmatcher, hcompile]
  rfl

theorem forall_ne_iff {d : Char} : (∀ c ∈ cs, c ≠ d) ↔ d ∉ cs := by
  constructor
  · intro h hmem
    exact h d hmem rfl
  · rintro h c hmem rfl
    exact h hmem

theorem excludes_star (d : Exclusion.Dictionary) (text : List Char) :
    (d.append .own ['*']).excludes text = (d.excludes text || decide ('\n' ∉ text)) := by
  have hmatch : (anchored [piece '*']).isMatch text = decide ('\n' ∉ text) := by
    have hpieces : (anchored (['*'].map piece)).isMatch text = true ↔ FillsBy (· ≠ '\n') ['*'] text := isMatch_pieces_iff
    have hfills : FillsBy (· ≠ '\n') ([] ++ ['*']) text ↔ ∃ run, text = [] ++ run ++ [] ∧ ∀ c ∈ run, c ≠ '\n' :=
      fillsBy_singleStar_iff List.not_mem_nil List.not_mem_nil
    rw [Bool.eq_iff_iff, decide_eq_true_eq]
    apply hpieces.trans
    apply hfills.trans
    simp [forall_ne_iff]
  have hrules : d.append .own ['*'] = ⟨d.rules ++ [⟨.glob (patternText ['*']) (anchored [piece '*']).isMatch, false⟩]⟩ := by
    have hlines : Exclusion.lines ['*'] = [['*']] := rfl
    rw [Exclusion.Dictionary.append, hlines, List.filterMap_cons, rule_star]
    rfl
  rw [hrules, Exclusion.excludes_append, List.foldl_cons, List.foldl_nil]
  change (if (anchored [piece '*']).isMatch text then true else d.excludes text) = _
  rw [hmatch]
  cases d.excludes text <;> simp

theorem compile?_singleStar {a b : List Char} (ha : '*' ∉ a ∧ '[' ∉ a) (hb : '*' ∉ b ∧ '[' ∉ b) :
    (∃ p, compile? (a ++ '*' :: b) = (if p.weight ≤ maxWeight then some p else none) ∧
      p.weight ≤ 64 + 128 * (a.length + b.length + 1) ∧
      ∀ text, p.isMatch text = true ↔ a <+: text ∧ b <:+ text ∧ a.length + b.length ≤ text.length ∧
        '\n' ∉ between text a.length (text.length - b.length)) ∧
    ∀ (d : Exclusion.Dictionary) (text : List Char),
      (d.append .own ['*']).excludes text = (d.excludes text || decide ('\n' ∉ text)) := by
  refine ⟨⟨_, (classFree_singleStar ha.2 hb.2).compile?_eq, ?_, fun text => ?_⟩, excludes_star⟩
  · have := weight_pieces_le (a ++ '*' :: b)
    rw [List.length_append, List.length_cons] at this
    omega
  · rw [isMatch_pieces_iff, fillsBy_singleStar_iff ha.1 hb.1, exists_middle_iff, forall_ne_iff]

theorem compile?_singleStar_feed :
    ('*' ∉ ['a'] ∧ '[' ∉ ['a']) ∧ ('*' ∉ ['.'] ∧ '[' ∉ ['.']) ∧ ∃ p, compile? ['a', '*', '.'] = some p ∧
      p.isMatch ['a', ' ', 'b', '.'] = true ∧ p.isMatch ['a', '\n', 'b', '.'] = false := by
  have ha : '*' ∉ ['a'] ∧ '[' ∉ ['a'] := by decide
  have hb : '*' ∉ ['.'] ∧ '[' ∉ ['.'] := by decide
  obtain ⟨⟨p, hp, hweight, hmatch⟩, -⟩ := compile?_singleStar ha hb
  have hroom : p.weight ≤ maxWeight := Nat.le_trans hweight (by decide)
  refine ⟨ha, hb, p, hp.trans (if_pos hroom), ?_, ?_⟩
  · exact (hmatch _).mpr (by decide)
  · rw [← Bool.not_eq_true, hmatch]
    decide

end Glob

end VisibleText
