import Mathlib.Data.List.Basic
import VisibleText.Proofs.CharSets
import VisibleText.Unicode.Word

namespace VisibleText

namespace CharSet

def StartsAt (n : ℕ) (s : CharSet) : Prop := ∀ r ∈ s.runs, n ≤ r.1

theorem StartsAt.not_covers {n m : ℕ} {s : CharSet} (h : s.StartsAt n) (hm : m < n) : ¬ Covers s.runs m := by
  intro hc
  have := hc.start_le h
  omega

theorem runsOfGaps_start (next : ℕ) (gaps : List ℕ) : ∀ r ∈ runsOfGaps next gaps, next + gaps.headD 0 ≤ r.1 := by
  fun_induction runsOfGaps next gaps with
  | case1 next gap more rest ih =>
    refine List.forall_mem_cons.mpr ⟨Nat.le_refl _, ?_⟩
    intro r hr
    have := ih r hr
    simp only [List.headD_cons]
    omega
  | case2 => simp

def valueOf (digits : List Char) : ℕ := digits.foldl (fun n c => 36 * n + (digit? c).getD 0) 0

theorem foldr_digits {step : Char → List Char × List ℕ → List Char × List ℕ}
    (hstep : ∀ c st, (digit? c).isSome → step c st = (c :: st.1, st.2)) (found : List ℕ) {ds : List Char}
    (hds : ∀ c ∈ ds, (digit? c).isSome) : ds.foldr step ([], found) = (ds, found) := by
  induction ds with
  | nil => rfl
  | cons c ds ih =>
    obtain ⟨hc, hds⟩ := List.forall_mem_cons.mp hds
    rw [List.foldr_cons, ih hds, hstep c _ hc]

theorem numbers_cons {digits rest : List Char} (hdigits : digits.all fun c => (digit? c).isSome) (hne : digits ≠ []) :
    numbers (String.ofList (digits ++ ' ' :: rest)) = valueOf digits :: numbers (String.ofList rest) := by
  have hblank : digit? ' ' = none := by decide
  simp only [numbers, String.toList_ofList, List.foldr_append, List.foldr_cons, hblank]
  rw [foldr_digits _ _ (List.all_eq_true.mp hdigits), numbers.flush, if_neg (by simpa using hne)]
  · rfl
  · intro c st hc
    obtain ⟨v, hv⟩ := Option.isSome_iff_exists.mp hc
    simp only [hv]

theorem startsAt_ofGaps {n : ℕ} {s : String} {cs : List Char} (digits : List Char) (h : s.toList = cs)
    (hcs : ∃ rest, cs = digits ++ ' ' :: rest)
    (hdigits : (digits.all fun c => (digit? c).isSome) ∧ digits ≠ [] ∧ n ≤ valueOf digits) : (ofGaps s).StartsAt n := by
  obtain ⟨rest, rfl⟩ := hcs
  intro r hr
  have hstart := runsOfGaps_start 0 (numbers s) r hr
  rw [← String.ofList_toList (s := s), h, numbers_cons hdigits.1 hdigits.2.1, List.headD_cons] at hstart
  omega

theorem mem_runsOfGaps_append {next : ℕ} {gaps : List ℕ} (more : List ℕ) {r : ℕ × ℕ} (h : r ∈ runsOfGaps next gaps) :
    r ∈ runsOfGaps next (gaps ++ more) := by
  fun_induction runsOfGaps next gaps with
  | case1 next gap length rest ih =>
    rcases List.mem_cons.mp h with rfl | h
    · exact List.mem_cons_self
    · exact List.mem_cons_of_mem _ (ih h)
  | case2 => cases h

theorem numbers_append {words : List (List Char)} (rest : List Char)
    (hwords : words.all fun w => (w.all fun c => (digit? c).isSome) && !w.isEmpty) :
    numbers (String.ofList (words.flatMap (· ++ [' ']) ++ rest)) = words.map valueOf ++ numbers (String.ofList rest) := by
  induction words with
  | nil => rfl
  | cons w words ih =>
    simp only [List.all_cons, Bool.and_eq_true] at hwords
    rw [List.flatMap_cons, List.append_assoc, List.append_assoc, List.singleton_append,
      numbers_cons hwords.1.1 (by simpa using hwords.1.2), ih hwords.2]
    rfl

theorem mem_ofGaps {s : String} {cs : List Char} (words : List (List Char)) (h : s.toList = cs)
    (hcs : ∃ rest, cs = words.flatMap (· ++ [' ']) ++ rest)
    (hwords : words.all fun w => (w.all fun c => (digit? c).isSome) && !w.isEmpty) {r : ℕ × ℕ}
    (hr : r ∈ runsOfGaps 0 (words.map valueOf)) : r ∈ (ofGaps s).runs := by
  obtain ⟨rest, rfl⟩ := hcs
  rw [ofGaps, ← String.ofList_toList (s := s), h, numbers_append rest hwords]
  exact mem_runsOfGaps_append _ hr

end CharSet

namespace Unicode

set_option maxRecDepth 20000 in
theorem startsAt_categories : ∀ name ∈ ["Mc", "Me", "Mn", "Nd", "Pc"], (category name).StartsAt 48 := by
  simp only [List.forall_mem_cons, category, categoryTable, List.lookup_cons, String.reduceBEq]
  refine ⟨?_, ?_, ?_, ?_, ?_, by simp⟩
  · exact CharSet.startsAt_ofGaps ['1', 's', '3'] String.toList_ofList ⟨_, rfl⟩ (by decide)
  · exact CharSet.startsAt_ofGaps ['w', '8'] String.toList_ofList ⟨_, rfl⟩ (by decide)
  · exact CharSet.startsAt_ofGaps ['l', 'c'] String.toList_ofList ⟨_, rfl⟩ (by decide)
  · exact CharSet.startsAt_ofGaps ['1', 'c'] String.toList_ofList ⟨_, rfl⟩ (by decide)
  · exact CharSet.startsAt_ofGaps ['2', 'n'] String.toList_ofList ⟨_, rfl⟩ (by decide)

set_option maxRecDepth 20000 in
theorem startsAt_properties : ∀ name ∈ ["Alphabetic", "Join_Control"], (property name).StartsAt 48 := by
  simp only [List.mem_cons, List.not_mem_nil, or_false, property, List.contains_eq_mem, propertyTable, List.find?,
    Bool.decide_or, forall_eq_or_imp, String.reduceEq, decide_false, Bool.or_self, decide_true, Bool.or_true, forall_eq]
  refine ⟨?_, ?_⟩
  · exact CharSet.startsAt_ofGaps ['1', 't'] String.toList_ofList ⟨_, rfl⟩ (by decide)
  · exact CharSet.startsAt_ofGaps ['6', 'b', 'w'] String.toList_ofList ⟨_, rfl⟩ (by decide)

theorem isWord_iff {c : Char} : isWord c = true ↔ CharSet.Covers (property "Alphabetic").runs c.toNat ∨
    CharSet.Covers (property "Join_Control").runs c.toNat ∨
    ∃ name ∈ ["Mc", "Me", "Mn", "Nd", "Pc"], CharSet.Covers (category name).runs c.toNat := by
  rw [isWord, wordSet, CharSet.contains_ofRuns_iff, CharSet.covers_append, CharSet.covers_append, categories,
    (CharSet.ofRuns_spec _).2.2, or_assoc]
  simp only [CharSet.Covers, List.mem_flatMap]
  apply or_congr_right
  apply or_congr_right
  constructor
  · rintro ⟨r, ⟨name, hname, hr⟩, hn⟩
    exact ⟨name, hname, r, hr, hn⟩
  · rintro ⟨name, hname, r, hr, hn⟩
    exact ⟨r, ⟨name, hname, hr⟩, hn⟩

theorem not_isWord_of_lt {c : Char} (h : c.toNat < 48) : isWord c = false := by
  rw [← Bool.not_eq_true, isWord_iff]
  rintro (hc | hc | ⟨name, hname, hc⟩)
  · exact (startsAt_properties "Alphabetic" (by simp)).not_covers h hc
  · exact (startsAt_properties "Join_Control" (by simp)).not_covers h hc
  · exact (startsAt_categories name hname).not_covers h hc

set_option maxRecDepth 20000 in
theorem letters_alphabetic : (97, 122) ∈ (property "Alphabetic").runs := by
  simp only [property, List.contains_eq_mem, propertyTable, List.find?, List.mem_cons, List.not_mem_nil, or_false,
    Bool.decide_or, String.reduceEq, decide_false, decide_true, Bool.or_true]
  exact CharSet.mem_ofGaps [['1', 't'], ['p'], ['6'], ['p']] String.toList_ofList ⟨_, rfl⟩ (by decide) (by decide)

set_option maxRecDepth 20000 in
theorem underscore_connects : (95, 95) ∈ (category "Pc").runs := by
  simp only [category, categoryTable, List.lookup_cons, String.reduceBEq]
  exact CharSet.mem_ofGaps [['2', 'n'], ['0']] String.toList_ofList ⟨_, rfl⟩ (by decide) (by decide)

theorem isWord_letter {c : Char} (hlo : 'a' ≤ c) (hhi : c ≤ 'z') : isWord c = true :=
  isWord_iff.mpr (Or.inl ⟨(97, 122), letters_alphabetic, hlo, hhi⟩)

theorem isWord_underscore : isWord '_' = true := by
  apply isWord_iff.mpr
  right
  right
  exact ⟨"Pc", by simp, (95, 95), underscore_connects, by decide, by decide⟩

end Unicode

end VisibleText
