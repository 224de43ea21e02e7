import Mathlib.Data.List.Basic
import VisibleText.Proofs.Ordered
import VisibleText.Unicode.CharSet

namespace VisibleText.CharSet

def Covers (runs : List (ℕ × ℕ)) (n : ℕ) : Prop := ∃ r ∈ runs, r.1 ≤ n ∧ n ≤ r.2

structure Separate (runs : List (ℕ × ℕ)) : Prop where
  ordered : runs.Pairwise fun a b => a.2 + 1 < b.1
  filled : ∀ r ∈ runs, r.1 ≤ r.2

def Normal (s : CharSet) : Prop := Separate s.runs

variable {n lo hi : ℕ} {runs : List (ℕ × ℕ)} {s t : CharSet} {c : Char}

@[simp] theorem not_covers_nil : ¬ Covers [] n := by simp [Covers]

@[simp] theorem covers_cons {r : ℕ × ℕ} : Covers (r :: runs) n ↔ (r.1 ≤ n ∧ n ≤ r.2) ∨ Covers runs n := by
  simp [Covers]

theorem covers_append {more : List (ℕ × ℕ)} : Covers (runs ++ more) n ↔ Covers runs n ∨ Covers more n := by
  simp only [Covers, List.mem_append, or_and_right, exists_or]

theorem Covers.start_le (h : Covers runs n) (hlo : ∀ r ∈ runs, lo ≤ r.1) : lo ≤ n := by
  obtain ⟨r, hr, hle, -⟩ := h
  exact Nat.le_trans (hlo r hr) hle

theorem separate_cons {r : ℕ × ℕ} :
    Separate (r :: runs) ↔ r.1 ≤ r.2 ∧ (∀ x ∈ runs, r.2 + 1 < x.1) ∧ Separate runs := by
  constructor
  · rintro ⟨hordered, hfilled⟩
    obtain ⟨hfirst, hrest⟩ := List.pairwise_cons.mp hordered
    obtain ⟨hr, hruns⟩ := List.forall_mem_cons.mp hfilled
    exact ⟨hr, hfirst, hrest, hruns⟩
  · rintro ⟨hr, hfirst, hrest, hruns⟩
    exact ⟨List.pairwise_cons.mpr ⟨hfirst, hrest⟩, List.forall_mem_cons.mpr ⟨hr, hruns⟩⟩

theorem containsCode_iff (h : Separate runs) : containsCode n runs = true ↔ Covers runs n := by
  induction runs with
  | nil => simp [containsCode]
  | cons r runs ih =>
    obtain ⟨hr, hfirst, hrest⟩ := separate_cons.mp h
    rw [containsCode, covers_cons]
    split_ifs with hlt
    · have hout : ¬ Covers runs n := fun hc => by
        have := hc.start_le fun x hx => Nat.le_of_lt (hfirst x hx)
        omega
      simp only [false_iff, hout, or_false]
      omega
    · rw [Bool.or_eq_true, decide_eq_true_eq, ih hrest]
      have : r.1 ≤ n := by omega
      simp [this]

theorem Normal.contains_iff (h : s.Normal) : s.contains c = true ↔ Covers s.runs c.toNat := containsCode_iff h

theorem joinRun_spec (hlo : lo ≤ hi) (h : Separate runs) (hruns : ∀ r ∈ runs, lo ≤ r.1) :
    Separate (joinRun lo hi runs) ∧ (∀ r ∈ joinRun lo hi runs, lo ≤ r.1) ∧
      (joinRun lo hi runs).length ≤ runs.length + 1 ∧
      ∀ n, Covers (joinRun lo hi runs) n ↔ (lo ≤ n ∧ n ≤ hi) ∨ Covers runs n := by
  induction runs generalizing hi with
  | nil =>
    refine ⟨separate_cons.mpr ⟨hlo, List.forall_mem_nil _, h⟩, ?_, by simp [joinRun], fun n => ?_⟩
    · simp [joinRun]
    · rw [joinRun, covers_cons]
  | cons r runs ih =>
    obtain ⟨hr, hfirst, hrest⟩ := separate_cons.mp h
    obtain ⟨hstart, hstarts⟩ := List.forall_mem_cons.mp hruns
    rw [joinRun]
    split_ifs with hjoin
    · have hmax : lo ≤ max hi r.2 := by omega
      obtain ⟨hsep, hlow, hlength, hcovers⟩ := ih hmax hrest hstarts
      refine ⟨hsep, hlow, by rw [List.length_cons]; omega, fun n => ?_⟩
      rw [hcovers, covers_cons, ← or_assoc]
      apply or_congr_left
      omega
    · refine ⟨separate_cons.mpr ⟨hlo, ?_, h⟩, List.forall_mem_cons.mpr ⟨Nat.le_refl lo, hruns⟩, by simp, fun n => covers_cons⟩
      refine List.forall_mem_cons.mpr ⟨by omega, fun x hx => ?_⟩
      have := hfirst x hx
      omega

theorem joinAll_spec {sorted : List (ℕ × ℕ)} (hsorted : sorted.Pairwise fun a b => a.1 ≤ b.1)
    (hfilled : ∀ r ∈ sorted, r.1 ≤ r.2) :
    Separate (sorted.foldr (fun r rest => joinRun r.1 r.2 rest) []) ∧
      (∀ lo, (∀ r ∈ sorted, lo ≤ r.1) → ∀ r ∈ sorted.foldr (fun r rest => joinRun r.1 r.2 rest) [], lo ≤ r.1) ∧
      (sorted.foldr (fun r rest => joinRun r.1 r.2 rest) []).length ≤ sorted.length ∧
      ∀ n, Covers (sorted.foldr (fun r rest => joinRun r.1 r.2 rest) []) n ↔ Covers sorted n := by
  induction sorted with
  | nil => exact ⟨⟨List.Pairwise.nil, List.forall_mem_nil _⟩, by simp, Nat.le_refl _, fun n => Iff.rfl⟩
  | cons r sorted ih =>
    obtain ⟨hfirst, hrest⟩ := List.pairwise_cons.mp hsorted
    obtain ⟨hr, hfilled⟩ := List.forall_mem_cons.mp hfilled
    obtain ⟨hsep, hlow, hlength, hcovers⟩ := ih hrest hfilled
    obtain ⟨hsep, hlow', hlength', hcovers'⟩ := joinRun_spec hr hsep (hlow r.1 hfirst)
    rw [List.foldr_cons]
    refine ⟨hsep, fun lo hlo x hx => ?_, by rw [List.length_cons]; omega, fun n => ?_⟩
    · exact Nat.le_trans (hlo r List.mem_cons_self) (hlow' x hx)
    · rw [hcovers', hcovers, covers_cons]

theorem ofRuns_spec (runs : List (ℕ × ℕ)) :
    (ofRuns runs).Normal ∧ (ofRuns runs).runs.length ≤ runs.length ∧
      ∀ n, Covers (ofRuns runs).runs n ↔ Covers runs n := by
  have hsorted := mergeSort_sorted Prod.fst (runs.filter fun r => r.1 ≤ r.2)
  have hmem {r : ℕ × ℕ} : r ∈ (runs.filter fun r => r.1 ≤ r.2).mergeSort (fun a b => a.1 ≤ b.1) ↔
      r ∈ runs ∧ r.1 ≤ r.2 := by
    rw [List.mem_mergeSort, List.mem_filter, decide_eq_true_eq]
  obtain ⟨hsep, -, hlength, hcovers⟩ := joinAll_spec hsorted fun r hr => (hmem.mp hr).2
  refine ⟨hsep, Nat.le_trans hlength ?_, fun n => (hcovers n).trans ?_⟩
  · rw [List.length_mergeSort]
    exact List.length_filter_le _ runs
  · constructor
    · rintro ⟨r, hr, hn⟩
      exact ⟨r, (hmem.mp hr).1, hn⟩
    · rintro ⟨r, hr, hlo, hhi⟩
      exact ⟨r, hmem.mpr ⟨hr, Nat.le_trans hlo hhi⟩, hlo, hhi⟩

theorem contains_ofRuns_iff : (ofRuns runs).contains c = true ↔ Covers runs c.toNat := by
  obtain ⟨hnormal, -, hcovers⟩ := ofRuns_spec runs
  rw [hnormal.contains_iff, hcovers]

theorem normal_empty : empty.Normal := ⟨List.Pairwise.nil, List.forall_mem_nil _⟩

theorem not_contains_empty (c : Char) : ¬ empty.contains c = true := by
  rw [normal_empty.contains_iff]
  exact not_covers_nil

theorem normal_singleton (c : Char) : (singleton c).Normal := by
  constructor <;> simp [singleton]

theorem contains_singleton_iff {d : Char} : (singleton d).contains c = true ↔ c = d := by
  rw [(normal_singleton d).contains_iff, singleton, covers_cons]
  simp only [not_covers_nil, or_false, ← Char.toNat_inj]
  omega

theorem normal_ofRange (first last : Char) : (ofRange first last).Normal := (ofRuns_spec _).1

theorem contains_ofRange_iff {first last : Char} : (ofRange first last).contains c = true ↔ first ≤ c ∧ c ≤ last := by
  rw [ofRange, contains_ofRuns_iff, covers_cons]
  simp only [not_covers_nil, or_false]
  rfl

theorem normal_union (s t : CharSet) : (s.union t).Normal := (ofRuns_spec _).1

theorem length_union (s t : CharSet) : (s.union t).runs.length ≤ s.runs.length + t.runs.length := by
  rw [← List.length_append]
  exact (ofRuns_spec _).2.1

theorem contains_union_iff (hs : s.Normal) (ht : t.Normal) :
    (s.union t).contains c = true ↔ s.contains c = true ∨ t.contains c = true := by
  rw [union, contains_ofRuns_iff, covers_append, hs.contains_iff, ht.contains_iff]

theorem gapsFrom_spec {next : ℕ} (h : Separate runs) (hnext : ∀ r ∈ runs, next ≤ r.1) :
    Separate (gapsFrom next runs) ∧ (∀ r ∈ gapsFrom next runs, next ≤ r.1) ∧
      (gapsFrom next runs).length ≤ runs.length + 1 ∧
      ∀ n ≤ lastCodePoint, Covers (gapsFrom next runs) n ↔ next ≤ n ∧ ¬ Covers runs n := by
  induction runs generalizing next with
  | nil =>
    rw [gapsFrom]
    split_ifs with hlast
    · refine ⟨separate_cons.mpr ⟨hlast, List.forall_mem_nil _, h⟩, by simp, Nat.le_refl _, fun n hn => ?_⟩
      simp [hn]
    · refine ⟨h, List.forall_mem_nil _, Nat.zero_le _, fun n hn => ?_⟩
      simp only [not_covers_nil, not_false_eq_true, and_true, false_iff]
      omega
  | cons r runs ih =>
    obtain ⟨hr, hfirst, hrest⟩ := separate_cons.mp h
    have hstart := hnext r List.mem_cons_self
    obtain ⟨hsep, hlow, hlength, hcovers⟩ := ih hrest fun x hx => Nat.le_of_lt (hfirst x hx)
    -- behind the first run the other runs start, so below its end nothing else covers
    have hbehind (n : ℕ) : Covers runs n → r.2 + 1 ≤ n := fun hc => hc.start_le fun x hx => Nat.le_of_lt (hfirst x hx)
    rw [gapsFrom]
    split_ifs with hgap
    · refine ⟨separate_cons.mpr ⟨by omega, fun x hx => ?_, hsep⟩, List.forall_mem_cons.mpr ⟨Nat.le_refl next, fun x hx => ?_⟩,
        by simp only [List.length_cons]; omega, fun n hn => ?_⟩
      · have := hlow x hx
        change r.1 - 1 + 1 < x.1
        omega
      · have := hlow x hx
        omega
      · have := hbehind n
        rw [covers_cons, covers_cons, hcovers n hn]
        by_cases hc : Covers runs n
        · simp only [hc, not_true_eq_false, and_false, or_true, or_false, iff_false]
          have := this hc
          omega
        · simp only [hc, not_false_eq_true, and_true, or_false]
          omega
    · refine ⟨hsep, fun x hx => ?_, by rw [List.length_cons]; omega, fun n hn => ?_⟩
      · have := hlow x hx
        omega
      · rw [covers_cons, hcovers n hn, not_or, ← and_assoc]
        apply and_congr_left'
        omega

theorem toNat_le_lastCodePoint (c : Char) : c.toNat ≤ lastCodePoint := by
  have hvalid : c.toNat < 0xD800 ∨ 0xDFFF < c.toNat ∧ c.toNat < 0x110000 := c.valid
  rw [lastCodePoint]
  omega

theorem Normal.compl (h : s.Normal) : s.compl.Normal := (gapsFrom_spec h fun _ _ => Nat.zero_le _).1

theorem Normal.length_compl (h : s.Normal) : s.compl.runs.length ≤ s.runs.length + 1 :=
  (gapsFrom_spec h fun _ _ => Nat.zero_le _).2.2.1

theorem contains_compl_iff (h : s.Normal) : s.compl.contains c = true ↔ ¬ s.contains c = true := by
  have hgaps := (gapsFrom_spec h fun _ _ => Nat.zero_le _).2.2.2 c.toNat (toNat_le_lastCodePoint c)
  rw [h.compl.contains_iff, h.contains_iff]
  exact hgaps.trans (and_iff_right (Nat.zero_le _))

theorem normal_diff (s t : CharSet) : (s.diff t).Normal := (normal_union _ _).compl

theorem length_diff (hs : s.Normal) (ht : t.Normal) : (s.diff t).runs.length ≤ s.runs.length + t.runs.length + 4 := by
  have hdiff : (s.diff t).runs.length ≤ (s.compl.union t.compl.compl).runs.length + 1 := (normal_union _ _).length_compl
  have hunion := length_union s.compl t.compl.compl
  have hs' := hs.length_compl
  have ht' := ht.length_compl
  have ht'' := ht.compl.length_compl
  omega

theorem contains_diff_iff (hs : s.Normal) (ht : t.Normal) :
    (s.diff t).contains c = true ↔ s.contains c = true ∧ ¬ t.contains c = true := by
  rw [diff, inter, contains_compl_iff (normal_union _ _), contains_union_iff hs.compl ht.compl.compl,
    contains_compl_iff hs, contains_compl_iff ht.compl, contains_compl_iff ht]
  tauto

end VisibleText.CharSet
