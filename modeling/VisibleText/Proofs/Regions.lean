import Mathlib.Data.List.Basic
import VisibleText.Blade.Region
import VisibleText.Proofs.SpanSets

namespace VisibleText.Blade

def Unfenced (bs : Bytes) : Prop := ∀ f ∈ fences, ¬ f.opening <+: bs

structure Named (before : Option UInt8) (bs name : Bytes) : Prop where
  unfenced : Unfenced bs
  sign : bs.head? = some atSign
  apart : before.any isWordByte = false
  name_eq : name = (bs.drop 1).takeWhile isWordByte
  nonempty : name ≠ []
  letter : name.head?.any isDigitByte = false

structure Argued (bs name blanks rest : Bytes) : Prop where
  opens : bs.drop (name.length + 1) = blanks ++ 0x28 :: rest
  blank : ∀ b ∈ blanks, b = 0x20 ∨ b = 0x09

theorem argued_of_drop {bs name rest : Bytes}
    (h : bs.drop (name.length + 1 + ((bs.drop (name.length + 1)).takeWhile fun b => b == 0x20 || b == 0x09).length) =
      0x28 :: rest) :
    Argued bs name ((bs.drop (name.length + 1)).takeWhile fun b => b == 0x20 || b == 0x09) rest := by
  rw [← List.drop_drop] at h
  constructor
  · rw [← h]
    exact (List.prefix_iff_eq_append.mp (List.takeWhile_prefix _)).symm
  · intro b hb
    simpa using List.all_eq_true.mp List.all_takeWhile b hb

theorem Argued.drop_eq {bs name blanks rest : Bytes} (h : Argued bs name blanks rest) :
    bs.drop (name.length + 1 + ((bs.drop (name.length + 1)).takeWhile fun b => b == 0x20 || b == 0x09).length) =
      0x28 :: rest := by
  have hgap : ((blanks ++ 0x28 :: rest).takeWhile fun b => b == 0x20 || b == 0x09) = blanks := by
    rw [List.takeWhile_append_of_pos (by simpa using h.blank)]
    simp
  rw [← List.drop_drop, h.opens, hgap, List.drop_left]

def blockFence : Fence := ⟨ascii "@php", ascii "@endphp", true⟩

theorem directiveBlock_eq (bs : Bytes) : directiveBlock ((ascii "php").length + 1) bs = blockFence.find bs := rfl

/-- All that the scanner can find at a place, each with the reason for it. -/
inductive Finds (before : Option UInt8) (bs : Bytes) : Find → Prop
  | fence {f : Fence} (hf : f ∈ fences) (ho : f.opening <+: bs)
      (hlongest : ∀ g ∈ fences, g.opening <+: bs → g.opening.length ≤ f.opening.length) : Finds before bs (f.find bs)
  | single (h : Unfenced bs) : Finds before bs (.markup 1)
  | escaped (h : Unfenced bs) (hat : bs[1]? = some atSign) : Finds before bs (.markup 2)
  | word {name : Bytes} (h : Named before bs name) : Finds before bs (.markup (name.length + 1))
  | bare {name : Bytes} (h : Named before bs name) (hplain : ∀ blanks rest, ¬ Argued bs name blanks rest)
      (hb : name ∈ bareDirectives.map ascii) : Finds before bs (.code (name.length + 1) none)
  | unmatched {name blanks rest : Bytes} (h : Named before bs name) (ha : Argued bs name blanks rest)
      (hm : Code.partnerAfter? .php 0x28 rest = none) : Finds before bs (.code (name.length + 1) none)
  | arguments {name blanks rest : Bytes} {n : ℕ} (h : Named before bs name) (ha : Argued bs name blanks rest)
      (hm : Code.partnerAfter? .php 0x28 rest = some n) :
      Finds before bs (.code (name.length + 1 + blanks.length + n + 2) none)
  | block (h : Named before bs (ascii "php")) (hplain : ∀ blanks rest, ¬ Argued bs (ascii "php") blanks rest) :
      Finds before bs (blockFence.find bs)

theorem directive_finds {before : Option UInt8} {bs name : Bytes} (h : Named before bs name) :
    Finds before bs (directive name bs) := by
  simp only [directive]
  split
  · rename_i rest hopen
    split
    · rename_i n hm
      exact .arguments h (argued_of_drop hopen) hm
    · rename_i hm
      exact .unmatched h (argued_of_drop hopen) hm
  · rename_i hnone
    have hplain : ∀ blanks rest, ¬ Argued bs name blanks rest := by
      intro blanks rest ha
      exact hnone rest ha.drop_eq
    split_ifs with hphp hbare
    · subst hphp
      rw [directiveBlock_eq]
      exact .block h hplain
    · exact .bare h hplain (by simpa using hbare)
    · exact .word h

theorem fences_ordered :
    fences.Pairwise fun f g => ¬ (f.opening <+: g.opening ∧ f.opening.length < g.opening.length) := by
  decide

theorem opening_longest {bs : Bytes} {f : Fence} (hfind : fences.find? (fun f => f.opening.isPrefixOf bs) = some f) :
    ∀ g ∈ fences, g.opening <+: bs → g.opening.length ≤ f.opening.length := by
  intro g hg ho
  have hf : f.opening <+: bs := by simpa using List.find?_some hfind
  obtain ⟨-, front, back, hsplit, hfront⟩ := List.find?_eq_some_iff_append.mp hfind
  have hordered := fences_ordered
  rw [hsplit] at hg hordered
  by_contra hlt
  rcases List.mem_append.mp hg with hg | hg
  · simpa [List.isPrefixOf_iff_prefix.mpr ho] using hfront g hg
  · rcases List.mem_cons.mp hg with rfl | hg
    · omega
    · have hnot := (List.pairwise_cons.mp (List.pairwise_append.mp hordered).2.1).1 g hg
      exact hnot ⟨List.prefix_of_prefix_length_le hf ho (by omega), by omega⟩

theorem findAt_finds (before : Option UInt8) (bs : Bytes) : Finds before bs (findAt before bs) := by
  unfold findAt
  split
  · rename_i f hfind
    exact .fence (List.mem_of_find?_eq_some hfind) (by simpa using List.find?_some hfind) (opening_longest hfind)
  · rename_i hnone
    have hunfenced : Unfenced bs := by
      intro f hf
      simpa using List.find?_eq_none.mp hnone f hf
    split_ifs with hat
    · simp only [atSignFind]
      split_ifs with hbefore hdouble hname
      · exact .single hunfenced
      · exact .escaped hunfenced hdouble
      · exact .single hunfenced
      · simp only [Bool.or_eq_true, not_or, List.isEmpty_iff] at hname
        exact directive_finds ⟨hunfenced, hat, by simpa using hbefore, rfl, hname.1, by simpa using hname.2⟩
    · exact .single hunfenced

theorem opening_head {f : Fence} (hf : f ∈ fences) :
    ∃ b tail, f.opening = b :: tail ∧ b ≠ atSign ∧ isWordByte b = false := by
  have hall : ∀ f ∈ fences, f.opening.head?.any fun b => b != atSign && !isWordByte b := by decide
  have h := hall f hf
  cases ho : f.opening with
  | nil => simp [ho] at h
  | cons b tail =>
    simp only [ho, List.head?_cons, Option.any_some, Bool.and_eq_true, bne_iff_ne, Bool.not_eq_true'] at h
    exact ⟨b, tail, rfl, h.1, h.2⟩

theorem opening_length_pos {f : Fence} (hf : f ∈ fences) : 0 < f.opening.length := by
  obtain ⟨b, tail, ho, -⟩ := opening_head hf
  simp [ho]

theorem blockFence_length_pos : 0 < blockFence.opening.length := by decide

theorem Named.starts {before : Option UInt8} {bs name : Bytes} (h : Named before bs name) : atSign :: name <+: bs := by
  obtain ⟨rest, rfl⟩ := List.head?_eq_some_iff.mp h.sign
  have hname : name <+: rest := h.name_eq ▸ List.takeWhile_prefix _
  exact List.cons_prefix_cons.mpr ⟨rfl, hname⟩

theorem Named.wordByte {before : Option UInt8} {bs name : Bytes} (h : Named before bs name) {i : ℕ}
    (hi : i < name.length) {b : UInt8} (hb : bs[i + 1]? = some b) : isWordByte b = true := by
  have hname : name <+: bs.drop 1 := h.name_eq ▸ List.takeWhile_prefix _
  have hget := List.prefix_iff_getElem?.mp hname i hi
  rw [List.getElem?_drop, Nat.add_comm, hb] at hget
  have hall : name.all isWordByte = true := h.name_eq ▸ List.all_takeWhile
  rw [Option.some.inj hget]
  exact List.all_eq_true.mp hall _ (List.getElem_mem hi)

theorem Fence.find_code {f : Fence} (hpos : 0 < f.opening.length) {bs : Bytes} (hbs : bs ≠ []) :
    ∃ n block, f.find bs = .code n block ∧ 0 < n ∧ ∀ b ∈ block, 0 < b.start ∧ b.stop ≤ n := by
  simp only [Fence.find]
  split
  · refine ⟨_, _, rfl, by omega, ?_⟩
    split_ifs <;> simp [hpos]
  · refine ⟨_, _, rfl, List.length_pos_iff.mpr hbs, ?_⟩
    split_ifs <;> simp [hpos]

theorem Finds.length_pos {before : Option UInt8} {bs : Bytes} {f : Find} (h : Finds before bs f)
    (hbs : bs ≠ []) : 0 < f.length := by
  cases h with
  | fence hf ho hlongest =>
    obtain ⟨n, block, hcode, hn, -⟩ := Fence.find_code (opening_length_pos hf) hbs
    simpa [hcode, Find.length] using hn
  | block h hplain =>
    obtain ⟨n, block, hcode, hn, -⟩ := Fence.find_code blockFence_length_pos hbs
    simpa [hcode, Find.length] using hn
  | single h => exact Nat.one_pos
  | escaped h hat => exact Nat.two_pos
  | word h => exact Nat.succ_pos _
  | bare h hplain hb => exact Nat.succ_pos _
  | unmatched h ha hm => exact Nat.succ_pos _
  | arguments h ha hm => exact Nat.succ_pos _

theorem Finds.block_bounds {before : Option UInt8} {bs : Bytes} {n : ℕ} {block : Span}
    (h : Finds before bs (.code n (some block))) (hbs : bs ≠ []) : 0 < block.start ∧ block.stop ≤ n := by
  generalize hg : Find.code n (some block) = f at h
  cases h with
  | fence hf ho hlongest =>
    obtain ⟨m, b, hcode, -, hbounds⟩ := Fence.find_code (opening_length_pos hf) hbs
    rw [hcode, Find.code.injEq] at hg
    exact hg.1 ▸ hbounds block hg.2.symm
  | block h hplain =>
    obtain ⟨m, b, hcode, -, hbounds⟩ := Fence.find_code blockFence_length_pos hbs
    rw [hcode, Find.code.injEq] at hg
    exact hg.1 ▸ hbounds block hg.2.symm
  | single h => simp at hg
  | escaped h hat => simp at hg
  | word h => simp at hg
  | bare h hplain hb => simp at hg
  | unmatched h ha hm => simp at hg
  | arguments h ha hm => simp at hg

theorem unfenced_drop {bs : Bytes} {i : ℕ} (h : ∀ b, bs[i]? = some b → b = atSign ∨ isWordByte b = true) :
    Unfenced (bs.drop i) := by
  intro f hf ho
  obtain ⟨b, tail, hopening, hsign, hword⟩ := opening_head hf
  obtain ⟨rest, hrest⟩ := ho
  have hb : bs[i]? = some b := by
    rw [← Nat.add_zero i, ← List.getElem?_drop, ← hrest, hopening]
    rfl
  rcases h b hb with he | he
  · exact hsign he
  · simp [hword] at he

theorem Finds.markup_unfenced {before : Option UInt8} {bs : Bytes} {n : ℕ} (h : Finds before bs (.markup n))
    (hbs : bs ≠ []) {i : ℕ} (hi : i < n) : Unfenced (bs.drop i) := by
  generalize hg : Find.markup n = f at h
  cases h with
  | fence hf ho hlongest =>
    obtain ⟨m, block, hcode, -⟩ := Fence.find_code (opening_length_pos hf) hbs
    simp [hcode] at hg
  | block h hplain =>
    obtain ⟨m, block, hcode, -⟩ := Fence.find_code blockFence_length_pos hbs
    simp [hcode] at hg
  | single h =>
    obtain rfl : n = 1 := Find.markup.inj hg
    obtain rfl : i = 0 := by omega
    exact h
  | escaped h hat =>
    obtain rfl : n = 2 := Find.markup.inj hg
    rcases Nat.eq_zero_or_pos i with rfl | hpos
    · exact h
    · obtain rfl : i = 1 := by omega
      exact unfenced_drop fun b hb => .inl (Option.some.inj (hb.symm.trans hat))
  | word h =>
    obtain rfl := Find.markup.inj hg
    cases i with
    | zero => exact h.unfenced
    | succ i => exact unfenced_drop fun b hb => .inr (h.wordByte (by omega) hb)
  | bare h hplain hb => simp at hg
  | unmatched h ha hm => simp at hg
  | arguments h ha hm => simp at hg

inductive Scan : ℕ → Option UInt8 → Bytes → List (ℕ × Find) → Prop
  | done (offset : ℕ) (before : Option UInt8) : Scan offset before [] []
  | step {offset : ℕ} {before : Option UInt8} {bs : Bytes} {f : Find} {rest : List (ℕ × Find)} (hbs : bs ≠ [])
      (hf : Finds before bs f) (hrest : Scan (offset + f.length) bs[f.length - 1]? (bs.drop f.length) rest) :
      Scan offset before bs ((offset, f) :: rest)

theorem finds_scan (offset : ℕ) (before : Option UInt8) (bs : Bytes) :
    Scan offset before bs (finds offset before bs) := by
  fun_induction finds offset before bs with
  | case1 offset before => exact .done offset before
  | case2 offset before b rest f used ih =>
    have hpos : 0 < used := (findAt_finds before (b :: rest)).length_pos (by simp)
    obtain ⟨k, hk⟩ : ∃ k, f.length = k + 1 := ⟨used - 1, by omega⟩
    refine .step (by simp) (findAt_finds before (b :: rest)) ?_
    have hdrop : (b :: rest).drop f.length = rest.drop (used - 1) := by simp [used, hk]
    rw [hdrop]
    exact ih

namespace Scan

variable {offset : ℕ} {before : Option UInt8} {bs : Bytes} {found : List (ℕ × Find)}

theorem offset_le (h : Scan offset before bs found) : ∀ x ∈ found, offset ≤ x.1 := by
  induction h with
  | done => simp
  | step hbs hf hrest ih =>
    refine List.forall_mem_cons.mpr ⟨Nat.le_refl _, fun x hx => ?_⟩
    have := ih x hx
    omega

theorem pairwise (h : Scan offset before bs found) :
    found.Pairwise fun a b => a.1 + a.2.length ≤ b.1 := by
  induction h with
  | done => exact .nil
  | step hbs hf hrest ih => exact .cons hrest.offset_le ih

theorem finds_at (h : Scan offset before bs found) {p : ℕ} {f : Find} (hx : (p, f) ∈ found) :
    ∃ i, p = offset + i ∧ i < bs.length ∧ Finds ((bs.take i).getLast?.or before) (bs.drop i) f := by
  induction h with
  | done => simp at hx
  | @step offset before bs g rest hbs hg hrest ih =>
    rcases List.mem_cons.mp hx with heq | hx
    · obtain ⟨rfl, rfl⟩ := Prod.mk.inj heq
      exact ⟨0, rfl, List.length_pos_iff.mpr hbs, hg⟩
    · obtain ⟨i, rfl, hi, hf⟩ := ih hx
      rw [List.length_drop] at hi
      have hpos := hg.length_pos hbs
      have hlast : (bs.take g.length).getLast?.or before = bs[g.length - 1]? := by
        rw [List.getLast?_take, if_neg (by omega), List.getElem?_eq_getElem (by omega)]
        rfl
      refine ⟨g.length + i, Nat.add_assoc _ _ _, by omega, ?_⟩
      rw [List.take_add, List.getLast?_append, Option.or_assoc, hlast, ← List.drop_drop]
      exact hf

theorem opening_code (h : Scan offset before bs found) {f : Fence} (hf : f ∈ fences) {i : ℕ}
    (ho : f.opening <+: bs.drop i) :
    ∃ start n block, (start, .code n block) ∈ found ∧ start ≤ offset + i ∧ offset + i < start + n := by
  induction h generalizing i with
  | done =>
    obtain ⟨b, tail, hopening, -⟩ := opening_head hf
    simp [hopening] at ho
  | @step offset before bs g rest hbs hg hrest ih =>
    by_cases hi : i < g.length
    · cases g with
      | markup n => exact absurd ho (hg.markup_unfenced hbs hi f hf)
      | code n block => exact ⟨offset, n, block, by simp, by omega, Nat.add_lt_add_left hi _⟩
    · have hdrop : (bs.drop g.length).drop (i - g.length) = bs.drop i := by
        rw [List.drop_drop]
        congr 1
        omega
      obtain ⟨start, n, block, hx, hle, hlt⟩ := ih (hdrop ▸ ho)
      exact ⟨start, n, block, List.mem_cons_of_mem _ hx, by omega, by omega⟩

end Scan

theorem find_at {bs : Bytes} {p : ℕ} {f : Find} (h : (p, f) ∈ finds 0 none bs) :
    p < bs.length ∧ Finds (bs.take p).getLast? (bs.drop p) f := by
  obtain ⟨i, rfl, hi, hf⟩ := (finds_scan 0 none bs).finds_at h
  rw [Nat.zero_add]
  rw [Option.or_none] at hf
  exact ⟨hi, hf⟩

theorem find_length_pos {bs : Bytes} {p : ℕ} {f : Find} (h : (p, f) ∈ finds 0 none bs) : 0 < f.length := by
  obtain ⟨hp, hf⟩ := find_at h
  exact hf.length_pos (by simpa using hp)

theorem find_block_bounds {bs : Bytes} {start n : ℕ} {block : Span}
    (h : (start, .code n (some block)) ∈ finds 0 none bs) : 0 < block.start ∧ block.stop ≤ n := by
  obtain ⟨hstart, hf⟩ := find_at h
  exact hf.block_bounds (by simpa using hstart)

theorem span_of_find {x : ℕ × Find} {s : Span}
    (h : (match x with
      | (offset, .code n _) => some (⟨offset, offset + n⟩ : Span)
      | _ => none) = some s) :
    ∃ start n block, x = (start, .code n block) ∧ s = ⟨start, start + n⟩ := by
  split at h
  · exact ⟨_, _, _, rfl, (Option.some.inj h).symm⟩
  · simp at h

theorem excluded_covers (bs : Bytes) (p : ℕ) :
    (scan bs).excluded.Covers p ↔
      ∃ start n block, (start, .code n block) ∈ finds 0 none bs ∧ start ≤ p ∧ p < start + n := by
  rw [scan, (SpanSet.ofSpans_spec _).2]
  constructor
  · rintro ⟨s, hs, hp⟩
    obtain ⟨x, hx, hs⟩ := List.mem_filterMap.mp hs
    obtain ⟨start, n, block, rfl, rfl⟩ := span_of_find hs
    exact ⟨start, n, block, hx, hp⟩
  · rintro ⟨start, n, block, hx, hp⟩
    exact ⟨⟨start, start + n⟩, List.mem_filterMap.mpr ⟨_, hx, rfl⟩, hp⟩

theorem block_of_find {x : ℕ × Find} {s : Span}
    (h : (match x with
      | (offset, .code _ (some block)) => some (block.shift offset)
      | _ => none) = some s) :
    ∃ start n block, x = (start, .code n (some block)) ∧ s = block.shift start := by
  split at h
  · exact ⟨_, _, _, rfl, (Option.some.inj h).symm⟩
  · simp at h

theorem mem_blocks {bs : Bytes} {s : Span} (h : s ∈ (scan bs).blocks) :
    ∃ start n block, (start, .code n (some block)) ∈ finds 0 none bs ∧ s = block.shift start := by
  obtain ⟨x, hx, hf⟩ := List.mem_filterMap.mp h
  obtain ⟨start, n, block, rfl, hs⟩ := block_of_find hf
  exact ⟨start, n, block, hx, hs⟩

theorem block_covered {bs : Bytes} {s : Span} (h : s ∈ (scan bs).blocks) {p : ℕ} (hp : s.Contains p) :
    (scan bs).excluded.Covers p := by
  obtain ⟨start, n, block, hx, rfl⟩ := mem_blocks h
  obtain ⟨-, hstop⟩ := find_block_bounds hx
  simp only [Span.contains_iff, Span.shift] at hp
  exact (excluded_covers bs p).mpr ⟨start, n, some block, hx, by omega, by omega⟩

theorem blocks_pairwise (bs : Bytes) : (scan bs).blocks.Pairwise fun a b => a.stop < b.start := by
  have hscan := finds_scan 0 none bs
  rw [scan, List.pairwise_filterMap]
  refine hscan.pairwise.imp_of_mem ?_
  intro x y hx hy hle s hs t ht
  obtain ⟨start, n, block, rfl, rfl⟩ := block_of_find hs
  obtain ⟨start', n', block', rfl, rfl⟩ := block_of_find ht
  obtain ⟨-, hstop⟩ := find_block_bounds hx
  obtain ⟨hstart, -⟩ := find_block_bounds hy
  simp only [Find.length] at hle
  simp only [Span.shift]
  omega

theorem opening_covered {bs : Bytes} {f : Fence} (hf : f ∈ fences) {p : ℕ} (ho : f.opening <+: bs.drop p) :
    (scan bs).excluded.Covers p := by
  obtain ⟨start, n, block, hx, hle, hlt⟩ := (finds_scan 0 none bs).opening_code hf ho
  exact (excluded_covers bs p).mpr ⟨start, n, block, hx, by omega, by omega⟩

end VisibleText.Blade
