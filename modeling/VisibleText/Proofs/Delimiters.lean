import Mathlib.Data.Nat.Find
import VisibleText.Proofs.Heads

namespace VisibleText.Code

/-- Up to and with place `k`, there are `ahead` more closing delimiters than opening ones. -/
def Closes (opener closer : UInt8) (ahead : ℕ) (bs : Bytes) (k : ℕ) : Prop :=
  k < bs.length ∧ (bs.take (k + 1)).count closer = (bs.take (k + 1)).count opener + ahead

def IsFirst (p : ℕ → Prop) (n : ℕ) : Prop := p n ∧ ∀ i < n, ¬ p i

theorem IsFirst.unique {p : ℕ → Prop} {m n : ℕ} (hm : IsFirst p m) (hn : IsFirst p n) : m = n := by
  rcases Nat.lt_trichotomy m n with hlt | heq | hlt
  · exact absurd hm.1 (hn.2 m hlt)
  · exact heq
  · exact absurd hn.1 (hm.2 n hlt)

theorem exists_isFirst {p : ℕ → Prop} (h : ∃ n, p n) : ∃ n, IsFirst p n := by
  classical
  exact ⟨Nat.find h, Nat.find_spec h, fun i hi => Nat.find_min h hi⟩

theorem isFirst_succ {p q : ℕ → Prop} (hzero : ¬ p 0) (hsucc : ∀ k, p (k + 1) ↔ q k) (n : ℕ) :
    IsFirst p n ↔ ∃ m, IsFirst q m ∧ m + 1 = n := by
  constructor
  · rintro ⟨hn, hleast⟩
    cases n with
    | zero => exact absurd hn hzero
    | succ m => exact ⟨m, ⟨(hsucc m).mp hn, fun i hi hq => hleast (i + 1) (by omega) ((hsucc i).mpr hq)⟩, rfl⟩
  · rintro ⟨m, ⟨hm, hleast⟩, rfl⟩
    refine ⟨(hsucc m).mpr hm, ?_⟩
    intro i hi hp
    cases i with
    | zero => exact hzero hp
    | succ i => exact hleast i (by omega) ((hsucc i).mp hp)

section

variable {opener closer : UInt8}

theorem closes_opener (hne : opener ≠ closer) (ahead : ℕ) (bs : Bytes) :
    ¬ Closes opener closer ahead (opener :: bs) 0 ∧
      ∀ k, Closes opener closer ahead (opener :: bs) (k + 1) ↔ Closes opener closer (ahead + 1) bs k := by
  refine ⟨by simp [Closes, hne, Nat.add_comm 1], fun k => ?_⟩
  simp only [Closes, List.length_cons, List.take_succ_cons, List.count_cons_self, List.count_cons_of_ne hne]
  omega

theorem closes_closer (hne : opener ≠ closer) (ahead : ℕ) (bs : Bytes) :
    (Closes opener closer (ahead + 1) (closer :: bs) 0 ↔ ahead = 0) ∧
      ∀ k, Closes opener closer (ahead + 1) (closer :: bs) (k + 1) ↔ Closes opener closer ahead bs k := by
  refine ⟨by simp [Closes, hne.symm], fun k => ?_⟩
  simp only [Closes, List.length_cons, List.take_succ_cons, List.count_cons_self, List.count_cons_of_ne hne.symm]
  omega

theorem closes_other {b : UInt8} (hopener : b ≠ opener) (hcloser : b ≠ closer) (ahead : ℕ) (bs : Bytes) :
    ¬ Closes opener closer (ahead + 1) (b :: bs) 0 ∧
      ∀ k, Closes opener closer ahead (b :: bs) (k + 1) ↔ Closes opener closer ahead bs k := by
  refine ⟨by simp [Closes, hopener, hcloser], fun k => ?_⟩
  simp only [Closes, List.length_cons, List.take_succ_cons, List.count_cons_of_ne hopener, List.count_cons_of_ne hcloser]
  omega

theorem closerOffset?_code (hne : opener ≠ closer) (depth : ℕ) (bs : Bytes) (n : ℕ) :
    closerOffset? opener closer depth (bs.map .code) = some n ↔ IsFirst (Closes opener closer (depth + 1) bs) n := by
  induction bs generalizing depth n with
  | nil => simp [closerOffset?, IsFirst, Closes]
  | cons b bs ih =>
    have hstep : ∀ depth', (∃ m, IsFirst (Closes opener closer (depth' + 1) bs) m ∧ m + 1 = n) ↔
        (closerOffset? opener closer depth' (bs.map .code)).map (· + 1) = some n := by
      intro depth'
      rw [Option.map_eq_some_iff]
      exact exists_congr fun m => and_congr_left fun _ => (ih depth' m).symm
    rw [List.map_cons]
    by_cases hopener : b = opener
    · subst hopener
      obtain ⟨hzero, hsucc⟩ := closes_opener hne (depth + 1) bs
      rw [isFirst_succ hzero hsucc, hstep]
      simp only [closerOffset?, if_pos]
    by_cases hcloser : b = closer
    · subst hcloser
      obtain ⟨hzero, hsucc⟩ := closes_closer hne depth bs
      cases depth with
      | zero =>
        have hfirst : IsFirst (Closes opener b 1 (b :: bs)) 0 := ⟨hzero.mpr rfl, fun i hi => absurd hi (Nat.not_lt_zero i)⟩
        simp only [closerOffset?, if_neg hopener, if_pos]
        constructor
        · intro h
          exact Option.some.inj h ▸ hfirst
        · intro h
          exact congrArg some (hfirst.unique h)
      | succ depth =>
        rw [isFirst_succ (fun h => Nat.succ_ne_zero depth (hzero.mp h)) hsucc, hstep]
        simp only [closerOffset?, if_neg hopener, if_pos]
    · obtain ⟨hzero, -⟩ := closes_other hopener hcloser depth bs
      obtain ⟨-, hsucc⟩ := closes_other hopener hcloser (depth + 1) bs
      rw [isFirst_succ hzero hsucc, hstep]
      simp only [closerOffset?, if_neg hopener, if_neg hcloser]

theorem closerOffset?_masked (hopener : opener ≠ lineFeed ∧ opener ≠ space) (hcloser : closer ≠ lineFeed ∧ closer ≠ space)
    (d : Dialect) (quotes : UInt8 → Bool) (depth : ℕ) (bs : Bytes) :
    closerOffset? opener closer depth (lexemes d quotes bs) =
      closerOffset? opener closer depth (((lexemes d quotes bs).flatMap Lexeme.masked).map .code) := by
  have hblanks : ∀ (cs rest : Bytes) (depth : ℕ), closerOffset? opener closer depth ((cs.map blank ++ rest).map .code) =
      (closerOffset? opener closer depth (rest.map .code)).map (· + cs.length) := by
    intro cs rest depth
    rw [List.map_append, closerOffset?_blanks hopener hcloser]
  fun_induction lexemes d quotes bs generalizing depth with
  | case1 => rfl
  | case2 b rest n hn ih =>
    simp only [List.flatMap_cons, closerOffset?, ih]
    exact (hblanks _ _ depth).symm
  | case3 b rest hn hq n hc ih =>
    simp only [List.flatMap_cons, closerOffset?, ih]
    exact (hblanks _ _ depth).symm
  | case4 b rest hn hq hc => exact (hblanks (b :: rest) [] depth).symm
  | case5 b rest hn hq ih =>
    rw [List.flatMap_cons, Lexeme.masked, List.singleton_append, List.map_cons]
    exact closerOffset?_append_congr ih [.code b] depth

end

theorem closer?_cases {opener closer : UInt8} (h : closer? opener = some closer) :
    (opener = 0x28 ∧ closer = 0x29) ∨ (opener = 0x5B ∧ closer = 0x5D) ∨ (opener = 0x7B ∧ closer = 0x7D) := by
  unfold closer? at h
  split_ifs at h with hround hsquare hcurly
  · exact .inl ⟨hround, (Option.some.inj h).symm⟩
  · exact .inr (.inl ⟨hsquare, (Option.some.inj h).symm⟩)
  · exact .inr (.inr ⟨hcurly, (Option.some.inj h).symm⟩)

theorem closer?_plain {opener closer : UInt8} (h : closer? opener = some closer) : opener ≠ closer ∧
    (opener ≠ lineFeed ∧ opener ≠ space) ∧ (closer ≠ lineFeed ∧ closer ≠ space) ∧
      opener ≠ hash ∧ opener ≠ slash ∧ opener ≠ backquote ∧ ¬ isQuoteOrBackquote opener := by
  rcases closer?_cases h with ⟨rfl, rfl⟩ | ⟨rfl, rfl⟩ | ⟨rfl, rfl⟩ <;> decide

theorem mem_of_code_mem_lexemes {d : Dialect} {quotes : UInt8 → Bool} {bs : Bytes} {b : UInt8}
    (h : .code b ∈ lexemes d quotes bs) : b ∈ bs := by
  rw [← lexemes_spell d quotes bs]
  exact List.mem_flatMap.mpr ⟨_, h, List.mem_singleton_self b⟩

theorem partnerAfter?_isFirst {d : Dialect} {opener closer : UInt8} (hcloser : closer? opener = some closer)
    (rest : Bytes) (k : ℕ) :
    (partnerAfter? d opener rest).map (· + 1) = some k ↔
      IsFirst (Closes opener closer 0 ((lexemes d isQuoteOrBackquote (opener :: rest)).flatMap Lexeme.masked)) k := by
  obtain ⟨hne, hvisible, hvisible', hhash, hslash, -, hquote⟩ := closer?_plain hcloser
  have hcode : lexemes d isQuoteOrBackquote (opener :: rest) = .code opener :: lexemes d isQuoteOrBackquote rest :=
    lexemes_code (commentLength?_cons_none (fun h => hhash h.2) (fun h => absurd h hslash)) hquote
  obtain ⟨hzero, hsucc⟩ := closes_opener hne 0 ((lexemes d isQuoteOrBackquote rest).flatMap Lexeme.masked)
  rw [hcode, List.flatMap_cons, Lexeme.masked, List.singleton_append, isFirst_succ hzero hsucc, Option.map_eq_some_iff]
  refine exists_congr fun m => and_congr_left fun _ => ?_
  rw [← closerOffset?_code hne, ← closerOffset?_masked hvisible hvisible']
  simp only [partnerAfter?, hcloser, Option.bind_eq_bind, Option.bind_some]

theorem partnerAfter?_closes {d : Dialect} {opener closer : UInt8} (hcloser : closer? opener = some closer)
    {rest : Bytes} (hticks : backquote ∉ rest) (k : ℕ) :
    (partnerAfter? d opener rest).map (· + 1) = some k ↔
      IsFirst (Closes opener closer 0 ((lexemes d isQuote (opener :: rest)).flatMap Lexeme.masked)) k := by
  obtain ⟨-, -, -, -, -, hbackquote, -⟩ := closer?_plain hcloser
  rw [partnerAfter?_isFirst hcloser, lexemes_backquoted]
  rintro l hl rfl
  rcases List.mem_cons.mp (mem_of_code_mem_lexemes hl) with heq | hmem
  · exact hbackquote heq.symm
  · exact hticks hmem

theorem partner?_closes (d : Dialect) {content : List Char} (hticks : '`' ∉ content) {p : ℕ} {opener closer : UInt8}
    (hopener : (utf8 content)[p]? = some opener) (hcloser : closer? opener = some closer) :
    (∀ j, partner? d (utf8 content) p = some j ↔ ∃ k, j = p + k ∧
      IsFirst (Closes opener closer 0 (mask d (utf8 content) ⟨p, byteLength content⟩)) k) ∧
    (partner? d (utf8 content) p = none ↔
      ¬ ∃ k, Closes opener closer 0 (mask d (utf8 content) ⟨p, byteLength content⟩) k) := by
  obtain ⟨hp, hget⟩ := List.getElem?_eq_some_iff.mp hopener
  obtain ⟨rest, hdrop⟩ : ∃ rest, (utf8 content).drop p = opener :: rest :=
    ⟨_, by rw [List.drop_eq_getElem_cons hp, hget]⟩
  have hticks : backquote ∉ rest := by
    intro hmem
    have hmem : backquote ∈ utf8 content := List.mem_of_mem_drop (hdrop ▸ List.mem_cons_of_mem opener hmem)
    obtain ⟨c, hc, hnat⟩ := exists_char_of_mem_utf8 hmem (by decide)
    obtain rfl : c = '`' := Char.toNat_inj.mp hnat
    exact hticks hc
  have hmask : mask d (utf8 content) ⟨p, byteLength content⟩ =
      (lexemes d isQuote (opener :: rest)).flatMap Lexeme.masked := by
    rw [mask, scope, ← length_utf8, List.take_length, hdrop]
  have hfirst := partnerAfter?_closes (d := d) hcloser hticks
  have hpartner : partner? d (utf8 content) p = ((partnerAfter? d opener rest).map (· + 1)).map (p + ·) := by
    simp only [partner?, hdrop, Option.map_map]
    congr 1
    funext k
    simp only [Function.comp_apply]
    omega
  rw [hmask, hpartner]
  constructor
  · intro j
    rw [Option.map_eq_some_iff]
    refine exists_congr fun k => ?_
    rw [hfirst, and_comm, eq_comm]
  · rw [Option.map_eq_none_iff, Option.eq_none_iff_forall_ne_some]
    constructor
    · rintro hnone hsome
      obtain ⟨k, hk⟩ := exists_isFirst hsome
      exact hnone k ((hfirst k).mpr hk)
    · intro hnone k hk
      exact hnone ⟨k, ((hfirst k).mp hk).1⟩

def nested : List Char := "f(a(b), ')', /* ) */ \"(\") + 1".toList

theorem partner?_closes_nested : '`' ∉ nested ∧ (utf8 nested)[1]? = some 0x28 ∧
    partner? .php (utf8 nested) 1 = some 24 ∧
    IsFirst (Closes 0x28 0x29 0 (mask .php (utf8 nested) ⟨1, byteLength nested⟩)) 23 := by
  have hticks : '`' ∉ nested := by decide
  have hopener : (utf8 nested)[1]? = some 0x28 := by decide
  have hpartner : partner? .php (utf8 nested) 1 = some 24 := by decide +kernel
  obtain ⟨k, hk, hfirst⟩ := ((partner?_closes .php hticks hopener rfl).1 24).mp hpartner
  obtain rfl : k = 23 := by omega
  exact ⟨hticks, hopener, hpartner, hfirst⟩

end VisibleText.Code
