import Mathlib.Data.List.Basic
import VisibleText.Pattern.Parser

namespace VisibleText.Pattern

/-- The reader takes the text for the patterns, whatever it has read before and finds behind the text; only a question
mark behind the text could belong to it. -/
def Written (ps : List Pattern) (text : List Char) : Prop :=
  ∃ steps ≤ text.length, ∀ fuel b rest, rest.head? ≠ some '?' →
    alternatives? (steps + fuel) b ⟨{}, [], text ++ rest⟩ = alternatives? fuel (ps.foldl Branches.push b) ⟨{}, [], rest⟩

theorem written_nil : Written [] [] := ⟨0, Nat.le_refl 0, fun fuel b rest _ => by rw [Nat.zero_add]; rfl⟩

theorem Written.append {ps qs : List Pattern} {text more : List Char} (h : Written ps text) (h' : Written qs more)
    (hmore : more.head? ≠ some '?') : Written (ps ++ qs) (text ++ more) := by
  obtain ⟨steps, hsteps, hread⟩ := h
  obtain ⟨steps', hsteps', hread'⟩ := h'
  refine ⟨steps + steps', by rw [List.length_append]; omega, ?_⟩
  intro fuel b rest hrest
  have hbehind : (more ++ rest).head? ≠ some '?' := by
    cases more with
    | nil => exact hrest
    | cons c more => exact hmore
  rw [Nat.add_assoc, List.append_assoc, hread _ _ _ hbehind, hread' _ _ _ hrest, List.foldl_append]

theorem foldl_push (ps : List Pattern) (b : Branches) :
    (ps.foldl Branches.push b).finished = b.finished ∧
      (ps.foldl Branches.push b).current = ps.reverse ++ b.current := by
  induction ps generalizing b with
  | nil => exact ⟨rfl, rfl⟩
  | cons p ps ih =>
    obtain ⟨hfinished, hcurrent⟩ := ih (b.push p)
    exact ⟨hfinished, by rw [List.foldl_cons, hcurrent, List.reverse_cons, List.append_assoc]; rfl⟩

theorem Written.parse? {ps : List Pattern} {text : List Char} (h : Written ps text) :
    parse? text = if (seqAll ps).weight ≤ maxWeight then some (seqAll ps) else none := by
  obtain ⟨steps, hsteps, hread⟩ := h
  obtain ⟨fuel, hfuel⟩ : ∃ fuel, text.length + 1 = steps + (fuel + 1) := ⟨text.length - steps, by omega⟩
  have hall := hread (fuel + 1) {} [] (by simp)
  rw [List.append_nil, ← hfuel] at hall
  have hpattern : (ps.foldl Branches.push {}).toPattern = seqAll ps := by
    obtain ⟨hfinished, hcurrent⟩ := foldl_push ps {}
    simp only [Branches.toPattern, Branches.nextAlternative, hfinished, hcurrent, List.append_nil, List.reverse_reverse]
    rfl
  rw [Pattern.parse?, hall, alternatives?]
  simp [skip, hpattern]

def startsAtom (c : Char) : Bool := !")|([?*+\x7b".toList.contains c

theorem startsAtom_iff {c : Char} : startsAtom c = true ↔
    c ≠ ')' ∧ c ≠ '|' ∧ c ≠ '(' ∧ c ≠ '[' ∧ c ≠ '?' ∧ c ≠ '*' ∧ c ≠ '+' ∧ c ≠ '\x7b' := by
  simp [startsAtom]

theorem skip_default (cs : List Char) : skip {} cs = cs := rfl

theorem repetition?_atom {c : Char} (hc : startsAtom c = true) (rest : List Char) :
    repetition? {} (c :: rest) = some none := by
  obtain ⟨-, -, -, -, hquestion, hstar, hplus, hbrace⟩ := startsAtom_iff.mp hc
  rw [repetition?]
  · rintro _ ⟨⟩; exact hquestion rfl
  · rintro _ ⟨⟩; exact hstar rfl
  · rintro _ ⟨⟩; exact hplus rfl
  · rintro _ ⟨⟩; exact hbrace rfl

theorem alternatives?_atom {c : Char} (hc : startsAtom c = true) (fuel : ℕ) (b : Branches) (rest : List Char) :
    alternatives? (fuel + 1) b ⟨{}, [], c :: rest⟩ =
      (primitive? {} (c :: rest)).bind fun x => alternatives? fuel (b.push x.1) ⟨{}, [], x.2⟩ := by
  obtain ⟨hclose, hbar, hopen, hbracket, -⟩ := startsAtom_iff.mp hc
  rw [alternatives?]
  simp only [skip_default]
  split
  case h_6 =>
    rw [repetition?_atom hc]
    rfl
  all_goals simp_all

theorem written_atom {c : Char} {cs : List Char} {p : Pattern} (hc : startsAtom c = true)
    (hp : ∀ rest, primitive? {} (c :: cs ++ rest) = some (p, rest)) : Written [p] (c :: cs) := by
  refine ⟨1, by simp, ?_⟩
  intro fuel b rest _
  rw [Nat.add_comm 1 fuel, List.cons_append, alternatives?_atom hc, ← List.cons_append, hp]
  rfl

theorem isMeta_iff {c : Char} : isMeta c = true ↔
    c ∈ ['\\', '.', '+', '*', '?', '(', ')', '|', '[', ']', '\x7b', '\x7d', '^', '$', '#', '&', '-', '~'] :=
  List.contains_iff_mem

theorem escape?_meta {c : Char} (hc : isMeta c = true) (rest : List Char) :
    escape? {} (c :: rest) = some (.char c false, rest) := by
  revert c
  simp only [isMeta_iff, List.forall_mem_cons, List.not_mem_nil, IsEmpty.forall_iff, implies_true, and_true]
  and_intros
  all_goals rfl

theorem written_escaped {c : Char} (hc : isMeta c = true) : Written [chars (.singleton c)] ['\\', c] := by
  apply written_atom rfl
  intro rest
  rw [List.cons_append, List.singleton_append, primitive?, escape?_meta hc]
  rfl

theorem written_plain {c : Char} (hc : isMeta c = false) : Written [chars (.singleton c)] [c] := by
  have hne {d : Char} (hd : isMeta d = true) : c ≠ d := by
    rintro rfl
    rw [hc] at hd
    cases hd
  apply written_atom
  · apply startsAtom_iff.mpr
    and_intros
    all_goals exact hne rfl
  · intro rest
    rw [List.cons_append, List.nil_append, primitive?]
    · rfl
    all_goals exact hne rfl

theorem written_textStart : Written [look .textStart] ['^'] := written_atom rfl fun _ => rfl

theorem written_textEnd : Written [look .textEnd] ['$'] := written_atom rfl fun _ => rfl

theorem alternatives?_star {rest : List Char} (hrest : rest.head? ≠ some '?') (fuel : ℕ) (b : Branches) (p : Pattern) :
    alternatives? (fuel + 1) (b.push p) ⟨{}, [], '*' :: rest⟩ =
      alternatives? fuel (b.push (repeated p 0 none)) ⟨{}, [], rest⟩ := by
  have hlazy : repetition?.lazyMark rest = rest := by
    rw [repetition?.lazyMark]
    rintro more rfl
    exact hrest rfl
  have hrepeat : repetition? {} ('*' :: rest) = some (some ((0, none), rest)) := by rw [repetition?, hlazy]
  rw [alternatives?]
  simp only [skip_default]
  split
  case h_6 =>
    rw [hrepeat]
    rfl
  all_goals simp_all

theorem written_dotStar : Written [repeated (chars (CharSet.singleton '\n').compl) 0 none] ['.', '*'] := by
  refine ⟨2, by simp, ?_⟩
  intro fuel b rest hrest
  have hdot : primitive? {} ('.' :: '*' :: rest) = some (chars (CharSet.singleton '\n').compl, '*' :: rest) := rfl
  have hatom : startsAtom '.' = true := rfl
  rw [Nat.add_comm 2 fuel, List.cons_append, List.singleton_append, alternatives?_atom hatom, hdot]
  exact alternatives?_star hrest fuel b _

theorem written_class {text : List Char} {s : CharSet} (h : ∀ rest, class? {} (text ++ rest) = some (s, rest)) :
    Written [chars s] ('[' :: text) := by
  refine ⟨1, by simp, ?_⟩
  intro fuel b rest _
  rw [Nat.add_comm 1 fuel, List.cons_append, alternatives?]
  simp only [skip_default, h]
  rfl

theorem classItem?_dash {c : Char} {cs more : List Char} (h : classAtom? {} cs = some (.char c false, '-' :: more)) :
    classItem? {} cs = if more.head? = some ']' ∨ more.head? = some '-' then some (.singleton c, '-' :: more) else
      (classAtom? {} more).bind fun x => (bound? {} x.1).bind fun last =>
        if c ≤ last then some (.ofRange c last, x.2) else none := by
  rw [classItem?, h]
  change (if (decide (more.head? = some ']') || decide (more.head? = some '-')) = true then
    some (CharSet.singleton c, '-' :: more) else _) = _
  simp only [Bool.or_eq_true, decide_eq_true_eq]
  rfl

theorem classItem?_single {c : Char} {cs rest : List Char} (h : classAtom? {} cs = some (.char c false, rest))
    (hne : rest ≠ []) (hdash : rest.head? ≠ some '-') : classItem? {} cs = some (.singleton c, rest) := by
  rw [classItem?, h]
  simp only [Option.bind_eq_bind, Option.bind_some, skip_default]
  split
  · exact absurd rfl hne
  · exact absurd rfl hdash
  · rfl

theorem leadingDashes_stop {cs : List Char} (h : cs.head? ≠ some '-') (s : CharSet) : leadingDashes {} s cs = (s, cs) := by
  cases cs with
  | nil => rfl
  | cons c cs =>
    rw [leadingDashes]
    · rfl
    · rintro rfl
      exact h rfl

section Start

variable {cs rest : List Char} {lead : CharSet} (hlead : leadingDashes {} .empty cs = (lead, rest))
  (hrest : lead.isEmpty = true → rest.head? ≠ some ']')

include hlead hrest

theorem classStart_caret : classStart {} ('^' :: cs) = (true, lead, rest) := by
  rw [classStart]
  simp only [skip_default, hlead]
  split
  · exact absurd rfl (hrest (by assumption))
  · rfl

theorem classStart_plain (hcaret : cs.head? ≠ some '^') : classStart {} cs = (false, lead, rest) := by
  rw [classStart]
  split
  next negated cs' heq =>
  rw [skip_default] at heq
  split at heq
  · exact absurd rfl hcaret
  · obtain ⟨rfl, rfl⟩ := Prod.mk.inj heq
    simp only [hlead]
    split
    · exact absurd rfl (hrest (by assumption))
    · rfl

end Start

def remaining (left : Option CharSet) (union : CharSet) : CharSet :=
  match left with
  | none => union
  | some left => left.diff union

theorem classBody?_close (negated : Bool) (fuel : ℕ) (left : Option CharSet) (union : CharSet) (rest : List Char) :
    classBody? {} negated (fuel + 1) (left.map fun s => (.difference, s)) union (']' :: rest) =
      some (foldAndNegate {} negated (remaining left union), rest) := by
  rw [classBody?.eq_def]
  cases left <;> rfl

theorem classBody?_dashes (negated : Bool) (fuel : ℕ) (left : Option CharSet) (union : CharSet) (rest : List Char) :
    classBody? {} negated (fuel + 1) (left.map fun s => (.difference, s)) union ('-' :: '-' :: rest) =
      classBody? {} negated fuel (some (.difference, remaining left union)) .empty rest := by
  rw [classBody?.eq_def]
  simp only [skip_default]
  cases left <;> rfl

theorem classBody?_item {c : Char} {rest tail : List Char} {item : CharSet} (hclose : c ≠ ']') (hopen : c ≠ '[')
    (hop : setOp? (c :: rest) = none) (hitem : classItem? {} (c :: rest) = some (item, tail)) (negated : Bool) (fuel : ℕ)
    (pending : Option (SetOp × CharSet)) (union : CharSet) :
    classBody? {} negated (fuel + 1) pending union (c :: rest) =
      classBody? {} negated fuel pending (union.union item) tail := by
  rw [classBody?.eq_def]
  simp only [skip_default, hop, hitem]
  rfl

theorem weight_chars_le (s : CharSet) : (chars s).weight ≤ 64 * s.runs.length := by
  obtain ⟨runs⟩ := s
  induction runs with
  | nil => exact Nat.le_refl 0
  | cons r runs ih =>
    have hrun : (if r.2 < 0x80 then 32 else 64) ≤ 64 := by split_ifs <;> decide
    calc (chars ⟨r :: runs⟩).weight = (if r.2 < 0x80 then 32 else 64) + (chars ⟨runs⟩).weight := rfl
      _ ≤ 64 + 64 * runs.length := Nat.add_le_add hrun ih
      _ = 64 * (runs.length + 1) := by omega

theorem weight_seqAll_cons (p : Pattern) (ps : List Pattern) :
    (seqAll (p :: ps)).weight = p.weight + (seqAll ps).weight := by
  cases ps <;> rfl

theorem weight_seqAll_append (ps qs : List Pattern) :
    (seqAll (ps ++ qs)).weight = (seqAll ps).weight + (seqAll qs).weight := by
  induction ps with
  | nil => exact (Nat.zero_add _).symm
  | cons p ps ih => rw [List.cons_append, weight_seqAll_cons, ih, weight_seqAll_cons, Nat.add_assoc]

theorem weight_seqAll_le {ps : List Pattern} {room : ℕ} (h : ∀ p ∈ ps, p.weight ≤ room) :
    (seqAll ps).weight ≤ room * ps.length := by
  induction ps with
  | nil => exact Nat.zero_le _
  | cons p ps ih =>
    obtain ⟨hp, hps⟩ := List.forall_mem_cons.mp h
    rw [weight_seqAll_cons, List.length_cons, Nat.mul_succ, Nat.add_comm]
    exact Nat.add_le_add (ih hps) hp

end VisibleText.Pattern
