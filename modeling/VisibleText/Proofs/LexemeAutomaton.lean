import VisibleText.Proofs.Lexemes

/-!
Code read one byte at a time. An automaton that remembers only in what it stands, and never looks
ahead, finds the same literals as the lexemes, which jump from the start of a comment or a literal to
its end.
-/
namespace VisibleText.Code

/-- In what the bytes read so far leave the automaton. -/
inductive Mode where
  | code
  | slash
  | lineComment
  | blockComment
  | star
  | string (quote : UInt8) (start : ℕ)
  | escape (quote : UInt8) (start : ℕ)
deriving DecidableEq, Repr

namespace Mode

def enter (d : Dialect) (offset : ℕ) (b : UInt8) : Mode :=
  if b = Code.slash then slash
  else if d = .php && b = hash then lineComment
  else if isQuote b then string b (offset + 1)
  else code

def next (d : Dialect) (offset : ℕ) : Mode → UInt8 → Mode
  | code, b => enter d offset b
  | slash, b =>
    if b = Code.slash then lineComment
    else if b = Code.star then blockComment
    else enter d offset b
  | lineComment, b => if b = lineFeed then code else lineComment
  | blockComment, b => if b = Code.star then star else blockComment
  | star, b =>
    if b = Code.slash then code
    else if b = Code.star then star
    else blockComment
  | string quote start, b =>
    if b = backslash then escape quote start
    else if b = quote then code
    else string quote start
  | escape quote start, _ => string quote start

def output (offset : ℕ) : Mode → UInt8 → Option Literal
  | string quote start, b => if b ≠ backslash ∧ b = quote then some ⟨quote, ⟨start, offset⟩⟩ else none
  | _, _ => none

def run (d : Dialect) : Mode → ℕ → Bytes → List Literal
  | _, _, [] => []
  | m, offset, b :: bs => (m.output offset b).toList ++ (m.next d offset b).run d (offset + 1) bs

variable (d : Dialect) (offset : ℕ)

theorem run_lineComment (bs : Bytes) :
    lineComment.run d offset bs = code.run d (offset + lineLength bs) (bs.drop (lineLength bs)) := by
  induction bs generalizing offset with
  | nil => rfl
  | cons b bs ih =>
    by_cases hb : b = lineFeed
    · simp [run, next, output, lineLength, hb]
    · simp only [run, next, output, lineLength, if_neg hb, Option.toList_none, List.nil_append, ih,
        List.drop_succ_cons]
      congr 1
      omega

theorem run_star {bs : Bytes} (h : bs.head? ≠ some Code.slash) :
    star.run d offset bs = blockComment.run d offset bs := by
  cases bs with
  | nil => rfl
  | cons b bs =>
    have hb : b ≠ Code.slash := by simpa using h
    simp [run, next, output, hb]

theorem blockLength_closed (bs : Bytes) : blockLength (Code.star :: Code.slash :: bs) = 2 := by
  simp [blockLength, indexOf?, List.isPrefixOf]

theorem blockLength_cons {b : UInt8} {bs : Bytes} (h : ¬ (b = Code.star ∧ bs.head? = some Code.slash)) :
    blockLength (b :: bs) = blockLength bs + 1 := by
  have hopen : [Code.star, Code.slash].isPrefixOf (b :: bs) = false := by
    cases bs with
    | nil => simp [List.isPrefixOf]
    | cons c bs =>
      simp only [List.head?_cons, Option.some.injEq] at h
      by_contra hp
      simp only [List.isPrefixOf, Bool.and_true, Bool.not_eq_false, Bool.and_eq_true, beq_iff_eq] at hp
      exact h ⟨hp.1.symm, hp.2.symm⟩
  rw [blockLength, indexOf?, hopen]
  cases hi : indexOf? [Code.star, Code.slash] bs with
  | none => simp [blockLength, hi]
  | some i => simp only [blockLength, hi, Option.map_some, Bool.false_eq_true, if_false]

theorem run_blockComment (bs : Bytes) :
    blockComment.run d offset bs = code.run d (offset + blockLength bs) (bs.drop (blockLength bs)) := by
  induction bs generalizing offset with
  | nil => rfl
  | cons b bs ih =>
    by_cases hclosed : b = Code.star ∧ bs.head? = some Code.slash
    · obtain ⟨rfl, hslash⟩ := hclosed
      obtain ⟨bs, rfl⟩ : ∃ rest, bs = Code.slash :: rest := List.head?_eq_some_iff.mp hslash
      rw [blockLength_closed]
      simp [run, next, output]
    · have hstay : blockComment.run d offset (b :: bs) = blockComment.run d (offset + 1) bs := by
        by_cases hb : b = Code.star
        · have hs : bs.head? ≠ some Code.slash := fun hs => hclosed ⟨hb, hs⟩
          simpa [run, next, output, hb] using run_star d (offset + 1) hs
        · simp [run, next, output, hb]
      rw [hstay, ih, blockLength_cons hclosed, List.drop_succ_cons]
      congr 1
      omega

theorem run_string (quote : UInt8) (start : ℕ) (bs : Bytes) :
    (string quote start).run d offset bs =
      match closingLength? quote bs with
      | some n => ⟨quote, ⟨start, offset + n - 1⟩⟩ :: code.run d (offset + n) (bs.drop n)
      | none => [] := by
  fun_induction closingLength? quote bs generalizing offset with
  | case1 => rfl
  | case2 => simp [run, output]
  | case3 escaped rest ih =>
    simp only [run, next, output, ↓reduceIte, ne_eq, not_true_eq_false, false_and, Option.toList_none,
      List.nil_append, ih]
    cases closingLength? quote rest with
    | none => rfl
    | some n => simp [Nat.add_assoc, Nat.add_comm 2]
  | case4 bs hq => simp [run, next, output, hq]
  | case5 b bs hb hq ih =>
    simp only [run, next, output, if_neg hb, hq, and_false, ↓reduceIte, Option.toList_none,
      List.nil_append, ih]
    cases closingLength? quote bs with
    | none => rfl
    | some n => simp [Nat.add_assoc, Nat.add_comm 1]

theorem run_slash {bs : Bytes} (hslash : bs.head? ≠ some Code.slash) (hstar : bs.head? ≠ some Code.star) :
    slash.run d offset bs = code.run d offset bs := by
  cases bs with
  | nil => rfl
  | cons b bs =>
    have hb : b ≠ Code.slash := by simpa using hslash
    have hb' : b ≠ Code.star := by simpa using hstar
    simp [run, next, output, hb, hb']

end Mode

namespace Mode

theorem run_comment {d : Dialect} {bs : Bytes} {n : ℕ} (offset : ℕ) (h : commentLength? d bs = some n) :
    code.run d offset bs = code.run d (offset + n) (bs.drop n) := by
  rcases commentLength?_some h with ⟨rest, rfl, rfl⟩ | ⟨rest, rfl, rfl⟩ | ⟨rest, rfl, rfl, rfl⟩
  · have hopen : code.run d offset (Code.slash :: Code.star :: rest) = blockComment.run d (offset + 2) rest := by
      simp [run, next, output, enter, Code.slash, Code.star]
    rw [hopen, run_blockComment, List.drop_succ_cons, List.drop_succ_cons, Nat.add_assoc, Nat.add_comm 2]
  · have hopen : code.run d offset (Code.slash :: Code.slash :: rest) = lineComment.run d (offset + 2) rest := by
      simp [run, next, output, enter]
    rw [hopen, run_lineComment, List.drop_succ_cons, List.drop_succ_cons, Nat.add_assoc, Nat.add_comm 2]
  · have hopen : code.run .php offset (hash :: rest) = lineComment.run .php (offset + 1) rest := by
      simp [run, next, output, enter, Code.slash, hash]
    rw [hopen, run_lineComment, List.drop_succ_cons, Nat.add_assoc, Nat.add_comm 1]

theorem run_quote {d : Dialect} {b : UInt8} {bs : Bytes} (offset : ℕ) (hb : isQuote b) :
    code.run d offset (b :: bs) = (string b (offset + 1)).run d (offset + 1) bs := by
  have hslash : b ≠ Code.slash := by rintro rfl; simp [isQuote, Code.slash, doubleQuote, singleQuote] at hb
  have hhash : b ≠ hash := by rintro rfl; simp [isQuote, hash, doubleQuote, singleQuote] at hb
  simp [run, next, output, enter, hslash, hhash, hb]

theorem run_other {d : Dialect} {b : UInt8} {bs : Bytes} (offset : ℕ) (h : commentLength? d (b :: bs) = none)
    (hb : ¬ isQuote b) : code.run d offset (b :: bs) = code.run d (offset + 1) bs := by
  obtain ⟨hblock, hline, hhash⟩ := commentLength?_none h
  by_cases hs : b = Code.slash
  · subst hs
    have hopen : code.run d offset (Code.slash :: bs) = slash.run d (offset + 1) bs := by
      simp [run, next, output, enter]
    rw [hopen]
    apply run_slash
    · intro hhead
      obtain ⟨rest, rfl⟩ := List.head?_eq_some_iff.mp hhead
      exact hline ⟨rest, rfl⟩
    · intro hhead
      obtain ⟨rest, rfl⟩ := List.head?_eq_some_iff.mp hhead
      exact hblock ⟨rest, rfl⟩
  · have hcomment : ¬ (d = .php ∧ b = hash) := by simpa using hhash
    simp [run, next, output, enter, hs, hcomment, hb]

end Mode

theorem ofLexemes_eq_run (d : Dialect) (offset : ℕ) (bs : Bytes) :
    Literal.ofLexemes offset (lexemes d isQuote bs) = Mode.code.run d offset bs := by
  fun_induction lexemes d isQuote bs generalizing offset with
  | case1 => rfl
  | case2 b rest n hn ih =>
    obtain ⟨k, rfl⟩ : ∃ k, n = k + 1 := ⟨n - 1, by have := commentLength?_pos hn; omega⟩
    have hlen : (Lexeme.comment ((b :: rest).take (k + 1))).length = k + 1 :=
      List.length_take_of_le (commentLength?_le hn)
    rw [Mode.run_comment offset hn, List.drop_succ_cons]
    simp only [Literal.ofLexemes, hlen, Nat.add_sub_cancel]
    exact ih _
  | case3 b rest hn hq n hc ih =>
    have hlen : (rest.take n).length = n := by
      obtain ⟨body, tail, rfl, rfl⟩ := closingLength?_some hc
      simp
    rw [Mode.run_quote offset hq, Mode.run_string, hc]
    simp only [Literal.ofLexemes, Lexeme.length, Lexeme.bytes, List.length_cons, hlen, ih]
    congr 2
    · simp
    · omega
  | case4 b rest hn hq hc => rw [Mode.run_quote offset hq, Mode.run_string, hc]; rfl
  | case5 b rest hn hq ih =>
    rw [Mode.run_other offset hn hq, ← ih]
    rfl

theorem literals_eq_run (d : Dialect) (bs : Bytes) (s : Span) :
    literals d bs s = Mode.code.run d s.start ((bs.take s.stop).drop s.start) :=
  ofLexemes_eq_run d s.start (scope bs s)

-- The slash behind the opener does not close the comment, the escaped quote not the literal, and the
-- last literal is left open.
example : Mode.code.run .php 0 (utf8 "/*/'a'*/'b\\'c'//'\n\"d".toList) = [⟨singleQuote, ⟨9, 13⟩⟩] := by decide

end VisibleText.Code
