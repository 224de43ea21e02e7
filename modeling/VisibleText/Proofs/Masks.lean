import VisibleText.Proofs.Encoding
import VisibleText.Proofs.Heads
import VisibleText.Proofs.LexemeAutomaton

/-!
What the mask hides. The automaton that reads code byte by byte says for each byte to what it belongs. The mask keeps
the bytes of code and hides all others: those of comments, those of literals, and all from an unclosed quote on.
-/
namespace VisibleText.Code

inductive Part where
  | code
  | comment
  | quoted (start : ℕ)
deriving DecidableEq, Repr

namespace Mode

def part? : Mode → Option Part
  | code | slash => none
  | lineComment | blockComment | star => some .comment
  | string _ start | escape _ start => some (.quoted (start - 1))

def partBetween (m m' : Mode) (behind : Option UInt8) : Part :=
  (m.part?.or m'.part?).getD
    (if m' = slash ∧ (behind = some Code.slash ∨ behind = some Code.star) then .comment else .code)

def parts (d : Dialect) : Mode → ℕ → Bytes → List Part
  | _, _, [] => []
  | m, offset, b :: bs =>
    m.partBetween (m.next d offset b) bs.head? :: (m.next d offset b).parts d (offset + 1) bs

variable (d : Dialect) (offset : ℕ)

theorem parts_lineComment (bs : Bytes) : lineComment.parts d offset bs =
    List.replicate (lineLength bs) .comment ++ code.parts d (offset + lineLength bs) (bs.drop (lineLength bs)) := by
  induction bs generalizing offset with
  | nil => rfl
  | cons b bs ih =>
    by_cases hb : b = lineFeed
    · simp [parts, next, partBetween, part?, lineLength, hb]
    · simp only [parts, next, partBetween, part?, lineLength, if_neg hb, ih, List.replicate_succ, List.cons_append,
        List.drop_succ_cons, Option.some_or, Option.getD_some]
      congr 3
      omega

theorem parts_star {bs : Bytes} (h : bs.head? ≠ some Code.slash) :
    star.parts d offset bs = blockComment.parts d offset bs := by
  cases bs with
  | nil => rfl
  | cons b bs =>
    have hb : b ≠ Code.slash := by simpa using h
    simp [parts, next, partBetween, part?, hb]

theorem parts_blockComment (bs : Bytes) : blockComment.parts d offset bs =
    List.replicate (blockLength bs) .comment ++ code.parts d (offset + blockLength bs) (bs.drop (blockLength bs)) := by
  induction bs generalizing offset with
  | nil => rfl
  | cons b bs ih =>
    by_cases hclosed : b = Code.star ∧ bs.head? = some Code.slash
    · obtain ⟨rfl, hslash⟩ := hclosed
      obtain ⟨bs, rfl⟩ : ∃ rest, bs = Code.slash :: rest := List.head?_eq_some_iff.mp hslash
      rw [blockLength_closed]
      simp [parts, next, partBetween, part?, List.replicate_succ]
    · have hstay : blockComment.parts d offset (b :: bs) = .comment :: blockComment.parts d (offset + 1) bs := by
        by_cases hb : b = Code.star
        · have hs : bs.head? ≠ some Code.slash := fun hs => hclosed ⟨hb, hs⟩
          simpa [parts, next, partBetween, part?, hb] using parts_star d (offset + 1) hs
        · simp [parts, next, partBetween, part?, hb]
      rw [hstay, ih, blockLength_cons hclosed, List.drop_succ_cons, List.replicate_succ, List.cons_append]
      congr 3
      omega

theorem parts_string (quote : UInt8) (start : ℕ) (bs : Bytes) : (string quote start).parts d offset bs =
    match closingLength? quote bs with
    | some n => List.replicate n (.quoted (start - 1)) ++ code.parts d (offset + n) (bs.drop n)
    | none => List.replicate bs.length (.quoted (start - 1)) := by
  fun_induction closingLength? quote bs generalizing offset with
  | case1 => rfl
  | case2 => simp [parts, partBetween, part?]
  | case3 escaped rest ih =>
    simp only [parts, next, partBetween, part?, ↓reduceIte, ih]
    cases closingLength? quote rest with
    | none => simp [List.replicate_succ]
    | some n => simp [List.replicate_succ, Nat.add_assoc, Nat.add_comm 2]
  | case4 bs hq => simp [parts, next, partBetween, part?, hq]
  | case5 b bs hb hq ih =>
    simp only [parts, next, partBetween, part?, if_neg hb, hq, ↓reduceIte, ih]
    cases closingLength? quote bs with
    | none => simp [List.replicate_succ]
    | some n => simp [List.replicate_succ, Nat.add_assoc, Nat.add_comm 1]

theorem parts_slash {bs : Bytes} (hslash : bs.head? ≠ some Code.slash) (hstar : bs.head? ≠ some Code.star) :
    slash.parts d offset bs = code.parts d offset bs := by
  cases bs with
  | nil => rfl
  | cons b bs =>
    have hb : b ≠ Code.slash := by simpa using hslash
    have hb' : b ≠ Code.star := by simpa using hstar
    simp only [parts, next, if_neg hb, if_neg hb']
    rfl

end Mode

namespace Mode

variable {d : Dialect} {bs : Bytes} (offset : ℕ)

theorem parts_comment {n : ℕ} (h : commentLength? d bs = some n) :
    code.parts d offset bs = List.replicate n .comment ++ code.parts d (offset + n) (bs.drop n) := by
  rcases commentLength?_some h with ⟨rest, rfl, rfl⟩ | ⟨rest, rfl, rfl⟩ | ⟨rest, rfl, rfl, rfl⟩
  · have hopen : code.parts d offset (Code.slash :: Code.star :: rest) =
        .comment :: .comment :: blockComment.parts d (offset + 2) rest := by
      simp [parts, next, enter, partBetween, part?, Code.slash, Code.star]
    rw [hopen, parts_blockComment, List.drop_succ_cons, List.drop_succ_cons, Nat.add_assoc, Nat.add_comm 2]
    rfl
  · have hopen : code.parts d offset (Code.slash :: Code.slash :: rest) =
        .comment :: .comment :: lineComment.parts d (offset + 2) rest := by
      simp [parts, next, enter, partBetween, part?]
    rw [hopen, parts_lineComment, List.drop_succ_cons, List.drop_succ_cons, Nat.add_assoc, Nat.add_comm 2]
    rfl
  · have hopen : code.parts .php offset (hash :: rest) = .comment :: lineComment.parts .php (offset + 1) rest := by
      simp [parts, next, enter, partBetween, part?, Code.slash, hash]
    rw [hopen, parts_lineComment, List.drop_succ_cons, Nat.add_assoc, Nat.add_comm 1]
    rfl

theorem parts_quote {b : UInt8} (hb : isQuote b) :
    code.parts d offset (b :: bs) = .quoted offset :: (string b (offset + 1)).parts d (offset + 1) bs := by
  have hslash : b ≠ Code.slash := by rintro rfl; simp [isQuote, Code.slash, doubleQuote, singleQuote] at hb
  have hhash : b ≠ hash := by rintro rfl; simp [isQuote, hash, doubleQuote, singleQuote] at hb
  simp [parts, next, enter, partBetween, part?, hslash, hhash, hb]

theorem parts_other {b : UInt8} (h : commentLength? d (b :: bs) = none) (hb : ¬ isQuote b) :
    code.parts d offset (b :: bs) = .code :: code.parts d (offset + 1) bs := by
  by_cases hs : b = Code.slash
  · subst hs
    obtain ⟨hslash, hstar⟩ := commentLength?_slash_none h
    have hopen : code.parts d offset (Code.slash :: bs) = .code :: slash.parts d (offset + 1) bs := by
      simp [parts, next, enter, partBetween, part?, hslash, hstar]
    rw [hopen, parts_slash d (offset + 1) hslash hstar]
  · have hcomment : ¬ (d = .php ∧ b = hash) := by simpa using (commentLength?_none h).2.2
    simp [parts, next, enter, partBetween, part?, hs, hcomment, hb]

end Mode

def Lexeme.part (offset : ℕ) : Lexeme → Part
  | code _ => .code
  | comment _ => .comment
  | literal _ | unclosed _ => .quoted offset

def lexemeParts (offset : ℕ) : List Lexeme → List Part
  | [] => []
  | l :: ls => List.replicate l.length (l.part offset) ++ lexemeParts (offset + l.length) ls

theorem lexemeParts_eq (d : Dialect) (offset : ℕ) (bs : Bytes) :
    lexemeParts offset (lexemes d isQuote bs) = Mode.code.parts d offset bs := by
  fun_induction lexemes d isQuote bs generalizing offset with
  | case1 => rfl
  | case2 b rest n hn ih =>
    obtain ⟨k, rfl⟩ : ∃ k, n = k + 1 := ⟨n - 1, by have := commentLength?_pos hn; omega⟩
    have hlen : (Lexeme.comment ((b :: rest).take (k + 1))).length = k + 1 :=
      List.length_take_of_le (commentLength?_le hn)
    rw [Mode.parts_comment offset hn, List.drop_succ_cons, lexemeParts, hlen, ih]
    rfl
  | case3 b rest hn hq n hc ih =>
    have hlen : (Lexeme.literal (b :: rest.take n)).length = n + 1 := by
      obtain ⟨body, tail, rfl, rfl⟩ := closingLength?_some hc
      simp [Lexeme.length, Lexeme.bytes]
    rw [Mode.parts_quote offset hq, Mode.parts_string, hc, lexemeParts, hlen, ih, List.replicate_succ, List.cons_append,
      Nat.add_comm n, ← Nat.add_assoc]
    rfl
  | case4 b rest hn hq hc =>
    rw [Mode.parts_quote offset hq, Mode.parts_string, hc, lexemeParts]
    exact List.append_nil _
  | case5 b rest hn hq ih =>
    rw [Mode.parts_other offset hn hq, ← ih]
    rfl

theorem exists_lexeme_at (ls : List Lexeme) {i : ℕ} (hi : i < (ls.flatMap Lexeme.bytes).length) :
    ∃ front l back, ls = front ++ l :: back ∧ (front.flatMap Lexeme.bytes).length ≤ i ∧
      i < (front.flatMap Lexeme.bytes).length + l.length := by
  induction ls generalizing i with
  | nil => simp at hi
  | cons l ls ih =>
    by_cases hl : i < l.length
    · exact ⟨[], l, ls, rfl, Nat.zero_le i, by simpa using hl⟩
    · rw [List.flatMap_cons, List.length_append, ← Lexeme.length] at hi
      obtain ⟨front, x, back, rfl, hle, hlt⟩ := ih (i := i - l.length) (by omega)
      refine ⟨l :: front, x, back, rfl, ?_⟩
      rw [List.flatMap_cons, List.length_append, ← Lexeme.length]
      omega

theorem lexemeParts_at (offset : ℕ) (front : List Lexeme) (l : Lexeme) (back : List Lexeme) {i : ℕ}
    (hle : (front.flatMap Lexeme.bytes).length ≤ i) (hlt : i < (front.flatMap Lexeme.bytes).length + l.length) :
    (lexemeParts offset (front ++ l :: back))[i]? = some (l.part (offset + (front.flatMap Lexeme.bytes).length)) := by
  induction front generalizing offset i with
  | nil =>
    have hi : i < l.length := by simpa using hlt
    rw [List.nil_append, lexemeParts, List.getElem?_append_left (by simpa using hi), List.getElem?_replicate, if_pos hi]
    rfl
  | cons x front ih =>
    rw [List.flatMap_cons, List.length_append, ← Lexeme.length] at hle hlt ⊢
    rw [List.cons_append, lexemeParts, List.getElem?_append_right (by simp only [List.length_replicate]; omega),
      List.length_replicate, ih (offset + x.length) (i := i - x.length) (by omega) (by omega), Nat.add_assoc]

theorem flatMap_at {f : Lexeme → Bytes} (hf : ∀ l, (f l).length = l.length) (front : List Lexeme) (l : Lexeme)
    (back : List Lexeme) {i : ℕ} (hle : (front.flatMap Lexeme.bytes).length ≤ i)
    (hlt : i < (front.flatMap Lexeme.bytes).length + l.length) :
    ((front ++ l :: back).flatMap f)[i]? = (f l)[i - (front.flatMap Lexeme.bytes).length]? := by
  have hfront : (front.flatMap f).length = (front.flatMap Lexeme.bytes).length := by
    simp only [List.length_flatMap, hf, Lexeme.length]
  rw [List.flatMap_append, List.flatMap_cons, List.getElem?_append_right (by omega), hfront,
    List.getElem?_append_left (by rw [hf]; omega)]

theorem Literal.ofLexemes_split (offset : ℕ) (front : List Lexeme) (q : UInt8) (body : Bytes) (back : List Lexeme) :
    ⟨q, ⟨offset + (front.flatMap Lexeme.bytes).length + 1, offset + (front.flatMap Lexeme.bytes).length + body.length⟩⟩ ∈
      Literal.ofLexemes offset (front ++ .literal (q :: body) :: back) := by
  induction front generalizing offset with
  | nil => exact List.mem_cons_self
  | cons x front ih =>
    have hrest := ih (offset + x.length)
    rw [List.flatMap_cons, List.length_append, ← Nat.add_assoc]
    cases x with
    | literal bs =>
      cases bs with
      | nil => exact hrest
      | cons q' body' => exact List.mem_cons_of_mem _ hrest
    | code b => exact hrest
    | comment bs => exact hrest
    | unclosed bs => exact hrest

section

variable {d : Dialect} {quotes : UInt8 → Bool} {bs : Bytes} {front back : List Lexeme}

theorem lexemes_drop (h : lexemes d quotes bs = front ++ back) :
    lexemes d quotes (bs.drop (front.flatMap Lexeme.bytes).length) = back := by
  have hspell := lexemes_spell d quotes bs
  rw [h, List.flatMap_append] at hspell
  rw [← hspell, List.drop_left, lexemes_back h]

theorem unclosed_last {c : Bytes} (h : lexemes d quotes bs = front ++ .unclosed c :: back) : back = [] := by
  have hrest := lexemes_drop h
  obtain ⟨hc, hback⟩ := lexemes_cons_inv hrest
  obtain ⟨q, c, rfl⟩ := List.exists_cons_of_ne_nil hc
  have hempty := (leads_unclosed (leads_of_lexemes hrest)).2
  rw [hempty] at hback
  rw [← hback]
  simp [lexemes]

end

/-- The byte at place `k` of a span of code lies in a comment, in a literal of the span, or at or behind a quote that opens
no literal of the span. -/
inductive Hidden (d : Dialect) (bs : Bytes) (s : Span) (k : ℕ) : Prop
  | comment (h : (Mode.code.parts d s.start (scope bs s))[k]? = some .comment)
  | literal (l : Literal) (hl : l ∈ literals d bs s) (hstart : l.start ≤ s.start + k) (hstop : s.start + k < l.stop)
  | unclosed (j : ℕ) (hj : j ≤ k) (hquote : (Mode.code.parts d s.start (scope bs s))[j]? = some (.quoted (s.start + j)))
      (hnone : ∀ l ∈ literals d bs s, l.start ≠ s.start + j)

section

variable {d : Dialect} {bs : Bytes} {s : Span} {k : ℕ} {front back : List Lexeme} {l : Lexeme}

theorem part_at (hls : lexemes d isQuote (scope bs s) = front ++ l :: back) (hle : (front.flatMap Lexeme.bytes).length ≤ k)
    (hlt : k < (front.flatMap Lexeme.bytes).length + l.length) :
    (Mode.code.parts d s.start (scope bs s))[k]? = some (l.part (s.start + (front.flatMap Lexeme.bytes).length)) := by
  rw [← lexemeParts_eq, hls, lexemeParts_at s.start front l back hle hlt]

theorem hidden_of_not_code (hls : lexemes d isQuote (scope bs s) = front ++ l :: back)
    (hle : (front.flatMap Lexeme.bytes).length ≤ k) (hlt : k < (front.flatMap Lexeme.bytes).length + l.length)
    (hl : l.isCode = false) : Hidden d bs s k := by
  have hpart := part_at hls hle hlt
  cases l with
  | code b => cases hl
  | comment c => exact .comment hpart
  | literal c =>
    cases c with
    | nil => exact absurd hlt (Nat.not_lt.mpr hle)
    | cons q body =>
      have hmem := Literal.ofLexemes_split s.start front q body back
      rw [← hls] at hmem
      simp only [Lexeme.length, Lexeme.bytes, List.length_cons] at hlt
      refine .literal _ hmem ?_ ?_ <;> simp only [Literal.start, Literal.stop] <;> omega
  | unclosed c =>
    refine .unclosed _ hle (part_at hls (Nat.le_refl _) (by omega)) ?_
    intro lit hlit heq
    obtain ⟨front', q, body, back', hls', rfl⟩ := Literal.mem_ofLexemes hlit
    have hlength : (front'.flatMap Lexeme.bytes).length = (front.flatMap Lexeme.bytes).length := by
      simp only [Literal.start] at heq
      omega
    have hsame := (lexemes_drop hls').symm.trans ((congrArg (fun n => lexemes d isQuote (List.drop n (scope bs s)))
      hlength).trans (lexemes_drop hls))
    cases (List.cons.inj hsame).1

theorem not_hidden_of_code (hls : lexemes d isQuote (scope bs s) = front ++ l :: back)
    (hle : (front.flatMap Lexeme.bytes).length ≤ k) (hlt : k < (front.flatMap Lexeme.bytes).length + l.length)
    (hl : l.isCode = true) : ¬ Hidden d bs s k := by
  have hpart : (Mode.code.parts d s.start (scope bs s))[k]? = some .code := by
    rw [part_at hls hle hlt]
    cases l with
    | code b => rfl
    | comment c => cases hl
    | literal c => cases hl
    | unclosed c => cases hl
  intro h
  cases h with
  | comment h => cases hpart.symm.trans h
  | literal lit hlit hstart hstop =>
    obtain ⟨front', q, body, back', hls', rfl⟩ := Literal.mem_ofLexemes hlit
    simp only [Literal.start, Literal.stop] at hstart hstop
    have hquoted := part_at (k := k) hls' (by omega) (by simp only [Lexeme.length, Lexeme.bytes, List.length_cons]; omega)
    cases hpart.symm.trans hquoted
  | unclosed j hj hquote hnone =>
    have hbound : k < (scope bs s).length := by
      rw [← lexemes_spell d isQuote (scope bs s), hls]
      rw [List.flatMap_append, List.flatMap_cons, List.length_append, List.length_append, ← Lexeme.length]
      omega
    obtain ⟨front', l', back', hls', hle', hlt'⟩ := exists_lexeme_at (i := j) (lexemes d isQuote (scope bs s))
      (by rw [lexemes_spell]; omega)
    have hpart' := Option.some.inj ((part_at hls' hle' hlt').symm.trans hquote)
    cases l' with
    | code b => cases hpart'
    | comment c => cases hpart'
    | literal c =>
      have hplace := Part.quoted.inj hpart'
      cases c with
      | nil => exact absurd hlt' (Nat.not_lt.mpr hle')
      | cons q body =>
        have hmem := Literal.ofLexemes_split s.start front' q body back'
        rw [← hls'] at hmem
        refine hnone _ hmem ?_
        simp only [Literal.start]
        omega
    | unclosed c =>
      obtain rfl := unclosed_last hls'
      have hlength : (scope bs s).length = (front'.flatMap Lexeme.bytes).length + (Lexeme.unclosed c).length := by
        rw [← lexemes_spell d isQuote (scope bs s), hls']
        simp [Lexeme.length]
      have hquoted := part_at (k := k) hls' (by omega) (by omega)
      cases hpart.symm.trans hquoted

end

section

variable (d : Dialect) (bs : Bytes) (s : Span)

theorem length_mask : (mask d bs s).length = (scope bs s).length := by
  conv_rhs => rw [← lexemes_spell d isQuote (scope bs s)]
  simp only [mask, List.length_flatMap, length_masked]

theorem mask_at {k : ℕ} {b : UInt8} (hb : (scope bs s)[k]? = some b) :
    (Hidden d bs s k → (mask d bs s)[k]? = some (blank b)) ∧ (¬ Hidden d bs s k → (mask d bs s)[k]? = some b) := by
  obtain ⟨front, l, back, hls, hle, hlt⟩ := exists_lexeme_at (i := k) (lexemes d isQuote (scope bs s)) (by
    rw [lexemes_spell]
    exact (List.getElem?_eq_some_iff.mp hb).1)
  rw [← lexemes_spell d isQuote (scope bs s), hls, flatMap_at (fun _ => rfl) front l back hle hlt] at hb
  rw [mask, hls, flatMap_at length_masked front l back hle hlt]
  cases hcode : l.isCode with
  | true =>
    refine ⟨fun h => absurd h (not_hidden_of_code hls hle hlt hcode), fun _ => ?_⟩
    cases l with
    | code c => exact hb
    | comment c => cases hcode
    | literal c => cases hcode
    | unclosed c => cases hcode
  | false =>
    refine ⟨fun _ => ?_, fun h => absurd (hidden_of_not_code hls hle hlt hcode) h⟩
    have hblank : l.masked = l.bytes.map blank := by
      cases l with
      | code c => cases hcode
      | comment c => rfl
      | literal c => rfl
      | unclosed c => rfl
    rw [hblank, List.getElem?_map, hb, Option.map_some]

theorem mask_plain : (∀ b ∈ mask d bs s, ¬ isQuote b) ∧ ¬ [slash, star] <:+: mask d bs s ∧
    ¬ [slash, slash] <:+: mask d bs s ∧ (d = .php → hash ∉ mask d bs s) := by
  obtain ⟨hcomments, hquotes⟩ := plain_of_lexemes (lexemes_mask (d := d) bs s)
  refine ⟨hquotes, ?_, ?_, ?_⟩
  · rintro ⟨x, y, hm⟩
    have hnone := hcomments ([slash, star] ++ y) ⟨x, by rw [← hm, List.append_assoc]⟩
    exact (commentLength?_none hnone).1 (List.prefix_append _ y)
  · rintro ⟨x, y, hm⟩
    have hnone := hcomments ([slash, slash] ++ y) ⟨x, by rw [← hm, List.append_assoc]⟩
    exact (commentLength?_none hnone).2.1 (List.prefix_append _ y)
  · intro hd hmem
    obtain ⟨x, y, hm⟩ := List.append_of_mem hmem
    have hnone := hcomments (hash :: y) ⟨x, hm.symm⟩
    exact (commentLength?_none hnone).2.2 ⟨hd, rfl⟩

theorem mask_mask : mask d (mask d bs s) ⟨0, (mask d bs s).length⟩ = mask d bs s := by
  rw [mask, scope, List.take_length, List.drop_zero, lexemes_mask, List.flatMap_map]
  exact List.flatMap_singleton' _

end

theorem mask_exact (d : Dialect) {content : List Char} {s : Span} (hle : s.start ≤ s.stop)
    (hstart : IsBoundary content s.start) (hstop : IsBoundary content s.stop) :
    (∃ text, utf8 text = mask d (utf8 content) s ∧ decode (mask d (utf8 content) s) = String.ofList text) ∧
      (mask d (utf8 content) s).length = s.stop - s.start ∧
      (∀ k b, k < s.stop - s.start → (utf8 content)[s.start + k]? = some b →
        (Hidden d (utf8 content) s k → (mask d (utf8 content) s)[k]? = some (if b = lineFeed then lineFeed else space)) ∧
        (¬ Hidden d (utf8 content) s k → (mask d (utf8 content) s)[k]? = some b)) ∧
      mask d (mask d (utf8 content) s) ⟨0, s.stop - s.start⟩ = mask d (utf8 content) s ∧
      (∀ b ∈ mask d (utf8 content) s, ¬ isQuote b) ∧ ¬ [slash, star] <:+: mask d (utf8 content) s ∧
      ¬ [slash, slash] <:+: mask d (utf8 content) s ∧ (d = .php → hash ∉ mask d (utf8 content) s) := by
  obtain ⟨piece, ⟨before, after, hcontent, hbefore⟩, hlength⟩ := standsAt_of_boundaries hle hstart hstop
  have hscope : scope (utf8 content) s = utf8 piece := by
    have hpiece := scope_piece before piece after
    rwa [hbefore, ← hlength, ← hcontent] at hpiece
  have hlen : (mask d (utf8 content) s).length = s.stop - s.start := by
    rw [length_mask, hscope, length_utf8]
    omega
  refine ⟨?_, hlen, ?_, ?_, mask_plain d (utf8 content) s⟩
  · obtain ⟨text, htext⟩ := exists_blanked_text (d := d) (fun l => !l.isCode) (fun _ => rfl) piece
    rw [← hscope, ← mask_eq] at htext
    exact ⟨text, htext, by rw [← htext, decode_utf8]⟩
  · intro k b hk hb
    apply mask_at
    rwa [scope, List.getElem?_drop, List.getElem?_take, if_pos (by omega)]
  · rw [← hlen, mask_mask]

def accented : List Char := "é = 'ü' /* → */; # ß\n\"…\n".toList

theorem mask_exact_accented : IsBoundary accented 2 ∧ IsBoundary accented 31 ∧
    (∃ text, utf8 text = mask .php (utf8 accented) ⟨2, 31⟩ ∧
      decode (mask .php (utf8 accented) ⟨2, 31⟩) = String.ofList text) ∧
    mask .php (mask .php (utf8 accented) ⟨2, 31⟩) ⟨0, 29⟩ = mask .php (utf8 accented) ⟨2, 31⟩ := by
  have hstart : IsBoundary accented 2 := ⟨1, by decide⟩
  have hstop : IsBoundary accented 31 := ⟨24, by decide⟩
  obtain ⟨htext, -, -, hagain, -⟩ := mask_exact .php (s := ⟨2, 31⟩) (by decide) hstart hstop
  exact ⟨hstart, hstop, htext, hagain⟩

example : mask .php (utf8 accented) ⟨2, 31⟩ = utf8 " =               ;     \n    \n".toList := by decide +kernel

end VisibleText.Code
