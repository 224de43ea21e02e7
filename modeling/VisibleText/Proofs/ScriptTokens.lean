import VisibleText.JavaScript.Token
import VisibleText.Proofs.Offsets

namespace VisibleText.JavaScript

def Cursor.IsAt (c : Cursor) (code : List Char) : Prop := ∃ before, code = before ++ c.rest ∧ byteLength before = c.offset

theorem Cursor.IsAt.move {offset : ℕ} {text rest code : List Char} (h : Cursor.IsAt ⟨offset, text ++ rest⟩ code) :
    Cursor.IsAt ⟨offset + byteLength text, rest⟩ code := by
  obtain ⟨before, rfl, rfl⟩ := h
  exact ⟨before ++ text, (List.append_assoc ..).symm, byteLength_append ..⟩

theorem Cursor.IsAt.skip {c : Cursor} {code : List Char} (h : c.IsAt code) (n : ℕ) : (c.skip n).IsAt code := by
  obtain ⟨offset, rest⟩ := c
  apply Cursor.IsAt.move
  rwa [List.take_append_drop]

theorem Cursor.IsAt.skipWhile {c : Cursor} {code : List Char} (h : c.IsAt code) (p : Char → Bool) :
    (c.skipWhile p).IsAt code := by
  obtain ⟨offset, rest⟩ := c
  apply Cursor.IsAt.move
  rwa [List.takeWhile_append_dropWhile]

inductive Inside (quote : Char) : List Char → Prop
  | nil : Inside quote []
  | plain {c : Char} {rest : List Char} (hc : c ∉ [quote, '\n', '\r', '\\']) (h : Inside quote rest) : Inside quote (c :: rest)
  | escaped {c : Char} {rest : List Char} (h : Inside quote rest) : Inside quote ('\\' :: c :: rest)
  | continued {rest : List Char} (h : Inside quote rest) : Inside quote ('\\' :: '\r' :: '\n' :: rest)

structure Literal where
  quote : Char
  inner : List Char
  closed : Bool

def Literal.text (l : Literal) : List Char := l.quote :: l.inner ++ if l.closed then [l.quote] else []

/-- The literal is all that is read before the characters. Only the end of a line or of the program ends one that is not
closed. -/
structure Literal.Precedes (l : Literal) (rest : List Char) : Prop where
  quote : l.quote = '"' ∨ l.quote = '\''
  inside : Inside l.quote l.inner
  ends : l.closed = false → ∀ c ∈ rest.head?, c = '\n' ∨ c = '\r'

section

variable {quote : Char} {cs rest : List Char}

theorem isSome_of_hexValue? {v : ℕ} (h : hexValue? cs = some v) : ∀ c ∈ cs, (hexDigit? c).isSome = true := by
  have hfold : ∀ (cs : List Char) (start : Option ℕ), (cs.foldl (fun v c => do return (← v) * 16 + (← hexDigit? c)) start) ≠ none →
      start ≠ none ∧ ∀ c ∈ cs, (hexDigit? c).isSome = true := by
    intro cs
    induction cs with
    | nil => exact fun start h => ⟨h, List.forall_mem_nil _⟩
    | cons c cs ih =>
      intro start h
      obtain ⟨hstep, hcs⟩ := ih _ h
      cases start with
      | none => exact absurd rfl hstep
      | some n =>
        cases hc : hexDigit? c with
        | none => simp [hc] at hstep
        | some d => exact ⟨Option.some_ne_none n, List.forall_mem_cons.mpr ⟨by simp [hc], hcs⟩⟩
  rw [hexValue?] at h
  exact (hfold cs _ (by rw [h]; exact Option.some_ne_none v)).2

theorem isSome_of_isDigitOf {base : ℕ} {c : Char} (h : isDigitOf base c = true) : (hexDigit? c).isSome = true := by
  unfold isDigitOf at h
  split at h
  case h_1 d hd => rw [hd]; rfl
  case h_2 => cases h

theorem plain_of_hexDigit? {c : Char} (hquote : quote = '"' ∨ quote = '\'') (h : (hexDigit? c).isSome = true) :
    c ∉ [quote, '\n', '\r', '\\'] := by
  simp only [List.mem_cons, List.not_mem_nil, or_false]
  rintro (rfl | rfl | rfl | rfl)
  · rcases hquote with rfl | rfl <;> exact absurd h (by decide)
  all_goals exact absurd h (by decide)

theorem Inside.append_plain {text : List Char} (htext : ∀ c ∈ text, c ∉ [quote, '\n', '\r', '\\']) (h : Inside quote rest) :
    Inside quote (text ++ rest) := by
  induction text with
  | nil => exact h
  | cons c text ih =>
    rw [List.forall_mem_cons] at htext
    exact .plain htext.1 (ih htext.2)

theorem plain_of_unicodeEscape? {v n : ℕ} (hquote : quote = '"' ∨ quote = '\'') (h : unicodeEscape? cs = some (v, n)) :
    ∀ c ∈ cs.take n, c ∉ [quote, '\n', '\r', '\\'] := by
  have hdigits {ds : List Char} {v : ℕ} (h : hexValue? ds = some v) : ∀ c ∈ ds, c ∉ [quote, '\n', '\r', '\\'] :=
    fun c hc => plain_of_hexDigit? hquote (isSome_of_hexValue? h c hc)
  unfold unicodeEscape? at h
  split at h
  case h_1 rest =>
    dsimp only at h
    split at h
    case h_2 => cases h
    case h_1 tail w hdrop hvalue =>
      split_ifs at h
      obtain ⟨behind, hbehind⟩ := List.takeWhile_prefix (· != '\x7d') (l := rest)
      generalize rest.takeWhile (· != '\x7d') = ds at *
      obtain rfl := hbehind
      rw [List.drop_left] at hdrop
      obtain ⟨rfl, rfl⟩ := Prod.mk.inj (Option.some.inj h)
      have htake : ('\x7b' :: (ds ++ behind)).take (ds.length + 2) = '\x7b' :: ds ++ ['\x7d'] := by
        simp [hdrop, List.take_append, List.take_of_length_le]
      have hbrace (c : Char) (hc : c = '\x7b' ∨ c = '\x7d') : c ∉ [quote, '\n', '\r', '\\'] := by
        rcases hquote with rfl | rfl <;> rcases hc with rfl | rfl <;> decide
      rw [htake, List.cons_append, List.forall_mem_cons, List.forall_mem_append, List.forall_mem_singleton]
      exact ⟨hbrace _ (.inl rfl), hdigits hvalue, hbrace _ (.inr rfl)⟩
  case h_2 =>
    dsimp only at h
    split_ifs at h with hlength
    obtain ⟨w, hw, hpair⟩ := Option.map_eq_some_iff.mp h
    obtain ⟨rfl, rfl⟩ := Prod.mk.inj hpair
    exact hdigits hw

theorem Inside.escape {n : ℕ} (hquote : quote = '"' ∨ quote = '\'') (h : escapeLength? cs = some n) (hrest : Inside quote rest) :
    Inside quote ('\\' :: (cs.take n ++ rest)) := by
  unfold escapeLength? at h
  split at h
  case h_1 => cases h
  case h_2 ds =>
    dsimp only at h
    split_ifs at h with hds
    obtain rfl := Option.some.inj h
    have hplain : ∀ c ∈ ds.take 2, c ∉ [quote, '\n', '\r', '\\'] := by
      intro c hc
      have hdigit := List.all_eq_true.mp (Bool.and_eq_true_iff.mp hds).2 c hc
      exact plain_of_hexDigit? hquote (isSome_of_isDigitOf hdigit)
    exact .escaped (hrest.append_plain hplain)
  case h_3 ds =>
    obtain ⟨⟨v, m⟩, hm, rfl⟩ := Option.map_eq_some_iff.mp h
    exact .escaped (hrest.append_plain (plain_of_unicodeEscape? hquote hm))
  case h_4 =>
    obtain rfl := Option.some.inj h
    exact .continued hrest
  case h_5 =>
    obtain rfl := Option.some.inj h
    exact .escaped hrest

theorem string?_inside {fuel : ℕ} (hquote : quote = '"' ∨ quote = '\'') (h : string? quote fuel cs = some rest) :
    ∃ inner, Inside quote inner ∧
      (cs = inner ++ quote :: rest ∨ cs = inner ++ rest ∧ ∀ c ∈ rest.head?, c = '\n' ∨ c = '\r') := by
  fun_induction string? quote fuel cs with
  | case1 => cases h
  | case2 =>
    obtain rfl := Option.some.inj h
    exact ⟨[], .nil, .inr ⟨rfl, by simp⟩⟩
  | case3 fuel tail =>
    obtain rfl := Option.some.inj h
    exact ⟨[], .nil, .inl rfl⟩
  | case4 fuel c tail hc hline =>
    obtain rfl := Option.some.inj h
    exact ⟨[], .nil, .inr ⟨rfl, by simpa using hline⟩⟩
  | case5 fuel tail hc hline ih =>
    obtain ⟨n, hn, hnext⟩ := Option.bind_eq_some_iff.mp h
    obtain ⟨inner, hinner, htail⟩ := ih n hnext
    refine ⟨'\\' :: (tail.take n ++ inner), hinner.escape hquote hn, ?_⟩
    have hcut (behind : List Char) (h : tail.drop n = behind) : '\\' :: tail = '\\' :: (tail.take n ++ behind) := by
      rw [← h, List.take_append_drop]
    simp only [List.cons_append, List.append_assoc]
    exact htail.imp (hcut _) (And.imp_left (hcut _))
  | case6 fuel c tail hc hline hslash ih =>
    obtain ⟨inner, hinner, htail⟩ := ih h
    have hplain : c ∉ [quote, '\n', '\r', '\\'] := by simp_all
    exact ⟨c :: inner, .plain hplain hinner, htail.imp (congrArg (c :: ·)) (And.imp_left (congrArg (c :: ·)))⟩

end

section

variable {cs rest : List Char}

theorem afterBlockComment_suffix (cs : List Char) (line : Bool) : (afterBlockComment cs line).1 <:+ cs := by
  fun_induction afterBlockComment cs line with
  | case1 => exact List.suffix_rfl
  | case2 rest => exact List.suffix_append ['*', '/'] rest
  | case3 c rest _ _ ih => exact ih.trans (List.suffix_cons c rest)

theorem skipBlanks_suffix (fuel : ℕ) (cs : List Char) (line : Bool) : (skipBlanks fuel cs line).1 <:+ cs := by
  fun_induction skipBlanks fuel cs line with
  | case1 => exact List.suffix_rfl
  | case2 fuel line rest ih => exact (ih.trans (List.dropWhile_suffix _)).trans (List.suffix_append ['/', '/'] rest)
  | case3 fuel line rest after line' hafter ih =>
    have hcomment := afterBlockComment_suffix rest line
    rw [hafter] at hcomment
    exact (ih.trans hcomment).trans (List.suffix_append ['/', '*'] rest)
  | case4 fuel line rest ih =>
    exact (ih.trans (List.dropWhile_suffix _)).trans (List.suffix_append ['<', '!', '-', '-'] rest)
  | case5 fuel rest ih => exact (ih.trans (List.dropWhile_suffix _)).trans (List.suffix_append ['-', '-', '>'] rest)
  | case6 => exact List.suffix_rfl
  | case7 fuel line c rest _ _ _ _ _ ih => exact ih.trans (List.suffix_cons c rest)
  | case8 fuel line c rest _ _ _ _ _ _ ih => exact ih.trans (List.suffix_cons c rest)
  | case9 => exact List.suffix_rfl
  | case10 => exact List.suffix_rfl

theorem identifierFrom_suffix {fuel : ℕ} {name name' : List Char} {escaped escaped' : Bool}
    (h : identifierFrom fuel cs name escaped = some (name', escaped', rest)) : rest <:+ cs := by
  fun_induction identifierFrom fuel cs name escaped with
  | case1 => cases h
  | case2 fuel name escaped fits tail ih =>
    obtain ⟨⟨v, n⟩, -, h⟩ := Option.bind_eq_some_iff.mp h
    dsimp only at h
    split_ifs at h
    exact ((ih v n h).trans (List.drop_suffix n tail)).trans (List.suffix_append ['\\', 'u'] tail)
  | case3 => cases h
  | case4 fuel name escaped fits c tail _ _ _ ih => exact (ih h).trans (List.suffix_cons c tail)
  | case5 => cases h
  | case6 => cases h; exact List.suffix_rfl
  | case7 => cases h
  | case8 => cases h; exact List.suffix_rfl

theorem endOfNumber?_suffix (h : endOfNumber? cs = some rest) : rest <:+ cs := by
  unfold endOfNumber? at h
  split at h
  case h_1 =>
    split_ifs at h
    exact (Option.some.inj h) ▸ List.suffix_rfl
  case h_2 => exact (Option.some.inj h) ▸ List.suffix_rfl

theorem radixNumber?_suffix {base : ℕ} (h : radixNumber? base cs = some rest) : rest <:+ cs := by
  have hdigits : (digits base cs).2 <:+ cs := List.dropWhile_suffix _
  unfold radixNumber? at h
  split at h
  case h_1 => cases h
  case h_2 ds tail hds =>
    rw [hds] at hdigits
    exact (endOfNumber?_suffix h).trans ((List.suffix_cons _ _).trans hdigits)
  case h_3 ds tail _ _ hds =>
    rw [hds] at hdigits
    exact (endOfNumber?_suffix h).trans hdigits

theorem exponent?_suffix (h : exponent? cs = some rest) : rest <:+ cs := by
  unfold exponent? at h
  split at h
  case h_2 => cases h; exact List.suffix_rfl
  case h_1 e after =>
    split_ifs at h
    case neg => exact endOfNumber?_suffix h
    case pos =>
      dsimp only at h
      split at h
      case h_2 => cases h
      case h_1 d ds hunsigned =>
        split_ifs at h
        have hsign : d :: ds <:+ after := by
          rw [← hunsigned]
          split
          · exact List.suffix_cons _ _
          · exact List.suffix_cons _ _
          · exact List.suffix_rfl
        rw [hunsigned] at h
        exact ((endOfNumber?_suffix h).trans (List.dropWhile_suffix _)).trans (hsign.trans (List.suffix_cons e after))

theorem number?_suffix (h : number? cs = some rest) : rest <:+ cs := by
  unfold number? at h
  split at h
  iterate 6 exact (radixNumber?_suffix h).trans (List.suffix_append [_, _] _)
  · exact ((exponent?_suffix h).trans (List.dropWhile_suffix _)).trans (List.suffix_cons _ _)
  · have hwhole : (digits 10 cs).2 <:+ cs := List.dropWhile_suffix _
    dsimp only at h
    generalize (digits 10 cs).2 = behind at h hwhole
    refine List.IsSuffix.trans ?_ hwhole
    split at h
    · exact (endOfNumber?_suffix h).trans (List.suffix_cons _ _)
    · split_ifs at h
      · exact endOfNumber?_suffix h
      · exact ((exponent?_suffix h).trans (List.dropWhile_suffix _)).trans (List.suffix_cons _ _)
    · split_ifs at h
      · exact endOfNumber?_suffix h
      · exact exponent?_suffix h

theorem string?_suffix {quote : Char} {fuel : ℕ} (hquote : quote = '"' ∨ quote = '\'')
    (h : string? quote fuel cs = some rest) : rest <:+ cs := by
  obtain ⟨inner, -, rfl | ⟨rfl, -⟩⟩ := string?_inside hquote h
  · exact (List.suffix_cons quote rest).trans (List.suffix_append inner _)
  · exact List.suffix_append inner rest

theorem tokenOf_suffix (cs : List Char) : (tokenOf cs).2 <:+ cs := by
  unfold tokenOf
  split
  case h_1 => exact List.suffix_rfl
  case h_2 rest =>
    split
    case h_1 hname => exact (identifierFrom_suffix hname).trans (List.suffix_cons _ _)
    case h_2 => exact List.suffix_cons _ _
  case h_3 c rest _ =>
    split_ifs with hstart hdigit hquote
    · split
      case h_1 hname => exact identifierFrom_suffix hname
      case h_2 => exact List.suffix_cons _ _
    · split
      case h_1 hnumber => exact number?_suffix hnumber
      case h_2 => exact List.suffix_cons _ _
    · split
      case h_1 hstring => exact (string?_suffix (by simpa using hquote) hstring).trans (List.suffix_cons _ _)
      case h_2 => exact List.suffix_cons _ _
    · split
      case h_1 => exact List.drop_suffix _ _
      case h_2 => exact List.suffix_cons _ _

theorem tokenOf_literal (h : tokenOf cs = (.string, rest)) : ∃ l : Literal, cs = l.text ++ rest ∧ l.Precedes rest := by
  unfold tokenOf at h
  split at h
  case h_1 => cases h
  case h_2 => split at h <;> cases h
  case h_3 c behind _ =>
    split_ifs at h with hstart hdigit hquote
    · split at h <;> cases h
    · split at h <;> cases h
    · split at h
      case h_2 => cases h
      case h_1 hstring =>
        obtain rfl := (Prod.mk.inj h).2
        have hquote : c = '"' ∨ c = '\'' := by simpa using hquote
        obtain ⟨inner, hinner, rfl | ⟨rfl, hend⟩⟩ := string?_inside hquote hstring
        · exact ⟨⟨c, inner, true⟩, by simp [Literal.text], hquote, hinner, nofun⟩
        · exact ⟨⟨c, inner, false⟩, by simp [Literal.text], hquote, hinner, fun _ => hend⟩
    · split at h <;> cases h

end

def Literal.IsAt (l : Literal) (code : List Char) (span : Span) : Prop :=
  ∃ before after, code = before ++ l.text ++ after ∧ byteLength before = span.start ∧
    span.stop = span.start + byteLength l.text ∧ l.Precedes after

theorem Literal.IsAt.start_lt {l : Literal} {code : List Char} {span : Span} (h : l.IsAt code span) :
    span.start < span.stop := by
  obtain ⟨_, _, -, -, hstop, -⟩ := h
  have hpos := l.quote.utf8Size_pos
  rw [hstop, Literal.text, List.cons_append, byteLength_cons]
  omega

structure Lexeme.IsIn (l : Lexeme) (code : List Char) : Prop where
  here : l.here.IsAt code
  next : l.next.IsAt code
  here_le : l.here.offset ≤ l.next.offset
  literal : l.token = .string → ∃ t : Literal, t.IsAt code l.span

theorem Cursor.IsAt.suffix {c : Cursor} {code rest : List Char} (h : c.IsAt code) (hrest : rest <:+ c.rest) :
    Cursor.IsAt ⟨c.offset + (byteLength c.rest - byteLength rest), rest⟩ code := by
  obtain ⟨text, htext⟩ := hrest
  rw [← htext, byteLength_append, Nat.add_sub_cancel]
  apply Cursor.IsAt.move
  rwa [htext]

theorem byteLength_le_of_suffix {cs ds : List Char} (h : cs <:+ ds) : byteLength cs ≤ byteLength ds := by
  obtain ⟨text, rfl⟩ := h
  rw [byteLength_append]
  exact Nat.le_add_left ..

theorem lexemeFrom_eq (c : Cursor) (line : Bool) : ∃ start onNewLine, start <:+ c.rest ∧
    lexemeFrom c line = ⟨(tokenOf start).1, ⟨c.offset + (byteLength c.rest - byteLength start), start⟩,
      ⟨c.offset + (byteLength c.rest - byteLength (tokenOf start).2), (tokenOf start).2⟩, onNewLine⟩ :=
  ⟨_, _, skipBlanks_suffix (c.rest.length + 1) c.rest line, rfl⟩

theorem lexemeFrom_isIn {c : Cursor} {code : List Char} (h : c.IsAt code) (line : Bool) :
    (lexemeFrom c line).IsIn code ∧ c.offset ≤ (lexemeFrom c line).here.offset := by
  obtain ⟨start, onNewLine, hstart, hlexeme⟩ := lexemeFrom_eq c line
  have hafter := tokenOf_suffix start
  have hle := byteLength_le_of_suffix hafter
  rw [hlexeme]
  refine ⟨⟨h.suffix hstart, h.suffix (hafter.trans hstart), ?_, ?_⟩, Nat.le_add_right ..⟩
  · exact Nat.add_le_add_left (Nat.sub_le_sub_left hle _) _
  · intro htoken
    obtain ⟨l, htext, hliteral⟩ := tokenOf_literal (Prod.ext htoken rfl)
    obtain ⟨before, hcode, hbefore⟩ := h.suffix hstart
    refine ⟨l, before, (tokenOf start).2, ?_, hbefore, ?_, hliteral⟩
    · rw [hcode, List.append_assoc, ← htext]
    · have hlength : byteLength start = byteLength l.text + byteLength (tokenOf start).2 := by
        rw [← byteLength_append, ← htext]
      have := byteLength_le_of_suffix hstart
      simp only [Lexeme.span]
      omega

end VisibleText.JavaScript
