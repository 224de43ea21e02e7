import VisibleText.Code.Lexeme
import VisibleText.Proofs.Offsets

namespace VisibleText.Code

theorem commentLength?_pos {d : Dialect} {bs : Bytes} {n : ℕ} (h : commentLength? d bs = some n) : 0 < n := by
  unfold commentLength? at h
  split_ifs at h <;> obtain rfl := Option.some.inj h <;> omega

theorem lineLength_le (bs : Bytes) : lineLength bs ≤ bs.length := by
  induction bs with
  | nil => exact Nat.le_refl _
  | cons b bs ih =>
    simp only [lineLength, List.length_cons]
    split_ifs <;> omega

theorem blockLength_le (bs : Bytes) : blockLength bs ≤ bs.length := by
  unfold blockLength
  cases hi : indexOf? [star, slash] bs with
  | none => exact Nat.le_refl _
  | some i =>
    have := (indexOf?_some hi).length_le
    simp only [List.length_cons, List.length_nil, List.length_drop] at this ⊢
    omega

theorem commentLength?_some {d : Dialect} {bs : Bytes} {n : ℕ} (h : commentLength? d bs = some n) :
    (∃ rest, bs = slash :: star :: rest ∧ n = blockLength rest + 2) ∨
    (∃ rest, bs = slash :: slash :: rest ∧ n = lineLength rest + 2) ∨
    ∃ rest, bs = hash :: rest ∧ d = .php ∧ n = lineLength rest + 1 := by
  by_cases hblock : [slash, star] <+: bs
  · obtain ⟨rest, rfl⟩ := hblock
    have hn : blockLength rest + 2 = n := by simpa [commentLength?] using h
    exact .inl ⟨rest, rfl, hn.symm⟩
  by_cases hline : [slash, slash] <+: bs
  · obtain ⟨rest, rfl⟩ := hline
    have hn : lineLength rest + 2 = n := by simpa [commentLength?, slash, star] using h
    exact .inr (.inl ⟨rest, rfl, hn.symm⟩)
  · obtain ⟨⟨rfl, hhead⟩, hn⟩ : (d = .php ∧ bs.head? = some hash) ∧ lineLength (bs.drop 1) + 1 = n := by
      simpa [commentLength?, hblock, hline] using h
    obtain ⟨rest, rfl⟩ := List.head?_eq_some_iff.mp hhead
    exact .inr (.inr ⟨rest, rfl, rfl, hn.symm⟩)

theorem commentLength?_none {d : Dialect} {bs : Bytes} (h : commentLength? d bs = none) :
    ¬ [slash, star] <+: bs ∧ ¬ [slash, slash] <+: bs ∧ ¬ (d = .php ∧ bs.head? = some hash) := by
  have hblock : ¬ [slash, star] <+: bs := by
    rintro ⟨rest, rfl⟩
    simp [commentLength?] at h
  have hline : ¬ [slash, slash] <+: bs := by
    rintro ⟨rest, rfl⟩
    simp [commentLength?, slash, star] at h
  exact ⟨hblock, hline, by simpa [commentLength?, hblock, hline] using h⟩

theorem commentLength?_le {d : Dialect} {bs : Bytes} {n : ℕ} (h : commentLength? d bs = some n) : n ≤ bs.length := by
  rcases commentLength?_some h with ⟨rest, rfl, rfl⟩ | ⟨rest, rfl, rfl⟩ | ⟨rest, rfl, -, rfl⟩
  · simpa using blockLength_le rest
  · simpa using lineLength_le rest
  · simpa using lineLength_le rest

theorem closingLength?_some {quote : UInt8} {bs : Bytes} {n : ℕ} (h : closingLength? quote bs = some n) :
    ∃ body rest, bs = body ++ quote :: rest ∧ n = body.length + 1 := by
  fun_induction closingLength? quote bs generalizing n with
  | case1 => simp at h
  | case2 => simp at h
  | case3 escaped rest ih =>
    obtain ⟨m, hm, rfl⟩ := Option.map_eq_some_iff.mp h
    obtain ⟨body, tail, rfl, rfl⟩ := ih hm
    exact ⟨backslash :: escaped :: body, tail, rfl, rfl⟩
  | case4 bs =>
    obtain rfl := Option.some.inj h
    exact ⟨[], bs, rfl, rfl⟩
  | case5 b bs hb hq ih =>
    obtain ⟨m, hm, rfl⟩ := Option.map_eq_some_iff.mp h
    obtain ⟨body, tail, rfl, rfl⟩ := ih hm
    exact ⟨b :: body, tail, rfl, rfl⟩

theorem lexemes_spell (d : Dialect) (quotes : UInt8 → Bool) (bs : Bytes) :
    (lexemes d quotes bs).flatMap Lexeme.bytes = bs := by
  fun_induction lexemes d quotes bs with
  | case1 => rfl
  | case2 b rest n hn ih =>
    obtain ⟨k, rfl⟩ : ∃ k, n = k + 1 := ⟨n - 1, by have := commentLength?_pos hn; omega⟩
    rw [List.flatMap_cons, ih]
    simp [Lexeme.bytes]
  | case3 b rest hn hq n hc ih =>
    rw [List.flatMap_cons, ih]
    simp [Lexeme.bytes]
  | case4 b rest hn hq hc => simp [Lexeme.bytes]
  | case5 b rest hn hq ih =>
    rw [List.flatMap_cons, ih]
    simp [Lexeme.bytes]

def Quoted (quotes : UInt8 → Bool) (l : Lexeme) : Prop :=
  ∀ bs, l = .literal bs → ∃ quote body, quotes quote ∧ bs = quote :: (body ++ [quote])

theorem lexemes_quoted (d : Dialect) (quotes : UInt8 → Bool) (bs : Bytes) :
    ∀ l ∈ lexemes d quotes bs, Quoted quotes l := by
  fun_induction lexemes d quotes bs with
  | case1 => simp
  | case2 b rest n hn ih => simpa [Quoted] using ih
  | case3 b rest hn hq n hc ih =>
    obtain ⟨body, tail, rfl, rfl⟩ := closingLength?_some hc
    refine List.forall_mem_cons.mpr ⟨?_, ih⟩
    intro bs hbs
    obtain rfl := Lexeme.literal.inj hbs
    refine ⟨b, body, hq, ?_⟩
    rw [List.take_append, List.take_of_length_le (Nat.le_succ _)]
    simp
  | case4 b rest hn hq hc => simp [Quoted]
  | case5 b rest hn hq ih => simpa [Quoted] using ih

def Literal.StandsIn (offset : ℕ) (bs : Bytes) (l : Literal) : Prop :=
  ∃ before body after, isQuote l.quote ∧ bs = before ++ l.quote :: (body ++ l.quote :: after) ∧
    l.body = ⟨offset + before.length + 1, offset + before.length + 1 + body.length⟩

theorem Literal.StandsIn.append_left {offset : ℕ} {bs : Bytes} {l : Literal} (more : Bytes)
    (h : l.StandsIn (offset + more.length) bs) : l.StandsIn offset (more ++ bs) := by
  obtain ⟨before, body, after, hq, rfl, hb⟩ := h
  refine ⟨more ++ before, body, after, hq, by simp, ?_⟩
  rw [hb, List.length_append, Nat.add_assoc offset]

theorem Literal.ofLexemes_standsIn (offset : ℕ) (ls : List Lexeme) (h : ∀ l ∈ ls, Quoted isQuote l) :
    ∀ l ∈ Literal.ofLexemes offset ls, l.StandsIn offset (ls.flatMap Lexeme.bytes) := by
  induction ls generalizing offset with
  | nil => simp [Literal.ofLexemes]
  | cons x ls ih =>
    obtain ⟨hx, hls⟩ := List.forall_mem_cons.mp h
    have hrest : ∀ l ∈ Literal.ofLexemes (offset + x.length) ls,
        l.StandsIn offset ((x :: ls).flatMap Lexeme.bytes) := by
      intro l hl
      exact (ih _ hls l hl).append_left x.bytes
    cases x with
    | literal bs =>
      obtain ⟨quote, body, hq, rfl⟩ := hx bs rfl
      refine List.forall_mem_cons.mpr ⟨⟨[], body, ls.flatMap Lexeme.bytes, hq, ?_, ?_⟩, hrest⟩
      · simp [Lexeme.bytes]
      · simp [Nat.add_comm, Nat.add_left_comm]
    | code b => exact hrest
    | comment bs => exact hrest
    | unclosed bs => exact hrest

theorem Literal.ofLexemes_pairwise (offset : ℕ) (ls : List Lexeme) (h : ∀ l ∈ ls, Quoted isQuote l) :
    (Literal.ofLexemes offset ls).Pairwise fun a b => a.stop ≤ b.start := by
  induction ls generalizing offset with
  | nil => exact List.Pairwise.nil
  | cons x ls ih =>
    obtain ⟨hx, hls⟩ := List.forall_mem_cons.mp h
    have hrest := ih (offset + x.length) hls
    cases x with
    | literal bs =>
      obtain ⟨quote, body, hq, rfl⟩ := hx bs rfl
      refine List.Pairwise.cons ?_ hrest
      intro l hl
      obtain ⟨before, body', after, -, -, hb⟩ := Literal.ofLexemes_standsIn _ ls hls l hl
      simp only [Literal.start, Literal.stop, hb, Lexeme.length, Lexeme.bytes, List.length_cons]
      omega
    | code b => exact hrest
    | comment bs => exact hrest
    | unclosed bs => exact hrest

theorem Literal.ofLexemes_append_congr {back back' : List Lexeme}
    (h : ∀ offset, Literal.ofLexemes offset back = Literal.ofLexemes offset back') (front : List Lexeme) (offset : ℕ) :
    Literal.ofLexemes offset (front ++ back) = Literal.ofLexemes offset (front ++ back') := by
  induction front generalizing offset with
  | nil => exact h offset
  | cons l front ih =>
    have hrest := ih (offset + l.length)
    cases l with
    | literal bs =>
      cases bs with
      | nil => exact hrest
      | cons q body => exact congrArg (_ :: ·) hrest
    | code b => exact hrest
    | comment bs => exact hrest
    | unclosed bs => exact hrest

theorem Literal.mem_ofLexemes {offset : ℕ} {ls : List Lexeme} {l : Literal} (h : l ∈ Literal.ofLexemes offset ls) :
    ∃ front q body back, ls = front ++ .literal (q :: body) :: back ∧
      l = ⟨q, ⟨offset + (front.flatMap Lexeme.bytes).length + 1, offset + (front.flatMap Lexeme.bytes).length + body.length⟩⟩ := by
  induction ls generalizing offset with
  | nil => cases h
  | cons x ls ih =>
    have hrest : l ∈ Literal.ofLexemes (offset + x.length) ls → ∃ front q body back,
        x :: ls = front ++ .literal (q :: body) :: back ∧ l = ⟨q, ⟨offset + (front.flatMap Lexeme.bytes).length + 1,
          offset + (front.flatMap Lexeme.bytes).length + body.length⟩⟩ := by
      intro h
      obtain ⟨front, q, body, back, rfl, rfl⟩ := ih h
      refine ⟨x :: front, q, body, back, rfl, ?_⟩
      rw [List.flatMap_cons, List.length_append, ← Nat.add_assoc]
      rfl
    cases x with
    | literal bs =>
      cases bs with
      | nil => exact hrest h
      | cons q body =>
        rcases List.mem_cons.mp h with rfl | h
        · exact ⟨[], q, body, ls, rfl, rfl⟩
        · exact hrest h
    | code b => exact hrest h
    | comment bs => exact hrest h
    | unclosed bs => exact hrest h

theorem literals_pairwise (d : Dialect) (bs : Bytes) (s : Span) :
    (literals d bs s).Pairwise fun a b => a.stop ≤ b.start :=
  Literal.ofLexemes_pairwise _ _ (lexemes_quoted _ _ _)

theorem literals_standsIn {d : Dialect} {bs : Bytes} {s : Span} {l : Literal} (h : l ∈ literals d bs s) :
    l.StandsIn s.start (scope bs s) := by
  have hl := Literal.ofLexemes_standsIn _ _ (lexemes_quoted d isQuote (scope bs s)) l h
  rwa [lexemes_spell] at hl

theorem literals_bounds {d : Dialect} {bs : Bytes} {s : Span} {l : Literal} (h : l ∈ literals d bs s) :
    s.start ≤ l.start ∧ l.start < l.body.start ∧ l.body.start ≤ l.body.stop ∧ l.body.stop < l.stop ∧
      l.stop ≤ s.stop := by
  obtain ⟨before, body, after, -, hscope, hb⟩ := literals_standsIn h
  have hlen := congrArg List.length hscope
  simp only [scope, List.length_drop, List.length_take, List.length_append, List.length_cons] at hlen
  simp only [Literal.start, Literal.stop, hb]
  omega

theorem literals_quotes {d : Dialect} {bs : Bytes} {s : Span} {l : Literal} (h : l ∈ literals d bs s) :
    isQuote l.quote ∧ bs[l.start]? = some l.quote ∧ bs[l.body.stop]? = some l.quote := by
  obtain ⟨before, body, after, hq, hscope, hb⟩ := literals_standsIn h
  have hindex : ∀ i, i < (scope bs s).length → bs[s.start + i]? = (scope bs s)[i]? := by
    intro i hi
    simp only [scope, List.length_drop, List.length_take] at hi
    rw [scope, List.getElem?_drop, List.getElem?_take, if_pos (by omega)]
  refine ⟨hq, ?_, ?_⟩
  · have hi := hindex before.length (by simp [hscope])
    simp only [Literal.start, hb, Nat.add_sub_cancel, hi]
    simp [hscope]
  · have hi := hindex (before.length + 1 + body.length) (by simp [hscope]; omega)
    simp only [hb, Nat.add_assoc] at hi ⊢
    rw [hi, hscope]
    simp [Nat.add_comm 1]

theorem isQuote_ascii {b : UInt8} (h : isQuote b) : b < 0x80 := by
  simp only [isQuote, Bool.or_eq_true, beq_iff_eq] at h
  rcases h with rfl | rfl <;> decide

end VisibleText.Code
