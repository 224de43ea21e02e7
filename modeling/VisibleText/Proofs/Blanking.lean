import VisibleText.Proofs.LexemeLocality

/-!
Code with some of its lexemes blanked out. A lexeme in front of others is closed, so it does not depend on
what stands behind it, but for a slash, which must not meet a slash or a star. Blanks are neither, so the
lexemes that are not blanked stay as they are. The mask is one such copy, the code without its comments
another.
-/
namespace VisibleText.Code

variable {d : Dialect} {quotes : UInt8 → Bool}

/-- The lexeme is the first one of its own bytes and of those behind it. -/
def Leads (d : Dialect) (quotes : UInt8 → Bool) (l : Lexeme) (behind : Bytes) : Prop :=
  lexemes d quotes (l.bytes ++ behind) = l :: lexemes d quotes behind

theorem lexemes_first (d : Dialect) (quotes : UInt8 → Bool) (b : UInt8) (rest : Bytes) :
    (∃ n, commentLength? d (b :: rest) = some n ∧
      lexemes d quotes (b :: rest) = .comment ((b :: rest).take n) :: lexemes d quotes ((b :: rest).drop n)) ∨
    commentLength? d (b :: rest) = none ∧
      ((quotes b ∧ ∃ n, closingLength? b rest = some n ∧
        lexemes d quotes (b :: rest) = .literal (b :: rest.take n) :: lexemes d quotes (rest.drop n)) ∨
      (quotes b ∧ closingLength? b rest = none ∧ lexemes d quotes (b :: rest) = [.unclosed (b :: rest)]) ∨
      (¬ quotes b ∧ lexemes d quotes (b :: rest) = .code b :: lexemes d quotes rest)) := by
  cases hn : commentLength? d (b :: rest) with
  | some n => exact .inl ⟨n, rfl, lexemes_comment hn⟩
  | none =>
    refine .inr ⟨rfl, ?_⟩
    by_cases hq : quotes b
    · cases hc : closingLength? b rest with
      | some n => exact .inl ⟨hq, n, rfl, lexemes_literal hn hq hc⟩
      | none => exact .inr (.inl ⟨hq, rfl, lexemes_unclosed hn hq hc⟩)
    · exact .inr (.inr ⟨hq, lexemes_code hn hq⟩)

theorem lexemes_cons_inv {bs : Bytes} {l : Lexeme} {ls : List Lexeme} (h : lexemes d quotes bs = l :: ls) :
    l.bytes ≠ [] ∧ lexemes d quotes (ls.flatMap Lexeme.bytes) = ls := by
  cases bs with
  | nil => simp [lexemes] at h
  | cons b rest =>
    rcases lexemes_first d quotes b rest with ⟨n, hn, heq⟩ | ⟨-, ⟨-, n, -, heq⟩ | ⟨-, -, heq⟩ | ⟨-, heq⟩⟩
    all_goals obtain ⟨rfl, rfl⟩ := List.cons.inj (heq.symm.trans h)
    · refine ⟨?_, by rw [lexemes_spell]⟩
      have := commentLength?_pos hn
      simp only [Lexeme.bytes, ne_eq, List.take_eq_nil_iff, reduceCtorEq, or_false]
      omega
    · exact ⟨List.cons_ne_nil _ _, by rw [lexemes_spell]⟩
    · exact ⟨List.cons_ne_nil _ _, by simp [lexemes]⟩
    · exact ⟨List.cons_ne_nil _ _, by rw [lexemes_spell]⟩

theorem leads_of_lexemes {bs : Bytes} {l : Lexeme} {ls : List Lexeme} (h : lexemes d quotes bs = l :: ls) :
    Leads d quotes l (ls.flatMap Lexeme.bytes) := by
  have hspell := lexemes_spell d quotes bs
  rw [h, List.flatMap_cons] at hspell
  rw [Leads, hspell, h, (lexemes_cons_inv h).2]

theorem lexemes_back {bs : Bytes} {front back : List Lexeme} (h : lexemes d quotes bs = front ++ back) :
    lexemes d quotes (back.flatMap Lexeme.bytes) = back := by
  induction front generalizing bs with
  | nil =>
    rw [List.nil_append] at h
    rw [← h, lexemes_spell]
  | cons l front ih => exact ih (lexemes_cons_inv h).2

theorem leads_code {b : UInt8} {t : Bytes} :
    Leads d quotes (.code b) t ↔ commentLength? d (b :: t) = none ∧ ¬ quotes b := by
  constructor
  · intro h
    have h : lexemes d quotes (b :: t) = .code b :: lexemes d quotes t := h
    rcases lexemes_first d quotes b t with ⟨n, -, heq⟩ | ⟨hn, ⟨-, n, -, heq⟩ | ⟨-, -, heq⟩ | ⟨hq, -⟩⟩
    · cases (List.cons.inj (heq.symm.trans h)).1
    · cases (List.cons.inj (heq.symm.trans h)).1
    · cases (List.cons.inj (heq.symm.trans h)).1
    · exact ⟨hn, hq⟩
  · rintro ⟨hn, hq⟩
    exact lexemes_code hn hq

theorem leads_comment {c t : Bytes} (hc : c ≠ []) :
    Leads d quotes (.comment c) t ↔ commentLength? d (c ++ t) = some c.length := by
  constructor
  · intro h
    have h : lexemes d quotes (c ++ t) = .comment c :: lexemes d quotes t := h
    obtain ⟨b, rest, rfl⟩ := List.exists_cons_of_ne_nil hc
    rcases lexemes_first d quotes b (rest ++ t) with ⟨n, hn, heq⟩ | ⟨-, ⟨-, n, -, heq⟩ | ⟨-, -, heq⟩ | ⟨-, heq⟩⟩
    · have hc := Lexeme.comment.inj (List.cons.inj (heq.symm.trans h)).1
      rw [List.cons_append, hn, ← hc, List.length_take_of_le (commentLength?_le hn)]
    · cases (List.cons.inj (heq.symm.trans h)).1
    · cases (List.cons.inj (heq.symm.trans h)).1
    · cases (List.cons.inj (heq.symm.trans h)).1
  · intro hn
    rw [Leads, Lexeme.bytes, lexemes_comment hn, List.take_left, List.drop_left]

theorem leads_literal {q : UInt8} {body t : Bytes} : Leads d quotes (.literal (q :: body)) t ↔
    commentLength? d (q :: (body ++ t)) = none ∧ quotes q ∧ closingLength? q (body ++ t) = some body.length := by
  constructor
  · intro h
    have h : lexemes d quotes (q :: (body ++ t)) = .literal (q :: body) :: lexemes d quotes t := h
    rcases lexemes_first d quotes q (body ++ t) with ⟨n, -, heq⟩ | ⟨hn, ⟨hq, n, hc, heq⟩ | ⟨-, -, heq⟩ | ⟨-, heq⟩⟩
    · cases (List.cons.inj (heq.symm.trans h)).1
    · refine ⟨hn, hq, ?_⟩
      have hbody := (List.cons.inj (Lexeme.literal.inj (List.cons.inj (heq.symm.trans h)).1)).2
      obtain ⟨inner, rest, hsplit, rfl⟩ := closingLength?_some hc
      rw [hc, ← hbody, List.length_take_of_le (by rw [hsplit]; simp)]
    · cases (List.cons.inj (heq.symm.trans h)).1
    · cases (List.cons.inj (heq.symm.trans h)).1
  · rintro ⟨hn, hq, hc⟩
    rw [Leads, Lexeme.bytes, List.cons_append, lexemes_literal hn hq hc, List.take_left, List.drop_left]

theorem leads_unclosed {q : UInt8} {bs t : Bytes} (h : Leads d quotes (.unclosed (q :: bs)) t) : quotes q ∧ t = [] := by
  have h : lexemes d quotes (q :: (bs ++ t)) = .unclosed (q :: bs) :: lexemes d quotes t := h
  rcases lexemes_first d quotes q (bs ++ t) with ⟨n, -, heq⟩ | ⟨-, ⟨-, n, -, heq⟩ | ⟨hq, -, heq⟩ | ⟨-, heq⟩⟩
  · cases (List.cons.inj (heq.symm.trans h)).1
  · cases (List.cons.inj (heq.symm.trans h)).1
  · have hrest := (List.cons.inj (Lexeme.unclosed.inj (List.cons.inj (heq.symm.trans h)).1)).2
    exact ⟨hq, by simpa using hrest⟩
  · cases (List.cons.inj (heq.symm.trans h)).1

theorem commentLength?_cons_none {b : UInt8} {t : Bytes} (hhash : ¬ (d = .php ∧ b = hash))
    (hslash : b = slash → t.head? ≠ some slash ∧ t.head? ≠ some star) : commentLength? d (b :: t) = none := by
  cases hn : commentLength? d (b :: t) with
  | none => rfl
  | some n =>
    rcases commentLength?_some hn with ⟨rest, hbs, -⟩ | ⟨rest, hbs, -⟩ | ⟨rest, hbs, hd, -⟩
    · obtain ⟨rfl, rfl⟩ := List.cons.inj hbs
      exact absurd rfl (hslash rfl).2
    · obtain ⟨rfl, rfl⟩ := List.cons.inj hbs
      exact absurd rfl (hslash rfl).1
    · exact absurd ⟨hd, (List.cons.inj hbs).1⟩ hhash

theorem commentLength?_slash_none {t : Bytes} (h : commentLength? d (slash :: t) = none) :
    t.head? ≠ some slash ∧ t.head? ≠ some star := by
  obtain ⟨hblock, hline, -⟩ := commentLength?_none h
  cases t with
  | nil => simp
  | cons b t =>
    simp only [List.cons_prefix_cons, List.nil_prefix, and_true, true_and] at hblock hline
    simpa using ⟨Ne.symm hline, Ne.symm hblock⟩

theorem lineLength_behind {r t : Bytes} (ht : t ≠ []) (h : lineLength (r ++ t) = r.length) (t' : Bytes) :
    lineLength (r ++ t') = r.length ∧ r.getLast? = some lineFeed := by
  induction r with
  | nil =>
    obtain ⟨b, t, rfl⟩ := List.exists_cons_of_ne_nil ht
    rw [List.nil_append, lineLength] at h
    split_ifs at h
  | cons b r ih =>
    simp only [List.cons_append, lineLength, List.length_cons] at h ⊢
    split_ifs at h ⊢ with hb
    · obtain rfl : r = [] := List.length_eq_zero_iff.mp (by omega)
      simp [hb]
    · obtain ⟨hr, hlast⟩ := ih (by omega)
      simp [hr, List.getLast?_cons, hlast]

theorem blockLength_behind {r t : Bytes} (ht : t ≠ []) (h : blockLength (r ++ t) = r.length) (t' : Bytes) :
    blockLength (r ++ t') = r.length ∧ r.getLast? = some slash := by
  have hpos := List.length_pos_iff.mpr ht
  have hmore := indexOf?_extends (List.cons_ne_nil star [slash]) r t
  rw [blockLength] at h
  cases hi : indexOf? [star, slash] (r ++ t) with
  | none =>
    simp only [hi, List.length_append] at h
    omega
  | some i =>
    simp only [hi] at h
    have hr : indexOf? [star, slash] r = some i := by
      cases hj : indexOf? [star, slash] r with
      | some j => rw [← hmore.same j hj, hi]
      | none =>
        have := hmore.beyond hj i hi
        simp only [List.length_cons, List.length_nil] at this
        omega
    constructor
    · rw [blockLength, (indexOf?_extends (List.cons_ne_nil star [slash]) r t').same i hr]
      exact h
    · obtain ⟨more, hdrop⟩ := indexOf?_some hr
      have hmore : more = [] := by
        have := congrArg List.length hdrop
        simp only [List.length_append, List.length_cons, List.length_nil, List.length_drop] at this
        exact List.length_eq_zero_iff.mp (by omega)
      rw [← List.take_append_drop i r, ← hdrop, hmore]
      simp

theorem append_inv {as bs ds : Bytes} (cs : Bytes) (h : as ++ bs = cs ++ ds) (hlen : cs.length ≤ as.length) :
    ∃ r, as = cs ++ r ∧ ds = r ++ bs := by
  obtain ⟨r, rfl⟩ := List.prefix_of_prefix_length_le ⟨ds, h.symm⟩ (List.prefix_append as bs) hlen
  rw [List.append_assoc] at h
  exact ⟨r, rfl, (List.append_cancel_left h).symm⟩

theorem commentLength?_behind {c t : Bytes} (ht : t ≠ []) (h : commentLength? d (c ++ t) = some c.length) (t' : Bytes) :
    commentLength? d (c ++ t') = some c.length ∧ ∃ b ∈ c.getLast?, b = slash ∨ b = lineFeed := by
  rcases commentLength?_some h with ⟨rest, hbs, hlen⟩ | ⟨rest, hbs, hlen⟩ | ⟨rest, hbs, rfl, hlen⟩
  · obtain ⟨r, rfl, rfl⟩ := append_inv [slash, star] hbs (by simp [hlen])
    obtain ⟨hr, hlast⟩ := blockLength_behind ht (by simpa using hlen.symm) t'
    constructor
    · simp [commentLength?, hr]
    · simp [List.getLast?_cons, hlast]
  · obtain ⟨r, rfl, rfl⟩ := append_inv [slash, slash] hbs (by simp [hlen])
    obtain ⟨hr, hlast⟩ := lineLength_behind ht (by simpa using hlen.symm) t'
    constructor
    · simp [commentLength?, hr, slash, star]
    · simp [List.getLast?_cons, hlast]
  · obtain ⟨r, rfl, rfl⟩ := append_inv [hash] hbs (by simp [hlen])
    obtain ⟨hr, hlast⟩ := lineLength_behind ht (by simpa using hlen.symm) t'
    constructor
    · simp [commentLength?, hr, slash, hash]
    · simp [List.getLast?_cons, hlast]

theorem closingLength?_behind {quote : UInt8} {body t : Bytes} (h : closingLength? quote (body ++ t) = some body.length)
    (t' : Bytes) : closingLength? quote (body ++ t') = some body.length := by
  apply (closingLength?_extends quote body t').same
  have hmore := closingLength?_extends quote body t
  cases hc : closingLength? quote body with
  | some n => rw [← hmore.same n hc, h]
  | none =>
    have := hmore.beyond hc _ h
    omega

theorem Leads.change {l : Lexeme} {t t' : Bytes} (h : Leads d quotes l t) (hl : l.bytes ≠ []) (ht : t ≠ [])
    (hslash : l = .code slash → t'.head? ≠ some slash ∧ t'.head? ≠ some star) : Leads d quotes l t' := by
  cases l with
  | code b =>
    obtain ⟨hn, hq⟩ := leads_code.mp h
    refine leads_code.mpr ⟨commentLength?_cons_none ?_ ?_, hq⟩
    · simpa using (commentLength?_none hn).2.2
    · intro hb
      exact hslash (by rw [hb])
  | comment c => exact (leads_comment hl).mpr (commentLength?_behind ht ((leads_comment hl).mp h) t').1
  | literal bs =>
    obtain ⟨q, body, rfl⟩ := List.exists_cons_of_ne_nil hl
    obtain ⟨hn, hq, hc⟩ := leads_literal.mp h
    obtain ⟨inner, rest, hbody, hlen⟩ := closingLength?_some hc
    obtain ⟨b, body, rfl⟩ := List.exists_cons_of_ne_nil (List.ne_nil_of_length_pos (show 0 < body.length by omega))
    refine leads_literal.mpr ⟨commentLength?_cons_none ?_ ?_, hq, closingLength?_behind hc t'⟩
    · simpa using (commentLength?_none hn).2.2
    · rintro rfl
      have hhead := commentLength?_slash_none hn
      exact hhead
  | unclosed bs =>
    obtain ⟨q, bs, rfl⟩ := List.exists_cons_of_ne_nil hl
    exact absurd (leads_unclosed h).2 ht

def blank (b : UInt8) : UInt8 := if b = lineFeed then lineFeed else space

theorem blank_cases (b : UInt8) : blank b = lineFeed ∨ blank b = space := by
  rw [blank]
  split_ifs
  · exact .inl rfl
  · exact .inr rfl

def Lexeme.blanked (p : Lexeme → Bool) (l : Lexeme) : List Lexeme :=
  if p l then (l.bytes.map blank).map .code else [l]

theorem flatMap_bytes_code (bs : Bytes) : (bs.map Lexeme.code).flatMap Lexeme.bytes = bs := by
  rw [List.flatMap_map]
  exact List.flatMap_singleton' bs

theorem Lexeme.blanked_bytes (p : Lexeme → Bool) (l : Lexeme) :
    (l.blanked p).flatMap Lexeme.bytes = if p l then l.bytes.map blank else l.bytes := by
  rw [blanked]
  split_ifs
  · exact flatMap_bytes_code _
  · exact List.flatMap_singleton _ l

theorem blanked_spell (p : Lexeme → Bool) (l : Lexeme) (ls : List Lexeme) :
    ((l :: ls).flatMap (Lexeme.blanked p)).flatMap Lexeme.bytes =
      (if p l then l.bytes.map blank else l.bytes) ++ (ls.flatMap (Lexeme.blanked p)).flatMap Lexeme.bytes := by
  rw [List.flatMap_cons, List.flatMap_append, Lexeme.blanked_bytes]

theorem lexemes_plain {bs : Bytes} (h : ∀ b ∈ bs, b ≠ hash ∧ b ≠ slash ∧ ¬ quotes b) (t : Bytes) :
    lexemes d quotes (bs ++ t) = bs.map .code ++ lexemes d quotes t := by
  induction bs with
  | nil => rfl
  | cons b bs ih =>
    obtain ⟨hb, hbs⟩ := List.forall_mem_cons.mp h
    rw [List.map_cons, List.cons_append, List.cons_append, ← ih hbs]
    refine leads_code.mpr ⟨commentLength?_cons_none ?_ ?_, hb.2.2⟩
    · exact fun hhash => hb.1 hhash.2
    · exact fun hslash => absurd hslash hb.2.1

theorem lexemes_blanks {bs : Bytes} (h : ∀ b ∈ bs, b = lineFeed ∨ b = space) (t : Bytes) :
    lexemes d isQuote (bs ++ t) = bs.map .code ++ lexemes d isQuote t := by
  apply lexemes_plain
  intro b hb
  rcases h b hb with rfl | rfl <;> decide

theorem blanked_head? (p : Lexeme → Bool) {l : Lexeme} (hl : l.bytes ≠ []) (ls : List Lexeme) :
    (((l :: ls).flatMap (Lexeme.blanked p)).flatMap Lexeme.bytes).head? = ((l :: ls).flatMap Lexeme.bytes).head? ∨
      ∃ b, (((l :: ls).flatMap (Lexeme.blanked p)).flatMap Lexeme.bytes).head? = some (blank b) := by
  rw [blanked_spell, List.flatMap_cons]
  obtain ⟨b, bs, hbs⟩ := List.exists_cons_of_ne_nil hl
  rw [hbs]
  split_ifs
  · exact .inr ⟨b, rfl⟩
  · exact .inl rfl

theorem lexemes_blanked (p : Lexeme → Bool) {ls : List Lexeme} (h : lexemes d isQuote (ls.flatMap Lexeme.bytes) = ls) :
    lexemes d isQuote ((ls.flatMap (Lexeme.blanked p)).flatMap Lexeme.bytes) = ls.flatMap (Lexeme.blanked p) := by
  induction ls with
  | nil => simp [lexemes]
  | cons l ls ih =>
    obtain ⟨hl, hls⟩ := lexemes_cons_inv h
    rw [blanked_spell, List.flatMap_cons, Lexeme.blanked]
    split_ifs with hp
    · rw [lexemes_blanks, ih hls]
      intro b hb
      obtain ⟨c, -, rfl⟩ := List.mem_map.mp hb
      exact blank_cases c
    · rw [List.singleton_append]
      conv_rhs => rw [← ih hls]
      have hlead := leads_of_lexemes h
      cases ls with
      | nil => exact hlead
      | cons m ms =>
        obtain ⟨hm, -⟩ := lexemes_cons_inv hls
        refine hlead.change hl (by simp [hm]) ?_
        rintro rfl
        rcases blanked_head? p hm ms with hhead | ⟨b, hhead⟩
        · rw [hhead]
          exact commentLength?_slash_none (leads_code.mp hlead).1
        · rw [hhead]
          rcases blank_cases b with hb | hb <;> rw [hb] <;> decide

def Lexeme.isCode : Lexeme → Bool
  | code _ => true
  | _ => false

theorem mask_eq (bs : Bytes) (s : Span) : mask d bs s =
    ((lexemes d isQuote (scope bs s)).flatMap (Lexeme.blanked fun l => !l.isCode)).flatMap Lexeme.bytes := by
  rw [mask, List.flatMap_assoc]
  congr 1
  funext l
  rw [Lexeme.blanked_bytes]
  cases l <;> rfl

theorem lexemes_mask (bs : Bytes) (s : Span) : lexemes d isQuote (mask d bs s) = (mask d bs s).map .code := by
  have hcode : ∀ ls : List Lexeme, ls.flatMap (Lexeme.blanked fun l => !l.isCode) =
      ((ls.flatMap (Lexeme.blanked fun l => !l.isCode)).flatMap Lexeme.bytes).map .code := by
    intro ls
    induction ls with
    | nil => rfl
    | cons l ls ih =>
      rw [blanked_spell, List.map_append, ← ih, List.flatMap_cons]
      cases l <;> rfl
  rw [mask_eq, lexemes_blanked, ← hcode]
  rw [lexemes_spell]

theorem plain_of_lexemes {bs : Bytes} (h : lexemes d isQuote bs = bs.map .code) :
    (∀ t, t <:+ bs → commentLength? d t = none) ∧ ∀ b ∈ bs, ¬ isQuote b := by
  induction bs with
  | nil =>
    refine ⟨fun t ht => ?_, by simp⟩
    obtain rfl := List.suffix_nil.mp ht
    cases d <;> rfl
  | cons b bs ih =>
    have hbs : (bs.map Lexeme.code).flatMap Lexeme.bytes = bs := flatMap_bytes_code bs
    obtain ⟨-, hrest⟩ := lexemes_cons_inv h
    obtain ⟨hcomment, hquote⟩ := leads_code.mp (leads_of_lexemes h)
    rw [hbs] at hrest hcomment
    obtain ⟨hcomments, hquotes⟩ := ih hrest
    refine ⟨fun t ht => ?_, List.forall_mem_cons.mpr ⟨hquote, hquotes⟩⟩
    rcases List.suffix_cons_iff.mp ht with rfl | ht
    · exact hcomment
    · exact hcomments t ht

theorem Leads.ascii {l : Lexeme} {t : Bytes} (h : Leads d isQuote l t) (hl : l.bytes ≠ []) (hcode : l.isCode = false) :
    (∃ b ∈ l.bytes.head?, b < 0x80) ∧ (t ≠ [] → ∃ b ∈ l.bytes.getLast?, b < 0x80) := by
  cases l with
  | code b => cases hcode
  | comment c =>
    have hlen := (leads_comment hl).mp h
    constructor
    · obtain ⟨b, c, rfl⟩ := List.exists_cons_of_ne_nil hl
      refine ⟨b, rfl, ?_⟩
      rcases commentLength?_some hlen with ⟨rest, hbs, -⟩ | ⟨rest, hbs, -⟩ | ⟨rest, hbs, -⟩
      all_goals
        rw [(List.cons.inj hbs).1]
        decide
    · intro ht
      obtain ⟨b, hb, hlast⟩ := (commentLength?_behind ht hlen []).2
      refine ⟨b, hb, ?_⟩
      rcases hlast with rfl | rfl <;> decide
  | literal bs =>
    obtain ⟨q, body, rfl⟩ := List.exists_cons_of_ne_nil hl
    obtain ⟨-, hq, hc⟩ := leads_literal.mp h
    refine ⟨⟨q, rfl, isQuote_ascii hq⟩, fun _ => ⟨q, ?_, isQuote_ascii hq⟩⟩
    obtain ⟨inner, rest, hbody, hlen⟩ := closingLength?_some hc
    rw [List.append_cons] at hbody
    rw [Lexeme.bytes, List.append_inj_left hbody (by simpa using hlen), ← List.cons_append, List.getLast?_concat]
    rfl
  | unclosed bs =>
    obtain ⟨q, bs, rfl⟩ := List.exists_cons_of_ne_nil hl
    obtain ⟨hq, ht⟩ := leads_unclosed h
    exact ⟨⟨q, rfl, isQuote_ascii hq⟩, fun hne => absurd ht hne⟩

theorem Leads.text {l : Lexeme} {t front : Bytes} {cs : List Char} (h : Leads d isQuote l t) (hl : l.bytes ≠ [])
    (hcode : l.isCode = false) (hcs : utf8 cs = front ++ (l.bytes ++ t)) :
    ∃ before text after, cs = before ++ text ++ after ∧ utf8 before = front ∧ utf8 text = l.bytes ∧ utf8 after = t := by
  obtain ⟨⟨b, hb, hascii⟩, hlast⟩ := h.ascii hl hcode
  obtain ⟨bs, hbs⟩ := List.head?_eq_some_iff.mp hb
  have hfirst : utf8 cs = front ++ b :: (bs ++ t) := by rw [hcs, hbs, List.cons_append]
  obtain ⟨before, c, rest, rfl, hbefore, -, -⟩ := utf8_split_ascii hfirst hascii
  have hrest : utf8 (c :: rest) = l.bytes ++ t := by
    rw [utf8_append, hbefore] at hcs
    exact List.append_cancel_left hcs
  by_cases ht : t = []
  · subst ht
    exact ⟨before, c :: rest, [], by simp, hbefore, by rw [hrest, List.append_nil], rfl⟩
  · obtain ⟨e, he, hascii⟩ := hlast ht
    obtain ⟨init, hinit⟩ := List.getLast?_eq_some_iff.mp he
    rw [hinit, List.append_assoc, List.singleton_append] at hrest
    obtain ⟨text, x, after, hsplit, htext, hx, hafter⟩ := utf8_split_ascii hrest hascii
    refine ⟨before, text ++ [x], after, by rw [hsplit]; simp, hbefore, ?_, hafter⟩
    rw [utf8_append, htext, hx, hinit]

def blankChars (cs : List Char) : List Char :=
  cs.flatMap fun c => if c = '\n' then ['\n'] else List.replicate c.utf8Size ' '

theorem utf8_replicate_space (n : ℕ) : utf8 (List.replicate n ' ') = List.replicate n space := by
  induction n with
  | zero => rfl
  | succ n ih =>
    rw [List.replicate_succ, List.replicate_succ, ← ih]
    rfl

theorem utf8EncodeChar_blank (c : Char) : (String.utf8EncodeChar c).map blank =
    utf8 (if c = '\n' then ['\n'] else List.replicate c.utf8Size ' ') := by
  split_ifs with hc
  · subst hc
    decide
  · rw [utf8_replicate_space, ← String.length_utf8EncodeChar c, List.eq_replicate_iff]
    refine ⟨List.length_map _, ?_⟩
    intro x hx
    obtain ⟨b, hb, rfl⟩ := List.mem_map.mp hx
    apply if_neg
    rintro rfl
    exact hc (Char.toNat_inj.mp (toNat_of_mem_utf8 (by simpa [utf8] using hb) (by decide)))

theorem utf8_blankChars (cs : List Char) : utf8 (blankChars cs) = (utf8 cs).map blank := by
  induction cs with
  | nil => rfl
  | cons c cs ih =>
    have hcons : utf8 (c :: cs) = String.utf8EncodeChar c ++ utf8 cs := by simp [utf8]
    rw [hcons, List.map_append, ← ih, utf8EncodeChar_blank, ← utf8_append]
    rfl

theorem exists_blanked_text (p : Lexeme → Bool) (hp : ∀ b, p (.code b) = false) (cs : List Char) :
    ∃ cs', utf8 cs' = ((lexemes d isQuote (utf8 cs)).flatMap (Lexeme.blanked p)).flatMap Lexeme.bytes := by
  have hall : ∀ (ls : List Lexeme) (front : Bytes) (cs : List Char), lexemes d isQuote (ls.flatMap Lexeme.bytes) = ls →
      utf8 cs = front ++ ls.flatMap Lexeme.bytes →
      ∃ cs', utf8 cs' = front ++ (ls.flatMap (Lexeme.blanked p)).flatMap Lexeme.bytes := by
    intro ls
    induction ls with
    | nil => exact fun front cs _ hcs => ⟨cs, hcs⟩
    | cons l ls ih =>
      intro front cs h hcs
      obtain ⟨hl, hls⟩ := lexemes_cons_inv h
      rw [List.flatMap_cons] at hcs
      rw [blanked_spell, ← List.append_assoc]
      split_ifs with hpl
      · have hcode : l.isCode = false := by
          cases l with
          | code b => exact absurd hpl (by simp [hp b])
          | comment bs => rfl
          | literal bs => rfl
          | unclosed bs => rfl
        obtain ⟨before, text, after, rfl, hbefore, htext, hafter⟩ := (leads_of_lexemes h).text hl hcode hcs
        apply ih _ (before ++ blankChars text ++ after) hls
        rw [utf8_append, utf8_append, utf8_blankChars, hbefore, htext, hafter]
      · exact ih _ cs hls (by rw [hcs, List.append_assoc])
  obtain ⟨cs', hcs'⟩ := hall (lexemes d isQuote (utf8 cs)) [] cs (by rw [lexemes_spell]) (by rw [lexemes_spell]; rfl)
  exact ⟨cs', hcs'⟩

end VisibleText.Code
