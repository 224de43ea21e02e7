import VisibleText.Proofs.CandidateSpans

/-!
Scanning as loops over places. A turn of such a loop looks at the input from one place on and says where the next turn
looks. The functions of this library recurse on the rest of the input and so end in any case; a loop ends only because
each place lies behind the one before. Every scanner moves on by at least a byte and not past the end of the input, so
the loops that go by their word end as well, with the same results.
-/
namespace VisibleText

def Advances (bs : Bytes) (i j : ℕ) : Prop := i < j ∧ j ≤ bs.length

def IsStride (bs : Bytes) (n : ℕ) : Prop := 0 < n ∧ n ≤ bs.length

theorem IsStride.advances {bs : Bytes} {i n : ℕ} (h : IsStride (bs.drop i) n) : Advances bs i (i + n) := by
  obtain ⟨hpos, hle⟩ := h
  rw [List.length_drop] at hle
  exact ⟨by omega, by omega⟩

theorem map_further (i n : ℕ) (found : Option ℕ) : found.map (i + n + ·) = (found.map (· + n)).map (i + ·) := by
  rw [Option.map_map]
  congr 1
  funext k
  simp only [Function.comp_apply]
  omega

inductive Turn (σ ρ : Type) where
  | next (place : ℕ) (state : σ)
  | leave (result : ρ)

/-- A loop over the places of an input. A turn is given its place, the byte there and those behind it. -/
structure Loop (σ ρ : Type) where
  turn : ℕ → UInt8 → Bytes → σ → Turn σ ρ
  finish : σ → ρ

/-- `result` says what a loop ends with, given a place, the input from there on and the state. A turn made at `i` leads
to `r` if it leaves with `r`, or moves on to a place from which `r` is the result. -/
def Turn.LeadsTo {σ ρ : Type} (result : ℕ → Bytes → σ → ρ) (i : ℕ) (bs : Bytes) (r : ρ) : Turn σ ρ → Prop
  | next j t => ∃ n, 0 < n ∧ j = i + n ∧ result j (bs.drop n) t = r
  | leave r' => r' = r

theorem Turn.leadsTo_next {σ ρ : Type} {result : ℕ → Bytes → σ → ρ} {i n : ℕ} {bs : Bytes} {t : σ} {r : ρ} (hn : 0 < n)
    (h : result (i + n) (bs.drop n) t = r) : (Turn.next (i + n) t).LeadsTo result i bs r := ⟨n, hn, rfl, h⟩

namespace Loop

variable {σ ρ : Type} (l : Loop σ ρ) (bs : Bytes)

def run : ℕ → ℕ → σ → Option ρ
  | turns, i, s =>
    match bs.drop i with
    | [] => some (l.finish s)
    | b :: rest =>
      match turns with
      | 0 => none
      | turns + 1 =>
        match l.turn i b rest s with
        | .next j t => run turns j t
        | .leave r => some r

def Ends (i : ℕ) (s : σ) (r : ρ) : Prop := ∀ turns, bs.length - i ≤ turns → l.run bs turns i s = some r

variable {l bs}

theorem run_of_drop_nil {i : ℕ} (h : bs.drop i = []) (turns : ℕ) (s : σ) : l.run bs turns i s = some (l.finish s) := by
  rw [run.eq_def]
  simp only [h]

theorem run_of_drop_cons {i : ℕ} {b : UInt8} {rest : Bytes} (h : bs.drop i = b :: rest) (turns : ℕ) (s : σ) :
    l.run bs (turns + 1) i s =
      match l.turn i b rest s with
      | .next j t => l.run bs turns j t
      | .leave r => some r := by
  rw [run.eq_def]
  simp only [h]

theorem ends_of_leadsTo (result : ℕ → Bytes → σ → ρ) (hfinish : ∀ i s, l.finish s = result i [] s)
    (hturn : ∀ i b rest s, bs.drop i = b :: rest →
      (l.turn i b rest s).LeadsTo result i (b :: rest) (result i (b :: rest) s)) (i : ℕ) (s : σ) :
    l.Ends bs i s (result i (bs.drop i) s) := by
  intro turns hturns
  induction turns generalizing i s with
  | zero =>
    have hnil : bs.drop i = [] := List.drop_eq_nil_of_le (by omega)
    rw [run_of_drop_nil hnil, hnil, hfinish i]
  | succ turns ih =>
    cases hdrop : bs.drop i with
    | nil => rw [run_of_drop_nil hdrop, hfinish i]
    | cons b rest =>
      have hlead := hturn i b rest s hdrop
      rw [run_of_drop_cons hdrop]
      cases ht : l.turn i b rest s with
      | leave r =>
        rw [ht] at hlead
        exact congrArg some hlead
      | next j t =>
        rw [ht] at hlead
        obtain ⟨n, hpos, rfl, hresult⟩ := hlead
        -- the next place has at least a byte less behind it, so one turn less is enough there
        have hrest := ih (i + n) t (by omega)
        rwa [← List.drop_drop, hdrop, hresult] at hrest

-- A turn that stays where it is uses up all turns.
example : (Loop.mk (fun i _ _ _ => .next i ()) id : Loop Unit Unit).run [0x7B] 5 0 () = none := rfl

end Loop

namespace Code

theorem literalLength?_cons (quote : UInt8) (bs : Bytes) :
    literalLength? (quote :: bs) = (closingLength? quote bs).map (· + 1) := rfl

theorem isStride_comment {d : Dialect} {bs : Bytes} {n : ℕ} (h : commentLength? d bs = some n) : IsStride bs n :=
  ⟨commentLength?_pos h, commentLength?_le h⟩

theorem isStride_literal {bs : Bytes} {n : ℕ} (h : literalLength? bs = some n) : IsStride bs n := by
  cases bs with
  | nil => cases h
  | cons quote bs =>
    obtain ⟨m, hm, rfl⟩ := Option.map_eq_some_iff.mp h
    obtain ⟨body, rest, rfl, rfl⟩ := closingLength?_some hm
    exact ⟨by omega, by simp⟩

theorem partnerAfter?_lt {d : Dialect} {opener : UInt8} {rest : Bytes} {n : ℕ}
    (h : partnerAfter? d opener rest = some n) : n < rest.length := by
  obtain ⟨closer, -, hn⟩ := Option.bind_eq_some_iff.mp h
  have hbyte := closerOffset?_closer hn
  rw [lexemes_spell] at hbyte
  exact (List.getElem?_eq_some_iff.mp hbyte).1

def closingLoop (quote : UInt8) : Loop Unit (Option ℕ) where
  turn i b _ _ :=
    if b = backslash then .next (i + 2) ()
    else if b = quote then .leave (some (i + 1))
    else .next (i + 1) ()
  finish _ := none

def literalLoop (d : Dialect) : Loop (List Literal) (List Literal) where
  turn i b rest found :=
    match commentLength? d (b :: rest) with
    | some n => .next (i + n) found
    | none =>
      if isQuote b then
        match literalLength? (b :: rest) with
        | some n => .next (i + n) (found ++ [⟨b, ⟨i + 1, i + n - 1⟩⟩])
        | none => .leave found
      else .next (i + 1) found
  finish := id

def maskLoop (d : Dialect) : Loop Bytes Bytes where
  turn i b rest out :=
    let skipped :=
      if isQuote b then some ((literalLength? (b :: rest)).getD (b :: rest).length) else commentLength? d (b :: rest)
    match skipped with
    | some n => .next (i + n) (out ++ ((b :: rest).take n).map blank)
    | none => .next (i + 1) (out ++ [b])
  finish := id

def partnerLoop (d : Dialect) (opener closer : UInt8) : Loop ℕ (Option ℕ) where
  turn i b rest depth :=
    match commentLength? d (b :: rest) with
    | some n => .next (i + n) depth
    | none =>
      if isQuoteOrBackquote b then
        match literalLength? (b :: rest) with
        | some n => .next (i + n) depth
        | none => .leave none
      else if b = opener then .next (i + 1) (depth + 1)
      else if b = closer then
        match depth with
        | 0 => .leave (some i)
        | depth + 1 => .next (i + 1) depth
      else .next (i + 1) depth
  finish _ := none

theorem closingLoop_ends (quote : UInt8) (bs : Bytes) (i : ℕ) :
    (closingLoop quote).Ends bs i () ((closingLength? quote (bs.drop i)).map (i + ·)) := by
  apply Loop.ends_of_leadsTo fun i bs (_ : Unit) => (closingLength? quote bs).map (i + ·)
  · exact fun i s => rfl
  · intro i b rest s _
    simp only [closingLoop]
    split_ifs with hescape hquote
    · subst hescape
      apply Turn.leadsTo_next Nat.two_pos
      cases rest with
      -- nothing is escaped, and the next place lies past the end
      | nil => rfl
      | cons escaped rest =>
        rw [closingLength?_escaped]
        exact map_further i 2 _
    · rw [closingLength?_cons hescape, if_pos hquote]
      rfl
    · rw [closingLength?_cons hescape, if_neg hquote]
      exact Turn.leadsTo_next Nat.one_pos (map_further i 1 _)

theorem length_comment {d : Dialect} {bs : Bytes} {n : ℕ} (h : commentLength? d bs = some n) :
    (Lexeme.comment (bs.take n)).length = n :=
  List.length_take_of_le (commentLength?_le h)

theorem length_literal {quote : UInt8} {bs : Bytes} {n : ℕ} (h : closingLength? quote bs = some n) :
    (Lexeme.literal (quote :: bs.take n)).length = n + 1 := by
  obtain ⟨body, rest, rfl, rfl⟩ := closingLength?_some h
  simp [Lexeme.length, Lexeme.bytes]

theorem literalLoop_ends (d : Dialect) (bs : Bytes) (i : ℕ) (found : List Literal) :
    (literalLoop d).Ends bs i found (found ++ Literal.ofLexemes i (lexemes d isQuote (bs.drop i))) := by
  apply Loop.ends_of_leadsTo fun i bs found => found ++ Literal.ofLexemes i (lexemes d isQuote bs)
  · intro i found
    simp [lexemes, Literal.ofLexemes, literalLoop]
  · intro i b rest found _
    simp only [literalLoop]
    rcases lexemes_first d isQuote b rest with ⟨n, hn, heq⟩ | ⟨hn, ⟨hq, n, hc, heq⟩ | ⟨hq, hc, heq⟩ | ⟨hq, heq⟩⟩
    · rw [hn, heq]
      apply Turn.leadsTo_next (commentLength?_pos hn)
      simp only [Literal.ofLexemes, length_comment hn]
    · have hbody : (rest.take n).length = n := Nat.succ.inj (length_literal hc)
      rw [hn, if_pos hq, heq, literalLength?_cons, hc]
      apply Turn.leadsTo_next (Nat.add_one_pos n)
      simp only [Literal.ofLexemes, length_literal hc, hbody, List.append_assoc, List.singleton_append,
        List.drop_succ_cons, ← Nat.add_assoc, Nat.add_sub_cancel]
    · rw [hn, if_pos hq, heq, literalLength?_cons, hc]
      exact (List.append_nil found).symm
    · rw [hn, if_neg hq, heq]
      exact Turn.leadsTo_next Nat.one_pos rfl

theorem not_isQuote_of_comment {d : Dialect} {b : UInt8} {rest : Bytes} {n : ℕ}
    (h : commentLength? d (b :: rest) = some n) : ¬ isQuote b := by
  rcases commentLength?_some h with ⟨more, hb, -⟩ | ⟨more, hb, -⟩ | ⟨more, hb, -⟩
  all_goals
    obtain ⟨rfl, -⟩ := List.cons.inj hb
    decide

theorem maskLoop_ends (d : Dialect) (bs : Bytes) (i : ℕ) (out : Bytes) :
    (maskLoop d).Ends bs i out (out ++ (lexemes d isQuote (bs.drop i)).flatMap Lexeme.masked) := by
  apply Loop.ends_of_leadsTo fun _ bs out => out ++ (lexemes d isQuote bs).flatMap Lexeme.masked
  · intro i out
    simp [lexemes, maskLoop]
  · intro i b rest out _
    simp only [maskLoop]
    rcases lexemes_first d isQuote b rest with ⟨n, hn, heq⟩ | ⟨hn, ⟨hq, n, hc, heq⟩ | ⟨hq, hc, heq⟩ | ⟨hq, heq⟩⟩
    -- this loop looks for a quote first, while lexemes look for a comment
    · rw [if_neg (not_isQuote_of_comment hn), hn, heq]
      apply Turn.leadsTo_next (commentLength?_pos hn)
      rw [List.append_assoc]
      rfl
    · rw [if_pos hq, heq, literalLength?_cons, hc]
      apply Turn.leadsTo_next (Nat.add_one_pos n)
      rw [List.append_assoc]
      rfl
    · rw [if_pos hq, heq, literalLength?_cons, hc]
      apply Turn.leadsTo_next (Nat.add_one_pos rest.length)
      simp [lexemes, Lexeme.masked, Lexeme.bytes, blank]
    · rw [hn, if_neg hq, heq]
      apply Turn.leadsTo_next Nat.one_pos
      rw [List.append_assoc]
      rfl

theorem partnerLoop_ends (d : Dialect) (opener closer : UInt8) (bs : Bytes) (i depth : ℕ) :
    (partnerLoop d opener closer).Ends bs i depth
      ((closerOffset? opener closer depth (lexemes d isQuoteOrBackquote (bs.drop i))).map (i + ·)) := by
  apply Loop.ends_of_leadsTo fun i bs depth =>
    (closerOffset? opener closer depth (lexemes d isQuoteOrBackquote bs)).map (i + ·)
  · intro i depth
    simp [lexemes, closerOffset?, partnerLoop]
  · intro i b rest depth _
    simp only [partnerLoop]
    rcases lexemes_first d isQuoteOrBackquote b rest with
      ⟨n, hn, heq⟩ | ⟨hn, ⟨hq, n, hc, heq⟩ | ⟨hq, hc, heq⟩ | ⟨hq, heq⟩⟩
    · rw [hn, heq]
      apply Turn.leadsTo_next (commentLength?_pos hn)
      simp only [closerOffset?, length_comment hn]
      exact map_further i n _
    · rw [hn, if_pos hq, heq, literalLength?_cons, hc]
      apply Turn.leadsTo_next (Nat.add_one_pos n)
      simp only [closerOffset?, length_literal hc]
      exact map_further i (n + 1) _
    · rw [hn, if_pos hq, heq, literalLength?_cons, hc]
      rfl
    · rw [hn, if_neg hq, heq]
      simp only [closerOffset?]
      split_ifs with hopener hcloser
      · exact Turn.leadsTo_next Nat.one_pos (map_further i 1 _)
      · cases depth with
        | zero => rfl
        | succ depth => exact Turn.leadsTo_next Nat.one_pos (map_further i 1 _)
      · exact Turn.leadsTo_next Nat.one_pos (map_further i 1 _)

theorem drop_of_getElem? {bs : Bytes} {i : ℕ} {b : UInt8} (h : bs[i]? = some b) : bs.drop i = b :: bs.drop (i + 1) := by
  obtain ⟨hi, rfl⟩ := List.getElem?_eq_some_iff.mp h
  exact List.drop_eq_getElem_cons hi

theorem closingLoop_ends_literal {bs : Bytes} {i : ℕ} {quote : UInt8} (h : bs[i]? = some quote) :
    (closingLoop quote).Ends bs (i + 1) () ((literalLength? (bs.drop i)).map (i + ·)) := by
  rw [drop_of_getElem? h, literalLength?_cons, ← map_further]
  exact closingLoop_ends quote bs (i + 1)

theorem partnerLoop_ends_partner (d : Dialect) {bs : Bytes} {p : ℕ} {opener closer : UInt8} (h : bs[p]? = some opener)
    (hcloser : closer? opener = some closer) : (partnerLoop d opener closer).Ends bs (p + 1) 0 (partner? d bs p) := by
  have hresult : partner? d bs p =
      (closerOffset? opener closer 0 (lexemes d isQuoteOrBackquote (bs.drop (p + 1)))).map (p + 1 + ·) := by
    simp only [partner?, drop_of_getElem? h, partnerAfter?, hcloser, Option.bind_eq_bind, Option.bind_some,
      Nat.add_comm (p + 1)]
  rw [hresult]
  exact partnerLoop_ends d opener closer bs (p + 1) 0

end Code

namespace Blade

theorem indexOf?_le {mark bs : Bytes} (hne : mark ≠ []) {start i : ℕ} (h : indexOf? mark (bs.drop start) = some i) :
    start + i + mark.length ≤ bs.length := by
  have hmark := indexOf?_some h
  have hpos := List.length_pos_iff.mpr hne
  have hle := hmark.length_le
  rw [List.drop_drop, List.length_drop] at hle
  omega

theorem isStride_fence {f : Fence} (hf : f ∈ blockFence :: fences) {bs : Bytes} (hbs : bs ≠ []) :
    IsStride bs (f.find bs).length := by
  obtain ⟨hopening, hclosing, -⟩ := marks_solid f hf
  have hpos := List.length_pos_iff.mpr hopening
  simp only [Fence.find]
  split
  · next i hi => exact ⟨by simp only [Find.length]; omega, indexOf?_le hclosing hi⟩
  · exact ⟨List.length_pos_iff.mpr hbs, Nat.le_refl _⟩

theorem isStride_directive {name bs : Bytes} (hname : name <+: bs.drop 1) (hbs : bs ≠ []) :
    IsStride bs (directive name bs).length := by
  have hpos := List.length_pos_iff.mpr hbs
  have hend : IsStride bs (name.length + 1) := by
    have hle := hname.length_le
    rw [List.length_drop] at hle
    exact ⟨by omega, by omega⟩
  simp only [directive]
  split
  · next rest hopen =>
    split
    · next n hm =>
      have hlt := Code.partnerAfter?_lt hm
      have hlen := congrArg List.length hopen
      rw [List.length_drop, List.length_cons] at hlen
      exact ⟨by simp only [Find.length]; omega, by simp only [Find.length]; omega⟩
    · exact hend
  · split_ifs with hphp
    · rw [hphp, directiveBlock_eq]
      exact isStride_fence List.mem_cons_self hbs
    · exact hend
    · exact hend

theorem isStride_atSign (before : Option UInt8) {bs : Bytes} (hbs : bs ≠ []) :
    IsStride bs (atSignFind before bs).length := by
  have hone : IsStride bs 1 := ⟨Nat.one_pos, List.length_pos_iff.mpr hbs⟩
  simp only [atSignFind]
  split_ifs with hbefore hdouble hname
  · exact hone
  · exact ⟨Nat.two_pos, (List.getElem?_eq_some_iff.mp hdouble).1⟩
  · exact hone
  · exact isStride_directive (List.takeWhile_prefix _) hbs

theorem isStride_find (before : Option UInt8) {bs : Bytes} (hbs : bs ≠ []) : IsStride bs (findAt before bs).length := by
  unfold findAt
  split
  · next f hfind => exact isStride_fence (List.mem_cons_of_mem _ (List.mem_of_find?_eq_some hfind)) hbs
  · split_ifs
    · exact isStride_atSign before hbs
    · exact ⟨Nat.one_pos, List.length_pos_iff.mpr hbs⟩

def codeSpan? : ℕ × Find → Option Span
  | (offset, .code n _) => some ⟨offset, offset + n⟩
  | _ => none

def blockSpan? : ℕ × Find → Option Span
  | (offset, .code _ (some block)) => some (block.shift offset)
  | _ => none

def scanLoop (bs : Bytes) : Loop (List Span × List Span) Regions where
  turn i b rest found :=
    let f := findAt (bs.take i).getLast? (b :: rest)
    .next (i + f.length) (found.1 ++ (codeSpan? (i, f)).toList, found.2 ++ (blockSpan? (i, f)).toList)
  finish found := ⟨.ofSpans found.1, found.2⟩

def regionsOf (found : List Span × List Span) (more : List (ℕ × Find)) : Regions :=
  ⟨.ofSpans (found.1 ++ more.filterMap codeSpan?), found.2 ++ more.filterMap blockSpan?⟩

theorem scan_eq (bs : Bytes) : scan bs = regionsOf ([], []) (finds 0 none bs) := rfl

theorem finds_eq (offset : ℕ) (before : Option UInt8) {bs : Bytes} (hbs : bs ≠ []) :
    finds offset before bs = (offset, findAt before bs) :: finds (offset + (findAt before bs).length)
      bs[(findAt before bs).length - 1]? (bs.drop (findAt before bs).length) := by
  obtain ⟨hpos, -⟩ := isStride_find before hbs
  obtain ⟨k, hk⟩ := Nat.exists_eq_succ_of_ne_zero (Nat.ne_of_gt hpos)
  obtain ⟨b, rest, rfl⟩ := List.exists_cons_of_ne_nil hbs
  rw [finds]
  simp only [hk, Nat.succ_eq_add_one, List.drop_succ_cons, Nat.add_sub_cancel]

theorem scanLoop_ends (bs : Bytes) (i : ℕ) (found : List Span × List Span) :
    (scanLoop bs).Ends bs i found (regionsOf found (finds i (bs.take i).getLast? (bs.drop i))) := by
  apply Loop.ends_of_leadsTo fun i rest found => regionsOf found (finds i (bs.take i).getLast? rest)
  · intro i found
    simp [finds, scanLoop, regionsOf]
  · intro i b rest found hdrop
    have hbs : b :: rest ≠ [] := List.cons_ne_nil b rest
    obtain ⟨hpos, hle⟩ := isStride_find (bs.take i).getLast? hbs
    -- the byte before the next place is the last one of the find
    have hbefore : (bs.take (i + (findAt (bs.take i).getLast? (b :: rest)).length)).getLast? =
        (b :: rest)[(findAt (bs.take i).getLast? (b :: rest)).length - 1]? := by
      rw [List.take_add, hdrop, List.getLast?_append, List.getLast?_take, if_neg (by omega),
        List.getElem?_eq_getElem (by omega)]
      rfl
    apply Turn.leadsTo_next hpos
    rw [hbefore, finds_eq i _ hbs]
    simp only [regionsOf, List.filterMap_eq_flatMap_toList, List.flatMap_cons, List.append_assoc]

end Blade

theorem scans_advance_to_the_end (bs : Bytes) :
    (∀ i < bs.length,
      (∀ d n, Code.commentLength? d (bs.drop i) = some n → Advances bs i (i + n)) ∧
      (∀ n, Code.literalLength? (bs.drop i) = some n → Advances bs i (i + n)) ∧
      (∀ f ∈ Blade.fences, Advances bs i (i + (f.find (bs.drop i)).length)) ∧
      Advances bs i (i + (Blade.directiveBlock ((Blade.ascii "php").length + 1) (bs.drop i)).length) ∧
      (∀ name, name <+: bs.drop (i + 1) → Advances bs i (i + (Blade.directive name (bs.drop i)).length)) ∧
      (∀ before, Advances bs i (i + (Blade.atSignFind before (bs.drop i)).length)) ∧
      ∀ before, Advances bs i (i + (Blade.findAt before (bs.drop i)).length)) ∧
    (∀ i quote, bs[i]? = some quote →
      (Code.closingLoop quote).Ends bs (i + 1) () ((Code.literalLength? (bs.drop i)).map (i + ·))) ∧
    (∀ d p opener closer, bs[p]? = some opener → Code.closer? opener = some closer →
      (Code.partnerLoop d opener closer).Ends bs (p + 1) 0 (Code.partner? d bs p)) ∧
    (∀ d s, (Code.literalLoop d).Ends (bs.take s.stop) s.start [] (Code.literals d bs s) ∧
      (Code.maskLoop d).Ends (bs.take s.stop) s.start [] (Code.mask d bs s)) ∧
    (Blade.scanLoop bs).Ends bs 0 ([], []) (Blade.scan bs) := by
  refine ⟨?_, ?_, ?_, ?_, ?_⟩
  · intro i hi
    have hbs : bs.drop i ≠ [] := by simpa using hi
    refine ⟨?_, ?_, ?_, ?_, ?_, ?_, ?_⟩
    · intro d n hn
      exact (Code.isStride_comment hn).advances
    · intro n hn
      exact (Code.isStride_literal hn).advances
    · intro f hf
      exact (Blade.isStride_fence (List.mem_cons_of_mem _ hf) hbs).advances
    · rw [Blade.directiveBlock_eq]
      exact (Blade.isStride_fence List.mem_cons_self hbs).advances
    · intro name hname
      rw [← List.drop_drop] at hname
      exact (Blade.isStride_directive hname hbs).advances
    · intro before
      exact (Blade.isStride_atSign before hbs).advances
    · intro before
      exact (Blade.isStride_find before hbs).advances
  · intro i quote hquote
    exact Code.closingLoop_ends_literal hquote
  · intro d p opener closer hopener hcloser
    exact Code.partnerLoop_ends_partner d hopener hcloser
  · intro d s
    exact ⟨Code.literalLoop_ends d (bs.take s.stop) s.start [], Code.maskLoop_ends d (bs.take s.stop) s.start []⟩
  · rw [Blade.scan_eq]
    exact Blade.scanLoop_ends bs 0 ([], [])

def truncated : Bytes := utf8 "@a(''/*\x7b\x7b".toList

theorem scans_advance_to_the_end_truncated :
    (Code.commentLength? .js (truncated.drop 5) = some 4 ∧ Advances truncated 5 9) ∧
      (Code.literalLength? (truncated.drop 3) = some 2 ∧ Advances truncated 3 5) ∧
      (∃ f ∈ Blade.fences, f.find (truncated.drop 7) = .code 2 none ∧ Advances truncated 7 9) ∧
      ([0x61] <+: truncated.drop 1 ∧ Blade.directive [0x61] (truncated.drop 0) = .code 2 none ∧ Advances truncated 0 2) ∧
      (truncated[4]? = some 0x27 ∧ (Code.closingLoop 0x27).run truncated 4 5 () = some none) ∧
      (truncated[2]? = some 0x28 ∧ (Code.partnerLoop .js 0x28 0x29).run truncated 6 3 0 = some none) ∧
      (Code.literalLoop .js).run (truncated.take 9) 9 0 [] = some [⟨0x27, ⟨4, 4⟩⟩] ∧
      (Blade.scanLoop truncated).run truncated 9 0 ([], []) = some (Blade.scan truncated) := by
  have hlength : truncated.length = 9 := by decide +kernel
  have hcomment : Code.commentLength? .js (truncated.drop 5) = some 4 := by decide +kernel
  have hliteral : Code.literalLength? (truncated.drop 3) = some 2 := by decide +kernel
  obtain ⟨f, hf, hfence⟩ : ∃ f ∈ Blade.fences, f.find (truncated.drop 7) = .code 2 none :=
    ⟨⟨Blade.ascii "\x7b\x7b", Blade.ascii "\x7d\x7d", false⟩, by simp [Blade.fences], by decide +kernel⟩
  have hname : [0x61] <+: truncated.drop 1 := by decide +kernel
  have hdirective : Blade.directive [0x61] (truncated.drop 0) = .code 2 none := by decide +kernel
  have hquote : truncated[4]? = some 0x27 := by decide +kernel
  have hopener : truncated[2]? = some 0x28 := by decide +kernel
  have hunclosed : Code.literalLength? (truncated.drop 4) = none := by decide +kernel
  have hunmatched : Code.partner? .js truncated 2 = none := by decide +kernel
  have hliterals : Code.literals .js truncated ⟨0, 9⟩ = [⟨0x27, ⟨4, 4⟩⟩] := by decide +kernel
  obtain ⟨hplaces, hclosing, hpartner, hcode, hscan⟩ := scans_advance_to_the_end truncated
  have hfenced := (hplaces 7 (by omega)).2.2.1 f hf
  have hdirected := (hplaces 0 (by omega)).2.2.2.2.1 [0x61] hname
  have hstring := hclosing 4 0x27 hquote 4 (by omega)
  have hsearch := hpartner .js 2 0x28 0x29 hopener rfl 6 (by omega)
  have hfound := (hcode .js ⟨0, 9⟩).1 9 (by simp [hlength])
  rw [hfence] at hfenced
  rw [hdirective] at hdirected
  rw [hunclosed] at hstring
  rw [hunmatched] at hsearch
  rw [hliterals] at hfound
  exact ⟨⟨hcomment, (hplaces 5 (by omega)).1 .js 4 hcomment⟩, ⟨hliteral, (hplaces 3 (by omega)).2.1 2 hliteral⟩,
    ⟨f, hf, hfence, hfenced⟩, ⟨hname, hdirective, hdirected⟩, ⟨hquote, hstring⟩, ⟨hopener, hsearch⟩, hfound,
    hscan 9 (by omega)⟩

end VisibleText
