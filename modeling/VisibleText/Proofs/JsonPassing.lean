import VisibleText.Proofs.JsonSpelling

/-!
Passing over values. What is not asked for is passed over without being read: every well-formed value, of any shape and
nested to any depth. The loop that does so keeps the lists and objects that are open on a stack.
-/
namespace VisibleText.Json.Reader

variable {s t rest : Bytes}

def Skips (text : Bytes) : Prop :=
  ∀ t rest, (∀ fuel, t.length < fuel → Reads (passString fuel) t () rest) →
    ∀ fuel, (text ++ t).length < fuel → Reads (passString fuel) (text ++ t) () rest

theorem skips_nil : Skips [] := fun _ _ h => h

theorem Skips.append {text more : Bytes} (h : Skips text) (hmore : Skips more) : Skips (text ++ more) := by
  intro t rest hrest fuel hfuel
  rw [List.append_assoc] at hfuel ⊢
  apply h (more ++ t) rest ?_ fuel hfuel
  exact hmore t rest hrest

theorem skips_byte {b : UInt8} (hquote : b ≠ byte '"') (hslash : b ≠ byte '\\') (hcontrol : ¬ b < 0x20) : Skips [b] := by
  intro t rest hrest fuel hfuel
  obtain ⟨fuel, rfl⟩ : ∃ k, fuel = k + 1 := ⟨fuel - 1, by omega⟩
  rw [passString]
  refine Reads.look (reads_peek _) ?_
  have hquote' : (b == byte '"') = false := by simpa using hquote
  have hslash' : (b == byte '\\') = false := by simpa using hslash
  simp only [List.cons_append, List.head?_cons, hquote', hslash', hcontrol, if_false, Bool.false_eq_true]
  refine Reads.bind (s := [b]) (reads_one b _) ?_
  apply hrest
  simp only [List.length_append, List.length_singleton] at hfuel
  omega

theorem skips_bytes {bs : Bytes} (h : ∀ b ∈ bs, b ≠ byte '"' ∧ b ≠ byte '\\' ∧ ¬ b < 0x20) : Skips bs := by
  induction bs with
  | nil => exact skips_nil
  | cons b bs ih =>
    rw [List.forall_mem_cons] at h
    exact Skips.append (skips_byte h.1.1 h.1.2.1 h.1.2.2) (ih h.2)

theorem skips_short {letter : UInt8} (hletter : letter ≠ byte 'u') (h : (simpleEscape? letter).isSome = true) :
    Skips [byte '\\', letter] := by
  intro t rest hrest fuel hfuel
  obtain ⟨fuel, rfl⟩ : ∃ k, fuel = k + 1 := ⟨fuel - 1, by omega⟩
  rw [passString]
  refine Reads.look (reads_peek _) ?_
  refine Reads.bind (s := [byte '\\']) (reads_one (byte '\\') _) ?_
  refine Reads.bind (s := [letter]) (reads_next letter _) ?_
  have hletter' : (letter == byte 'u') = false := by simpa using hletter
  simp only [hletter', ← Option.not_isSome, h, Bool.not_true, if_false, Bool.false_eq_true]
  apply hrest
  simp only [List.length_append, List.length_cons] at hfuel
  omega

theorem skips_code {four : List Char} (hlength : four.length = 4) (hdigits : ∀ c ∈ four, IsHex c) :
    Skips (byte '\\' :: byte 'u' :: utf8 four) := by
  intro t rest hrest fuel hfuel
  obtain ⟨fuel, rfl⟩ : ∃ k, fuel = k + 1 := ⟨fuel - 1, by omega⟩
  rw [passString]
  refine Reads.look (reads_peek _) ?_
  refine Reads.bind (s := [byte '\\']) (reads_one (byte '\\') _) ?_
  refine Reads.bind (s := [byte 'u']) (reads_next (byte 'u') _) ?_
  refine Reads.bind (reads_spelledCode ⟨hlength, hdigits, rfl⟩ _) ?_
  apply hrest
  simp only [List.length_append, List.length_cons] at hfuel
  omega

theorem skips_piece {piece : List Char} (h : IsPiece piece) : Skips (utf8 piece) := by
  cases h with
  | plain hcontrol hquote hslash => exact skips_bytes (bytes_unescaped hquote hslash (by omega))
  | @short c h =>
    have hall : ("\"\\/bfnrt".toList.all fun c =>
        decide (c.toNat < 128) && byte c != byte 'u' && (simpleEscape? (byte c)).isSome) = true := by
      decide
    have hletter := List.all_eq_true.mp hall c h
    simp only [Bool.and_eq_true, decide_eq_true_eq, bne_iff_ne] at hletter
    obtain ⟨⟨hascii, hletter⟩, hescape⟩ := hletter
    rw [utf8_cons_ascii (by decide), utf8_cons_ascii hascii]
    exact skips_short hletter hescape
  | @code a b c d ha hb hc hd =>
    rw [utf8_cons_ascii (by decide), utf8_cons_ascii (by decide)]
    apply skips_code rfl
    simp only [List.forall_mem_cons, List.not_mem_nil, false_imp_iff, implies_true, and_true]
    exact ⟨ha, hb, hc, hd⟩

theorem reads_passString {pieces : List (List Char)} (h : ∀ piece ∈ pieces, IsPiece piece) (rest : Bytes) {fuel : ℕ}
    (hfuel : (utf8 pieces.flatten ++ [byte '"']).length < fuel) :
    Reads (passString fuel) (utf8 pieces.flatten ++ [byte '"']) () rest := by
  have hskips : Skips (utf8 pieces.flatten) := by
    clear hfuel
    induction pieces with
    | nil => exact skips_nil
    | cons piece pieces ih =>
      rw [List.forall_mem_cons] at h
      rw [List.flatten_cons, utf8_append]
      exact (skips_piece h.1).append (ih h.2)
  refine hskips _ rest ?_ fuel hfuel
  intro fuel hfuel
  obtain ⟨fuel, rfl⟩ : ∃ k, fuel = k + 1 := ⟨fuel - 1, by omega⟩
  rw [passString]
  refine Reads.look (reads_peek _) ?_
  exact reads_one (byte '"') rest

theorem reads_digitRun (hs : ∀ b ∈ s, isDigit b = true) (hrest : rest.head?.any isDigit = false) :
    Reads digits s s rest := by
  have hstop : ∀ b ∈ rest.head?, isDigit b = false := by
    intro b hb
    rwa [Option.mem_def.mp hb, Option.any_some] at hrest
  rw [digits]
  apply Reads.get
  intro offset
  dsimp only
  rw [takeWhile_run hs hstop]
  exact Reads.after (reads_drop s rest) (Reads.pure s rest)

def passPower : Reader Unit := do
  match ← next with
  | some b => if isDigit b then let _ ← digits else fail .invalidNumber
  | none => fail .invalidNumber

theorem passExponent_eq : passExponent = (do
    drop 1
    match ← peek with
    | some 0x2B => drop 1
    | some 0x2D => drop 1
    | _ => pure ()
    passPower) := rfl

theorem reads_passPower {ds : List Char} (h : AreDigits ds) (hrest : Breaks rest) : Reads passPower (utf8 ds) () rest := by
  obtain ⟨c, cs, -, htext, hc, hcs, -⟩ := utf8_areDigits h
  rw [htext, passPower]
  refine Reads.bind (s := [byte c]) (reads_next (byte c) _) ?_
  simp only [hc, if_true]
  exact Reads.after (reads_digitRun hcs hrest.head?.1) (Reads.pure () rest)

theorem reads_passExponent {e : Char} {sign ds : List Char} (he : e = 'e' ∨ e = 'E') (hsign : sign ∈ [[], ['+'], ['-']])
    (h : AreDigits ds) (hrest : Breaks rest) : Reads passExponent (utf8 (e :: sign ++ ds)) () rest := by
  have hletter : e.toNat < 128 := by rcases he with rfl | rfl <;> decide
  have hpower := reads_passPower h hrest
  rw [List.cons_append, utf8_cons_ascii hletter, passExponent_eq]
  refine Reads.bind (s := [byte e]) (t := utf8 (sign ++ ds)) (reads_one (byte e) _) ?_
  simp only [List.mem_cons, List.not_mem_nil, or_false] at hsign
  rcases hsign with rfl | rfl | rfl
  · obtain ⟨c, cs, -, htext, hc, -⟩ := utf8_areDigits h
    rw [List.nil_append]
    rw [htext] at hpower ⊢
    refine Reads.look (reads_peek _) ?_
    rw [List.cons_append, List.head?_cons]
    split
    · next h => exact absurd hc (by rw [Option.some.inj h]; decide)
    · next h => exact absurd hc (by rw [Option.some.inj h]; decide)
    · exact hpower
  · rw [List.singleton_append, utf8_cons_ascii (by decide)]
    refine Reads.look (reads_peek _) ?_
    exact Reads.bind (s := [byte '+']) (reads_one (byte '+') _) hpower
  · rw [List.singleton_append, utf8_cons_ascii (by decide)]
    refine Reads.look (reads_peek _) ?_
    exact Reads.bind (s := [byte '-']) (reads_one (byte '-') _) hpower

def passScale : Reader Unit := do
  match ← peek with
  | some 0x65 => passExponent
  | some 0x45 => passExponent
  | _ => pure ()

theorem reads_passScale {exponent : List Char} (h : IsExponent exponent) (hrest : Breaks rest) :
    Reads passScale (utf8 exponent) () rest := by
  obtain ⟨-, -, hsmall, hlarge⟩ := hrest.head?
  rw [passScale]
  cases h with
  | none =>
    refine Reads.look (reads_peek _) ?_
    split
    · exact absurd ‹_› hsmall
    · exact absurd ‹_› hlarge
    · exact Reads.pure () rest
  | some he hsign h =>
    have hexponent := reads_passExponent he hsign h hrest
    refine Reads.look (reads_peek _) ?_
    rcases he with rfl | rfl
    · exact hexponent
    · exact hexponent

def passFraction : Reader Unit := do
  match ← peek with
  | some 0x2E =>
    drop 1
    if (← digits).isEmpty then failNext .invalidNumber
    passScale
  | some 0x65 => passExponent
  | some 0x45 => passExponent
  | _ => pure ()

theorem passNumber_eq : passNumber = (do
    match ← next with
    | none => fail .invalidNumber
    | some b =>
      if b == 0x30 then
        if (← peek).any isDigit then failNext .invalidNumber
      else if isDigit b then
        let _ ← digits
      else fail .invalidNumber
    passFraction) := rfl

theorem reads_passFraction {fraction exponent : List Char} (hfraction : IsFraction fraction)
    (hexponent : IsExponent exponent) (hrest : Breaks rest) :
    Reads passFraction (utf8 (fraction ++ exponent)) () rest := by
  have hscale := reads_passScale hexponent hrest
  rw [passFraction]
  cases hfraction with
  | none =>
    -- without a point, an exponent follows at once or nothing does
    rw [List.nil_append]
    cases hexponent with
    | none =>
      obtain ⟨-, hpoint, hsmall, hlarge⟩ := hrest.head?
      refine Reads.look (reads_peek _) ?_
      split
      · exact absurd ‹_› hpoint
      · exact absurd ‹_› hsmall
      · exact absurd ‹_› hlarge
      · exact Reads.pure () rest
    | some he hsign h =>
      have hpass := reads_passExponent he hsign h hrest
      refine Reads.look (reads_peek _) ?_
      rcases he with rfl | rfl
      · exact hpass
      · exact hpass
  | @some ds h =>
    obtain ⟨c, cs, -, htext, hc, hcs, -⟩ := utf8_areDigits h
    have hstop : ((utf8 exponent ++ rest).head?.any isDigit) = false := by
      cases hexponent with
      | none => exact hrest.head?.1
      | some he =>
        rcases he with rfl | rfl
        · rfl
        · rfl
    have hall : ∀ d ∈ byte c :: cs.map byte, isDigit d = true := List.forall_mem_cons.mpr ⟨hc, hcs⟩
    rw [List.cons_append, utf8_cons_ascii (by decide), utf8_append, htext]
    refine Reads.look (reads_peek _) ?_
    refine Reads.bind (s := [byte '.']) (t := (byte c :: cs.map byte) ++ utf8 exponent) (reads_one (byte '.') _) ?_
    refine Reads.bind (reads_digitRun hall hstop) ?_
    exact hscale

theorem reads_passNumber {integer fraction exponent : List Char} (hinteger : IsInteger integer)
    (hfraction : IsFraction fraction) (hexponent : IsExponent exponent) (hrest : Breaks rest) :
    Reads passNumber (utf8 (integer ++ (fraction ++ exponent))) () rest := by
  have htail := reads_passFraction hfraction hexponent hrest
  have hstop : ((utf8 (fraction ++ exponent) ++ rest).head?.any isDigit) = false := by
    cases hfraction with
    | some h => rfl
    | none =>
      cases hexponent with
      | none => exact hrest.head?.1
      | some he =>
        rcases he with rfl | rfl
        · rfl
        · rfl
  obtain ⟨hdigits, hzero⟩ := hinteger
  rw [passNumber_eq, utf8_append]
  by_cases hfirst : integer.head? = some '0'
  · rw [hzero hfirst]
    refine Reads.bind (s := [0x30]) (reads_next 0x30 _) ?_
    refine Reads.look (reads_peek _) ?_
    rw [hstop]
    exact htail
  · obtain ⟨c, cs, -, htext, hc, hcs, hhead⟩ := utf8_areDigits hdigits
    have hnonzero : (byte c == 0x30) = false := beq_eq_false_iff_ne.mpr fun hb => hfirst (hhead hb)
    rw [htext]
    refine Reads.bind (s := [byte c]) (t := cs.map byte ++ utf8 (fraction ++ exponent)) (reads_next (byte c) _) ?_
    simp only [hnonzero, hc, if_true, if_false, Bool.false_eq_true]
    exact Reads.bind (reads_digitRun hcs hstop) htail

def closing (isObject : Bool) : UInt8 := byte (if isObject then '\x7d' else ']')

theorem isSpace_closing (isObject : Bool) : isSpace (closing isObject) = false := by cases isObject <;> decide

theorem isNumeric_closing (isObject : Bool) : isNumeric (closing isObject) = false := by cases isObject <;> decide

def passHead : Reader (Option Bool) := do
  match ← skipSpace with
  | none => fail .endOfValue
  | some b =>
    if b == byte 'n' then drop 1; word "ull".toList; pure none
    else if b == byte 't' then drop 1; word "rue".toList; pure none
    else if b == byte 'f' then drop 1; word "alse".toList; pure none
    else if b == byte '-' then drop 1; passNumber; pure none
    else if isDigit b then passNumber; pure none
    else if b == byte '"' then drop 1; passString ((← get).rest.length + 1); pure none
    else if b == byte '[' then drop 1; pure (some false)
    else if b == byte '\x7b' then drop 1; pure (some true)
    else failNext .expectedValue

def passEntry (fuel : ℕ) : List Bool → Reader Unit
  | [] => return ()
  | isObject :: outer => do
    if isObject then passKey
    passValues fuel (isObject :: outer)

def passBehind (fuel : ℕ) (opened : List Bool) : Reader Unit := closeOpen opened false >>= passEntry fuel

theorem passHead_bind {β : Type} (k : Option Bool → Reader β) : passHead >>= k = (do
    let here ← match ← skipSpace with
      | none => fail .endOfValue
      | some b =>
        if b == byte 'n' then drop 1; word "ull".toList; pure none
        else if b == byte 't' then drop 1; word "rue".toList; pure none
        else if b == byte 'f' then drop 1; word "alse".toList; pure none
        else if b == byte '-' then drop 1; passNumber; pure none
        else if isDigit b then passNumber; pure none
        else if b == byte '"' then drop 1; passString ((← get).rest.length + 1); pure none
        else if b == byte '[' then drop 1; pure (some false)
        else if b == byte '\x7b' then drop 1; pure (some true)
        else failNext .expectedValue
    k here) := by
  rw [passHead, bind_assoc]
  apply bind_congr
  intro b
  cases b with
  | none => rfl
  | some b =>
    dsimp only
    split_ifs <;> simp only [bind_assoc]

theorem passValues_eq (fuel : ℕ) (opened : List Bool) : passValues (fuel + 1) opened = (do
    match ← passHead with
    | some isObject => closeOpen (isObject :: opened) true >>= passEntry fuel
    | none => passBehind fuel opened) := by
  have hentry : passEntry fuel = (fun left => match left with
      | [] => pure ()
      | isObject :: _ => do
        if isObject then passKey
        passValues fuel left) := by
    funext left
    cases left <;> rfl
  rw [passHead_bind, passBehind, hentry]
  rfl

theorem reads_passHead_word {cs : List Char} (h : cs ∈ ["null".toList, "true".toList, "false".toList]) (hs : AreSpaces s)
    (rest : Bytes) : Reads passHead (s ++ utf8 cs) none rest := by
  rw [passHead]
  simp only [List.mem_cons, List.not_mem_nil, or_false] at h
  rcases h with rfl | rfl | rfl
  · refine Reads.bind (reads_skipSpace hs (isSpace_head (b := byte 'n') (by decide) _)) ?_
    exact reads_symbol (byte 'n') (by decide) none rest
  · refine Reads.bind (reads_skipSpace hs (isSpace_head (b := byte 't') (by decide) _)) ?_
    exact reads_symbol (byte 't') (by decide) none rest
  · refine Reads.bind (reads_skipSpace hs (isSpace_head (b := byte 'f') (by decide) _)) ?_
    exact reads_symbol (byte 'f') (by decide) none rest

theorem digit_ne {b : UInt8} (hb : isDigit b = true) (c : Char) (hc : isDigit (byte c) = false) :
    (b == byte c) = false := by
  rw [beq_eq_false_iff_ne]
  rintro rfl
  rw [hb] at hc
  cases hc

theorem reads_passHead_number {cs : List Char} (h : IsNumber cs) (hs : AreSpaces s) (hrest : Breaks rest) :
    Reads passHead (s ++ utf8 cs) none rest := by
  obtain ⟨hsign, hinteger, hfraction, hexponent⟩ := h
  have hnumber := reads_passNumber hinteger hfraction hexponent hrest
  rw [passHead]
  simp only [List.mem_cons, List.not_mem_nil, or_false] at hsign
  rcases hsign with rfl | rfl
  · obtain ⟨c, cs, -, htext, hc, -⟩ := utf8_areDigits hinteger.1
    rw [List.nil_append, List.append_assoc]
    rw [utf8_append, htext, List.cons_append] at hnumber ⊢
    refine Reads.bind (reads_skipSpace hs (isSpace_head (isSpace_of_isDigit hc) _)) ?_
    simp only [List.cons_append, List.head?_cons, digit_ne hc 'n' (by decide), digit_ne hc 't' (by decide),
      digit_ne hc 'f' (by decide), digit_ne hc '-' (by decide), hc, if_true, if_false, Bool.false_eq_true]
    exact Reads.after hnumber (Reads.pure none rest)
  · rw [List.append_assoc, List.append_assoc, List.singleton_append, utf8_cons_ascii (by decide)]
    refine Reads.bind (reads_skipSpace hs (isSpace_head (b := byte '-') (by decide) _)) ?_
    refine Reads.bind (s := [byte '-']) (reads_one (byte '-') _) ?_
    exact Reads.after hnumber (Reads.pure none rest)

theorem reads_passQuoted {β : Type} {f : Reader β} {b : β} {pieces : List (List Char)}
    (h : ∀ piece ∈ pieces, IsPiece piece) (hf : Reads f t b rest) :
    Reads (do
      passString ((← get).rest.length + 1)
      f) ((utf8 pieces.flatten ++ [byte '"']) ++ t) b rest := by
  apply Reads.get
  intro offset
  refine Reads.bind (reads_passString h _ ?_) hf
  simp only [List.length_append]
  omega

theorem reads_passHead_string {cs : List Char} (h : IsString cs) (hs : AreSpaces s) (rest : Bytes) :
    Reads passHead (s ++ utf8 cs) none rest := by
  obtain ⟨hpieces⟩ := h
  rw [passHead, utf8_brackets '"' '"' (by decide) (by decide)]
  refine Reads.bind (reads_skipSpace hs (isSpace_head (b := byte '"') (by decide) _)) ?_
  refine Reads.bind (s := [byte '"']) (reads_one (byte '"') _) ?_
  have hquoted := reads_passQuoted hpieces (Reads.pure (none : Option Bool) rest)
  rwa [List.append_nil] at hquoted

theorem reads_passHead_open (isObject : Bool) (hs : AreSpaces s) (rest : Bytes) :
    Reads passHead (s ++ [byte (if isObject then '\x7b' else '[')]) (some isObject) rest := by
  rw [passHead]
  cases isObject with
  | false =>
    refine Reads.bind (reads_skipSpace hs (isSpace_head (b := byte '[') (by decide) _)) ?_
    exact Reads.after (reads_one (byte '[') rest) (Reads.pure (some false) rest)
  | true =>
    refine Reads.bind (reads_skipSpace hs (isSpace_head (b := byte '\x7b') (by decide) _)) ?_
    exact Reads.after (reads_one (byte '\x7b') rest) (Reads.pure (some true) rest)

theorem reads_passKey {key between : List Char} (hkey : IsString key) (hs : AreSpaces s) (hbetween : IsBlank between)
    (rest : Bytes) : Reads passKey (s ++ utf8 (key ++ between ++ [':'])) () rest := by
  obtain ⟨hpieces⟩ := hkey
  have hcolon : Reads (do
      match ← skipSpace with
      | none => fail .endOfObject
      | some b => if b == byte ':' then drop 1 else failNext .expectedColon) (utf8 between ++ [byte ':']) () rest := by
    refine Reads.bind (reads_skipSpace (areSpaces_utf8 hbetween) (isSpace_head (b := byte ':') (by decide) _)) ?_
    exact reads_one (byte ':') rest
  rw [passKey, utf8_append, utf8_append, utf8_brackets '"' '"' (by decide) (by decide), List.append_assoc]
  refine Reads.bind (reads_skipSpace hs (isSpace_head (b := byte '"') (by decide) _)) ?_
  refine Reads.bind (s := [byte '"']) (reads_one (byte '"') _) ?_
  exact reads_passQuoted hpieces hcolon

theorem reads_close (isObject fresh : Bool) {outer : List Bool} {fuel : ℕ} (hs : AreSpaces s)
    (h : Reads (passBehind fuel outer) t () rest) :
    Reads (closeOpen (isObject :: outer) fresh >>= passEntry fuel) (s ++ closing isObject :: t) () rest := by
  rw [closeOpen, bind_assoc]
  refine Reads.bind (reads_skipSpace hs (isSpace_head (isSpace_closing isObject) _)) ?_
  have hclosing : (closing isObject == byte (if isObject then '\x7d' else ']')) = true := beq_self_eq_true _
  simp only [List.cons_append, List.head?_cons, hclosing, if_true, bind_assoc]
  exact Reads.bind (s := [closing isObject]) (reads_one _ _) h

theorem reads_comma (isObject : Bool) {outer : List Bool} {fuel : ℕ} (hs : AreSpaces s)
    (h : Reads (passEntry fuel (isObject :: outer)) t () rest) :
    Reads (passBehind fuel (isObject :: outer)) (s ++ byte ',' :: t) () rest := by
  rw [passBehind, closeOpen, bind_assoc]
  refine Reads.bind (reads_skipSpace hs (isSpace_head (b := byte ',') (by decide) _)) ?_
  have hclosing : (byte ',' == byte (if isObject then '\x7d' else ']')) = false := by cases isObject <;> decide
  simp only [List.cons_append, List.head?_cons, hclosing, if_false, Bool.false_eq_true, beq_self_eq_true, if_true, bind_assoc,
    pure_bind]
  exact Reads.bind (s := [byte ',']) (reads_one _ _) h

theorem reads_fresh (isObject : Bool) {outer : List Bool} {fuel : ℕ} (hs : AreSpaces s) (hstart : Starts (closing isObject) t)
    (h : Reads (passEntry fuel (isObject :: outer)) t () rest) :
    Reads (closeOpen (isObject :: outer) true >>= passEntry fuel) (s ++ t) () rest := by
  obtain ⟨b, bs, rfl, hb, hstop⟩ := hstart
  rw [closeOpen, bind_assoc]
  refine Reads.bind (reads_skipSpace hs (isSpace_head hb _)) ?_
  have hclosing : (b == byte (if isObject then '\x7d' else ']')) = false := beq_eq_false_iff_ne.mpr hstop
  simp only [List.cons_append, List.head?_cons, hclosing, if_false, Bool.false_eq_true, if_true, pure_bind]
  exact h

/-- A value is passed over wherever it stands: the loop goes on with what is behind it. -/
structure Passes (v : List Char) : Prop where
  starts : ∀ isObject, Starts (closing isObject) (utf8 v)
  passes : ∀ {opened : List Bool} {s t rest : Bytes}, AreSpaces s → Breaks (t ++ rest) →
    (∀ fuel, t.length < fuel → Reads (passBehind fuel opened) t () rest) →
    ∀ fuel, (utf8 v ++ t).length < fuel → Reads (passValues fuel opened) (s ++ (utf8 v ++ t)) () rest

structure PassesEntry (isObject : Bool) (entry : List Char) : Prop where
  starts : Starts (closing isObject) (utf8 entry)
  passes : ∀ {outer : List Bool} {s t rest : Bytes}, AreSpaces s → Breaks (t ++ rest) →
    (∀ fuel, t.length < fuel → Reads (passBehind fuel (isObject :: outer)) t () rest) →
    ∀ fuel, (utf8 entry ++ t).length < fuel → Reads (passEntry fuel (isObject :: outer)) (s ++ (utf8 entry ++ t)) () rest

/-- The same for all entries of a list or an object, through the mark that closes it. The blanks before the first entry are
set apart, for they are passed over when the list or object is opened. -/
def PassesAll (isObject : Bool) (text : List Char) : Prop :=
  ∃ before tail, text = before ++ tail ∧ IsBlank before ∧ Starts (closing isObject) (utf8 tail) ∧
    ∀ {outer : List Bool} {s t rest : Bytes}, AreSpaces s →
      (∀ fuel, t.length < fuel → Reads (passBehind fuel outer) t () rest) →
      ∀ fuel, (utf8 tail ++ closing isObject :: t).length < fuel →
        Reads (passEntry fuel (isObject :: outer)) (s ++ (utf8 tail ++ closing isObject :: t)) () rest

theorem Starts.append {stop : UInt8} {text : Bytes} (h : Starts stop text) (more : Bytes) : Starts stop (text ++ more) := by
  obtain ⟨b, bs, rfl, hb, hstop⟩ := h
  exact ⟨b, bs ++ more, rfl, hb, hstop⟩

theorem passes_scalar {v : List Char} (hstarts : ∀ isObject, Starts (closing isObject) (utf8 v))
    (hhead : ∀ {s rest : Bytes}, AreSpaces s → Breaks rest → Reads passHead (s ++ utf8 v) none rest) : Passes v := by
  refine ⟨hstarts, ?_⟩
  intro opened s t rest hs hbreaks hbehind fuel hfuel
  obtain ⟨b, bs, htext, -⟩ := hstarts true
  obtain ⟨fuel, rfl⟩ : ∃ k, fuel = k + 1 := ⟨fuel - 1, by omega⟩
  rw [passValues_eq, ← List.append_assoc]
  refine Reads.bind (hhead hs hbreaks) (hbehind fuel ?_)
  rw [htext, List.length_append, List.length_cons] at hfuel
  omega

theorem starts_open (isObject stop : Bool) (text : Bytes) :
    Starts (closing stop) (byte (if isObject then '\x7b' else '[') :: text) := by
  refine ⟨_, _, rfl, ?_, ?_⟩
  · cases isObject <;> decide
  · cases isObject <;> cases stop <;> decide

theorem utf8_bracketed (isObject : Bool) (inner : List Char) :
    utf8 ((if isObject then '\x7b' else '[') :: inner ++ [if isObject then '\x7d' else ']']) =
      byte (if isObject then '\x7b' else '[') :: (utf8 inner ++ [closing isObject]) := by
  cases isObject
  · exact utf8_brackets '[' ']' (by decide) (by decide) inner
  · exact utf8_brackets '\x7b' '\x7d' (by decide) (by decide) inner

theorem passes_bracketed (isObject : Bool) {inner : List Char}
    (h : ∀ {outer : List Bool} {t rest : Bytes}, (∀ fuel, t.length < fuel → Reads (passBehind fuel outer) t () rest) →
      ∀ fuel, (utf8 inner ++ closing isObject :: t).length < fuel →
        Reads (closeOpen (isObject :: outer) true >>= passEntry fuel) (utf8 inner ++ closing isObject :: t) () rest) :
    Passes ((if isObject then '\x7b' else '[') :: inner ++ [if isObject then '\x7d' else ']']) := by
  refine ⟨?_, ?_⟩
  · intro stop
    rw [utf8_bracketed]
    exact starts_open isObject stop _
  · intro opened s t rest hs _ hbehind fuel hfuel
    obtain ⟨fuel, rfl⟩ : ∃ k, fuel = k + 1 := ⟨fuel - 1, by omega⟩
    have htext : ∀ t : Bytes, utf8 ((if isObject then '\x7b' else '[') :: inner ++ [if isObject then '\x7d' else ']']) ++ t =
        [byte (if isObject then '\x7b' else '[')] ++ (utf8 inner ++ closing isObject :: t) := by
      intro t
      rw [utf8_bracketed]
      simp only [List.cons_append, List.append_assoc, List.nil_append]
    rw [htext, List.singleton_append, List.length_cons] at hfuel
    rw [passValues_eq, htext, ← List.append_assoc]
    exact Reads.bind (reads_passHead_open isObject hs _) (h hbehind fuel (by omega))

theorem passes_empty (isObject : Bool) {blank : List Char} (hblank : IsBlank blank) :
    Passes ((if isObject then '\x7b' else '[') :: blank ++ [if isObject then '\x7d' else ']']) := by
  apply passes_bracketed
  intro outer t rest hbehind fuel hfuel
  refine reads_close isObject true (areSpaces_utf8 hblank) (hbehind fuel ?_)
  rw [List.length_append, List.length_cons] at hfuel
  omega

theorem passes_entries (isObject : Bool) {inner : List Char} (h : PassesAll isObject inner) :
    Passes ((if isObject then '\x7b' else '[') :: inner ++ [if isObject then '\x7d' else ']']) := by
  obtain ⟨before, tail, rfl, hbefore, hstarts, hall⟩ := h
  apply passes_bracketed
  intro outer t rest hbehind fuel hfuel
  rw [utf8_append, List.append_assoc] at hfuel ⊢
  refine reads_fresh isObject (areSpaces_utf8 hbefore) (hstarts.append _) ?_
  refine hall areSpaces_nil hbehind fuel ?_
  rw [List.length_append] at hfuel
  omega

theorem PassesEntry.last {isObject : Bool} {before entry after : List Char} (h : PassesEntry isObject entry)
    (hbefore : IsBlank before) (hafter : IsBlank after) : PassesAll isObject (before ++ entry ++ after) := by
  refine ⟨before, entry ++ after, List.append_assoc .., hbefore, ?_, ?_⟩
  · rw [utf8_append]
    exact h.starts.append _
  · intro outer s t rest hs hbehind fuel hfuel
    rw [utf8_append, List.append_assoc] at hfuel ⊢
    refine h.passes hs ?_ ?_ fuel hfuel
    · rw [List.append_assoc]
      exact breaks_spaces (areSpaces_utf8 hafter) (isNumeric_closing isObject) _
    · intro fuel hfuel
      refine reads_close isObject false (areSpaces_utf8 hafter) (hbehind fuel ?_)
      rw [List.length_append, List.length_cons] at hfuel
      omega

theorem PassesEntry.more {isObject : Bool} {before entry after rest : List Char} (h : PassesEntry isObject entry)
    (hbefore : IsBlank before) (hafter : IsBlank after) (hrest : PassesAll isObject rest) :
    PassesAll isObject (before ++ entry ++ after ++ ',' :: rest) := by
  obtain ⟨blank, tail, rfl, hblank, -, hall⟩ := hrest
  have htext : utf8 (entry ++ (after ++ ',' :: (blank ++ tail))) =
      utf8 entry ++ (utf8 after ++ byte ',' :: (utf8 blank ++ utf8 tail)) := by
    rw [utf8_append, utf8_append, utf8_cons_ascii (by decide), utf8_append]
  refine ⟨before, entry ++ (after ++ ',' :: (blank ++ tail)), by simp only [List.append_assoc], hbefore, ?_, ?_⟩
  · rw [htext]
    exact h.starts.append _
  · intro outer s t rest hs hbehind fuel hfuel
    rw [htext] at hfuel ⊢
    simp only [List.append_assoc, List.cons_append] at hfuel ⊢
    refine h.passes hs ?_ ?_ fuel hfuel
    · rw [List.append_assoc]
      exact breaks_spaces (areSpaces_utf8 hafter) (by decide) _
    · intro fuel hfuel
      refine reads_comma isObject (areSpaces_utf8 hafter) (hall (areSpaces_utf8 hblank) hbehind fuel ?_)
      simp only [List.length_append, List.length_cons] at hfuel ⊢
      omega

theorem Passes.item {v : List Char} (h : Passes v) : PassesEntry false v := ⟨h.starts false, h.passes⟩

theorem Passes.member {key between behind v : List Char} (h : Passes v) (hkey : IsString key) (hbetween : IsBlank between)
    (hbehind : IsBlank behind) : PassesEntry true (key ++ between ++ ':' :: (behind ++ v)) := by
  have htext : utf8 (key ++ between ++ ':' :: (behind ++ v)) =
      utf8 (key ++ between ++ [':']) ++ (utf8 behind ++ utf8 v) := by
    rw [← utf8_append behind, ← utf8_append]
    simp only [List.append_assoc, List.singleton_append]
  constructor
  · obtain ⟨hpieces⟩ := hkey
    rw [utf8_append, utf8_append, utf8_brackets '"' '"' (by decide) (by decide)]
    exact ⟨_, _, rfl, by decide, by decide⟩
  · intro outer s t rest hs hbreaks hrest fuel hfuel
    rw [htext] at hfuel ⊢
    simp only [List.append_assoc, List.length_append] at hfuel
    rw [passEntry, List.append_assoc, ← List.append_assoc, List.append_assoc (utf8 behind)]
    refine Reads.bind (reads_passKey hkey hs hbetween _) ?_
    refine h.passes (areSpaces_utf8 hbehind) hbreaks hrest fuel ?_
    rw [List.length_append]
    omega

theorem starts_word {cs : List Char} (h : cs ∈ ["null".toList, "true".toList, "false".toList]) (isObject : Bool) :
    Starts (closing isObject) (utf8 cs) := by
  simp only [List.mem_cons, List.not_mem_nil, or_false] at h
  rcases h with rfl | rfl | rfl
  all_goals exact ⟨_, _, rfl, by decide, by cases isObject <;> decide⟩

theorem starts_number {cs : List Char} (h : IsNumber cs) (isObject : Bool) : Starts (closing isObject) (utf8 cs) := by
  obtain ⟨hsign, hinteger, -, -⟩ := h
  simp only [List.append_assoc]
  simp only [List.mem_cons, List.not_mem_nil, or_false] at hsign
  rcases hsign with rfl | rfl
  · obtain ⟨c, cs, -, htext, hc, -⟩ := utf8_areDigits hinteger.1
    rw [List.nil_append, utf8_append, htext]
    refine ⟨_, _, rfl, isSpace_of_isDigit hc, ?_⟩
    intro hclosing
    rw [hclosing] at hc
    cases isObject <;> exact absurd hc (by decide)
  · rw [List.singleton_append, utf8_cons_ascii (by decide)]
    exact ⟨_, _, rfl, by decide, by cases isObject <;> decide⟩

theorem starts_string {cs : List Char} (h : IsString cs) (isObject : Bool) : Starts (closing isObject) (utf8 cs) := by
  obtain ⟨-⟩ := h
  rw [utf8_brackets '"' '"' (by decide) (by decide)]
  exact ⟨_, _, rfl, by decide, by cases isObject <;> decide⟩

mutual

theorem passes_value : ∀ {v : List Char}, IsValue v → Passes v
  | _, .word h => passes_scalar (starts_word h) fun hs _ => reads_passHead_word h hs _
  | _, .number h => passes_scalar (starts_number h) fun hs hrest => reads_passHead_number h hs hrest
  | _, .string h => passes_scalar (starts_string h) fun hs _ => reads_passHead_string h hs _
  | _, .noItems h => passes_empty false h
  | _, .array h => passes_entries false (passes_items h)
  | _, .noMembers h => passes_empty true h
  | _, .object h => passes_entries true (passes_members h)

theorem passes_items : ∀ {items : List Char}, IsItems items → PassesAll false items
  | _, .last hbefore hvalue hafter => (passes_value hvalue).item.last hbefore hafter
  | _, .more hbefore hvalue hafter hrest => (passes_value hvalue).item.more hbefore hafter (passes_items hrest)

theorem passes_members : ∀ {members : List Char}, IsMembers members → PassesAll true members
  | _, .last hbefore hkey hbetween hbehind hvalue hafter => by
    have hlast := ((passes_value hvalue).member hkey hbetween hbehind).last hbefore hafter
    simpa only [List.append_assoc, List.cons_append] using hlast
  | _, .more hbefore hkey hbetween hbehind hvalue hafter hrest => by
    have hmore := ((passes_value hvalue).member hkey hbetween hbehind).more hbefore hafter (passes_members hrest)
    simpa only [List.append_assoc, List.cons_append] using hmore

end

theorem reads_pass {v : List Char} (h : IsValue v) (hs : AreSpaces s) (hrest : Breaks rest) :
    Reads pass (s ++ utf8 v) () rest := by
  have hend : ∀ fuel, ([] : Bytes).length < fuel → Reads (passBehind fuel []) [] () rest := fun _ _ => Reads.pure () rest
  rw [pass]
  apply Reads.get
  intro offset
  have hpass := (passes_value h).passes (t := []) hs hrest hend
  rw [List.append_nil] at hpass
  apply hpass
  simp only [List.length_append]
  omega

end VisibleText.Json.Reader
