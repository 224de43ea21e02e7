import VisibleText.Proofs.JsonDocument

namespace VisibleText.Json

def hexValue (c : Char) : ℕ := "0123456789abcdef".toList.idxOf c.toLower

structure SpellsCode (n : ℕ) (four : List Char) : Prop where
  length : four.length = 4
  digits : ∀ c ∈ four, IsHex c
  number : four.foldl (fun v c => v * 16 + hexValue c) 0 = n

def shortEscapes : List (Char × Char) :=
  [('"', '"'), ('\\', '\\'), ('/', '/'), ('b', '\x08'), ('f', '\x0c'), ('n', '\n'), ('r', '\r'), ('t', '\t')]

inductive SpellsChar : Char → List Char → Prop
  | plain {c : Char} (hcontrol : 0x20 ≤ c.toNat) (hquote : c ≠ '"') (hslash : c ≠ '\\') : SpellsChar c [c]
  | short {c letter : Char} (h : (letter, c) ∈ shortEscapes) : SpellsChar c ['\\', letter]
  | code {c : Char} {four : List Char} (h : SpellsCode c.toNat four) : SpellsChar c ('\\' :: 'u' :: four)
  | pair {c : Char} {high low : ℕ} {four more : List Char} (hhigh : 0xD800 ≤ high ∧ high ≤ 0xDBFF)
      (hlow : 0xDC00 ≤ low ∧ low ≤ 0xDFFF) (hc : c.toNat = 0x10000 + (high - 0xD800) * 0x400 + (low - 0xDC00))
      (hfour : SpellsCode high four) (hmore : SpellsCode low more) :
      SpellsChar c ('\\' :: 'u' :: four ++ '\\' :: 'u' :: more)

inductive SpellsText : List Char → List Char → Prop
  | nil : SpellsText [] []
  | cons {c : Char} {cs text more : List Char} (h : SpellsChar c text) (hmore : SpellsText cs more) :
      SpellsText (c :: cs) (text ++ more)

inductive SpellsString : String → List Char → Prop
  | quoted {s : String} {body : List Char} (h : SpellsText s.toList body) : SpellsString s ('"' :: body ++ ['"'])

inductive Listed {α : Type} (Item : α → List Char → Prop) : List α → List Char → Prop
  | last {x : α} {before text after : List Char} (hbefore : IsBlank before) (h : Item x text) (hafter : IsBlank after) :
      Listed Item [x] (before ++ text ++ after)
  | more {x : α} {xs : List α} {before text after rest : List Char} (hbefore : IsBlank before) (h : Item x text)
      (hafter : IsBlank after) (hrest : Listed Item xs rest) : Listed Item (x :: xs) (before ++ text ++ after ++ ',' :: rest)

inductive Spells : Value → List Char → Prop
  | null : Spells .null "null".toList
  | bool (b : Bool) : Spells (.bool b) (if b then "true" else "false").toList
  | number (n : ℕ) : Spells (.number n) (toString n).toList
  | string {s : String} {text : List Char} (h : SpellsString s text) : Spells (.string s) text
  | noItems {blank : List Char} (h : IsBlank blank) : Spells (.array []) ('[' :: blank ++ [']'])
  | array {vs : List Value} {items : List Char} (h : Listed Spells vs items) : Spells (.array vs) ('[' :: items ++ [']'])

theorem spellsCode_control : ∀ n < 32, SpellsCode n ['0', '0', hexDigit (n / 16), hexDigit (n % 16)] := by
  intro n hn
  have hnumber : ∀ n < 32, ['0', '0', hexDigit (n / 16), hexDigit (n % 16)].foldl (fun v c => v * 16 + hexValue c) 0 = n := by
    decide
  refine ⟨rfl, ?_, hnumber n hn⟩
  have hzero : IsHex '0' := isHex_hexDigit 0 (by decide)
  simp only [List.forall_mem_cons, List.not_mem_nil, false_imp_iff, implies_true, and_true]
  exact ⟨hzero, hzero, isHex_hexDigit _ (by omega), isHex_hexDigit _ (by omega)⟩

theorem spellsChar_escape (c : Char) : SpellsChar c (escape c) := by
  rw [escape]
  split_ifs with hquote hslash hn hr ht hb hf hcontrol
  iterate 7
    · subst c
      exact .short (by decide)
  · exact .code (spellsCode_control _ hcontrol)
  · exact .plain (by omega) hquote hslash

theorem spellsText_escape (cs : List Char) : SpellsText cs (cs.flatMap escape) := by
  induction cs with
  | nil => exact .nil
  | cons c cs ih =>
    rw [List.flatMap_cons]
    exact .cons (spellsChar_escape c) ih

theorem spellsString_quote (s : String) : SpellsString s (quote s) := .quoted (spellsText_escape s.toList)

theorem listed_renderItems {level : ℕ} {v : Value} {vs : List Value} (h : ∀ x ∈ v :: vs, Spells x (x.renderAt level))
    {after : List Char} (hafter : IsBlank after) :
    Listed Spells (v :: vs) (newLine level ++ v.renderAt level ++ renderItems level vs ++ after) := by
  induction vs generalizing v with
  | nil =>
    rw [renderItems, List.append_nil]
    exact .last (isBlank_newLine level) (h v List.mem_cons_self) hafter
  | cons w vs ih =>
    have hrest := ih fun x hx => h x (List.mem_cons_of_mem v hx)
    have hmore := Listed.more (isBlank_newLine level) (h v List.mem_cons_self) isBlank_nil hrest
    rw [renderItems]
    simpa using hmore

theorem spells_strings (xs : List String) (level : ℕ) :
    Spells (.array (xs.map .string)) ((Value.array (xs.map .string)).renderAt level) := by
  cases xs with
  | nil =>
    rw [List.map_nil, Value.renderAt]
    exact .noItems isBlank_nil
  | cons x xs =>
    have hitems : ∀ v ∈ Value.string x :: xs.map .string, Spells v (v.renderAt (level + 1)) := by
      intro v hv
      obtain ⟨s, -, rfl⟩ := List.mem_map.mp (List.map_cons ▸ hv)
      rw [Value.renderAt]
      exact .string (spellsString_quote s)
    rw [List.map_cons, Value.renderAt]
    simpa using Spells.array (listed_renderItems hitems (isBlank_newLine level))

namespace Reader

variable {α : Type} {s rest : Bytes}

theorem isHex_cases {c : Char} (h : IsHex c) : c.toNat < 128 ∧ hexValue? (byte c) = some (hexValue c) := by
  have hall : ("0123456789abcdefABCDEF".toList.all fun c =>
      decide (c.toNat < 128) && hexValue? (byte c) == some (hexValue c)) = true := by
    decide +kernel
  simpa using List.all_eq_true.mp hall c h

theorem utf8_hex {cs : List Char} (h : ∀ c ∈ cs, IsHex c) : utf8 cs = cs.map byte :=
  utf8_ascii fun c hc => (isHex_cases (h c hc)).1

theorem foldl_hexValue? {cs : List Char} (h : ∀ c ∈ cs, IsHex c) (v : ℕ) :
    (cs.map byte).foldl (fun v b => do return (← v) * 16 + (← hexValue? b)) (some v) =
      some (cs.foldl (fun v c => v * 16 + hexValue c) v) := by
  induction cs generalizing v with
  | nil => rfl
  | cons c cs ih =>
    rw [List.forall_mem_cons] at h
    rw [List.map_cons, List.foldl_cons, List.foldl_cons, ← ih h.2, (isHex_cases h.1).2]
    rfl

theorem reads_spelledCode {n : ℕ} {four : List Char} (h : SpellsCode n four) (rest : Bytes) :
    Reads hexEscape (utf8 four) n rest := by
  rw [utf8_hex h.digits]
  apply reads_hexEscape
  · rw [List.length_map, h.length]
  · rw [foldl_hexValue? h.digits, h.number]

theorem toNat_valid (c : Char) : c.toNat < 0xD800 ∨ 0xDFFF < c.toNat := by
  rcases c.valid with h | h
  · exact .inl h
  · exact .inr h.1

theorem reads_unicodeEscape {c : Char} {four : List Char} (h : SpellsCode c.toNat four) (rest : Bytes) :
    Reads unicodeEscape (utf8 four) c rest := by
  rw [unicodeEscape]
  refine Reads.after (reads_spelledCode h rest) ?_
  have hvalid := toNat_valid c
  have hlow : (decide (0xDC00 ≤ c.toNat) && decide (c.toNat ≤ 0xDFFF)) = false := by
    rw [Bool.and_eq_false_iff, decide_eq_false_iff_not, decide_eq_false_iff_not]
    omega
  have hsingle : (decide (c.toNat < 0xD800) || decide (0xDBFF < c.toNat)) = true := by
    rw [Bool.or_eq_true_iff, decide_eq_true_iff, decide_eq_true_iff]
    omega
  rw [hlow, hsingle, if_neg Bool.false_ne_true, if_pos rfl, Char.ofNat_toNat]
  exact Reads.pure c rest

theorem reads_expectPair (b : UInt8) (rest : Bytes) : Reads (expectPair b) [b] () rest := by
  rw [expectPair]
  refine Reads.look (reads_peek _) ?_
  refine Reads.after (reads_one b rest) ?_
  rw [bne_self_eq_false, if_neg Bool.false_ne_true]
  exact Reads.pure () rest

theorem reads_surrogates {c : Char} {high low : ℕ} {four more : List Char} (hhigh : 0xD800 ≤ high ∧ high ≤ 0xDBFF)
    (hlow : 0xDC00 ≤ low ∧ low ≤ 0xDFFF) (hc : c.toNat = 0x10000 + (high - 0xD800) * 0x400 + (low - 0xDC00))
    (hfour : SpellsCode high four) (hmore : SpellsCode low more) (rest : Bytes) :
    Reads unicodeEscape (utf8 four ++ ([byte '\\'] ++ ([byte 'u'] ++ utf8 more))) c rest := by
  have hlone : (decide (0xDC00 ≤ high) && decide (high ≤ 0xDFFF)) = false := by
    rw [Bool.and_eq_false_iff, decide_eq_false_iff_not, decide_eq_false_iff_not]
    omega
  have hsingle : (decide (high < 0xD800) || decide (0xDBFF < high)) = false := by
    rw [Bool.or_eq_false_iff, decide_eq_false_iff_not, decide_eq_false_iff_not]
    omega
  have hother : (decide (low < 0xDC00) || decide (0xDFFF < low)) = false := by
    rw [Bool.or_eq_false_iff, decide_eq_false_iff_not, decide_eq_false_iff_not]
    omega
  rw [unicodeEscape]
  refine Reads.bind (reads_spelledCode hfour _) ?_
  rw [hlone, hsingle, if_neg Bool.false_ne_true, if_neg Bool.false_ne_true]
  refine Reads.bind (reads_expectPair (byte '\\') _) ?_
  refine Reads.bind (reads_expectPair (byte 'u') _) ?_
  refine Reads.after (reads_spelledCode hmore rest) ?_
  rw [hother, if_neg Bool.false_ne_true, ← hc, Char.ofNat_toNat]
  exact Reads.pure c rest

theorem stands_code {c : Char} {text : Bytes} (h : ∀ rest, Reads unicodeEscape text c rest) :
    Stands (byte '\\' :: byte 'u' :: text) (utf8 [c]) := by
  apply stands_escape
  intro rest
  rw [escapeBytes]
  refine Reads.bind (s := [byte 'u']) (reads_next (byte 'u') _) ?_
  exact Reads.after (h rest) (Reads.pure (utf8 [c]) rest)

theorem stands_spelledChar {c : Char} {text : List Char} (h : SpellsChar c text) : Stands (utf8 text) (utf8 [c]) := by
  have hescape : ∀ cs, utf8 ('\\' :: 'u' :: cs) = byte '\\' :: byte 'u' :: utf8 cs := by
    intro cs
    rw [utf8_cons_ascii (by decide), utf8_cons_ascii (by decide)]
  cases h with
  | plain hcontrol hquote hslash => exact stands_unescaped hquote hslash (by omega)
  | short h =>
    simp only [shortEscapes, List.mem_cons, List.not_mem_nil, or_false, Prod.mk.injEq] at h
    rcases h with ⟨rfl, rfl⟩ | ⟨rfl, rfl⟩ | ⟨rfl, rfl⟩ | ⟨rfl, rfl⟩ | ⟨rfl, rfl⟩ | ⟨rfl, rfl⟩ | ⟨rfl, rfl⟩ | ⟨rfl, rfl⟩
    all_goals exact stands_short (by decide) (by decide) (by decide) (by decide)
  | code h =>
    rw [hescape]
    exact stands_code (reads_unicodeEscape h)
  | pair hhigh hlow hc hfour hmore =>
    rw [List.cons_append, List.cons_append, hescape, utf8_append, hescape]
    exact stands_code (reads_surrogates hhigh hlow hc hfour hmore)

theorem stands_spelledText {cs text : List Char} (h : SpellsText cs text) : Stands (utf8 text) (utf8 cs) := by
  induction h with
  | nil => exact stands_nil
  | @cons c cs text more h hmore ih =>
    have hcons : utf8 (c :: cs) = utf8 [c] ++ utf8 cs := utf8_append [c] cs
    rw [utf8_append, hcons]
    exact (stands_spelledChar h).append ih

theorem stands_spelledString {x : String} {text : List Char} (h : SpellsString x text) :
    ∃ body, utf8 text = byte '"' :: (body ++ [byte '"']) ∧ Stands body (utf8 x.toList) := by
  obtain ⟨hbody⟩ := h
  refine ⟨_, ?_, stands_spelledText hbody⟩
  rw [List.cons_append, utf8_cons_ascii (by decide), utf8_append]
  rfl

theorem reads_readString {x : String} {text : List Char} (hs : AreSpaces s) (h : SpellsString x text) (rest : Bytes) :
    Reads readString (s ++ utf8 text) x rest := by
  obtain ⟨body, htext, hbody⟩ := stands_spelledString h
  rw [readString, htext]
  refine Reads.bind (reads_first hs (by decide)) ?_
  refine Reads.bind (s := [byte '"']) (reads_one (byte '"') _) ?_
  exact hbody.reads_string rest

theorem reads_readBool (hs : AreSpaces s) (b : Bool) (rest : Bytes) :
    Reads readBool (s ++ utf8 (if b then "true" else "false").toList) b rest := by
  rw [readBool]
  cases b with
  | true => exact Reads.bind (reads_first hs (by decide)) (reads_symbol (byte 't') (by decide) true rest)
  | false => exact Reads.bind (reads_first hs (by decide)) (reads_symbol (byte 'f') (by decide) false rest)

theorem foldl_digits_le (ds : Bytes) (n : ℕ) : n ≤ ds.foldl (fun m d => 10 * m + digitValue d) n := by
  induction ds generalizing n with
  | nil => exact Nat.le_refl n
  | cons d ds ih =>
    have hstep := ih (10 * n + digitValue d)
    rw [List.foldl_cons]
    omega

theorem absorb_eq {ds : Bytes} {n : ℕ} (h : ds.foldl (fun m d => 10 * m + digitValue d) n ≤ maxNatural) :
    absorb n ds = (ds.foldl (fun m d => 10 * m + digitValue d) n, []) := by
  induction ds generalizing n with
  | nil => rfl
  | cons d ds ih =>
    rw [List.foldl_cons] at h
    have hstep := foldl_digits_le ds (10 * n + digitValue d)
    have hbound : ¬ maxNatural < 10 * n + digitValue d := by omega
    rw [absorb, List.foldl_cons]
    simp only [if_neg hbound]
    exact ih h

theorem Breaks.head? (h : Breaks rest) : rest.head?.any isDigit = false ∧ rest.head? ≠ some 0x2E ∧
    rest.head? ≠ some 0x65 ∧ rest.head? ≠ some 0x45 := by
  cases rest with
  | nil => exact ⟨rfl, nofun, nofun, nofun⟩
  | cons b rest =>
    have hb := h b rfl
    simp only [isNumeric, Bool.or_eq_false_iff, beq_eq_false_iff_ne] at hb
    obtain ⟨⟨⟨hdigit, hpoint⟩, hsmall⟩, hlarge⟩ := hb
    simp only [List.head?_cons, Option.any_some, ne_eq, Option.some.injEq]
    exact ⟨hdigit, hpoint, hsmall, hlarge⟩

theorem utf8_areDigits {ds : List Char} (h : AreDigits ds) :
    ∃ c cs, ds = c :: cs ∧ utf8 ds = byte c :: cs.map byte ∧ isDigit (byte c) = true ∧
      (∀ d ∈ cs.map byte, isDigit d = true) ∧ (byte c = 0x30 → ds.head? = some '0') := by
  obtain ⟨hne, hdigits⟩ := h
  obtain ⟨c, cs, rfl⟩ := List.exists_cons_of_ne_nil hne
  have hascii : ∀ x ∈ c :: cs, x.toNat < 128 := by
    intro x hx
    have := toNat_of_isDigit (hdigits x hx)
    omega
  rw [List.forall_mem_cons] at hdigits
  refine ⟨c, cs, rfl, utf8_ascii hascii, isDigit_byte hdigits.1, ?_, ?_⟩
  · intro d hd
    obtain ⟨x, hx, rfl⟩ := List.mem_map.mp hd
    exact isDigit_byte (hdigits.2 x hx)
  · intro hzero
    have hcode := congrArg UInt8.toNat hzero
    rw [toNat_byte_of_ascii (hascii c List.mem_cons_self)] at hcode
    have hchar : c = '0' := Char.toNat_inj.mp hcode
    rw [List.head?_cons, hchar]

theorem utf8_toString (n : ℕ) : ∃ b ds, utf8 (toString n).toList = b :: ds ∧ isDigit b = true ∧
    (∀ d ∈ ds, isDigit d = true) ∧ (b = 0x30 → ds = []) ∧
    ds.foldl (fun m d => 10 * m + digitValue d) (digitValue b) = n := by
  obtain ⟨hdigits, hzero⟩ := isInteger_toString n
  have hfold := foldl_digits n
  rw [← Nat.toList_repr, ← Nat.toString_eq_repr] at hfold
  obtain ⟨c, cs, hcs, htext, hc, hrest, hhead⟩ := utf8_areDigits hdigits
  refine ⟨byte c, cs.map byte, htext, hc, hrest, ?_, ?_⟩
  · intro hb
    have hone := hzero (hhead hb)
    rw [hcs] at hone
    rw [(List.cons.inj hone).2, List.map_nil]
  · rwa [hcs, List.map_cons, List.foldl_cons, Nat.mul_zero, Nat.zero_add] at hfold

theorem Reads.join {β : Type} {p : Prop} [Decidable p] {x y : Reader α} {f : α → Reader β} {text : Bytes} {b : β}
    (h : Reads ((if p then x else y) >>= f) text b rest) : Reads (if p then x >>= f else y >>= f) text b rest := by
  split_ifs at h ⊢ <;> exact h

theorem reads_number {n : ℕ} (hn : n ≤ maxNatural) (hrest : Breaks rest) :
    Reads (number false) (utf8 (toString n).toList) (.natural n) rest := by
  obtain ⟨b, ds, htext, hb, hds, hzero, hfold⟩ := utf8_toString n
  obtain ⟨hdigit, hpoint, hsmall, hlarge⟩ := hrest.head?
  rw [htext, number]
  refine Reads.bind (s := [b]) (reads_next b _) ?_
  have hdigits : Reads (if b == 0x30 then pure [] else digits) ds ds rest := by
    by_cases h : b = 0x30
    · rw [if_pos (beq_iff_eq.mpr h), hzero h]
      exact Reads.pure [] rest
    · rw [if_neg (by simpa using h)]
      exact reads_digits hds hrest
  simp only [hb, Bool.not_true, if_false, Bool.false_eq_true]
  refine Reads.join (Reads.after hdigits ?_)
  refine Reads.look (reads_peek _) ?_
  rw [List.nil_append, hdigit, Bool.and_false, if_neg Bool.false_ne_true, absorb_eq (by rw [hfold]; exact hn), hfold]
  split
  · exact absurd ‹_› hpoint
  · exact absurd ‹_› hsmall
  · exact absurd ‹_› hlarge
  · exact Reads.pure (Number.natural n) rest

theorem reads_readNat {n : ℕ} (hs : AreSpaces s) (hn : n ≤ maxNatural) (hrest : Breaks rest) :
    Reads readNat (s ++ utf8 (toString n).toList) n rest := by
  obtain ⟨b, ds, htext, hb, -⟩ := utf8_toString n
  have hnumber := reads_number hn hrest
  rw [htext] at hnumber ⊢
  have hsign : (b == byte '-') = false := by
    rw [beq_eq_false_iff_ne]
    rintro rfl
    exact absurd hb (by decide)
  rw [readNat]
  refine Reads.bind (reads_first hs (isSpace_of_isDigit hb)) ?_
  simp only [hsign, hb, Bool.not_true, Bool.and_false, if_false, Bool.false_eq_true]
  exact Reads.after hnumber (Reads.pure n rest)

theorem reads_readOption_none {item : Reader α} (hs : AreSpaces s) (rest : Bytes) :
    Reads (readOption item) (s ++ utf8 "null".toList) none rest := by
  rw [readOption]
  refine Reads.bind (reads_skipSpace hs (isSpace_head (b := byte 'n') (by decide) _)) ?_
  exact reads_symbol (byte 'n') (by decide) none rest

theorem reads_readOption_some {item : Reader α} {a : α} {b : UInt8} {bs : Bytes} (hs : AreSpaces s)
    (hb : isSpace b = false) (hnull : b ≠ byte 'n') (h : Reads item (b :: bs) a rest) :
    Reads (readOption item) (s ++ b :: bs) (some a) rest := by
  rw [readOption]
  refine Reads.bind (reads_skipSpace hs (isSpace_head hb _)) ?_
  rw [List.cons_append, List.head?_cons, if_neg (by simpa using hnull)]
  exact Reads.after h (Reads.pure (some a) rest)

theorem utf8_comma {before text after rest : List Char} : utf8 (before ++ text ++ after ++ ',' :: rest) =
    utf8 before ++ (utf8 text ++ ((utf8 after ++ [byte ',']) ++ utf8 rest)) := by
  rw [utf8_append, utf8_append, utf8_append, utf8_cons_ascii (by decide)]
  simp only [List.append_assoc, List.singleton_append]

theorem breaks_spaces {b : UInt8} (hs : AreSpaces s) (hb : isNumeric b = false) (rest : Bytes) :
    Breaks (s ++ b :: rest) := by
  intro c hc
  cases s with
  | nil =>
    obtain rfl := Option.some.inj hc
    exact hb
  | cons d s =>
    obtain rfl := Option.some.inj hc
    exact isNumeric_of_isSpace (hs d List.mem_cons_self)

theorem reads_items_end {item : Reader α} (hs : AreSpaces s) (acc : List α) (fuel : ℕ) (rest : Bytes) :
    Reads (items item (fuel + 1) acc) (s ++ [byte ']']) acc.reverse rest := by
  rw [items]
  refine Reads.bind (reads_moreItems_end hs acc.isEmpty rest) ?_
  exact Reads.after (reads_one (byte ']') rest) (Reads.pure acc.reverse rest)

theorem reads_items_next {item : Reader α} {acc result : List α} {x : α} {before text tail : Bytes} {fuel : ℕ}
    (hs : AreSpaces s) (hbefore : AreSpaces before) (hstart : Starts (byte ']') text)
    (hitem : Reads item text x (tail ++ rest)) (htail : Reads (items item fuel (x :: acc)) tail result rest) :
    Reads (items item (fuel + 1) acc) ((if acc.isEmpty then [] else s ++ [byte ',']) ++ (before ++ (text ++ tail)))
      result rest := by
  obtain ⟨b, bs, rfl, hb, hstop⟩ := hstart
  rw [items, ← List.append_assoc]
  refine Reads.bind (reads_moreItems_next hs hbefore hb hstop acc.isEmpty _) ?_
  exact Reads.bind hitem htail

theorem reads_listed {Item : α → List Char → Prop} {item : Reader α} {xs : List α} {text : List Char}
    (h : Listed Item xs text) (hstart : ∀ x ∈ xs, ∀ text, Item x text → Starts (byte ']') (utf8 text))
    (hitem : ∀ x ∈ xs, ∀ text, Item x text → ∀ rest, Breaks rest → Reads item (utf8 text) x rest)
    (hs : AreSpaces s) (acc : List α) {fuel : ℕ} (hfuel : xs.length < fuel) (rest : Bytes) :
    Reads (items item fuel acc) ((if acc.isEmpty then [] else s ++ [byte ',']) ++ (utf8 text ++ [byte ']']))
      (acc.reverse ++ xs) rest := by
  induction h generalizing acc fuel s with
  | @last x before text after hbefore h hafter =>
    obtain ⟨fuel, rfl⟩ : ∃ k, fuel = k + 2 := ⟨fuel - 2, by simp only [List.length_singleton] at hfuel; omega⟩
    have hend : Reads (items item (fuel + 1) (x :: acc)) (utf8 after ++ [byte ']']) (x :: acc).reverse rest :=
      reads_items_end (areSpaces_utf8 hafter) (x :: acc) fuel rest
    rw [List.reverse_cons] at hend
    simp only [utf8_append, List.append_assoc] at hend ⊢
    refine reads_items_next hs (areSpaces_utf8 hbefore) (hstart x List.mem_cons_self _ h) ?_ hend
    rw [List.append_assoc]
    exact hitem x List.mem_cons_self _ h _ (breaks_spaces (areSpaces_utf8 hafter) (by decide) rest)
  | @more x xs before text after more hbefore h hafter hmore ih =>
    obtain ⟨fuel, rfl⟩ : ∃ k, fuel = k + 1 := ⟨fuel - 1, by omega⟩
    rw [List.forall_mem_cons] at hstart hitem
    have htail := ih hstart.2 hitem.2 (areSpaces_utf8 hafter) (x :: acc) (Nat.lt_of_succ_lt_succ hfuel)
    rw [List.reverse_cons, List.append_assoc, List.singleton_append] at htail
    rw [utf8_comma]
    simp only [List.append_assoc, List.isEmpty_cons, if_false, Bool.false_eq_true] at htail ⊢
    refine reads_items_next hs (areSpaces_utf8 hbefore) (hstart.1 _ h) ?_ htail
    rw [List.append_assoc]
    exact hitem.1 _ h _ (breaks_spaces (areSpaces_utf8 hafter) (by decide) _)

theorem length_le_of_listed {Item : α → List Char → Prop} {xs : List α} {text : List Char} (h : Listed Item xs text) :
    xs.length ≤ (utf8 text).length + 1 := by
  induction h with
  | last => simp
  | more hbefore h hafter hmore ih =>
    rw [utf8_comma]
    simp only [List.length_append, List.length_cons]
    omega

theorem utf8_brackets (opening closing : Char) (ho : opening.toNat < 128) (hc : closing.toNat < 128) (inner : List Char) :
    utf8 (opening :: inner ++ [closing]) = byte opening :: (utf8 inner ++ [byte closing]) := by
  rw [List.cons_append, utf8_cons_ascii ho, utf8_append, utf8_cons_ascii hc]
  rfl

theorem listed_strings {xs : List String} {text : List Char} (h : Listed Spells (xs.map .string) text) :
    Listed SpellsString xs text := by
  generalize hvs : xs.map Value.string = vs at h
  induction h generalizing xs with
  | last hbefore h hafter =>
    obtain ⟨x, rfl, rfl⟩ := List.map_eq_singleton_iff.mp hvs
    cases h with
    | string h => exact .last hbefore h hafter
  | more hbefore h hafter hmore ih =>
    obtain ⟨x, xs, rfl, rfl, htail⟩ := List.map_eq_cons_iff.mp hvs
    cases h with
    | string h => exact .more hbefore h hafter (ih htail)

theorem reads_readStrings {xs : List String} {text : List Char} (hs : AreSpaces s)
    (h : Spells (.array (xs.map .string)) text) (rest : Bytes) :
    Reads (readList readString) (s ++ utf8 text) xs rest := by
  generalize hvs : Value.array (xs.map .string) = v at h
  rw [readList]
  cases h with
  | null => cases hvs
  | bool => cases hvs
  | number => cases hvs
  | string => cases hvs
  | noItems hblank =>
    obtain rfl := List.map_eq_nil_iff.mp (Value.array.inj hvs)
    rw [utf8_brackets '[' ']' (by decide) (by decide)]
    refine Reads.bind (reads_first hs (by decide)) ?_
    refine Reads.bind (s := [byte '[']) (reads_one (byte '[') _) ?_
    apply Reads.get
    intro offset
    exact reads_items_end (areSpaces_utf8 hblank) [] _ rest
  | @array vs items hitems =>
    obtain rfl := Value.array.inj hvs
    have hlisted := listed_strings hitems
    have hfuel : xs.length < ((utf8 items ++ [byte ']']) ++ rest).length + 1 := by
      have hlength := length_le_of_listed hlisted
      simp only [List.length_append, List.length_singleton]
      omega
    rw [utf8_brackets '[' ']' (by decide) (by decide)]
    refine Reads.bind (reads_first hs (by decide)) ?_
    refine Reads.bind (s := [byte '[']) (reads_one (byte '[') _) ?_
    apply Reads.get
    intro offset
    refine reads_listed hlisted ?_ ?_ areSpaces_nil [] hfuel rest
    · intro x _ text h
      obtain ⟨body, htext, -⟩ := stands_spelledString h
      exact ⟨_, _, htext, by decide, by decide⟩
    · intro x _ text h rest _
      exact reads_readString areSpaces_nil h rest

end Reader

end VisibleText.Json
