import VisibleText.Json.Reader
import VisibleText.Proofs.Encoding
import VisibleText.Proofs.JsonGrammar

namespace VisibleText.Json

namespace Reader

def Reads {α : Type} (r : Reader α) (text : Bytes) (a : α) (rest : Bytes) : Prop :=
  ∀ offset, ∃ offset', r.run ⟨offset, text ++ rest⟩ = .ok (a, ⟨offset', rest⟩)

section

variable {α β : Type} {s t rest : Bytes}

theorem Reads.pure (a : α) (rest : Bytes) : Reads (Pure.pure a) [] a rest := fun offset => ⟨offset, rfl⟩

theorem Reads.bind {r : Reader α} {f : α → Reader β} {a : α} {b : β} (hr : Reads r s a (t ++ rest))
    (hf : Reads (f a) t b rest) : Reads (r >>= f) (s ++ t) b rest := by
  intro offset
  obtain ⟨middle, hmiddle⟩ := hr offset
  obtain ⟨last, hlast⟩ := hf middle
  refine ⟨last, ?_⟩
  rw [StateT.run_bind, List.append_assoc, hmiddle]
  exact hlast

theorem Reads.look {r : Reader α} {f : α → Reader β} {a : α} {b : β} (hr : Reads r [] a (t ++ rest))
    (hf : Reads (f a) t b rest) : Reads (r >>= f) t b rest := Reads.bind hr hf

theorem Reads.after {r : Reader α} {f : α → Reader β} {a : α} {b : β} (hr : Reads r s a rest)
    (hf : Reads (f a) [] b rest) : Reads (r >>= f) s b rest := by
  have h : Reads (r >>= f) (s ++ []) b rest := Reads.bind hr hf
  rwa [List.append_nil] at h

theorem Reads.get {f : Cursor → Reader β} {b : β} (h : ∀ offset, Reads (f ⟨offset, t ++ rest⟩) t b rest) :
    Reads (MonadState.get >>= f) t b rest := fun offset => h offset offset

theorem reads_peek (rest : Bytes) : Reads peek [] rest.head? rest := fun offset => ⟨offset, rfl⟩

theorem run_drop (n offset : ℕ) (bs : Bytes) :
    (drop n).run ⟨offset, bs⟩ = .ok ((), ⟨offset + min n bs.length, bs.drop n⟩) := rfl

theorem reads_drop (s rest : Bytes) : Reads (drop s.length) s () rest := by
  intro offset
  exact ⟨_, by rw [run_drop, List.drop_left]⟩

theorem reads_one (b : UInt8) (rest : Bytes) : Reads (drop 1) [b] () rest := reads_drop [b] rest

theorem reads_next (b : UInt8) (rest : Bytes) : Reads next [b] (some b) rest :=
  Reads.look (reads_peek ([b] ++ rest)) (Reads.after (reads_one b rest) (Reads.pure (some b) rest))

theorem takeWhile_run {p : UInt8 → Bool} (hs : ∀ b ∈ s, p b = true) (hrest : ∀ b ∈ rest.head?, p b = false) :
    (s ++ rest).takeWhile p = s := by
  rw [List.takeWhile_append_of_pos hs]
  cases rest with
  | nil => simp
  | cons b rest => simp [hrest b rfl]

def AreSpaces (bs : Bytes) : Prop := ∀ b ∈ bs, isSpace b = true

theorem areSpaces_nil : AreSpaces [] := List.forall_mem_nil _

theorem reads_skipSpace (hs : AreSpaces s) (hrest : ∀ b ∈ rest.head?, isSpace b = false) :
    Reads skipSpace s rest.head? rest := by
  rw [skipSpace]
  apply Reads.get
  intro offset
  rw [takeWhile_run hs hrest]
  exact Reads.after (reads_drop s rest) (reads_peek rest)

theorem isSpace_head {b : UInt8} (hb : isSpace b = false) (rest : Bytes) :
    ∀ c ∈ (b :: rest).head?, isSpace c = false := by
  rintro _ ⟨⟩
  exact hb

theorem reads_first {b : UInt8} (hs : AreSpaces s) (hb : isSpace b = false) :
    Reads first s b (b :: rest) :=
  Reads.after (reads_skipSpace hs (isSpace_head hb rest)) (Reads.pure b (b :: rest))

theorem utf8_cons_ascii {c : Char} (h : c.toNat < 128) (cs : List Char) : utf8 (c :: cs) = byte c :: utf8 cs := by
  have hone : String.utf8EncodeChar c = [byte c] := by
    simp only [String.utf8EncodeChar]
    exact if_pos (Nat.le_of_lt_succ h)
  rw [utf8, List.flatMap_cons, hone]
  rfl

/-- The text of a part of a string, and the bytes that it stands for. -/
def Stands (text bs : Bytes) : Prop :=
  ∀ acc t result rest, (∀ fuel, t.length < fuel → Reads (stringBytes fuel (bs.reverse ++ acc)) t result rest) →
    ∀ fuel, (text ++ t).length < fuel → Reads (stringBytes fuel acc) (text ++ t) result rest

theorem stands_nil : Stands [] [] := fun _ _ _ _ h => h

theorem Stands.append {text text' bs bs' : Bytes} (h : Stands text bs) (h' : Stands text' bs') :
    Stands (text ++ text') (bs ++ bs') := by
  intro acc t result rest hrest fuel hfuel
  rw [List.append_assoc] at hfuel ⊢
  apply h acc (text' ++ t) result rest ?_ fuel hfuel
  apply h' (bs.reverse ++ acc) t result rest
  intro fuel hfuel
  rw [← List.append_assoc, ← List.reverse_append]
  exact hrest fuel hfuel

theorem stands_plain {b : UInt8} (hquote : b ≠ byte '"') (hslash : b ≠ byte '\\') (hcontrol : ¬ b < 0x20) :
    Stands [b] [b] := by
  intro acc t result rest hrest fuel hfuel
  obtain ⟨fuel, rfl⟩ : ∃ k, fuel = k + 1 := ⟨fuel - 1, by omega⟩
  rw [stringBytes]
  refine Reads.look (reads_peek _) ?_
  refine Reads.bind (reads_one b _) ?_
  have hquote' : (b == byte '"') = false := by simpa using hquote
  have hslash' : (b == byte '\\') = false := by simpa using hslash
  simp only [hquote', hslash', hcontrol, if_false, Bool.false_eq_true]
  apply hrest
  simp only [List.length_append, List.length_singleton] at hfuel
  omega

theorem stands_escape {text bs : Bytes} (h : ∀ rest, Reads escapeBytes text bs rest) :
    Stands (byte '\\' :: text) bs := by
  intro acc t result rest hrest fuel hfuel
  obtain ⟨fuel, rfl⟩ : ∃ k, fuel = k + 1 := ⟨fuel - 1, by omega⟩
  rw [stringBytes, List.cons_append]
  refine Reads.look (reads_peek _) ?_
  refine Reads.bind (s := [byte '\\']) (reads_one (byte '\\') _) ?_
  refine Reads.bind (h (t ++ rest)) ?_
  apply hrest
  simp only [List.length_append, List.length_cons] at hfuel
  omega

theorem reads_short {n c : UInt8} (hn : n ≠ byte 'u') (h : simpleEscape? n = some c) (rest : Bytes) :
    Reads escapeBytes [n] [c] rest := by
  have hn' : (n == byte 'u') = false := by simpa using hn
  rw [escapeBytes]
  refine Reads.after (reads_next n rest) ?_
  simp only [hn', h, if_false, Bool.false_eq_true]
  exact Reads.pure [c] rest

theorem reads_hexEscape {four : Bytes} {v : ℕ} (hlength : four.length = 4)
    (h : four.foldl (fun v b => do return (← v) * 16 + (← hexValue? b)) (some 0) = some v) (rest : Bytes) :
    Reads hexEscape four v rest := by
  have htake : (four ++ rest).take 4 = four := by rw [← hlength, List.take_left]
  rw [hexEscape]
  apply Reads.get
  intro offset
  dsimp only
  rw [htake]
  refine Reads.after (reads_drop four rest) ?_
  rw [if_neg (by omega), h]
  exact Reads.pure v rest

theorem hexValue_hexDigits : ∀ n < 32,
    (utf8 ['0', '0', hexDigit (n / 16), hexDigit (n % 16)]).foldl
      (fun v b => do return (← v) * 16 + (← hexValue? b)) (some 0) = some n := by
  decide

theorem reads_code {c : Char} (h : c.toNat < 0x20) (rest : Bytes) :
    Reads escapeBytes (byte 'u' :: utf8 ['0', '0', hexDigit (c.toNat / 16), hexDigit (c.toNat % 16)]) (utf8 [c]) rest := by
  have hlength : ∀ n < 32, (utf8 ['0', '0', hexDigit (n / 16), hexDigit (n % 16)]).length = 4 := by decide
  have hescape := reads_hexEscape (hlength _ h) (hexValue_hexDigits _ h) rest
  rw [escapeBytes]
  refine Reads.bind (s := [byte 'u']) (reads_next (byte 'u') _) ?_
  have hcode : Reads unicodeEscape (utf8 ['0', '0', hexDigit (c.toNat / 16), hexDigit (c.toNat % 16)]) c rest := by
    rw [unicodeEscape]
    refine Reads.after hescape ?_
    have hlow : (decide (0xDC00 ≤ c.toNat) && decide (c.toNat ≤ 0xDFFF)) = false := by
      rw [Bool.and_eq_false_iff]
      left
      simpa using (by omega : c.toNat < 0xDC00)
    have hsmall : (decide (c.toNat < 0xD800) || decide (0xDBFF < c.toNat)) = true := by
      rw [Bool.or_eq_true_iff]
      left
      simpa using (by omega : c.toNat < 0xD800)
    rw [hlow, hsmall]
    simp only [if_true, if_false, Bool.false_eq_true, Char.ofNat_toNat]
    exact Reads.pure c rest
  exact Reads.after hcode (Reads.pure (utf8 [c]) rest)

theorem stands_short {n c : Char} (hn : n.toNat < 128) (hc : c.toNat < 128) (hu : byte n ≠ byte 'u')
    (h : simpleEscape? (byte n) = some (byte c)) : Stands (utf8 ['\\', n]) (utf8 [c]) := by
  rw [utf8_cons_ascii (by decide), utf8_cons_ascii hn, utf8_cons_ascii hc]
  exact stands_escape (reads_short hu h)

theorem stands_bytes {bs : Bytes} (h : ∀ b ∈ bs, b ≠ byte '"' ∧ b ≠ byte '\\' ∧ ¬ b < 0x20) : Stands bs bs := by
  induction bs with
  | nil => exact stands_nil
  | cons b bs ih =>
    rw [List.forall_mem_cons] at h
    exact Stands.append (stands_plain h.1.1 h.1.2.1 h.1.2.2) (ih h.2)

theorem bytes_unescaped {c : Char} (hquote : c ≠ '"') (hslash : c ≠ '\\') (hcontrol : ¬ c.toNat < 0x20) :
    ∀ b ∈ utf8 [c], b ≠ byte '"' ∧ b ≠ byte '\\' ∧ ¬ b < 0x20 := by
  intro b hb
  have hbytes : utf8 [c] = String.utf8EncodeChar c := by simp [utf8]
  rw [hbytes] at hb
  rcases utf8EncodeChar_cases c with ⟨-, hone, hascii⟩ | hbeyond
  · rw [hone, List.mem_singleton] at hb
    have hcode : b.toNat = c.toNat := by
      rw [hb]
      exact toNat_byte (by omega)
    refine ⟨?_, ?_, ?_⟩
    · rintro rfl
      exact hquote (Char.toNat_inj.mp hcode.symm)
    · rintro rfl
      exact hslash (Char.toNat_inj.mp hcode.symm)
    · rw [UInt8.lt_iff_toNat_lt, hcode]
      exact hcontrol
  · have hhigh := hbeyond b hb
    refine ⟨?_, ?_, ?_⟩
    · rintro rfl
      exact hhigh (by decide)
    · rintro rfl
      exact hhigh (by decide)
    · intro hlow
      exact hhigh (UInt8.lt_trans hlow (by decide))

theorem stands_unescaped {c : Char} (hquote : c ≠ '"') (hslash : c ≠ '\\') (hcontrol : ¬ c.toNat < 0x20) :
    Stands (utf8 [c]) (utf8 [c]) := stands_bytes (bytes_unescaped hquote hslash hcontrol)

theorem stands_char (c : Char) : Stands (utf8 (escape c)) (utf8 [c]) := by
  rw [escape]
  split_ifs with hquote hslash hn hr ht hb hf hcontrol
  iterate 7
    · subst c
      exact stands_short (by decide) (by decide) (by decide) (by decide)
  · rw [utf8_cons_ascii (by decide), utf8_cons_ascii (by decide)]
    exact stands_escape (reads_code hcontrol)
  · exact stands_unescaped hquote hslash hcontrol

theorem stands_text (cs : List Char) : Stands (utf8 (cs.flatMap escape)) (utf8 cs) := by
  induction cs with
  | nil => exact stands_nil
  | cons c cs ih =>
    have hcons : utf8 (c :: cs) = utf8 [c] ++ utf8 cs := utf8_append [c] cs
    rw [List.flatMap_cons, utf8_append, hcons]
    exact (stands_char c).append ih

theorem Stands.reads_string {body : Bytes} {s : String} (h : Stands body (utf8 s.toList)) (rest : Bytes) :
    Reads string (body ++ [byte '"']) s rest := by
  rw [string]
  apply Reads.get
  intro offset
  have hend : ∀ fuel, [byte '"'].length < fuel →
      Reads (stringBytes fuel ((utf8 s.toList).reverse ++ [])) [byte '"'] (utf8 s.toList) rest := by
    intro fuel hfuel
    obtain ⟨fuel, rfl⟩ : ∃ k, fuel = k + 1 := ⟨fuel - 1, by omega⟩
    rw [stringBytes, List.append_nil]
    refine Reads.look (reads_peek _) ?_
    refine Reads.after (reads_one (byte '"') rest) ?_
    rw [if_pos (by decide), List.reverse_reverse]
    exact Reads.pure (utf8 s.toList) rest
  have hbytes := h [] [byte '"'] (utf8 s.toList) rest hend
  refine Reads.after (hbytes _ ?_) ?_
  · simp only [List.length_append]
    omega
  · rw [decode_utf8, String.ofList_toList]
    exact Reads.pure s rest

theorem reads_string (s : String) (rest : Bytes) :
    Reads string (utf8 (s.toList.flatMap escape) ++ [byte '"']) s rest := (stands_text s.toList).reads_string rest

theorem utf8_quote (s : String) : utf8 (quote s) = byte '"' :: (utf8 (s.toList.flatMap escape) ++ [byte '"']) := by
  rw [quote, List.cons_append, utf8_cons_ascii (by decide), utf8_append]
  rfl

theorem reads_word {cs : List Char} (h : (cs.all fun c => c.toNat < 128) = true) (rest : Bytes) :
    Reads (word cs) (utf8 cs) () rest := by
  induction cs with
  | nil => exact Reads.pure () rest
  | cons c cs ih =>
    rw [List.all_cons, Bool.and_eq_true, decide_eq_true_iff] at h
    rw [word, utf8_cons_ascii h.1]
    refine Reads.bind (s := [byte c]) (reads_next (byte c) _) ?_
    simp only [beq_self_eq_true, if_true]
    exact ih h.2

def natural : Reader Nat := do
  let ds ← digits
  if ds.isEmpty || ds.head? == some 0x30 && ds.length != 1 then fail .invalidNumber
  else if (← peek).any fun b => b == 0x2E || b == 0x65 || b == 0x45 then failNext .invalidNumber
  else return ds.foldl (fun n d => 10 * n + digitValue d) 0

def isNumeric (b : UInt8) : Bool := isDigit b || b == 0x2E || b == 0x65 || b == 0x45

def Breaks (rest : Bytes) : Prop := ∀ b ∈ rest.head?, isNumeric b = false

theorem utf8_ascii {cs : List Char} (h : ∀ c ∈ cs, c.toNat < 128) : utf8 cs = cs.map byte := by
  induction cs with
  | nil => rfl
  | cons c cs ih =>
    rw [List.forall_mem_cons] at h
    rw [utf8_cons_ascii h.1, ih h.2, List.map_cons]

theorem toNat_byte_of_ascii {c : Char} (h : c.toNat < 128) : (byte c).toNat = c.toNat :=
  toNat_byte (Nat.lt_trans h (by decide))

theorem toNat_of_isDigit {c : Char} (h : c.isDigit = true) : 48 ≤ c.toNat ∧ c.toNat ≤ 57 := by
  simpa [Char.isDigit, Char.le_def, UInt32.le_iff_toNat_le] using h

theorem isDigit_byte {c : Char} (h : c.isDigit = true) : isDigit (byte c) = true := by
  have hc := toNat_of_isDigit h
  rw [isDigit, Bool.and_eq_true, decide_eq_true_iff, decide_eq_true_iff, UInt8.le_iff_toNat_le, UInt8.le_iff_toNat_le,
    toNat_byte_of_ascii (by omega)]
  exact hc

theorem reads_digits (hs : ∀ b ∈ s, isDigit b = true) (hrest : Breaks rest) : Reads digits s s rest := by
  have hstop : ∀ b ∈ rest.head?, isDigit b = false := by
    intro b hb
    have hnumeric := hrest b hb
    simp only [isNumeric, Bool.or_eq_false_iff] at hnumeric
    exact hnumeric.1.1.1
  rw [digits]
  apply Reads.get
  intro offset
  dsimp only
  rw [takeWhile_run hs hstop]
  exact Reads.after (reads_drop s rest) (Reads.pure s rest)

theorem foldl_digits (n : ℕ) : ((Nat.toDigits 10 n).map byte).foldl (fun m d => 10 * m + digitValue d) 0 = n := by
  have hdigits : ∀ (cs : List Char) (m : ℕ), (∀ c ∈ cs, c.isDigit = true) →
      (cs.map byte).foldl (fun m d => 10 * m + digitValue d) m = Nat.ofDigitChars 10 cs m := by
    intro cs
    induction cs with
    | nil => exact fun m _ => rfl
    | cons c cs ih =>
      intro m h
      rw [List.forall_mem_cons] at h
      have hc := toNat_of_isDigit h.1
      rw [List.map_cons, List.foldl_cons, ih _ h.2, Nat.ofDigitChars_cons, digitValue, toNat_byte_of_ascii (by omega)]
      rfl
  rw [hdigits _ 0 fun c hc => Nat.isDigit_of_mem_toDigits (by decide) (by decide) hc, Nat.ofDigitChars_ten_toDigits]

theorem reads_natural (n : ℕ) (hrest : Breaks rest) : Reads natural (utf8 (toString n).toList) n rest := by
  obtain ⟨⟨hne, hdigits⟩, hzero⟩ := isInteger_toString n
  have hascii : ∀ c ∈ (toString n).toList, c.toNat < 128 := by
    intro c hc
    have := toNat_of_isDigit (hdigits c hc)
    omega
  have hbytes : ∀ b ∈ (toString n).toList.map byte, isDigit b = true := by
    intro b hb
    obtain ⟨c, hc, rfl⟩ := List.mem_map.mp hb
    exact isDigit_byte (hdigits c hc)
  have hnext : (rest.head?.any fun b => b == 0x2E || b == 0x65 || b == 0x45) = false := by
    cases rest with
    | nil => rfl
    | cons b rest =>
      have hnumeric := hrest b rfl
      simp only [isNumeric, Bool.or_eq_false_iff] at hnumeric
      simp [hnumeric.1.1.2, hnumeric.1.2, hnumeric.2]
  have hshort : (((toString n).toList.map byte).isEmpty ||
      ((toString n).toList.map byte).head? == some 0x30 && ((toString n).toList.map byte).length != 1) = false := by
    cases hcs : (toString n).toList with
    | nil => exact absurd hcs hne
    | cons c cs =>
      rw [hcs] at hzero hascii
      by_cases hc : c = '0'
      · subst hc
        have hone := hzero rfl
        rw [hone]
        rfl
      · have hbyte : byte c ≠ 0x30 := by
          intro hbyte
          have hcode := congrArg UInt8.toNat hbyte
          rw [toNat_byte_of_ascii (hascii c List.mem_cons_self)] at hcode
          exact hc (Char.toNat_inj.mp hcode)
        simp [hbyte]
  rw [utf8_ascii hascii, natural]
  refine Reads.after (reads_digits hbytes hrest) ?_
  rw [hshort, if_neg Bool.false_ne_true]
  refine Reads.look (reads_peek _) ?_
  rw [List.nil_append, hnext, if_neg Bool.false_ne_true, Nat.toString_eq_repr, Nat.toList_repr, foldl_digits]
  exact Reads.pure n rest

end

end Reader

end VisibleText.Json
