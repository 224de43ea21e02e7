import VisibleText.Proofs.JsonReading

namespace VisibleText.Json

namespace Reader

def members {α : Type} (value : Reader α) : Nat → List (String × α) → Reader (List (String × α))
  | 0, _ => fail .endOfObject
  | fuel + 1, acc => do
    match ← nextKey acc.isEmpty with
    | none =>
      drop 1
      return acc.reverse
    | some key =>
      colon
      members value fuel ((key, ← value) :: acc)

def value : Nat → Reader Value
  | 0 => fail .endOfValue
  | fuel + 1 => do
    let b ← first
    if b == byte 'n' then drop 1; word "ull".toList; return .null
    else if b == byte 't' then drop 1; word "rue".toList; return .bool true
    else if b == byte 'f' then drop 1; word "alse".toList; return .bool false
    else if b == byte '"' then drop 1; return .string (← string)
    else if b == byte '[' then drop 1; return .array (← items (value fuel) ((← get).rest.length + 1) [])
    else if b == byte '\x7b' then drop 1; return .object (← members (value fuel) ((← get).rest.length + 1) [])
    else return .number (← natural)

def document : Reader Value := do
  let v ← value ((← get).rest.length + 1)
  finish
  return v

section

variable {α β : Type} {s rest : Bytes}

def listed {α : Type} (stop : UInt8) (blank close : Bytes) (write : α → Bytes) : Bool → List α → Bytes
  | _, [] => close ++ [stop]
  | fresh, x :: xs => (if fresh then [] else [byte ',']) ++ blank ++ (write x ++ listed stop blank close write false xs)

theorem length_le_listed {stop : UInt8} {blank close : Bytes} {write : α → Bytes} {xs : List α}
    (h : ∀ x ∈ xs, write x ≠ []) (fresh : Bool) : xs.length ≤ (listed stop blank close write fresh xs).length := by
  induction xs generalizing fresh with
  | nil => exact Nat.zero_le _
  | cons x xs ih =>
    rw [List.forall_mem_cons] at h
    have hx := List.length_pos_of_ne_nil h.1
    have hxs := ih h.2 false
    simp only [listed, List.length_append, List.length_cons]
    omega

theorem isNumeric_of_isSpace {b : UInt8} (h : isSpace b = true) : isNumeric b = false := by
  simp only [isSpace, Bool.or_eq_true, beq_iff_eq] at h
  rcases h with ((rfl | rfl) | rfl) | rfl <;> decide

theorem breaks_listed {stop : UInt8} {blank close : Bytes} (hclose : AreSpaces close)
    (hstop : isNumeric stop = false) (write : α → Bytes) (xs : List α) (rest : Bytes) :
    Breaks (listed stop blank close write false xs ++ rest) := by
  intro b hb
  cases xs with
  | nil =>
    cases close with
    | nil =>
      obtain rfl := Option.some.inj hb
      exact hstop
    | cons c close =>
      obtain rfl := Option.some.inj hb
      exact isNumeric_of_isSpace (hclose c List.mem_cons_self)
  | cons x xs =>
    obtain rfl := Option.some.inj hb
    decide

theorem reads_moreItems_end (hs : AreSpaces s) (fresh : Bool) (rest : Bytes) :
    Reads (moreItems fresh) s false (byte ']' :: rest) := by
  rw [moreItems]
  refine Reads.after (reads_skipSpace hs (isSpace_head (by decide) rest)) ?_
  exact Reads.pure false _

theorem reads_moreItems_next {before s : Bytes} {b : UInt8} (hbefore : AreSpaces before) (hs : AreSpaces s)
    (hb : isSpace b = false) (hstop : b ≠ byte ']') (fresh : Bool) (rest : Bytes) :
    Reads (moreItems fresh) ((if fresh then [] else before ++ [byte ',']) ++ s) true (b :: rest) := by
  have hstop' : (b == byte ']') = false := by simpa using hstop
  rw [moreItems]
  cases fresh with
  | true =>
    refine Reads.after (reads_skipSpace hs (isSpace_head hb rest)) ?_
    simp only [List.head?_cons, hstop', if_true, if_false, Bool.false_eq_true]
    exact Reads.pure true _
  | false =>
    simp only [if_false, Bool.false_eq_true, List.append_assoc]
    refine Reads.bind (reads_skipSpace hbefore (isSpace_head (by decide) _)) ?_
    refine Reads.bind (reads_one (byte ',') _) ?_
    refine Reads.after (reads_skipSpace hs (isSpace_head hb rest)) ?_
    simp only [List.head?_cons, hstop', if_false, Bool.false_eq_true]
    exact Reads.pure true _

def Starts (stop : UInt8) (text : Bytes) : Prop := ∃ b bs, text = b :: bs ∧ isSpace b = false ∧ b ≠ stop

theorem reads_items {item : Reader α} {write : α → Bytes} {blank close : Bytes}
    (hblank : AreSpaces blank) (hclose : AreSpaces close) {xs : List α}
    (hstart : ∀ x ∈ xs, Starts (byte ']') (write x))
    (hitem : ∀ x ∈ xs, ∀ rest, Breaks rest → Reads item (write x) x rest) (acc : List α) {fuel : ℕ}
    (hfuel : xs.length < fuel) (rest : Bytes) :
    Reads (items item fuel acc) (listed (byte ']') blank close write acc.isEmpty xs) (acc.reverse ++ xs) rest := by
  induction xs generalizing acc fuel with
  | nil =>
    obtain ⟨fuel, rfl⟩ : ∃ k, fuel = k + 1 := ⟨fuel - 1, by omega⟩
    rw [items, listed, List.append_nil]
    refine Reads.bind (reads_moreItems_end hclose _ _) ?_
    exact Reads.after (reads_one (byte ']') rest) (Reads.pure acc.reverse rest)
  | cons x xs ih =>
    obtain ⟨fuel, rfl⟩ : ∃ k, fuel = k + 1 := ⟨fuel - 1, by omega⟩
    rw [List.forall_mem_cons] at hstart hitem
    obtain ⟨b, bs, hx, hb, hstop⟩ := hstart.1
    have hmore : Reads (moreItems acc.isEmpty) ((if acc.isEmpty then [] else [byte ',']) ++ blank) true
        ((write x ++ listed (byte ']') blank close write false xs) ++ rest) := by
      rw [hx]
      exact reads_moreItems_next areSpaces_nil hblank hb hstop acc.isEmpty _
    have hnumeric : isNumeric (byte ']') = false := by decide
    have hrest := ih hstart.2 hitem.2 (x :: acc) (Nat.lt_of_succ_lt_succ hfuel)
    rw [List.reverse_cons, List.append_assoc, List.singleton_append] at hrest
    rw [items, listed]
    refine Reads.bind hmore ?_
    exact Reads.bind (hitem.1 _ (breaks_listed hclose hnumeric write xs rest)) hrest

theorem reads_nextKey_end (hs : AreSpaces s) (fresh : Bool) (rest : Bytes) :
    Reads (nextKey fresh) s none (byte '\x7d' :: rest) := by
  rw [nextKey]
  refine Reads.after (reads_skipSpace hs (isSpace_head (by decide) rest)) ?_
  exact Reads.pure none _

theorem Stands.reads_nextKey {before s body : Bytes} {key : String} (h : Stands body (utf8 key.toList))
    (hbefore : AreSpaces before) (hs : AreSpaces s) (fresh : Bool) (rest : Bytes) :
    Reads (nextKey fresh) ((if fresh then [] else before ++ [byte ',']) ++ s ++ byte '"' :: (body ++ [byte '"']))
      (some key) rest := by
  have hquote := isSpace_head (b := byte '"') (by decide) ((body ++ [byte '"']) ++ rest)
  have hkey : Reads (do
      drop 1
      return some (← string)) (byte '"' :: (body ++ [byte '"'])) (some key) rest := by
    refine Reads.bind (s := [byte '"']) (reads_one (byte '"') _) ?_
    exact Reads.after (h.reads_string rest) (Reads.pure (some key) rest)
  rw [nextKey]
  cases fresh with
  | true =>
    refine Reads.bind (reads_skipSpace hs hquote) ?_
    refine Reads.look (reads_skipSpace areSpaces_nil hquote) ?_
    exact hkey
  | false =>
    simp only [if_false, Bool.false_eq_true, List.append_assoc]
    refine Reads.bind (reads_skipSpace hbefore (isSpace_head (by decide) _)) ?_
    refine Reads.bind (reads_one (byte ',') _) ?_
    refine Reads.bind (reads_skipSpace hs hquote) ?_
    exact hkey

theorem reads_nextKey (hs : AreSpaces s) (key : String) (fresh : Bool) (rest : Bytes) :
    Reads (nextKey fresh) ((if fresh then [] else [byte ',']) ++ s ++ utf8 (quote key)) (some key) rest := by
  rw [utf8_quote]
  exact (stands_text key.toList).reads_nextKey areSpaces_nil hs fresh rest

theorem reads_colon (hs : AreSpaces s) (rest : Bytes) : Reads colon (s ++ [byte ':']) () rest := by
  rw [colon]
  refine Reads.bind (reads_skipSpace hs (isSpace_head (by decide) rest)) ?_
  exact reads_one (byte ':') rest

theorem reads_members {item : Reader α} {write : α → Bytes} {blank close : Bytes}
    (hblank : AreSpaces blank) (hclose : AreSpaces close) {ms : List (String × α)}
    (hitem : ∀ m ∈ ms, ∀ rest, Breaks rest → Reads item (write m.2) m.2 rest) (acc : List (String × α)) {fuel : ℕ}
    (hfuel : ms.length < fuel) (rest : Bytes) :
    Reads (members item fuel acc)
      (listed (byte '\x7d') blank close (fun m => utf8 (quote m.1) ++ ([byte ':'] ++ write m.2)) acc.isEmpty ms)
      (acc.reverse ++ ms) rest := by
  induction ms generalizing acc fuel with
  | nil =>
    obtain ⟨fuel, rfl⟩ : ∃ k, fuel = k + 1 := ⟨fuel - 1, by omega⟩
    rw [members, listed, List.append_nil]
    refine Reads.bind (reads_nextKey_end hclose _ _) ?_
    exact Reads.after (reads_one (byte '\x7d') rest) (Reads.pure acc.reverse rest)
  | cons m ms ih =>
    obtain ⟨fuel, rfl⟩ : ∃ k, fuel = k + 1 := ⟨fuel - 1, by omega⟩
    obtain ⟨key, x⟩ := m
    rw [List.forall_mem_cons] at hitem
    have hnumeric : isNumeric (byte '\x7d') = false := by decide
    have hrest := ih hitem.2 ((key, x) :: acc) (Nat.lt_of_succ_lt_succ hfuel)
    rw [List.reverse_cons, List.append_assoc, List.singleton_append] at hrest
    have htext : ∀ start tail, start ++ ((utf8 (quote key) ++ ([byte ':'] ++ write x)) ++ tail) =
        (start ++ utf8 (quote key)) ++ ([byte ':'] ++ (write x ++ tail)) := by
      simp only [List.append_assoc, implies_true]
    rw [members, listed, htext]
    refine Reads.bind (reads_nextKey hblank key acc.isEmpty _) ?_
    refine Reads.bind (reads_colon areSpaces_nil _) ?_
    exact Reads.bind (hitem.1 _ (breaks_listed hclose hnumeric _ ms rest)) hrest

theorem length_write_lt_listed (stop : UInt8) (blank close : Bytes) (write : α → Bytes) {xs : List α} {x : α}
    (hx : x ∈ xs) (fresh : Bool) : (write x).length < (listed stop blank close write fresh xs).length := by
  induction xs generalizing fresh with
  | nil => cases hx
  | cons y xs ih =>
    have hlisted : 0 < (listed stop blank close write false xs).length := by
      cases xs <;> simp [listed]
    simp only [listed, List.length_append]
    rcases List.mem_cons.mp hx with rfl | hx
    · omega
    · have := ih hx false
      omega

theorem reads_allItems (f : List α → β) {item : Reader α} {write : α → Bytes} {blank close : Bytes}
    (hblank : AreSpaces blank) (hclose : AreSpaces close) {xs : List α}
    (hstart : ∀ x ∈ xs, Starts (byte ']') (write x))
    (hitem : ∀ x ∈ xs, ∀ rest, Breaks rest → Reads item (write x) x rest) (rest : Bytes) :
    Reads (do return f (← items item ((← MonadState.get).rest.length + 1) [])) (listed (byte ']') blank close write true xs)
      (f xs) rest := by
  have hne : ∀ x ∈ xs, write x ≠ [] := by
    intro x hx
    obtain ⟨b, bs, htext, -⟩ := hstart x hx
    rw [htext]
    exact List.cons_ne_nil b bs
  apply Reads.get
  intro offset
  have hlength : xs.length ≤ (listed (byte ']') blank close write true xs).length := length_le_listed hne true
  refine Reads.after (reads_items hblank hclose hstart hitem [] ?_ rest) (Reads.pure (f xs) rest)
  simp only [List.length_append]
  omega

theorem reads_allMembers (f : List (String × α) → β) {item : Reader α} (write : α → Bytes) {blank close : Bytes}
    (hblank : AreSpaces blank) (hclose : AreSpaces close) {ms : List (String × α)}
    (hitem : ∀ m ∈ ms, ∀ rest, Breaks rest → Reads item (write m.2) m.2 rest) (rest : Bytes) :
    Reads (do return f (← members item ((← MonadState.get).rest.length + 1) []))
      (listed (byte '\x7d') blank close (fun m => utf8 (quote m.1) ++ ([byte ':'] ++ write m.2)) true ms) (f ms) rest := by
  have hne : ∀ m ∈ ms, utf8 (quote m.1) ++ ([byte ':'] ++ write m.2) ≠ [] := by
    intro m _
    rw [utf8_quote]
    exact List.cons_ne_nil _ _
  apply Reads.get
  intro offset
  have hlength : ms.length ≤ (listed (byte '\x7d') blank close
      (fun m => utf8 (quote m.1) ++ ([byte ':'] ++ write m.2)) true ms).length := length_le_listed hne true
  refine Reads.after (reads_members hblank hclose hitem [] ?_ rest) (Reads.pure (f ms) rest)
  simp only [List.length_append]
  omega

theorem areSpaces_utf8 {cs : List Char} (h : IsBlank cs) : AreSpaces (utf8 cs) := by
  induction cs with
  | nil => exact areSpaces_nil
  | cons c cs ih =>
    have hc : c.toNat < 128 ∧ isSpace (byte c) = true := by
      rcases h c List.mem_cons_self with rfl | rfl | rfl | rfl <;> decide
    rw [utf8_cons_ascii hc.1, AreSpaces, List.forall_mem_cons]
    exact ⟨hc.2, ih fun d hd => h d (List.mem_cons_of_mem c hd)⟩

theorem utf8_renderItems (level : ℕ) (close : List Char) (vs : List Value) :
    utf8 (renderItems level vs ++ close ++ [']']) = listed (byte ']') (utf8 (newLine level)) (utf8 close)
      (fun v => utf8 (v.renderAt level)) false vs := by
  induction vs with
  | nil =>
    rw [renderItems, listed, List.nil_append, utf8_append]
    rfl
  | cons v vs ih =>
    rw [renderItems, listed, ← ih]
    simp only [utf8_append, List.cons_append, List.append_assoc, utf8_cons_ascii (c := ',') (by decide)]
    rfl

theorem utf8_array (level : ℕ) (vs : List Value) : ∃ blank close, AreSpaces blank ∧ AreSpaces close ∧
    utf8 ((Value.array vs).renderAt level) =
      byte '[' :: listed (byte ']') blank close (fun v => utf8 (v.renderAt (level + 1))) true vs := by
  cases vs with
  | nil => exact ⟨[], [], areSpaces_nil, areSpaces_nil, by rw [Value.renderAt]; rfl⟩
  | cons v vs =>
    refine ⟨_, _, areSpaces_utf8 (isBlank_newLine (level + 1)), areSpaces_utf8 (isBlank_newLine level), ?_⟩
    rw [Value.renderAt, listed, ← utf8_renderItems]
    simp only [utf8_append, List.cons_append, List.append_assoc, utf8_cons_ascii (c := '[') (by decide)]
    rfl

theorem utf8_renderMembers (level : ℕ) (close : List Char) (ms : List (String × Value)) :
    utf8 (renderMembers level ms ++ close ++ ['\x7d']) = listed (byte '\x7d') (utf8 (newLine level)) (utf8 close)
      (fun m => utf8 (quote m.1) ++ ([byte ':'] ++ ([byte ' '] ++ utf8 (m.2.renderAt level)))) false ms := by
  induction ms with
  | nil =>
    rw [renderMembers, listed, List.nil_append, utf8_append]
    rfl
  | cons m ms ih =>
    obtain ⟨k, v⟩ := m
    rw [renderMembers, listed, ← ih]
    simp only [utf8_append, List.cons_append, List.nil_append, List.append_assoc, utf8_cons_ascii (c := ',') (by decide),
      utf8_cons_ascii (c := ':') (by decide), utf8_cons_ascii (c := ' ') (by decide)]
    rfl

theorem utf8_object (level : ℕ) (ms : List (String × Value)) : ∃ blank close, AreSpaces blank ∧ AreSpaces close ∧
    utf8 ((Value.object ms).renderAt level) =
      byte '\x7b' :: listed (byte '\x7d') blank close
        (fun m => utf8 (quote m.1) ++ ([byte ':'] ++ ([byte ' '] ++ utf8 (m.2.renderAt (level + 1))))) true ms := by
  cases ms with
  | nil => exact ⟨[], [], areSpaces_nil, areSpaces_nil, by rw [Value.renderAt]; rfl⟩
  | cons m ms =>
    obtain ⟨k, v⟩ := m
    refine ⟨_, _, areSpaces_utf8 (isBlank_newLine (level + 1)), areSpaces_utf8 (isBlank_newLine level), ?_⟩
    rw [Value.renderAt, listed, ← utf8_renderMembers]
    simp only [utf8_append, List.cons_append, List.nil_append, List.append_assoc, utf8_cons_ascii (c := '\x7b') (by decide),
      utf8_cons_ascii (c := ':') (by decide), utf8_cons_ascii (c := ' ') (by decide)]
    rfl

theorem isSpace_of_isDigit {b : UInt8} (h : isDigit b = true) : isSpace b = false := by
  rw [Bool.eq_false_iff]
  intro hspace
  have hnumeric := isNumeric_of_isSpace hspace
  simp [isNumeric, h] at hnumeric

theorem utf8_number (n : ℕ) : ∃ b bs, utf8 (toString n).toList = b :: bs ∧ isDigit b = true := by
  obtain ⟨⟨hne, hdigits⟩, -⟩ := isInteger_toString n
  cases hcs : (toString n).toList with
  | nil => exact absurd hcs hne
  | cons c cs =>
    rw [hcs] at hdigits
    have hc := hdigits c List.mem_cons_self
    have hascii := toNat_of_isDigit hc
    exact ⟨byte c, utf8 cs, utf8_cons_ascii (by omega) cs, isDigit_byte hc⟩

theorem starts_renderAt (v : Value) (level : ℕ) : Starts (byte ']') (utf8 (v.renderAt level)) := by
  cases v with
  | null =>
    rw [Value.renderAt]
    exact ⟨byte 'n', utf8 "ull".toList, rfl, by decide, by decide⟩
  | bool b =>
    rw [Value.renderAt]
    cases b with
    | true => exact ⟨byte 't', utf8 "rue".toList, rfl, by decide, by decide⟩
    | false => exact ⟨byte 'f', utf8 "alse".toList, rfl, by decide, by decide⟩
  | number n =>
    obtain ⟨b, bs, htext, hb⟩ := utf8_number n
    rw [Value.renderAt]
    refine ⟨b, bs, htext, isSpace_of_isDigit hb, ?_⟩
    rintro rfl
    exact absurd hb (by decide)
  | string s =>
    rw [Value.renderAt, utf8_quote]
    exact ⟨_, _, rfl, by decide, by decide⟩
  | array vs =>
    obtain ⟨blank, close, -, -, htext⟩ := utf8_array level vs
    exact ⟨_, _, htext, by decide, by decide⟩
  | object ms =>
    obtain ⟨blank, close, -, -, htext⟩ := utf8_object level ms
    exact ⟨_, _, htext, by decide, by decide⟩

theorem reads_symbol (b : UInt8) {cs : List Char} (hcs : (cs.all fun c => c.toNat < 128) = true) (a : α) (rest : Bytes) :
    Reads (do drop 1; word cs; return a) (b :: utf8 cs) a rest := by
  refine Reads.bind (s := [b]) (reads_one b _) ?_
  exact Reads.after (reads_word hcs rest) (Reads.pure a rest)

theorem reads_value {fuel : ℕ} {v : Value} {level : ℕ} (hfuel : (utf8 (v.renderAt level)).length ≤ fuel)
    (hs : AreSpaces s) (hrest : Breaks rest) :
    Reads (value fuel) (s ++ utf8 (v.renderAt level)) v rest := by
  -- what is nested is shorter than what it stands in, so the length of the text is fuel enough
  induction fuel generalizing v level s rest with
  | zero =>
    obtain ⟨b, bs, htext, -⟩ := starts_renderAt v level
    rw [htext, List.length_cons] at hfuel
    omega
  | succ fuel ih =>
    rw [value]
    cases v with
    | null =>
      rw [Value.renderAt]
      exact Reads.bind (reads_first hs (by decide)) (reads_symbol (byte 'n') (by decide) Value.null rest)
    | bool b =>
      rw [Value.renderAt]
      cases b with
      | true => exact Reads.bind (reads_first hs (by decide)) (reads_symbol (byte 't') (by decide) (Value.bool true) rest)
      | false => exact Reads.bind (reads_first hs (by decide)) (reads_symbol (byte 'f') (by decide) (Value.bool false) rest)
    | number n =>
      obtain ⟨b, bs, htext, hb⟩ := utf8_number n
      have hnatural := reads_natural n hrest
      rw [Value.renderAt]
      rw [htext] at hnatural ⊢
      refine Reads.bind (reads_first hs (isSpace_of_isDigit hb)) ?_
      have hother : ∀ c : Char, isDigit (byte c) = false → (b == byte c) = false := by
        intro c hc
        rw [beq_eq_false_iff_ne]
        rintro rfl
        exact absurd hb (by simp [hc])
      simp only [hother 'n' (by decide), hother 't' (by decide), hother 'f' (by decide), hother '"' (by decide),
        hother '[' (by decide), hother '\x7b' (by decide), if_false, Bool.false_eq_true]
      exact Reads.after hnatural (Reads.pure (Value.number n) rest)
    | string x =>
      rw [Value.renderAt, utf8_quote]
      refine Reads.bind (reads_first hs (by decide)) ?_
      refine Reads.bind (s := [byte '"']) (reads_one (byte '"') _) ?_
      exact Reads.after (reads_string x rest) (Reads.pure (Value.string x) rest)
    | array vs =>
      obtain ⟨blank, close, hblank, hclose, htext⟩ := utf8_array level vs
      rw [htext] at hfuel ⊢
      refine Reads.bind (reads_first hs (by decide)) ?_
      refine Reads.bind (s := [byte '[']) (reads_one (byte '[') _) ?_
      apply reads_allItems Value.array hblank hclose
      · exact fun v _ => starts_renderAt v (level + 1)
      · intro v hv rest hrest
        have hlength := length_write_lt_listed (byte ']') blank close (fun v => utf8 (Value.renderAt (level + 1) v)) hv true
        rw [List.length_cons] at hfuel
        exact ih (s := []) (by omega) areSpaces_nil hrest
    | object ms =>
      obtain ⟨blank, close, hblank, hclose, htext⟩ := utf8_object level ms
      rw [htext] at hfuel ⊢
      refine Reads.bind (reads_first hs (by decide)) ?_
      refine Reads.bind (s := [byte '\x7b']) (reads_one (byte '\x7b') _) ?_
      apply reads_allMembers Value.object (fun v => [byte ' '] ++ utf8 (v.renderAt (level + 1))) hblank hclose
      intro m hm rest hrest
      have hspace : AreSpaces [byte ' '] := List.forall_mem_singleton.mpr (by decide)
      have hlength := length_write_lt_listed (byte '\x7d') blank close
        (fun m => utf8 (quote m.1) ++ ([byte ':'] ++ ([byte ' '] ++ utf8 (Value.renderAt (level + 1) m.2)))) hm true
      simp only [List.length_append, List.length_cons] at hfuel hlength
      exact ih (by omega) hspace hrest

theorem reads_finish (hs : AreSpaces s) : Reads finish s () [] := by
  rw [finish]
  exact Reads.after (reads_skipSpace hs nofun) (Reads.pure () [])

theorem reads_document (v : Value) (hs : AreSpaces s) :
    Reads document (utf8 (v.renderAt 0) ++ s) v [] := by
  have hbreaks : Breaks (s ++ []) := by
    intro b hb
    rw [List.append_nil] at hb
    exact isNumeric_of_isSpace (hs b (List.mem_of_mem_head? hb))
  rw [document]
  apply Reads.get
  intro offset
  refine Reads.bind (reads_value (s := []) ?_ areSpaces_nil hbreaks) ?_
  · simp only [List.length_append]
    omega
  · exact Reads.after (reads_finish hs) (Reads.pure v [])

end

end Reader

def parse (bytes : Bytes) : Except ReadError Value :=
  match Reader.document.run ⟨0, bytes⟩ with
  | .ok (v, _) => .ok v
  | .error e => .error e

theorem parse_renderAt (v : Value) {blank : List Char} (hblank : IsBlank blank) :
    parse (utf8 (v.renderAt 0 ++ blank)) = .ok v := by
  obtain ⟨offset, hrun⟩ := Reader.reads_document v (Reader.areSpaces_utf8 hblank) 0
  rw [List.append_nil] at hrun
  rw [parse, utf8_append, hrun]

end VisibleText.Json
