import Mathlib.Data.List.Basic
import VisibleText.Json.Value

namespace VisibleText.Json

def IsBlank (cs : List Char) : Prop := ∀ c ∈ cs, c = ' ' ∨ c = '\n' ∨ c = '\r' ∨ c = '\t'

def IsHex (c : Char) : Prop := c ∈ "0123456789abcdefABCDEF".toList

inductive IsPiece : List Char → Prop
  | plain {c : Char} (hcontrol : 0x20 ≤ c.toNat) (hquote : c ≠ '"') (hslash : c ≠ '\\') : IsPiece [c]
  | short {c : Char} (h : c ∈ "\"\\/bfnrt".toList) : IsPiece ['\\', c]
  | code {a b c d : Char} (ha : IsHex a) (hb : IsHex b) (hc : IsHex c) (hd : IsHex d) : IsPiece ['\\', 'u', a, b, c, d]

inductive IsString : List Char → Prop
  | quoted {pieces : List (List Char)} (h : ∀ piece ∈ pieces, IsPiece piece) : IsString ('"' :: pieces.flatten ++ ['"'])

def AreDigits (cs : List Char) : Prop := cs ≠ [] ∧ ∀ c ∈ cs, c.isDigit = true

def IsInteger (cs : List Char) : Prop := AreDigits cs ∧ (cs.head? = some '0' → cs = ['0'])

inductive IsFraction : List Char → Prop
  | none : IsFraction []
  | some {ds : List Char} (h : AreDigits ds) : IsFraction ('.' :: ds)

inductive IsExponent : List Char → Prop
  | none : IsExponent []
  | some {e : Char} {sign ds : List Char} (he : e = 'e' ∨ e = 'E') (hsign : sign ∈ [[], ['+'], ['-']])
      (h : AreDigits ds) : IsExponent (e :: sign ++ ds)

inductive IsNumber : List Char → Prop
  | mk {sign integer fraction exponent : List Char} (hsign : sign ∈ [[], ['-']]) (hinteger : IsInteger integer)
      (hfraction : IsFraction fraction) (hexponent : IsExponent exponent) :
      IsNumber (sign ++ integer ++ fraction ++ exponent)

mutual

inductive IsValue : List Char → Prop
  | word {cs : List Char} (h : cs ∈ ["null".toList, "true".toList, "false".toList]) : IsValue cs
  | number {cs : List Char} (h : IsNumber cs) : IsValue cs
  | string {cs : List Char} (h : IsString cs) : IsValue cs
  | noItems {blank : List Char} (h : IsBlank blank) : IsValue ('[' :: blank ++ [']'])
  | array {items : List Char} (h : IsItems items) : IsValue ('[' :: items ++ [']'])
  | noMembers {blank : List Char} (h : IsBlank blank) : IsValue ('\x7b' :: blank ++ ['\x7d'])
  | object {members : List Char} (h : IsMembers members) : IsValue ('\x7b' :: members ++ ['\x7d'])

inductive IsItems : List Char → Prop
  | last {before value after : List Char} (hbefore : IsBlank before) (hvalue : IsValue value) (hafter : IsBlank after) :
      IsItems (before ++ value ++ after)
  | more {before value after rest : List Char} (hbefore : IsBlank before) (hvalue : IsValue value) (hafter : IsBlank after)
      (hrest : IsItems rest) : IsItems (before ++ value ++ after ++ ',' :: rest)

inductive IsMembers : List Char → Prop
  | last {before key between behind value after : List Char} (hbefore : IsBlank before) (hkey : IsString key)
      (hbetween : IsBlank between) (hbehind : IsBlank behind) (hvalue : IsValue value) (hafter : IsBlank after) :
      IsMembers (before ++ key ++ between ++ ':' :: (behind ++ value ++ after))
  | more {before key between behind value after rest : List Char} (hbefore : IsBlank before) (hkey : IsString key)
      (hbetween : IsBlank between) (hbehind : IsBlank behind) (hvalue : IsValue value) (hafter : IsBlank after)
      (hrest : IsMembers rest) :
      IsMembers (before ++ key ++ between ++ ':' :: (behind ++ value ++ after) ++ ',' :: rest)

end

theorem isBlank_nil : IsBlank [] := nofun

theorem isBlank_newLine (level : ℕ) : IsBlank (newLine level) := by
  intro c hc
  rcases List.mem_cons.mp hc with rfl | hc
  · exact .inr (.inl rfl)
  · exact .inl (List.eq_of_mem_replicate hc)

theorem isHex_hexDigit : ∀ n < 16, IsHex (hexDigit n) := by
  unfold IsHex
  decide

theorem isPiece_escape (c : Char) : IsPiece (escape c) := by
  rw [escape]
  split_ifs with hquote hslash hn hr ht hb hf hcontrol
  · exact .short (by decide)
  · exact .short (by decide)
  · exact .short (by decide)
  · exact .short (by decide)
  · exact .short (by decide)
  · exact .short (by decide)
  · exact .short (by decide)
  · have hzero : IsHex '0' := isHex_hexDigit 0 (by decide)
    exact .code hzero hzero (isHex_hexDigit _ (by omega)) (isHex_hexDigit _ (by omega))
  · exact .plain (by omega) hquote hslash

theorem isString_quote (s : String) : IsString (quote s) := by
  rw [quote, List.flatMap]
  apply IsString.quoted
  intro piece hpiece
  obtain ⟨c, -, rfl⟩ := List.mem_map.mp hpiece
  exact isPiece_escape c

theorem head?_toDigits {n : ℕ} (h : 0 < n) : (Nat.toDigits 10 n).head? ≠ some '0' := by
  induction n using Nat.strongRecOn with
  | ind n ih =>
    by_cases hn : n < 10
    · rw [Nat.toDigits_of_lt_base hn]
      intro hzero
      have hdigit : ∀ d < 10, 0 < d → Nat.digitChar d ≠ '0' := by decide
      exact hdigit n hn h (Option.some.inj hzero)
    · have hrest := ih (n / 10) (by omega) (by omega)
      rw [Nat.toDigits_of_base_le (by decide) (by omega)]
      cases hdigits : Nat.toDigits 10 (n / 10) with
      | nil => exact absurd hdigits Nat.toDigits_ne_nil
      | cons d ds =>
        rw [hdigits] at hrest
        exact hrest

theorem isInteger_toString (n : ℕ) : IsInteger (toString n).toList := by
  rw [Nat.toString_eq_repr, Nat.toList_repr]
  refine ⟨⟨Nat.toDigits_ne_nil, fun c hc => Nat.isDigit_of_mem_toDigits (by decide) (by decide) hc⟩, ?_⟩
  intro hzero
  rcases Nat.eq_zero_or_pos n with rfl | hn
  · rfl
  · exact absurd hzero (head?_toDigits hn)

theorem isNumber_toString (n : ℕ) : IsNumber (toString n).toList := by
  have hsign : ([] : List Char) ∈ [[], ['-']] := List.mem_cons_self
  simpa using IsNumber.mk hsign (isInteger_toString n) .none .none

theorem Value.induction {motive : Value → Prop} (null : motive .null) (bool : ∀ b, motive (.bool b))
    (number : ∀ n, motive (.number n)) (string : ∀ s, motive (.string s))
    (array : ∀ vs, (∀ v ∈ vs, motive v) → motive (.array vs))
    (object : ∀ ms, (∀ m ∈ ms, motive m.2) → motive (.object ms)) : ∀ v, motive v
  | .null => null
  | .bool b => bool b
  | .number n => number n
  | .string s => string s
  | .array vs => array vs fun v _ => Value.induction null bool number string array object v
  | .object ms => object ms fun m hm =>
    have hsize : sizeOf m.2 < 1 + sizeOf ms := by
      have hmem := List.sizeOf_lt_of_mem hm
      obtain ⟨k, v⟩ := m
      simp only [Prod.mk.sizeOf_spec] at hmem
      dsimp only
      omega
    Value.induction null bool number string array object m.2

theorem isItems_render {level : ℕ} {v : Value} {vs : List Value} (h : ∀ x ∈ v :: vs, IsValue (x.renderAt level))
    {after : List Char} (hafter : IsBlank after) :
    IsItems (newLine level ++ v.renderAt level ++ renderItems level vs ++ after) := by
  induction vs generalizing v with
  | nil =>
    rw [renderItems, List.append_nil]
    exact .last (isBlank_newLine level) (h v (by simp)) hafter
  | cons w vs ih =>
    have hrest := ih fun x hx => h x (List.mem_cons_of_mem v hx)
    have hmore := IsItems.more (isBlank_newLine level) (h v (by simp)) isBlank_nil hrest
    rw [renderItems]
    simpa using hmore

theorem isMembers_render {level : ℕ} {k : String} {v : Value} {ms : List (String × Value)}
    (h : ∀ m ∈ (k, v) :: ms, IsValue (m.2.renderAt level)) {after : List Char} (hafter : IsBlank after) :
    IsMembers (newLine level ++ quote k ++ [':', ' '] ++ v.renderAt level ++ renderMembers level ms ++ after) := by
  have hspace : IsBlank [' '] := by simp [IsBlank]
  induction ms generalizing k v with
  | nil =>
    have hlast := IsMembers.last (isBlank_newLine level) (isString_quote k) isBlank_nil hspace
      (h (k, v) (by simp)) hafter
    rw [renderMembers]
    simpa using hlast
  | cons m ms ih =>
    obtain ⟨k', w⟩ := m
    have hrest := ih fun m hm => h m (List.mem_cons_of_mem _ hm)
    have hmore := IsMembers.more (isBlank_newLine level) (isString_quote k) isBlank_nil hspace
      (h (k, v) (by simp)) isBlank_nil hrest
    rw [renderMembers]
    simpa using hmore

theorem isValue_renderAt (v : Value) (level : ℕ) : IsValue (v.renderAt level) := by
  induction v using Value.induction generalizing level with
  | null => exact .word (by simp [Value.renderAt])
  | bool b => cases b <;> exact .word (by simp [Value.renderAt])
  | number n =>
    rw [Value.renderAt]
    exact .number (isNumber_toString n)
  | string s =>
    rw [Value.renderAt]
    exact .string (isString_quote s)
  | array vs ih =>
    cases vs with
    | nil =>
      rw [Value.renderAt]
      exact .noItems isBlank_nil
    | cons v vs =>
      have hitems := isItems_render (fun x hx => ih x hx (level + 1)) (isBlank_newLine level)
      rw [Value.renderAt]
      simpa using IsValue.array hitems
  | object ms ih =>
    cases ms with
    | nil =>
      rw [Value.renderAt]
      exact .noMembers isBlank_nil
    | cons m ms =>
      obtain ⟨k, v⟩ := m
      have hmembers := isMembers_render (fun m hm => ih m hm (level + 1)) (isBlank_newLine level)
      rw [Value.renderAt]
      simpa using IsValue.object hmembers

end VisibleText.Json
