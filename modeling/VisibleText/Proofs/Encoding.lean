import Mathlib.Data.List.Basic
import Mathlib.Data.List.Lex
import VisibleText.FileSystem.Basic
import VisibleText.Proofs.Offsets

namespace VisibleText

theorem toByteArray_eq (s : String) : s.toByteArray = ⟨(utf8 s.toList).toArray⟩ := by
  have h : (String.ofList s.toList).toByteArray = s.toList.utf8Encode := String.toByteArray_ofList
  rw [String.ofList_toList] at h
  rw [h, List.utf8Encode, utf8]
  ext1
  simp

theorem decode?_eq_some_iff {bs : Bytes} {s : String} : decode? bs = some s ↔ bs = utf8 s.toList := by
  have hbytes := toByteArray_eq s
  unfold decode? String.fromUTF8?
  constructor
  · intro h
    split_ifs at h with hvalid
    have hs : (⟨bs.toArray⟩ : ByteArray) = s.toByteArray := by rw [← Option.some.inj h]; rfl
    rw [hbytes] at hs
    simpa using hs
  · rintro rfl
    rw [dif_pos (hbytes ▸ s.isValidUTF8)]
    congr 1
    apply String.toByteArray_inj.mp
    exact hbytes.symm

theorem decode_utf8 (cs : List Char) : decode (utf8 cs) = String.ofList cs := by
  rw [decode, decode?_eq_some_iff.mpr (by rw [String.toList_ofList])]

theorem FileSystem.readText_eq_ok_iff {fs : FileSystem} {p : Path} {content : List Char} :
    fs.readText p = .ok content ↔ fs.read p = .ok (utf8 content) := by
  unfold readText
  cases fs.read p with
  | error e => simp [bind, Except.bind]
  | ok bs =>
    simp only [bind, Except.bind, Except.ok.injEq]
    constructor
    · intro h
      split at h
      · next s hs =>
        rw [← Except.ok.inj h]
        exact decode?_eq_some_iff.mp hs
      · cases h
    · rintro rfl
      have hs : decode? (utf8 content) = some (String.ofList content) :=
        decode?_eq_some_iff.mpr (by rw [String.toList_ofList])
      simp [hs, pure, Except.pure]

def BytesBefore (as bs : Bytes) : Prop := List.Lex (fun a b => a.toNat < b.toNat) as bs

theorem bytesBefore_cons {a b : UInt8} {as bs : Bytes} :
    BytesBefore (a :: as) (b :: bs) ↔ a.toNat < b.toNat ∨ a.toNat = b.toNat ∧ BytesBefore as bs := by
  rw [UInt8.toNat_inj]
  exact List.cons_lex_cons_iff

theorem not_bytesBefore_nil (as : Bytes) : ¬ BytesBefore as [] := List.not_lex_nil

theorem BytesBefore.append {as bs : Bytes} (h : BytesBefore as bs) (hlen : as.length = bs.length) (cs ds : Bytes) :
    BytesBefore (as ++ cs) (bs ++ ds) := by
  induction h with
  | nil => simp at hlen
  | rel hab => exact .rel hab
  | cons _ ih => exact .cons (ih (by simpa using hlen))

theorem toNat_byte {n : ℕ} (h : n < 256) : (UInt8.ofNat n).toNat = n := by
  rw [UInt8.toNat_ofNat']
  exact Nat.mod_eq_of_lt h

theorem lt_digits {m n : ℕ} (h : m < n) : m / 64 < n / 64 ∨ m / 64 = n / 64 ∧ m % 64 < n % 64 := by
  omega

theorem lt_digits_two {m n : ℕ} (h : m < n) : m / 64 / 64 < n / 64 / 64 ∨ m / 64 / 64 = n / 64 / 64 ∧
    (m / 64 % 64 < n / 64 % 64 ∨ m / 64 % 64 = n / 64 % 64 ∧ m % 64 < n % 64) := by
  rcases lt_digits h with h | ⟨h, hlast⟩
  · rcases lt_digits h with h | ⟨h, hdigit⟩
    · exact .inl h
    · exact .inr ⟨h, .inl hdigit⟩
  · rw [h]
    exact .inr ⟨rfl, .inr ⟨rfl, hlast⟩⟩

theorem lt_digits_three {m n : ℕ} (h : m < n) : m / 64 / 64 / 64 < n / 64 / 64 / 64 ∨
    m / 64 / 64 / 64 = n / 64 / 64 / 64 ∧ (m / 64 / 64 % 64 < n / 64 / 64 % 64 ∨ m / 64 / 64 % 64 = n / 64 / 64 % 64 ∧
      (m / 64 % 64 < n / 64 % 64 ∨ m / 64 % 64 = n / 64 % 64 ∧ m % 64 < n % 64)) := by
  rcases lt_digits_two h with h | ⟨h, hlast⟩
  · rcases lt_digits h with h | ⟨h, hdigit⟩
    · exact .inl h
    · exact .inr ⟨h, .inl hdigit⟩
  · rw [h]
    exact .inr ⟨rfl, .inr ⟨rfl, hlast⟩⟩

theorem utf8EncodeChar_before {c d : Char} (h : c < d) (as bs : Bytes) :
    BytesBefore (String.utf8EncodeChar c ++ as) (String.utf8EncodeChar d ++ bs) := by
  have hlt : c.val.toNat < d.val.toNat := h
  have hmax : d.val.toNat < 0x110000 := by
    have := d.valid
    simp only [UInt32.isValidChar, Nat.isValidChar] at this
    omega
  simp only [String.utf8EncodeChar]
  generalize c.val.toNat = v at *
  generalize d.val.toNat = w at *
  by_cases hlen : (v ≤ 127 ↔ w ≤ 127) ∧ (v ≤ 2047 ↔ w ≤ 2047) ∧ (v ≤ 65535 ↔ w ≤ 65535)
  · -- codes of one length hold the digits in order
    have hsquare : 4096 = 64 * 64 := rfl
    have hcube : 262144 = 64 * 64 * 64 := rfl
    simp only [hlen]
    split_ifs <;> refine BytesBefore.append ?_ (by simp only [List.length_cons]) as bs <;>
      simp (disch := omega) only [bytesBefore_cons, not_bytesBefore_nil, toNat_byte, and_false, or_false,
        hsquare, hcube, ← Nat.div_div_eq_div_mul, Nat.mod_eq_of_lt, Nat.add_lt_add_iff_right,
        Nat.add_right_cancel_iff]
    · exact hlt
    · exact lt_digits hlt
    · exact lt_digits_two hlt
    · exact lt_digits_three hlt
  · -- the leading byte tells the length, and a longer code has the greater one
    split_ifs <;> simp (disch := omega) only [List.cons_append, bytesBefore_cons, toNat_byte] <;> omega

theorem utf8EncodeChar_continuation (c : Char) :
    ∃ b bs, String.utf8EncodeChar c = b :: bs ∧ isContinuation b = false ∧ ∀ x ∈ bs, isContinuation x = true := by
  have hmax : c.val.toNat < 0x110000 := by
    have := c.valid
    simp only [UInt32.isValidChar, Nat.isValidChar] at this
    omega
  have hcont : ∀ n, n < 256 → (isContinuation (UInt8.ofNat n) = true ↔ 128 ≤ n ∧ n < 192) := by
    intro n hn
    simp only [isContinuation, Bool.and_eq_true, decide_eq_true_eq, UInt8.le_iff_toNat_le, UInt8.lt_iff_toNat_lt, toNat_byte hn]
    rfl
  simp only [String.utf8EncodeChar]
  generalize c.val.toNat = v at *
  split_ifs <;> refine ⟨_, _, rfl, ?_, ?_⟩ <;>
    simp (disch := omega) only [Bool.eq_false_iff, Ne, List.forall_mem_cons, List.not_mem_nil, false_implies,
      implies_true, and_true, hcont] <;> omega

theorem utf8_before {cs ds : List Char} (h : List.Lex (· < ·) cs ds) : BytesBefore (utf8 cs) (utf8 ds) := by
  induction h with
  | @nil d ds =>
    have hpos : (utf8 (d :: ds)).length ≠ 0 := by
      have := d.utf8Size_pos
      rw [length_utf8, byteLength_cons]
      omega
    cases hd : utf8 (d :: ds) with
    | nil => simp [hd] at hpos
    | cons b bs => exact .nil
  | @cons c cs ds _ ih =>
    simp only [utf8, List.flatMap_cons] at ih ⊢
    exact List.Lex.append_left _ ih _
  | rel hcd => exact utf8EncodeChar_before hcd _ _

theorem not_bytesBefore_self (as : Bytes) : ¬ BytesBefore as as := by
  induction as with
  | nil => exact not_bytesBefore_nil []
  | cons a as ih => simpa [bytesBefore_cons] using ih

theorem utf8EncodeChar_append_inj {c d : Char} {as bs : Bytes}
    (h : String.utf8EncodeChar c ++ as = String.utf8EncodeChar d ++ bs) : c = d ∧ as = bs := by
  have hcd : c = d := by
    rcases Nat.lt_trichotomy c.toNat d.toNat with hlt | heq | hlt
    · have hbefore := utf8EncodeChar_before hlt as bs
      rw [h] at hbefore
      exact absurd hbefore (not_bytesBefore_self _)
    · exact Char.toNat_inj.mp heq
    · have hbefore := utf8EncodeChar_before hlt bs as
      rw [h] at hbefore
      exact absurd hbefore (not_bytesBefore_self _)
  subst hcd
  exact ⟨rfl, List.append_cancel_left h⟩

theorem utf8_append_inv {cs text : List Char} {bs : Bytes} (h : utf8 cs = utf8 text ++ bs) :
    ∃ rest, cs = text ++ rest ∧ utf8 rest = bs := by
  induction text generalizing cs with
  | nil => exact ⟨cs, rfl, h⟩
  | cons c text ih =>
    have hcons : ∀ d ds, utf8 (d :: ds) = String.utf8EncodeChar d ++ utf8 ds := fun d ds => List.flatMap_cons
    cases cs with
    | nil =>
      have := congrArg List.length h
      have := c.utf8Size_pos
      simp only [List.length_append, length_utf8, byteLength_nil, byteLength_cons] at *
      omega
    | cons d ds =>
      rw [hcons, hcons, List.append_assoc] at h
      obtain ⟨rfl, hrest⟩ := utf8EncodeChar_append_inj h
      obtain ⟨rest, rfl, hbs⟩ := ih hrest
      exact ⟨rest, rfl, hbs⟩

theorem utf8_inj {as bs : List Char} (h : utf8 as = utf8 bs) : as = bs := by
  obtain ⟨rest, rfl, hrest⟩ := utf8_append_inv (h.trans (List.append_nil _).symm)
  have hempty : rest = [] := byteLength_eq_zero.mp (by rw [← length_utf8, hrest]; rfl)
  rw [hempty, List.append_nil]

theorem utf8_getElem?_of_standsAt {cs text : List Char} {offset : ℕ} (h : StandsAt cs offset text) {i : ℕ}
    (hi : i < byteLength text) : (utf8 cs)[offset + i]? = (utf8 text)[i]? := by
  obtain ⟨before, after, rfl, rfl⟩ := h
  rw [List.append_assoc, utf8_append, utf8_append, ← length_utf8, List.getElem?_append_right (by omega),
    Nat.add_sub_cancel_left, List.getElem?_append_left (by rwa [length_utf8])]

theorem sliceBytes_congr {as bs : List Char} {start stop : ℕ} (hle : start ≤ stop)
    (has : IsBoundary as start ∧ IsBoundary as stop) (hbs : IsBoundary bs start ∧ IsBoundary bs stop)
    (hbytes : ∀ i, start ≤ i → i < stop → (utf8 as)[i]? = (utf8 bs)[i]?) :
    sliceBytes as start stop = sliceBytes bs start stop := by
  obtain ⟨x, hx, hxstop⟩ := standsAt_of_boundaries hle has.1 has.2
  obtain ⟨y, hy, hystop⟩ := standsAt_of_boundaries hle hbs.1 hbs.2
  have hslice : sliceBytes as start stop = x := by rw [hxstop, hx.sliceBytes_eq]
  have hslice' : sliceBytes bs start stop = y := by rw [hystop, hy.sliceBytes_eq]
  rw [hslice, hslice']
  refine utf8_inj (List.ext_getElem? fun i => ?_)
  by_cases hi : i < byteLength x
  · rw [← utf8_getElem?_of_standsAt hx hi, ← utf8_getElem?_of_standsAt hy (by omega)]
    exact hbytes _ (by omega) (by omega)
  · rw [List.getElem?_eq_none (by rw [length_utf8]; omega), List.getElem?_eq_none (by rw [length_utf8]; omega)]

theorem utf8_toList_before {s t : String} (h : s < t) : BytesBefore (utf8 s.toList) (utf8 t.toList) :=
  utf8_before h

end VisibleText
