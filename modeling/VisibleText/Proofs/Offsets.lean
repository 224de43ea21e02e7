import Mathlib.Data.List.Basic
import VisibleText.Hit

namespace VisibleText

@[simp] theorem byteLength_nil : byteLength [] = 0 := rfl

@[simp] theorem byteLength_cons (c : Char) (cs : List Char) :
    byteLength (c :: cs) = c.utf8Size + byteLength cs := rfl

@[simp] theorem byteLength_append (as bs : List Char) :
    byteLength (as ++ bs) = byteLength as + byteLength bs := by
  induction as with
  | nil => simp
  | cons c as ih => simp only [List.cons_append, byteLength_cons, ih]; omega

theorem byteLength_eq_zero {cs : List Char} : byteLength cs = 0 ↔ cs = [] := by
  cases cs with
  | nil => simp
  | cons c cs =>
    have := c.utf8Size_pos
    simp only [byteLength_cons, reduceCtorEq, iff_false]
    omega

@[simp] theorem utf8_append (as bs : List Char) : utf8 (as ++ bs) = utf8 as ++ utf8 bs := by
  simp [utf8]

@[simp] theorem length_utf8 (cs : List Char) : (utf8 cs).length = byteLength cs := by
  induction cs with
  | nil => rfl
  | cons c cs ih => simpa [utf8] using ih

theorem dropBytes_append (pre post : List Char) : dropBytes (byteLength pre) (pre ++ post) = post := by
  induction pre with
  | nil => cases post <;> rfl
  | cons c pre ih =>
    obtain ⟨k, hk⟩ : ∃ k, c.utf8Size + byteLength pre = k + 1 :=
      ⟨c.utf8Size + byteLength pre - 1, by have := c.utf8Size_pos; omega⟩
    have hrest : k + 1 - c.utf8Size = byteLength pre := by omega
    rw [byteLength_cons, hk, List.cons_append, dropBytes, hrest, ih]

theorem takeBytes_append (pre post : List Char) : takeBytes (byteLength pre) (pre ++ post) = pre := by
  induction pre with
  | nil =>
    cases post with
    | nil => rfl
    | cons c post =>
      have := c.utf8Size_pos
      simp only [byteLength_nil, List.nil_append, takeBytes]
      rw [if_neg (by omega)]
  | cons c pre ih => simp [takeBytes, ih]

theorem takeBytes_prefix (n : ℕ) (cs : List Char) : takeBytes n cs <+: cs := by
  induction cs generalizing n with
  | nil => simp [takeBytes]
  | cons c cs ih =>
    simp only [takeBytes]
    split_ifs
    · exact List.cons_prefix_cons.mpr ⟨rfl, ih _⟩
    · exact List.nil_prefix

theorem byteLength_takeBytes_le (n : ℕ) (cs : List Char) : byteLength (takeBytes n cs) ≤ n := by
  induction cs generalizing n with
  | nil => simp [takeBytes]
  | cons c cs ih =>
    simp only [takeBytes]
    split_ifs with h
    · have := ih (n - c.utf8Size)
      simp only [byteLength_cons]
      omega
    · simp

theorem byteLength_sliceBytes_le (cs : List Char) (start stop : ℕ) :
    byteLength (sliceBytes cs start stop) ≤ stop - start := byteLength_takeBytes_le _ _

def StandsAt (content : List Char) (offset : ℕ) (text : List Char) : Prop :=
  ∃ before after, content = before ++ text ++ after ∧ byteLength before = offset

theorem StandsAt.sliceBytes_eq {content text : List Char} {offset : ℕ} (h : StandsAt content offset text) :
    sliceBytes content offset (offset + byteLength text) = text := by
  obtain ⟨before, after, rfl, rfl⟩ := h
  rw [sliceBytes, List.append_assoc, dropBytes_append, Nat.add_sub_cancel_left, takeBytes_append]

theorem StandsAt.part {content before text after : List Char} {offset : ℕ}
    (h : StandsAt content offset (before ++ text ++ after)) :
    StandsAt content (offset + byteLength before) text := by
  obtain ⟨pre, post, rfl, rfl⟩ := h
  exact ⟨pre ++ before, after ++ post, by simp, by simp⟩

theorem isBoundary_iff {cs : List Char} {n : ℕ} :
    IsBoundary cs n ↔ ∃ pre post, cs = pre ++ post ∧ byteLength pre = n := by
  constructor
  · rintro ⟨k, hk⟩
    exact ⟨cs.take k, cs.drop k, by simp, hk⟩
  · rintro ⟨pre, post, rfl, rfl⟩
    exact ⟨pre.length, by simp⟩

theorem floorBoundary_eq_self {cs : List Char} {n : ℕ} : floorBoundary cs n = n ↔ IsBoundary cs n := by
  rw [isBoundary_iff]
  constructor
  · intro h
    obtain ⟨post, hpost⟩ := takeBytes_prefix n cs
    exact ⟨takeBytes n cs, post, hpost.symm, h⟩
  · rintro ⟨pre, post, rfl, rfl⟩
    rw [floorBoundary, takeBytes_append]

theorem prefix_of_byteLength_le {p q cs : List Char} (hp : p <+: cs) (hq : q <+: cs)
    (h : byteLength p ≤ byteLength q) : p <+: q := by
  rcases List.prefix_or_prefix_of_prefix hp hq with hpq | ⟨r, rfl⟩
  · exact hpq
  · have hr : r = [] := byteLength_eq_zero.mp (by simp only [byteLength_append] at h; omega)
    simp [hr]

theorem standsAt_of_boundaries {cs : List Char} {start stop : ℕ} (hle : start ≤ stop)
    (hstart : IsBoundary cs start) (hstop : IsBoundary cs stop) :
    ∃ text, StandsAt cs start text ∧ stop = start + byteLength text := by
  obtain ⟨pre, post, hcs, rfl⟩ := isBoundary_iff.mp hstart
  obtain ⟨pre', post', hcs', rfl⟩ := isBoundary_iff.mp hstop
  obtain ⟨text, rfl⟩ := prefix_of_byteLength_le ⟨post, hcs.symm⟩ ⟨post', hcs'.symm⟩ hle
  exact ⟨text, ⟨pre, post', hcs', rfl⟩, by simp⟩

theorem slice?_standsAt {cs text : List Char} {start stop : ℕ} (h : slice? cs start stop = some text) :
    StandsAt cs start text ∧ stop = start + byteLength text := by
  unfold slice? at h
  split_ifs at h with hc
  obtain ⟨hle, hstart, hstop⟩ := hc
  obtain ⟨t, ht, hs⟩ := standsAt_of_boundaries hle (floorBoundary_eq_self.mp hstart)
    (floorBoundary_eq_self.mp hstop)
  obtain rfl : t = text := by
    rw [← ht.sliceBytes_eq, ← hs]
    exact Option.some.inj h
  exact ⟨ht, hs⟩

theorem utf8EncodeChar_cases (c : Char) :
    (c.utf8Size = 1 ∧ String.utf8EncodeChar c = [UInt8.ofNat c.toNat] ∧ c.toNat < 128) ∨
      ∀ b ∈ String.utf8EncodeChar c, ¬ b < 0x80 := by
  by_cases h : c.toNat ≤ 0x7f
  · left
    have hone : String.utf8EncodeChar c = [UInt8.ofNat c.toNat] := by
      simp only [String.utf8EncodeChar]
      exact if_pos h
    refine ⟨?_, hone, by omega⟩
    rw [← String.length_utf8EncodeChar, hone, List.length_singleton]
  · right
    have hv : ¬ c.val.toNat ≤ 0x7f := h
    have hmark : UInt8.toNat 0x80 = 128 := rfl
    simp only [String.utf8EncodeChar, if_neg hv]
    split_ifs <;> simp only [List.mem_cons, List.not_mem_nil, or_false, forall_eq_or_imp, forall_eq,
      UInt8.lt_iff_toNat_lt, UInt8.toNat_ofNat', hmark] <;> omega

theorem exists_ascii_char {cs : List Char} {i : ℕ} {b : UInt8} (h : (utf8 cs)[i]? = some b) (hb : b < 0x80) :
    ∃ c, StandsAt cs i [c] ∧ c.utf8Size = 1 ∧ b = UInt8.ofNat c.toNat := by
  induction cs generalizing i with
  | nil => simp [utf8] at h
  | cons c cs ih =>
    have hcons : utf8 (c :: cs) = String.utf8EncodeChar c ++ utf8 cs := by simp [utf8]
    rw [hcons] at h
    by_cases hi : i < c.utf8Size
    · rw [List.getElem?_append_left (by simpa using hi)] at h
      rcases utf8EncodeChar_cases c with ⟨hsize, hbytes, _⟩ | hnone
      · obtain rfl : i = 0 := by omega
        rw [hbytes] at h
        exact ⟨c, ⟨[], cs, rfl, rfl⟩, hsize, by simpa using h.symm⟩
      · exact absurd hb (hnone b (List.mem_of_getElem? h))
    · rw [List.getElem?_append_right (by simpa using Nat.not_lt.mp hi), String.length_utf8EncodeChar] at h
      obtain ⟨d, ⟨before, after, hcs, hlen⟩, hd⟩ := ih h
      refine ⟨d, ⟨c :: before, after, by simp [hcs], ?_⟩, hd⟩
      simp only [byteLength_cons, hlen]
      omega

theorem isBoundary_of_ascii {cs : List Char} {i : ℕ} {b : UInt8} (h : (utf8 cs)[i]? = some b)
    (hb : b < 0x80) : IsBoundary cs i ∧ IsBoundary cs (i + 1) := by
  obtain ⟨c, ⟨before, after, rfl, rfl⟩, hc, -⟩ := exists_ascii_char h hb
  exact ⟨isBoundary_iff.mpr ⟨before, c :: after, by simp, rfl⟩,
    isBoundary_iff.mpr ⟨before ++ [c], after, by simp, by simp [hc]⟩⟩

theorem toNat_of_mem_utf8 {c : Char} {b : UInt8} (h : b ∈ utf8 [c]) (hb : b < 0x80) : c.toNat = b.toNat := by
  have h : b ∈ String.utf8EncodeChar c := by simpa [utf8] using h
  rcases utf8EncodeChar_cases c with ⟨-, hone, hascii⟩ | hbeyond
  · rw [hone, List.mem_singleton] at h
    rw [h, UInt8.toNat_ofNat']
    omega
  · exact absurd hb (hbeyond b h)

theorem exists_char_of_mem_utf8 {cs : List Char} {b : UInt8} (h : b ∈ utf8 cs) (hb : b < 0x80) :
    ∃ c ∈ cs, c.toNat = b.toNat := by
  obtain ⟨c, hc, hmem⟩ := List.mem_flatMap.mp h
  exact ⟨c, hc, toNat_of_mem_utf8 (by simpa [utf8] using hmem) hb⟩

theorem utf8_split_ascii {cs : List Char} {x y : Bytes} {b : UInt8} (h : utf8 cs = x ++ b :: y) (hb : b < 0x80) :
    ∃ before c after, cs = before ++ c :: after ∧ utf8 before = x ∧ utf8 [c] = [b] ∧ utf8 after = y := by
  have hat : (utf8 cs)[x.length]? = some b := by simp [h]
  obtain ⟨c, ⟨before, after, rfl, hbefore⟩, hc, -⟩ := exists_ascii_char hat hb
  rw [List.append_assoc, utf8_append, utf8_append] at h
  obtain ⟨hx, hrest⟩ := List.append_inj h (by rw [length_utf8, hbefore])
  have hrest : utf8 [c] ++ utf8 after = [b] ++ y := hrest
  obtain ⟨hb, hy⟩ := List.append_inj hrest (by simp [hc])
  exact ⟨before, c, after, by simp, hx, hb, hy⟩

theorem indexOf?_some {needle bs : Bytes} {i : ℕ} (h : indexOf? needle bs = some i) : needle <+: bs.drop i := by
  fun_induction indexOf? needle bs generalizing i with
  | case1 hempty =>
    rw [List.isEmpty_iff.mp hempty]
    exact List.nil_prefix
  | case2 => simp at h
  | case3 b bs hp =>
    obtain rfl := Option.some.inj h
    simpa using hp
  | case4 b bs hp ih =>
    obtain ⟨j, hj, rfl⟩ := Option.map_eq_some_iff.mp h
    exact ih hj

/-- A span that can be cut out of a text: its ends are in order, inside of the text, and between characters. -/
structure Cuts (content : List Char) (s : Span) : Prop where
  ordered : s.start ≤ s.stop
  bounded : s.stop ≤ byteLength content
  start : IsBoundary content s.start
  stop : IsBoundary content s.stop

section

variable {content : List Char}

theorem isBoundary_zero (content : List Char) : IsBoundary content 0 := ⟨0, rfl⟩

theorem isBoundary_length (content : List Char) : IsBoundary content (byteLength content) :=
  ⟨content.length, by rw [List.take_length]⟩

theorem IsBoundary.le {n : ℕ} (h : IsBoundary content n) : n ≤ byteLength content := by
  obtain ⟨pre, post, rfl, rfl⟩ := isBoundary_iff.mp h
  rw [byteLength_append]
  omega

theorem cuts_of_boundaries {s : Span} (hle : s.start ≤ s.stop) (hstart : IsBoundary content s.start)
    (hstop : IsBoundary content s.stop) : Cuts content s := ⟨hle, hstop.le, hstart, hstop⟩

theorem cuts_whole (content : List Char) : Cuts content ⟨0, byteLength content⟩ :=
  cuts_of_boundaries (Nat.zero_le _) (isBoundary_zero content) (isBoundary_length content)

theorem cuts_front {n : ℕ} (h : IsBoundary content n) : Cuts content ⟨0, n⟩ :=
  cuts_of_boundaries (Nat.zero_le n) (isBoundary_zero content) h

theorem cuts_back {n : ℕ} (h : IsBoundary content n) : Cuts content ⟨n, byteLength content⟩ :=
  cuts_of_boundaries h.le h (isBoundary_length content)

theorem Cuts.slice?_eq {s : Span} (h : Cuts content s) :
    slice? content s.start s.stop = some (sliceBytes content s.start s.stop) :=
  if_pos ⟨h.ordered, floorBoundary_eq_self.mpr h.start, floorBoundary_eq_self.mpr h.stop⟩

theorem Cuts.standsAt {s : Span} (h : Cuts content s) :
    ∃ text, StandsAt content s.start text ∧ s.stop = s.start + byteLength text :=
  standsAt_of_boundaries h.ordered h.start h.stop

theorem StandsAt.cuts {text : List Char} {offset : ℕ} (h : StandsAt content offset text) :
    Cuts content ⟨offset, offset + byteLength text⟩ := by
  obtain ⟨before, after, rfl, rfl⟩ := h
  refine cuts_of_boundaries (Nat.le_add_right _ _) ?_ ?_
  · exact isBoundary_iff.mpr ⟨before, text ++ after, List.append_assoc .., rfl⟩
  · exact isBoundary_iff.mpr ⟨before ++ text, after, rfl, byteLength_append ..⟩

theorem cuts_of_slice? {s : Span} {text : List Char} (h : slice? content s.start s.stop = some text) : Cuts content s := by
  obtain ⟨hstands, hstop⟩ := slice?_standsAt h
  have hcuts := hstands.cuts
  rwa [← hstop] at hcuts

theorem Cuts.sliceBytes_standsAt {s : Span} (h : Cuts content s) :
    StandsAt content s.start (sliceBytes content s.start s.stop) ∧
      s.stop = s.start + byteLength (sliceBytes content s.start s.stop) := slice?_standsAt h.slice?_eq

theorem isBoundary_of_run {mark : Bytes} {p : ℕ} (hmark : ∀ b ∈ mark, b < 0x80) (hne : mark ≠ [])
    (h : mark <+: (utf8 content).drop p) : IsBoundary content p ∧ IsBoundary content (p + mark.length) := by
  have hbyte : ∀ i (hi : i < mark.length), (utf8 content)[p + i]? = some (mark.get ⟨i, hi⟩) := by
    intro i hi
    have hget := List.prefix_iff_getElem?.mp h i hi
    rwa [List.getElem?_drop] at hget
  have hpos : 0 < mark.length := List.length_pos_iff.mpr hne
  constructor
  · exact (isBoundary_of_ascii (hbyte 0 hpos) (hmark _ (List.get_mem _ _))).1
  · have hlast := (isBoundary_of_ascii (hbyte (mark.length - 1) (by omega)) (hmark _ (List.get_mem _ _))).2
    rwa [Nat.add_assoc, Nat.sub_add_cancel hpos] at hlast

theorem isBoundary_append {pre post : List Char} {n : ℕ} (h : IsBoundary pre n) : IsBoundary (pre ++ post) n := by
  obtain ⟨front, back, rfl, rfl⟩ := isBoundary_iff.mp h
  exact isBoundary_iff.mpr ⟨front, back ++ post, List.append_assoc .., rfl⟩

theorem isBoundary_of_append {pre post : List Char} {n : ℕ} (h : IsBoundary (pre ++ post) n) (hn : n ≤ byteLength pre) :
    IsBoundary pre n := by
  obtain ⟨front, back, hsplit, rfl⟩ := isBoundary_iff.mp h
  rcases List.append_eq_append_iff.mp hsplit with ⟨more, rfl, -⟩ | ⟨more, rfl, -⟩
  · rw [byteLength_append] at hn
    obtain rfl : more = [] := byteLength_eq_zero.mp (by omega)
    rw [List.append_nil]
    exact isBoundary_length pre
  · exact isBoundary_iff.mpr ⟨front, more, rfl, rfl⟩

theorem isBoundary_piece {pre mid post : List Char} {n : ℕ} (h : IsBoundary mid n) :
    IsBoundary (pre ++ mid ++ post) (byteLength pre + n) := by
  obtain ⟨front, back, rfl, rfl⟩ := isBoundary_iff.mp h
  refine isBoundary_iff.mpr ⟨pre ++ front, back ++ post, ?_, byteLength_append ..⟩
  simp only [List.append_assoc]

theorem Cuts.shift {s inner : Span} (h : Cuts content s)
    (hinner : Cuts (sliceBytes content s.start s.stop) inner) : Cuts content (inner.shift s.start) := by
  obtain ⟨⟨before, after, hcontent, hbefore⟩, -⟩ := h.sliceBytes_standsAt
  have hboundary : ∀ n, IsBoundary (sliceBytes content s.start s.stop) n → IsBoundary content (n + s.start) := by
    intro n hn
    have hpiece : IsBoundary (before ++ _ ++ after) (byteLength before + n) := isBoundary_piece hn
    rwa [← hcontent, hbefore, Nat.add_comm] at hpiece
  exact cuts_of_boundaries (Nat.add_le_add_right hinner.ordered s.start) (hboundary _ hinner.start)
    (hboundary _ hinner.stop)

end

end VisibleText
