import VisibleText.Proofs.CodeLocality
import VisibleText.Proofs.Regions

namespace VisibleText

theorem standsAt_ascii {cs : List Char} {i : ℕ} (d : Char) (hd : d.toNat < 128)
    (h : (utf8 cs)[i]? = some (UInt8.ofNat d.toNat)) : StandsAt cs i [d] := by
  have hlt : UInt8.ofNat d.toNat < 0x80 := by
    rw [UInt8.lt_iff_toNat_lt, UInt8.toNat_ofNat']
    have : UInt8.toNat 0x80 = 128 := rfl
    omega
  obtain ⟨c, hc, hsize, hbyte⟩ := exists_ascii_char h hlt
  have hcode : c.toNat ≤ 127 := Char.utf8Size_eq_one_iff.mp hsize
  have hsame : d.toNat = c.toNat := by
    have := congrArg UInt8.toNat hbyte
    simp only [UInt8.toNat_ofNat'] at this
    omega
  rwa [Char.toNat_inj.mp hsame]

theorem slice?_piece (pre mid post : List Char) :
    slice? (pre ++ mid ++ post) (byteLength pre) (byteLength pre + byteLength mid) = some mid := by
  have hstart : floorBoundary (pre ++ mid ++ post) (byteLength pre) = byteLength pre := by
    rw [floorBoundary, List.append_assoc, takeBytes_append]
  have hstop : floorBoundary (pre ++ mid ++ post) (byteLength pre + byteLength mid) = byteLength pre + byteLength mid := by
    rw [← byteLength_append, floorBoundary, takeBytes_append]
  rw [slice?, if_pos ⟨Nat.le_add_right _ _, hstart, hstop⟩, (Code.standsAt_piece pre mid post).sliceBytes_eq]

namespace Blade

def blockMarks : List (Bytes × Bytes) := [(ascii "<?php", ascii "?>"), (ascii "@php", ascii "@endphp")]

theorem blockMarks_spec {opening closing : Bytes} (h : (opening, closing) ∈ blockMarks) :
    (∃ name, opening = name ++ [UInt8.ofNat 'p'.toNat]) ∧
      ∃ c ∈ ['?', '@'], ∃ name, closing = UInt8.ofNat c.toNat :: name := by
  have hopening : ∀ marks ∈ blockMarks, marks.1 = marks.1.dropLast ++ [UInt8.ofNat 'p'.toNat] := by decide
  have hclosing : ∀ marks ∈ blockMarks, marks.2 = UInt8.ofNat '?'.toNat :: marks.2.tail ∨
      marks.2 = UInt8.ofNat '@'.toNat :: marks.2.tail := by decide
  refine ⟨⟨_, hopening _ h⟩, ?_⟩
  rcases hclosing _ h with hname | hname
  · exact ⟨'?', by simp, _, hname⟩
  · exact ⟨'@', by simp, _, hname⟩

def IsBody (bs : Bytes) (s : Span) : Prop :=
  ∃ opening closing before body after, (opening, closing) ∈ blockMarks ∧
    bs = before ++ opening ++ body ++ after ∧
    s = ⟨(before ++ opening).length, (before ++ opening ++ body).length⟩ ∧
    (indexOf? closing (body ++ after) = some body.length ∨ indexOf? closing body = none ∧ after = [])

theorem IsBody.append_left {bs : Bytes} {s : Span} (h : IsBody bs s) (front : Bytes) :
    IsBody (front ++ bs) (s.shift front.length) := by
  obtain ⟨opening, closing, before, body, after, hmarks, rfl, rfl, hend⟩ := h
  refine ⟨opening, closing, front ++ before, body, after, hmarks, by simp, ?_, hend⟩
  simp only [Span.shift, List.length_append, Span.mk.injEq]
  omega

theorem isBody_of_opening {opening closing bs : Bytes} {s : Span} (hmarks : (opening, closing) ∈ blockMarks)
    (ho : opening <+: bs)
    (hs : s = match indexOf? closing (bs.drop opening.length) with
      | some i => ⟨opening.length, opening.length + i⟩
      | none => ⟨opening.length, bs.length⟩) : IsBody bs s := by
  obtain ⟨rest, rfl⟩ := ho
  rw [List.drop_left] at hs
  cases hi : indexOf? closing rest with
  | some i =>
    have hle : i ≤ rest.length := by
      obtain ⟨-, c, -, name, rfl⟩ := blockMarks_spec hmarks
      have hlen := (indexOf?_some hi).length_le
      rw [List.length_drop, List.length_cons] at hlen
      omega
    rw [hi] at hs
    refine ⟨opening, closing, [], rest.take i, rest.drop i, hmarks, by simp, ?_, .inl ?_⟩
    · simpa [List.length_take_of_le hle] using hs
    · rw [List.take_append_drop, hi, List.length_take_of_le hle]
  | none =>
    rw [hi] at hs
    exact ⟨opening, closing, [], rest, [], hmarks, by simp, by simpa using hs, .inr ⟨hi, rfl⟩⟩

theorem Fence.find_isBody {f : Fence} (hmarks : (f.opening, f.closing) ∈ blockMarks) {bs : Bytes} (ho : f.opening <+: bs)
    {n : ℕ} {block : Span} (hfind : f.find bs = .code n (some block)) : IsBody bs block := by
  apply isBody_of_opening hmarks ho
  cases hi : indexOf? f.closing (bs.drop f.opening.length) with
  | some i =>
    simp only [Fence.find, hi, Find.code.injEq, Option.ite_none_right_eq_some, Option.some.injEq] at hfind
    exact hfind.2.2.symm
  | none =>
    simp only [Fence.find, hi, Find.code.injEq, Option.ite_none_right_eq_some, Option.some.injEq] at hfind
    exact hfind.2.2.symm

theorem Finds.isBody {before : Option UInt8} {bs : Bytes} {n : ℕ} {block : Span}
    (h : Finds before bs (.code n (some block))) : IsBody bs block := by
  generalize hg : Find.code n (some block) = f at h
  cases h with
  | @fence f hf ho hlongest =>
    have hmarks : ∀ f ∈ fences, f.holdsBlock → (f.opening, f.closing) ∈ blockMarks := by decide
    by_cases hholds : f.holdsBlock
    · exact f.find_isBody (hmarks f hf hholds) ho hg.symm
    · simp only [Fence.find, hholds] at hg
      split at hg <;> simp at hg
  | block h hplain => exact blockFence.find_isBody (by decide) h.starts hg.symm
  | single h => simp at hg
  | escaped h hat => simp at hg
  | word h => simp at hg
  | bare h hplain hb => simp at hg
  | unmatched h ha hm => simp at hg
  | arguments h ha hm => simp at hg

theorem blocks_isBody {bs : Bytes} {s : Span} (h : s ∈ (scan bs).blocks) : IsBody bs s := by
  obtain ⟨start, n, block, hx, rfl⟩ := mem_blocks h
  obtain ⟨hstart, hf⟩ := find_at hx
  have hwhole := hf.isBody.append_left (bs.take start)
  rwa [List.take_append_drop, List.length_take_of_le (Nat.le_of_lt hstart)] at hwhole

theorem IsBody.sealed {content : List Char} {s : Span} (h : IsBody (utf8 content) s) :
    ∃ pre mid post, content = pre ++ mid ++ post ∧ s = ⟨byteLength pre, byteLength pre + byteLength mid⟩ ∧
      Code.Sealed pre post := by
  obtain ⟨opening, closing, before, body, after, hmarks, hbytes, rfl, hend⟩ := h
  obtain ⟨⟨name, hname⟩, c, hc, tail, rfl⟩ := blockMarks_spec hmarks
  obtain ⟨front, rest, rfl, hfront⟩ : StandsAt content (before ++ name).length ['p'] := by
    apply standsAt_ascii 'p' (by decide)
    simp [hbytes, hname]
  have hpre : byteLength (front ++ ['p']) = before.length + opening.length := by
    have hp : byteLength ['p'] = 1 := rfl
    simp only [byteLength_append, hfront, hp, hname, List.length_append, List.length_singleton, Nat.add_assoc]
  have hbefore : ∀ c ∈ (front ++ ['p']).getLast?, isBlank c = false ∧ c ≠ '[' := by
    intro c hc
    obtain rfl : c = 'p' := by simpa [eq_comm] using hc
    decide
  simp only [List.length_append, ← hpre]
  rcases hend with hi | ⟨-, rfl⟩
  · have hclosing : ∀ c ∈ ['?', '@'], c.toNat < 128 ∧ isBlank c = false ∧ c ∉ ['=', '>', ']'] := by
      intro c hc
      rcases List.mem_pair.mp hc with rfl | rfl <;> decide
    obtain ⟨hascii, hafter⟩ := hclosing c hc
    obtain ⟨more, rfl⟩ : UInt8.ofNat c.toNat :: tail <+: after := by simpa using indexOf?_some hi
    obtain ⟨front', post, hcontent, hfront'⟩ :
        StandsAt (front ++ ['p'] ++ rest) (before ++ opening ++ body).length [c] := by
      apply standsAt_ascii c hascii
      rw [hbytes]
      simp
    simp only [List.length_append, ← hpre] at hfront'
    obtain ⟨mid, rfl⟩ : front ++ ['p'] <+: front' :=
      prefix_of_byteLength_le (List.prefix_append _ rest) ⟨c :: post, by simp [hcontent]⟩ (by omega)
    refine ⟨front ++ ['p'], mid, c :: post, by simp [hcontent], ?_, hbefore, by simpa using hafter⟩
    rw [byteLength_append] at hfront'
    rw [hfront']
  · refine ⟨front ++ ['p'], rest, [], by simp, ?_, hbefore, by simp⟩
    have hlen := congrArg List.length hbytes
    simp only [length_utf8, byteLength_append _ rest, List.append_nil, List.length_append, ← hpre] at hlen
    rw [hlen]

theorem block_extracts_alone (content : List Char) (block : Span) (h : block ∈ (scan (utf8 content)).blocks) :
    ∃ text, slice? content block.start block.stop = some text ∧
      Code.extractRange content block =
        (Code.extract text).map fun hit => ⟨hit.text, hit.offset + block.start⟩ := by
  obtain ⟨pre, mid, post, rfl, rfl, hsealed⟩ := (blocks_isBody h).sealed
  exact ⟨mid, slice?_piece pre mid post, Code.extractRange_piece hsealed mid⟩

theorem block_extracts_alone_bracketed :
    (⟨6, 12⟩ : Span) ∈ (scan (utf8 "[<?php 'Hi' ?>] => 'x'".toList)).blocks ∧
      Code.literals .php (utf8 "[<?php 'Hi' ?>] => 'x'".toList) ⟨6, 12⟩ = [⟨Code.singleQuote, ⟨8, 10⟩⟩] ∧
      ∃ text, slice? "[<?php 'Hi' ?>] => 'x'".toList 6 12 = some text ∧
        Code.extractRange "[<?php 'Hi' ?>] => 'x'".toList ⟨6, 12⟩ =
          (Code.extract text).map fun hit => ⟨hit.text, hit.offset + 6⟩ := by
  have hblock : (⟨6, 12⟩ : Span) ∈ (scan (utf8 "[<?php 'Hi' ?>] => 'x'".toList)).blocks := by decide +kernel
  exact ⟨hblock, by decide +kernel, block_extracts_alone _ _ hblock⟩

end Blade

end VisibleText
