import Mathlib.Data.Prod.Lex
import Mathlib.Order.Bounds.Defs
import VisibleText.Proofs.Lines

namespace VisibleText

theorem prefix_takeBytes {pre cs : List Char} {n : ℕ} (h : pre <+: cs) (hn : byteLength pre ≤ n) :
    pre <+: takeBytes n cs := by
  induction cs generalizing pre n with
  | nil => rw [List.prefix_nil.mp h]; exact List.nil_prefix
  | cons c cs ih =>
    cases pre with
    | nil => exact List.nil_prefix
    | cons d pre =>
      obtain ⟨rfl, hpre⟩ := List.cons_prefix_cons.mp h
      rw [byteLength_cons] at hn
      rw [takeBytes, if_pos (by omega)]
      exact List.cons_prefix_cons.mpr ⟨rfl, ih hpre (by omega)⟩

theorem floorBoundary_isGreatest (cs : List Char) (n : ℕ) :
    IsGreatest {b | IsBoundary cs b ∧ b ≤ n} (floorBoundary cs n) := by
  constructor
  · obtain ⟨post, hpost⟩ := takeBytes_prefix n cs
    exact ⟨isBoundary_iff.mpr ⟨takeBytes n cs, post, hpost.symm, rfl⟩, byteLength_takeBytes_le n cs⟩
  · rintro b ⟨hb, hle⟩
    obtain ⟨pre, post, hcs, rfl⟩ := isBoundary_iff.mp hb
    obtain ⟨more, hmore⟩ := prefix_takeBytes ⟨post, hcs.symm⟩ hle
    rw [floorBoundary, ← hmore, byteLength_append]
    omega

theorem count_lineFeed (cs : List Char) : (utf8 cs).count 0x0A = cs.count '\n' := by
  induction cs with
  | nil => rfl
  | cons c cs ih =>
    have hcons : utf8 (c :: cs) = utf8 [c] ++ utf8 cs := utf8_append [c] cs
    rw [hcons, List.count_append, ih, List.count_cons, Nat.add_comm]
    congr 1
    by_cases hc : c = '\n'
    · subst hc
      decide
    · have hnot : (0x0A : UInt8) ∉ utf8 [c] := by
        intro hmem
        exact hc (Char.toNat_inj.mp (toNat_of_mem_utf8 hmem (by decide)))
      rw [List.count_eq_zero_of_not_mem hnot, if_neg (by simpa using hc)]

/-- The place has as many lines before it as there are line feeds in the bytes before the offset, and as many
characters of its own line as there are behind the last of them. -/
structure IsPlace (content : List Char) (offset : ℕ) (place : ℕ × ℕ) : Prop where
  line : place.1 = 1 + ((utf8 content).take offset).count 0x0A
  column : ∃ whole part after, content = whole ++ part ++ after ∧ byteLength (whole ++ part) = offset ∧
    (whole = [] ∨ whole.getLast? = some '\n') ∧ '\n' ∉ part ∧ place.2 = part.length

def offsetOf (content : List Char) (place : ℕ × ℕ) : ℕ :=
  let rest := afterLines (place.1 - 1) content
  byteLength content - byteLength rest + byteLength (rest.take place.2)

namespace LineIndex

theorem lineCol_floor (ix : LineIndex) (offset : ℕ) :
    ix.lineCol offset = ix.lineCol (floorBoundary ix.content offset) := by
  have hself : floorBoundary ix.content (floorBoundary ix.content offset) = floorBoundary ix.content offset :=
    floorBoundary_eq_self.mpr (floorBoundary_isGreatest ix.content offset).1.1
  simp only [lineCol, hself]

theorem isPlace_boundary (before after : List Char) :
    IsPlace (before ++ after) (byteLength before) ((ofChars (before ++ after)).lineCol (byteLength before)) := by
  obtain ⟨whole, hwhole, hends⟩ := lastLine_suffix before
  rw [lineCol_boundary]
  constructor
  · rw [utf8_append, ← length_utf8, List.take_left, count_lineFeed, Nat.add_comm]
  · exact ⟨whole, lastLine before, after, by rw [← hwhole], by rw [← hwhole], hends,
      notMem_lastLine before, rfl⟩

theorem offsetOf_boundary (before after : List Char) :
    offsetOf (before ++ after) ((ofChars (before ++ after)).lineCol (byteLength before)) = byteLength before := by
  obtain ⟨whole, hwhole, -⟩ := lastLine_suffix before
  have hlength := congrArg byteLength hwhole
  rw [byteLength_append] at hlength
  rw [lineCol_boundary]
  simp only [offsetOf, Nat.add_sub_cancel, afterLines_count, byteLength_append, List.take_left]
  omega

theorem lineCol_strictMonoOn (content : List Char) :
    StrictMonoOn (fun b => toLex ((ofChars content).lineCol b)) {b | IsBoundary content b} := by
  intro a ha b hb hab
  obtain ⟨pre, post, hcontent, rfl⟩ := isBoundary_iff.mp ha
  obtain ⟨pre', post', rfl, rfl⟩ := isBoundary_iff.mp hb
  obtain ⟨middle, rfl⟩ := prefix_of_byteLength_le ⟨post, hcontent.symm⟩ ⟨post', rfl⟩ hab.le
  have hne : middle ≠ [] := by
    rintro rfl
    rw [List.append_nil] at hab
    exact lt_irrefl _ hab
  exact Prod.Lex.toLex_lt_toLex.mpr (lineCol_lt pre middle post' hne)

theorem lineCol_partition (content : List Char) (offset : ℕ) {i start : ℕ}
    (h : (ofChars content).starts[i]? = some start) :
    i < ((ofChars content).lineCol offset).1 ↔ start ≤ floorBoundary content offset := by
  obtain ⟨before, after, rfl, hbefore⟩ := isBoundary_iff.mp (floorBoundary_isGreatest content offset).1.1
  rw [lineCol_floor]
  change i < ((ofChars (before ++ after)).lineCol (floorBoundary (before ++ after) offset)).1 ↔ _
  rw [← hbefore, lineCol_boundary]
  have hstarts : (ofChars (before ++ after)).starts =
      (0 :: startsAfter 0 before) ++ startsAfter (byteLength before) after := by
    rw [ofChars, startsAfter_append, Nat.zero_add, List.cons_append]
  have hlength : (0 :: startsAfter 0 before).length = before.count '\n' + 1 := by
    rw [List.length_cons, startsAfter_length]
  rw [hstarts] at h
  by_cases hi : i < before.count '\n' + 1
  · rw [List.getElem?_append_left (by omega)] at h
    have hmem := List.mem_of_getElem? h
    refine ⟨fun _ => ?_, fun _ => hi⟩
    rcases List.mem_cons.mp hmem with rfl | hmem
    · exact Nat.zero_le _
    · exact (startsAfter_bounds 0 before start hmem).2.trans (Nat.zero_add _).le
  · rw [List.getElem?_append_right (by omega)] at h
    have hafter := (startsAfter_bounds (byteLength before) after start (List.mem_of_getElem? h)).1
    exact ⟨fun hlt => absurd hlt hi, fun hle => absurd hle (by omega)⟩

theorem lineCol_ofRaw? {content raw : List Char} {offset : ℕ} {hit : Hit} (hs : StandsAt content offset raw)
    (hr : Hit.ofRaw? raw offset = some hit) (hblank : '\n' ∉ raw.takeWhile isBlank) :
    (ofChars content).lineCol hit.offset = (((ofChars content).lineCol offset).1,
      ((ofChars content).lineCol offset).2 + (raw.takeWhile isBlank).length) := by
  obtain ⟨before, after, rfl, rfl⟩ := hs
  have hoffset : hit.offset = byteLength (before ++ raw.takeWhile isBlank) := by
    simp only [Hit.ofRaw?] at hr
    split_ifs at hr
    rw [← Option.some.inj hr, byteLength_append]
  have hcut : before ++ raw ++ after = (before ++ raw.takeWhile isBlank) ++ (raw.dropWhile isBlank ++ after) := by
    rw [List.append_assoc before (raw.takeWhile isBlank), ← List.append_assoc (raw.takeWhile isBlank),
      List.takeWhile_append_dropWhile, List.append_assoc]
  rw [hoffset, hcut, lineCol_boundary, List.append_assoc before, lineCol_boundary, lastLine_append hblank]
  simp [List.count_eq_zero_of_not_mem hblank]

theorem lineCol_exact_invertible (content : List Char) :
    (∀ offset, ∃ b, IsGreatest {b | IsBoundary content b ∧ b ≤ offset} b ∧
      IsPlace content b ((ofChars content).lineCol offset) ∧
      ∀ i start, (ofChars content).starts[i]? = some start → (i < ((ofChars content).lineCol offset).1 ↔ start ≤ b)) ∧
    StrictMonoOn (fun b => toLex ((ofChars content).lineCol b)) {b | IsBoundary content b} ∧
    Set.InjOn (ofChars content).lineCol {b | IsBoundary content b} ∧
    (∀ b, IsBoundary content b → offsetOf content ((ofChars content).lineCol b) = b) ∧
    ∀ raw offset hit, StandsAt content offset raw → Hit.ofRaw? raw offset = some hit →
      '\n' ∉ raw.takeWhile isBlank →
      (ofChars content).lineCol hit.offset = (((ofChars content).lineCol offset).1,
        ((ofChars content).lineCol offset).2 + (raw.takeWhile isBlank).length) := by
  have hback : ∀ b, IsBoundary content b → offsetOf content ((ofChars content).lineCol b) = b := by
    intro b hb
    obtain ⟨before, after, rfl, rfl⟩ := isBoundary_iff.mp hb
    exact offsetOf_boundary before after
  refine ⟨fun offset => ?_, lineCol_strictMonoOn content, fun a ha b hb hab => ?_, hback,
    fun raw offset hit => lineCol_ofRaw?⟩
  · have hfloor := floorBoundary_isGreatest content offset
    refine ⟨_, hfloor, ?_, fun i start => lineCol_partition content offset⟩
    rw [lineCol_floor]
    obtain ⟨before, after, hcontent, hbefore⟩ := isBoundary_iff.mp hfloor.1.1
    change IsPlace content _ ((ofChars content).lineCol (floorBoundary content offset))
    rw [← hbefore, hcontent]
    exact isPlace_boundary before after
  · rw [← hback a ha, hab, hback b hb]

theorem lineCol_exact_invertible_accented :
    let content := ['é', '\n', ' ', 'ü', 'x']
    let ix := ofChars content
    (StandsAt content 3 [' ', 'ü', 'x'] ∧ Hit.ofRaw? [' ', 'ü', 'x'] 3 = some ⟨['ü', 'x'], 4⟩ ∧
      '\n' ∉ [' ', 'ü', 'x'].takeWhile isBlank) ∧
      ix.lineCol 4 = ((ix.lineCol 3).1, (ix.lineCol 3).2 + 1) ∧ ix.lineCol 3 = (2, 0) ∧
      IsBoundary content 6 ∧ offsetOf content (ix.lineCol 6) = 6 := by
  intro content ix
  obtain ⟨-, -, -, hback, htrim⟩ := lineCol_exact_invertible content
  have hstands : StandsAt content 3 [' ', 'ü', 'x'] := ⟨['é', '\n'], [], rfl, rfl⟩
  have hblank : '\n' ∉ [' ', 'ü', 'x'].takeWhile isBlank := by decide
  exact ⟨⟨hstands, by decide, hblank⟩, htrim _ 3 ⟨['ü', 'x'], 4⟩ hstands (by decide) hblank, by decide,
    ⟨4, by decide⟩, hback 6 ⟨4, by decide⟩⟩

end LineIndex

end VisibleText
