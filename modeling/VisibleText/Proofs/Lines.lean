import Mathlib.Data.List.Induction
import VisibleText.LineIndex
import VisibleText.Proofs.Hits

namespace VisibleText

def afterLines : ℕ → List Char → List Char
  | 0, cs => cs
  | n + 1, cs => afterLines n ((cs.dropWhile (· ≠ '\n')).drop 1)

def lastLine : List Char → List Char
  | [] => []
  | c :: cs => if '\n' ∈ c :: cs then lastLine cs else c :: cs

theorem lastLine_of_notMem {cs : List Char} (h : '\n' ∉ cs) : lastLine cs = cs := by
  cases cs with
  | nil => rfl
  | cons c cs => rw [lastLine, if_neg h]

theorem notMem_lastLine (cs : List Char) : '\n' ∉ lastLine cs := by
  induction cs with
  | nil => simp [lastLine]
  | cons c cs ih =>
    rw [lastLine]
    split_ifs with h
    · exact ih
    · exact h

theorem lastLine_suffix (cs : List Char) :
    ∃ whole, cs = whole ++ lastLine cs ∧ (whole = [] ∨ whole.getLast? = some '\n') := by
  induction cs with
  | nil => exact ⟨[], rfl, Or.inl rfl⟩
  | cons c cs ih =>
    obtain ⟨whole, hw, hends⟩ := ih
    rw [lastLine]
    split_ifs with hmem
    · refine ⟨c :: whole, by rw [List.cons_append, ← hw], Or.inr ?_⟩
      cases hends with
      | inl hnil =>
        -- no line feed is left behind `c`, so `c` is the one
        rw [hnil, List.nil_append] at hw
        have hnone := notMem_lastLine cs
        rw [← hw] at hnone
        rw [hnil, ← (List.mem_cons.mp hmem).resolve_right hnone]
        rfl
      | inr hlast => rw [List.getLast?_cons, hlast]; rfl
    · exact ⟨[], rfl, Or.inl rfl⟩

theorem lastLine_append {cs more : List Char} (h : '\n' ∉ more) : lastLine (cs ++ more) = lastLine cs ++ more := by
  induction cs with
  | nil => exact lastLine_of_notMem h
  | cons c cs ih =>
    have hiff : '\n' ∈ c :: (cs ++ more) ↔ '\n' ∈ c :: cs := by simp [h]
    simp only [List.cons_append, lastLine, hiff]
    split_ifs
    · exact ih
    · rfl

theorem afterLines_count (before after : List Char) :
    afterLines (before.count '\n') (before ++ after) = lastLine before ++ after := by
  induction before with
  | nil => rfl
  | cons c cs ih =>
    by_cases hc : c = '\n'
    · subst hc
      simp [afterLines, lastLine, ih]
    · by_cases hm : '\n' ∈ cs
      · obtain ⟨n, hn⟩ : ∃ n, cs.count '\n' = n + 1 :=
          ⟨cs.count '\n' - 1, by have := List.count_pos_iff.mpr hm; omega⟩
        rw [hn, afterLines] at ih
        simpa [List.count_cons_of_ne hc, hn, afterLines, lastLine, hm, hc] using ih
      · simp [List.count_cons_of_ne hc, List.count_eq_zero_of_not_mem hm, afterLines, lastLine, hm, Ne.symm hc]

namespace LineIndex

theorem startsAfter_append (offset : ℕ) (as bs : List Char) :
    startsAfter offset (as ++ bs) = startsAfter offset as ++ startsAfter (offset + byteLength as) bs := by
  induction as generalizing offset with
  | nil => rfl
  | cons c as ih =>
    simp only [List.cons_append, startsAfter, byteLength_cons, ih, Nat.add_assoc]
    split_ifs <;> rfl

theorem startsAfter_bounds (offset : ℕ) (cs : List Char) :
    ∀ s ∈ startsAfter offset cs, offset < s ∧ s ≤ offset + byteLength cs := by
  induction cs generalizing offset with
  | nil => simp [startsAfter]
  | cons c cs ih =>
    have hpos := c.utf8Size_pos
    have hrest : ∀ s ∈ startsAfter (offset + c.utf8Size) cs,
        offset < s ∧ s ≤ offset + byteLength (c :: cs) := by
      intro s hs
      have := ih _ s hs
      simp only [byteLength_cons]
      omega
    simp only [startsAfter]
    split_ifs
    · rintro s (_ | ⟨_, hs⟩)
      · simp only [byteLength_cons]
        omega
      · exact hrest s hs
    · exact hrest

theorem startsAfter_length (offset : ℕ) (cs : List Char) :
    (startsAfter offset cs).length = cs.count '\n' := by
  induction cs generalizing offset with
  | nil => rfl
  | cons c cs ih =>
    simp only [startsAfter]
    split_ifs with h <;> simp [h, ih]

theorem startsAfter_last (offset : ℕ) (cs : List Char) :
    (startsAfter offset cs).getLastD offset + byteLength (lastLine cs) = offset + byteLength cs := by
  induction cs generalizing offset with
  | nil => rfl
  | cons c cs ih =>
    have hnext := ih (offset + c.utf8Size)
    by_cases hc : c = '\n'
    · subst hc
      simp only [startsAfter, ↓reduceIte, List.getLastD_cons, lastLine, List.mem_cons, true_or,
        byteLength_cons]
      omega
    · simp only [startsAfter, if_neg hc, lastLine, List.mem_cons, Ne.symm hc, false_or, byteLength_cons]
      by_cases hm : '\n' ∈ cs
      · cases hs : startsAfter (offset + c.utf8Size) cs with
        | nil =>
          have := startsAfter_length (offset + c.utf8Size) cs
          rw [hs, List.length_nil] at this
          exact absurd hm (List.count_eq_zero.mp this.symm)
        | cons s ss =>
          rw [hs, List.getLastD_cons] at hnext
          simp only [hm, ↓reduceIte, List.getLastD_cons]
          omega
      · have hnil : startsAfter (offset + c.utf8Size) cs = [] := by
          rw [← List.length_eq_zero_iff, startsAfter_length, List.count_eq_zero_of_not_mem hm]
        simp [hnil, hm]

theorem getD_append_length (a : ℕ) (as bs : List ℕ) : (a :: as ++ bs).getD as.length 0 = as.getLastD a := by
  induction as generalizing a with
  | nil => rfl
  | cons b as ih => rw [List.getLastD_cons, ← ih b]; rfl

theorem starts_takeWhile (before after : List Char) :
    (0 :: startsAfter 0 (before ++ after)).takeWhile (· ≤ byteLength before) = 0 :: startsAfter 0 before := by
  rw [startsAfter_append, ← List.cons_append, List.takeWhile_append_of_pos]
  · cases hs : startsAfter (0 + byteLength before) after with
    | nil => simp
    | cons s ss =>
      have := startsAfter_bounds (0 + byteLength before) after s (hs ▸ List.mem_cons_self)
      rw [List.takeWhile_cons_of_neg (by simp; omega), List.append_nil]
  · rintro s (_ | ⟨_, hs⟩)
    · simp
    · have := startsAfter_bounds 0 before s hs
      simp only [decide_eq_true_eq]
      omega

theorem lastStart_add (before after : List Char) :
    (0 :: startsAfter 0 (before ++ after)).getD (before.count '\n') 0 + byteLength (lastLine before) =
      byteLength before := by
  rw [startsAfter_append, ← List.cons_append, ← startsAfter_length 0 before, getD_append_length,
    startsAfter_last, Nat.zero_add]

theorem sliceBytes_lastLine (before after : List Char) {start : ℕ}
    (h : start + byteLength (lastLine before) = byteLength before) :
    sliceBytes (before ++ after) start (byteLength before) = lastLine before := by
  obtain ⟨whole, hw, -⟩ := lastLine_suffix before
  have hs : StandsAt (before ++ after) (byteLength whole) (lastLine before) := ⟨whole, after, by rw [← hw], rfl⟩
  have hlen := congrArg byteLength hw
  rw [byteLength_append] at hlen
  obtain rfl : start = byteLength whole := by omega
  rw [← h]
  exact hs.sliceBytes_eq

theorem lineCol_boundary (before after : List Char) :
    (ofChars (before ++ after)).lineCol (byteLength before) =
      (before.count '\n' + 1, (lastLine before).length) := by
  have hfloor : floorBoundary (before ++ after) (byteLength before) = byteLength before := by
    rw [floorBoundary, takeBytes_append]
  have hslice := sliceBytes_lastLine before after (lastStart_add before after)
  simp only [lineCol, ofChars, hfloor, starts_takeWhile, List.length_cons, startsAfter_length,
    Nat.add_sub_cancel, hslice]

theorem lineCount_ofChars (content : List Char) :
    (ofChars content).lineCount =
      if content.getLast? = some '\n' then content.count '\n' else content.count '\n' + 1 := by
  simp [lineCount, ofChars, startsAfter_length]

theorem lineCol_lt (before middle after : List Char) (h : middle ≠ []) :
    let p := (ofChars (before ++ middle ++ after)).lineCol (byteLength before)
    let q := (ofChars (before ++ middle ++ after)).lineCol (byteLength (before ++ middle))
    p.1 < q.1 ∨ p.1 = q.1 ∧ p.2 < q.2 := by
  dsimp only
  rw [lineCol_boundary (before ++ middle) after, List.append_assoc, lineCol_boundary before]
  have hpos := List.length_pos_iff.mpr h
  by_cases hm : '\n' ∈ middle
  · left
    have := List.count_pos_iff.mpr hm
    simp only [List.count_append]
    omega
  · right
    constructor
    · simp [List.count_eq_zero_of_not_mem hm]
    · simpa [lastLine_append hm] using hpos

theorem position_boundary {content text : List Char} {offset : ℕ} (h : StandsAt content offset text)
    (window : ℕ) : ∃ before after, content = before ++ text ++ after ∧ byteLength before = offset ∧
      ((ofChars content).position ⟨text, offset⟩ window).line = before.count '\n' + 1 ∧
      ((ofChars content).position ⟨text, offset⟩ window).column = (lastLine before).length := by
  obtain ⟨before, after, rfl, rfl⟩ := h
  refine ⟨before, after, rfl, rfl, ?_, ?_⟩ <;>
    simp only [position, List.append_assoc, lineCol_boundary]

theorem line_le_lineCount {before text after : List Char} (h : Trimmed text) :
    before.count '\n' + 1 ≤ (ofChars (before ++ text ++ after)).lineCount := by
  rw [lineCount_ofChars]
  split_ifs with hlast
  · have hmem : '\n' ∈ after := by
      cases after using List.reverseRecOn with
      | nil =>
        have hne : text.getLast? = some (text.getLast h.ne_nil) := List.getLast?_eq_some_getLast h.ne_nil
        rw [List.append_nil, List.getLast?_append, hne, Option.some_or] at hlast
        have := h.last '\n' (hne.trans hlast)
        exact absurd this (by decide)
      | append_singleton cs c =>
        rw [← List.append_assoc, List.getLast?_concat] at hlast
        simp [Option.some.inj hlast]
    have := List.count_pos_iff.mpr hmem
    simp only [List.count_append]
    omega
  · simp only [List.count_append]
    omega

theorem position_denotes {content : List Char} {h : Hit} (hg : h.Genuine content) (window : ℕ) :
    let p := (ofChars content).position h window
    1 ≤ p.line ∧ p.line ≤ (ofChars content).lineCount ∧
      ((afterLines (p.line - 1) content).drop p.column).take p.length = h.text := by
  obtain ⟨before, after, rfl, -, hline, hcol⟩ := position_boundary hg.stands window
  dsimp only
  rw [hline, hcol]
  refine ⟨by omega, line_le_lineCount hg.trimmed, ?_⟩
  rw [Nat.add_sub_cancel, List.append_assoc, afterLines_count, List.drop_left]
  exact List.take_left

end LineIndex

def Position.Before (p q : Position) : Prop := p.line < q.line ∨ p.line = q.line ∧ p.column < q.column

theorem LineIndex.position_before {content : List Char} {a b : Hit} (ha : a.Genuine content)
    (hb : b.Genuine content) (h : a.offset < b.offset) (window : ℕ) :
    ((ofChars content).position a window).Before ((ofChars content).position b window) := by
  obtain ⟨before, rest, hcontent, hoff⟩ := ha.stands
  obtain ⟨before', rest', hcontent', hoff'⟩ := hb.stands
  have hprefix : before <+: content := ⟨a.text ++ rest, by simp [hcontent]⟩
  have hprefix' : before' <+: content := ⟨b.text ++ rest', by simp [hcontent']⟩
  obtain ⟨middle, rfl⟩ := prefix_of_byteLength_le hprefix hprefix' (by omega)
  have hne : middle ≠ [] := by
    rintro rfl
    simp only [List.append_nil] at hoff'
    omega
  have hlt := lineCol_lt before middle (b.text ++ rest') hne
  rw [← List.append_assoc, ← hcontent', hoff, hoff'] at hlt
  exact hlt

end VisibleText
