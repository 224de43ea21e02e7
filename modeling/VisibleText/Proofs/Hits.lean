import VisibleText.Proofs.Offsets

namespace VisibleText

structure Trimmed (text : List Char) : Prop where
  ne_nil : text ≠ []
  head : ∀ c ∈ text.head?, isBlank c = false
  last : ∀ c ∈ text.getLast?, isBlank c = false

theorem trimEnd_cons (c : Char) (cs : List Char) :
    trimEnd (c :: cs) = if (trimEnd cs).isEmpty && isBlank c then [] else c :: trimEnd cs := rfl

theorem trimEnd_append (as bs : List Char) :
    trimEnd (as ++ bs) = if (trimEnd bs).isEmpty then trimEnd as else as ++ trimEnd bs := by
  induction as with
  | nil =>
    cases h : trimEnd bs with
    | nil => exact h
    | cons b rest => exact h
  | cons a as ih =>
    rw [List.cons_append, trimEnd_cons, ih, trimEnd_cons]
    cases h : trimEnd bs with
    | nil => simp
    | cons b rest => simp

theorem trimEnd_spec (cs : List Char) :
    (∃ tail, cs = trimEnd cs ++ tail ∧ ∀ c ∈ tail, isBlank c = true) ∧
      ∀ c ∈ (trimEnd cs).getLast?, isBlank c = false := by
  induction cs with
  | nil => simp [trimEnd]
  | cons c cs ih =>
    obtain ⟨⟨tail, htail, hblank⟩, hlast⟩ := ih
    rw [trimEnd_cons]
    split_ifs with h
    · rw [Bool.and_eq_true, List.isEmpty_iff] at h
      rw [h.1, List.nil_append] at htail
      refine ⟨⟨c :: cs, rfl, ?_⟩, by simp⟩
      exact List.forall_mem_cons.mpr ⟨h.2, htail ▸ hblank⟩
    · refine ⟨⟨tail, by rw [List.cons_append, ← htail], hblank⟩, ?_⟩
      cases hrest : trimEnd cs with
      | nil => simpa [hrest] using h
      | cons d ds => simpa [hrest] using hlast

theorem trimEnd_head? (cs : List Char) (h : trimEnd cs ≠ []) : (trimEnd cs).head? = cs.head? := by
  obtain ⟨⟨tail, htail, -⟩, -⟩ := trimEnd_spec cs
  cases ht : trimEnd cs with
  | nil => exact absurd ht h
  | cons c rest => rw [htail, ht]; rfl

theorem trim_spec (raw : List Char) :
    (∃ trail, raw = raw.takeWhile isBlank ++ trim raw ++ trail ∧ ∀ c ∈ trail, isBlank c = true) ∧
      (trim raw ≠ [] → Trimmed (trim raw)) := by
  obtain ⟨⟨trail, htrail, hblank⟩, hlast⟩ := trimEnd_spec (trimStart raw)
  refine ⟨⟨trail, ?_, hblank⟩, fun hne => ⟨hne, ?_, hlast⟩⟩
  · rw [List.append_assoc, trim, ← htrail, trimStart, List.takeWhile_append_dropWhile]
  · intro c hc
    rw [trim, trimEnd_head? _ hne, trimStart] at hc
    have hnot := List.head?_dropWhile_not isBlank raw
    rw [Option.mem_def.mp hc] at hnot
    exact hnot

theorem takeWhile_isBlank {raw : List Char} : ∀ c ∈ raw.takeWhile isBlank, isBlank c = true := by
  intro c hc
  exact List.all_eq_true.mp List.all_takeWhile c hc

theorem trim_eq_nil_iff {raw : List Char} : trim raw = [] ↔ ∀ c ∈ raw, isBlank c = true := by
  obtain ⟨⟨trail, hraw, htrail⟩, htrim⟩ := trim_spec raw
  constructor
  · intro hnil c hc
    rw [hnil, List.append_nil] at hraw
    rw [hraw] at hc
    rcases List.mem_append.mp hc with hc | hc
    · exact takeWhile_isBlank c hc
    · exact htrail c hc
  · intro hblank
    by_contra hne
    obtain ⟨c, rest, hcons⟩ := List.exists_cons_of_ne_nil hne
    have hc : isBlank c = false := (htrim hne).head c (by simp [hcons])
    have hmem : c ∈ raw := by
      rw [hraw, hcons]
      simp
    simp [hblank c hmem] at hc

namespace Hit

structure Genuine (content : List Char) (h : Hit) : Prop where
  stands : StandsAt content h.offset h.text
  trimmed : Trimmed h.text

theorem Genuine.offset_lt_stop {content : List Char} {h : Hit} (hg : h.Genuine content) :
    h.offset < h.stop := by
  have hne : byteLength h.text ≠ 0 := fun hz => hg.trimmed.ne_nil (byteLength_eq_zero.mp hz)
  simp only [stop]
  omega

theorem ofRaw?_spec {raw : List Char} {offset : ℕ} {h : Hit} (hr : ofRaw? raw offset = some h) :
    Trimmed h.text ∧ ∃ lead trail, raw = lead ++ h.text ++ trail ∧ h.offset = offset + byteLength lead := by
  obtain ⟨⟨trail, htrail, -⟩, htrim⟩ := trim_spec raw
  simp only [ofRaw?] at hr
  split_ifs at hr with hempty
  obtain rfl := Option.some.inj hr
  have hne : trim raw ≠ [] := by simpa using hempty
  exact ⟨htrim hne, raw.takeWhile isBlank, trail, htrail, rfl⟩

theorem ofRaw?_genuine {content raw : List Char} {offset : ℕ} {h : Hit}
    (hs : StandsAt content offset raw) (hr : ofRaw? raw offset = some h) : h.Genuine content := by
  obtain ⟨htrim, lead, trail, rfl, hoff⟩ := ofRaw?_spec hr
  exact ⟨hoff ▸ hs.part, htrim⟩

theorem ofRaw?_bounds {raw : List Char} {offset : ℕ} {h : Hit} (hr : ofRaw? raw offset = some h) :
    offset ≤ h.offset ∧ h.stop ≤ offset + byteLength raw := by
  obtain ⟨-, lead, trail, rfl, hoff⟩ := ofRaw?_spec hr
  simp only [stop, byteLength_append, hoff]
  omega

theorem at?_bounds {content : List Char} {s : Span} {h : Hit} (hle : s.start ≤ s.stop)
    (hr : at? content s = some h) : s.start ≤ h.offset ∧ h.stop ≤ s.stop := by
  have hb := ofRaw?_bounds hr
  have := byteLength_sliceBytes_le content s.start s.stop
  omega

theorem at?_genuine {content : List Char} {s : Span} {h : Hit} (hle : s.start ≤ s.stop)
    (hstart : IsBoundary content s.start) (hstop : IsBoundary content s.stop)
    (hr : at? content s = some h) : h.Genuine content := by
  obtain ⟨text, ht, hs⟩ := standsAt_of_boundaries hle hstart hstop
  rw [at?, hs, ht.sliceBytes_eq] at hr
  exact ofRaw?_genuine ht hr

end Hit

end VisibleText
