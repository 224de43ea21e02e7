import VisibleText.Proofs.BlockPlaces
import VisibleText.Proofs.Encoding

/-!
Candidates with and without the blanks around them. Every region of template code starts with an ASCII byte that belongs
to no blank, and ends with one unless it runs to the end of the input. So no region starts or ends among the blanks
around a text, and a candidate shares a byte with template code exactly if its trimmed text does.
-/
namespace VisibleText

def IsSolid (b : UInt8) : Prop := 0x20 < b ∧ b < 0x80

instance (b : UInt8) : Decidable (IsSolid b) := inferInstanceAs (Decidable (_ ∧ _))

theorem not_isSolid_of_blank {cs : List Char} (hblank : ∀ c ∈ cs, isBlank c = true) {b : UInt8} (hb : b ∈ utf8 cs) :
    ¬ IsSolid b := by
  rintro ⟨hlo, hhi⟩
  obtain ⟨c, hc, hnat⟩ := exists_char_of_mem_utf8 hb hhi
  have hblank := hblank c hc
  simp only [isBlank, blankRuns, List.any_cons, List.any_nil, Bool.or_eq_true, Bool.and_eq_true, decide_eq_true_eq,
    Bool.or_false] at hblank
  have hlo : 32 < b.toNat := UInt8.lt_iff_toNat_lt.mp hlo
  have hhi : b.toNat < 128 := UInt8.lt_iff_toNat_lt.mp hhi
  omega

theorem solid_of_mark {mark text : Bytes} {q : ℕ} (hmark : ∀ b ∈ mark, IsSolid b) (hne : mark ≠ [])
    (h : mark <+: text.drop q) : ∃ b, text[q + mark.length - 1]? = some b ∧ IsSolid b := by
  have hpos : 0 < mark.length := List.length_pos_iff.mpr hne
  have hlast : mark.length - 1 < mark.length := by omega
  refine ⟨mark.get ⟨mark.length - 1, hlast⟩, ?_, hmark _ (List.get_mem _ _)⟩
  have hget := List.prefix_iff_getElem?.mp h (mark.length - 1) hlast
  rw [List.getElem?_drop] at hget
  have hindex : q + mark.length - 1 = q + (mark.length - 1) := by omega
  rw [hindex, hget]
  rfl

theorem Code.closerOffset?_closer {opener closer : UInt8} {depth n : ℕ} {ls : List Code.Lexeme}
    (h : Code.closerOffset? opener closer depth ls = some n) : (ls.flatMap Code.Lexeme.bytes)[n]? = some closer := by
  fun_induction Code.closerOffset? opener closer depth ls generalizing n with
  | case1 => cases h
  | case2 depth ls ih =>
    obtain ⟨m, hm, rfl⟩ := Option.map_eq_some_iff.mp h
    exact ih hm
  | case3 ls hne =>
    obtain rfl := Option.some.inj h
    rfl
  | case4 ls depth hne ih =>
    obtain ⟨m, hm, rfl⟩ := Option.map_eq_some_iff.mp h
    exact ih hm
  | case5 depth b ls hopener hcloser ih =>
    obtain ⟨m, hm, rfl⟩ := Option.map_eq_some_iff.mp h
    exact ih hm
  | case6 => cases h
  | case7 depth l ls _ _ ih =>
    obtain ⟨m, hm, rfl⟩ := Option.map_eq_some_iff.mp h
    rw [List.flatMap_cons, Nat.add_comm, Code.Lexeme.length, List.getElem?_append_right (by omega), Nat.add_sub_cancel_left]
    exact ih hm

namespace Blade

/-- A stretch of the input whose first byte is solid, and its last one as well if anything follows. -/
structure SolidEnds (bs : Bytes) (n : ℕ) : Prop where
  first : ∃ b, bs[0]? = some b ∧ IsSolid b
  last : n = bs.length ∨ ∃ b, bs[n - 1]? = some b ∧ IsSolid b

theorem marks_solid : ∀ f ∈ blockFence :: fences,
    f.opening ≠ [] ∧ f.closing ≠ [] ∧ (∀ b ∈ f.opening, IsSolid b) ∧ ∀ b ∈ f.closing, IsSolid b := by
  have hall : (blockFence :: fences).all (fun f => !f.opening.isEmpty && !f.closing.isEmpty &&
      f.opening.all (fun b => decide (IsSolid b)) && f.closing.all (fun b => decide (IsSolid b))) = true := by decide
  intro f hf
  simpa [and_assoc] using List.all_eq_true.mp hall f hf

theorem first_of_mark {mark bs : Bytes} (hmark : ∀ b ∈ mark, IsSolid b) (hne : mark ≠ []) (h : mark <+: bs) :
    ∃ b, bs[0]? = some b ∧ IsSolid b := by
  obtain ⟨b, tail, rfl⟩ := List.exists_cons_of_ne_nil hne
  obtain ⟨rest, rfl⟩ := h
  exact ⟨b, rfl, hmark b (by simp)⟩

theorem isSolid_of_isWordByte {b : UInt8} (h : isWordByte b = true) : IsSolid b := by
  simp only [isWordByte, Bool.or_eq_true, Bool.and_eq_true, decide_eq_true_eq, beq_iff_eq, UInt8.le_iff_toNat_le,
    ← UInt8.toNat_inj, UInt8.reduceToNat] at h
  rw [IsSolid, UInt8.lt_iff_toNat_lt, UInt8.lt_iff_toNat_lt]
  simp only [UInt8.reduceToNat]
  omega

theorem Fence.find_solidEnds {f : Fence} (hf : f ∈ blockFence :: fences) {bs : Bytes} (ho : f.opening <+: bs) {n : ℕ}
    {block : Option Span} (h : f.find bs = .code n block) : SolidEnds bs n := by
  obtain ⟨hopen, hclose, hsolid, hsolid'⟩ := marks_solid f hf
  obtain ⟨q, m, hcode, hend⟩ := f.find_firstMark ho.length_le
  obtain ⟨rfl, -⟩ := Find.code.inj (h.symm.trans hcode)
  constructor
  · exact first_of_mark hsolid hopen ho
  · cases hend with
    | found hfirst =>
      right
      have hmark : f.closing <+: (bs.drop f.opening.length).drop q := hfirst.1
      rw [List.drop_drop] at hmark
      rw [← Nat.add_assoc]
      exact solid_of_mark hsolid' hclose hmark
    | missing _ =>
      left
      have hle := ho.length_le
      rw [List.length_drop]
      omega

theorem Named.solid {before : Option UInt8} {bs name : Bytes} (h : Named before bs name) :
    ∀ b ∈ atSign :: name, IsSolid b := by
  have hall : name.all isWordByte = true := h.name_eq ▸ List.all_takeWhile
  refine List.forall_mem_cons.mpr ⟨by decide, ?_⟩
  intro b hb
  exact isSolid_of_isWordByte (List.all_eq_true.mp hall b hb)

theorem Named.solidEnds {before : Option UInt8} {bs name : Bytes} (h : Named before bs name) :
    SolidEnds bs (name.length + 1) := by
  constructor
  · exact first_of_mark h.solid (by simp) h.starts
  · right
    have hlast := solid_of_mark (q := 0) h.solid (by simp) h.starts
    rwa [Nat.zero_add] at hlast

theorem Finds.solidEnds {before : Option UInt8} {bs : Bytes} {n : ℕ} {block : Option Span}
    (h : Finds before bs (.code n block)) : SolidEnds bs n := by
  generalize hg : Find.code n block = f at h
  cases h with
  | fence hf ho hlongest => exact Fence.find_solidEnds (List.mem_cons_of_mem _ hf) ho hg.symm
  | single h => cases hg
  | escaped h hat => cases hg
  | word h => cases hg
  | bare h hplain hb =>
    obtain ⟨rfl, -⟩ := Find.code.inj hg
    exact h.solidEnds
  | unmatched h ha hm =>
    obtain ⟨rfl, -⟩ := Find.code.inj hg
    exact h.solidEnds
  | @arguments name blanks rest m h ha hm =>
    obtain ⟨rfl, -⟩ := Find.code.inj hg
    refine ⟨h.solidEnds.first, .inr ⟨0x29, ?_, by decide⟩⟩
    have hcloser : rest[m]? = some 0x29 := by
      have hbytes := Code.closerOffset?_closer hm
      rwa [Code.lexemes_spell] at hbytes
    have hindex : name.length + 1 + blanks.length + m + 2 - 1 = (name.length + 1) + (blanks.length + (m + 1)) := by omega
    rw [hindex, ← List.getElem?_drop, ha.opens, List.getElem?_append_right (by omega), Nat.add_sub_cancel_left]
    exact hcloser
  | block h hplain => exact Fence.find_solidEnds List.mem_cons_self h.starts hg.symm

end Blade

namespace Template

def TouchesCode (content : List Char) (s : Span) : Prop :=
  ∃ n, s.Contains n ∧ (Blade.scan (utf8 content)).excluded.Covers n

instance (content : List Char) (s : Span) : Decidable (TouchesCode content s) :=
  decidable_of_iff _ (SpanSet.overlaps_ofSpans _ s)

theorem not_isSolid_of_standsAt {content blanks : List Char} {offset i : ℕ} (h : StandsAt content offset blanks)
    (hblank : ∀ c ∈ blanks, isBlank c = true) (hle : offset ≤ i) (hlt : i < offset + byteLength blanks) {b : UInt8}
    (hb : (utf8 content)[i]? = some b) : ¬ IsSolid b := by
  obtain ⟨k, rfl⟩ := Nat.exists_eq_add_of_le hle
  rw [utf8_getElem?_of_standsAt h (by omega)] at hb
  exact not_isSolid_of_blank hblank (List.mem_of_getElem? hb)

theorem touchesCode_trimmed {content lead text trail : List Char} {offset : ℕ}
    (h : StandsAt content offset (lead ++ text ++ trail)) (hlead : ∀ c ∈ lead, isBlank c = true)
    (htrail : ∀ c ∈ trail, isBlank c = true) (hne : text ≠ []) :
    TouchesCode content ⟨offset, offset + byteLength (lead ++ text ++ trail)⟩ ↔
      TouchesCode content ⟨offset + byteLength lead, offset + byteLength lead + byteLength text⟩ := by
  have hpos : 0 < byteLength text := Nat.pos_of_ne_zero fun hzero => hne (byteLength_eq_zero.mp hzero)
  have hstands : StandsAt content offset lead := by
    have hpart : StandsAt content offset ([] ++ lead ++ (text ++ trail)) := by simpa using h
    simpa using hpart.part
  have htrails : StandsAt content (offset + byteLength (lead ++ text)) trail := by
    have hpart : StandsAt content offset ((lead ++ text) ++ trail ++ []) := by simpa using h
    exact hpart.part
  have hlength : offset + byteLength (lead ++ text ++ trail) ≤ (utf8 content).length := by
    obtain ⟨before, after, rfl, rfl⟩ := h
    simp only [length_utf8, byteLength_append]
    omega
  simp only [TouchesCode, Span.contains_iff, byteLength_append] at hlength htrails ⊢
  constructor
  · rintro ⟨n, ⟨hlo, hhi⟩, hcovers⟩
    obtain ⟨start, len, block, hfind, hstart, hstop⟩ := (Blade.excluded_covers _ n).mp hcovers
    have hwithin (p : ℕ) (hle : start ≤ p) (hlt : p < start + len) : (Blade.scan (utf8 content)).excluded.Covers p :=
      (Blade.excluded_covers _ p).mpr ⟨start, len, block, hfind, hle, hlt⟩
    obtain ⟨hfirst, hlast⟩ := (Blade.find_at hfind).2.solidEnds
    -- the byte is in front of the text, in it, or behind it; a region that leaves the blanks reaches the text
    by_cases hfront : n < offset + byteLength lead
    · by_cases hreach : offset + byteLength lead < start + len
      · exact ⟨offset + byteLength lead, by omega, hwithin _ (by omega) hreach⟩
      · exfalso
        rw [List.length_drop] at hlast
        rcases hlast with hlast | ⟨b, hb, hsolid⟩
        · omega
        · rw [List.getElem?_drop] at hb
          exact not_isSolid_of_standsAt hstands hlead (by omega) (by omega) hb hsolid
    · by_cases hback : n < offset + byteLength lead + byteLength text
      · exact ⟨n, by omega, hcovers⟩
      · by_cases hreach : start < offset + byteLength lead + byteLength text
        · exact ⟨offset + byteLength lead + byteLength text - 1, by omega, hwithin _ (by omega) (by omega)⟩
        · exfalso
          obtain ⟨b, hb, hsolid⟩ := hfirst
          rw [List.getElem?_drop] at hb
          exact not_isSolid_of_standsAt htrails htrail (by omega) (by omega) hb hsolid
  · rintro ⟨n, ⟨hlo, hhi⟩, hcovers⟩
    exact ⟨n, by omega, hcovers⟩

end Template

namespace Hit

def trimmed (raw : List Char) (offset : ℕ) : Hit := ⟨trim raw, offset + byteLength (raw.takeWhile isBlank)⟩

theorem ofRaw?_eq (raw : List Char) (offset : ℕ) :
    ofRaw? raw offset = if raw.all isBlank then none else some (trimmed raw offset) := by
  have hempty : (trim raw).isEmpty = raw.all isBlank := by
    rw [Bool.eq_iff_iff, List.isEmpty_iff, trim_eq_nil_iff, List.all_eq_true]
  simp only [ofRaw?, hempty]
  rfl

end Hit

namespace Template

theorem hit?_eq (e : Engines) (attributes : List String) {content raw : List Char} {s : Span}
    (h : StandsAt content s.start raw) (hstop : s.stop = s.start + byteLength raw) :
    (source e attributes content).hit? s =
      if raw.all isBlank ∨ TouchesCode content (Hit.trimmed raw s.start).span then none
      else some (Hit.trimmed raw s.start) := by
  have hoverlaps : (source e attributes content).excluded.overlaps (Hit.trimmed raw s.start).span = true ↔
      TouchesCode content (Hit.trimmed raw s.start).span := SpanSet.overlaps_ofSpans _ _
  have hraw : Hit.at? (source e attributes content).content s = Hit.ofRaw? raw s.start := by
    rw [Hit.at?, hstop]
    exact congrArg (Hit.ofRaw? · s.start) h.sliceBytes_eq
  rw [Source.hit?, hraw, Hit.ofRaw?_eq]
  by_cases hblank : raw.all isBlank = true
  · rw [if_pos hblank, if_pos (.inl hblank)]
    rfl
  · rw [if_neg hblank]
    by_cases htouches : TouchesCode content (Hit.trimmed raw s.start).span
    · rw [if_pos (.inr htouches), Option.filter_some, hoverlaps.mpr htouches]
      rfl
    · rw [if_neg (by simp [hblank, htouches]), Option.filter_some,
        Bool.eq_false_iff.mpr fun hover => htouches (hoverlaps.mp hover)]
      rfl

theorem candidate?_drops_overlap (e : Engines) (attributes : List String) {content : List Char} {s : Span}
    (hle : s.start ≤ s.stop) (hstart : IsBoundary content s.start) (hstop : IsBoundary content s.stop)
    (hvisible : ∃ c ∈ sliceBytes content s.start s.stop, isBlank c = false) :
    (TouchesCode content s ↔
      TouchesCode content (Hit.trimmed (sliceBytes content s.start s.stop) s.start).span) ∧
    (source e attributes content).candidate? s =
      .ok (if TouchesCode content s then none else some (Hit.trimmed (sliceBytes content s.start s.stop) s.start)) := by
  obtain ⟨raw, hraw, hlength⟩ := standsAt_of_boundaries hle hstart hstop
  have hslice : sliceBytes content s.start s.stop = raw := by rw [hlength, hraw.sliceBytes_eq]
  rw [hslice] at hvisible ⊢
  have hblank : ¬ raw.all isBlank = true := by
    obtain ⟨c, hc, hfalse⟩ := hvisible
    intro hall
    simp [List.all_eq_true.mp hall c hc] at hfalse
  obtain ⟨⟨trail, hsplit, htrail⟩, -⟩ := trim_spec raw
  have htouches : TouchesCode content s ↔ TouchesCode content (Hit.trimmed raw s.start).span := by
    have hne : trim raw ≠ [] := fun hnil => hblank (List.all_eq_true.mpr (trim_eq_nil_iff.mp hnil))
    have hspan : s = ⟨s.start, s.start + byteLength raw⟩ := by rw [← hlength]
    have htrimmed := touchesCode_trimmed (hsplit ▸ hraw) takeWhile_isBlank htrail hne
    rw [← hsplit] at htrimmed
    rw [hspan]
    exact htrimmed
  refine ⟨htouches, ?_⟩
  rw [Source.candidate?_eq_ok, hit?_eq e attributes hraw hlength]
  refine ⟨cuts_of_boundaries hle hstart hstop, ?_⟩
  simp only [hblank, htouches, Bool.false_eq_true, false_or]

def unclosed : List Char := "\u3000Hi\u00a0\x7b\x7b x ".toList

theorem candidate?_drops_overlap_unclosed :
    (∃ c ∈ sliceBytes unclosed 0 7, isBlank c = false) ∧ ¬ TouchesCode unclosed ⟨0, 7⟩ ∧ ¬ TouchesCode unclosed ⟨3, 5⟩ ∧
      (source .own [] unclosed).candidate? ⟨0, 7⟩ = .ok (some ⟨"Hi".toList, 3⟩) ∧
      TouchesCode unclosed ⟨0, 12⟩ ∧ TouchesCode unclosed ⟨3, 11⟩ ∧
      (source .own [] unclosed).candidate? ⟨0, 12⟩ = .ok none := by
  have hstart : IsBoundary unclosed 0 := ⟨0, rfl⟩
  have hbeside : IsBoundary unclosed 7 := ⟨4, by decide⟩
  have hstop : IsBoundary unclosed 12 := ⟨9, by decide⟩
  have hvisible : ∃ c ∈ sliceBytes unclosed 0 7, isBlank c = false := ⟨'H', by decide, by decide⟩
  have hvisible' : ∃ c ∈ sliceBytes unclosed 0 12, isBlank c = false := ⟨'H', by decide, by decide⟩
  have hclear : ¬ TouchesCode unclosed ⟨0, 7⟩ := by decide +kernel
  have htouches : TouchesCode unclosed ⟨0, 12⟩ := by decide +kernel
  have htrimmed : Hit.trimmed (sliceBytes unclosed 0 7) 0 = ⟨"Hi".toList, 3⟩ := by decide
  have htrimmed' : (Hit.trimmed (sliceBytes unclosed 0 12) 0).span = ⟨3, 11⟩ := by decide
  obtain ⟨hsame, hkept⟩ := candidate?_drops_overlap .own [] (s := ⟨0, 7⟩) (by decide) hstart hbeside hvisible
  obtain ⟨hsame', hdropped⟩ := candidate?_drops_overlap .own [] (s := ⟨0, 12⟩) (by decide) hstart hstop hvisible'
  rw [htrimmed] at hsame hkept
  rw [htrimmed'] at hsame'
  rw [if_neg hclear] at hkept
  rw [if_pos htouches] at hdropped
  exact ⟨hvisible, hclear, fun h => hclear (hsame.mpr h), hkept, htouches, hsame'.mp htouches, hdropped⟩

end Template

end VisibleText
