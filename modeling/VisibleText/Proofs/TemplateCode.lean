import VisibleText.Proofs.TemplateHits

namespace VisibleText

theorem StandsAt.utf8_prefix {content text : List Char} {offset : ℕ} (h : StandsAt content offset text) :
    utf8 text <+: (utf8 content).drop offset := by
  obtain ⟨before, after, rfl, rfl⟩ := h
  rw [List.append_assoc, utf8_append, ← length_utf8, List.drop_left, utf8_append]
  exact List.prefix_append _ _

namespace Blade

def openings : List String := ["\x7b\x7b", "\x7b!!", "<!--", "<?php", "<?="]

theorem openings_fences : ∀ mark ∈ openings, ∃ f ∈ fences, f.opening = utf8 mark.toList ∧ f.opening ≠ [] := by
  decide

theorem covers_of_opening {content text : List Char} {offset : ℕ} (hs : StandsAt content offset text)
    {mark : String} (hm : mark ∈ openings) (hin : mark.toList <:+: text) :
    ∃ n, offset ≤ n ∧ n < offset + byteLength text ∧ (scan (utf8 content)).excluded.Covers n := by
  obtain ⟨f, hf, hopening, hne⟩ := openings_fences mark hm
  obtain ⟨before, after, rfl⟩ := hin
  refine ⟨offset + byteLength before, by omega, ?_, opening_covered hf (hopening ▸ hs.part.utf8_prefix)⟩
  have hpos : 0 < byteLength mark.toList := by
    rw [← length_utf8, ← hopening]
    exact List.length_pos_iff.mpr hne
  simp only [byteLength_append]
  omega

end Blade

namespace Template

variable {e : Engines} {attributes : List String} {content : List Char} {tree : Markup.Node} {found hits : List Hit}

def source (e : Engines) (attributes : List String) (content : List Char) : Source :=
  ⟨content, (Blade.scan (utf8 content)).excluded, attributes, e.script?⟩

theorem extract_eq_ok : extract e attributes content = .ok hits ↔
    ∃ found, (source e attributes content).nodeHits (e.markup content) = .ok found ∧
      hits = (found ++ (Blade.scan (utf8 content)).blocks.flatMap (Code.extractRange content)).mergeSort
        fun a b => a.offset ≤ b.offset :=
  bind_pure_eq_ok

theorem mem_extract (h : extract e attributes content = .ok hits) : ∃ found,
    (source e attributes content).nodeHits (e.markup content) = .ok found ∧ ∀ hit, hit ∈ hits ↔
      hit ∈ found ∨ ∃ block ∈ (Blade.scan (utf8 content)).blocks, hit ∈ Code.extractRange content block := by
  obtain ⟨found, hfound, rfl⟩ := extract_eq_ok.mp h
  exact ⟨found, hfound, by simp⟩

theorem nodeHits_genuine (h : (source e attributes content).nodeHits tree = .ok found) :
    ∀ hit ∈ found, hit.Genuine content := by
  intro hit hm
  obtain ⟨s, hcuts, hs⟩ := Source.nodeHits_mem _ tree found h hit hm
  exact (Source.hit?_spec _ hcuts hs).1

theorem extract_genuine (h : extract e attributes content = .ok hits) : ∀ hit ∈ hits, hit.Genuine content := by
  obtain ⟨found, hfound, hmem⟩ := mem_extract h
  intro hit hm
  rcases (hmem hit).mp hm with hm | ⟨block, -, hm⟩
  · exact nodeHits_genuine hfound hit hm
  · exact Code.extractRange_genuine hm

theorem nodeHits_uncovered (h : (source e attributes content).nodeHits tree = .ok found) {hit : Hit}
    (hm : hit ∈ found) {n : ℕ} (hn : hit.span.Contains n) : ¬ (Blade.scan (utf8 content)).excluded.Covers n := by
  intro hc
  obtain ⟨s, hcuts, hs⟩ := Source.nodeHits_mem _ tree found h hit hm
  have hfalse := (Source.hit?_spec _ hcuts hs).2.2
  have htrue := (SpanSet.overlaps_ofSpans _ hit.span).mpr ⟨n, hn, hc⟩
  exact absurd (htrue.symm.trans hfalse) (by simp)

theorem extract_leaks_no_code (e : Engines) (attributes : List String) (content : List Char) :
    ∀ hits, extract e attributes content = .ok hits → ∀ h ∈ hits,
      (∃ block ∈ (Blade.scan (utf8 content)).blocks, block.start ≤ h.offset ∧ h.stop ≤ block.stop) ∨
      (∀ region ∈ (Blade.scan (utf8 content)).excluded.spans, h.span.Disjoint region) ∧
        ∀ mark ∈ Blade.openings, ¬ mark.toList <:+: h.text := by
  intro hits hextract h hm
  obtain ⟨found, hfound, hmem⟩ := mem_extract hextract
  rcases (hmem h).mp hm with hm | ⟨block, hblock, hm⟩
  · refine .inr ⟨fun region hr n hn => nodeHits_uncovered hfound hm hn.1 ⟨region, hr, hn.2⟩, ?_⟩
    intro mark hmark hin
    obtain ⟨n, hle, hlt, hc⟩ := Blade.covers_of_opening (nodeHits_genuine hfound h hm).stands hmark hin
    exact nodeHits_uncovered hfound hm ⟨hle, hlt⟩ hc
  · exact .inl ⟨block, hblock, Code.extractRange_within hm⟩

def ampersand : List Char := "<b>Hi & you</b><?php f('Ok');?>".toList

theorem extract_leaks_no_code_ampersand :
    ∃ hits, extract .own [] ampersand = .ok hits ∧ ⟨"Hi".toList, 3⟩ ∈ hits ∧
      (∀ region ∈ (Blade.scan (utf8 ampersand)).excluded.spans, (⟨3, 5⟩ : Span).Disjoint region) ∧
      ∀ mark ∈ Blade.openings, ¬ mark.toList <:+: "Hi".toList := by
  have hfound : (source .own [] ampersand).nodeHits (Engines.own.markup ampersand) =
      .ok [⟨"Hi".toList, 3⟩, ⟨"you".toList, 8⟩] := by decide +kernel
  have hblocks : (Blade.scan (utf8 ampersand)).blocks = [⟨20, 29⟩] := by decide +kernel
  have hextract := extract_eq_ok.mpr ⟨_, hfound, rfl⟩
  obtain ⟨found, hfound', hmem⟩ := mem_extract hextract
  obtain rfl := Except.ok.inj (hfound.symm.trans hfound')
  have hhi := (hmem ⟨"Hi".toList, 3⟩).mpr (.inl (by simp))
  refine ⟨_, hextract, hhi, (extract_leaks_no_code _ _ _ _ hextract _ hhi).resolve_left ?_⟩
  rintro ⟨block, hblock, hin⟩
  rw [hblocks, List.mem_singleton] at hblock
  subst hblock
  exact absurd hin.1 (by decide)

end Template

end VisibleText
