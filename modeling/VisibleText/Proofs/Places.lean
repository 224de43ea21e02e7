import Mathlib.Data.List.Nodup
import VisibleText.Extraction
import VisibleText.Proofs.FileTree
import VisibleText.Proofs.Grouping
import VisibleText.Proofs.Lines
import VisibleText.Proofs.ScriptLiterals
import VisibleText.Proofs.TemplateCode

namespace VisibleText

section

variable {e : Engines} {kind : FileKind} {o : ScanOptions} {d : Exclusion.Dictionary} {file : String}
  {content : List Char} {hits : List Hit} {t : FileTexts}

theorem extractHits_genuine (h : extractHits e kind o content = .ok hits) : ∀ hit ∈ hits, hit.Genuine content := by
  cases kind with
  | template => exact Template.extract_genuine h
  | script =>
    obtain rfl := Except.ok.inj h
    exact fun hit hm => Code.extractRange_genuine hm

theorem extractTexts_eq_ok : extractTexts e kind o d file content = .ok t ↔
    ∃ hits, extractHits e kind o content = .ok hits ∧
      t = ⟨file, (hits.filter fun h => d.accepts o.minBytes h.text).map fun h =>
        (String.ofList h.text, (LineIndex.ofChars content).position h o.contextLines)⟩ :=
  bind_pure_eq_ok

theorem extractHits_isOk (h : kind = .template → ∀ n ∈ (e.markup content).nodes, Template.Cuttable e.script? content n) :
    ∃ hits, extractHits e kind o content = .ok hits := by
  cases kind with
  | template =>
    obtain ⟨found, hfound⟩ := (Template.source e o.checkedAttributes content).nodeHits_isOk (e.markup content) (h rfl)
    exact ⟨_, Template.extract_eq_ok.mpr ⟨found, hfound, rfl⟩⟩
  | script => exact ⟨_, rfl⟩

end

theorem extractTexts_denote (e : Engines) (kind : FileKind) (o : ScanOptions) (d : Exclusion.Dictionary) (file : String)
    (content : List Char) :
    (∀ t, extractTexts e kind o d file content = .ok t → ∀ text p, (text, p) ∈ t.texts →
      Trimmed text.toList ∧ 1 ≤ p.line ∧ p.line ≤ (LineIndex.ofChars content).lineCount ∧
      ((afterLines (p.line - 1) content).drop p.column).take p.length = text.toList) ∧
    ((kind = .template → ∀ n ∈ (e.markup content).nodes, Template.Cuttable e.script? content n) →
      ∃ t, extractTexts e kind o d file content = .ok t) := by
  constructor
  · intro t ht text p hm
    obtain ⟨hits, hhits, rfl⟩ := extractTexts_eq_ok.mp ht
    obtain ⟨h, hh, he⟩ := List.mem_map.mp hm
    obtain ⟨rfl, rfl⟩ := Prod.mk.inj he
    have hg := extractHits_genuine hhits h (List.mem_filter.mp hh).1
    rw [String.toList_ofList]
    exact ⟨hg.trimmed, LineIndex.position_denotes hg o.contextLines⟩
  · intro hcut
    obtain ⟨hits, hhits⟩ := extractHits_isOk hcut
    exact ⟨_, extractTexts_eq_ok.mpr ⟨hits, hhits, rfl⟩⟩

def Template.irregular : List Char := "<b>é</b>\n <i>Grüße & mehr</i>".toList

theorem Template.irregular_cuttable :
    ∀ n ∈ (Engines.own.markup irregular).nodes, Cuttable Engines.own.script? irregular n := by
  have hall : (Engines.own.markup irregular).nodes.all (fun n =>
      (slice? irregular n.span.start n.span.stop).isSome && n.kind != .scriptElement &&
        decide (n.children.Pairwise fun a b => a.span.start ≤ b.span.stop)) = true := by decide +kernel
  intro n hn
  have hn := List.all_eq_true.mp hall n hn
  simp only [Bool.and_eq_true, decide_eq_true_eq, bne_iff_ne] at hn
  obtain ⟨⟨hspan, hkind⟩, hsiblings⟩ := hn
  obtain ⟨text, htext⟩ := Option.isSome_iff_exists.mp hspan
  exact ⟨cuts_of_slice? htext, hsiblings, fun h => absurd h hkind⟩

theorem extractTexts_denote_irregular :
    ∃ t, extractTexts .own .template ⟨1, 0, true, true, []⟩ ⟨[]⟩ "a.blade.php" Template.irregular = .ok t ∧
      ("Grüße", ⟨2, 4, 5, []⟩) ∈ t.texts ∧ Trimmed "Grüße".toList ∧
      1 ≤ 2 ∧ 2 ≤ (LineIndex.ofChars Template.irregular).lineCount ∧
      ((afterLines 1 Template.irregular).drop 4).take 5 = "Grüße".toList := by
  obtain ⟨hdenote, htotal⟩ :=
    extractTexts_denote .own .template ⟨1, 0, true, true, []⟩ ⟨[]⟩ "a.blade.php" Template.irregular
  obtain ⟨t, ht⟩ := htotal fun _ => Template.irregular_cuttable
  have hfound : (Template.source .own [] Template.irregular).nodeHits (Engines.own.markup Template.irregular) =
      .ok [⟨"é".toList, 3⟩, ⟨"Grüße".toList, 14⟩, ⟨"mehr".toList, 24⟩] := by decide +kernel
  have hm : ("Grüße", ⟨2, 4, 5, []⟩) ∈ t.texts := by
    obtain ⟨hits, hhits, rfl⟩ := extractTexts_eq_ok.mp ht
    obtain ⟨found, hfound', hmem⟩ := Template.mem_extract hhits
    obtain rfl := Except.ok.inj (hfound.symm.trans hfound')
    have hhit : ⟨"Grüße".toList, 14⟩ ∈ hits := (hmem _).mpr (.inl (by simp))
    exact List.mem_map.mpr ⟨_, List.mem_filter.mpr ⟨hhit, by decide⟩, by decide⟩
  exact ⟨t, ht, hm, hdenote t ht _ _ hm⟩

namespace Template

variable {e : Engines} {attributes : List String} {content : List Char}

theorem nodeHits_apart_block {tree : Markup.Node} {found : List Hit} {a b : Hit} {block : Span}
    (h : (source e attributes content).nodeHits tree = .ok found) (ha : a ∈ found)
    (hblock : block ∈ (Blade.scan (utf8 content)).blocks) (hb : b ∈ Code.extractRange content block) :
    a.stop ≤ b.offset ∨ b.stop ≤ a.offset := by
  by_contra hover
  have hnea := (nodeHits_genuine h a ha).offset_lt_stop
  have hneb := (Code.extractRange_genuine hb).offset_lt_stop
  obtain ⟨hlo, hhi⟩ := Code.extractRange_within hb
  have hcovered := Blade.block_covered hblock (p := max a.offset b.offset) ⟨by omega, by omega⟩
  exact nodeHits_uncovered h ha ⟨by simp only [Hit.span_start]; omega, by simp only [Hit.span_stop]; omega⟩ hcovered

theorem blockHits_pairwise (content : List Char) :
    ((Blade.scan (utf8 content)).blocks.flatMap (Code.extractRange content)).Pairwise
      fun a b => a.stop ≤ b.offset := by
  rw [List.pairwise_flatMap]
  refine ⟨fun block _ => (Code.extractRange_ordered content block).pairwise, ?_⟩
  refine (Blade.blocks_pairwise (utf8 content)).imp ?_
  intro s t hle a ha b hb
  have := Code.extractRange_within ha
  have := Code.extractRange_within hb
  omega

def Nested (e : Engines) (content : List Char) : Prop := ∀ n ∈ (e.markup content).nodes, Sound e.script? content n

theorem extract_pairwise {hits : List Hit} (h : extract e attributes content = .ok hits) (hs : Nested e content) :
    hits.Pairwise fun a b => a.stop ≤ b.offset := by
  have hgenuine := extract_genuine h
  obtain ⟨found, hfound, rfl⟩ := extract_eq_ok.mp h
  have hordered := (source e attributes content).nodeHits_ordered (e.markup content) hs found hfound
  apply mergeSort_pairwise
  · exact fun hit hm => (hgenuine hit (List.mem_mergeSort.mpr hm)).offset_lt_stop
  · refine List.pairwise_append.mpr ⟨hordered.pairwise.imp .inl, (blockHits_pairwise content).imp .inl, ?_⟩
    intro a ha b hb
    obtain ⟨block, hblock, hb⟩ := List.mem_flatMap.mp hb
    exact nodeHits_apart_block hfound ha hblock hb

theorem nested_own (content : List Char) : Nested .own content := by
  intro n hn
  refine ⟨Markup.ofTemplate_nests (utf8 content) n hn, ?_⟩
  intro _ raw _ _ tree htree
  exact JavaScript.program?_apart htree

end Template

section Order

variable {e : Engines} {kind : FileKind} {content : List Char}

theorem extractHits_pairwise {o : ScanOptions} {hits : List Hit} (h : extractHits e kind o content = .ok hits)
    (hs : kind = .template → Template.Nested e content) :
    hits.Pairwise fun a b => a.offset < b.offset ∧ a.stop ≤ b.offset := by
  have hstop : hits.Pairwise fun a b => a.stop ≤ b.offset := by
    cases kind with
    | template => exact Template.extract_pairwise h (hs rfl)
    | script =>
      obtain rfl := Except.ok.inj h
      exact (Code.extractRange_ordered content _).pairwise
  refine hstop.imp_of_mem ?_
  intro a b ha _ hle
  have := (extractHits_genuine h a ha).offset_lt_stop
  omega

theorem positions_pairwise {o : ScanOptions} {d : Exclusion.Dictionary} {file : String} {t : FileTexts}
    (h : extractTexts e kind o d file content = .ok t) (hs : kind = .template → Template.Nested e content) :
    (t.texts.map Prod.snd).Pairwise Position.Before := by
  obtain ⟨hits, hhits, rfl⟩ := extractTexts_eq_ok.mp h
  rw [List.pairwise_map, List.pairwise_map]
  refine ((extractHits_pairwise hhits hs).filter _).imp_of_mem ?_
  intro a b ha hb hab
  exact LineIndex.position_before (extractHits_genuine hhits a (List.mem_filter.mp ha).1)
    (extractHits_genuine hhits b (List.mem_filter.mp hb).1) hab.1 o.contextLines

end Order

def Finding.place (x : Finding) : String × ℕ × ℕ := (x.file, x.position.line, x.position.column)

def Extraction.places (e : Extraction) : List (String × ℕ × ℕ) :=
  e.records.flatMap fun r => r.occurrences.flatMap fun o => o.positions.map fun p => (o.file, p.line, p.column)

theorem Extraction.places_eq (e : Extraction) :
    e.places = (e.records.flatMap Record.findings).map Finding.place := by
  simp [places, Record.findings, Finding.place, List.map_flatMap, Function.comp_def]

theorem FileTexts.findings_nodup {f : FileTexts} (h : (f.texts.map Prod.snd).Pairwise Position.Before) :
    (f.findings.map Finding.place).Nodup := by
  rw [List.pairwise_map] at h
  rw [List.Nodup, findings, List.map_map, List.pairwise_map]
  refine h.imp ?_
  intro a b hab he
  simp only [Function.comp_apply, Finding.place, Prod.mk.injEq, true_and] at he
  simp only [Position.Before] at hab
  omega

theorem Catalog.places_nodup {files : List FileTexts} (hfiles : files.Pairwise fun f g => f.file ≠ g.file)
    (hpos : ∀ f ∈ files, (f.texts.map Prod.snd).Pairwise Position.Before) :
    (((Catalog.ofFiles files).records.flatMap Record.findings).map Finding.place).Nodup := by
  rw [Catalog.ofFiles_eq, ((Catalog.ofFindings_perm _).map Finding.place).nodup_iff, List.map_flatMap,
    List.nodup_flatMap]
  refine ⟨fun f hf => FileTexts.findings_nodup (hpos f hf), hfiles.imp ?_⟩
  intro f g hne x hf hg
  simp only [FileTexts.findings, List.mem_map] at hf hg
  obtain ⟨_, ⟨a, -, rfl⟩, rfl⟩ := hf
  obtain ⟨_, ⟨b, -, rfl⟩, he⟩ := hg
  exact hne (Prod.mk.inj he).1.symm

namespace Extraction

variable {e : Engines} {fs : FileSystem} {d : Exclusion.Dictionary} {o : ScanOptions} {files : List SourceFile}

def texts (e : Engines) (fs : FileSystem) (d : Exclusion.Dictionary) (o : ScanOptions) (files : List SourceFile) :
    List FileTexts :=
  (files.filter fun f => o.scans f.kind).filterMap fun f => (readFile e fs d o f).toOption.bind Except.toOption

/-- A part of the file that is to be read out begins or ends inside of a character. -/
def Faults (e : Engines) (fs : FileSystem) (o : ScanOptions) (f : SourceFile) : Prop :=
  ∃ content fault, fs.readText f.path = .ok content ∧ extractHits e f.kind o content = .error fault

theorem not_faults {f : SourceFile} : ¬ Faults e fs o f ↔ ∀ content, fs.readText f.path = .ok content →
    ∃ hits, extractHits e f.kind o content = .ok hits := by
  constructor
  · intro h content hread
    cases hhits : extractHits e f.kind o content with
    | error fault => exact absurd ⟨content, fault, hread, hhits⟩ h
    | ok hits => exact ⟨hits, rfl⟩
  · rintro h ⟨content, fault, hread, hfault⟩
    obtain ⟨hits, hhits⟩ := h content hread
    cases hfault.symm.trans hhits

theorem not_faults_of_cuttable {f : SourceFile} {content : List Char} (hread : fs.readText f.path = .ok content)
    (h : f.kind = .template → ∀ n ∈ (e.markup content).nodes, Template.Cuttable e.script? content n) :
    ¬ Faults e fs o f := by
  rw [not_faults]
  intro content' hread'
  obtain rfl := Except.ok.inj (hread.symm.trans hread')
  exact extractHits_isOk h

theorem readFile_ok {f : SourceFile} {content : List Char} {hits : List Hit} (hread : fs.readText f.path = .ok content)
    (hhits : extractHits e f.kind o content = .ok hits) :
    ∃ t, extractTexts e f.kind o d f.path.text content = .ok t ∧ readFile e fs d o f = .ok (.ok t) := by
  refine ⟨_, extractTexts_eq_ok.mpr ⟨hits, hhits, rfl⟩, ?_⟩
  simp only [readFile, hread]
  rw [extractTexts_eq_ok.mpr ⟨hits, hhits, rfl⟩]
  rfl

theorem readFile_unread {f : SourceFile} {x : FileError} (hread : fs.readText f.path = .error x) :
    readFile e fs d o f = .ok (.error ⟨f.path.text, "Failed to read file: " ++ f.path.text ++ ": " ++ x.message⟩) := by
  simp only [readFile, hread]
  rfl

theorem readFile_fault {f : SourceFile} {content : List Char} {fault : Fault}
    (hread : fs.readText f.path = .ok content) (hfault : extractHits e f.kind o content = .error fault) :
    readFile e fs d o f = .error fault := by
  simp only [readFile, hread, extractTexts, hfault]
  rfl

theorem readFile_isOk {f : SourceFile} : (∃ r, readFile e fs d o f = .ok r) ↔ ¬ Faults e fs o f := by
  constructor
  · rintro ⟨r, hr⟩ ⟨content, fault, hread, hfault⟩
    cases (readFile_fault hread hfault).symm.trans hr
  · intro h
    cases hread : fs.readText f.path with
    | error x => exact ⟨_, readFile_unread hread⟩
    | ok content =>
      obtain ⟨hits, hhits⟩ := not_faults.mp h content hread
      obtain ⟨t, -, ht⟩ := readFile_ok (d := d) hread hhits
      exact ⟨_, ht⟩

theorem readFile_texts {f : SourceFile} {t : FileTexts}
    (h : (readFile e fs d o f).toOption.bind Except.toOption = some t) :
    ∃ content, fs.readText f.path = .ok content ∧ extractTexts e f.kind o d f.path.text content = .ok t := by
  cases hread : fs.readText f.path with
  | error x =>
    rw [readFile_unread hread] at h
    cases h
  | ok content =>
    cases hhits : extractHits e f.kind o content with
    | error fault =>
      rw [readFile_fault hread hhits] at h
      cases h
    | ok hits =>
      obtain ⟨found, hfound, hok⟩ := readFile_ok (d := d) hread hhits
      rw [hok] at h
      exact ⟨content, rfl, Option.some.inj h ▸ hfound⟩

theorem run_eq_ok {x : Extraction} : run e fs d o files = .ok x ↔ ∃ results,
    List.Forall₂ (fun f r => readFile e fs d o f = .ok r) (files.filter fun f => o.scans f.kind) results ∧
      x = ofResults results := by
  simp only [run, bind_pure_eq_ok, mapM_eq_ok]

theorem run_isOk : (∃ x, run e fs d o files = .ok x) ↔
    ∀ f ∈ files.filter (fun f => o.scans f.kind), ¬ Faults e fs o f := by
  simp only [← readFile_isOk (d := d), ← mapM_isOk, run, bind_pure_eq_ok]
  constructor
  · rintro ⟨x, results, hresults, -⟩
    exact ⟨results, hresults⟩
  · rintro ⟨results, hresults⟩
    exact ⟨_, results, hresults, rfl⟩

theorem results_texts {files : List SourceFile} {results : List (Except FileFailure FileTexts)}
    (h : List.Forall₂ (fun f r => readFile e fs d o f = .ok r) files results) : results.filterMap Except.toOption =
      files.filterMap fun f => (readFile e fs d o f).toOption.bind Except.toOption := by
  induction h with
  | nil => rfl
  | @cons f r files results hr _ ih =>
    have hread : (readFile e fs d o f).toOption.bind Except.toOption = r.toOption := by
      rw [hr]
      rfl
    simp only [List.filterMap_cons, hread, ih]

theorem run_records {x : Extraction} (h : run e fs d o files = .ok x) :
    x.records = (Catalog.ofFiles (texts e fs d o files)).records := by
  obtain ⟨results, hresults, rfl⟩ := run_eq_ok.mp h
  rw [texts, ← results_texts hresults]
  rfl

theorem mem_texts {t : FileTexts} (h : t ∈ texts e fs d o files) : ∃ f ∈ files, ∃ content,
    fs.readText f.path = .ok content ∧ extractTexts e f.kind o d f.path.text content = .ok t := by
  obtain ⟨f, hf, hread⟩ := List.mem_filterMap.mp h
  obtain ⟨content, hcontent, ht⟩ := readFile_texts hread
  exact ⟨f, (List.mem_filter.mp hf).1, content, hcontent, ht⟩

theorem texts_pairwise (e : Engines) (fs : FileSystem) (d : Exclusion.Dictionary) (o : ScanOptions)
    (hpaths : (files.map fun f => f.path.text).Nodup) :
    (texts e fs d o files).Pairwise fun s t => s.file ≠ t.file := by
  rw [texts, List.pairwise_filterMap]
  rw [List.Nodup, List.pairwise_map] at hpaths
  refine (hpaths.filter _).imp ?_
  intro f g hne s hs t ht
  obtain ⟨_, -, hs⟩ := readFile_texts hs
  obtain ⟨_, -, ht⟩ := readFile_texts ht
  obtain ⟨_, -, rfl⟩ := extractTexts_eq_ok.mp hs
  obtain ⟨_, -, rfl⟩ := extractTexts_eq_ok.mp ht
  exact hne

theorem run_places_nodup {x : Extraction} (h : run e fs d o files = .ok x)
    (hpaths : (files.map fun f => f.path.text).Nodup)
    (hs : ∀ f ∈ files, f.kind = .template → ∀ content, fs.readText f.path = .ok content → Template.Nested e content) :
    x.places.Nodup := by
  rw [places_eq, run_records h]
  apply Catalog.places_nodup (texts_pairwise e fs d o hpaths)
  intro t ht
  obtain ⟨f, hf, content, hread, ht⟩ := mem_texts ht
  exact positions_pairwise ht fun hk => hs f hf hk content hread

theorem places_distinct (e : Engines) (o : ScanOptions) (d : Exclusion.Dictionary) :
    (∀ (kind : FileKind) (file : String) (content : List Char), (kind = .template → Template.Nested e content) →
      (∀ hits, extractHits e kind o content = .ok hits →
        hits.Pairwise fun a b => a.offset < b.offset ∧ a.stop ≤ b.offset) ∧
      ∀ t, extractTexts e kind o d file content = .ok t → (t.texts.map Prod.snd).Pairwise Position.Before) ∧
    (∀ (fs : FileSystem) (files : List SourceFile), (files.map fun f => f.path.text).Nodup →
      (∀ f ∈ files, f.kind = .template → ∀ content, fs.readText f.path = .ok content → Template.Nested e content) →
      ∀ x, run e fs d o files = .ok x → x.places.Nodup) ∧
    ∀ content, Template.Nested .own content :=
  ⟨fun _ _ _ hs => ⟨fun _ h => extractHits_pairwise h hs, fun _ h => positions_pairwise h hs⟩,
    fun _ _ hpaths hs _ h => run_places_nodup h hpaths hs, Template.nested_own⟩

end Extraction

def Template.scripted : List Char := "<b>Hi</b><script>f('a')</script>".toList

theorem Template.nodeHits_scripted : (source .own [] scripted).nodeHits (Engines.own.markup scripted) =
    .ok [⟨"Hi".toList, 3⟩, ⟨"a".toList, 20⟩] := by
  decide +kernel

theorem Template.extract_scripted : ∃ hits, extract .own [] scripted = .ok hits ∧ ⟨"Hi".toList, 3⟩ ∈ hits := by
  refine ⟨_, extract_eq_ok.mpr ⟨_, nodeHits_scripted, rfl⟩, ?_⟩
  simp

def FileSystem.scripted : FileSystem :=
  ⟨.directory [("a.blade.php", .file (.ok (utf8 Template.scripted))),
    ("b.php", .file (.ok (utf8 "<?php f('a');".toList)))], []⟩

theorem FileSystem.readText_scripted : scripted.readText ⟨"a.blade.php"⟩ = .ok Template.scripted :=
  readText_beside "a.blade.php" (by decide) (by decide) (by decide) (by decide) rfl

theorem Extraction.run_scripted : ∃ x, run .own .scripted ⟨[]⟩ ⟨1, 0, true, true, []⟩
    [⟨⟨"a.blade.php"⟩, .template⟩, ⟨⟨"b.php"⟩, .script⟩] = .ok x := by
  refine run_isOk.mpr ?_
  intro f hf
  rw [not_faults]
  intro content hread
  rcases List.mem_cons.mp (List.mem_filter.mp hf).1 with rfl | hm
  · obtain rfl := Except.ok.inj (FileSystem.readText_scripted.symm.trans hread)
    obtain ⟨hits, hhits, -⟩ := Template.extract_scripted
    exact ⟨hits, hhits⟩
  · rw [List.mem_singleton.mp hm]
    exact ⟨_, rfl⟩

theorem Extraction.places_distinct_scripted :
    (∃ hits, extractHits .own .template ⟨1, 0, true, true, []⟩ Template.scripted = .ok hits ∧
      ⟨"Hi".toList, 3⟩ ∈ hits ∧ hits.Pairwise fun a b => a.offset < b.offset ∧ a.stop ≤ b.offset) ∧
    ∃ x, run .own .scripted ⟨[]⟩ ⟨1, 0, true, true, []⟩
      [⟨⟨"a.blade.php"⟩, .template⟩, ⟨⟨"b.php"⟩, .script⟩] = .ok x ∧ x.places.Nodup := by
  obtain ⟨hfile, hrun, hown⟩ := places_distinct .own ⟨1, 0, true, true, []⟩ ⟨[]⟩
  constructor
  · obtain ⟨hits, hhits, hm⟩ := Template.extract_scripted
    exact ⟨hits, hhits, hm, (hfile .template "a.blade.php" _ fun _ => hown _).1 hits hhits⟩
  · obtain ⟨x, hx⟩ := run_scripted
    exact ⟨x, hx, hrun _ _ (by decide) (fun _ _ _ content _ => hown content) x hx⟩

end VisibleText
