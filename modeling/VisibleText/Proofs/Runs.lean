import Mathlib.Data.List.Forall2
import VisibleText.Proofs.Encoding
import VisibleText.Proofs.Ordered
import VisibleText.Proofs.Places

namespace VisibleText

def FileSystem.Legible (fs : FileSystem) (p : Path) : Prop := ∃ content, fs.read p = .ok (utf8 content)

theorem FileSystem.legible_iff {fs : FileSystem} {p : Path} :
    fs.Legible p ↔ ∃ content, fs.readText p = .ok content := by
  simp only [Legible, readText_eq_ok_iff]

theorem FileSystem.isOk_readText_iff (fs : FileSystem) (p : Path) : (fs.readText p).isOk = true ↔ fs.Legible p := by
  rw [legible_iff]
  cases fs.readText p with
  | ok content => simp [Except.isOk, Except.toBool]
  | error e => simp [Except.isOk, Except.toBool]

instance (fs : FileSystem) (p : Path) : Decidable (fs.Legible p) :=
  decidable_of_iff _ (fs.isOk_readText_iff p)

theorem FileSystem.legible_scripted : scripted.Legible ⟨"a.blade.php"⟩ ∧ scripted.Legible ⟨"b.php"⟩ :=
  ⟨legible_iff.mpr ⟨_, readText_scripted⟩, legible_iff.mpr ⟨"<?php f('a');".toList,
    readText_beside "b.php" (by decide) (by decide) (by decide) (by decide) rfl⟩⟩

namespace Extraction

section Failures

variable (e : Engines) (fs : FileSystem) (d : Exclusion.Dictionary) (o : ScanOptions)

def textsOf (f : SourceFile) : List (String × Position) :=
  match fs.readText f.path with
  | .ok content =>
    match extractTexts e f.kind o d f.path.text content with
    | .ok t => t.texts
    | .error _ => []
  | .error _ => []

def Reports (f : SourceFile) (x : FileFailure) : Prop :=
  x.file = f.path.text ∧ ∃ cause, fs.readText f.path = .error cause ∧
    x.cause = "Failed to read file: " ++ f.path.text ++ ": " ++ cause.message

theorem readFile_legible {f : SourceFile} (h : fs.Legible f.path) (hf : ¬ Faults e fs o f) :
    ∃ t, readFile e fs d o f = .ok (.ok t) ∧ t.texts = textsOf e fs d o f := by
  obtain ⟨content, hread⟩ := FileSystem.legible_iff.mp h
  obtain ⟨hits, hhits⟩ := not_faults.mp hf content hread
  obtain ⟨t, ht, hok⟩ := readFile_ok (d := d) hread hhits
  refine ⟨t, hok, ?_⟩
  simp only [textsOf, hread, ht]

theorem readFile_illegible {f : SourceFile} (h : ¬ fs.Legible f.path) :
    ∃ x, readFile e fs d o f = .ok (.error x) ∧ Reports fs f x := by
  cases hread : fs.readText f.path with
  | ok content => exact absurd (FileSystem.legible_iff.mpr ⟨content, hread⟩) h
  | error cause => exact ⟨_, readFile_unread hread, rfl, cause, hread, rfl⟩

theorem texts_legible (files : List SourceFile) :
    texts e fs d o ((files.filter fun f => o.scans f.kind).filter fun f => fs.Legible f.path) = texts e fs d o files := by
  rw [texts, List.filter_eq_self.mpr fun f hf => (List.mem_filter.mp (List.mem_filter.mp hf).1).2,
    List.filterMap_filter]
  apply List.filterMap_congr
  intro f _
  by_cases h : fs.Legible f.path
  · simp [h]
  · obtain ⟨x, hx, -⟩ := readFile_illegible e fs d o h
    simp only [h, hx, decide_false, Bool.false_eq_true, if_false]
    rfl

theorem map_texts {files : List SourceFile} (h : ∀ f ∈ files.filter (fun f => o.scans f.kind), ¬ Faults e fs o f) :
    (texts e fs d o files).map FileTexts.texts =
      ((files.filter fun f => o.scans f.kind).filter fun f => fs.Legible f.path).map (textsOf e fs d o) := by
  rw [texts]
  revert h
  generalize (files.filter fun f => o.scans f.kind) = wanted
  intro h
  induction wanted with
  | nil => rfl
  | cons f wanted ih =>
    obtain ⟨hf, hwanted⟩ := List.forall_mem_cons.mp h
    by_cases hl : fs.Legible f.path
    · obtain ⟨t, ht, htexts⟩ := readFile_legible e fs d o hl hf
      have hsome : (readFile e fs d o f).toOption.bind Except.toOption = some t := by rw [ht]; rfl
      simp [hsome, hl, htexts, ih hwanted]
    · obtain ⟨x, hx, -⟩ := readFile_illegible e fs d o hl
      have hnone : (readFile e fs d o f).toOption.bind Except.toOption = none := by rw [hx]; rfl
      simpa [hnone, hl] using ih hwanted

theorem results_report {files : List SourceFile} {results : List (Except FileFailure FileTexts)}
    (h : List.Forall₂ (fun f r => readFile e fs d o f = .ok r) files results) :
    List.Forall₂ (Reports fs) (files.filter fun f => ¬ fs.Legible f.path) (results.filterMap failure?) := by
  induction h with
  | nil => exact .nil
  | @cons f r files results hr _ ih =>
    by_cases hl : fs.Legible f.path
    · obtain ⟨t, ht, -⟩ := readFile_legible e fs d o hl (readFile_isOk.mp ⟨r, hr⟩)
      obtain rfl := Except.ok.inj (hr.symm.trans ht)
      rw [List.filter_cons_of_neg (by simpa using hl), List.filterMap_cons_none rfl]
      exact ih
    · obtain ⟨x, hx, hreports⟩ := readFile_illegible e fs d o hl
      obtain rfl := Except.ok.inj (hr.symm.trans hx)
      have hx : failure? (.error x) = some x := rfl
      rw [List.filter_cons_of_pos (by simpa using hl), List.filterMap_cons_some hx]
      exact .cons hreports ih

variable {e fs d o} {files : List SourceFile} {x : Extraction}

theorem run_processed (h : run e fs d o files = .ok x) : x.processed = (texts e fs d o files).length := by
  obtain ⟨results, hresults, rfl⟩ := run_eq_ok.mp h
  rw [texts, ← results_texts hresults]
  rfl

theorem run_failures (h : run e fs d o files = .ok x) : List.Forall₂ (Reports fs)
    ((files.filter fun f => o.scans f.kind).filter fun f => ¬ fs.Legible f.path) x.failures := by
  obtain ⟨results, hresults, rfl⟩ := run_eq_ok.mp h
  exact results_report e fs d o hresults

theorem run_total (h : run e fs d o files = .ok x) :
    x.total = ((texts e fs d o files).flatMap FileTexts.findings).length := by
  rw [total, run_records h, Record.totalOf_eq, Catalog.ofFiles_eq, (Catalog.ofFindings_perm _).length_eq]

theorem run_eq_error : (∃ fault, run e fs d o files = .error fault) ↔
    ∃ f ∈ files.filter (fun f => o.scans f.kind), Faults e fs o f := by
  constructor
  · rintro ⟨fault, hfault⟩
    by_contra hnone
    obtain ⟨x, hx⟩ := run_isOk.mpr fun f hf hfaults => hnone ⟨f, hf, hfaults⟩
    cases hfault.symm.trans hx
  · rintro ⟨f, hf, hfaults⟩
    cases hrun : run e fs d o files with
    | error fault => exact ⟨fault, rfl⟩
    | ok x => exact absurd hfaults (run_isOk.mp ⟨x, hrun⟩ f hf)

theorem faults_legible : (∃ f ∈ files.filter (fun f => o.scans f.kind), Faults e fs o f) ↔
    ∃ f ∈ (files.filter fun f => o.scans f.kind).filter fun f => fs.Legible f.path, Faults e fs o f := by
  constructor
  · rintro ⟨f, hf, hfaults⟩
    obtain ⟨content, _, hread, -⟩ := id hfaults
    have hlegible : fs.Legible f.path := FileSystem.legible_iff.mpr ⟨content, hread⟩
    exact ⟨f, List.mem_filter.mpr ⟨hf, by simpa using hlegible⟩, hfaults⟩
  · rintro ⟨f, hf, hfaults⟩
    exact ⟨f, (List.mem_filter.mp hf).1, hfaults⟩

theorem not_faults_legible : (∀ f ∈ files.filter (fun f => o.scans f.kind), ¬ Faults e fs o f) ↔
    ∀ f ∈ (files.filter fun f => o.scans f.kind).filter fun f => fs.Legible f.path, ¬ Faults e fs o f := by
  simpa only [not_exists, not_and] using not_congr faults_legible

theorem run_legible (h : run e fs d o files = .ok x) :
    run e fs d o ((files.filter fun f => o.scans f.kind).filter fun f => fs.Legible f.path) =
      .ok ⟨x.records, x.processed, []⟩ := by
  have htexts := texts_legible e fs d o files
  have hsound : ∀ f ∈ ((files.filter fun f => o.scans f.kind).filter fun f => fs.Legible f.path).filter
      fun f => o.scans f.kind, ¬ Faults e fs o f :=
    fun f hf => run_isOk.mp ⟨x, h⟩ f (List.mem_filter.mp (List.mem_filter.mp hf).1).1
  obtain ⟨y, hy⟩ := run_isOk.mpr hsound
  have hnone : y.failures = [] := by
    have hreports := run_failures hy
    rw [List.filter_eq_nil_iff.mpr, List.forall₂_nil_left_iff] at hreports
    · exact hreports
    · intro f hf
      simpa using (List.mem_filter.mp (List.mem_filter.mp hf).1).2
  rw [hy, run_records h, run_processed h, ← htexts, ← run_records hy, ← run_processed hy, ← hnone]

end Failures

/-- A file that cannot be read is reported and changes nothing about the others. A file that can be read and of
which a part cannot be read out ends the run: there is neither a record nor a report. -/
theorem failures_isolated (e : Engines) (fs : FileSystem) (d : Exclusion.Dictionary) (o : ScanOptions)
    (files : List SourceFile) :
    let wanted := files.filter fun f => o.scans f.kind
    let legible := wanted.filter fun f => fs.Legible f.path
    let illegible := wanted.filter fun f => ¬ fs.Legible f.path
    ((∃ f ∈ legible, Faults e fs o f) ↔ ∃ fault, run e fs d o files = .error fault) ∧
    (∀ f ∈ legible, ∀ content, fs.readText f.path = .ok content →
      (f.kind = .template → ∀ n ∈ (e.markup content).nodes, Template.Cuttable e.script? content n) →
      ¬ Faults e fs o f) ∧
    ((∀ f ∈ legible, ¬ Faults e fs o f) → ∃ x, run e fs d o files = .ok x ∧
      run e fs d o legible = .ok ⟨x.records, x.processed, []⟩ ∧
      x.processed + x.failures.length = wanted.length ∧
      List.Forall₂ (Reports fs) illegible x.failures ∧
      x.total = legible.foldl (fun n f => n + (textsOf e fs d o f).length) 0) := by
  intro wanted legible illegible
  refine ⟨faults_legible.symm.trans run_eq_error.symm, fun f _ content hread h => not_faults_of_cuttable hread h, ?_⟩
  intro hsound
  have hsound : ∀ f ∈ wanted, ¬ Faults e fs o f := not_faults_legible.mpr hsound
  obtain ⟨x, hx⟩ := run_isOk.mpr hsound
  have hmap : (texts e fs d o files).map FileTexts.texts = legible.map (textsOf e fs d o) :=
    map_texts e fs d o hsound
  have hreports : List.Forall₂ (Reports fs) illegible x.failures := run_failures hx
  refine ⟨x, hx, run_legible hx, ?_, hreports, ?_⟩
  · have hprocessed : (texts e fs d o files).length = legible.length := by
      simpa using congrArg List.length hmap
    rw [run_processed hx, hprocessed, ← hreports.length_eq]
    simpa [illegible] using (List.length_eq_length_filter_add fun f : SourceFile => decide (fs.Legible f.path)).symm
  · have hlength : ((texts e fs d o files).flatMap FileTexts.texts).length =
        (legible.flatMap (textsOf e fs d o)).length := by
      rw [List.flatMap_def, hmap, ← List.flatMap_def]
    rw [run_total hx, foldl_add_length, Nat.zero_add, ← hlength]
    simp [List.length_flatMap, FileTexts.findings]

end Extraction

def Template.torn : List Char := "<script>x = 'é</script>".toList

def FileSystem.torn : FileSystem :=
  ⟨.directory [("a.blade.php", .file (.ok (utf8 Template.torn))),
    ("b.php", .file (.ok (utf8 "<?php f('a');".toList)))], []⟩

theorem Template.extract_torn : ∃ fault, extract .own [] torn = .error fault := by
  have hfound : (source .own [] torn).nodeHits (Engines.own.markup torn) = .error ⟨⟨13, 14⟩⟩ := by
    decide +kernel
  cases h : extract .own [] torn with
  | error fault => exact ⟨fault, rfl⟩
  | ok hits =>
    obtain ⟨found, hok, -⟩ := extract_eq_ok.mp h
    cases hfound.symm.trans hok

namespace Extraction

theorem failures_isolated_torn :
    let files : List SourceFile := [⟨⟨"b.php"⟩, .script⟩, ⟨⟨"a.blade.php"⟩, .template⟩]
    let o : ScanOptions := ⟨1, 0, true, true, []⟩
    (∀ f ∈ files, FileSystem.torn.Legible f.path) ∧ (∃ fault, run .own .torn ⟨[]⟩ o files = .error fault) ∧
    ∃ x, run .own .torn ⟨[]⟩ o [⟨⟨"b.php"⟩, .script⟩] = .ok x ∧ x.processed + x.failures.length = 1 := by
  intro files o
  have ha : FileSystem.torn.readText ⟨"a.blade.php"⟩ = .ok Template.torn :=
    FileSystem.readText_beside "a.blade.php" (by decide) (by decide) (by decide) (by decide) rfl
  have hb : FileSystem.torn.readText ⟨"b.php"⟩ = .ok "<?php f('a');".toList :=
    FileSystem.readText_beside "b.php" (by decide) (by decide) (by decide) (by decide) rfl
  have hlegible : ∀ f ∈ files, FileSystem.torn.Legible f.path := by
    rw [List.forall_mem_cons, List.forall_mem_singleton, FileSystem.legible_iff, FileSystem.legible_iff]
    exact ⟨⟨_, hb⟩, _, ha⟩
  have hfaults : Faults .own .torn o ⟨⟨"a.blade.php"⟩, .template⟩ := by
    obtain ⟨fault, hfault⟩ := Template.extract_torn
    exact ⟨_, fault, ha, hfault⟩
  refine ⟨hlegible, (failures_isolated .own .torn ⟨[]⟩ o files).1.mp ⟨_, ?_, hfaults⟩, ?_⟩
  · have hwanted : files.filter (fun f => o.scans f.kind) = files := rfl
    rw [hwanted, List.filter_eq_self.mpr (by simpa using hlegible)]
    exact List.mem_cons_of_mem _ List.mem_cons_self
  · obtain ⟨-, hsound, hrun⟩ := failures_isolated .own .torn ⟨[]⟩ o [⟨⟨"b.php"⟩, .script⟩]
    obtain ⟨x, hx, -, hcount, -⟩ := hrun (by
      intro f hf
      obtain rfl := List.mem_singleton.mp (List.mem_filter.mp (List.mem_filter.mp hf).1).1
      exact hsound _ hf _ hb (by rintro ⟨⟩))
    exact ⟨x, hx, hcount⟩

end Extraction

theorem findings_filter (ts : List FileTexts) (file : String) :
    ((ts.flatMap FileTexts.findings).filter fun x => x.file = file) =
      (ts.filter fun t => t.file = file).flatMap FileTexts.findings := by
  induction ts with
  | nil => rfl
  | cons t ts ih =>
    have hfile : ∀ x ∈ t.findings, x.file = t.file := by
      intro x hx
      obtain ⟨_, -, rfl⟩ := List.mem_map.mp hx
      rfl
    by_cases ht : t.file = file
    · have hall : (t.findings.filter fun x => x.file = file) = t.findings :=
        List.filter_eq_self.mpr fun x hx => by simp [hfile x hx, ht]
      simp [ht, hall, ih]
    · have hnone : (t.findings.filter fun x => x.file = file) = [] :=
        List.filter_eq_nil_iff.mpr fun x hx => by simp [hfile x hx, ht]
      simp [ht, hnone, ih]

theorem findings_filter_perm {ss ts : List FileTexts} (h : ss.Perm ts)
    (hfiles : ss.Pairwise fun s t => s.file ≠ t.file) (file : String) :
    ((ss.flatMap FileTexts.findings).filter fun x => x.file = file) =
      (ts.flatMap FileTexts.findings).filter fun x => x.file = file := by
  rw [findings_filter, findings_filter]
  congr 1
  -- at most one file has the name
  refine List.Perm.eq_of_pairwise ?_ (hfiles.filter _) ((h.pairwise hfiles Ne.symm).filter _) (h.filter _)
  intro s t hs ht hne
  have hs := of_decide_eq_true (List.mem_filter.mp hs).2
  have ht := of_decide_eq_true (List.mem_filter.mp ht).2
  exact absurd (hs.trans ht.symm) hne

def Record.about (xs : List Finding) (text : String) : Record := .ofGroup (text, xs.filter fun x => x.text = text)

theorem Record.about_files_nodup (xs : List Finding) (text : String) :
    ((about xs text).occurrences.map Occurrence.file).Nodup := by
  have hfiles : (about xs text).occurrences.map Occurrence.file =
      (groups Finding.file (xs.filter fun x => x.text = text)).map Prod.fst := by
    simp [about, ofGroup, Function.comp_def]
  rw [hfiles]
  exact groups_nodup _ _

theorem Record.about_perm {xs ys : List Finding} (h : xs.Perm ys)
    (hsame : ∀ file, (xs.filter fun x => x.file = file) = ys.filter fun x => x.file = file) (text : String) :
    (about xs text).occurrences.Perm (about ys text).occurrences := by
  apply List.Perm.map
  apply groups_perm_of_same (h.filter _)
  intro file
  rw [List.filter_comm, hsame, List.filter_comm]

def sortedTexts (xs : List Finding) : List String := (sortByText (Catalog.ofFindings xs).records).map Record.text

theorem sortedTexts_perm_keys (xs : List Finding) : (sortedTexts xs).Perm (xs.map Finding.text).eraseDups := by
  refine ((List.mergeSort_perm _ _).map _).trans ?_
  rw [(Catalog.ofFindings_spec xs).2, List.map_map, ← groups_keys]
  rfl

theorem sortedTexts_pairwise (xs : List Finding) : (sortedTexts xs).Pairwise (· < ·) := by
  have hnodup : (sortedTexts xs).Nodup := (sortedTexts_perm_keys xs).nodup_iff.mpr (nodup_eraseDups _)
  have hle : (sortedTexts xs).Pairwise (· ≤ ·) := List.pairwise_map.mpr (mergeSort_sorted Record.text _)
  refine (hle.and hnodup).imp ?_
  rintro s t ⟨hst, hne⟩
  by_contra hlt
  exact hne (String.le_antisymm hst (String.not_lt.mp hlt))

theorem sortedTexts_eq_of_perm {xs ys : List Finding} (h : xs.Perm ys) : sortedTexts xs = sortedTexts ys := by
  have hperm : (sortedTexts xs).Perm (sortedTexts ys) :=
    (sortedTexts_perm_keys xs).trans ((eraseDups_perm (h.map _)).trans (sortedTexts_perm_keys ys).symm)
  refine List.Perm.eq_of_pairwise ?_ (sortedTexts_pairwise xs) (sortedTexts_pairwise ys) hperm
  intro s t _ _ hst hts
  exact absurd hts (String.lt_asymm hst)

theorem sortByText_eq (xs : List Finding) :
    sortByText (Catalog.ofFindings xs).records = (sortedTexts xs).map (Record.about xs) := by
  rw [sortedTexts, List.map_map]
  conv_lhs => rw [← List.map_id (sortByText _)]
  apply List.map_congr_left
  intro r hr
  have hr : r ∈ (Catalog.ofFindings xs).records := List.mem_mergeSort.mp hr
  rw [(Catalog.ofFindings_spec xs).2] at hr
  obtain ⟨g, hg, rfl⟩ := List.mem_map.mp hr
  obtain ⟨text, -, rfl⟩ := List.mem_map.mp hg
  rfl

namespace Extraction

theorem run_sorted {e : Engines} {fs : FileSystem} {d : Exclusion.Dictionary} {o : ScanOptions}
    {files : List SourceFile} {x : Extraction} (h : run e fs d o files = .ok x) :
    let xs := (texts e fs d o files).flatMap FileTexts.findings
    sortByText x.records = (sortedTexts xs).map (Record.about xs) := by
  rw [run_records h, Catalog.ofFiles_eq, sortByText_eq]

theorem sorted_run_perm (e : Engines) (fs : FileSystem) (d : Exclusion.Dictionary) (o : ScanOptions)
    {files files' : List SourceFile} (hperm : files.Perm files')
    (hpaths : (files.map fun f => f.path.text).Nodup) :
    ((∃ fault, run e fs d o files = .error fault) ∧ ∃ fault, run e fs d o files' = .error fault) ∨
    ∃ x x', run e fs d o files = .ok x ∧ run e fs d o files' = .ok x' ∧
      (sortByText x.records).Pairwise (fun a b => BytesBefore (utf8 a.text.toList) (utf8 b.text.toList)) ∧
      List.Forall₂ (fun r r' => r.text = r'.text ∧ (r.occurrences.map Occurrence.file).Nodup ∧
        r.occurrences.Perm r'.occurrences) (sortByText x.records) (sortByText x'.records) ∧
      x.processed = x'.processed ∧ x.total = x'.total := by
  by_cases hfaults : ∃ f ∈ files.filter fun f => o.scans f.kind, Faults e fs o f
  · obtain ⟨f, hf, hfault⟩ := hfaults
    exact .inl ⟨run_eq_error.mpr ⟨f, hf, hfault⟩, run_eq_error.mpr ⟨f, (hperm.filter _).mem_iff.mp hf, hfault⟩⟩
  · have hsound : ∀ f ∈ files.filter fun f => o.scans f.kind, ¬ Faults e fs o f :=
      fun f hf hfault => hfaults ⟨f, hf, hfault⟩
    obtain ⟨x, hx⟩ := run_isOk.mpr hsound
    obtain ⟨x', hx'⟩ := run_isOk.mpr fun f hf => hsound f ((hperm.filter _).mem_iff.mpr hf)
    have htexts : (texts e fs d o files).Perm (texts e fs d o files') := (hperm.filter _).filterMap _
    have hfindings := htexts.flatMap_right FileTexts.findings
    have hsame := findings_filter_perm htexts (texts_pairwise e fs d o hpaths)
    refine .inr ⟨x, x', hx, hx', ?_, ?_, ?_, ?_⟩
    · rw [run_sorted hx, List.pairwise_map]
      exact (sortedTexts_pairwise _).imp utf8_toList_before
    · rw [run_sorted hx, run_sorted hx', sortedTexts_eq_of_perm hfindings, List.forall₂_map_left_iff,
        List.forall₂_map_right_iff, List.forall₂_same]
      intro text _
      exact ⟨rfl, Record.about_files_nodup _ _, Record.about_perm hfindings hsame text⟩
    · rw [run_processed hx, run_processed hx', htexts.length_eq]
    · rw [run_total hx, run_total hx', hfindings.length_eq]

theorem sorted_run_perm_scripted :
    let files : List SourceFile := [⟨⟨"a.blade.php"⟩, .template⟩, ⟨⟨"b.php"⟩, .script⟩]
    let o : ScanOptions := ⟨1, 0, true, true, []⟩
    files.Perm files.reverse ∧ (files.map fun f => f.path.text).Nodup ∧
    ∃ forth back, run .own .scripted ⟨[]⟩ o files = .ok forth ∧ run .own .scripted ⟨[]⟩ o files.reverse = .ok back ∧
      forth.processed = 2 ∧
      (sortByText forth.records).Pairwise (fun a b => BytesBefore (utf8 a.text.toList) (utf8 b.text.toList)) ∧
      List.Forall₂ (fun r r' => r.text = r'.text ∧ (r.occurrences.map Occurrence.file).Nodup ∧
        r.occurrences.Perm r'.occurrences) (sortByText forth.records) (sortByText back.records) ∧
      forth.processed = back.processed ∧ forth.total = back.total := by
  intro files o
  have hperm : files.Perm files.reverse := (List.reverse_perm files).symm
  have hpaths : (files.map fun f => f.path.text).Nodup := by decide
  obtain ⟨x, hx⟩ := run_scripted
  have hprocessed : x.processed = 2 := by
    obtain ⟨ha, hb⟩ := FileSystem.legible_scripted
    have hlength := congrArg List.length (map_texts .own .scripted ⟨[]⟩ o (run_isOk.mp ⟨x, hx⟩))
    rw [List.length_map, ← run_processed hx] at hlength
    rw [hlength]
    simp [o, ScanOptions.scans, ha, hb]
  refine ⟨hperm, hpaths, ?_⟩
  rcases sorted_run_perm .own .scripted ⟨[]⟩ o hperm hpaths with ⟨⟨fault, hfault⟩, -⟩ | ⟨y, y', hy, hy', hsame⟩
  · cases hfault.symm.trans hx
  · obtain rfl := Except.ok.inj (hx.symm.trans hy)
    exact ⟨x, y', hx, hy', hprocessed, hsame⟩

end Extraction

end VisibleText
