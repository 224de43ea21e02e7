import Mathlib.Data.List.Induction
import Mathlib.Data.List.ReduceOption
import VisibleText.Proofs.CandidateSpans

namespace VisibleText

theorem lines_induction {motive : List Char → Prop} (last : ∀ line, '\n' ∉ line → motive line)
    (feed : ∀ line rest, '\n' ∉ line → motive rest → motive (line ++ '\n' :: rest)) (text : List Char) : motive text := by
  by_cases hfeed : '\n' ∈ text
  · obtain ⟨line, rest, htext, hline⟩ := List.eq_append_cons_of_mem hfeed
    have hshorter : rest.length < text.length := by
      rw [htext, List.length_append, List.length_cons]
      omega
    rw [htext]
    exact feed line rest hline (lines_induction last feed rest)
  · exact last text hfeed
termination_by text.length

theorem notMem_of_mem_splitOn {text line : List Char} (h : line ∈ text.splitOn '\n') : '\n' ∉ line := by
  induction text using lines_induction with
  | last text htext =>
    rw [List.splitOn_eq_singleton htext, List.mem_singleton] at h
    rwa [h]
  | feed first rest hfirst ih =>
    rw [List.splitOn_append_cons_self_of_not_mem hfirst, List.mem_cons] at h
    rcases h with rfl | h
    · exact hfirst
    · exact ih h

theorem byteLength_feed (rest : List Char) : byteLength ('\n' :: rest) = 1 + byteLength rest := by
  have hone : '\n'.utf8Size = 1 := by decide
  rw [byteLength_cons, hone]

def lineOffset (lines : List (List Char)) (i : ℕ) : ℕ := byteLength ((lines.take i).flatMap (· ++ ['\n']))

@[simp] theorem lineOffset_zero (lines : List (List Char)) : lineOffset lines 0 = 0 := rfl

@[simp] theorem lineOffset_succ (line : List Char) (lines : List (List Char)) (i : ℕ) :
    lineOffset (line :: lines) (i + 1) = byteLength line + 1 + lineOffset lines i := by
  rw [lineOffset, List.take_succ_cons, List.flatMap_cons, byteLength_append, byteLength_append, byteLength_feed]
  rfl

theorem lineOffset_lt {lines : List (List Char)} {line : List Char} {i j : ℕ} (h : lines[i]? = some line) (hij : i < j) :
    lineOffset lines i + byteLength line < lineOffset lines j := by
  induction lines generalizing i j with
  | nil => simp at h
  | cons first lines ih =>
    obtain ⟨j, rfl⟩ : ∃ k, j = k + 1 := ⟨j - 1, by omega⟩
    cases i with
    | zero =>
      obtain rfl : first = line := by simpa using h
      rw [lineOffset_zero, lineOffset_succ]
      omega
    | succ i =>
      have hrest := ih (by simpa using h) (show i < j by omega)
      rw [lineOffset_succ, lineOffset_succ]
      omega

theorem standsAt_line {text line : List Char} {i : ℕ} (h : (text.splitOn '\n')[i]? = some line) :
    StandsAt text (lineOffset (text.splitOn '\n') i) line := by
  induction text using lines_induction generalizing i with
  | last text htext =>
    rw [List.splitOn_eq_singleton htext] at h ⊢
    cases i with
    | zero =>
      obtain rfl : text = line := by simpa using h
      exact ⟨[], [], by simp, rfl⟩
    | succ i => simp at h
  | feed first rest hfirst ih =>
    rw [List.splitOn_append_cons_self_of_not_mem hfirst] at h ⊢
    cases i with
    | zero =>
      obtain rfl : first = line := by simpa using h
      exact ⟨[], '\n' :: rest, by simp, rfl⟩
    | succ i =>
      obtain ⟨before, after, hrest, hbefore⟩ := ih (by simpa using h)
      refine ⟨first ++ '\n' :: before, after, by simp [hrest], ?_⟩
      rw [lineOffset_succ, byteLength_append, byteLength_feed, hbefore]
      omega

theorem exists_line {text before after : List Char} {c : Char} (h : text = before ++ c :: after) (hc : c ≠ '\n') :
    ∃ i front back, (text.splitOn '\n')[i]? = some (front ++ c :: back) ∧
      byteLength before = lineOffset (text.splitOn '\n') i + byteLength front := by
  induction text using lines_induction generalizing before with
  | last text htext =>
    refine ⟨0, before, after, ?_, by simp⟩
    rw [List.splitOn_eq_singleton htext, h]
    rfl
  | feed first rest hfirst ih =>
    rw [List.splitOn_append_cons_self_of_not_mem hfirst]
    rcases List.append_eq_append_iff.mp h with ⟨skipped, rfl, hrest⟩ | ⟨more, rfl, hmore⟩
    · cases skipped with
      | nil => exact absurd (List.cons.inj hrest).1.symm hc
      | cons feed skipped =>
        obtain ⟨rfl, hskipped⟩ := List.cons.inj hrest
        obtain ⟨i, front, back, hline, hoffset⟩ := ih hskipped
        refine ⟨i + 1, front, back, by simpa using hline, ?_⟩
        rw [lineOffset_succ, byteLength_append, byteLength_feed, hoffset]
        omega
    · cases more with
      | nil => exact absurd (List.cons.inj hmore).1 hc
      | cons d back =>
        obtain ⟨rfl, -⟩ := List.cons.inj hmore
        exact ⟨0, before, back, rfl, by simp⟩

theorem Hit.trimmed_contains {front back : List Char} {c : Char} (hc : isBlank c = false) {offset n : ℕ}
    (hlo : offset + byteLength front ≤ n) (hhi : n < offset + byteLength front + c.utf8Size) :
    (Hit.trimmed (front ++ c :: back) offset).span.Contains n := by
  obtain ⟨⟨trail, hsplit, htrail⟩, -⟩ := trim_spec (front ++ c :: back)
  have hlead : byteLength ((front ++ c :: back).takeWhile isBlank) ≤ byteLength front := by
    have hprefix : (front ++ c :: back).takeWhile isBlank <+: front := by
      rw [List.takeWhile_append]
      split_ifs with hall
      · simp [hc]
      · exact List.takeWhile_prefix _
    obtain ⟨more, hmore⟩ := hprefix
    have hlength := congrArg byteLength hmore
    rw [byteLength_append] at hlength
    omega
  have hstop : byteLength front + c.utf8Size ≤
      byteLength ((front ++ c :: back).takeWhile isBlank) + byteLength (trim (front ++ c :: back)) := by
    have hcut : (front ++ [c]) ++ back =
        ((front ++ c :: back).takeWhile isBlank ++ trim (front ++ c :: back)) ++ trail := by
      rw [← hsplit]
      simp
    rcases List.append_eq_append_iff.mp hcut with ⟨more, hmore, -⟩ | ⟨more, hmore, hback⟩
    · have hlength := congrArg byteLength hmore
      simp only [byteLength_append, byteLength_cons, byteLength_nil] at hlength
      omega
    · cases more using List.reverseRecOn with
      | nil =>
        have hlength := congrArg byteLength hmore
        simp only [byteLength_append, byteLength_cons, byteLength_nil] at hlength
        omega
      | append_singleton more d _ =>
        rw [← List.append_assoc] at hmore
        obtain ⟨-, hd⟩ := List.append_inj' hmore rfl
        obtain rfl := List.singleton_inj.mp hd
        have hblank := htrail c (by simp [hback])
        simp [hc] at hblank
  simp only [Span.contains_iff, Hit.span_start, Hit.span_stop, Hit.stop, Hit.trimmed]
  omega

theorem Hit.countP_contains {hits : List Hit} (hpair : hits.Pairwise fun a b => a.span.stop ≤ b.span.start) {h : Hit}
    (hm : h ∈ hits) {n : ℕ} (hn : h.span.Contains n) : hits.countP (fun h => h.span.Contains n) = 1 := by
  obtain ⟨before, after, rfl⟩ := List.append_of_mem hm
  rw [List.pairwise_append, List.pairwise_cons] at hpair
  obtain ⟨-, ⟨hafter, -⟩, hbefore⟩ := hpair
  have hfront : before.countP (fun h => h.span.Contains n) = 0 := by
    rw [List.countP_eq_zero]
    intro other hother
    have := hbefore other hother h List.mem_cons_self
    simp only [Span.contains_iff, decide_eq_true_eq] at hn ⊢
    omega
  have hback : after.countP (fun h => h.span.Contains n) = 0 := by
    rw [List.countP_eq_zero]
    intro other hother
    have := hafter other hother
    simp only [Span.contains_iff, decide_eq_true_eq] at hn ⊢
    omega
  rw [List.countP_append, List.countP_cons_of_pos (by simpa using hn), hfront, hback]

namespace Template

theorem lineSpansFrom_line {line : List Char} (h : '\n' ∉ line) (start stop : ℕ) (rest : List Char) :
    lineSpansFrom start stop (line ++ rest) = lineSpansFrom start (stop + byteLength line) rest := by
  induction line generalizing stop with
  | nil => rfl
  | cons c line ih =>
    rw [List.mem_cons, not_or] at h
    rw [List.cons_append, lineSpansFrom, if_neg (Ne.symm h.1), ih h.2, byteLength_cons, Nat.add_assoc]

theorem lineSpansFrom_eq (start : ℕ) (text : List Char) :
    lineSpansFrom start start text = (text.splitOn '\n').mapIdx fun i line =>
      ⟨start + lineOffset (text.splitOn '\n') i, start + lineOffset (text.splitOn '\n') i + byteLength line⟩ := by
  induction text using lines_induction generalizing start with
  | last text htext =>
    have hline := lineSpansFrom_line htext start start []
    rw [List.append_nil] at hline
    rw [hline, List.splitOn_eq_singleton htext]
    rfl
  | feed first rest hfirst ih =>
    rw [lineSpansFrom_line hfirst, lineSpansFrom, if_pos rfl, ih, List.splitOn_append_cons_self_of_not_mem hfirst,
      List.mapIdx_cons]
    congr 1
    congr 1
    funext i line
    have hoffset : start + byteLength first + 1 + lineOffset (rest.splitOn '\n') i =
        start + (byteLength first + 1 + lineOffset (rest.splitOn '\n') i) := by omega
    rw [lineOffset_succ, hoffset]

def runLines (content : List Char) (run : Span) : List (List Char) :=
  (sliceBytes content run.start run.stop).splitOn '\n'

def lineHit (content : List Char) (run : Span) (i : ℕ) (line : List Char) : Hit :=
  Hit.trimmed line (run.start + lineOffset (runLines content run) i)

theorem lineHit_bounds (content : List Char) (run : Span) (i : ℕ) (line : List Char) :
    run.start + lineOffset (runLines content run) i ≤ (lineHit content run i line).offset ∧
      (lineHit content run i line).stop ≤ run.start + lineOffset (runLines content run) i + byteLength line := by
  obtain ⟨⟨trail, hsplit, -⟩, -⟩ := trim_spec line
  have hlength := congrArg byteLength hsplit
  simp only [byteLength_append] at hlength
  simp only [lineHit, Hit.trimmed, Hit.stop]
  omega

section

variable (e : Engines) (attributes : List String) {content : List Char} {run : Span} (hle : run.start ≤ run.stop)
  (hstart : IsBoundary content run.start) (hstop : IsBoundary content run.stop)

include hle hstart hstop

theorem standsAt_runLine {i : ℕ} {line : List Char} (h : (runLines content run)[i]? = some line) :
    StandsAt content (run.start + lineOffset (runLines content run) i) line := by
  obtain ⟨text, htext, hlength⟩ := standsAt_of_boundaries hle hstart hstop
  have hslice : sliceBytes content run.start run.stop = text := by rw [hlength, htext.sliceBytes_eq]
  rw [runLines, hslice] at h ⊢
  obtain ⟨before, after, rfl, hbefore⟩ := standsAt_line h
  rw [← hbefore]
  exact htext.part

theorem runHits_eq :
    (source e attributes content).runHits run = .ok ((runLines content run).mapIdx fun i line =>
      if line.all isBlank ∨ TouchesCode content (lineHit content run i line).span then none
      else some (lineHit content run i line)).reduceOption := by
  have hspans : lineSpansFrom run.start run.start (sliceBytes content run.start run.stop) =
      (runLines content run).mapIdx fun i line => ⟨run.start + lineOffset (runLines content run) i,
        run.start + lineOffset (runLines content run) i + byteLength line⟩ := lineSpansFrom_eq run.start _
  have hfound (spans : List Span) : spans.filterMap (source e attributes content).hit? =
      (spans.map (source e attributes content).hit?).reduceOption := by
    rw [List.reduceOption, List.filterMap_map]
    rfl
  refine (Source.runHits_eq_ok _).mpr ⟨cuts_of_boundaries hle hstart hstop, ?_⟩
  change _ = (lineSpansFrom run.start run.start (sliceBytes content run.start run.stop)).filterMap _
  rw [hspans, hfound, eq_comm]
  congr 1
  apply List.ext_getElem
  · simp
  · intro i hi hi'
    rw [List.getElem_map, List.getElem_mapIdx, List.getElem_mapIdx]
    rw [List.length_mapIdx] at hi'
    exact hit?_eq e attributes (standsAt_runLine hle hstart hstop (List.getElem?_eq_getElem hi')) rfl

theorem mem_runHits {hits : List Hit} (hhits : (source e attributes content).runHits run = .ok hits) {h : Hit} :
    h ∈ hits ↔ ∃ i line, (runLines content run)[i]? = some line ∧ h = lineHit content run i line ∧
      ¬ (line.all isBlank ∨ TouchesCode content (lineHit content run i line).span) := by
  rw [runHits_eq e attributes hle hstart hstop] at hhits
  rw [← Except.ok.inj hhits, List.reduceOption_mem_iff, List.mem_mapIdx]
  constructor
  · rintro ⟨i, hi, hline⟩
    refine ⟨i, _, List.getElem?_eq_getElem hi, ?_⟩
    split_ifs at hline with hkept
    exact ⟨(Option.some.inj hline).symm, hkept⟩
  · rintro ⟨i, line, hline, rfl, hkept⟩
    obtain ⟨hi, rfl⟩ := List.getElem?_eq_some_iff.mp hline
    exact ⟨i, hi, if_neg hkept⟩

theorem runHits_count {hits : List Hit} (hhits : (source e attributes content).runHits run = .ok hits)
    {i n : ℕ} {front back : List Char} {c : Char} (hline : (runLines content run)[i]? = some (front ++ c :: back)) (hc : isBlank c = false)
    (hlo : run.start + lineOffset (runLines content run) i + byteLength front ≤ n)
    (hhi : n < run.start + lineOffset (runLines content run) i + byteLength front + c.utf8Size) :
    hits.countP (fun h => h.span.Contains n) =
      if TouchesCode content (lineHit content run i (front ++ c :: back)).span then 0 else 1 := by
  have hcontains : (lineHit content run i (front ++ c :: back)).span.Contains n := Hit.trimmed_contains hc hlo hhi
  split_ifs with htouches
  · rw [List.countP_eq_zero]
    intro h hm
    obtain ⟨j, other, hother, rfl, hkept⟩ := (mem_runHits e attributes hle hstart hstop hhits).mp hm
    rw [decide_eq_true_eq]
    intro hn
    have hbounds := lineHit_bounds content run i (front ++ c :: back)
    have hbounds' := lineHit_bounds content run j other
    simp only [Span.contains_iff, Hit.span_start, Hit.span_stop] at hn hcontains
    -- lines do not overlap, so the hit is that of the line itself
    rcases Nat.lt_trichotomy i j with hlt | rfl | hlt
    · have := lineOffset_lt hline hlt
      omega
    · obtain rfl := Option.some.inj (hline.symm.trans hother)
      exact hkept (.inr htouches)
    · have := lineOffset_lt hother hlt
      omega
  · have hkept : lineHit content run i (front ++ c :: back) ∈ hits := by
      apply (mem_runHits e attributes hle hstart hstop hhits).mpr
      refine ⟨i, _, hline, rfl, ?_⟩
      rintro (hblank | hcode)
      · have := List.all_eq_true.mp hblank c (by simp)
        simp [hc] at this
      · exact htouches hcode
    exact Hit.countP_contains (Source.runHits_ordered _ hhits).pairwise hkept hcontains

end

theorem runHits_by_line (e : Engines) (attributes : List String) {content : List Char} {run : Span}
    (hle : run.start ≤ run.stop) (hstart : IsBoundary content run.start) (hstop : IsBoundary content run.stop) :
    ∃ hits, (source e attributes content).runHits run = .ok hits ∧
      hits = ((runLines content run).mapIdx fun i line =>
        if line.all isBlank ∨ TouchesCode content (lineHit content run i line).span then none
        else some (lineHit content run i line)).reduceOption ∧
      (∀ h ∈ hits, '\n' ∉ h.text ∧ StandsAt content h.offset h.text) ∧
      ∀ before c after n, sliceBytes content run.start run.stop = before ++ c :: after → isBlank c = false →
        run.start + byteLength before ≤ n → n < run.start + byteLength before + c.utf8Size →
        ∃ i line, (runLines content run)[i]? = some line ∧
          run.start + lineOffset (runLines content run) i ≤ n ∧
          n < run.start + lineOffset (runLines content run) i + byteLength line ∧
          hits.countP (fun h => h.span.Contains n) =
            if TouchesCode content (lineHit content run i line).span then 0 else 1 := by
  have hhits := runHits_eq e attributes hle hstart hstop
  refine ⟨_, hhits, rfl, ?_, ?_⟩
  · intro h hm
    obtain ⟨i, line, hline, rfl, -⟩ := (mem_runHits e attributes hle hstart hstop hhits).mp hm
    obtain ⟨⟨trail, hsplit, -⟩, -⟩ := trim_spec line
    have hstands := standsAt_runLine hle hstart hstop hline
    constructor
    · intro hfeed
      apply notMem_of_mem_splitOn (List.mem_of_getElem? hline)
      rw [hsplit]
      exact List.mem_append_left _ (List.mem_append_right _ hfeed)
    · rw [hsplit] at hstands
      exact hstands.part
  · intro before c after n hslice hc hlo hhi
    have hfeed : c ≠ '\n' := by
      rintro rfl
      simp [isBlank, blankRuns] at hc
    obtain ⟨i, front, back, hline, hoffset⟩ := exists_line hslice hfeed
    change byteLength before = lineOffset (runLines content run) i + byteLength front at hoffset
    refine ⟨i, front ++ c :: back, hline, by omega, ?_, ?_⟩
    · rw [byteLength_append, byteLength_cons]
      omega
    · exact runHits_count e attributes hle hstart hstop hhits hline hc (by omega) (by omega)

def mixed : List Char := "\u00e9 First\r\n\r\n  \x7b\x7b $x \x7d\x7d b\nS\u00e9cond ".toList

theorem runHits_by_line_mixed :
    ∃ hits, (source .own [] mixed).runHits ⟨0, 33⟩ = .ok hits ∧
      hits = [⟨"\u00e9 First".toList, 0⟩, ⟨"S\u00e9cond".toList, 25⟩] ∧ StandsAt mixed 25 "S\u00e9cond".toList ∧
      (∃ i line, (runLines mixed ⟨0, 33⟩)[i]? = some line ∧ lineOffset (runLines mixed ⟨0, 33⟩) i ≤ 27 ∧
        27 < lineOffset (runLines mixed ⟨0, 33⟩) i + byteLength line ∧
        hits.countP (fun h => h.span.Contains 27) =
          if TouchesCode mixed (lineHit mixed ⟨0, 33⟩ i line).span then 0 else 1) := by
  have hstop : IsBoundary mixed 33 := ⟨32, by decide⟩
  obtain ⟨hits, hrun, hhits, hstands, hbytes⟩ :=
    @runHits_by_line .own [] mixed ⟨0, 33⟩ (by decide) ⟨0, rfl⟩ hstop
  have hlist : hits = [⟨"\u00e9 First".toList, 0⟩, ⟨"S\u00e9cond".toList, 25⟩] := by
    rw [hhits]
    decide +kernel
  refine ⟨hits, hrun, hlist, (hstands ⟨"S\u00e9cond".toList, 25⟩ (by simp [hlist])).2, ?_⟩
  obtain ⟨i, line, hline, hlo, hhi, hcount⟩ := hbytes (mixed.take 25) '\u00e9' (mixed.drop 26) 27 (by decide) (by decide)
    (by decide) (by decide)
  rw [Nat.zero_add] at hlo hhi
  exact ⟨i, line, hline, hlo, hhi, hcount⟩

end Template

end VisibleText
