import VisibleText.Proofs.Dictionaries

namespace VisibleText.Exclusion

theorem trim_trimEnd (cs : List Char) : trim (trimEnd cs) = trim cs := by
  have happend : ∀ blanks : List Char, (∀ c ∈ blanks, isBlank c = true) → trim (trimEnd cs ++ blanks) = trim (trimEnd cs) := by
    intro blanks hblanks
    induction blanks using List.reverseRecOn with
    | nil => rw [List.append_nil]
    | append_singleton blanks c ih =>
      rw [List.forall_mem_append, List.forall_mem_singleton] at hblanks
      rw [← List.append_assoc, trim_concat hblanks.2, ih hblanks.1]
  obtain ⟨⟨tail, htail, hblank⟩, -⟩ := trimEnd_spec cs
  rw [← happend tail hblank, ← htail]

theorem trimEnd_mark (line : List Char) : trimEnd ('!' :: line) = '!' :: trimEnd line := by
  have hmark : isBlank '!' = false := by decide
  rw [trimEnd_cons, hmark, Bool.and_false]
  rfl

theorem trim_mark (line : List Char) : trim ('!' :: line) = '!' :: trimEnd line := by
  have hmark : trimStart ('!' :: line) = '!' :: line := List.dropWhile_cons_of_neg (by decide)
  rw [trim, hmark, trimEnd_mark]

variable {e : Engines}

namespace Rule

theorem parse?_congr {line line' : List Char} (h : trim line = trim line') : parse? e line = parse? e line' := by
  simp only [parse?, h]

theorem matcher_of_parse? {line : List Char} {r : Rule} (h : parse? e line = some r) (hplain : r.negated = false) :
    trim line ≠ [] ∧ Matcher.parse? e (trim line) = some r.matcher := by
  rw [parse?] at h
  dsimp only at h
  split at h
  · cases h
  · cases h
  · split_ifs at h
    obtain ⟨m, -, rfl⟩ := Option.map_eq_some_iff.mp h
    cases hplain
  · next hnil _ _ =>
    obtain ⟨m, hm, rfl⟩ := Option.map_eq_some_iff.mp h
    exact ⟨hnil, hm⟩

theorem parse?_mark {line : List Char} (h : trim line ≠ []) :
    parse? e ('!' :: line) = (Matcher.parse? e (trim line)).map (⟨·, true⟩) := by
  have hbody : (trim (trimEnd line)).isEmpty = false := by
    rw [trim_trimEnd]
    simpa using h
  rw [parse?, trim_mark]
  change (if (trim (trimEnd line)).isEmpty then none
    else (Matcher.parse? e (trim (trimEnd line))).map fun m => (⟨m, true⟩ : Rule)) = _
  rw [hbody, trim_trimEnd]
  rfl

theorem parse?_negation {line : List Char} {r : Rule} (h : parse? e line = some r) (hplain : r.negated = false) :
    parse? e ('!' :: line) = some ⟨r.matcher, true⟩ := by
  obtain ⟨hne, hmatcher⟩ := matcher_of_parse? h hplain
  rw [parse?_mark hne, hmatcher]
  rfl

end Rule

theorem parse_single {line tail : List Char} (hline : '\n' ∉ line) (htail : ∀ c ∈ tail, isBlank c = true) :
    ((line ++ tail).splitOn '\n').filterMap (Rule.parse? e) = (Rule.parse? e line).toList := by
  have hsingle : ∀ line : List Char, '\n' ∉ line →
      (line.splitOn '\n').filterMap (Rule.parse? e) = (Rule.parse? e line).toList := by
    intro line hline
    rw [List.splitOn_eq_singleton hline]
    cases h : Rule.parse? e line <;> simp [h]
  induction tail generalizing line with
  | nil => simpa using hsingle line hline
  | cons c tail ih =>
    rw [List.forall_mem_cons] at htail
    by_cases hc : c = '\n'
    · have hrest : (tail.splitOn '\n').filterMap (Rule.parse? e) = [] := ih List.not_mem_nil htail.2
      rw [hc, List.splitOn_append_cons_self, List.filterMap_append, hsingle line hline, hrest, List.append_nil]
    · have hshift : line ++ c :: tail = (line ++ [c]) ++ tail := by simp
      rw [hshift, ih (by simpa using ⟨hline, Ne.symm hc⟩) htail.2, Rule.parse?_congr (trim_concat htail.1 line)]

namespace Dictionary

theorem append_line (d : Dictionary) {line : List Char} {r : Rule} (hline : '\n' ∉ trimEnd line)
    (h : Rule.parse? e line = some r) : d.append e line = ⟨d.rules ++ [r]⟩ := by
  obtain ⟨⟨tail, htail, hblank⟩, -⟩ := trimEnd_spec line
  have hparse : Rule.parse? e (trimEnd line) = some r := (Rule.parse?_congr (trim_trimEnd line)).trans h
  have hrules := parse_single (e := e) hline hblank
  rw [← htail, hparse] at hrules
  rw [append, lines_parse, hrules]
  rfl

theorem excludes_concat (rules : List Rule) (r : Rule) (text : List Char) :
    excludes ⟨rules ++ [r]⟩ text = if r.accepts text then !r.negated else excludes ⟨rules⟩ text :=
  excludes_append rules [r] text

theorem append_negation (d : Dictionary) {line : List Char} {r : Rule} (hline : '\n' ∉ trimEnd line)
    (h : Rule.parse? e line = some r) (hplain : r.negated = false) :
    d.append e ('!' :: line) = ⟨d.rules ++ [⟨r.matcher, true⟩]⟩ := by
  apply append_line
  · rw [trimEnd_mark]
    simpa using hline
  · exact Rule.parse?_negation h hplain

theorem negation_counterpart {line : List Char} {r : Rule} (h : Rule.parse? e line = some r) (hplain : r.negated = false) :
    (∃ n, Rule.parse? e ('!' :: line) = some n ∧ n.negated = true ∧ ∀ text, n.accepts text = r.accepts text) ∧
    ('\n' ∉ trimEnd line → ∀ (d : Dictionary) (text : List Char),
      (r.accepts text = true → ((d.append e line).append e ('!' :: line)).excludes text = false ∧
        ((d.append e ('!' :: line)).append e line).excludes text = true) ∧
      (r.accepts text = false → ((d.append e line).append e ('!' :: line)).excludes text = d.excludes text ∧
        ((d.append e ('!' :: line)).append e line).excludes text = d.excludes text)) := by
  refine ⟨⟨⟨r.matcher, true⟩, Rule.parse?_negation h hplain, rfl, fun text => rfl⟩, ?_⟩
  intro hline d text
  have hsame : Rule.accepts ⟨r.matcher, true⟩ text = r.accepts text := rfl
  rw [append_negation _ hline h hplain, append_line d hline h, append_negation d hline h hplain, append_line _ hline h]
  simp only [excludes_concat, hsame, hplain]
  constructor
  · intro haccepts
    simp [haccepts]
  · intro haccepts
    simp [haccepts]

def padded : List Char := "\tdata-*\r\n".toList

theorem negation_counterpart_padded :
    ∃ r, Rule.parse? .own padded = some r ∧ r.negated = false ∧ '\n' ∉ trimEnd padded ∧
      r.accepts "data-x".toList = true ∧ r.accepts "en".toList = false ∧
      (∃ n, Rule.parse? .own ('!' :: padded) = some n ∧ n.negated = true ∧ ∀ text, n.accepts text = r.accepts text) ∧
      (((builtIn .own).append .own padded).append .own ('!' :: padded)).excludes "data-x".toList = false ∧
      (((builtIn .own).append .own ('!' :: padded)).append .own padded).excludes "data-x".toList = true ∧
      (((builtIn .own).append .own padded).append .own ('!' :: padded)).excludes "en".toList =
        (builtIn .own).excludes "en".toList ∧
      (((builtIn .own).append .own ('!' :: padded)).append .own padded).excludes "en".toList =
        (builtIn .own).excludes "en".toList := by
  have hrule : ((Rule.parse? .own padded).map fun r => (r.negated, r.accepts "data-x".toList, r.accepts "en".toList)) =
      some (false, true, false) := by decide +kernel
  obtain ⟨r, hr, hfields⟩ := Option.map_eq_some_iff.mp hrule
  obtain ⟨hplain, hfields⟩ := Prod.mk.inj hfields
  obtain ⟨haccepts, hother⟩ := Prod.mk.inj hfields
  have hline : '\n' ∉ trimEnd padded := by decide
  obtain ⟨hnegation, happend⟩ := negation_counterpart hr hplain
  obtain ⟨hflips, -⟩ := happend hline (builtIn .own) "data-x".toList
  obtain ⟨-, hkeeps⟩ := happend hline (builtIn .own) "en".toList
  exact ⟨r, hr, hplain, hline, haccepts, hother, hnegation, (hflips haccepts).1, (hflips haccepts).2, (hkeeps hother).1,
    (hkeeps hother).2⟩

end Dictionary

end VisibleText.Exclusion
