import VisibleText.Proofs.DiscoveredFiles

namespace VisibleText

def Path.relativeTo (p root : Path) : List Path.Component := p.components.drop root.components.length

theorem Entry.IsTree.get? {e : Entry} (h : e.IsTree) {names : List String} {found : Entry}
    (hfound : e.get? names = some found) : found.IsTree := by
  induction names generalizing e with
  | nil =>
    obtain rfl := Option.some.inj hfound
    exact h
  | cons name names ih =>
    rw [get?_cons] at hfound
    obtain ⟨c, hc, hrest⟩ := Option.bind_eq_some_iff.mp hfound
    cases h with
    | file content => cases hc
    | link target => cases hc
    | directory hnames hnodup hbelow => exact ih (hbelow _ ((lookup_eq_some_of_nodup hnodup).mp hc)) hrest

namespace Discovery

namespace Ignores

structure IsStripped (entry stripped : List Char) : Prop where
  around : ∃ m n, entry = List.replicate m '/' ++ stripped ++ List.replicate n '/'
  front : stripped.head? ≠ some '/'
  back : stripped.getLast? ≠ some '/'

/-- What an entry names: a path one of whose components is the entry, or one that begins with its components. -/
def Names (stripped : List Char) (path : List Path.Component) : Prop :=
  .name (String.ofList stripped) ∈ path ∨ Path.components ⟨String.ofList stripped⟩ <+: path

instance (stripped : List Char) (path : List Path.Component) : Decidable (Names stripped path) :=
  inferInstanceAs (Decidable (_ ∨ _))

theorem dropWhile_slashes (cs : List Char) :
    ∃ m, cs = List.replicate m '/' ++ cs.dropWhile (· = '/') ∧ (cs.dropWhile (· = '/')).head? ≠ some '/' := by
  induction cs with
  | nil => exact ⟨0, rfl, by simp⟩
  | cons c cs ih =>
    by_cases hc : c = '/'
    · obtain ⟨m, hm, hhead⟩ := ih
      rw [List.dropWhile_cons_of_pos (by simpa using hc)]
      refine ⟨m + 1, ?_, hhead⟩
      rw [List.replicate_succ, List.cons_append, ← hm, hc]
    · rw [List.dropWhile_cons_of_neg (by simpa using hc)]
      exact ⟨0, rfl, by simpa using hc⟩

theorem isStripped_trimSlashes (entry : String) : IsStripped entry.toList (trimSlashes entry).toList := by
  obtain ⟨m, hm, hfront⟩ := dropWhile_slashes entry.toList
  have htext : (trimSlashes entry).toList =
      ((entry.toList.dropWhile (· = '/')).reverse.dropWhile (· = '/')).reverse := by
    rw [trimSlashes, String.toList_ofList]
  rw [htext]
  generalize entry.toList.dropWhile (· = '/') = front at hm hfront
  obtain ⟨n, hn, hback⟩ := dropWhile_slashes front.reverse
  generalize front.reverse.dropWhile (· = '/') = back at hn hback
  have hreverse : front = back.reverse ++ List.replicate n '/' := by
    rw [← List.reverse_reverse front, hn, List.reverse_append, List.reverse_replicate]
  refine ⟨⟨m, n, by rw [hm, hreverse, List.append_assoc]⟩, ?_, ?_⟩
  · intro hslash
    apply hfront
    rw [hreverse, List.head?_append, hslash]
    rfl
  · rwa [List.getLast?_reverse]

theorem forall_slash_iff {entry stripped : List Char} (h : IsStripped entry stripped) :
    (∀ c ∈ entry, c = '/') ↔ stripped = [] := by
  obtain ⟨m, n, rfl⟩ := h.around
  constructor
  · intro hall
    cases stripped with
    | nil => rfl
    | cons c cs =>
      have hc : c = '/' := hall c (by simp)
      exact absurd (congrArg some hc) h.front
  · rintro rfl c hc
    simp only [List.append_nil, List.mem_append, List.mem_replicate] at hc
    rcases hc with hc | hc
    · exact hc.2
    · exact hc.2

theorem dropWhile_replicate (m : ℕ) {cs : List Char} (h : cs.head? ≠ some '/') :
    (List.replicate m '/' ++ cs).dropWhile (· = '/') = cs := by
  have hslashes : ∀ c ∈ List.replicate m '/', decide (c = '/') = true := by simp
  rw [List.dropWhile_append_of_pos hslashes]
  cases cs with
  | nil => rfl
  | cons c cs => exact List.dropWhile_cons_of_neg (by simpa using h)

theorem IsStripped.eq_trimSlashes {entry : String} {stripped : List Char} (h : IsStripped entry.toList stripped) :
    stripped = (trimSlashes entry).toList := by
  by_cases hnil : stripped = []
  · rw [hnil, (forall_slash_iff (isStripped_trimSlashes entry)).mp ((forall_slash_iff h).mpr hnil)]
  · obtain ⟨m, n, hentry⟩ := h.around
    have hhead : (stripped ++ List.replicate n '/').head? ≠ some '/' := by
      obtain ⟨c, cs, rfl⟩ := List.exists_cons_of_ne_nil hnil
      exact h.front
    have hback : stripped.reverse.head? ≠ some '/' := by
      rw [List.head?_reverse]
      exact h.back
    rw [trimSlashes, String.toList_ofList, hentry, List.append_assoc, dropWhile_replicate m hhead, List.reverse_append,
      List.reverse_replicate, dropWhile_replicate n hback, List.reverse_reverse]

theorem components_ne_nil {entry stripped : List Char} (h : IsStripped entry stripped) (hne : stripped ≠ []) :
    Path.components ⟨String.ofList stripped⟩ ≠ [] := by
  obtain ⟨c, cs, rfl⟩ := List.exists_cons_of_ne_nil hne
  have hc : c ≠ '/' := fun hc => h.front (congrArg some hc)
  have hpieces : Path.piecesFrom 0 [] (Path.mk (String.ofList (c :: cs))).text.toList = Path.piecesFrom 1 [c] cs := by
    rw [String.toList_ofList, Path.piecesFrom, if_neg hc]
  obtain ⟨first, rest, hfirst⟩ := List.exists_cons_of_ne_nil (Path.piecesFrom_ne_nil 1 [c] cs)
  obtain ⟨more, hmore⟩ := Path.piecesFrom_head hfirst
  have hnil : first.1 ≠ [] := by simp [hmore]
  have hfront : Path.front first rest.isEmpty ≠ [] := by
    rw [Path.front, if_neg hnil]
    by_cases hdot : first.1 = ['.']
    · simp [hdot]
    · rw [if_neg hdot, Path.component?, if_neg (by simp [hnil, hdot])]
      split_ifs <;> simp
  rw [Path.components, Path.located_eq (hpieces.trans hfirst)]
  simp [hfront]

theorem parse_literal {entry : String} (h : isPattern entry = false) (before after : List String) :
    (parse (before ++ entry :: after)).2 = (parse (before ++ after)).2 ∧
      ∀ names, (parse (before ++ entry :: after)).1.hides names =
        ((parse (before ++ after)).1.hides names || literalHides ⟨trimSlashes entry⟩ names) := by
  simp only [parse, List.partition_eq_filter_filter, List.filter_append, List.filter_cons, h]
  refine ⟨by simp, ?_⟩
  intro names
  simp only [hides, Function.comp_apply, h, Bool.not_false, if_true, Bool.false_eq_true, if_false, List.map_append, List.map_cons,
    List.any_append, List.any_cons]
  grind

theorem literalHides_append {entry : Path} {names : List String} (h : literalHides entry names = true)
    (rest : List String) : literalHides entry (names ++ rest) = true := by
  rw [literalHides, Bool.or_eq_true, List.isPrefixOf_iff_prefix, List.contains_iff_mem] at h ⊢
  rcases h with h | h
  · left
    rw [List.map_append]
    exact h.trans (List.prefix_append _ _)
  · exact .inr (List.mem_append_left rest h)

theorem literalHides_eq_names (entry : String) (names : List String) :
    literalHides ⟨entry⟩ names = decide (Names entry.toList (names.map .name)) := by
  rw [Bool.eq_iff_iff, decide_eq_true_iff, literalHides, Bool.or_eq_true, List.isPrefixOf_iff_prefix,
    List.contains_iff_mem, Names, String.ofList_toList, or_comm]
  simp

end Ignores

section Reachable

variable {hidden hidden' literal : List String → Bool}

theorem reachable_congr (h : ∀ names name, hidden (names ++ [name]) = hidden' (names ++ [name])) {e : Entry}
    (htree : e.IsTree) (names : List String) : reachable hidden names e = reachable hidden' names e := by
  induction htree generalizing names with
  | file content => rw [reachable, reachable]
  | link target => rw [reachable, reachable]
  | @directory entries hnames hnodup hbelow ih =>
    rw [reachable, reachable]
    clear hnames hnodup hbelow
    induction entries with
    | nil => rw [reachable.below, reachable.below]
    | cons x entries ihentries =>
      obtain ⟨hx, hentries⟩ := List.forall_mem_cons.mp ih
      rw [reachable.below, reachable.below, h, hx, ihentries hentries]

theorem reachable_or (hbelow : ∀ names rest, literal names = true → literal (names ++ rest) = true) {e : Entry}
    (htree : e.IsTree) {names : List String} (hnames : literal names = false) :
    reachable (fun found => hidden found || literal found) names e =
      (reachable hidden names e).filter fun found => !literal found := by
  induction htree generalizing names with
  | file content => simp [reachable, hnames]
  | link target => simp [reachable]
  | @directory entries hentries hnodup htrees ih =>
    rw [reachable, reachable]
    clear hentries hnodup
    induction entries with
    | nil => simp [reachable.below]
    | cons x entries ihentries =>
      obtain ⟨hx, hxs⟩ := List.forall_mem_cons.mp ih
      obtain ⟨htree, htrees⟩ := List.forall_mem_cons.mp htrees
      rw [reachable.below, reachable.below, List.filter_append, ihentries htrees hxs]
      congr 1
      cases hhidden : hidden (names ++ [x.1]) with
      | true => simp
      | false =>
        cases hliteral : literal (names ++ [x.1]) with
        | false => simpa using hx hliteral
        | true =>
          -- all that is found below the entry is filtered out
          symm
          simp only [Bool.or_true, if_true, Bool.false_eq_true, if_false, List.filter_eq_nil_iff]
          intro found hfound
          obtain ⟨rel, _, rfl, -⟩ := (mem_reachable htree).mp hfound
          rw [hbelow _ rel hliteral]
          decide

end Reachable

theorem filter_mergeSort {found : List (List String)} (h : found.Nodup) (p : List String → Bool) :
    (found.filter p).mergeSort namesLe = (found.mergeSort namesLe).filter p := by
  have hperm : ((found.filter p).mergeSort namesLe).Perm ((found.mergeSort namesLe).filter p) :=
    (List.mergeSort_perm _ _).trans ((List.mergeSort_perm _ _).symm.filter p)
  apply hperm.eq_of_pairwise ?_ (sorted_names (h.filter p)) ((sorted_names h).filter p)
  intro a b _ _ hab hba
  exact absurd (List.lt_trans hab hba) (List.lt_irrefl a)

theorem start?_isTree {fs : FileSystem} (hfs : fs.root.IsTree) {root : Path} {e : Entry}
    (h : start? fs root = .ok (some e)) : e.IsTree := by
  rw [start?] at h
  cases hplace : fs.follow false root with
  | error err => simp [hplace, bind, Except.bind] at h
  | ok place =>
    simp only [hplace, bind, Except.bind] at h
    split at h
    · cases h
    · split at h
      · cases h
      · next top hstat =>
        obtain ⟨place, -, htop⟩ := FileSystem.stat_ok hstat
        split at h
        · obtain rfl := Option.some.inj (Except.ok.inj h)
          exact hfs.get? htop
        · cases h
    · next top _ htop =>
      obtain rfl := Option.some.inj (Except.ok.inj h)
      exact hfs.get? htop

theorem sources_or {hidden literal : List String → Bool}
    (hbelow : ∀ names rest, literal names = true → literal (names ++ rest) = true) (hroot : literal [] = false)
    {e : Entry} (htree : e.IsTree) (root : Path) (pattern : Pattern) {removed : SourceFile → Bool}
    (hremoved : ∀ f names, f.path.relativeTo root = names.map .name → removed f = literal names) :
    sources root pattern (reachable (fun found => hidden found || literal found) [] e) =
      (sources root pattern (reachable hidden [] e)).filter fun f => !removed f := by
  have hsources : ∀ found, sources root pattern found = (found.mergeSort namesLe).filterMap (source? root pattern) :=
    fun _ => rfl
  rw [hsources, hsources, reachable_or hbelow htree hroot, filter_mergeSort (reachable_nodup htree [])]
  have hnames : ∀ names ∈ (reachable hidden [] e).mergeSort namesLe, ∀ name ∈ names, Path.IsName name.toList := by
    intro names hmem
    rw [List.mem_mergeSort, mem_reachable htree] at hmem
    obtain ⟨rel, content, rfl, hfile, -⟩ := hmem
    exact htree.names hfile
  generalize (reachable hidden [] e).mergeSort namesLe = found at hnames
  rw [List.filter_filterMap, List.filterMap_filter]
  apply List.filterMap_congr
  intro names hmem
  cases hsource : source? root pattern names with
  | none => simp
  | some f =>
    have hrelative : f.path.relativeTo root = names.map .name := by
      rw [Path.relativeTo, (source?_some hsource).1, Path.below_components root (hnames names hmem), List.drop_left]
    rw [Option.filter_some, hremoved f names hrelative]

theorem scan_map {fs : FileSystem} (hfs : fs.root.IsTree) (color verbose : Bool) (root : Path) (pattern : String)
    {before after : List String} {entry : String} (hentry : Ignores.isPattern entry = false)
    {removed : SourceFile → Bool} (hremoved : ∀ f names, f.path.relativeTo root = names.map .name →
      removed f = (!names.isEmpty && Ignores.literalHides ⟨Ignores.trimSlashes entry⟩ names)) :
    scan fs color verbose root pattern (before ++ entry :: after) =
      (scan fs color verbose root pattern (before ++ after)).map fun found =>
        { found with files := found.files.filter fun f => !removed f } := by
  obtain ⟨hrefused, hhides⟩ := Ignores.parse_literal hentry before after
  let literal := fun names : List String => !names.isEmpty && Ignores.literalHides ⟨Ignores.trimSlashes entry⟩ names
  have hbelow : ∀ names rest, literal names = true → literal (names ++ rest) = true := by
    intro names rest h
    simp only [literal, Bool.and_eq_true, Bool.not_eq_true', List.isEmpty_eq_false_iff] at h ⊢
    exact ⟨List.append_ne_nil_of_left_ne_nil h.1 rest, Ignores.literalHides_append h.2 rest⟩
  cases hpattern : Pattern.parse pattern with
  | error err => simp [scan, hpattern, bind, Except.bind, Except.map]
  | ok tokens =>
    simp only [scan, hpattern, bind, Except.bind, hrefused]
    cases hstart : start? fs root with
    | error err => rfl
    | ok top =>
      cases top with
      | none => rfl
      | some e =>
        have htree := start?_isTree hfs hstart
        have hreachable : reachable (Ignores.parse (before ++ entry :: after)).1.hides [] e =
            reachable (fun found => (Ignores.parse (before ++ after)).1.hides found || literal found) [] e := by
          apply reachable_congr ?_ htree
          intro names name
          have hne : (names ++ [name]).isEmpty = false := by cases names <;> rfl
          simp [hhides, literal, hne]
        dsimp only
        rw [hreachable, sources_or hbelow rfl htree root tokens hremoved]
        rfl

/-- Adding an ignored entry without wildcards removes the files that it names and no others, whatever else is ignored.
An entry of slashes alone names nothing, but removes all that is below the directory. -/
theorem scan_literal_entry (fs : FileSystem) (hfs : fs.root.IsTree) (color verbose : Bool) (root : Path) (pattern : String)
    (before after : List String) {entry : String} (hentry : ∀ c ∈ entry.toList, c ≠ '*' ∧ c ≠ '?' ∧ c ≠ '[')
    {stripped : List Char} (hstripped : Ignores.IsStripped entry.toList stripped) :
    ((∃ c ∈ entry.toList, c ≠ '/') → Path.components ⟨String.ofList stripped⟩ ≠ [] ∧
      scan fs color verbose root pattern (before ++ entry :: after) =
        (scan fs color verbose root pattern (before ++ after)).map fun found =>
          { found with files := found.files.filter fun f => ¬ Ignores.Names stripped (f.path.relativeTo root) }) ∧
    ((∀ c ∈ entry.toList, c = '/') →
      scan fs color verbose root pattern (before ++ entry :: after) =
        (scan fs color verbose root pattern (before ++ after)).map fun found =>
          { found with files := found.files.filter fun f => f.path.relativeTo root = [] }) := by
  have hliteral : Ignores.isPattern entry = false := by
    rw [Ignores.isPattern, List.any_eq_false]
    intro c hc
    simpa [and_assoc] using hentry c hc
  have hslashes := Ignores.forall_slash_iff hstripped
  constructor
  · rintro ⟨c, hc, hslash⟩
    have hcomponents := Ignores.components_ne_nil hstripped fun hnil => hslash (hslashes.mpr hnil c hc)
    refine ⟨hcomponents, ?_⟩
    simp only [decide_not]
    apply scan_map hfs color verbose root pattern hliteral
    intro f names hnames
    rw [hnames, Ignores.literalHides_eq_names, ← hstripped.eq_trimSlashes]
    cases names with
    | nil => simpa [Ignores.Names] using hcomponents
    | cons name names => rw [List.isEmpty_cons, Bool.not_false, Bool.true_and]
  · intro hall
    have hnil : Ignores.trimSlashes entry = "" := by
      rw [← String.toList_eq_nil_iff, ← hstripped.eq_trimSlashes]
      exact hslashes.mp hall
    have hempty : Path.components ⟨""⟩ = [] := by decide
    have hremoved : ∀ (f : SourceFile) names, f.path.relativeTo root = names.map .name →
        (!decide (f.path.relativeTo root = [])) =
          (!names.isEmpty && Ignores.literalHides ⟨Ignores.trimSlashes entry⟩ names) := by
      intro f names hnames
      rw [hnames, hnil, Ignores.literalHides, hempty]
      cases names <;> simp
    simpa using scan_map hfs color verbose root pattern hliteral hremoved

theorem scan_literal_entry_project :
    (Entry.directory project).IsTree ∧ Ignores.IsStripped "/vendor/".toList "vendor".toList ∧
    Ignores.IsStripped "/".toList [] ∧
    Ignores.Names "vendor".toList [.name "vendor", .name "a.php"] ∧
    ¬ Ignores.Names "vendor".toList [.name "src", .name "b.php"] ∧
    scan ⟨.directory project, []⟩ false false ⟨"."⟩ "**/*.php" ["storage", "/vendor/"] =
      (scan ⟨.directory project, []⟩ false false ⟨"."⟩ "**/*.php" ["storage"]).map (fun found =>
        { found with files := found.files.filter fun f => ¬ Ignores.Names "vendor".toList (f.path.relativeTo ⟨"."⟩) }) ∧
    scan ⟨.directory project, []⟩ false false ⟨"."⟩ "**/*.php" ["storage", "/"] =
      (scan ⟨.directory project, []⟩ false false ⟨"."⟩ "**/*.php" ["storage"]).map (fun found =>
        { found with files := found.files.filter fun f => f.path.relativeTo ⟨"."⟩ = [] }) := by
  have hvendor : Ignores.IsStripped "/vendor/".toList "vendor".toList :=
    ⟨⟨1, 1, by decide⟩, by decide, by decide⟩
  have hslash : Ignores.IsStripped "/".toList [] := ⟨⟨1, 0, by decide⟩, by decide, by decide⟩
  have hentry (entry : String) (h : entry.toList.all (fun c => c ≠ '*' ∧ c ≠ '?' ∧ c ≠ '[') = true) :
      ∀ c ∈ entry.toList, c ≠ '*' ∧ c ≠ '?' ∧ c ≠ '[' := by simpa using h
  have hfirst := (scan_literal_entry ⟨.directory project, []⟩ project_isTree false false ⟨"."⟩ "**/*.php" ["storage"] []
    (hentry "/vendor/" (by decide)) hvendor).1 ⟨'v', by decide, by decide⟩
  have hsecond := (scan_literal_entry ⟨.directory project, []⟩ project_isTree false false ⟨"."⟩ "**/*.php" ["storage"] []
    (hentry "/" (by decide)) hslash).2 (by simp)
  exact ⟨project_isTree, hvendor, hslash, by decide, by decide, hfirst.2, hsecond⟩

end Discovery

end VisibleText
