import Mathlib.Data.List.Forall2
import Mathlib.Data.List.Induction
import VisibleText.Engines.Own
import VisibleText.Proofs.FileTree
import VisibleText.Proofs.Hits
import VisibleText.Proofs.Paths
import VisibleText.Search

namespace VisibleText.Exclusion

theorem trim_concat {c : Char} (h : isBlank c = true) (cs : List Char) : trim (cs ++ [c]) = trim cs := by
  have hend : trimEnd [c] = [] := by simp [trimEnd, h]
  rw [trim, trim, trimStart, trimStart, List.dropWhile_append]
  split_ifs with hempty
  · rw [List.isEmpty_iff.mp hempty, List.dropWhile_cons_of_pos h, List.dropWhile_nil]
  · rw [trimEnd_append, hend]
    rfl

variable {e : Engines}

theorem Rule.parse?_concat_return (line : List Char) : parse? e (line ++ ['\r']) = parse? e line := by
  have htrim : trim (line ++ ['\r']) = trim line := trim_concat (by decide) line
  simp only [parse?, htrim]

theorem lines_parse (source : List Char) :
    (lines source).filterMap (Rule.parse? e) = (source.splitOn '\n').filterMap (Rule.parse? e) := by
  have hgo (line : List Char) : (lines.go line source).filterMap (Rule.parse? e) =
      (source.splitOnPPrepend (· == '\n') line).filterMap (Rule.parse? e) := by
    fun_induction lines.go line source with
    | case1 line hline =>
      rw [List.isEmpty_iff.mp hline]
      rfl
    | case2 line hline => rfl
    | case3 line rest ih =>
      rw [List.splitOnPPrepend_cons_pos (by rfl)]
      split
      · rw [List.reverse_cons, List.filterMap_cons, List.filterMap_cons, Rule.parse?_concat_return, ih]
        rfl
      · rw [List.filterMap_cons, List.filterMap_cons, ih]
        rfl
    | case4 line c rest hc ih =>
      rw [List.splitOnPPrepend_cons_neg (by simpa using hc), ih]
  exact hgo []

theorem Dictionary.append_append (d : Dictionary) (a b : List Char) :
    (d.append e a).append e b = d.append e (a ++ '\n' :: b) := by
  simp only [append, lines_parse, List.splitOn_append_cons_self, List.filterMap_append, List.append_assoc]

/-- The rule of the last line that has one which matches the text. -/
def Decides (e : Engines) (lines : List (List Char)) (text : List Char) (r : Rule) : Prop :=
  ∃ before line after, lines = before ++ line :: after ∧ Rule.parse? e line = some r ∧ r.accepts text = true ∧
    ∀ later ∈ after, ∀ other, Rule.parse? e later = some other → other.accepts text = false

theorem not_decides_nil (text : List Char) (r : Rule) : ¬ Decides e [] text r := by
  rintro ⟨before, line, after, hlines, -⟩
  simp at hlines

theorem decides_concat_iff {lines : List (List Char)} {line text : List Char} {r : Rule} :
    Decides e (lines ++ [line]) text r ↔ Rule.parse? e line = some r ∧ r.accepts text = true ∨
      Decides e lines text r ∧ ∀ other, Rule.parse? e line = some other → other.accepts text = false := by
  constructor
  · rintro ⟨before, found, after, hlines, hr, haccepts, hafter⟩
    cases after using List.reverseRecOn with
    | nil =>
      obtain ⟨-, hline⟩ := List.append_inj' hlines rfl
      rw [List.singleton_inj.mp hline]
      exact .inl ⟨hr, haccepts⟩
    | append_singleton after last _ =>
      rw [← List.cons_append, ← List.append_assoc] at hlines
      obtain ⟨hfront, hline⟩ := List.append_inj' hlines rfl
      rw [List.singleton_inj.mp hline]
      refine .inr ⟨⟨before, found, after, hfront, hr, haccepts, ?_⟩, hafter last (by simp)⟩
      intro later hlater
      exact hafter later (List.mem_append_left _ hlater)
  · rintro (⟨hr, haccepts⟩ | ⟨⟨before, found, after, rfl, hr, haccepts, hafter⟩, hline⟩)
    · exact ⟨lines, line, [], rfl, hr, haccepts, by simp⟩
    · refine ⟨before, found, after ++ [line], by simp, hr, haccepts, ?_⟩
      intro later hlater
      rcases List.mem_append.mp hlater with hlater | hlater
      · exact hafter later hlater
      · rw [List.mem_singleton.mp hlater]
        exact hline

theorem excludes_append (rules more : List Rule) (text : List Char) :
    Dictionary.excludes ⟨rules ++ more⟩ text =
      more.foldl (fun excluded r => if r.accepts text then !r.negated else excluded)
        (Dictionary.excludes ⟨rules⟩ text) := by
  rw [Dictionary.excludes, List.foldl_append]
  rfl

theorem excludes_iff (e : Engines) (lines : List (List Char)) (text : List Char) :
    Dictionary.excludes ⟨lines.filterMap (Rule.parse? e)⟩ text = true ↔ ∃ r, Decides e lines text r ∧ r.negated = false := by
  induction lines using List.reverseRecOn with
  | nil => simp [Dictionary.excludes, not_decides_nil]
  | append_singleton lines line ih =>
    rw [List.filterMap_append, excludes_append]
    simp only [decides_concat_iff]
    cases hline : Rule.parse? e line with
    | none => simpa [hline] using ih
    | some r =>
      by_cases haccepts : r.accepts text = true
      · simp [hline, haccepts]
      · have hother (other : Rule) : ¬ (r = other ∧ other.accepts text = true) := by
          rintro ⟨rfl, h⟩
          exact haccepts h
        simpa [hline, haccepts, hother] using ih

theorem Dictionary.appendFiles_ok {d d' : Dictionary} {fs : FileSystem} {paths : List Path}
    (h : d.appendFiles e fs paths = .ok d') :
    ∃ texts, List.Forall₂ (fun p text => fs.readText p = .ok text) paths texts ∧
      d'.rules = d.rules ++ (texts.flatMap fun text => text.splitOn '\n').filterMap (Rule.parse? e) := by
  induction paths generalizing d with
  | nil =>
    obtain rfl := Except.ok.inj h
    exact ⟨[], .nil, by simp⟩
  | cons p paths ih =>
    rw [appendFiles] at h
    cases hp : fs.readText p with
    | error e => simp [hp] at h
    | ok text =>
      rw [hp] at h
      obtain ⟨texts, htexts, hrules⟩ := ih h
      refine ⟨text :: texts, .cons hp htexts, ?_⟩
      rw [hrules, append, lines_parse, List.append_assoc, ← List.filterMap_append, List.flatMap_cons]

end VisibleText.Exclusion

namespace VisibleText

theorem Config.findFrom_some {fs : FileSystem} {depth : ℕ} {dir file : Path} (h : findFrom fs depth dir = some file) :
    ∃ d : Path, file = d.join ⟨fileName⟩ := by
  induction depth generalizing dir with
  | zero => cases h
  | succ depth ih =>
    simp only [findFrom] at h
    split_ifs at h
    · exact ⟨dir, (Option.some.inj h).symm⟩
    · split at h
      · exact ih h
      · cases h

theorem Config.load_baseDir? {fs : FileSystem} {dir file : Path} {loaded : Loaded} (h : load fs dir = .ok loaded)
    (hfile : loaded.path = some file) : ∃ base, file.parent? = some base ∧ loaded.baseDir? = some base := by
  have hfind : find? fs dir = some file := by
    rw [load] at h
    split at h
    · rw [← Except.ok.inj h] at hfile
      cases hfile
    · next p hp =>
      split at h
      · rw [← Except.ok.inj h] at hfile
        exact hp.trans hfile
      · cases h
  obtain ⟨d, rfl⟩ := findFrom_some hfind
  have hname : Path.IsName fileName.toList := ⟨by decide, by decide, by decide, by decide⟩
  have hlast : (d.join ⟨fileName⟩).fileName? = some fileName := by
    rw [Path.fileName?, Path.join_components d hname, List.getLast?_concat]
  obtain ⟨base, hbase⟩ := Path.parent?_of_fileName? hlast
  exact ⟨base, hbase, by rw [Loaded.baseDir?, hfile, Option.bind_some, hbase]⟩

theorem Discovery.scan_ok {fs : FileSystem} {color verbose : Bool} {root : Path} {pattern : String} {ignores : List String}
    {parsed : Pattern} (h : Pattern.parse pattern = .ok parsed) :
    ∃ found, scan fs color verbose root pattern ignores = .ok found := by
  simp only [scan, h, bind, Except.bind]
  split
  · exact ⟨_, rfl⟩
  · exact ⟨_, rfl⟩
  · exact ⟨_, rfl⟩

theorem Config.validate_pattern {c : Config} (h : c.validate = .ok ()) :
    ∃ parsed, Discovery.Pattern.parse c.pattern = .ok parsed := by
  cases hpattern : Discovery.Pattern.parse c.pattern with
  | ok parsed => exact ⟨parsed, rfl⟩
  | error e =>
    rw [validate, hpattern] at h
    split_ifs at h <;> cases h

namespace Search

theorem Setup.require_bind_ok {ε α β : Type} {cause : ε → SearchError} {x : Except ε α} {f : α → Setup β}
    {told told' : String} {b : β} (h : (Setup.require cause x >>= f).run.run told = (.ok b, told')) :
    ∃ a, x = .ok a ∧ (f a).run.run told = (.ok b, told') := by
  cases x with
  | error e => cases h
  | ok a => exact ⟨a, rfl, h⟩

theorem Setup.say_if_ok {β : Type} {c : Prop} [Decidable c] {message : String} {f : Unit → Setup β}
    {told told' : String} {b : β}
    (h : (if c then Setup.say message >>= f else f ()).run.run told = (.ok b, told')) :
    ∃ told, (f ()).run.run told = (.ok b, told') := by
  split_ifs at h
  · exact ⟨told ++ message, h⟩
  · exact ⟨told, h⟩

variable {e : Engines}

theorem prepare_steps {fs : FileSystem} {color : Bool} {o : Command.ExtractOptions} {s : Search} {told told' : String}
    (h : (prepare e fs color o).run.run told = (.ok s, told')) :
    ∃ root loaded, fs.canonical o.dir = .ok root ∧ Config.load fs root = .ok loaded ∧
      (loaded.config.override o).validate = .ok () ∧
      (Exclusion.Dictionary.builtIn e).appendFiles e fs
        (dictionaryPaths (loaded.baseDir?.getD root) (loaded.config.override o) o) = .ok s.dictionary := by
  obtain ⟨root, hroot, h⟩ := Setup.require_bind_ok h
  obtain ⟨loaded, hloaded, h⟩ := Setup.require_bind_ok h
  obtain ⟨told, h⟩ := Setup.say_if_ok h
  obtain ⟨⟨⟩, hvalid, h⟩ := Setup.require_bind_ok h
  obtain ⟨dictionary, hdictionary, h⟩ := Setup.require_bind_ok h
  obtain ⟨told, h⟩ := Setup.say_if_ok h
  obtain ⟨found, -, h⟩ := Setup.require_bind_ok h
  obtain ⟨hs, -⟩ := Prod.mk.inj h
  rw [← Except.ok.inj hs]
  exact ⟨root, loaded, hroot, hloaded, hvalid, hdictionary⟩

theorem prepare_ok {fs : FileSystem} {color : Bool} {o : Command.ExtractOptions} {s : Search} {told told' : String}
    (h : (prepare e fs color o).run.run told = (.ok s, told')) :
    ∃ root loaded, fs.canonical o.dir = .ok root ∧ Config.load fs root = .ok loaded ∧
      (Exclusion.Dictionary.builtIn e).appendFiles e fs
        (dictionaryPaths (loaded.baseDir?.getD root) (loaded.config.override o) o) = .ok s.dictionary := by
  obtain ⟨root, loaded, hroot, hloaded, -, hdictionary⟩ := prepare_steps h
  exact ⟨root, loaded, hroot, hloaded, hdictionary⟩

theorem prepare_of_ok {fs : FileSystem} {o : Command.ExtractOptions} {root : Path} {loaded : Config.Loaded}
    {dictionary : Exclusion.Dictionary} (hroot : fs.canonical o.dir = .ok root)
    (hloaded : Config.load fs root = .ok loaded) (hvalid : (loaded.config.override o).validate = .ok ())
    (hdictionary : (Exclusion.Dictionary.builtIn e).appendFiles e fs
      (dictionaryPaths (loaded.baseDir?.getD root) (loaded.config.override o) o) = .ok dictionary)
    (color : Bool) (told : String) :
    ∃ s told', (prepare e fs color o).run.run told = (.ok s, told') := by
  obtain ⟨parsed, hparsed⟩ := Config.validate_pattern hvalid
  obtain ⟨found, hfound⟩ : ∃ found, Discovery.scan fs color o.verbose root (loaded.config.override o).pattern
      (loaded.config.override o).ignores = .ok found := Discovery.scan_ok hparsed
  rw [prepare]
  simp only [hroot, hloaded, hvalid, hdictionary, hfound, Setup.require, pure_bind]
  split_ifs <;> exact ⟨_, _, rfl⟩

theorem prepare_last_line_decides {fs : FileSystem} {color : Bool} {o : Command.ExtractOptions} {s : Search}
    {told told' : String} (h : (prepare e fs color o).run.run told = (.ok s, told')) :
    (∃ root loaded base configured given,
      fs.canonical o.dir = .ok root ∧ Config.load fs root = .ok loaded ∧
      (∀ file, loaded.path = some file → file.parent? = some base) ∧ (loaded.path = none → base = root) ∧
      List.Forall₂ (fun d text => fs.readText (base.join ⟨d⟩) = .ok text) loaded.config.exclusionDicts configured ∧
      List.Forall₂ (fun p text => fs.readText p = .ok text) o.exclusionDicts given ∧
      ∀ text, s.dictionary.excludes text = true ↔ ∃ r, r.negated = false ∧ Exclusion.Decides e
        (Exclusion.Dictionary.builtInLines.map String.toList ++
          (configured ++ given).flatMap fun source => source.splitOn '\n') text r) ∧
    ∀ (d : Exclusion.Dictionary) (a b : List Char), (d.append e a).append e b = d.append e (a ++ '\n' :: b) := by
  refine ⟨?_, fun d a b => d.append_append a b⟩
  obtain ⟨root, loaded, hroot, hloaded, hdictionary⟩ := prepare_ok h
  obtain ⟨texts, htexts, hrules⟩ := Exclusion.Dictionary.appendFiles_ok hdictionary
  have hlines : s.dictionary = ⟨(Exclusion.Dictionary.builtInLines.map String.toList ++
      texts.flatMap fun source => source.splitOn '\n').filterMap (Exclusion.Rule.parse? e)⟩ := by
    rw [List.filterMap_append, List.filterMap_map]
    exact congrArg Exclusion.Dictionary.mk hrules
  let base := loaded.baseDir?.getD root
  have hpaths : dictionaryPaths base (loaded.config.override o) o =
      (loaded.config.exclusionDicts.map fun d => base.join ⟨d⟩) ++ o.exclusionDicts := rfl
  let count := loaded.config.exclusionDicts.length
  have hcount : (loaded.config.exclusionDicts.map fun d => base.join ⟨d⟩).length = count := List.length_map _
  rw [hpaths] at htexts
  refine ⟨root, loaded, base, texts.take count, texts.drop count, hroot, hloaded, ?_, ?_, ?_, ?_, ?_⟩
  · intro file hfile
    obtain ⟨above, hparent, habove⟩ := Config.load_baseDir? hloaded hfile
    simp only [base, hparent, habove, Option.getD_some]
  · intro hnone
    simp only [base, Config.Loaded.baseDir?, hnone]
    rfl
  · have hconfigured := List.forall₂_take count htexts
    rwa [List.take_left' hcount, List.forall₂_map_left_iff] at hconfigured
  · have hgiven := List.forall₂_drop count htexts
    rwa [List.drop_left' hcount] at hgiven
  · intro text
    rw [List.take_append_drop, hlines, Exclusion.excludes_iff]
    exact exists_congr fun r => and_comm

def layered : FileSystem := ⟨.directory [(".i18nrc.json", .file (.ok (utf8 "\x7b\"exclusionDicts\":[\"d.txt\"]\x7d".toList))),
  ("d.txt", .file (.ok (utf8 "Hello\n".toList))), ("e.txt", .file (.ok (utf8 "!Hello\r\n".toList)))], []⟩

theorem layered_canonical : layered.canonical ⟨"."⟩ = .ok ⟨"/"⟩ := by
  have hsteps : FileSystem.steps ⟨"."⟩ = ["."] := by decide
  have hrelative : Path.isAbsolute ⟨"."⟩ = false := by decide
  have hfollow : layered.follow true ⟨"."⟩ = .ok [] := by
    simp [FileSystem.follow, hsteps, hrelative, FileSystem.walk, layered, Entry.get?]
  simp only [FileSystem.canonical, hfollow]
  rfl

theorem layered_load : Config.load layered ⟨"/"⟩ =
    .ok ⟨{ Config.default with exclusionDicts := ["d.txt"] }, some ⟨"/.i18nrc.json"⟩⟩ := by
  have hread : layered.readText ⟨"/.i18nrc.json"⟩ = .ok "\x7b\"exclusionDicts\":[\"d.txt\"]\x7d".toList :=
    FileSystem.readText_beside ".i18nrc.json" (by decide) (by decide) (by decide) (by decide) rfl
  have hparse : Config.parse (utf8 "\x7b\"exclusionDicts\":[\"d.txt\"]\x7d".toList) =
    .ok { Config.default with exclusionDicts := ["d.txt"] } := by decide
  have hvalid : ({ Config.default with exclusionDicts := ["d.txt"] } : Config).validate = .ok () := by decide +kernel
  have hexists := FileSystem.doesExist_of_readText hread
  have hfile : Path.join ⟨"/"⟩ ⟨".i18nrc.json"⟩ = ⟨"/.i18nrc.json"⟩ := by decide
  have hfind : Config.find? layered ⟨"/"⟩ = some ⟨"/.i18nrc.json"⟩ := by
    simp only [Config.find?, Config.findFrom, Config.fileName, hfile, hexists, if_true]
  simp only [Config.load, hfind, Config.loadFile, hread, hparse, hvalid]

theorem layered_base : Path.parent? ⟨"/.i18nrc.json"⟩ = some ⟨"/"⟩ := by decide

theorem layered_configured : layered.readText (Path.join ⟨"/"⟩ ⟨"d.txt"⟩) = .ok "Hello\n".toList := by
  have hjoin : Path.join ⟨"/"⟩ ⟨"d.txt"⟩ = ⟨"/d.txt"⟩ := by decide
  rw [hjoin]
  exact FileSystem.readText_beside "d.txt" (by decide) (by decide) (by decide) (by decide) rfl

theorem layered_given : layered.readText ⟨"e.txt"⟩ = .ok "!Hello\r\n".toList :=
  FileSystem.readText_beside "e.txt" (by decide) (by decide) (by decide) (by decide) rfl

theorem prepare_last_line_decides_layered :
    ∃ s told, (prepare .own layered false { exclusionDicts := [⟨"e.txt"⟩] }).run.run "" = (.ok s, told) ∧
      ∀ text, s.dictionary.excludes text = true ↔ ∃ r, r.negated = false ∧ Exclusion.Decides .own
        (Exclusion.Dictionary.builtInLines.map String.toList ++ ["Hello".toList, [], "!Hello\r".toList, []]) text r := by
  let o : Command.ExtractOptions := { exclusionDicts := [⟨"e.txt"⟩] }
  let loaded : Config.Loaded := ⟨{ Config.default with exclusionDicts := ["d.txt"] }, some ⟨"/.i18nrc.json"⟩⟩
  have hvalid : (loaded.config.override o).validate = .ok () := by decide +kernel
  have hpaths : dictionaryPaths (loaded.baseDir?.getD ⟨"/"⟩) (loaded.config.override o) o =
      [Path.join ⟨"/"⟩ ⟨"d.txt"⟩, ⟨"e.txt"⟩] := by
    have hbase : loaded.baseDir? = some ⟨"/"⟩ := layered_base
    rw [hbase]
    rfl
  have hdictionary : ∃ d, (Exclusion.Dictionary.builtIn .own).appendFiles .own layered
      (dictionaryPaths (loaded.baseDir?.getD ⟨"/"⟩) (loaded.config.override o) o) = .ok d := by
    simp only [hpaths, Exclusion.Dictionary.appendFiles, layered_configured, layered_given]
    exact ⟨_, rfl⟩
  obtain ⟨d, hd⟩ := hdictionary
  obtain ⟨s, told, hrun⟩ := prepare_of_ok layered_canonical layered_load hvalid hd false ""
  refine ⟨s, told, hrun, ?_⟩
  obtain ⟨⟨root, loaded, base, configured, given, hroot, hloaded, hbase, -, hconfigured, hgiven, hexcludes⟩, -⟩ :=
    prepare_last_line_decides hrun
  obtain rfl := Except.ok.inj (layered_canonical.symm.trans hroot)
  obtain rfl := Except.ok.inj (layered_load.symm.trans hloaded)
  obtain rfl := Option.some.inj (layered_base.symm.trans (hbase _ rfl))
  obtain ⟨⟩ | ⟨hread, ⟨⟩⟩ := hconfigured
  obtain rfl := Except.ok.inj (layered_configured.symm.trans hread)
  obtain ⟨⟩ | ⟨hread, ⟨⟩⟩ := hgiven
  obtain rfl := Except.ok.inj (layered_given.symm.trans hread)
  exact hexcludes

end Search

end VisibleText
