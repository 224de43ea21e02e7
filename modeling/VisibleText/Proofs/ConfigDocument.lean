import Mathlib.Data.List.ReduceOption
import VisibleText.Config
import VisibleText.Proofs.JsonPassing

/-!
Configurations and the documents that hold them. A document may give the members of a configuration in any order and
leave out some of them, and may have members with other names between them. What it gives is read as it is written, and
what it leaves out is as in the default configuration.
-/
namespace VisibleText.Config

open Json Json.Reader

def member (c : Config) : Key → Value
  | .pattern => .string c.pattern
  | .ignores => .array (c.ignores.map .string)
  | .exclusionDicts => .array (c.exclusionDicts.map .string)
  | .checkedAttributes => .array (c.checkedAttributes.map .string)
  | .minBytes => .number c.minBytes
  | .contextLines => .number c.contextLines
  | .splitThreshold => match c.splitThreshold with
    | some n => .number n
    | none => .null
  | .scanTemplates => .bool c.scanTemplates
  | .scanScripts => .bool c.scanScripts

theorem toJson_eq (c : Config) : c.toJson = .object (Key.all.map fun k => (k.name, c.member k)) := rfl

structure Fits (c : Config) : Prop where
  minBytes : c.minBytes ≤ maxNatural
  contextLines : c.contextLines ≤ maxNatural
  splitThreshold : ∀ n ∈ c.splitThreshold, n ≤ maxNatural

/-- The configuration that has the given members of `c` and the others of `d`. -/
def merge (c d : Config) (keys : List Key) : Config where
  pattern := if .pattern ∈ keys then c.pattern else d.pattern
  ignores := if .ignores ∈ keys then c.ignores else d.ignores
  exclusionDicts := if .exclusionDicts ∈ keys then c.exclusionDicts else d.exclusionDicts
  checkedAttributes := if .checkedAttributes ∈ keys then c.checkedAttributes else d.checkedAttributes
  minBytes := if .minBytes ∈ keys then c.minBytes else d.minBytes
  contextLines := if .contextLines ∈ keys then c.contextLines else d.contextLines
  splitThreshold := if .splitThreshold ∈ keys then c.splitThreshold else d.splitThreshold
  scanTemplates := if .scanTemplates ∈ keys then c.scanTemplates else d.scanTemplates
  scanScripts := if .scanScripts ∈ keys then c.scanScripts else d.scanScripts

inductive IsMember (c : Config) : Option Key → List Char → Prop
  | known {k : Key} {name between behind value : List Char} (hname : SpellsString k.name name) (hbetween : IsBlank between)
      (hbehind : IsBlank behind) (hvalue : Spells (c.member k) value) :
      IsMember c (some k) (name ++ between ++ ':' :: (behind ++ value))
  | other {s : String} {name between behind value : List Char} (hs : ∀ k : Key, k.name ≠ s) (hname : SpellsString s name)
      (hbetween : IsBlank between) (hbehind : IsBlank behind) (hvalue : IsValue value) :
      IsMember c none (name ++ between ++ ':' :: (behind ++ value))

/-- The documents that give the listed members of the configuration, in that order. -/
inductive Describes (c : Config) : List Key → List Char → Prop
  | empty {front blank back : List Char} (hfront : IsBlank front) (hblank : IsBlank blank) (hback : IsBlank back) :
      Describes c [] (front ++ '\x7b' :: blank ++ ['\x7d'] ++ back)
  | members {front inner back : List Char} {members : List (Option Key)} (hfront : IsBlank front)
      (h : Listed (IsMember c) members inner) (hback : IsBlank back) :
      Describes c members.reduceOption (front ++ '\x7b' :: inner ++ ['\x7d'] ++ back)

theorem merge_all (c d : Config) : c.merge d Key.all = c := rfl

theorem merge_merge (c d : Config) (ks ls : List Key) : c.merge (c.merge d ks) ls = c.merge d (ks ++ ls) := by
  have hfield : ∀ {α : Type} (k : Key) (x y : α),
      (if k ∈ ls then x else if k ∈ ks then x else y) = if k ∈ ks ++ ls then x else y := by
    intro α k x y
    by_cases hks : k ∈ ks <;> by_cases hls : k ∈ ls <;> simp [hks, hls]
  simp only [merge, hfield]

variable {c : Config} {s rest : Bytes}

theorem reads_threshold (hc : c.Fits) {text : List Char} (h : Spells (c.member .splitThreshold) text) (hs : AreSpaces s)
    (hrest : Breaks rest) : Reads (readOption readNat) (s ++ utf8 text) c.splitThreshold rest := by
  rw [member] at h
  cases hthreshold : c.splitThreshold with
  | none =>
    rw [hthreshold] at h
    cases h with
    | null => exact reads_readOption_none hs rest
  | some n =>
    rw [hthreshold] at h
    cases h with
    | number =>
      obtain ⟨b, ds, htext, hb, -⟩ := utf8_toString n
      have hnat := reads_readNat areSpaces_nil (hc.splitThreshold n hthreshold) hrest
      rw [List.nil_append, htext] at hnat
      rw [htext]
      refine reads_readOption_some hs (isSpace_of_isDigit hb) ?_ hnat
      rintro rfl
      exact absurd hb (by decide)

theorem reads_readMember (hc : c.Fits) (d : Config) {k : Key} {text : List Char} (h : Spells (c.member k) text)
    (hs : AreSpaces s) (hrest : Breaks rest) : Reads (readMember d k) (s ++ utf8 text) (c.merge d [k]) rest := by
  cases k with
  | pattern =>
    cases h with
    | string h => exact Reads.after (reads_readString hs h rest) (Reads.pure _ rest)
  | ignores => exact Reads.after (reads_readStrings hs h rest) (Reads.pure _ rest)
  | exclusionDicts => exact Reads.after (reads_readStrings hs h rest) (Reads.pure _ rest)
  | checkedAttributes => exact Reads.after (reads_readStrings hs h rest) (Reads.pure _ rest)
  | minBytes =>
    cases h with
    | number => exact Reads.after (reads_readNat hs hc.minBytes hrest) (Reads.pure _ rest)
  | contextLines =>
    cases h with
    | number => exact Reads.after (reads_readNat hs hc.contextLines hrest) (Reads.pure _ rest)
  | splitThreshold => exact Reads.after (reads_threshold hc h hs hrest) (Reads.pure _ rest)
  | scanTemplates =>
    cases h with
    | bool => exact Reads.after (reads_readBool hs c.scanTemplates rest) (Reads.pure _ rest)
  | scanScripts =>
    cases h with
    | bool => exact Reads.after (reads_readBool hs c.scanScripts rest) (Reads.pure _ rest)

theorem reads_readMembers_next (hc : c.Fits) {m : Option Key} {text : List Char} (h : IsMember c m text) {seen : List Key}
    (hseen : ∀ k ∈ m, k ∉ seen) {before tail : Bytes} (hs : AreSpaces s) (hbefore : AreSpaces before)
    (hbreaks : Breaks (tail ++ rest)) {fuel : ℕ} {d result : Config} (fresh : Bool)
    (htail : Reads (readMembers fuel false (m.toList ++ seen) (c.merge d m.toList)) tail result rest) :
    Reads (readMembers (fuel + 1) fresh seen d) ((if fresh then [] else s ++ [byte ',']) ++ (before ++ (utf8 text ++ tail)))
      result rest := by
  have htext : ∀ name between behind value : List Char, ∀ body : Bytes, utf8 name = byte '"' :: (body ++ [byte '"']) →
      (if fresh then [] else s ++ [byte ',']) ++ (before ++ (utf8 (name ++ between ++ ':' :: (behind ++ value)) ++ tail)) =
        ((if fresh then [] else s ++ [byte ',']) ++ before ++ byte '"' :: (body ++ [byte '"'])) ++
          ((utf8 between ++ [byte ':']) ++ ((utf8 behind ++ utf8 value) ++ tail)) := by
    intro name between behind value body hname
    rw [utf8_append, utf8_append, hname, utf8_cons_ascii (by decide), utf8_append]
    simp only [List.append_assoc, List.cons_append, List.nil_append]
  rw [readMembers]
  cases h with
  | @known k name between behind value hname hbetween hbehind hvalue =>
    obtain ⟨body, hbody, hstands⟩ := stands_spelledString hname
    rw [htext _ _ _ _ _ hbody]
    refine Reads.bind (hstands.reads_nextKey hs hbefore fresh _) ?_
    have hkey : Key.ofName? k.name = some k := by cases k <;> decide
    have hfirst : seen.contains k = false := by simpa using hseen k rfl
    simp only [hkey, hfirst, if_false, Bool.false_eq_true]
    refine Reads.bind (reads_colon (areSpaces_utf8 hbetween) _) ?_
    exact Reads.bind (reads_readMember hc d hvalue (areSpaces_utf8 hbehind) hbreaks) htail
  | @other x name between behind value hx hname hbetween hbehind hvalue =>
    obtain ⟨body, hbody, hstands⟩ := stands_spelledString hname
    rw [htext _ _ _ _ _ hbody]
    refine Reads.bind (hstands.reads_nextKey hs hbefore fresh _) ?_
    have hkey : Key.ofName? x = none := by
      rw [Key.ofName?, List.find?_eq_none]
      intro k _
      simpa using hx k
    simp only [hkey]
    refine Reads.bind (reads_colon (areSpaces_utf8 hbetween) _) ?_
    exact Reads.bind (reads_pass hvalue (areSpaces_utf8 hbehind) hbreaks) htail

theorem reads_readMembers_end (hs : AreSpaces s) (fuel : ℕ) (fresh : Bool) (seen : List Key) (d : Config) (rest : Bytes) :
    Reads (readMembers (fuel + 1) fresh seen d) (s ++ [byte '\x7d']) d rest := by
  rw [readMembers]
  refine Reads.bind (reads_nextKey_end hs fresh rest) ?_
  exact Reads.after (reads_one (byte '\x7d') rest) (Reads.pure d rest)

theorem reduceOption_cons (m : Option Key) (ms : List (Option Key)) :
    (m :: ms).reduceOption = m.toList ++ ms.reduceOption := by cases m <;> rfl

theorem not_mem_of_nodup {m : Option Key} {keys seen : List Key} (h : (m.toList ++ keys ++ seen).Nodup) :
    ∀ k ∈ m, k ∉ seen := by
  rintro k rfl hmem
  exact (List.nodup_cons.mp h).1 (List.mem_append_right keys hmem)

theorem reads_readMembers (hc : c.Fits) {ms : List (Option Key)} {text : List Char} (h : Listed (IsMember c) ms text)
    {seen : List Key} (hnodup : (ms.reduceOption ++ seen).Nodup) (d : Config) (hs : AreSpaces s) (fresh : Bool) {fuel : ℕ}
    (hfuel : ms.length < fuel) (rest : Bytes) :
    Reads (readMembers fuel fresh seen d) ((if fresh then [] else s ++ [byte ',']) ++ (utf8 text ++ [byte '\x7d']))
      (c.merge d ms.reduceOption) rest := by
  -- the members read so far are those of `seen`, and `d` is what they have made of the default
  induction h generalizing seen d fresh fuel s with
  | @last m before text after hbefore h hafter =>
    obtain ⟨fuel, rfl⟩ : ∃ k, fuel = k + 2 := ⟨fuel - 2, by simp only [List.length_singleton] at hfuel; omega⟩
    have hend := reads_readMembers_end (areSpaces_utf8 hafter) fuel false (m.toList ++ seen) (c.merge d m.toList) rest
    rw [reduceOption_cons, List.reduceOption_nil] at hnodup ⊢
    rw [List.append_nil m.toList]
    simp only [utf8_append, List.append_assoc]
    refine reads_readMembers_next hc h (not_mem_of_nodup hnodup) hs (areSpaces_utf8 hbefore) ?_ fresh hend
    rw [List.append_assoc]
    exact breaks_spaces (areSpaces_utf8 hafter) (by decide) rest
  | @more m ms before text after more hbefore h hafter hmore ih =>
    obtain ⟨fuel, rfl⟩ : ∃ k, fuel = k + 1 := ⟨fuel - 1, by omega⟩
    rw [reduceOption_cons] at hnodup ⊢
    have hrest : (ms.reduceOption ++ (m.toList ++ seen)).Nodup := by
      refine hnodup.perm ?_
      rw [← List.append_assoc]
      exact List.perm_append_comm.append_right seen
    have htail := ih hrest (c.merge d m.toList) (areSpaces_utf8 hafter) false (Nat.lt_of_succ_lt_succ hfuel)
    rw [merge_merge] at htail
    rw [utf8_comma]
    simp only [List.append_assoc, if_false, Bool.false_eq_true] at htail ⊢
    refine reads_readMembers_next hc h (not_mem_of_nodup hnodup) hs (areSpaces_utf8 hbefore) ?_ fresh htail
    rw [List.append_assoc]
    exact breaks_spaces (areSpaces_utf8 hafter) (by decide) _

theorem reads_reader {inner back : Bytes} {d : Config} (hs : AreSpaces s) (hback : AreSpaces back)
    (h : Reads (readMembers ((inner ++ back).length + 1) true [] default) inner d back) :
    Reads reader (s ++ (byte '\x7b' :: (inner ++ back))) d [] := by
  rw [reader]
  refine Reads.bind (reads_first hs (by decide)) ?_
  refine Reads.bind (s := [byte '\x7b']) (reads_one (byte '\x7b') _) ?_
  apply Reads.get
  intro offset
  rw [List.append_nil]
  refine Reads.bind (by rwa [List.append_nil]) ?_
  exact Reads.after (reads_finish hback) (Reads.pure d [])

theorem parse_of_reads {document : Bytes} {d : Config} (h : Reads reader document d []) : parse document = .ok d := by
  obtain ⟨offset, hrun⟩ := h 0
  rw [List.append_nil] at hrun
  rw [parse, hrun]

theorem utf8_document (front inner back : List Char) : utf8 (front ++ '\x7b' :: inner ++ ['\x7d'] ++ back) =
    utf8 front ++ (byte '\x7b' :: ((utf8 inner ++ [byte '\x7d']) ++ utf8 back)) := by
  rw [utf8_append, List.append_assoc, utf8_append, utf8_brackets '\x7b' '\x7d' (by decide) (by decide), List.append_assoc]
  rfl

theorem parse_describes (hc : c.Fits) {keys : List Key} {document : List Char} (h : Describes c keys document)
    (hkeys : keys.Nodup) : parse (utf8 document) = .ok (c.merge default keys) := by
  apply parse_of_reads
  cases h with
  | @empty front blank back hfront hblank hback =>
    rw [utf8_document]
    apply reads_reader (areSpaces_utf8 hfront) (areSpaces_utf8 hback)
    exact reads_readMembers_end (areSpaces_utf8 hblank) _ true [] default _
  | @members front inner back ms hfront h hback =>
    rw [utf8_document]
    apply reads_reader (areSpaces_utf8 hfront) (areSpaces_utf8 hback)
    refine reads_readMembers hc h ?_ default areSpaces_nil true ?_ _
    · rwa [List.append_nil]
    · have hlength := length_le_of_listed h
      simp only [List.length_append, List.length_singleton]
      omega

theorem spells_member (c : Config) (k : Key) (level : ℕ) : Spells (c.member k) ((c.member k).renderAt level) := by
  cases k with
  | pattern =>
    rw [member, Value.renderAt]
    exact .string (spellsString_quote c.pattern)
  | ignores => exact spells_strings c.ignores level
  | exclusionDicts => exact spells_strings c.exclusionDicts level
  | checkedAttributes => exact spells_strings c.checkedAttributes level
  | minBytes =>
    rw [member, Value.renderAt]
    exact .number c.minBytes
  | contextLines =>
    rw [member, Value.renderAt]
    exact .number c.contextLines
  | splitThreshold =>
    rw [member]
    cases c.splitThreshold with
    | none =>
      rw [Value.renderAt]
      exact .null
    | some n =>
      rw [Value.renderAt]
      exact .number n
  | scanTemplates =>
    rw [member, Value.renderAt]
    exact .bool c.scanTemplates
  | scanScripts =>
    rw [member, Value.renderAt]
    exact .bool c.scanScripts

theorem listed_renderMembers (c : Config) (level : ℕ) (k : Key) (ks : List Key) {after : List Char} (hafter : IsBlank after) :
    Listed (IsMember c) ((k :: ks).map some) (newLine level ++ quote k.name ++ [':', ' '] ++ (c.member k).renderAt level ++
      renderMembers level (ks.map fun k => (k.name, c.member k)) ++ after) := by
  have hspace : IsBlank [' '] := by simp [IsBlank]
  induction ks generalizing k with
  | nil =>
    have hmember := IsMember.known (spellsString_quote k.name) isBlank_nil hspace (spells_member c k level)
    have hlast := Listed.last (isBlank_newLine level) hmember hafter
    rw [List.map_nil, renderMembers]
    simpa using hlast
  | cons l ks ih =>
    have hmember := IsMember.known (spellsString_quote k.name) isBlank_nil hspace (spells_member c k level)
    have hmore := Listed.more (isBlank_newLine level) hmember isBlank_nil (ih l)
    rw [List.map_cons (l := ks), renderMembers]
    simpa using hmore

theorem describes_render (c : Config) : Describes c Key.all c.toJson.render.toList := by
  have hlisted := listed_renderMembers c 1 .pattern Key.all.tail (isBlank_newLine 0)
  have hdescribes := Describes.members isBlank_nil hlisted isBlank_nil
  rw [toJson_eq, Value.render, String.toList_ofList]
  simpa [Key.all, Value.renderAt] using hdescribes

/-- Reading inverts writing. More than that, a document may give any of the members of a configuration in any order, write
them in any way, and have other members between them: it is read as the configuration that has these members, with default
values for the others. -/
theorem parse_fills_gaps (c : Config) (hc : c.Fits) :
    parse (utf8 c.toJson.render.toList) = .ok c ∧
      ∀ keys document, keys.Nodup → Describes c keys document → parse (utf8 document) = .ok (c.merge default keys) := by
  have hall : Key.all.Nodup := by decide
  have hrender := parse_describes hc (describes_render c) hall
  rw [merge_all] at hrender
  exact ⟨hrender, fun keys document hkeys h => parse_describes hc h hkeys⟩

def accentPattern : Config := { default with pattern := "é", minBytes := 9 }

def accentDocument : List Char := "\x7b \"other\": [\x7b\x7d],\"pattern\" :\"\\u00e9\"\x7d\n".toList

theorem parse_fills_gaps_accent : accentPattern.Fits ∧ Describes accentPattern [.pattern] accentDocument ∧
    parse (utf8 accentPattern.toJson.render.toList) = .ok accentPattern ∧
    parse (utf8 accentDocument) = .ok { default with pattern := "é" } := by
  have hfits : accentPattern.Fits := ⟨by decide, by decide, nofun⟩
  have hspace : IsBlank [' '] := by simp [IsBlank]
  have hnested : IsValue "[\x7b\x7d]".toList := .array (.last isBlank_nil (.noMembers isBlank_nil) isBlank_nil)
  have hother : IsMember accentPattern none "\"other\": [\x7b\x7d]".toList :=
    .other (fun k => by cases k <;> decide) (spellsString_quote "other") isBlank_nil hspace hnested
  have hcode : SpellsCode 'é'.toNat "00e9".toList := ⟨rfl, by simp [IsHex], by decide⟩
  have hquoted : SpellsString "é" "\"\\u00e9\"".toList := SpellsString.quoted (s := "é") (.cons (.code hcode) .nil)
  have hpattern : IsMember accentPattern (some .pattern) "\"pattern\" :\"\\u00e9\"".toList :=
    .known (spellsString_quote Key.pattern.name) hspace isBlank_nil (.string hquoted)
  have hback : IsBlank ['\n'] := by simp [IsBlank]
  have hdescribes : Describes accentPattern [.pattern] accentDocument :=
    .members isBlank_nil (.more hspace hother isBlank_nil (.last isBlank_nil hpattern isBlank_nil)) hback
  obtain ⟨hrender, hdocuments⟩ := parse_fills_gaps accentPattern hfits
  exact ⟨hfits, hdescribes, hrender, hdocuments _ _ (by decide) hdescribes⟩

end VisibleText.Config
