import Mathlib.Data.List.TakeWhile
import VisibleText.Proofs.Windows

/-!
Where a signature occurs. The search goes from left to right and takes each occurrence away as a whole, so it passes
over an occurrence that begins inside the one before. What it says about the end of a window is nevertheless what all
occurrences together say: the only one it can pass over is a call right behind the parenthesis of another, and while
the inner call is open the outer one is too.
-/
namespace VisibleText.Code

inductive Name.Spells : Name → List Char → Prop
  | oneOf {names : List String} {n : String} (hn : n ∈ names) : Spells (.oneOf names) n.toList
  | stem {s : String} {more : List Char} (hmore : more ≠ []) (hchars : ∀ c ∈ more, isStemChar c = true) :
    Spells (.stem s) (s.toList ++ more)

inductive Name.Calls (name : Name) : List Char → Prop
  | intro {word blanks : List Char} (hword : name.Spells word) (hblanks : ∀ c ∈ blanks, isBlank c = true) :
    Calls name (word ++ (blanks ++ ['(']))

inductive Shape.Occurs : Shape → Option Char → List Char → Prop
  | anywhere {name : Name} {before : Option Char} {call : List Char} (hcall : name.Calls call) :
    Occurs (.call .anywhere name) before call
  | boundary {name : Name} {before : Option Char} {call : List Char} (hcall : name.Calls call)
    (hbefore : Unicode.atWordBoundary before call.head? = true) : Occurs (.call .boundary name) before call
  | start {name : Name} {call : List Char} (hcall : name.Calls call) : Occurs (.call .free name) none call
  | free {name : Name} {before : Option Char} {c : Char} {call : List Char} (hc : freesName c = true)
    (hcall : name.Calls call) : Occurs (.call .free name) before (c :: call)
  | member {name : Name} {before : Option Char} {mark blanks call : List Char}
    (hmark : mark = ['-', '>'] ∨ mark = [':', ':']) (hblanks : ∀ c ∈ blanks, isBlank c = true)
    (hcall : name.Calls call) : Occurs (.call .member name) before (mark ++ (blanks ++ call))
  | statement {keywords : List String} {before : Option Char} {k : String} {c : Char} (hk : k ∈ keywords)
    (hc : isBlank c = true) (hbefore : Unicode.atWordBoundary before (k.toList ++ [c]).head? = true) :
    Occurs (.statement keywords) before (k.toList ++ [c])

theorem Name.Calls.ne_nil {name : Name} {call : List Char} (h : name.Calls call) : call ≠ [] := by
  obtain ⟨-, -⟩ := h
  simp

theorem Shape.Occurs.ne_nil {shape : Shape} {before : Option Char} {text : List Char} (h : shape.Occurs before text) :
    text ≠ [] := by
  cases h with
  | anywhere hcall => exact hcall.ne_nil
  | boundary hcall _ => exact hcall.ne_nil
  | start hcall => exact hcall.ne_nil
  | free _ _ => simp
  | member _ _ hcall => simp [hcall.ne_nil]
  | statement _ _ _ => simp

theorem eq_of_after? {word cs rest : List Char} (h : after? word cs = some rest) : cs = word ++ rest := by
  simp only [after?] at h
  split_ifs at h with hprefix
  obtain ⟨more, rfl⟩ := List.isPrefixOf_iff_prefix.mp hprefix
  rw [List.drop_left] at h
  rw [Option.some.inj h]

@[simp]
theorem after?_append (word rest : List Char) : after? word (word ++ rest) = some rest := by
  rw [after?, if_pos (List.isPrefixOf_iff_prefix.mpr (List.prefix_append word rest)), List.drop_left]

theorem eq_of_afterOpening? {cs rest : List Char} (h : afterOpening? cs = some rest) :
    ∃ blanks, cs = blanks ++ (['('] ++ rest) ∧ ∀ c ∈ blanks, isBlank c = true := by
  refine ⟨cs.takeWhile isBlank, ?_, fun c hc => List.mem_takeWhile_imp hc⟩
  rw [← eq_of_after? h]
  exact (List.takeWhile_append_dropWhile).symm

theorem Name.calls_of_callAt? {name : Name} {cs rest : List Char} (h : name.callAt? cs = some rest) :
    ∃ call, cs = call ++ rest ∧ name.Calls call := by
  cases name with
  | oneOf names =>
    obtain ⟨n, hn, hcall⟩ := List.exists_of_findSome?_eq_some h
    obtain ⟨r, hr, hopening⟩ := Option.bind_eq_some_iff.mp hcall
    obtain ⟨blanks, rfl, hblanks⟩ := eq_of_afterOpening? hopening
    exact ⟨_, by rw [eq_of_after? hr]; simp only [List.append_assoc], .intro (.oneOf hn) hblanks⟩
  | stem s =>
    obtain ⟨r, hr, hopening⟩ := Option.bind_eq_some_iff.mp h
    simp only [] at hopening
    split_ifs at hopening with hshorter
    obtain ⟨blanks, hmore, hblanks⟩ := eq_of_afterOpening? hopening
    have hsplit : r = r.takeWhile isStemChar ++ r.dropWhile isStemChar := (List.takeWhile_append_dropWhile).symm
    have hne : r.takeWhile isStemChar ≠ [] := by
      intro hnil
      rw [hnil, List.nil_append] at hsplit
      rw [← hsplit] at hshorter
      omega
    refine ⟨_, ?_, .intro (.stem hne fun c hc => List.mem_takeWhile_imp hc) hblanks⟩
    calc cs = s.toList ++ (r.takeWhile isStemChar ++ r.dropWhile isStemChar) := by rw [← hsplit, ← eq_of_after? hr]
      _ = _ := by rw [hmore]; simp only [List.append_assoc]

theorem Shape.occurs_of_occursAt? {shape : Shape} {before : Option Char} {cs rest : List Char}
    (h : shape.occursAt? before cs = some rest) : ∃ text, cs = text ++ rest ∧ shape.Occurs before text := by
  cases shape with
  | call lead name =>
    cases lead with
    | anywhere =>
      obtain ⟨call, rfl, hcall⟩ := Name.calls_of_callAt? h
      exact ⟨call, rfl, .anywhere hcall⟩
    | boundary =>
      simp only [occursAt?, Lead.callAt?] at h
      split_ifs at h with hbefore
      obtain ⟨call, rfl, hcall⟩ := Name.calls_of_callAt? h
      rw [List.head?_append_of_ne_nil _ hcall.ne_nil] at hbefore
      exact ⟨call, rfl, .boundary hcall hbefore⟩
    | free =>
      simp only [occursAt?, Lead.callAt?] at h
      rcases (Option.orElse_eq_some _ _ _).mp h with hhere | ⟨-, hnext⟩
      · split_ifs at hhere with hbefore
        obtain rfl := Option.isNone_iff_eq_none.mp hbefore
        obtain ⟨call, rfl, hcall⟩ := Name.calls_of_callAt? hhere
        exact ⟨call, rfl, .start hcall⟩
      · cases cs with
        | nil => cases hnext
        | cons c cs =>
          simp only [] at hnext
          split_ifs at hnext with hc
          obtain ⟨call, rfl, hcall⟩ := Name.calls_of_callAt? hnext
          exact ⟨c :: call, rfl, .free hc hcall⟩
    | member =>
      obtain ⟨r, hr, hcall⟩ := Option.bind_eq_some_iff.mp h
      obtain ⟨call, htrim, hcall⟩ := Name.calls_of_callAt? hcall
      obtain ⟨mark, hmark, rfl⟩ : ∃ mark, (mark = ['-', '>'] ∨ mark = [':', ':']) ∧ cs = mark ++ r := by
        rcases (Option.orElse_eq_some _ _ _).mp hr with harrow | ⟨-, hcolons⟩
        · exact ⟨_, .inl rfl, eq_of_after? harrow⟩
        · exact ⟨_, .inr rfl, eq_of_after? hcolons⟩
      refine ⟨_, ?_, .member hmark (fun c hc => List.mem_takeWhile_imp (l := r) hc) hcall⟩
      rw [List.append_assoc, List.append_assoc, ← htrim]
      exact congrArg (mark ++ ·) (List.takeWhile_append_dropWhile).symm
  | statement keywords =>
    simp only [occursAt?, keywordAt?] at h
    split_ifs at h with hbefore
    obtain ⟨k, hk, hkey⟩ := List.exists_of_findSome?_eq_some h
    obtain ⟨r, hr, hblank⟩ := Option.bind_eq_some_iff.mp hkey
    cases r with
    | nil => cases hblank
    | cons c more =>
      simp only [] at hblank
      split_ifs at hblank with hc
      obtain rfl := Option.some.inj hblank
      have hcs : cs = (k.toList ++ [c]) ++ more := by rw [eq_of_after? hr]; simp
      rw [hcs, List.head?_append_of_ne_nil _ (by simp)] at hbefore
      exact ⟨_, hcs, .statement hk hc hbefore⟩

def isNameChar (c : Char) : Bool := !isBlank c && c != '('

def isMemberChar (c : Char) : Bool := isNameChar c && c != '-' && c != ':'

def areWordsOf (p : Char → Bool) (words : List String) : Bool :=
  words.all fun w => !w.toList.isEmpty && w.toList.all p

def areApart (words : List String) : Bool :=
  words.all fun v => words.all fun w => w.toList.tail.all fun c => v.toList.head? != some c

def Name.isWordOf (p : Char → Bool) : Name → Bool
  | .oneOf names => areWordsOf p names
  | .stem s => s.toList.all p

/-- What keeps the occurrences of a shape from being read in two ways. -/
def Shape.isUnambiguous : Shape → Bool
  | .call .free name => name.isWordOf isStemChar
  | .call .boundary (.stem s) => s.toList.all isStemChar
  | .call .member name => name.isWordOf isMemberChar
  | .call .anywhere (.stem _) => false
  | .call _ (.oneOf names) => areWordsOf isNameChar names && areApart names
  | .statement keywords => areWordsOf isNameChar keywords && areApart keywords

theorem signatures_unambiguous : signatures.all (fun s => s.shape.isUnambiguous) = true := by decide +kernel

theorem isBlank_iff {c : Char} : isBlank c = true ↔ ∃ r ∈ blankRuns, r.1 ≤ c.toNat ∧ c.toNat ≤ r.2 := by
  simp [isBlank]

theorem toNat_of_isStemChar {c : Char} (h : isStemChar c = true) : 97 ≤ c.toNat ∧ c.toNat ≤ 122 ∨ c.toNat = 95 := by
  simp only [isStemChar, Bool.or_eq_true, Bool.and_eq_true, decide_eq_true_eq, beq_iff_eq] at h
  rcases h with ⟨hlo, hhi⟩ | rfl
  · exact .inl ⟨hlo, hhi⟩
  · exact .inr (by decide)

theorem isWord_of_isStemChar {c : Char} (h : isStemChar c = true) : Unicode.isWord c = true := by
  simp only [isStemChar, Bool.or_eq_true, Bool.and_eq_true, decide_eq_true_eq, beq_iff_eq] at h
  rcases h with ⟨hlo, hhi⟩ | rfl
  · exact Unicode.isWord_letter hlo hhi
  · exact Unicode.isWord_underscore

theorem isMemberChar_of_isStemChar {c : Char} (h : isStemChar c = true) : isMemberChar c = true := by
  have hc := toNat_of_isStemChar h
  have hblank : isBlank c = false := by
    rw [Bool.eq_false_iff, Ne, isBlank_iff]
    simp only [blankRuns, List.mem_cons, List.not_mem_nil, or_false, exists_eq_or_imp, exists_eq_left]
    omega
  have hother : ∀ d : Char, d.toNat < 95 → c ≠ d := by
    rintro d hd rfl
    omega
  simp [isMemberChar, isNameChar, hblank, hother '(' (by decide), hother '-' (by decide), hother ':' (by decide)]

theorem isNameChar_of_isMemberChar {c : Char} (h : isMemberChar c = true) : isNameChar c = true := by
  simp only [isMemberChar, Bool.and_eq_true] at h
  exact h.1.1

theorem isNameChar_of_isStemChar {c : Char} (h : isStemChar c = true) : isNameChar c = true :=
  isNameChar_of_isMemberChar (isMemberChar_of_isStemChar h)

theorem freesName_of_isStemChar {c : Char} (h : isStemChar c = true) : freesName c = false := by
  simp [freesName, isWord_of_isStemChar h]

theorem areWordsOf_iff {p : Char → Bool} {words : List String} :
    areWordsOf p words = true ↔ ∀ w ∈ words, w.toList ≠ [] ∧ ∀ c ∈ w.toList, p c = true := by
  simp [areWordsOf]

theorem Name.Spells.word {p : Char → Bool} {name : Name} {word : List Char} (hname : name.isWordOf p = true)
    (hp : ∀ c, isStemChar c = true → p c = true) (h : name.Spells word) : word ≠ [] ∧ ∀ c ∈ word, p c = true := by
  cases h with
  | oneOf hn => exact areWordsOf_iff.mp hname _ hn
  | stem hmore hchars =>
    refine ⟨by simp [hmore], fun c hc => ?_⟩
    rcases List.mem_append.mp hc with hc | hc
    · exact List.all_eq_true.mp hname c hc
    · exact hp c (hchars c hc)

theorem Name.isWordOf_mono {p q : Char → Bool} (hpq : ∀ c, p c = true → q c = true) {name : Name}
    (h : name.isWordOf p = true) : name.isWordOf q = true := by
  cases name with
  | oneOf names =>
    rw [isWordOf, areWordsOf_iff] at h ⊢
    exact fun w hw => ⟨(h w hw).1, fun c hc => hpq c ((h w hw).2 c hc)⟩
  | stem s =>
    rw [isWordOf, List.all_eq_true] at h ⊢
    exact fun c hc => hpq c (h c hc)

theorem isWordOf_of_isUnambiguous {lead : Lead} {name : Name} (h : (Shape.call lead name).isUnambiguous = true) :
    name.isWordOf isNameChar = true := by
  have hstem : ∀ c, isStemChar c = true → isNameChar c = true := fun _ => isNameChar_of_isStemChar
  cases lead with
  | free => exact Name.isWordOf_mono hstem h
  | member => exact Name.isWordOf_mono (fun _ => isNameChar_of_isMemberChar) h
  | boundary =>
    cases name with
    | oneOf names => exact (Bool.and_eq_true _ _ ▸ h).1
    | stem s =>
      have hs : (Name.stem s).isWordOf isStemChar = true := h
      exact Name.isWordOf_mono hstem hs
  | anywhere =>
    cases name with
    | oneOf names => exact (Bool.and_eq_true _ _ ▸ h).1
    | stem s => cases h

def behindWord (cs : List Char) : List Char := (trimStart (cs.dropWhile isNameChar)).drop 1

theorem dropWhile_word {word more : List Char} {c : Char} (hword : ∀ w ∈ word, isNameChar w = true)
    (hc : isNameChar c = false) : (word ++ c :: more).dropWhile isNameChar = c :: more := by
  rw [List.dropWhile_append_of_pos hword, List.dropWhile_cons_of_neg (by simp [hc])]

theorem isNameChar_blank {c : Char} (h : isBlank c = true) : isNameChar c = false := by simp [isNameChar, h]

theorem trimStart_blanks {blanks more : List Char} {c : Char} (hblanks : ∀ b ∈ blanks, isBlank b = true)
    (hc : isBlank c = false) : trimStart (blanks ++ c :: more) = c :: more := by
  rw [trimStart, List.dropWhile_append_of_pos hblanks, List.dropWhile_cons_of_neg (by simp [hc])]

theorem afterOpening?_blanks {blanks : List Char} (hblanks : ∀ b ∈ blanks, isBlank b = true) (rest : List Char) :
    afterOpening? (blanks ++ '(' :: rest) = some rest := by
  rw [afterOpening?, trimStart_blanks hblanks (by decide)]
  exact after?_append ['('] rest

theorem behindWord_call {name : Name} (hname : name.isWordOf isNameChar = true) {call : List Char}
    (h : name.Calls call) (rest : List Char) : behindWord (call ++ rest) = rest := by
  obtain ⟨hword, hblanks⟩ := h
  rename_i word blanks
  have hword := (hword.word hname fun _ => isNameChar_of_isStemChar).2
  have hdrop : (word ++ (blanks ++ '(' :: rest)).dropWhile isNameChar = blanks ++ '(' :: rest := by
    cases blanks with
    | nil => exact dropWhile_word hword (by decide)
    | cons b blanks => exact dropWhile_word hword (isNameChar_blank (hblanks b (List.mem_cons_self ..)))
  simp only [behindWord, List.append_assoc, List.cons_append, List.nil_append, hdrop]
  rw [trimStart_blanks hblanks (by decide), List.drop_one, List.tail_cons]

theorem dropWhile_keyword {k : List Char} {c : Char} (hk : ∀ w ∈ k, isNameChar w = true) (hc : isBlank c = true)
    (rest : List Char) : ((k ++ [c]) ++ rest).dropWhile isNameChar = c :: rest := by
  rw [List.append_assoc]
  exact dropWhile_word hk (isNameChar_blank hc)

theorem Name.Calls.callAt? {name : Name} (hname : name.isWordOf isNameChar = true) {call : List Char}
    (h : name.Calls call) (rest : List Char) : name.callAt? (call ++ rest) = some rest := by
  -- One way to read the text is at hand, so there is an answer; where a call ends does not depend on its name.
  have hsome : (name.callAt? (call ++ rest)).isSome = true := by
    obtain ⟨hword, hblanks⟩ := h
    cases hword with
    | oneOf hn =>
      apply List.findSome?_isSome_iff.mpr
      refine ⟨_, hn, ?_⟩
      simp only [List.append_assoc, after?_append, Option.bind_eq_bind, Option.bind_some, List.cons_append, List.nil_append,
        afterOpening?_blanks hblanks, Option.isSome_some]
    | @stem s more hmore hchars =>
      rename_i blanks
      have hrest : (more ++ (blanks ++ '(' :: rest)).dropWhile isStemChar = blanks ++ '(' :: rest := by
        rw [List.dropWhile_append_of_pos hchars]
        cases blanks with
        | nil => exact List.dropWhile_cons_of_neg (by decide)
        | cons b blanks =>
          apply List.dropWhile_cons_of_neg
          intro hb
          have hblank := isNameChar_blank (hblanks b (List.mem_cons_self ..))
          rw [isNameChar_of_isStemChar hb] at hblank
          cases hblank
      have hpos := List.length_pos_iff.mpr hmore
      simp only [Name.callAt?, List.append_assoc, after?_append, Option.bind_eq_bind, Option.bind_some, List.cons_append,
        List.nil_append, hrest, List.length_append]
      rw [if_pos (by omega), afterOpening?_blanks hblanks]
      rfl
  obtain ⟨r, hr⟩ := Option.isSome_iff_exists.mp hsome
  obtain ⟨call', heq, hcall'⟩ := Name.calls_of_callAt? hr
  rw [hr, ← behindWord_call hname h rest, heq, behindWord_call hname hcall' r]

theorem Name.Calls.head {p : Char → Bool} {name : Name} (hname : name.isWordOf p = true)
    (hp : ∀ c, isStemChar c = true → p c = true) {call : List Char} (h : name.Calls call) :
    ∃ c word more, call = c :: more ∧ name.Spells (c :: word) ∧ p c = true := by
  obtain ⟨hword, -⟩ := h
  obtain ⟨hne, hchars⟩ := hword.word hname hp
  obtain ⟨c, word, rfl⟩ := List.exists_cons_of_ne_nil hne
  exact ⟨c, word, _, rfl, hword, hchars c (List.mem_cons_self ..)⟩

theorem Shape.Occurs.occursAt? {shape : Shape} (hshape : shape.isUnambiguous = true) {before : Option Char}
    {text : List Char} (h : shape.Occurs before text) (rest : List Char) :
    shape.occursAt? before (text ++ rest) = some rest := by
  cases h with
  | anywhere hcall => exact hcall.callAt? (isWordOf_of_isUnambiguous hshape) rest
  | boundary hcall hbefore =>
    simp only [Shape.occursAt?, Lead.callAt?]
    rw [List.head?_append_of_ne_nil _ hcall.ne_nil, if_pos hbefore]
    exact hcall.callAt? (isWordOf_of_isUnambiguous hshape) rest
  | start hcall =>
    simp only [Shape.occursAt?, Lead.callAt?, Option.isNone_none, if_true]
    rw [hcall.callAt? (isWordOf_of_isUnambiguous hshape) rest]
    rfl
  | @free name before c call hc hcall =>
    -- The name cannot start with the character in front of it.
    have hhere : name.callAt? (c :: call ++ rest) = none := by
      rw [Option.eq_none_iff_forall_ne_some]
      intro r hr
      obtain ⟨call', heq, hcall'⟩ := Name.calls_of_callAt? hr
      obtain ⟨d, -, more, rfl, -, hd⟩ := hcall'.head hshape fun _ hd => hd
      obtain rfl : c = d := (List.cons.inj heq).1
      rw [freesName_of_isStemChar hd] at hc
      cases hc
    simp only [Shape.occursAt?, Lead.callAt?, hhere, ite_self]
    simp only [List.cons_append, if_pos hc, hcall.callAt? (isWordOf_of_isUnambiguous hshape) rest]
    rfl
  | @member name before mark blanks call hmark hblanks hcall =>
    have hmarked : ∀ more, (after? ['-', '>'] (mark ++ more) <|> after? [':', ':'] (mark ++ more)) = some more := by
      intro more
      rcases hmark with rfl | rfl
      · rw [after?_append]
        rfl
      · rfl
    have htrim : trimStart (blanks ++ (call ++ rest)) = call ++ rest := by
      obtain ⟨c, -, more, rfl, -, hc⟩ := hcall.head (isWordOf_of_isUnambiguous hshape) fun _ => isNameChar_of_isStemChar
      apply trimStart_blanks hblanks
      simp only [isNameChar, Bool.and_eq_true, Bool.not_eq_true'] at hc
      exact hc.1
    simp only [Shape.occursAt?, Lead.callAt?, List.append_assoc, hmarked, Option.bind_eq_bind, Option.bind_some, htrim]
    exact hcall.callAt? (isWordOf_of_isUnambiguous hshape) rest
  | @statement keywords before k c hk hc hbefore =>
    have hwords := areWordsOf_iff.mp (Bool.and_eq_true _ _ ▸ hshape).1
    have hsome : ((Shape.statement keywords).occursAt? before ((k.toList ++ [c]) ++ rest)).isSome = true := by
      simp only [Shape.occursAt?, keywordAt?]
      rw [List.head?_append_of_ne_nil _ (by simp), if_pos hbefore]
      apply List.findSome?_isSome_iff.mpr
      refine ⟨k, hk, ?_⟩
      simp [List.append_assoc, hc]
    obtain ⟨r, hr⟩ := Option.isSome_iff_exists.mp hsome
    obtain ⟨text', heq, htext'⟩ := Shape.occurs_of_occursAt? hr
    cases htext' with
    | statement hk' hc' _ =>
      have hdrop := congrArg (List.dropWhile isNameChar) heq
      rw [dropWhile_keyword (hwords _ hk).2 hc, dropWhile_keyword (hwords _ hk').2 hc'] at hdrop
      rw [hr, (List.cons.inj hdrop).2]

theorem inside_word {word ending pre rest : List Char} {c : Char} (h : word ++ ending = pre ++ c :: rest)
    (hending : ∀ e ∈ ending, isNameChar e = false) (hc : isNameChar c = true) : ∃ more, word = pre ++ c :: more := by
  have hnotMem : c ∉ ending := by
    intro hmem
    rw [hending c hmem] at hc
    cases hc
  rcases List.append_eq_append_iff.mp h with ⟨as, -, hending⟩ | ⟨bs, hword, hrest⟩
  · rw [hending] at hnotMem
    simp at hnotMem
  · cases bs with
    | nil =>
      rw [List.nil_append] at hrest
      rw [← hrest] at hnotMem
      simp at hnotMem
    | cons b bs =>
      obtain rfl : c = b := (List.cons.inj hrest).1
      exact ⟨bs, hword⟩

theorem isNameChar_ending {blanks : List Char} (hblanks : ∀ b ∈ blanks, isBlank b = true) :
    ∀ e ∈ blanks ++ ['('], isNameChar e = false := by
  intro e he
  rcases List.mem_append.mp he with he | he
  · exact isNameChar_blank (hblanks e he)
  · obtain rfl := List.mem_singleton.mp he
    decide

theorem Name.Calls.inside {name : Name} {pre rest : List Char} {c : Char} (h : name.Calls (pre ++ c :: rest))
    (hc : isNameChar c = true) : ∃ more, name.Spells (pre ++ c :: more) := by
  generalize hcall : pre ++ c :: rest = call at h
  obtain ⟨hword, hblanks⟩ := h
  obtain ⟨more, rfl⟩ := inside_word hcall.symm (isNameChar_ending hblanks) hc
  exact ⟨more, hword⟩

theorem not_inside_word {words : List String} (h : areApart words = true) {v w : String} (hv : v ∈ words) (hw : w ∈ words)
    {pre more : List Char} {c : Char} (hpre : pre ≠ []) (hword : w.toList = pre ++ c :: more) :
    v.toList.head? ≠ some c := by
  have hapart := List.all_eq_true.mp (List.all_eq_true.mp (List.all_eq_true.mp h v hv) w hw) c
  obtain ⟨p, pre, rfl⟩ := List.exists_cons_of_ne_nil hpre
  rw [hword] at hapart
  simpa using hapart (by simp)

theorem not_overlap_oneOf {names : List String} (hnames : (areWordsOf isNameChar names && areApart names) = true)
    {pre rest call : List Char} {c : Char} (hpre : pre ≠ []) (hfirst : (Name.oneOf names).Calls (pre ++ c :: rest))
    (hcall : (Name.oneOf names).Calls call) : call.head? ≠ some c := by
  obtain ⟨hwords, hapart⟩ : (Name.oneOf names).isWordOf isNameChar = true ∧ areApart names = true :=
    Bool.and_eq_true _ _ ▸ hnames
  obtain ⟨d, word, more, rfl, hspells, hd⟩ := hcall.head hwords fun _ => isNameChar_of_isStemChar
  intro hc
  obtain rfl : d = c := Option.some.inj hc
  obtain ⟨more, hinside⟩ := hfirst.inside hd
  generalize hv : d :: word = v at hspells
  generalize hw : pre ++ d :: more = w at hinside
  cases hspells with
  | oneOf hv' =>
    cases hinside with
    | oneOf hw' =>
      apply not_inside_word hapart hv' hw' hpre hw.symm
      rw [← hv, List.head?_cons]

theorem not_overlap_stem {s : String} (hs : (Name.stem s).isWordOf isStemChar = true) {pre rest call : List Char} {c : Char}
    (hpre : pre ≠ []) (hfirst : (Name.stem s).Calls (pre ++ c :: rest)) (hcall : (Name.stem s).Calls call)
    (hc : call.head? = some c) : Unicode.atWordBoundary pre.getLast? call.head? = false := by
  obtain ⟨d, word, more, rfl, hspells, hd⟩ := hcall.head hs fun _ h => h
  obtain rfl : d = c := Option.some.inj hc
  obtain ⟨more, hinside⟩ := hfirst.inside (isNameChar_of_isStemChar hd)
  have hchars := (hinside.word hs fun _ h => h).2
  have hlast : isStemChar (pre.getLast hpre) = true := hchars _ (List.mem_append_left _ (List.getLast_mem hpre))
  rw [Unicode.atWordBoundary, List.getLast?_eq_some_getLast hpre, List.head?_cons, Option.any_some, Option.any_some,
    isWord_of_isStemChar hlast, isWord_of_isStemChar hd, bne_self_eq_false]

theorem overlap_free {name : Name} (hname : name.isWordOf isStemChar = true) {pre inside rest call rest' : List Char}
    {c : Char} (hfirst : name.Calls (pre ++ c :: inside)) (hc : freesName c = true) (hcall : name.Calls call)
    (heq : inside ++ rest = call ++ rest') : inside = [] := by
  cases inside with
  | nil => rfl
  | cons d inside =>
    obtain ⟨e, -, more, rfl, -, he⟩ := hcall.head hname fun _ h => h
    obtain rfl : d = e := (List.cons.inj heq).1
    have hsplit : pre ++ c :: d :: inside = (pre ++ [c]) ++ d :: inside := by simp
    rw [hsplit] at hfirst
    obtain ⟨more, hinside⟩ := hfirst.inside (isNameChar_of_isStemChar he)
    have hstem := (hinside.word hname fun _ h => h).2 c (by simp)
    rw [freesName_of_isStemChar hstem] at hc
    cases hc

theorem not_overlap_member {mark tail mark' pre inside rest rest' : List Char}
    (hmark : mark = ['-', '>'] ∨ mark = [':', ':']) (htail : ∀ c ∈ tail, c ≠ '-' ∧ c ≠ ':') (hne : tail ≠ [])
    (hmark' : mark' = ['-', '>'] ∨ mark' = [':', ':']) (hpre : pre ≠ []) (hinside : inside ≠ []) (hsplit : mark ++ tail = pre ++ inside) :
    inside ++ rest ≠ mark' ++ rest' := by
  obtain ⟨a, tail, rfl⟩ := List.exists_cons_of_ne_nil hne
  obtain ⟨i, inside, rfl⟩ := List.exists_cons_of_ne_nil hinside
  obtain ⟨p, pre, rfl⟩ := List.exists_cons_of_ne_nil hpre
  intro heq
  -- The second mark starts with a dash or a colon, and only the second colon of the first mark is one.
  have hi : i = '-' ∨ i = ':' := by
    rcases hmark' with rfl | rfl
    · exact .inl (List.cons.inj heq).1
    · exact .inr (List.cons.inj heq).1
  cases pre with
  | nil =>
    rcases hmark with rfl | rfl
    · obtain rfl : '>' = i := (List.cons.inj (List.cons.inj hsplit).2).1
      rcases hi with hi | hi <;> cases hi
    · simp only [List.cons_append, List.nil_append, List.cons.injEq] at hsplit
      obtain ⟨-, rfl, rfl⟩ := hsplit
      rcases hmark' with rfl | rfl
      · cases (List.cons.inj heq).1
      · exact (htail a (List.mem_cons_self ..)).2 (List.cons.inj (List.cons.inj heq).2).1
  | cons q pre =>
    have hmem : i ∈ a :: tail := by
      have hdrop := congrArg (List.drop 2) hsplit
      rcases hmark with rfl | rfl
      · rw [show a :: tail = pre ++ i :: inside from hdrop]
        simp
      · rw [show a :: tail = pre ++ i :: inside from hdrop]
        simp
    rcases hi with rfl | rfl
    · exact (htail _ hmem).1 rfl
    · exact (htail _ hmem).2 rfl

theorem Name.Calls.chars {p : Char → Bool} {name : Name} (hname : name.isWordOf p = true)
    (hp : ∀ c, isStemChar c = true → p c = true) {call : List Char} (h : name.Calls call) {c : Char} (hc : c ∈ call) :
    p c = true ∨ isBlank c = true ∨ c = '(' := by
  obtain ⟨hword, hblanks⟩ := h
  simp only [List.mem_append, List.mem_singleton] at hc
  rcases hc with hc | hc | hc
  · exact .inl ((hword.word hname hp).2 c hc)
  · exact .inr (.inl (hblanks c hc))
  · exact .inr (.inr hc)

theorem Shape.Occurs.overlap {shape : Shape} (hshape : shape.isUnambiguous = true) {before : Option Char}
    {pre inside text rest rest' : List Char} (hfirst : shape.Occurs before (pre ++ inside)) (hpre : pre ≠ [])
    (hinside : inside ≠ []) (hnext : shape.Occurs pre.getLast? text) (heq : inside ++ rest = text ++ rest') :
    ∃ lead name call, shape = .call lead name ∧ name.isWordOf isStemChar = true ∧ name.Calls call ∧
      rest = call ++ rest' := by
  obtain ⟨c, inside, rfl⟩ := List.exists_cons_of_ne_nil hinside
  have hhead : text.head? = some c := by
    have hheads := congrArg List.head? heq
    rw [List.head?_append_of_ne_nil text hnext.ne_nil] at hheads
    exact hheads.symm
  generalize hlast : pre.getLast? = last at hnext
  generalize hsplit : pre ++ c :: inside = first at hfirst
  cases hnext with
  | @anywhere name _ _ hcall =>
    cases hfirst with
    | anywhere hfirst =>
      subst hsplit
      cases name with
      | oneOf names => exact absurd hhead (not_overlap_oneOf hshape hpre hfirst hcall)
      | stem s => cases hshape
  | @boundary name _ _ hcall hbefore =>
    cases hfirst with
    | boundary hfirst _ =>
      subst hsplit
      cases name with
      | oneOf names => exact absurd hhead (not_overlap_oneOf hshape hpre hfirst hcall)
      | stem s =>
        rw [← hlast, not_overlap_stem hshape hpre hfirst hcall hhead] at hbefore
        cases hbefore
  | start hcall => exact absurd (List.getLast?_eq_none_iff.mp hlast) hpre
  | @free name _ d call hd hcall =>
    obtain ⟨rfl, hrest⟩ : c = d ∧ inside ++ rest = call ++ rest' := List.cons.inj heq
    have hnested : inside = [] := by
      cases hfirst with
      | start hfirst =>
        subst hsplit
        exact overlap_free hshape hfirst hd hcall hrest
      | free hb hfirst =>
        obtain ⟨p, pre, rfl⟩ := List.exists_cons_of_ne_nil hpre
        obtain ⟨-, rfl⟩ := List.cons.inj hsplit
        exact overlap_free hshape hfirst hd hcall hrest
    rw [hnested, List.nil_append] at hrest
    exact ⟨_, name, call, rfl, hshape, hcall, hrest⟩
  | member hmark' hblanks' hcall' =>
    cases hfirst with
    | @member name _ mark blanks call hmark hblanks hcall =>
      rw [List.append_assoc] at heq
      refine absurd heq (not_overlap_member hmark (fun x hx => ?_) (by simp [hcall.ne_nil]) hmark' hpre hinside hsplit.symm)
      have hx : isMemberChar x = true ∨ isBlank x = true ∨ x = '(' := by
        rcases List.mem_append.mp hx with hx | hx
        · exact .inr (.inl (hblanks x hx))
        · exact hcall.chars hshape (fun _ => isMemberChar_of_isStemChar) hx
      constructor
      · rintro rfl
        revert hx
        decide
      · rintro rfl
        revert hx
        decide
  | @statement keywords _ k b hk hb hbefore =>
    obtain ⟨hwords, hapart⟩ := Bool.and_eq_true _ _ ▸ hshape
    obtain ⟨hne, hchars⟩ := areWordsOf_iff.mp hwords k hk
    rw [List.head?_append_of_ne_nil _ hne] at hhead
    cases hfirst with
    | statement hk' hb' _ =>
      have hc : isNameChar c = true := hchars c (List.mem_of_head? hhead)
      obtain ⟨more, hinside⟩ := inside_word hsplit.symm (by simpa using isNameChar_blank hb') hc
      exact absurd hhead (not_inside_word hapart hk hk' hpre hinside)

theorem Name.Calls.plain {name : Name} (hname : name.isWordOf isStemChar = true) {call : List Char} (h : name.Calls call)
    {b : UInt8} (hb : b ∈ utf8 call) : (b ≠ hash ∧ b ≠ slash ∧ ¬ isQuoteOrBackquote b) ∧ b ≠ 0x29 := by
  have hnat : b.toNat ∉ [34, 35, 39, 41, 47, 96] := by
    by_cases hascii : b < 0x80
    · obtain ⟨c, hc, hcb⟩ := exists_char_of_mem_utf8 hb hascii
      rw [← hcb]
      rcases h.chars hname (fun _ h => h) hc with hstem | hblank | rfl
      · have hstem := toNat_of_isStemChar hstem
        simp only [List.mem_cons, List.not_mem_nil, or_false]
        omega
      · obtain ⟨r, hr, hblank⟩ := isBlank_iff.mp hblank
        simp only [blankRuns, List.mem_cons, List.not_mem_nil, or_false] at hr ⊢
        rcases hr with rfl | rfl | rfl | rfl | rfl | rfl | rfl | rfl | rfl | rfl <;> simp only [] at hblank <;> omega
      · decide
    · rw [UInt8.lt_iff_toNat_lt] at hascii
      simp only [List.mem_cons, List.not_mem_nil, or_false]
      have h128 : (0x80 : UInt8).toNat = 128 := rfl
      omega
  refine ⟨⟨?_, ?_, ?_⟩, ?_⟩
  · rintro rfl
    exact hnat (by decide)
  · rintro rfl
    exact hnat (by decide)
  · intro hquote
    simp only [isQuoteOrBackquote, isQuote, Bool.or_eq_true, beq_iff_eq] at hquote
    rcases hquote with (rfl | rfl) | rfl <;> exact hnat (by decide)
  · rintro rfl
    exact hnat (by decide)

theorem closerOffset?_deeper {opener closer : UInt8} {depth : ℕ} {ls : List Lexeme}
    (h : closerOffset? opener closer depth ls = none) : closerOffset? opener closer (depth + 1) ls = none := by
  induction ls generalizing depth with
  | nil => rfl
  | cons l ls ih =>
    cases l with
    | code b =>
      simp only [closerOffset?] at h ⊢
      split_ifs at h ⊢ with hopener hcloser
      · rw [Option.map_eq_none_iff] at h ⊢
        exact ih h
      · cases depth with
        | zero => cases h
        | succ depth =>
          rw [Option.map_eq_none_iff] at h ⊢
          exact ih h
      · rw [Option.map_eq_none_iff] at h ⊢
        exact ih h
    | comment bs =>
      simp only [closerOffset?, Option.map_eq_none_iff] at h ⊢
      exact ih h
    | literal bs =>
      simp only [closerOffset?, Option.map_eq_none_iff] at h ⊢
      exact ih h
    | unclosed bs => rfl

theorem closerOffset?_unclosed {opener closer : UInt8} {depth : ℕ} {bs : Bytes} {ls : List Lexeme} (hbs : closer ∉ bs)
    (h : closerOffset? opener closer depth ls = none) :
    closerOffset? opener closer depth (bs.map .code ++ ls) = none := by
  induction bs generalizing depth with
  | nil => exact h
  | cons b bs ih =>
    simp only [List.mem_cons, not_or] at hbs
    simp only [List.map_cons, List.cons_append, closerOffset?, if_neg (Ne.symm hbs.1)]
    split_ifs
    · rw [ih hbs.2 (closerOffset?_deeper h), Option.map_none]
    · rw [ih hbs.2 h, Option.map_none]

theorem leavesOpen_nested {lead : Lead} {name : Name} (hname : name.isWordOf isStemChar = true) {call rest : List Char}
    (hcall : name.Calls call) (h : (Shape.call lead name).leavesOpen rest = true) :
    (Shape.call lead name).leavesOpen (call ++ rest) = true := by
  have hcloser : closer? 0x28 = some 0x29 := by decide
  simp only [Shape.leavesOpen, partnerAfter?, hcloser, Option.bind_eq_bind, Option.bind_some, Option.isNone_iff_eq_none,
    utf8_append] at h ⊢
  rw [lexemes_plain fun b hb => (hcall.plain hname hb).1]
  exact closerOffset?_unclosed (fun hmem => (hcall.plain hname hmem).2 rfl) h

/-- The text has an occurrence of the shape, at any place, that the rest of the text leaves open. -/
def Shape.OpenIn (shape : Shape) (cs : List Char) : Prop :=
  ∃ pre text rest, cs = pre ++ (text ++ rest) ∧ shape.Occurs pre.getLast? text ∧ shape.leavesOpen rest = true

theorem split_used {c : Char} {more text rest : List Char} (h : c :: more = text ++ rest) (htext : text ≠ []) :
    (c :: more)[(c :: more).length - rest.length - 1]? = text.getLast? ∧
      more.drop ((c :: more).length - rest.length - 1) = rest := by
  obtain ⟨d, text, rfl⟩ := List.exists_cons_of_ne_nil htext
  obtain ⟨rfl, rfl⟩ : c = d ∧ more = text ++ rest := List.cons.inj h
  have hused : (c :: (text ++ rest)).length - rest.length - 1 = text.length := by
    simp only [List.length_cons, List.length_append]
    omega
  constructor
  · rw [hused, List.getLast?_eq_getElem?, List.length_cons, Nat.add_sub_cancel, ← List.cons_append]
    exact List.getElem?_append_left (by simp)
  · rw [hused]
    exact List.drop_left

theorem getLast?_cons_or (c : Char) (pre : List Char) (before : Option Char) :
    (c :: pre).getLast?.or before = pre.getLast?.or (some c) :=
  getLast?_append_or (List.cons_ne_nil c []) pre before

theorem Shape.rests_sound {shape : Shape} {before : Option Char} {cs rest : List Char} (h : rest ∈ shape.rests before cs) :
    ∃ pre text, cs = pre ++ (text ++ rest) ∧ shape.Occurs (pre.getLast?.or before) text := by
  fun_induction Shape.rests shape before cs with
  | case1 before => cases h
  | case2 before c more r hr used ih =>
    obtain ⟨text, hcs, htext⟩ := Shape.occurs_of_occursAt? hr
    rcases List.mem_cons.mp h with rfl | h
    · exact ⟨[], text, hcs, htext⟩
    · obtain ⟨hlast, hdrop⟩ := split_used hcs htext.ne_nil
      obtain ⟨pre, text', hmore, htext'⟩ := ih h
      rw [hdrop] at hmore
      rw [hlast, ← getLast?_append_or htext.ne_nil pre before] at htext'
      exact ⟨text ++ pre, text', by rw [hcs, hmore, List.append_assoc], htext'⟩
  | case3 before c more hnone ih =>
    obtain ⟨pre, text, rfl, htext⟩ := ih h
    refine ⟨c :: pre, text, rfl, ?_⟩
    rwa [getLast?_cons_or]

theorem behind_or_inside {first r pre tail : List Char} (h : first ++ r = pre ++ tail) :
    (∃ behind, pre = first ++ behind ∧ r = behind ++ tail) ∨
      ∃ inside, inside ≠ [] ∧ first = pre ++ inside ∧ inside ++ r = tail := by
  rcases List.append_eq_append_iff.mp h with hbehind | ⟨inside, rfl, rfl⟩
  · exact .inl hbehind
  · cases inside with
    | nil => exact .inl ⟨[], by simp, rfl⟩
    | cons i inside => exact .inr ⟨_, List.cons_ne_nil i inside, rfl, rfl⟩

theorem Shape.rests_complete {shape : Shape} (hshape : shape.isUnambiguous = true) {before : Option Char}
    {cs pre text rest : List Char} (hcs : cs = pre ++ (text ++ rest)) (h : shape.Occurs (pre.getLast?.or before) text)
    (hopen : shape.leavesOpen rest = true) : ∃ r ∈ shape.rests before cs, shape.leavesOpen r = true := by
  fun_induction Shape.rests shape before cs generalizing pre with
  | case1 before =>
    rw [eq_comm, List.append_eq_nil_iff, List.append_eq_nil_iff] at hcs
    exact absurd hcs.2.1 h.ne_nil
  | case2 before c more r hr used =>
    rename_i ih
    obtain ⟨first, hfirst, hoccurs⟩ := Shape.occurs_of_occursAt? hr
    obtain ⟨hlast, hdrop⟩ : (c :: more)[used - 1]? = first.getLast? ∧ more.drop (used - 1) = r :=
      split_used hfirst hoccurs.ne_nil
    rw [hlast, hdrop] at ih
    rcases behind_or_inside (hfirst.symm.trans hcs) with ⟨behind, rfl, hr'⟩ | ⟨inside, hne, rfl, hinside⟩
    · -- The occurrence starts behind the one that the search has found.
      rw [getLast?_append_or hoccurs.ne_nil behind before] at h
      obtain ⟨r', hmem, hr'⟩ := ih hr' h
      rw [hlast, hdrop]
      exact ⟨r', List.mem_cons_of_mem r hmem, hr'⟩
    · refine ⟨r, List.mem_cons_self .., ?_⟩
      cases pre with
      | nil =>
        -- It is the one that the search has found.
        rw [hcs] at hr
        have hsame := (h.occursAt? hshape rest).symm.trans hr
        rwa [← Option.some.inj hsame]
      | cons p pre =>
        rw [Option.or_of_isSome (by simp)] at h
        obtain ⟨lead, name, call, rfl, hname, hcall, rfl⟩ :=
          hoccurs.overlap hshape (List.cons_ne_nil p pre) hne h hinside
        exact leavesOpen_nested hname hcall hopen
  | case3 before c more hnone ih =>
    cases pre with
    | nil =>
      rw [hcs] at hnone
      cases (h.occursAt? hshape rest).symm.trans hnone
    | cons p pre =>
      obtain ⟨rfl, hmore⟩ : c = p ∧ more = pre ++ (text ++ rest) := List.cons.inj hcs
      rw [getLast?_cons_or] at h
      exact ih hmore h

theorem Signature.encloses_eq_true_iff {s : Signature} (hs : s ∈ signatures) (w : List Char) :
    s.encloses w = true ↔ s.shape.OpenIn w := by
  have hshape := List.all_eq_true.mp signatures_unambiguous s hs
  rw [Signature.encloses, List.any_eq_true]
  constructor
  · rintro ⟨rest, hrest, hopen⟩
    obtain ⟨pre, text, hw, htext⟩ := Shape.rests_sound hrest
    rw [Option.or_none] at htext
    exact ⟨pre, text, rest, hw, htext, hopen⟩
  · rintro ⟨pre, text, rest, hw, htext, hopen⟩
    rw [← Option.or_none (o := pre.getLast?)] at htext
    exact Shape.rests_complete hshape hw htext hopen

theorem Shape.Occurs.opening {lead : Lead} {name : Name} {before : Option Char} {text : List Char}
    (h : (Shape.call lead name).Occurs before text) : ∃ front, text = front ++ ['('] := by
  have hcalls : ∀ {call : List Char}, name.Calls call → ∃ front, call = front ++ ['('] := by
    rintro _ ⟨-, -⟩
    exact ⟨_, (List.append_assoc ..).symm⟩
  cases h with
  | anywhere hcall => exact hcalls hcall
  | boundary hcall _ => exact hcalls hcall
  | start hcall => exact hcalls hcall
  | free _ hcall =>
    obtain ⟨front, rfl⟩ := hcalls hcall
    exact ⟨_, (List.cons_append ..).symm⟩
  | @member _ _ mark blanks _ _ _ hcall =>
    obtain ⟨front, rfl⟩ := hcalls hcall
    exact ⟨mark ++ (blanks ++ front), by simp only [List.append_assoc]⟩

theorem partner?_opening (front rest : List Char) :
    partner? .php (utf8 (front ++ ['('] ++ rest)) (byteLength (front ++ ['(']) - 1) = none ↔
      partnerAfter? .php 0x28 (utf8 rest) = none := by
  have hopening : utf8 ['('] = [0x28] := by decide
  have hoffset : byteLength (front ++ ['(']) - 1 = (utf8 front).length := by
    rw [← length_utf8, utf8_append, hopening, List.length_append, List.length_singleton, Nat.add_sub_cancel]
  rw [partner?, hoffset, utf8_append, utf8_append, hopening, List.append_assoc, List.drop_left]
  exact Option.map_eq_none_iff

theorem encloses_iff_unclosed_call {s : Signature} (hs : s ∈ signatures) {lead : Lead} {name : Name}
    (hshape : s.shape = .call lead name) (w : List Char) :
    s.encloses w = true ↔
      ∃ pre text rest, w = pre ++ text ++ rest ∧ (Shape.call lead name).Occurs pre.getLast? text ∧
        partner? .php (utf8 w) (byteLength (pre ++ text) - 1) = none := by
  rw [Signature.encloses_eq_true_iff hs, hshape]
  refine exists_congr fun pre => exists_congr fun text => exists_congr fun rest => ?_
  rw [List.append_assoc]
  refine and_congr_right fun hw => and_congr_right fun htext => ?_
  obtain ⟨front, rfl⟩ := htext.opening
  have hpartner := partner?_opening (pre ++ front) rest
  simp only [List.append_assoc] at hpartner hw ⊢
  rw [hw, hpartner, Shape.leavesOpen, Option.isNone_iff_eq_none]

theorem encloses_iff_unclosed_call_nested :
    (⟨.logging, .call .free (.oneOf ["logger", "error_log", "info"])⟩ : Signature) ∈ signatures ∧
      (⟨.logging, .call .free (.oneOf ["logger", "error_log", "info"])⟩ : Signature).encloses
        "info(logger(error_log(), ".toList = true := by
  have hs : (⟨.logging, .call .free (.oneOf ["logger", "error_log", "info"])⟩ : Signature) ∈ signatures :=
    List.mem_of_getElem? (i := 4) rfl
  have hcall : (Name.oneOf ["logger", "error_log", "info"]).Calls ("logger".toList ++ ([] ++ ['('])) :=
    .intro (.oneOf (by decide)) (by simp)
  have hfree : freesName '(' = true := by
    rw [freesName, Unicode.not_isWord_of_lt (by decide)]
    rfl
  refine ⟨hs, (encloses_iff_unclosed_call hs rfl _).mpr ?_⟩
  exact ⟨"info".toList, _, "error_log(), ".toList, by decide, .free hfree hcall, by decide +kernel⟩

end VisibleText.Code
