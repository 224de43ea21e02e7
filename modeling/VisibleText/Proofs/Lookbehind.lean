import VisibleText.Proofs.Occurrences

/-!
What a window loses of the code before it. Only the last bytes before a literal are searched, and the search takes the
start of the window for the start of the code. So a call can be missed, and one can be made up: where the window happens
to start with a name, whatever made that name part of a longer one, a variable or a member has been cut off.
-/
namespace VisibleText.Code

theorem isWord_of_freesName {c : Char} (h : freesName c = true) : Unicode.isWord c = false := by
  simp only [freesName, Bool.not_eq_true', Bool.or_eq_false_iff] at h
  exact h.1.1.1

theorem atWordBoundary_behind {c : Char} {after : Option Char} (hc : freesName c = true)
    (h : Unicode.atWordBoundary none after = true) : Unicode.atWordBoundary (some c) after = true := by
  rw [Unicode.atWordBoundary, Option.any_none] at h
  rwa [Unicode.atWordBoundary, Option.any_some, isWord_of_freesName hc]

theorem Shape.Occurs.behind {shape : Shape} {text : List Char} (h : shape.Occurs none text) {c : Char}
    (hc : freesName c = true) : shape.Occurs (some c) text ∨ ∀ before, shape.Occurs before (c :: text) := by
  cases h with
  | anywhere hcall => exact .inl (.anywhere hcall)
  | boundary hcall hbefore => exact .inl (.boundary hcall (atWordBoundary_behind hc hbefore))
  | start hcall => exact .inr fun before => .free hc hcall
  | free hd hcall => exact .inl (.free hd hcall)
  | member hmark hblanks hcall => exact .inl (.member hmark hblanks hcall)
  | statement hk hblank hbefore => exact .inl (.statement hk hblank (atWordBoundary_behind hc hbefore))

theorem Shape.OpenIn.uncut {shape : Shape} {w : List Char} (h : shape.OpenIn w) (cut : List Char) :
    shape.OpenIn (cut ++ w) ∨
      ∃ front c text rest, cut = front ++ [c] ∧ freesName c = false ∧ w = text ++ rest ∧ shape.Occurs none text ∧
        shape.leavesOpen rest = true := by
  obtain ⟨pre, text, rest, rfl, htext, hopen⟩ := h
  cases hpre : pre.getLast? with
  | some p =>
    refine .inl ⟨cut ++ pre, text, rest, (List.append_assoc ..).symm, ?_, hopen⟩
    rwa [List.getLast?_append, hpre, Option.some_or, ← hpre]
  | none =>
    obtain rfl := List.getLast?_eq_none_iff.mp hpre
    rw [List.getLast?_nil] at htext
    rcases List.eq_nil_or_concat cut with rfl | ⟨front, c, rfl⟩
    · exact .inl ⟨[], text, rest, rfl, htext, hopen⟩
    · cases hc : freesName c with
      | false => exact .inr ⟨front, c, text, rest, by simp, hc, rfl, htext, hopen⟩
      | true =>
        rcases htext.behind hc with halone | hfree
        · exact .inl ⟨front ++ [c], text, rest, by simp, by simpa using halone, hopen⟩
        · exact .inl ⟨front, c :: text, rest, by simp, hfree _, hopen⟩

theorem window_suffix (before after : List Char) :
    ∃ cut w, before = cut ++ w ∧ window (utf8 (before ++ after)) (byteLength before) = utf8 w := by
  rw [window, utf8_append, ← length_utf8, List.take_left]
  obtain ⟨w, ⟨cut, rfl⟩, hw⟩ := ceilBoundary_utf8 before ((utf8 before).length - lookbehind)
  exact ⟨cut, w, rfl, hw⟩

theorem exists_of_categoryBefore? {m : Bytes} {stop : ℕ} {w : List Char} {category : Category}
    (hw : window m stop = utf8 w) (h : categoryBefore? m stop = some category) :
    ∃ s ∈ signatures, s.category = category ∧ s.encloses w = true := by
  simp only [categoryBefore?, hw, decode_utf8, String.toList_ofList, Option.map_eq_some_iff] at h
  obtain ⟨s, hfind, hcategory⟩ := h
  have hencloses := List.find?_some hfind
  exact ⟨s, List.mem_of_find?_eq_some hfind, hcategory, hencloses⟩

def Shape.isForeign (alphabet : List Char) : Shape → Bool
  | .call _ (.oneOf names) => names.all fun n => n.toList.any fun c => !alphabet.contains c
  | .call _ (.stem s) => s.toList.any fun c => !alphabet.contains c
  | .statement keywords => keywords.all fun k => k.toList.any fun c => !alphabet.contains c

theorem Name.Calls.foreign {lead : Lead} {name : Name} {call : List Char} (h : name.Calls call) {alphabet : List Char}
    (hname : (Shape.call lead name).isForeign alphabet = true) : ∃ c ∈ call, c ∉ alphabet := by
  obtain ⟨hword, -⟩ := h
  cases hword with
  | @oneOf names n hn =>
    obtain ⟨c, hc, hlacks⟩ := List.any_eq_true.mp (List.all_eq_true.mp hname n hn)
    exact ⟨c, List.mem_append_left _ hc, by simpa using hlacks⟩
  | stem _ _ =>
    obtain ⟨c, hc, hlacks⟩ := List.any_eq_true.mp hname
    exact ⟨c, List.mem_append_left _ (List.mem_append_left _ hc), by simpa using hlacks⟩

theorem Shape.Occurs.foreign {shape : Shape} {before : Option Char} {text : List Char} (h : shape.Occurs before text)
    {alphabet : List Char} (hshape : shape.isForeign alphabet = true) : ∃ c ∈ text, c ∉ alphabet := by
  cases h with
  | anywhere hcall => exact hcall.foreign hshape
  | boundary hcall _ => exact hcall.foreign hshape
  | start hcall => exact hcall.foreign hshape
  | free _ hcall =>
    obtain ⟨c, hc, hlacks⟩ := hcall.foreign hshape
    exact ⟨c, List.mem_cons_of_mem _ hc, hlacks⟩
  | member _ _ hcall =>
    obtain ⟨c, hc, hlacks⟩ := hcall.foreign hshape
    exact ⟨c, List.mem_append_right _ (List.mem_append_right _ hc), hlacks⟩
  | @statement keywords _ k _ hk _ _ =>
    obtain ⟨c, hc, hlacks⟩ := List.any_eq_true.mp (List.all_eq_true.mp hshape k hk)
    exact ⟨c, List.mem_append_left _ hc, by simpa using hlacks⟩

theorem not_openIn_of_isForeign {shape : Shape} {alphabet cs : List Char} (h : shape.isForeign alphabet = true)
    (hcs : cs.all alphabet.contains = true) : ¬ shape.OpenIn cs := by
  rintro ⟨pre, text, rest, rfl, htext, -⟩
  obtain ⟨c, hc, hlacks⟩ := htext.foreign h
  have hmem := List.all_eq_true.mp hcs c (List.mem_append_right _ (List.mem_append_left _ hc))
  exact hlacks (List.contains_iff_mem.mp hmem)

def loggingCall : Signature := ⟨.logging, .call .free (.oneOf ["logger", "error_log", "info"])⟩

theorem signatures_split : signatures = signatures.take 4 ++ loggingCall :: signatures.drop 5 := rfl

/-- The call of a method, with so many spaces behind it that the lookbehind starts with the method's name. -/
def methodCall : List Char := "$mail->info(".toList ++ List.replicate 195 ' '

def methodWindow : List Char := "info(".toList ++ List.replicate 195 ' '

theorem window_methodCall : window (utf8 (methodCall ++ [])) (byteLength methodCall) = utf8 methodWindow := by
  decide +kernel

theorem categoryBefore?_methodCall :
    categoryBefore? (utf8 (methodCall ++ [])) (byteLength methodCall) = some .logging := by
  have hfirst : ∀ s ∈ signatures.take 4, ¬ s.encloses methodWindow = true := by
    have hforeign : (signatures.take 4).all (fun s => s.shape.isForeign "info( ".toList) = true := by decide +kernel
    intro s hs hencloses
    rw [Signature.encloses_eq_true_iff (List.mem_of_mem_take hs)] at hencloses
    exact not_openIn_of_isForeign (List.all_eq_true.mp hforeign s hs) (by decide +kernel) hencloses
  have hlogging : loggingCall.encloses methodWindow = true := by
    rw [Signature.encloses_eq_true_iff (by rw [signatures_split]; simp)]
    refine ⟨[], "info".toList ++ ([] ++ ['(']), List.replicate 195 ' ', by decide +kernel, ?_, by decide +kernel⟩
    exact .start (.intro (.oneOf (by decide)) (by simp))
  simp only [categoryBefore?, window_methodCall, decode_utf8, String.toList_ofList]
  rw [signatures_split, List.find?_append, List.find?_eq_none.mpr hfirst, List.find?_cons, hlogging]
  rfl

theorem info_behind_arrow {pre more : List Char} {c : Char} (h : methodCall = pre ++ c :: 'i' :: 'n' :: more) : c = '>' := by
  have hplaces : (List.range methodCall.length).all (fun k =>
      !(methodCall[k + 1]? == some 'i' && methodCall[k + 2]? == some 'n') || methodCall[k]? == some '>') = true := by
    decide +kernel
  have hlength : pre.length < methodCall.length := by
    rw [h, List.length_append, List.length_cons]
    omega
  have hplace := List.all_eq_true.mp hplaces pre.length (List.mem_range.mpr hlength)
  rw [h] at hplace
  simpa [List.getElem?_append_right] using hplace

theorem not_encloses_methodCall {s : Signature} (hs : s ∈ signatures) : s.encloses methodCall = false := by
  have hforeign : (signatures.take 4 ++ signatures.drop 5).all
      (fun s => s.shape.isForeign "$mail->nfo( ".toList) = true := by
    decide +kernel
  have halphabet : methodCall.all "$mail->nfo( ".toList.contains = true := by decide +kernel
  have hnames : ∀ {word : List Char}, (Name.oneOf ["logger", "error_log", "info"]).Spells word →
      (∀ c ∈ word, c ∈ methodCall) → word = "info".toList := by
    rintro _ ⟨hn⟩ hchars
    simp only [List.mem_cons, List.not_mem_nil, or_false] at hn
    rcases hn with rfl | rfl | rfl
    · exact absurd (hchars 'g' (by decide)) (by decide +kernel)
    · exact absurd (hchars 'e' (by decide)) (by decide +kernel)
    · rfl
  rw [Bool.eq_false_iff, Ne, Signature.encloses_eq_true_iff hs]
  rw [signatures_split, List.mem_append, List.mem_cons] at hs
  rcases hs with hs | rfl | hs
  · exact not_openIn_of_isForeign (List.all_eq_true.mp hforeign s (List.mem_append_left _ hs)) halphabet
  · rintro ⟨pre, text, rest, hcode, htext, -⟩
    have hchars : ∀ c ∈ text, c ∈ methodCall := fun c hc => by
      rw [hcode]
      exact List.mem_append_right _ (List.mem_append_left _ hc)
    generalize hlast : pre.getLast? = before at htext
    change (Shape.call .free (.oneOf ["logger", "error_log", "info"])).Occurs before text at htext
    cases htext with
    | start hcall =>
      obtain rfl := List.getLast?_eq_none_iff.mp hlast
      obtain ⟨hword, -⟩ := hcall
      obtain rfl := hnames hword fun c hc => hchars c (List.mem_append_left _ hc)
      cases congrArg List.head? hcode
    | @free _ _ c _ hc hcall =>
      obtain ⟨hword, -⟩ := hcall
      obtain rfl := hnames hword fun c hc => hchars c (List.mem_cons_of_mem _ (List.mem_append_left _ hc))
      rw [info_behind_arrow hcode] at hc
      simp [freesName] at hc
  · exact not_openIn_of_isForeign (List.all_eq_true.mp hforeign s (List.mem_append_right _ hs)) halphabet

/-- A category comes from a signature that encloses the end of the whole code before the place, or else from an
occurrence right at the start of the window, with a character cut off before it that continues a name, or makes it a
variable or a member. -/
theorem categoryBefore?_encloses_or_cut {before after : List Char} {category : Category}
    (h : categoryBefore? (utf8 (before ++ after)) (byteLength before) = some category) :
    ∃ s ∈ signatures, s.category = category ∧
      (s.encloses before = true ∨
        ∃ front c text rest, before = front ++ [c] ++ (text ++ rest) ∧ freesName c = false ∧
          window (utf8 (before ++ after)) (byteLength before) = utf8 (text ++ rest) ∧
          s.shape.Occurs none text ∧ s.shape.leavesOpen rest = true) := by
  obtain ⟨cut, w, hbefore, hw⟩ := window_suffix before after
  obtain ⟨s, hs, hcategory, hencloses⟩ := exists_of_categoryBefore? hw h
  refine ⟨s, hs, hcategory, ?_⟩
  rw [Signature.encloses_eq_true_iff hs] at hencloses ⊢
  rcases hencloses.uncut cut with hopen | ⟨front, c, text, rest, rfl, hc, rfl, htext, hopen⟩
  · rw [← hbefore] at hopen
    exact .inl hopen
  · exact .inr ⟨front, c, text, rest, hbefore, hc, hw, htext, hopen⟩

theorem categoryBefore?_encloses_or_cut_methodCall :
    categoryBefore? (utf8 (methodCall ++ [])) (byteLength methodCall) = some .logging ∧
      (∀ s ∈ signatures, s.encloses methodCall = false) ∧
      ∃ s ∈ signatures, s.category = .logging ∧
        (s.encloses methodCall = true ∨
          ∃ front c text rest, methodCall = front ++ [c] ++ (text ++ rest) ∧ freesName c = false ∧
            window (utf8 (methodCall ++ [])) (byteLength methodCall) = utf8 (text ++ rest) ∧
            s.shape.Occurs none text ∧ s.shape.leavesOpen rest = true) :=
  ⟨categoryBefore?_methodCall, fun _ => not_encloses_methodCall,
    categoryBefore?_encloses_or_cut categoryBefore?_methodCall⟩

end VisibleText.Code
