import Mathlib.Data.List.Basic
import VisibleText.FileSystem.Basic
import VisibleText.Record.Json

namespace VisibleText.Path

theorem piecesFrom_ne_nil (read : ℕ) (piece cs : List Char) : piecesFrom read piece cs ≠ [] := by
  induction cs generalizing read piece with
  | nil => simp [piecesFrom]
  | cons c cs ih =>
    rw [piecesFrom]
    split_ifs
    · simp
    · exact ih _ _

theorem piecesFrom_append (read : ℕ) (piece as bs : List Char) :
    piecesFrom read piece (as ++ '/' :: bs) =
      piecesFrom read piece as ++ piecesFrom (read + as.length + 1) [] bs := by
  induction as generalizing read piece with
  | nil => simp [piecesFrom]
  | cons c as ih =>
    have hread : read + (c :: as).length + 1 = read + 1 + as.length + 1 := by simp only [List.length_cons]; omega
    rw [List.cons_append, piecesFrom, piecesFrom, hread]
    split_ifs
    · rw [ih, List.cons_append]
    · exact ih _ _

theorem piecesFrom_of_notMem {cs : List Char} (h : '/' ∉ cs) (read : ℕ) (piece : List Char) :
    piecesFrom read piece cs = [(piece.reverse ++ cs, read + cs.length)] := by
  induction cs generalizing read piece with
  | nil => simp [piecesFrom]
  | cons c cs ih =>
    rw [List.mem_cons, not_or] at h
    rw [piecesFrom, if_neg (Ne.symm h.1), ih h.2]
    simp only [List.reverse_cons, List.append_assoc, List.singleton_append, List.length_cons]
    congr 2
    omega

theorem piecesFrom_singleton {cs : List Char} {x : List Char × ℕ} (h : piecesFrom 0 [] cs = [x]) : x.1 = cs := by
  have hslash : '/' ∉ cs := by
    intro hmem
    obtain ⟨as, bs, rfl⟩ := List.append_of_mem hmem
    rw [piecesFrom_append] at h
    have hlength := congrArg List.length h
    have has := List.length_pos_iff.mpr (piecesFrom_ne_nil 0 [] as)
    have hbs := List.length_pos_iff.mpr (piecesFrom_ne_nil (0 + as.length + 1) [] bs)
    rw [List.length_append, List.length_singleton] at hlength
    omega
  rw [piecesFrom_of_notMem hslash] at h
  rw [← List.singleton_inj.mp h]
  rfl

theorem piecesFrom_head {read : ℕ} {piece cs : List Char} {x : List Char × ℕ} {rest : List (List Char × ℕ)}
    (h : piecesFrom read piece cs = x :: rest) : ∃ more, x.1 = piece.reverse ++ more := by
  induction cs generalizing read piece with
  | nil =>
    obtain ⟨rfl, -⟩ := List.cons.inj h
    exact ⟨[], by simp⟩
  | cons c cs ih =>
    rw [piecesFrom] at h
    split_ifs at h
    · obtain ⟨rfl, -⟩ := List.cons.inj h
      exact ⟨[], by simp⟩
    · obtain ⟨more, hmore⟩ := ih h
      exact ⟨c :: more, by simpa using hmore⟩

theorem notMem_of_mem_piecesFrom {read : ℕ} {piece cs : List Char} {x : List Char × ℕ} (hp : '/' ∉ piece)
    (h : x ∈ piecesFrom read piece cs) : '/' ∉ x.1 := by
  induction cs generalizing read piece with
  | nil =>
    obtain rfl := List.mem_singleton.mp h
    simpa using hp
  | cons c cs ih =>
    rw [piecesFrom] at h
    split_ifs at h with hc
    · rcases List.mem_cons.mp h with rfl | h
      · simpa using hp
      · exact ih List.not_mem_nil h
    · exact ih (by simpa [hp] using Ne.symm hc) h

theorem piecesFrom_take {read : ℕ} {piece cs : List Char} {as bs : List (List Char × ℕ)} {x : List Char × ℕ}
    (h : piecesFrom read piece cs = as ++ x :: bs) :
    ∃ n, x.2 = read + n ∧ piecesFrom read piece (cs.take n) = as ++ [x] := by
  induction cs generalizing read piece as with
  | nil =>
    cases as with
    | nil =>
      obtain ⟨rfl, -⟩ := List.cons.inj h
      exact ⟨0, rfl, rfl⟩
    | cons a as => simp [piecesFrom] at h
  | cons c cs ih =>
    rw [piecesFrom] at h
    split_ifs at h with hc
    · cases as with
      | nil =>
        obtain ⟨rfl, -⟩ := List.cons.inj h
        exact ⟨0, rfl, rfl⟩
      | cons a as =>
        obtain ⟨rfl, htail⟩ := List.cons.inj h
        obtain ⟨n, hn, hpieces⟩ := ih htail
        exact ⟨n + 1, by omega, by rw [List.take_succ_cons, piecesFrom, if_pos hc, hpieces]; rfl⟩
    · obtain ⟨n, hn, hpieces⟩ := ih h
      exact ⟨n + 1, by omega, by rw [List.take_succ_cons, piecesFrom, if_neg hc, hpieces]⟩

def front (first : List Char × ℕ) (alone : Bool) : List (Component × ℕ) :=
  if first.1 = ['.'] then [(.current, first.2)]
  else if first.1 = [] then if alone then [] else [(.root, 1)]
  else ((component? first.1).map (·, first.2)).toList

def behind (pieces : List (List Char × ℕ)) : List (Component × ℕ) :=
  pieces.filterMap fun (piece, n) => (component? piece).map (·, n)

theorem located_eq {p : Path} {first : List Char × ℕ} {rest : List (List Char × ℕ)}
    (h : piecesFrom 0 [] p.text.toList = first :: rest) : p.located = front first rest.isEmpty ++ behind rest := by
  simp only [located, h, front, behind]
  split_ifs with _ _ halone
  · rfl
  · rw [List.isEmpty_iff.mp halone]
    rfl
  · rfl
  · rfl

theorem behind_append (as bs : List (List Char × ℕ)) : behind (as ++ bs) = behind as ++ behind bs :=
  List.filterMap_append

theorem front_length_le (first : List Char × ℕ) (alone : Bool) : (front first alone).length ≤ 1 := by
  rw [front]
  split_ifs
  · simp
  · simp
  · simp
  · cases component? first.1 <;> simp

theorem mem_front {first : List Char × ℕ} {alone : Bool} {x : Component × ℕ} (h : x ∈ front first alone) :
    x.1 = .current ∨ x.1 = .root ∨ component? first.1 = some x.1 := by
  rw [front] at h
  split_ifs at h
  · exact .inl (by rw [List.mem_singleton.mp h])
  · cases h
  · exact .inr (.inl (by rw [List.mem_singleton.mp h]))
  · obtain ⟨c, hc, rfl⟩ := Option.map_eq_some_iff.mp (Option.mem_toList.mp h)
    exact .inr (.inr hc)

theorem front_of_ne_nil {first : List Char × ℕ} (h : first.1 ≠ []) (a b : Bool) : front first a = front first b := by
  simp only [front, if_neg h]

theorem front_eq_singleton {first : List Char × ℕ} {alone : Bool} {x : Component × ℕ} (h : front first alone = [x]) :
    x = (.root, 1) ∧ first.1 = [] ∧ alone = false ∨ first.1 ≠ [] ∧ x.2 = first.2 := by
  rw [front] at h
  split_ifs at h with hdot hnil halone
  · obtain rfl := List.singleton_inj.mp h
    exact .inr ⟨by simp [hdot], rfl⟩
  · obtain rfl := List.singleton_inj.mp h
    exact .inl ⟨rfl, hnil, by simpa using halone⟩
  · obtain ⟨c, -, rfl⟩ := Option.map_eq_some_iff.mp (Option.toList_eq_singleton_iff.mp h)
    exact .inr ⟨hnil, rfl⟩

def upTo (p : Path) (n : ℕ) : Path := ⟨String.ofList (p.text.toList.take n)⟩

theorem upTo_pieces {p : Path} {as bs : List (List Char × ℕ)} {x : List Char × ℕ}
    (h : piecesFrom 0 [] p.text.toList = as ++ x :: bs) : piecesFrom 0 [] (p.upTo x.2).text.toList = as ++ [x] := by
  obtain ⟨n, hn, htake⟩ := piecesFrom_take h
  rw [Nat.zero_add] at hn
  rw [upTo, String.toList_ofList, hn, htake]

theorem upTo_root {p : Path} {n : ℕ} {rest : List (List Char × ℕ)}
    (h : piecesFrom 0 [] p.text.toList = ([], n) :: rest) (hrest : rest ≠ []) : p.upTo 1 = ⟨"/"⟩ := by
  cases hcs : p.text.toList with
  | nil =>
    rw [hcs] at h
    exact absurd (List.cons.inj h).2.symm hrest
  | cons c cs =>
    have hc : c = '/' := by
      by_contra hc
      rw [hcs, piecesFrom, if_neg hc] at h
      obtain ⟨more, hmore⟩ := piecesFrom_head h
      cases hmore
    rw [upTo, hcs, hc]
    rfl

theorem upTo_located {p : Path} {before after : List (Component × ℕ)} {x : Component × ℕ}
    (h : p.located = before ++ x :: after) : (p.upTo x.2).located = before ++ [x] := by
  obtain ⟨first, rest, hpieces⟩ := List.exists_cons_of_ne_nil (piecesFrom_ne_nil 0 [] p.text.toList)
  rw [located_eq hpieces] at h
  have hwhere : (∃ more, before = front first rest.isEmpty ++ more ∧ behind rest = more ++ x :: after) ∨
      before = [] ∧ front first rest.isEmpty = [x] := by
    rcases List.append_eq_append_iff.mp h with ⟨more, hbefore, hbehind⟩ | ⟨more, hfront, hbehind⟩
    · exact .inl ⟨more, hbefore, hbehind⟩
    · have hlen := front_length_le first rest.isEmpty
      cases more with
      | nil => exact .inl ⟨[], by simpa using hfront.symm, by simpa using hbehind.symm⟩
      | cons y ys =>
        obtain ⟨rfl, -⟩ := List.cons.inj hbehind
        rw [hfront, List.length_append, List.length_cons] at hlen
        obtain rfl : before = [] := List.length_eq_zero_iff.mp (by omega)
        obtain rfl : ys = [] := List.length_eq_zero_iff.mp (by omega)
        exact .inr ⟨rfl, hfront⟩
  rcases hwhere with ⟨more, rfl, hbehind⟩ | ⟨rfl, hfront⟩
  · obtain ⟨as, bs, rfl, rfl, hbs⟩ := List.filterMap_eq_append_iff.mp hbehind
    obtain ⟨skipped, y, bs, rfl, hnone, hy, -⟩ := List.filterMap_eq_cons_iff.mp hbs
    obtain ⟨c, -, rfl⟩ := Option.map_eq_some_iff.mp hy
    have hskipped : behind skipped = [] := List.filterMap_eq_nil_iff.mpr hnone
    have hlast : behind [y] = [(c, y.2)] := List.filterMap_cons_some hy
    have htake : piecesFrom 0 [] (p.upTo y.2).text.toList = first :: (as ++ (skipped ++ [y])) := by
      have hsplit : first :: (as ++ (skipped ++ y :: bs)) = first :: (as ++ skipped) ++ y :: bs := by
        rw [List.cons_append, List.append_assoc]
      rw [upTo_pieces (hpieces.trans hsplit), List.cons_append, List.append_assoc]
    have hempty : (as ++ (skipped ++ y :: bs)).isEmpty = (as ++ (skipped ++ [y])).isEmpty := by
      cases as <;> cases skipped <;> rfl
    rw [located_eq htake, behind_append, behind_append, hskipped, hlast, ← hempty, List.nil_append, List.append_assoc]
    rfl
  · rcases front_eq_singleton hfront with ⟨rfl, hfirst, hrest⟩ | ⟨hne, hx⟩
    · obtain ⟨piece, n⟩ := first
      obtain rfl : piece = [] := hfirst
      rw [upTo_root hpieces (by simpa using hrest)]
      decide
    · have htake : piecesFrom 0 [] (p.upTo x.2).text.toList = [first] := by
        rw [hx, upTo_pieces (hpieces.trans (List.nil_append _).symm), List.nil_append]
      rw [located_eq htake, List.nil_append, ← hfront, front_of_ne_nil hne _ rest.isEmpty]
      exact List.append_nil _

theorem parent?_components {p base : Path} (h : p.parent? = some base) :
    base.components = p.components.dropLast := by
  unfold parent? at h
  split at h
  · cases h
  · cases h
  · next x _ hlocated =>
    obtain rfl := Option.some.inj h
    have hone : p.located = [x] := List.reverse_eq_iff.mp hlocated
    have hnone : located ⟨""⟩ = [] := by decide
    rw [components, components, hone, hnone]
    rfl
  · next x c n before _ hlocated =>
    obtain rfl := Option.some.inj h
    have hsplit : p.located = before.reverse ++ (c, n) :: [x] := by
      rw [List.reverse_eq_iff.mp hlocated]
      simp
    have hbase := upTo_located hsplit
    have hwhole : before.reverse ++ [(c, n), x] = (before.reverse ++ [(c, n)]) ++ [x] := by simp
    rw [components, components, hsplit, hwhole, List.map_append, List.map_singleton, List.dropLast_concat, ← hbase]
    rfl

theorem parent?_of_fileName? {p : Path} {name : String} (h : p.fileName? = some name) : ∃ base, p.parent? = some base := by
  unfold fileName? at h
  split at h
  · next n hlast =>
    rw [components, List.getLast?_map, Option.map_eq_some_iff] at hlast
    obtain ⟨⟨c, k⟩, hlast, rfl⟩ := hlast
    rw [List.getLast?_eq_head?_reverse] at hlast
    unfold parent?
    split
    · next hnil => simp [hnil] at hlast
    · next hroot => simp [hroot] at hlast
    · exact ⟨_, rfl⟩
    · exact ⟨_, rfl⟩
  · cases h

theorem components_of_fileName? {p : Path} {name : String} (h : p.fileName? = some name) :
    p.components = p.components.dropLast ++ [.name name] := by
  unfold fileName? at h
  split at h
  · next n hlast =>
    obtain rfl := Option.some.inj h
    exact (List.dropLast_append_getLast? _ hlast).symm
  · cases h

structure IsName (name : List Char) : Prop where
  notMem : '/' ∉ name
  ne_nil : name ≠ []
  ne_dot : name ≠ ['.']
  ne_dots : name ≠ ['.', '.']

theorem IsName.component?_eq {name : List Char} (h : IsName name) :
    component? name = some (.name (String.ofList name)) := by
  simp [component?, h.ne_nil, h.ne_dot, h.ne_dots]

theorem component?_eq_name {piece : List Char} {name : String} (h : component? piece = some (.name name)) :
    piece = name.toList ∧ piece ≠ [] ∧ piece ≠ ['.'] ∧ piece ≠ ['.', '.'] := by
  unfold component? at h
  split_ifs at h with hempty hdots
  · cases h
  · rw [not_or] at hempty
    obtain rfl := Component.name.inj (Option.some.inj h)
    exact ⟨(String.toList_ofList).symm, hempty.1, hempty.2, hdots⟩

theorem isName_of_fileName? {p : Path} {name : String} (h : p.fileName? = some name) : IsName name.toList := by
  obtain ⟨first, rest, hpieces⟩ := List.exists_cons_of_ne_nil (piecesFrom_ne_nil 0 [] p.text.toList)
  have hmem : Component.name name ∈ p.components := by
    rw [components_of_fileName? h]
    simp
  obtain ⟨x, hx, hname⟩ := List.mem_map.mp hmem
  rw [located_eq hpieces, List.mem_append] at hx
  have hpiece : ∃ y ∈ first :: rest, component? y.1 = some (.name name) := by
    rcases hx with hx | hx
    · rcases mem_front hx with hc | hc | hc
      · rw [hname] at hc
        cases hc
      · rw [hname] at hc
        cases hc
      · exact ⟨first, List.mem_cons_self, hname ▸ hc⟩
    · obtain ⟨y, hy, hxy⟩ := List.mem_filterMap.mp hx
      obtain ⟨c, hc, rfl⟩ := Option.map_eq_some_iff.mp hxy
      exact ⟨y, List.mem_cons_of_mem _ hy, hname ▸ hc⟩
  obtain ⟨y, hy, hc⟩ := hpiece
  obtain ⟨heq, hne, hdot, hdots⟩ := component?_eq_name hc
  rw [← hpieces] at hy
  exact heq ▸ ⟨notMem_of_mem_piecesFrom List.not_mem_nil hy, hne, hdot, hdots⟩

theorem IsName.components_eq {name : String} (h : IsName name.toList) : components ⟨name⟩ = [.name name] := by
  have hpieces : piecesFrom 0 [] (Path.mk name).text.toList = [(name.toList, 0 + name.toList.length)] :=
    piecesFrom_of_notMem h.notMem 0 []
  rw [components, located_eq hpieces, front]
  simp [h.ne_nil, h.ne_dot, h.component?_eq, behind]

theorem components_of_pieces {p : Path} {name : List Char} {first : List Char × ℕ} {rest : List (List Char × ℕ)} {n : ℕ}
    (hp : piecesFrom 0 [] p.text.toList = first :: rest ++ [(name, n)]) (h : IsName name) :
    p.components = (front first false ++ behind rest).map Prod.fst ++ [.name (String.ofList name)] := by
  have hlast : behind [(name, n)] = [(.name (String.ofList name), n)] := by simp [behind, h.component?_eq]
  have hempty : (rest ++ [(name, n)]).isEmpty = false := by cases rest <;> rfl
  rw [List.cons_append] at hp
  rw [components, located_eq hp, behind_append, hlast, hempty, ← List.append_assoc, List.map_append, List.map_singleton]

theorem join_text (base : Path) {name : String} (h : IsName name.toList) (hne : base.text ≠ "") :
    ∃ lead, (base.join ⟨name⟩).text.toList = lead ++ '/' :: name.toList ∧
      (base.text.toList = lead ++ ['/'] ∨ base.text.toList = lead ∧ lead ≠ []) := by
  have habsolute : isAbsolute ⟨name⟩ = false := by rw [isAbsolute, h.components_eq]; rfl
  have hempty : base.text.isEmpty = false := by simpa using hne
  rw [join, habsolute, hempty]
  simp only [Bool.or_self, Bool.false_eq_true, ↓reduceIte]
  split_ifs with hslash
  · refine ⟨base.text.toList.dropLast, ?_, .inl (List.dropLast_append_getLast? _ hslash).symm⟩
    rw [String.toList_append]
    conv_lhs => rw [← List.dropLast_append_getLast? _ hslash]
    simp
  · exact ⟨base.text.toList, by simp, .inr ⟨rfl, by simpa using hne⟩⟩

theorem join_components (base : Path) {name : String} (h : IsName name.toList) :
    (base.join ⟨name⟩).components = base.components ++ [.name name] := by
  by_cases hne : base.text = ""
  · have hbase : base.components = [] := by
      rw [components, show base = ⟨""⟩ from congrArg Path.mk hne]
      decide
    have hjoin : base.join ⟨name⟩ = ⟨name⟩ := by simp [join, hne]
    rw [hjoin, h.components_eq, hbase]
    rfl
  · obtain ⟨lead, htext, hlead⟩ := join_text base h hne
    obtain ⟨first, rest, hpieces⟩ := List.exists_cons_of_ne_nil (piecesFrom_ne_nil 0 [] lead)
    have hjoin : piecesFrom 0 [] (base.join ⟨name⟩).text.toList =
        first :: rest ++ [(name.toList, 0 + lead.length + 1 + name.toList.length)] := by
      rw [htext, piecesFrom_append, hpieces, piecesFrom_of_notMem h.notMem]
      rfl
    rw [components_of_pieces hjoin h, String.ofList_toList]
    congr 1
    rcases hlead with hslash | ⟨hbase, hlead⟩
    · have hbase : piecesFrom 0 [] base.text.toList = first :: (rest ++ [([], 0 + lead.length + 1)]) := by
        rw [hslash, piecesFrom_append, hpieces]
        rfl
      have hempty : (rest ++ [([], 0 + lead.length + 1)]).isEmpty = false := by cases rest <;> rfl
      rw [components, located_eq hbase, hempty, behind_append]
      simp [behind, component?]
    · rw [components, located_eq (hbase ▸ hpieces)]
      cases rest with
      | nil => rw [front_of_ne_nil (piecesFrom_singleton hpieces ▸ hlead) false [].isEmpty]
      | cons y rest => rfl

def Component.step? : Component → Option String
  | .root => none
  | .current => none
  | .parent => some ".."
  | .name n => some n

def pieceStep? (piece : List Char × ℕ) : Option String :=
  if piece.1 = [] ∨ piece.1 = ['.'] then none else some (String.ofList piece.1)

theorem component?_step? (piece : List Char) (n : ℕ) : (component? piece).bind Component.step? = pieceStep? (piece, n) := by
  unfold component? pieceStep?
  split_ifs with hempty hdots
  · rfl
  · simp [Component.step?, hdots]
  · rfl

theorem behind_steps (pieces : List (List Char × ℕ)) :
    (behind pieces).filterMap (Component.step? ∘ Prod.fst) = pieces.filterMap pieceStep? := by
  rw [behind, List.filterMap_filterMap]
  apply List.filterMap_congr
  rintro ⟨piece, n⟩ -
  rw [← component?_step?]
  dsimp only
  cases component? piece <;> rfl

theorem front_steps (first : List Char × ℕ) (alone : Bool) :
    (front first alone).filterMap (Component.step? ∘ Prod.fst) = (pieceStep? first).toList := by
  rw [front]
  split_ifs with hdot hnil halone
  · simp [pieceStep?, hdot, Component.step?]
  · simp [pieceStep?, hnil]
  · simp [pieceStep?, hnil, Component.step?]
  · rw [← component?_step? first.1 first.2]
    cases component? first.1 with
    | none => rfl
    | some c => cases c <;> rfl

theorem names_filter (pieces : List (List Char × ℕ)) :
    ((pieces.map fun piece => String.ofList piece.1).filter fun s => !s.isEmpty).filter (· ≠ ".") =
      pieces.filterMap pieceStep? := by
  induction pieces with
  | nil => rfl
  | cons x pieces ih =>
    have hdot : String.ofList x.1 = "." ↔ x.1 = ['.'] := by rw [← String.toList_inj, String.toList_ofList]; rfl
    have hempty : (String.ofList x.1).isEmpty = true ↔ x.1 = [] := by simp [← String.toList_inj]
    rw [List.map_cons, List.filterMap_cons, pieceStep?]
    by_cases hx : x.1 = [] <;> by_cases hx' : x.1 = ['.'] <;> simp_all

theorem steps_filter (p : Path) :
    (FileSystem.steps p).filter (· ≠ ".") = p.components.filterMap Component.step? := by
  obtain ⟨first, rest, hpieces⟩ := List.exists_cons_of_ne_nil (piecesFrom_ne_nil 0 [] p.text.toList)
  have hcomponents : p.components.filterMap Component.step? = (first :: rest).filterMap pieceStep? := by
    rw [components, located_eq hpieces, List.filterMap_map, List.filterMap_append, front_steps, behind_steps,
      List.filterMap_cons]
    cases pieceStep? first <;> rfl
  simp only [hcomponents, ← names_filter, FileSystem.steps, hpieces]
  split_ifs
  · simp
  · rfl

theorem steps_concat {p : Path} {as : List (List Char × ℕ)} {name : List Char} {n : ℕ}
    (hp : piecesFrom 0 [] p.text.toList = as ++ [(name, n)]) (hne : name ≠ []) :
    ∃ above, FileSystem.steps p = above ++ [String.ofList name] := by
  have hname : (String.ofList name).isEmpty = false := by simpa [← String.toList_inj] using hne
  have hlast : String.ofList name ≠ "" := by simpa [← String.toList_inj] using hne
  refine ⟨(as.map fun piece => String.ofList piece.1).filter fun s => !s.isEmpty, ?_⟩
  simp [FileSystem.steps, hp, hname, hlast]

theorem join_steps (base : Path) {name : String} (h : IsName name.toList) :
    ∃ above, FileSystem.steps (base.join ⟨name⟩) = above ++ [name] := by
  by_cases hne : base.text = ""
  · have hjoin : base.join ⟨name⟩ = ⟨name⟩ := by simp [join, hne]
    have hpieces := piecesFrom_of_notMem h.notMem 0 []
    rw [hjoin]
    simpa using steps_concat (p := ⟨name⟩) (hpieces.trans (List.nil_append _).symm) h.ne_nil
  · obtain ⟨lead, htext, -⟩ := join_text base h hne
    have hpieces : piecesFrom 0 [] (base.join ⟨name⟩).text.toList =
        piecesFrom 0 [] lead ++ [(name.toList, 0 + lead.length + 1 + name.toList.length)] := by
      rw [htext, piecesFrom_append, piecesFrom_of_notMem h.notMem]
      rfl
    simpa using steps_concat hpieces h.ne_nil

def numberedName (name : String) (n : ℕ) : String :=
  if n ≤ 1 then name
  else match (splitName name).2 with
    | some e => (splitName name).1 ++ "-" ++ toString n ++ "." ++ e
    | none => (splitName name).1 ++ "-" ++ toString n

theorem numbered_one (p : Path) : p.numbered 1 = p := rfl

theorem numbered_eq {p : Path} {name : String} (h : p.fileName? = some name) {n : ℕ} (hn : 2 ≤ n) :
    ∃ base, p.parent? = some base ∧ p.numbered n = base.join ⟨numberedName name n⟩ := by
  obtain ⟨base, hbase⟩ := parent?_of_fileName? h
  refine ⟨base, hbase, ?_⟩
  have hnot : ¬ n ≤ 1 := by omega
  simp only [numbered, numberedName, if_neg hnot, stem?, extension?, h, Option.map_some, Option.getD_some,
    Option.bind_some, withFileName, hbase]
  cases (splitName name).2 <;> rfl

theorem splitName_spec (name : String) :
    (splitName name).2 = none ∧ (splitName name).1 = name ∨
      ∃ e, (splitName name).2 = some e ∧ name = (splitName name).1 ++ "." ++ e := by
  simp only [splitName]
  split
  · exact .inl ⟨rfl, rfl⟩
  · exact .inl ⟨rfl, rfl⟩
  · next c stem _ hdrop =>
    right
    refine ⟨_, rfl, ?_⟩
    have hc : c = '.' := by
      have hhead := List.head?_dropWhile_not (· != '.') name.toList.reverse
      rw [hdrop] at hhead
      simpa using hhead
    have hsplit := List.takeWhile_append_dropWhile (p := (· != '.')) (l := name.toList.reverse)
    rw [hdrop, hc] at hsplit
    have hwhole := congrArg List.reverse hsplit
    rw [List.reverse_reverse] at hwhole
    rw [← String.toList_inj]
    refine hwhole.symm.trans ?_
    simp

theorem numberedName_split (name : String) : ∃ stem tail, name = stem ++ tail ∧
    ∀ n, 2 ≤ n → numberedName name n = stem ++ "-" ++ toString n ++ tail := by
  rcases splitName_spec name with ⟨hext, hstem⟩ | ⟨e, hext, hname⟩
  · refine ⟨name, "", by simp, fun n hn => ?_⟩
    have hnot : ¬ n ≤ 1 := by omega
    simp [numberedName, hnot, hext, hstem]
  · refine ⟨(splitName name).1, "." ++ e, by rw [← String.append_assoc]; exact hname, fun n hn => ?_⟩
    have hnot : ¬ n ≤ 1 := by omega
    simp only [numberedName, if_neg hnot, hext, String.append_assoc]

theorem numberedName_ne {name : String} {n : ℕ} (hn : 2 ≤ n) : numberedName name n ≠ name := by
  obtain ⟨stem, tail, hname, hnumbered⟩ := numberedName_split name
  intro h
  rw [hnumbered n hn] at h
  have hlength := congrArg String.length (h.trans hname)
  have hdash : "-".length = 1 := rfl
  simp only [String.length_append, hdash] at hlength
  omega

theorem numberedName_injective {name : String} {m n : ℕ} (hm : 1 ≤ m) (hn : 1 ≤ n)
    (h : numberedName name m = numberedName name n) : m = n := by
  have hone : numberedName name 1 = name := rfl
  rcases Nat.eq_or_lt_of_le hm with rfl | hm <;> rcases Nat.eq_or_lt_of_le hn with rfl | hn
  · rfl
  · exact absurd (h.symm.trans hone) (numberedName_ne hn)
  · exact absurd (h.trans hone) (numberedName_ne hm)
  · obtain ⟨stem, tail, -, hnumbered⟩ := numberedName_split name
    rw [hnumbered m hm, hnumbered n hn, String.append_left_inj, String.append_right_inj] at h
    have hvalue := congrArg (fun s : String => Nat.ofDigitChars 10 s.toList 0) h
    simpa using hvalue

theorem isName_numberedName {name : String} (h : IsName name.toList) (n : ℕ) : IsName (numberedName name n).toList := by
  by_cases hn : n ≤ 1
  · simpa [numberedName, hn] using h
  · obtain ⟨stem, tail, rfl, hnumbered⟩ := numberedName_split name
    rw [hnumbered n (by omega)]
    have hdash : '-' ∈ (stem ++ "-" ++ toString n ++ tail).toList := by simp
    have hdigits : '/' ∉ (toString n).toList := by
      intro hmem
      rw [Nat.toString_eq_repr, Nat.toList_repr] at hmem
      exact absurd (Nat.isDigit_of_mem_toDigits (by decide) (by decide) hmem) (by decide)
    constructor
    · have := h.notMem
      simp only [String.toList_append, List.mem_append, not_or] at this ⊢
      exact ⟨⟨⟨this.1, by decide⟩, hdigits⟩, this.2⟩
    · exact List.ne_nil_of_mem hdash
    · intro heq
      rw [heq] at hdash
      exact absurd hdash (by decide)
    · intro heq
      rw [heq] at hdash
      exact absurd hdash (by decide)

theorem numbered_components {p : Path} {name : String} (h : p.fileName? = some name) (n : ℕ) :
    (p.numbered n).components = p.components.dropLast ++ [.name (numberedName name n)] := by
  by_cases hn : n ≤ 1
  · have hp : p.numbered n = p := by simp [numbered, hn]
    have hname : numberedName name n = name := by simp [numberedName, hn]
    rw [hp, hname]
    exact components_of_fileName? h
  · obtain ⟨base, hbase, hnumbered⟩ := numbered_eq h (show 2 ≤ n by omega)
    rw [hnumbered, join_components base (isName_numberedName (isName_of_fileName? h) n), parent?_components hbase]

theorem numbered_injective {p : Path} {name : String} (h : p.fileName? = some name) {m n : ℕ} (hm : 1 ≤ m)
    (hn : 1 ≤ n) (heq : (p.numbered m).components = (p.numbered n).components) : m = n := by
  rw [numbered_components h, numbered_components h] at heq
  have hname := Component.name.inj (List.singleton_inj.mp (List.append_cancel_left heq))
  exact numberedName_injective hm hn hname

end VisibleText.Path
