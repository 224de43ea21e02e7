import Mathlib.Data.List.Basic
import Mathlib.Data.List.Induction
import Mathlib.Data.List.Perm.Basic
import VisibleText.Record.Basic

/-!
Catalogs are groupings. Whatever is added in whatever order, a catalog has one record for each text
in the order of first appearance, in it one occurrence for each file in the same order, and in that
the positions as they were added.
-/
namespace VisibleText

section Groups

variable {α κ : Type} [DecidableEq κ]

def groups (key : α → κ) (xs : List α) : List (κ × List α) :=
  (xs.map key).eraseDups.map fun k => (k, xs.filter fun x => key x = k)

theorem eraseDups_concat (ks : List κ) (k : κ) :
    (ks ++ [k]).eraseDups = if k ∈ ks then ks.eraseDups else ks.eraseDups ++ [k] := by
  rw [List.eraseDups_append]
  by_cases h : k ∈ ks <;> simp [List.removeAll, List.eraseDups_cons, h]

theorem nodup_eraseDups (ks : List κ) : ks.eraseDups.Nodup := by
  induction ks using List.reverseRecOn with
  | nil => simp
  | append_singleton ks k ih =>
    rw [eraseDups_concat]
    split_ifs with h
    · exact ih
    · rw [List.nodup_append]
      refine ⟨ih, by simp, ?_⟩
      rintro a ha b hb rfl
      rw [List.mem_singleton.mp hb] at ha
      exact h (List.mem_eraseDups.mp ha)

theorem groups_keys (key : α → κ) (xs : List α) : (groups key xs).map Prod.fst = (xs.map key).eraseDups := by
  simp [groups, Function.comp_def]

theorem groups_nodup (key : α → κ) (xs : List α) : ((groups key xs).map Prod.fst).Nodup := by
  rw [groups_keys]
  exact nodup_eraseDups _

theorem mem_groups_keys (key : α → κ) (xs : List α) (k : κ) :
    k ∈ (groups key xs).map Prod.fst ↔ ∃ x ∈ xs, key x = k := by
  rw [groups_keys, List.mem_eraseDups, List.mem_map]

theorem eraseDups_perm {ks js : List κ} (h : ks.Perm js) : ks.eraseDups.Perm js.eraseDups := by
  rw [List.perm_ext_iff_of_nodup (nodup_eraseDups ks) (nodup_eraseDups js)]
  intro k
  rw [List.mem_eraseDups, List.mem_eraseDups, h.mem_iff]

theorem groups_perm_of_same {key : α → κ} {xs ys : List α} (h : xs.Perm ys)
    (hsame : ∀ k, (xs.filter fun x => key x = k) = ys.filter fun x => key x = k) :
    (groups key xs).Perm (groups key ys) := by
  simp only [groups, hsame]
  exact (eraseDups_perm (h.map key)).map _

theorem groups_concat_new (key : α → κ) (xs : List α) (x : α) (h : ∀ y ∈ xs, key y ≠ key x) :
    groups key (xs ++ [x]) = groups key xs ++ [(key x, [x])] := by
  have hk : key x ∉ xs.map key := by
    rintro hm
    obtain ⟨y, hy, he⟩ := List.mem_map.mp hm
    exact h y hy he
  have hold : ∀ k ∈ (xs.map key).eraseDups, key x ≠ k := by
    rintro k hk' rfl
    exact hk (List.mem_eraseDups.mp hk')
  have hnone : xs.filter (fun y => key y = key x) = [] := by
    simpa [List.filter_eq_nil_iff] using h
  simp only [groups, List.map_append, List.map_cons, List.map_nil, eraseDups_concat, if_neg hk,
    List.filter_append, hnone, List.nil_append]
  congr 1
  · apply List.map_congr_left
    intro k hk'
    simp [hold k hk']
  · simp

theorem groups_concat_old (key : α → κ) (xs : List α) (x : α) (h : ∃ y ∈ xs, key y = key x) :
    groups key (xs ++ [x]) =
      (groups key xs).map fun g => if g.1 = key x then (g.1, g.2 ++ [x]) else g := by
  have hk : key x ∈ xs.map key := by
    obtain ⟨y, hy, he⟩ := h
    exact List.mem_map.mpr ⟨y, hy, he⟩
  simp only [groups, List.map_append, List.map_cons, List.map_nil, eraseDups_concat, if_pos hk,
    List.map_map]
  apply List.map_congr_left
  intro k hk'
  by_cases he : k = key x
  · simp [List.filter_append, he]
  · simp [List.filter_append, he, Ne.symm he]

theorem groups_perm (key : α → κ) (xs : List α) : ((groups key xs).flatMap Prod.snd).Perm xs := by
  have general : ∀ (ks : List κ) (xs : List α), ks.Nodup → (∀ x ∈ xs, key x ∈ ks) →
      (ks.flatMap fun k => xs.filter fun x => key x = k).Perm xs := by
    intro ks
    induction ks with
    | nil =>
      intro xs _ hall
      cases xs with
      | nil => simp
      | cons x xs => simpa using hall x (by simp)
    | cons k ks ih =>
      intro xs hn hall
      obtain ⟨hk, hn⟩ := List.nodup_cons.mp hn
      have hrest : (ks.flatMap fun j => xs.filter fun x => key x = j) =
          ks.flatMap fun j => (xs.filter fun x => ¬ key x = k).filter fun x => key x = j := by
        apply List.flatMap_congr
        intro j hj
        rw [List.filter_filter]
        apply List.filter_congr
        intro x _
        have hne : j ≠ k := fun he => hk (he ▸ hj)
        by_cases hx : key x = j <;> simp [hx, hne]
      rw [List.flatMap_cons, hrest]
      have htail := ih (xs.filter fun x => ¬ key x = k) hn (by
        intro x hx
        obtain ⟨hx, hne⟩ := List.mem_filter.mp hx
        have := hall x hx
        simp_all)
      refine (htail.append_left _).trans ?_
      simpa using List.filter_append_perm (fun x => decide (key x = k)) xs
  have h := general _ xs (nodup_eraseDups (xs.map key)) (by
    intro x hx
    exact List.mem_eraseDups.mpr (List.mem_map_of_mem hx))
  simpa [groups, List.flatMap_map] using h

end Groups

theorem modify_eq_map {α κ : Type} [DecidableEq κ] (key : α → κ) (f : α → α) (xs : List α) (i : ℕ) (x : α)
    (hn : (xs.map key).Nodup) (hi : xs[i]? = some x) :
    xs.modify i f = xs.map fun y => if key y = key x then f y else y := by
  induction xs generalizing i with
  | nil => simp at hi
  | cons y ys ih =>
    obtain ⟨hy, hn⟩ := List.nodup_cons.mp hn
    cases i with
    | zero =>
      obtain rfl : y = x := by simpa using hi
      have hrest : ys.map (fun z => if key z = key y then f z else z) = ys := by
        conv_rhs => rw [← List.map_id ys]
        apply List.map_congr_left
        intro z hz
        have hne : key z ≠ key y := fun he => hy (he ▸ List.mem_map_of_mem hz)
        simp [hne]
      simp [hrest]
    | succ i =>
      have hi : ys[i]? = some x := by simpa using hi
      have hne : key y ≠ key x := fun he => hy (he ▸ List.mem_map_of_mem (List.mem_of_getElem? hi))
      simp [hne, ih i hn hi]

structure Finding where
  file : String
  text : String
  position : Position
deriving DecidableEq, Repr, Inhabited

def FileTexts.findings (f : FileTexts) : List Finding := f.texts.map fun (text, p) => ⟨f.file, text, p⟩

def Record.findings (r : Record) : List Finding :=
  r.occurrences.flatMap fun o => o.positions.map fun p => ⟨o.file, r.text, p⟩

def Record.ofGroup (g : String × List Finding) : Record :=
  ⟨g.1, (groups Finding.file g.2).map fun h => ⟨h.1, h.2.map Finding.position⟩⟩

namespace Catalog

def ofFindings (xs : List Finding) : Catalog :=
  xs.foldl (fun c x => c.add x.file x.text x.position) empty

/-- The index gives each text the slot of its record, and nothing else. -/
def Indexed (c : Catalog) : Prop :=
  ∀ (text : String) (i : ℕ), c.index[text]? = some i ↔ (c.records.map Record.text)[i]? = some text

end Catalog

namespace Occurrence

theorem slot?_some {file : String} {os : List Occurrence} {i : ℕ} (h : slot? file os = some i) :
    ∃ o, os[i]? = some o ∧ o.file = file := by
  unfold slot? at h
  split_ifs at h with hlast
  · cases hl : os.getLast? with
    | none => simp [hl] at hlast
    | some o =>
      obtain rfl : os.length - 1 = i := by simpa using h
      exact ⟨o, by rw [← List.getLast?_eq_getElem?, hl], by simpa [hl] using hlast⟩
  · obtain ⟨hi, hf, _⟩ := List.findIdx?_eq_some_iff_getElem.mp h
    exact ⟨os[i], List.getElem?_eq_getElem hi, by simpa using hf⟩

theorem slot?_none {file : String} {os : List Occurrence} (h : slot? file os = none) :
    ∀ o ∈ os, o.file ≠ file := by
  unfold slot? at h
  split_ifs at h
  simpa using List.findIdx?_eq_none_iff.mp h

end Occurrence

theorem Record.add_ofGroup (text : String) (xs : List Finding) (x : Finding) :
    (Record.ofGroup (text, xs)).add x.file x.position = .ofGroup (text, xs ++ [x]) := by
  set os := (Record.ofGroup (text, xs)).occurrences with hos
  have hfiles : os.map Occurrence.file = (groups Finding.file xs).map Prod.fst := by
    simp [hos, Record.ofGroup, Function.comp_def]
  unfold Record.add
  rw [← hos]
  cases hs : Occurrence.slot? x.file os with
  | some i =>
    obtain ⟨o, hi, hf⟩ := Occurrence.slot?_some hs
    have hn : (os.map Occurrence.file).Nodup := hfiles ▸ groups_nodup _ _
    have hold : ∃ y ∈ xs, y.file = x.file := by
      rw [← mem_groups_keys, ← hfiles, ← hf]
      exact List.mem_map_of_mem (List.mem_of_getElem? hi)
    simp only [modify_eq_map Occurrence.file _ os i o hn hi, hf]
    simp only [hos, Record.ofGroup, groups_concat_old _ _ _ hold, List.map_map]
    congr 1
    apply List.map_congr_left
    intro g _
    by_cases hg : g.1 = x.file <;> simp [hg, Occurrence.push]
  | none =>
    have hnew : ∀ y ∈ xs, y.file ≠ x.file := by
      intro y hy hf
      have hm : x.file ∈ os.map Occurrence.file := by
        rw [hfiles, mem_groups_keys]
        exact ⟨y, hy, hf⟩
      obtain ⟨o, ho, hf⟩ := List.mem_map.mp hm
      exact Occurrence.slot?_none hs o ho hf
    simp only [hos, Record.ofGroup, groups_concat_new _ _ _ hnew]
    simp

theorem Record.add_text (r : Record) (file : String) (p : Position) : (r.add file p).text = r.text := by
  unfold Record.add
  split <;> rfl

namespace Catalog

theorem empty_indexed : empty.Indexed := by
  intro text i
  simp [empty]

theorem modify_indexed {c : Catalog} (h : c.Indexed) (i : ℕ) (file : String) (p : Position) :
    ({ c with records := c.records.modify i (·.add file p) } : Catalog).Indexed := by
  have htexts : (c.records.modify i (·.add file p)).map Record.text = c.records.map Record.text := by
    apply List.ext_getElem?
    intro j
    simp only [List.getElem?_map, List.getElem?_modify]
    cases c.records[j]? with
    | none => rfl
    | some r => by_cases hj : i = j <;> simp [hj, Record.add_text]
  intro text j
  rw [htexts]
  exact h text j

theorem insert_indexed {c : Catalog} (h : c.Indexed) (text : String) (hnew : text ∉ c.records.map Record.text) :
    (⟨c.records ++ [⟨text, []⟩], c.index.insert text c.size⟩ : Catalog).Indexed := by
  intro t i
  simp only [Std.HashMap.getElem?_insert, beq_iff_eq, List.map_append, List.map_cons, List.map_nil]
  by_cases hi : i < c.size
  · rw [List.getElem?_append_left (by simpa [size] using hi)]
    by_cases ht : text = t
    · subst ht
      have hne : (c.records.map Record.text)[i]? ≠ some text := fun he => hnew (List.mem_of_getElem? he)
      simp only [↓reduceIte, hne, Option.some.injEq, iff_false]
      omega
    · rw [if_neg ht]
      exact h t i
  · have hold : c.index[t]? ≠ some i := by
      intro he
      have hlt := (List.getElem?_eq_some_iff.mp ((h t i).mp he)).1
      exact hi (by simpa [size] using hlt)
    rw [List.getElem?_append_right (by simpa [size] using hi), List.getElem?_singleton]
    simp only [List.length_map]
    by_cases ht : text = t
    · simp only [ht, ↓reduceIte, Option.some.injEq, size] at hi ⊢
      split_ifs <;> simp <;> omega
    · simp [ht, hold]

theorem slot_old {c : Catalog} (h : c.Indexed) {text : String} (ht : text ∈ c.records.map Record.text) :
    ∃ i r, c.slot text = (i, c) ∧ c.records[i]? = some r ∧ r.text = text := by
  obtain ⟨i, hi⟩ := List.getElem?_of_mem ht
  obtain ⟨r, hr, hrt⟩ : ∃ r, c.records[i]? = some r ∧ r.text = text := by simpa using hi
  exact ⟨i, r, by simp [slot, (h text i).mpr hi], hr, hrt⟩

theorem slot_new {c : Catalog} (h : c.Indexed) {text : String} (ht : text ∉ c.records.map Record.text) :
    c.slot text = (c.size, ⟨c.records ++ [⟨text, []⟩], c.index.insert text c.size⟩) := by
  have hnone : c.index[text]? = none := by
    cases hs : c.index[text]? with
    | none => rfl
    | some i => exact absurd (List.mem_of_getElem? ((h text i).mp hs)) ht
  simp [slot, hnone]

theorem add_indexed {c : Catalog} (h : c.Indexed) (file text : String) (p : Position) :
    (c.add file text p).Indexed := by
  by_cases ht : text ∈ c.records.map Record.text
  · obtain ⟨i, r, hs, _⟩ := slot_old h ht
    simp only [add, hs]
    exact modify_indexed h i file p
  · simp only [add, slot_new h ht]
    exact modify_indexed (insert_indexed h text ht) c.size file p

theorem add_records {c : Catalog} {xs : List Finding} (hc : c.Indexed)
    (h : c.records = (groups Finding.text xs).map Record.ofGroup) (x : Finding) :
    (c.add x.file x.text x.position).records = (groups Finding.text (xs ++ [x])).map Record.ofGroup := by
  have htexts : c.records.map Record.text = (groups Finding.text xs).map Prod.fst := by
    simp [h, Record.ofGroup, Function.comp_def]
  by_cases ht : x.text ∈ c.records.map Record.text
  · obtain ⟨i, r, hs, hi, hr⟩ := slot_old hc ht
    have hn : (c.records.map Record.text).Nodup := htexts ▸ groups_nodup _ _
    have hold : ∃ y ∈ xs, y.text = x.text := by rwa [← mem_groups_keys, ← htexts]
    simp only [add, hs, modify_eq_map Record.text _ _ _ _ hn hi, hr, groups_concat_old _ _ _ hold]
    rw [h, List.map_map, List.map_map]
    apply List.map_congr_left
    rintro ⟨k, ys⟩ _
    by_cases hk : k = x.text
    · have htext : (Record.ofGroup (x.text, ys)).text = x.text := rfl
      simp only [Function.comp_apply, hk, ↓reduceIte, ← Record.add_ofGroup, htext]
    · simp [Record.ofGroup, hk]
  · have hnew : ∀ y ∈ xs, y.text ≠ x.text := by
      intro y hy he
      exact ht (by rw [htexts, mem_groups_keys]; exact ⟨y, hy, he⟩)
    have hone : (⟨x.text, []⟩ : Record).add x.file x.position = .ofGroup (x.text, [x]) :=
      Record.add_ofGroup x.text [] x
    simp only [add, slot_new hc ht, groups_concat_new _ _ _ hnew, List.map_append, List.map_cons,
      List.map_nil, ← hone, ← h, size]
    rw [List.modify_eq_set_getElem?]
    simp

theorem ofFindings_spec (xs : List Finding) :
    (ofFindings xs).Indexed ∧ (ofFindings xs).records = (groups Finding.text xs).map Record.ofGroup := by
  induction xs using List.reverseRecOn with
  | nil => exact ⟨empty_indexed, rfl⟩
  | append_singleton xs x ih =>
    simp only [ofFindings, List.foldl_append, List.foldl_cons, List.foldl_nil]
    exact ⟨add_indexed ih.1 _ _ _, add_records ih.1 ih.2 x⟩

theorem ofFiles_eq (files : List FileTexts) : ofFiles files = ofFindings (files.flatMap FileTexts.findings) := by
  have hfile : addFile = fun c f => f.findings.foldl (fun c x => c.add x.file x.text x.position) c := by
    funext c f
    simp [addFile, FileTexts.findings, List.foldl_map]
  simp only [ofFiles, ofFindings, List.foldl_flatMap, hfile]

end Catalog

theorem Record.findings_ofGroup (g : String × List Finding) (h : ∀ x ∈ g.2, x.text = g.1) :
    (Record.ofGroup g).findings.Perm g.2 := by
  have heach : (Record.ofGroup g).findings = (groups Finding.file g.2).flatMap Prod.snd := by
    simp only [Record.findings, Record.ofGroup, List.flatMap_map, List.map_map]
    apply List.flatMap_congr
    intro k hk
    conv_rhs => rw [← List.map_id k.2]
    apply List.map_congr_left
    intro x he
    obtain ⟨file, -, rfl⟩ := List.mem_map.mp hk
    obtain ⟨hm, hf⟩ := List.mem_filter.mp he
    simp only [Function.comp_apply, id_eq, ← h x hm]
    simp [← of_decide_eq_true hf]
  rw [heach]
  exact groups_perm _ _

namespace Catalog

theorem ofFindings_perm (xs : List Finding) : ((ofFindings xs).records.flatMap Record.findings).Perm xs := by
  rw [(ofFindings_spec xs).2, List.flatMap_map]
  refine (List.Perm.flatMap_left _ ?_).trans (groups_perm Finding.text xs)
  intro g hg
  apply Record.findings_ofGroup
  intro x he
  obtain ⟨text, -, rfl⟩ := List.mem_map.mp hg
  simpa using (List.mem_filter.mp he).2

end Catalog

theorem foldl_add_length {α β : Type} (f : α → List β) (xs : List α) (n : ℕ) :
    xs.foldl (fun n x => n + (f x).length) n = n + (xs.flatMap f).length := by
  induction xs generalizing n with
  | nil => rfl
  | cons x xs ih =>
    rw [List.foldl_cons, ih, List.flatMap_cons, List.length_append]
    omega

theorem Record.total_eq (r : Record) : r.total = r.findings.length := by
  rw [total, foldl_add_length, Nat.zero_add]
  simp [findings, List.length_flatMap]

theorem Record.totalOf_eq (records : List Record) :
    totalOf records = (records.flatMap Record.findings).length := by
  rw [totalOf, funext total_eq, foldl_add_length, Nat.zero_add]

theorem Catalog.exact_grouping (xs : List Finding) (files : List FileTexts) :
    (ofFindings xs).records = (xs.map Finding.text).eraseDups.map (fun text =>
      let here := xs.filter fun x => x.text = text
      ⟨text, (here.map Finding.file).eraseDups.map fun file =>
        ⟨file, (here.filter fun x => x.file = file).map Finding.position⟩⟩) ∧
    (ofFindings xs).size = (xs.map Finding.text).eraseDups.length ∧
    Record.totalOf (ofFindings xs).records = xs.length ∧
    ((ofFindings xs).records.flatMap Record.findings).Perm xs ∧
    ofFiles files = ofFindings (files.flatMap FileTexts.findings) := by
  have hrecords := (ofFindings_spec xs).2
  refine ⟨?_, ?_, ?_, ofFindings_perm xs, ofFiles_eq files⟩
  · simp [hrecords, groups, Record.ofGroup, Function.comp_def]
  · simp [size, hrecords, groups]
  · rw [Record.totalOf_eq, (ofFindings_perm xs).length_eq]

end VisibleText
