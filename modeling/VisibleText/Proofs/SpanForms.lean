import VisibleText.Proofs.SpanSets

namespace VisibleText

theorem Span.eq_of_ends {s r : Span} (hstart : s.start = r.start) (hstop : s.stop = r.stop) : s = r := by
  cases s
  cases r
  exact congrArg₂ Span.mk hstart hstop

namespace SpanSet

theorem Apart.separate {spans : List Span} (h : Apart spans) {r s : Span} (hr : r ∈ spans) (hs : s ∈ spans) :
    r.stop < s.start ∨ r = s ∨ s.stop < r.start := by
  obtain ⟨front, back, rfl⟩ := List.append_of_mem hs
  obtain ⟨-, hback, hfront⟩ := List.pairwise_append.mp h.pairwise
  rcases List.mem_append.mp hr with hr | hr
  · exact .inl (hfront r hr s (by simp))
  · rcases List.mem_cons.mp hr with rfl | hr
    · exact .inr (.inl rfl)
    · exact .inr (.inr ((List.pairwise_cons.mp hback).1 r hr))

theorem Apart.stop_uncovered {spans : List Span} (h : Apart spans) {r : Span} (hr : r ∈ spans) :
    ¬ ∃ s ∈ spans, s.Contains r.stop := by
  rintro ⟨s, hs, hstop⟩
  have hne := h.nonempty r hr
  rw [Span.contains_iff] at hstop
  rcases h.separate hr hs with hlt | rfl | hlt <;> omega

theorem Apart.exists_around {spans : List Span} (h : Apart spans) {s : Span} (hs : s.start < s.stop)
    (hcovers : ∀ n, s.Contains n → ∃ r ∈ spans, r.Contains n) :
    ∃ r ∈ spans, r.start ≤ s.start ∧ s.stop ≤ r.stop := by
  obtain ⟨r, hr, hstart⟩ := hcovers s.start ⟨Nat.le_refl _, hs⟩
  refine ⟨r, hr, hstart.1, ?_⟩
  by_contra hlt
  apply h.stop_uncovered hr
  apply hcovers
  rw [Span.contains_iff] at hstart ⊢
  omega

theorem Apart.mem_of_covers {spans others : List Span} (h : Apart spans) (h' : Apart others)
    (hcovers : ∀ n, (∃ s ∈ spans, s.Contains n) ↔ ∃ s ∈ others, s.Contains n) {s : Span} (hs : s ∈ spans) :
    s ∈ others := by
  -- the span lies in one of the other list, and that one in a span of the first list, which can only be `s` again
  obtain ⟨r, hr, hstart, hstop⟩ := h'.exists_around (h.nonempty s hs) fun n hn => (hcovers n).mp ⟨s, hs, hn⟩
  obtain ⟨t, ht, hstart', hstop'⟩ := h.exists_around (h'.nonempty r hr) fun n hn => (hcovers n).mpr ⟨r, hr, hn⟩
  have hne := h.nonempty s hs
  obtain rfl : s = t := by
    rcases h.separate hs ht with hlt | rfl | hlt
    · omega
    · rfl
    · omega
  have heq : s = r := Span.eq_of_ends (by omega) (by omega)
  rwa [heq]

theorem Apart.nodup {spans : List Span} (h : Apart spans) : spans.Nodup := by
  refine h.pairwise.imp_of_mem ?_
  intro a b ha hb hlt heq
  have hne := h.nonempty a ha
  subst heq
  omega

theorem Apart.eq_of_covers {spans others : List Span} (h : Apart spans) (h' : Apart others)
    (hcovers : ∀ n, (∃ s ∈ spans, s.Contains n) ↔ ∃ s ∈ others, s.Contains n) : spans = others := by
  have hperm : spans.Perm others := by
    apply (List.perm_ext_iff_of_nodup h.nodup h'.nodup).mpr
    intro s
    exact ⟨h.mem_of_covers h' hcovers, h'.mem_of_covers h fun n => (hcovers n).symm⟩
  apply List.Perm.eq_of_pairwise _ h.pairwise h'.pairwise hperm
  intro a b ha hb hab hba
  have hne := h.nonempty a ha
  have hne' := h'.nonempty b hb
  omega

theorem ofSpans_eq_iff (spans others : List Span) :
    ofSpans spans = ofSpans others ↔ ∀ n, (∃ s ∈ spans, s.Contains n) ↔ ∃ s ∈ others, s.Contains n := by
  obtain ⟨hapart, hcovers⟩ := ofSpans_spec spans
  obtain ⟨hapart', hcovers'⟩ := ofSpans_spec others
  constructor
  · intro heq n
    rw [← hcovers, ← hcovers', heq]
  · intro hsame
    have hspans : (ofSpans spans).spans = (ofSpans others).spans := by
      apply hapart.eq_of_covers hapart'
      intro n
      exact (hcovers n).trans ((hsame n).trans (hcovers' n).symm)
    exact congrArg SpanSet.mk hspans

inductive Respells : List Span → List Span → Prop
  | perm {spans others : List Span} (h : spans.Perm others) : Respells spans others
  | split (front back : List Span) {s : Span} {m : ℕ} (hlo : s.start ≤ m) (hhi : m ≤ s.stop) :
      Respells (front ++ s :: back) (front ++ ⟨s.start, m⟩ :: ⟨m, s.stop⟩ :: back)
  | again {spans : List Span} {s : Span} (h : s ∈ spans) : Respells spans (s :: spans)
  | empty (spans : List Span) {s : Span} (h : s.stop ≤ s.start) : Respells spans (s :: spans)
  | joined (spans : List Span) : Respells spans (ofSpans spans).spans

theorem Respells.covers_iff {spans others : List Span} (h : Respells spans others) (n : ℕ) :
    (∃ s ∈ others, s.Contains n) ↔ ∃ s ∈ spans, s.Contains n := by
  cases h with
  | perm h => simp only [h.mem_iff]
  | @split front back s m hlo hhi =>
    have hparts : (⟨s.start, m⟩ : Span).Contains n ∨ (⟨m, s.stop⟩ : Span).Contains n ↔ s.Contains n := by
      simp only [Span.contains_iff]
      omega
    simp only [List.mem_append, or_and_right, exists_or, List.exists_mem_cons_iff, ← hparts, or_assoc]
  | again h =>
    rw [List.exists_mem_cons_iff, or_iff_right_iff_imp]
    exact fun hs => ⟨_, h, hs⟩
  | @empty _ s h =>
    have hnone : ¬ s.Contains n := by
      rw [Span.contains_iff]
      omega
    rw [List.exists_mem_cons_iff, or_iff_right hnone]
  | joined => exact (ofSpans_spec spans).2 n

theorem ofSpans_canonical (spans : List Span) :
    ((∀ s ∈ (ofSpans spans).spans, s.start < s.stop) ∧ (ofSpans spans).spans.Pairwise fun a b => a.stop < b.start) ∧
      (∀ others, ofSpans others = ofSpans spans ↔ ∀ n, (∃ s ∈ others, s.Contains n) ↔ ∃ s ∈ spans, s.Contains n) ∧
      ∀ others, Respells spans others → ofSpans others = ofSpans spans := by
  obtain ⟨hapart, -⟩ := ofSpans_spec spans
  refine ⟨⟨hapart.nonempty, hapart.pairwise⟩, fun others => ofSpans_eq_iff others spans, ?_⟩
  intro others h
  exact (ofSpans_eq_iff others spans).mpr h.covers_iff

theorem ofSpans_canonical_split :
    Respells [⟨7, 9⟩, ⟨0, 4⟩, ⟨3, 5⟩] [⟨7, 9⟩, ⟨0, 2⟩, ⟨2, 4⟩, ⟨3, 5⟩] ∧
      ofSpans [⟨7, 9⟩, ⟨0, 2⟩, ⟨2, 4⟩, ⟨3, 5⟩] = ofSpans [⟨7, 9⟩, ⟨0, 4⟩, ⟨3, 5⟩] ∧
      (ofSpans [⟨7, 9⟩, ⟨0, 4⟩, ⟨3, 5⟩]).spans = [⟨0, 5⟩, ⟨7, 9⟩] := by
  have h : Respells [⟨7, 9⟩, ⟨0, 4⟩, ⟨3, 5⟩] [⟨7, 9⟩, ⟨0, 2⟩, ⟨2, 4⟩, ⟨3, 5⟩] :=
    .split [⟨7, 9⟩] [⟨3, 5⟩] (by decide) (by decide)
  refine ⟨h, (ofSpans_canonical _).2.2 _ h, ?_⟩
  obtain ⟨hapart, hcovers⟩ := ofSpans_spec [⟨7, 9⟩, ⟨0, 4⟩, ⟨3, 5⟩]
  apply hapart.eq_of_covers ⟨by decide, by decide⟩
  intro n
  apply (hcovers n).trans
  simp only [List.exists_mem_cons_iff, List.not_mem_nil, false_and, exists_false, or_false, Span.contains_iff]
  omega

theorem overlaps_exact (spans : List Span) (span : Span) :
    ((ofSpans spans).overlaps span = true ↔ ∃ n, span.Contains n ∧ ∃ s ∈ spans, s.Contains n) ∧
      (ofSpans spans).spans.Pairwise fun a b => b.stop ≤ span.start → a.stop ≤ span.start := by
  obtain ⟨hapart, hcovers⟩ := ofSpans_spec spans
  constructor
  · rw [overlaps_ofSpans]
    simp only [hcovers]
  · refine hapart.pairwise.imp_of_mem ?_
    intro a b ha hb hlt hle
    have hne := hapart.nonempty b hb
    omega

inductive Tiling : ℕ → List Span → ℕ → Prop
  | nil (n : ℕ) : Tiling n [] n
  | cons (s : Span) {rest : List Span} {n : ℕ} (h : Tiling s.stop rest n) : Tiling s.start (s :: rest) n

theorem Tiling.append {lo mid hi : ℕ} {front back : List Span} (h : Tiling lo front mid) (h' : Tiling mid back hi) :
    Tiling lo (front ++ back) hi := by
  induction h with
  | nil => exact h'
  | cons s _ ih => exact .cons s (ih h')

theorem go_tiled (current : Span) {rest pieces : List Span} (htiling : Tiling current.start pieces current.stop)
    (hcurrent : ∀ s ∈ rest, current.stop ≤ s.start) (hnonempty : ∀ s ∈ rest, s.start < s.stop)
    (hordered : rest.Pairwise fun a b => a.stop ≤ b.start) :
    ∀ r ∈ joinAll.go current rest, ∃ parts, Tiling r.start parts r.stop ∧ parts ⊆ pieces ++ rest := by
  induction rest generalizing current pieces with
  | nil =>
    intro r hr
    obtain rfl := List.mem_singleton.mp hr
    exact ⟨pieces, htiling, by simp⟩
  | cons s rest ih =>
    obtain ⟨htouch, -⟩ := List.forall_mem_cons.mp hcurrent
    obtain ⟨hone, hnonempty⟩ := List.forall_mem_cons.mp hnonempty
    obtain ⟨hnext, hordered⟩ := List.pairwise_cons.mp hordered
    simp only [joinAll.go]
    split_ifs with hjoin
    · -- nothing overlaps, so the next span starts just where the current one stops
      have hmax : max current.stop s.stop = s.stop := by omega
      have hmeet : current.stop = s.start := by omega
      have hlonger : Tiling current.start (pieces ++ [s]) s.stop := by
        apply htiling.append
        rw [hmeet]
        exact .cons s (.nil _)
      rw [hmax]
      intro r hr
      obtain ⟨parts, hparts, hsub⟩ := ih ⟨current.start, s.stop⟩ hlonger hnext hnonempty hordered r hr
      exact ⟨parts, hparts, by simpa using hsub⟩
    · intro r hr
      rcases List.mem_cons.mp hr with rfl | hr
      · exact ⟨pieces, htiling, by simp⟩
      · obtain ⟨parts, hparts, hsub⟩ := ih s (.cons s (.nil _)) hnext hnonempty hordered r hr
        refine ⟨parts, hparts, List.Subset.trans hsub ?_⟩
        simp

theorem ofSpans_tiled {spans : List Span} (hnonempty : ∀ s ∈ spans, s.start < s.stop)
    (hordered : spans.Pairwise fun a b => a.stop ≤ b.start) :
    ∀ r ∈ (ofSpans spans).spans, ∃ parts, Tiling r.start parts r.stop ∧ parts ⊆ spans := by
  have hkept : (spans.filter fun s => !s.isEmpty) = spans := by
    apply List.filter_eq_self.mpr
    intro s hs
    simpa [Span.isEmpty] using hnonempty s hs
  have hsorted : spans.Pairwise fun a b => Span.le a b = true := by
    refine hordered.imp_of_mem ?_
    intro a b ha hb hle
    have hne := hnonempty a ha
    rw [Span.le_iff]
    omega
  rw [ofSpans, hkept, List.mergeSort_of_pairwise hsorted]
  cases spans with
  | nil => simp [joinAll]
  | cons s rest =>
    obtain ⟨-, hnonempty⟩ := List.forall_mem_cons.mp hnonempty
    obtain ⟨hnext, hordered⟩ := List.pairwise_cons.mp hordered
    exact go_tiled s (.cons s (.nil _)) hnext hnonempty hordered

end SpanSet

end VisibleText
