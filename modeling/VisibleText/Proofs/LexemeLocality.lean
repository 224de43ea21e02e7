import VisibleText.Code.Delimiter
import VisibleText.Proofs.Lexemes

/-!
Code with more bytes behind it. A lexeme that is closed stays as it is whatever follows, and one that
is not closed reaches to the end of the input. So a delimiter whose partner stands in the input keeps
it, and one without a partner can only find it behind the input.
-/
namespace VisibleText.Code

/-- What a search finds with more bytes behind: the same, if it found something without them, and
otherwise nothing before `limit`. -/
structure Extends (limit : ℕ) (short long : Option ℕ) : Prop where
  same : ∀ n, short = some n → long = some n
  beyond : short = none → ∀ n, long = some n → limit ≤ n

namespace Extends

variable {limit : ℕ} {short long : Option ℕ}

theorem some (limit n : ℕ) : Extends limit (some n) (some n) := ⟨fun _ h => h, by simp⟩

theorem none (h : ∀ n, long = .some n → limit ≤ n) : Extends limit .none long := ⟨by simp, fun _ => h⟩

theorem add (h : Extends limit short long) (k : ℕ) :
    Extends (limit + k) (short.map (· + k)) (long.map (· + k)) := by
  cases short with
  | none =>
    refine none fun n hn => ?_
    obtain ⟨m, hm, rfl⟩ := Option.map_eq_some_iff.mp hn
    exact Nat.add_le_add_right (h.beyond rfl m hm) k
  | some m =>
    rw [h.same m rfl]
    exact some _ _

end Extends

theorem indexOf?_extends {needle : Bytes} (hne : needle ≠ []) (bs more : Bytes) :
    Extends (bs.length + 1 - needle.length) (indexOf? needle bs) (indexOf? needle (bs ++ more)) := by
  fun_induction indexOf? needle bs with
  | case1 hempty => exact absurd (List.isEmpty_iff.mp hempty) hne
  | case2 =>
    have := List.length_pos_iff.mpr hne
    exact .none fun n _ => by simp only [List.length_nil]; omega
  | case3 b bs hp =>
    have hp' : needle <+: b :: (bs ++ more) := (List.isPrefixOf_iff_prefix.mp hp).trans (List.prefix_append _ more)
    rw [List.cons_append, indexOf?, if_pos (List.isPrefixOf_iff_prefix.mpr hp')]
    exact .some _ 0
  | case4 b bs hp ih =>
    rw [List.isPrefixOf_iff_prefix] at hp
    rw [List.cons_append, indexOf?]
    split_ifs with hp'
    · -- the needle reaches into the new bytes, so the old ones cannot hold it
      rw [List.isPrefixOf_iff_prefix] at hp'
      have hlong : bs.length + 1 < needle.length := by
        by_contra hle
        exact hp (List.prefix_of_prefix_length_le hp' (List.prefix_append (b :: bs) more) (by simpa using hle))
      have hnone : indexOf? needle bs = none := by
        cases hi : indexOf? needle bs with
        | none => rfl
        | some i =>
          have := (indexOf?_some hi).length_le
          rw [List.length_drop] at this
          omega
      rw [hnone]
      exact .none fun n _ => by simp only [List.length_cons]; omega
    · have h := ih.add 1
      refine ⟨h.same, fun hs n hn => ?_⟩
      have := h.beyond hs n hn
      simp only [List.length_cons]
      omega

theorem blockLength_append (bs more : Bytes) : min (blockLength (bs ++ more)) bs.length = blockLength bs := by
  have h := indexOf?_extends (List.cons_ne_nil star [slash]) bs more
  unfold blockLength
  cases hi : indexOf? [star, slash] bs with
  | some i =>
    have := (indexOf?_some hi).length_le
    rw [h.same i hi]
    simp only [List.length_cons, List.length_nil, List.length_drop] at this ⊢
    omega
  | none =>
    cases hj : indexOf? [star, slash] (bs ++ more) with
    | none => simp
    | some j =>
      have := h.beyond hi j hj
      simp only [List.length_cons, List.length_nil] at this ⊢
      omega

theorem lineLength_append (bs more : Bytes) : min (lineLength (bs ++ more)) bs.length = lineLength bs := by
  induction bs with
  | nil => simp [lineLength]
  | cons b bs ih =>
    simp only [List.cons_append, lineLength, List.length_cons]
    split_ifs <;> omega

theorem closingLength?_cons {quote b : UInt8} (hb : b ≠ backslash) (bs : Bytes) :
    closingLength? quote (b :: bs) = if b = quote then some 1 else (closingLength? quote bs).map (· + 1) := by
  rw [closingLength?.eq_def]
  simp [hb]

theorem closingLength?_escaped (quote b : UInt8) (bs : Bytes) :
    closingLength? quote (backslash :: b :: bs) = (closingLength? quote bs).map (· + 2) := by
  rw [closingLength?.eq_def]
  simp

theorem closingLength?_extends (quote : UInt8) (bs more : Bytes) :
    Extends (bs.length + 1) (closingLength? quote bs) (closingLength? quote (bs ++ more)) := by
  fun_induction closingLength? quote bs with
  | case1 =>
    refine .none fun n hn => ?_
    obtain ⟨body, rest, -, rfl⟩ := closingLength?_some hn
    simp
  | case2 =>
    refine .none fun n hn => ?_
    cases more with
    | nil => simp [closingLength?] at hn
    | cons b more =>
      rw [List.singleton_append, closingLength?_escaped] at hn
      obtain ⟨m, -, rfl⟩ := Option.map_eq_some_iff.mp hn
      simp
  | case3 escaped rest ih =>
    rw [List.cons_append, List.cons_append, closingLength?_escaped]
    simpa only [List.length_cons, Nat.add_right_comm _ 1] using ih.add 2
  | case4 bs hq =>
    rw [List.cons_append, closingLength?_cons hq, if_pos rfl]
    exact .some _ 1
  | case5 b bs hb hq ih =>
    rw [List.cons_append, closingLength?_cons hb, if_neg hq]
    exact ih.add 1

theorem commentLength?_append {d : Dialect} {bs : Bytes} {n : ℕ} (more : Bytes) (h : commentLength? d bs = some n) :
    ∃ m, commentLength? d (bs ++ more) = some m ∧ min m bs.length = n := by
  rcases commentLength?_some h with ⟨rest, rfl, rfl⟩ | ⟨rest, rfl, rfl⟩ | ⟨rest, rfl, rfl, rfl⟩
  · refine ⟨blockLength (rest ++ more) + 2, by simp [commentLength?], ?_⟩
    have := blockLength_append rest more
    simp only [List.length_cons]
    omega
  · refine ⟨lineLength (rest ++ more) + 2, by simp [commentLength?, slash, star], ?_⟩
    have := lineLength_append rest more
    simp only [List.length_cons]
    omega
  · refine ⟨lineLength (rest ++ more) + 1, by simp [commentLength?, hash, slash], ?_⟩
    have := lineLength_append rest more
    simp only [List.length_cons]
    omega

theorem commentLength?_append_none {d : Dialect} {b : UInt8} {bs : Bytes} (more : Bytes)
    (h : commentLength? d (b :: bs) = none) :
    commentLength? d (b :: (bs ++ more)) = none ∨ b = slash ∧ bs = [] := by
  obtain ⟨hblock, hline, hhash⟩ := commentLength?_none h
  cases bs with
  | nil =>
    by_cases hb : b = slash
    · exact .inr ⟨hb, rfl⟩
    · left
      have hs : slash ≠ b := Ne.symm hb
      simpa [commentLength?, hs] using hhash
  | cons c bs =>
    left
    simp only [List.cons_prefix_cons, List.nil_prefix, and_true] at hblock hline
    simpa [commentLength?, hblock, hline] using hhash

section First

variable {d : Dialect} {quotes : UInt8 → Bool} {b : UInt8} {bs more : Bytes} {n : ℕ}

theorem lexemes_comment (h : commentLength? d bs = some n) :
    lexemes d quotes bs = .comment (bs.take n) :: lexemes d quotes (bs.drop n) := by
  obtain ⟨k, rfl⟩ : ∃ k, n = k + 1 := ⟨n - 1, by have := commentLength?_pos h; omega⟩
  cases bs with
  | nil => exact absurd (commentLength?_le h) (by simp)
  | cons b bs =>
    rw [lexemes, h]
    rfl

theorem lexemes_literal (h : commentLength? d (b :: bs) = none) (hq : quotes b) (hc : closingLength? b bs = some n) :
    lexemes d quotes (b :: bs) = .literal (b :: bs.take n) :: lexemes d quotes (bs.drop n) := by
  rw [lexemes, h]
  simp only [hq, hc, ↓reduceIte]

theorem lexemes_unclosed (h : commentLength? d (b :: bs) = none) (hq : quotes b) (hc : closingLength? b bs = none) :
    lexemes d quotes (b :: bs) = [.unclosed (b :: bs)] := by
  rw [lexemes, h]
  simp only [hq, hc, ↓reduceIte]

theorem lexemes_code (h : commentLength? d (b :: bs) = none) (hq : ¬ quotes b) :
    lexemes d quotes (b :: bs) = .code b :: lexemes d quotes bs := by
  rw [lexemes, h]
  simp only [hq]
  rfl

variable (d quotes bs more) in
structure Settled (l : Lexeme) : Prop where
  pos : 0 < l.length
  le : l.length ≤ bs.length
  short : lexemes d quotes bs = l :: lexemes d quotes (bs.drop l.length)
  long : lexemes d quotes (bs ++ more) = l :: lexemes d quotes (bs.drop l.length ++ more)

variable (d quotes bs more) in
/-- The only lexeme of an input gives way, with more bytes behind, to one that takes all of the input
and is no code. -/
structure Pending (l : Lexeme) : Prop where
  short : lexemes d quotes bs = [l]
  code : ∀ b, l = .code b → b = slash
  long : ∃ l' ls, lexemes d quotes (bs ++ more) = l' :: ls ∧ (∀ b, l' ≠ .code b) ∧ bs.length ≤ l'.length

theorem Pending.of_comment {l : Lexeme} (hs : lexemes d quotes bs = [l]) (hl : ∀ b, l = .code b → b = slash)
    (hn : commentLength? d (bs ++ more) = some n) (hle : bs.length ≤ n) : Pending d quotes bs more l := by
  refine ⟨hs, hl, _, _, lexemes_comment hn, by simp, ?_⟩
  simpa only [Lexeme.length, Lexeme.bytes, List.length_take_of_le (commentLength?_le hn)] using hle

theorem first_of_comment (hn : commentLength? d bs = some n) :
    ∃ l, Settled d quotes bs more l ∨ Pending d quotes bs more l := by
  obtain ⟨m, hm, hmin⟩ := commentLength?_append more hn
  by_cases hle : m ≤ bs.length
  · obtain rfl : m = n := by omega
    have hlen : (Lexeme.comment (bs.take m)).length = m := List.length_take_of_le hle
    refine ⟨.comment (bs.take m), .inl ⟨by rw [hlen]; exact commentLength?_pos hm, by rw [hlen]; exact hle, ?_, ?_⟩⟩
    · rw [hlen, lexemes_comment hn]
    · rw [hlen, lexemes_comment hm, List.take_append_of_le_length hle, List.drop_append_of_le_length hle]
  · obtain rfl : bs.length = n := by omega
    refine ⟨.comment bs, .inr (.of_comment ?_ (by simp) hm (by omega))⟩
    rw [lexemes_comment hn, List.take_length, List.drop_length, lexemes]

theorem first_of_quote (hn : commentLength? d (b :: bs) = none) (hn' : commentLength? d (b :: (bs ++ more)) = none)
    (hq : quotes b) : ∃ l, Settled d quotes (b :: bs) more l ∨ Pending d quotes (b :: bs) more l := by
  have hx := closingLength?_extends b bs more
  cases hc : closingLength? b bs with
  | some n =>
    have hle : n ≤ bs.length := by
      obtain ⟨body, tail, rfl, rfl⟩ := closingLength?_some hc
      simp
    have hlen : (Lexeme.literal (b :: bs.take n)).length = n + 1 := congrArg (· + 1) (List.length_take_of_le hle)
    refine ⟨.literal (b :: bs.take n), .inl ⟨by omega, by rw [hlen]; exact Nat.succ_le_succ hle, ?_, ?_⟩⟩
    · rw [hlen, lexemes_literal hn hq hc, List.drop_succ_cons]
    · rw [hlen, List.cons_append, lexemes_literal hn' hq (hx.same n hc), List.take_append_of_le_length hle,
        List.drop_append_of_le_length hle, List.drop_succ_cons]
  | none =>
    refine ⟨_, .inr ⟨lexemes_unclosed hn hq hc, by simp, ?_⟩⟩
    cases hc' : closingLength? b (bs ++ more) with
    | some n =>
      refine ⟨_, _, lexemes_literal hn' hq hc', by simp, ?_⟩
      have hlong := hx.beyond hc n hc'
      have htake : ((bs ++ more).take n).length = min n (bs.length + more.length) := by simp
      show bs.length + 1 ≤ ((bs ++ more).take n).length + 1
      omega
    | none =>
      refine ⟨_, _, lexemes_unclosed hn' hq hc', by simp, ?_⟩
      simp [Lexeme.length, Lexeme.bytes]

theorem first_settled_or_pending (d : Dialect) (quotes : UInt8 → Bool) {bs : Bytes} (hne : bs ≠ []) (more : Bytes) :
    ∃ l, Settled d quotes bs more l ∨ Pending d quotes bs more l := by
  obtain ⟨b, rest, rfl⟩ := List.exists_cons_of_ne_nil hne
  cases hn : commentLength? d (b :: rest) with
  | some n => exact first_of_comment hn
  | none =>
    cases hn' : commentLength? d (b :: (rest ++ more)) with
    | none =>
      by_cases hq : quotes b
      · exact first_of_quote hn hn' hq
      · exact ⟨.code b, .inl ⟨Nat.one_pos, by simp [Lexeme.length, Lexeme.bytes], lexemes_code hn hq, lexemes_code hn' hq⟩⟩
    | some m =>
      obtain ⟨rfl, rfl⟩ := (commentLength?_append_none more hn).resolve_left (by rw [hn']; simp)
      by_cases hq : quotes slash
      · exact ⟨_, .inr (.of_comment (lexemes_unclosed hn hq rfl) (by simp) hn' (commentLength?_pos hn'))⟩
      · refine ⟨.code slash, .inr (.of_comment ?_ (by simp) hn' (commentLength?_pos hn'))⟩
        rw [lexemes_code hn hq, lexemes]

theorem le_closerOffset? {opener closer : UInt8} {depth : ℕ} {l : Lexeme} {ls : List Lexeme}
    (hl : ∀ b, l ≠ .code b) (h : closerOffset? opener closer depth (l :: ls) = some n) : l.length ≤ n := by
  cases l with
  | code b => exact absurd rfl (hl b)
  | unclosed bs => simp [closerOffset?] at h
  | comment bs =>
    obtain ⟨m, -, rfl⟩ := Option.map_eq_some_iff.mp h
    exact Nat.le_add_left _ _
  | literal bs =>
    obtain ⟨m, -, rfl⟩ := Option.map_eq_some_iff.mp h
    exact Nat.le_add_left _ _

theorem Pending.closerOffset? {opener closer : UInt8} {l : Lexeme} (h : Pending d quotes bs more l)
    (hcloser : closer ≠ slash) (depth : ℕ) :
    Extends bs.length (closerOffset? opener closer depth (lexemes d quotes bs))
      (closerOffset? opener closer depth (lexemes d quotes (bs ++ more))) := by
  obtain ⟨l', ls, hlong, hl', hle⟩ := h.long
  have hnone : Code.closerOffset? opener closer depth [l] = none := by
    cases l with
    | code b =>
      have hb : b ≠ closer := fun he => hcloser (he ▸ h.code b rfl)
      simp [Code.closerOffset?, hb]
    | comment bs => rfl
    | literal bs => rfl
    | unclosed bs => rfl
  rw [h.short, hnone, hlong]
  exact .none fun n hn => Nat.le_trans hle (le_closerOffset? hl' hn)

theorem closerOffset?_cons_extends {opener closer : UInt8} {limit : ℕ} {ls ls' : List Lexeme} (l : Lexeme)
    (h : ∀ depth, Extends limit (closerOffset? opener closer depth ls) (closerOffset? opener closer depth ls'))
    (depth : ℕ) :
    Extends (limit + l.length) (closerOffset? opener closer depth (l :: ls))
      (closerOffset? opener closer depth (l :: ls')) := by
  cases l with
  | code b =>
    simp only [closerOffset?]
    split_ifs
    · exact (h (depth + 1)).add 1
    · cases depth with
      | zero => exact .some _ 0
      | succ depth => exact (h depth).add 1
    · exact (h depth).add 1
  | comment bs => exact (h depth).add _
  | literal bs => exact (h depth).add _
  | unclosed bs => exact .none fun n hn => by simp [closerOffset?] at hn

theorem closerOffset?_extends (d : Dialect) (quotes : UInt8 → Bool) {opener closer : UInt8} (hcloser : closer ≠ slash)
    (depth : ℕ) (bs more : Bytes) :
    Extends bs.length (closerOffset? opener closer depth (lexemes d quotes bs))
      (closerOffset? opener closer depth (lexemes d quotes (bs ++ more))) := by
  induction hk : bs.length using Nat.strongRecOn generalizing bs depth with
  | ind k ih =>
    by_cases hne : bs = []
    · subst hne
      obtain rfl := hk
      rw [lexemes]
      exact .none fun n _ => Nat.zero_le n
    · obtain ⟨l, hl | hl⟩ := first_settled_or_pending d quotes hne more
      · have hdrop : (bs.drop l.length).length + l.length = k := by
          have := hl.le
          rw [List.length_drop]
          omega
        rw [hl.short, hl.long, ← hdrop]
        apply closerOffset?_cons_extends
        intro depth
        exact ih _ (by have := hl.pos; omega) depth (bs.drop l.length) rfl
      · rw [← hk]
        exact hl.closerOffset? hcloser depth

theorem partnerAfter?_extends (d : Dialect) (opener : UInt8) (bs more : Bytes) :
    Extends bs.length (partnerAfter? d opener bs) (partnerAfter? d opener (bs ++ more)) := by
  unfold partnerAfter?
  cases hc : closer? opener with
  | none => exact .none fun n hn => by simp at hn
  | some closer =>
    have hcloser : closer ≠ slash := by
      unfold closer? at hc
      split_ifs at hc <;> obtain rfl := Option.some.inj hc <;> decide
    exact closerOffset?_extends d isQuoteOrBackquote hcloser 0 bs more

theorem partner?_extends (d : Dialect) {bs : Bytes} (more : Bytes) {i : ℕ} (hi : i < bs.length) :
    Extends bs.length (partner? d bs i) (partner? d (bs ++ more) i) := by
  unfold partner?
  rw [List.drop_append_of_le_length (Nat.le_of_lt hi)]
  cases hdrop : bs.drop i with
  | nil => exact absurd (List.drop_eq_nil_iff.mp hdrop) (by omega)
  | cons opener rest =>
    have hlen : bs.length = rest.length + (i + 1) := by
      have := congrArg List.length hdrop
      simp only [List.length_drop, List.length_cons] at this
      omega
    rw [hlen]
    exact (partnerAfter?_extends d opener rest more).add (i + 1)

theorem partner?_append_left (d : Dialect) (front bs : Bytes) (i : ℕ) :
    partner? d (front ++ bs) (i + front.length) = (partner? d bs i).map (· + front.length) := by
  unfold partner?
  rw [Nat.add_comm, List.drop_append, List.drop_eq_nil_of_le (by omega), Nat.add_sub_cancel_left, List.nil_append]
  cases bs.drop i with
  | nil => rfl
  | cons opener rest =>
    simp only [Option.map_map]
    congr 1
    funext n
    simp only [Function.comp_apply]
    omega

end First

end VisibleText.Code
