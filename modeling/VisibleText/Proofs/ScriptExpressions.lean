import VisibleText.JavaScript.Expression
import VisibleText.Proofs.ScriptReading

namespace VisibleText.JavaScript

namespace Tree

theorem strings_asTarget (r : Role) (t : Tree) : (t.asTarget r).strings.Sublist t.strings := by
  have hgap : t.gap.strings = [] := by rw [gap, strings_node (by decide), allStrings_nil]
  unfold asTarget
  split <;> simp [hgap]

theorem strings_patterns (r : Role) : (∀ t u, asPattern? r t = some u → u.strings.Sublist t.strings) ∧
    (∀ ts us, membersAsPatterns? r ts = some us → (allStrings us).Sublist (allStrings ts)) ∧
    ∀ ts us, itemsAsPatterns? r ts = some us → (allStrings us).Sublist (allStrings ts) := by
  -- Cases 1 to 5 are expressions, 6 to 11 the members of an object, 12 to 15 the items of an array.
  apply asPattern?.mutual_induct r
  case case1 | case2 =>
    intro s cs ih u h
    obtain ⟨ds, hds, h⟩ := Option.bind_eq_some_iff.mp h
    obtain rfl := Option.some.inj h
    rw [strings_node (by decide), strings_node (by decide)]
    exact ih ds hds
  case case3 =>
    intro s target value htarget u h
    rw [asPattern?, if_pos htarget] at h
    obtain rfl := Option.some.inj h
    exact List.Sublist.refl _
  case case4 =>
    intro s target value htarget ih u h
    rw [asPattern?, if_neg htarget] at h
    obtain ⟨target', htarget', h⟩ := Option.bind_eq_some_iff.mp h
    obtain rfl := Option.some.inj h
    rw [strings_node (by decide), strings_node (by decide), allStrings_cons, allStrings_cons]
    exact (ih target' htarget').append_right _
  case case5 =>
    intro t _ _ _ u h
    rw [asPattern?] at h
    · obtain rfl := Option.some.inj h
      exact strings_asTarget r t
    all_goals assumption
  case case6 | case12 =>
    intro us h
    obtain rfl := Option.some.inj h
    exact List.Sublist.refl _
  case case7 =>
    intro s cs ts us h
    cases h
  case case8 =>
    intro s name t ts iht ihts us h
    obtain ⟨t', ht', h⟩ := Option.bind_eq_some_iff.mp h
    obtain ⟨ts', hts', h⟩ := Option.bind_eq_some_iff.mp h
    obtain rfl := Option.some.inj h
    simp only [allStrings_cons, strings_node (k := .keyValue) (by decide)]
    exact ((((iht t' ht').append_right _).append_left _)).append (ihts ts' hts')
  case case9 =>
    intro s t ts hr ihts us h
    rw [membersAsPatterns?, if_pos hr] at h
    obtain ⟨t', ht', h⟩ := Option.bind_eq_some_iff.mp h
    obtain ⟨ts', hts', h⟩ := Option.bind_eq_some_iff.mp h
    obtain rfl := Option.some.inj ht'
    obtain rfl := Option.some.inj h
    simp only [allStrings_cons, strings_node (k := .spread) (by decide)]
    exact ((strings_asTarget r t).append_right _).append (ihts ts' hts')
  case case10 =>
    intro s t ts hr ihts iht us h
    rw [membersAsPatterns?, if_neg hr] at h
    obtain ⟨t', ht', h⟩ := Option.bind_eq_some_iff.mp h
    obtain ⟨ts', hts', h⟩ := Option.bind_eq_some_iff.mp h
    obtain rfl := Option.some.inj h
    simp only [allStrings_cons, strings_node (k := .spread) (by decide)]
    exact ((iht t' ht').append_right _).append (ihts ts' hts')
  case case11 =>
    intro t ts _ _ _ ihts us h
    rw [membersAsPatterns?] at h
    · obtain ⟨ts', hts', h⟩ := Option.bind_eq_some_iff.mp h
      obtain rfl := Option.some.inj h
      rw [allStrings_cons, allStrings_cons]
      exact (ihts ts' hts').append_left _
    all_goals assumption
  case case13 =>
    intro s t iht us h
    obtain ⟨t', ht', h⟩ := Option.bind_eq_some_iff.mp h
    obtain rfl := Option.some.inj h
    simp only [allStrings_cons, strings_node (k := .spread) (by decide)]
    exact ((iht t' ht').append_right _).append_right _
  case case14 =>
    intro s cs ts _ ihts us h
    rw [itemsAsPatterns?] at h
    · rw [allStrings_cons]
      exact (ihts us h).trans (List.sublist_append_right _ _)
    all_goals assumption
  case case15 =>
    intro t ts _ _ iht ihts us h
    rw [itemsAsPatterns?] at h
    · obtain ⟨t', ht', h⟩ := Option.bind_eq_some_iff.mp h
      obtain ⟨ts', hts', h⟩ := Option.bind_eq_some_iff.mp h
      obtain rfl := Option.some.inj h
      rw [allStrings_cons, allStrings_cons]
      exact (iht t' ht').append (ihts ts' hts')
    all_goals assumption

theorem allStrings_children (t : Tree) : (allStrings t.children).Sublist t.strings := by
  obtain ⟨k, s, cs⟩ := t
  by_cases hk : k = .string
  · rw [hk, strings]
    exact List.sublist_cons_self _ _
  · rw [strings_node hk]
    exact List.Sublist.refl _

theorem strings_asAssigned? {t u : Tree} (h : t.asAssigned? = some u) : u.strings.Sublist t.strings := by
  unfold asAssigned? at h
  split_ifs at h
  · exact (strings_patterns .assigns).1 t u h
  · exact (Option.some.inj h) ▸ List.Sublist.refl _

end Tree

open VisibleText.JavaScript.Parser
open VisibleText.JavaScript.Tree (strings allStrings)

theorem Cursor.le_skip (c : Cursor) (n : ℕ) : c.offset ≤ (c.skip n).offset := Nat.le_add_right ..

theorem templateText?_isAt {tagged closed : Bool} {fuel : ℕ} {c after : Cursor} {code : List Char} (hc : c.IsAt code)
    (h : templateText? tagged fuel c = some (after, closed)) : after.IsAt code ∧ c.offset ≤ after.offset := by
  induction fuel generalizing c with
  | zero => cases h
  | succ fuel ih =>
    have hon (n : ℕ) (h : templateText? tagged fuel (c.skip n) = some (after, closed)) :
        after.IsAt code ∧ c.offset ≤ after.offset :=
      (ih (hc.skip n) h).imp_right (Nat.le_trans (c.le_skip n))
    unfold templateText? at h
    split at h
    case h_1 => cases h
    case h_2 => cases h; exact ⟨hc.skip 1, c.le_skip 1⟩
    case h_3 => cases h; exact ⟨hc.skip 2, c.le_skip 2⟩
    case h_4 =>
      dsimp only at h
      split at h
      case h_1 n _ => split_ifs at h; exact hon _ h
      case h_2 => split_ifs at h; exact hon _ h
    case h_5 => exact hon _ h

theorem regexEnd?_isAt {bracket : Bool} {fuel : ℕ} {c after : Cursor} {code : List Char} (hc : c.IsAt code)
    (h : regexEnd? fuel c bracket = some after) : after.IsAt code ∧ c.offset ≤ after.offset := by
  induction fuel generalizing c bracket with
  | zero => cases h
  | succ fuel ih =>
    have hon (n : ℕ) (bracket : Bool) (h : regexEnd? fuel (c.skip n) bracket = some after) :
        after.IsAt code ∧ c.offset ≤ after.offset :=
      (ih (hc.skip n) h).imp_right (Nat.le_trans (c.le_skip n))
    unfold regexEnd? at h
    split at h
    case h_1 => cases h
    case h_2 => split_ifs at h; exact hon _ _ h
    case h_3 d rest _ _ =>
      by_cases hline : isLineEnd d = true
      · rw [if_pos hline] at h
        cases h
      · rw [if_neg hline] at h
        by_cases hslash : (decide (d = '/') && !bracket) = true
        · rw [if_pos hslash] at h
          cases h
          exact ⟨hc.skip 1, c.le_skip 1⟩
        · rw [if_neg hslash] at h
          exact hon _ _ h

section

variable (g : Grammar) [g.KeepsLiterals] (c : Context)

instance reads_template (tagged : Bool) : Reads (template g c tagged) allStrings := by
  refine reads_repeated fun acc => collects_lexeme fun l => collects_check fun hmark => ?_
  dsimp only
  split
  case h_1 => exact Collects.fail.anywhere
  case h_2 after closed htext =>
    have hmark : l.token = .mark "`" ∨ l.token = .mark "\x7d" := by simpa using hmark
    refine CollectsFrom.bind (collects_resume (fun code hl => ?_) (fun code hl => ?_)
      fun code strings hl => hl.template hmark htext) fun _ => ?_
    · exact (templateText?_isAt hl.next htext).1
    · exact Nat.le_trans hl.here_le (templateText?_isAt hl.next htext).2
    · refine .ite (fun _ => .done (by simp)) fun _ => ?_
      exact .read fun t => .skip fun _ => .skip fun _ => .done (by simp)

instance reads_regex : Reads regex strings := by
  refine ⟨collects_lexeme fun l => collects_check fun hmark => ?_⟩
  dsimp only
  split
  case h_1 => exact Collects.fail.anywhere
  case h_2 after hend =>
    have hmark : l.token = .mark "/" ∨ l.token = .mark "/=" := by simpa using hmark
    refine CollectsFrom.bind (collects_resume (fun code hl => ?_) (fun code hl => ?_)
      fun code strings hl => hl.regex hmark hend) fun _ => ?_
    · exact (regexEnd?_isAt (hl.here.skip 1) hend).1.skipWhile _
    · calc l.here.offset
        _ ≤ (l.here.skip 1).offset := l.here.le_skip 1
        _ ≤ after.offset := (regexEnd?_isAt (hl.here.skip 1) hend).2
        _ ≤ (after.skipWhile isIdentifierPart).offset := Nat.le_add_right ..
    · exact .node (by decide) (by simp)

instance reads_propertyName : Reads (propertyName g c) strings := by
  refine ⟨.skip fun start => .skip fun t => ?_⟩
  split
  case h_1 => exact .afresh
  case h_2 => exact .afresh
  case h_3 => exact .read fun t => .node (by decide) (by simp)
  case h_4 => exact .skip fun _ => .read fun t => .skip fun _ => .node (by decide) (by simp)
  case h_5 => exact .fail

instance reads_block : Reads (block g c) allStrings := by
  refine ⟨.skip fun _ => (reads_repeated fun acc => ?_).collects⟩
  refine .skip fun closed => .ite (fun _ => .done (by simp)) fun _ => ?_
  refine .skip fun finished => .ite (fun _ => .done (by simp)) fun _ => ?_
  exact .read fun t => .done (by simp)

instance reads_initializer : Reads (initializer g c) allStrings := by
  refine ⟨.skip fun given => .ite (fun _ => ?_) fun _ => .done (by simp)⟩
  exact .read fun t => .done (by simp)

instance reads_parameter : Reads (parameter g c) strings := by
  refine ⟨.skip fun start => .skip fun _ => ?_⟩
  exact .read fun name => .read fun value => .node (by decide) (by simp)

instance reads_functionParts : Reads (functionParts g c) allStrings := by
  refine ⟨.skip fun _ => ?_⟩
  exact .read fun params => .read fun body => .done (by simp)

instance reads_functionRest (start : ℕ) (async named : Bool) : Reads (functionRest g start async named) strings := by
  refine ⟨.skip fun generator => .skip fun anonymous => .whenOne fun name => ?_⟩
  exact .read fun parts => .node (by decide) (by simp)

instance reads_arrowBody (async : Bool) : Reads (arrowBody g c async) allStrings := by
  refine ⟨.skip fun braced => .ite (fun _ => Reads.collects) fun _ => ?_⟩
  exact .read fun t => .done (by simp)

theorem collects_methodRest (start : ℕ) (head : List Tree) (async generator : Bool) {e : List Tree}
    (he : allStrings head = e) : Collects e (methodRest g start head async generator) strings :=
  .read fun parts => .node (by decide) (by simp [he])

instance reads_objectMember : Reads (objectMember g c) strings := by
  refine ⟨.skip fun start => .skip fun spread => .ite (fun _ => ?_) fun _ => ?_⟩
  · exact .read fun t => .node (by decide) (by simp)
  refine .skip fun star => .ite (fun _ => ?_) fun _ => ?_
  · exact .read fun name => collects_methodRest g start [name] false true (by simp)
  refine .skip fun t => .read fun name => .skip fun colon => .ite (fun _ => ?_) fun _ => ?_
  · exact .read fun value => .node (by decide) (by simp)
  refine .skip fun call => .ite (fun _ => collects_methodRest g start [name] false false (by simp)) fun _ => ?_
  split
  case h_1 => exact .fail
  case h_2 w _ =>
    refine .skip fun ends => .ite (fun _ => .node (by decide) (by simp)) fun _ => ?_
    refine .skip fun given => .ite (fun _ => .read fun value => .node (by decide) (by simp)) fun _ => ?_
    refine .skip fun _ => .ite (fun _ => .skip fun generator => ?_) fun _ => .skip fun generator => ?_
    all_goals exact .read fun _ => collects_methodRest g start _ _ generator (by simp)

instance quiet_namesMember : Quiet namesMember := by unfold namesMember; infer_instance

instance reads_memberName : Reads (memberName g c) strings := by
  refine ⟨.skip fun t => ?_⟩
  split
  case h_1 => exact Reads.collects
  case h_2 => exact Reads.collects

theorem collects_memberRest (start : ℕ) (name : Tree) (isConstructor : Bool) {e : List Tree} (he : name.strings = e) :
    Collects e (memberRest g c start name isConstructor) strings := by
  refine .skip fun call => .ite (fun _ => collects_methodRest g start [name] false false (by simp [he])) fun _ => ?_
  refine .skip fun given => .skip fun ends => .skip fun _ => .skip fun _ => .read fun value => ?_
  exact .bind (.node (by decide) (by simp [he])) fun t => .skip fun _ => .done rfl

instance quiet_atConstructor : Quiet atConstructor := by
  refine ⟨.skip fun t => ?_⟩
  cases t <;> exact Quiet.collects

instance reads_classMember (start : ℕ) : Reads (classMember g c start) strings := by
  refine ⟨.skip fun star => .ite (fun _ => .read fun name => collects_methodRest g start [name] false true (by simp)) fun _ => ?_⟩
  refine .skip fun t => .skip fun isConstructor => .read fun name => .skip fun named => ?_
  refine .ite (fun _ => collects_memberRest g c start name isConstructor (by simp)) fun _ => .ite (fun _ => ?_) fun _ => ?_
  · refine .skip fun line => .ite (fun _ => collects_memberRest g c start name false (by simp)) fun _ => ?_
    refine .skip fun generator => .skip fun _ => .skip fun _ => .read fun _ => ?_
    exact collects_methodRest g start _ true generator (by simp)
  · refine .skip fun line => .skip fun star => .ite (fun _ => collects_memberRest g c start name false (by simp)) fun _ => ?_
    exact .read fun _ => collects_methodRest g start _ false false (by simp)

instance reads_classBody : Reads (classBody g c) allStrings := by
  refine ⟨.skip fun _ => (reads_repeated fun acc => ?_).collects⟩
  refine .skip fun closed => .ite (fun _ => .done (by simp)) fun _ => ?_
  refine .skip fun finished => .ite (fun _ => .done (by simp)) fun _ => ?_
  refine .skip fun empty => .ite (fun _ => .done (by simp)) fun _ => ?_
  refine .skip fun start => .skip fun isStatic => .ite (fun _ => ?_) fun _ => ?_
  · refine .pass fun name hname => .skip fun named => .ite (fun _ => ?_) fun _ => ?_
    · exact .bind_new (collects_memberRest g c start name false hname) fun t => .done (by simp)
    refine .skip fun braced => .ite (fun _ => ?_) fun _ => ?_
    · refine .read fun body => .bind_last (.node (by decide) rfl) fun t => .done (by simp)
    · exact .read fun t => .done (by simp)
  · exact .read fun t => .done (by simp)

instance reads_spreadable : Reads (spreadable g c) strings := by
  refine ⟨.skip fun start => .skip fun spread => .ite (fun _ => ?_) fun _ => Reads.collects⟩
  exact .read fun t => .node (by decide) (by simp)

instance reads_arrayElements (item : Parser Tree) [Reads item strings] : Reads (arrayElements item) allStrings := by
  refine reads_repeated fun acc => .skip fun closed => .ite (fun _ => .done (by simp)) fun _ => ?_
  refine .skip fun left => .ite (fun _ => .done (by simp)) fun _ => ?_
  refine .read fun t => .skip fun more => .ite (fun _ => .done (by simp)) fun _ => ?_
  exact .skip fun _ => .done (by simp)

instance quiet_atBinary : Quiet (atBinary c) := by
  refine ⟨.skip fun t => ?_⟩
  split <;> exact Quiet.collects

instance reads_operand : Reads (operand g c) strings := by
  refine ⟨.skip fun t => .ite (fun _ => ?_) fun _ => Reads.collects⟩
  exact .read fun t => .skip fun _ => .skip fun _ => .done (by simp)

theorem collects_binaryRest (start : ℕ) (first : Tree) : Collects first.strings (binaryRest g c start first) strings := by
  refine collects_repeated (fun a => allStrings a.2.reverse) (by simp) fun (last, acc) => ?_
  refine .skip fun more => .ite (fun _ => ?_) fun _ => ?_
  · split
    case h_1 => exact .done (by simp)
    case h_2 => exact .bind (.node (by decide) rfl) fun t => .done (by simp)
  · refine .skip fun _ => .skip fun _ => .skip fun _ => ?_
    exact .read fun t => .done (by simp)

theorem collects_accept {old : Tree} {new : Option Tree} (h : ∀ t, new = some t → t.strings.Sublist old.strings)
    {e : List Tree} (he : old.strings = e) : Collects e (accept old new) strings := by
  cases new with
  | none => exact .fail
  | some t =>
    have hsub : (allStrings [t]).Sublist (allStrings [old]) := by simpa using h t rfl
    have hlost := collects_passLost hsub
    exact (hlost.of_eq (by simpa using he)).bind fun _ => .done (by simp)

theorem collects_arrowFunction (start : ℕ) (async : Bool) (params : List Tree) :
    Collects (allStrings params) (arrowFunction g c start async params) strings := by
  refine .skip fun _ => .skip fun braced => .read fun body => .bind (.node (by decide) (by simp)) fun arrow => ?_
  exact .skip fun more => .ite (fun _ => collects_binaryRest g c start arrow) fun _ => .done rfl

instance reads_parenthesized (start : ℕ) (canBeArrow async : Bool) :
    Reads (parenthesized g c start canBeArrow async) strings := by
  refine ⟨.skip fun _ => .read fun items => .skip fun arrow => .ite (fun _ => ?_) fun _ => .ite (fun _ => ?_) fun _ => ?_⟩
  · refine .skip fun line => .skip fun _ => ?_
    split
    case h_1 params hparams =>
      have hlost := collects_passLost ((Tree.strings_patterns .binds).2.2 items params hparams)
      exact (hlost.of_eq (by simp)).bind fun _ => collects_arrowFunction g c start async params
    case h_2 => exact .fail
  · exact .node (by decide) rfl
  · exact .skip fun _ => .node (by decide) rfl

instance reads_nameOrArrow (canBeArrow : Bool) : Reads (nameOrArrow g c canBeArrow) strings := by
  refine ⟨.skip fun start => .skip fun async => .pass fun name hname => .skip fun line => .ite (fun _ => ?_) fun _ => ?_⟩
  · refine .skip fun arrow => .ite (fun _ => .read fun body => .node (by decide) (by simp [hname])) fun _ => ?_
    refine .ite (fun _ => .skip fun call => .ite (fun _ => .afresh) fun _ => .skip fun t => ?_) fun _ => .done hname
    split
    case h_1 =>
      refine .ite (fun _ => .read fun parameter => .skip fun _ => ?_) fun _ => .done hname
      exact .read fun body => .node (by decide) (by simp)
    case h_2 => exact .done hname
  · exact .done hname

instance reads_classRest (start : ℕ) (named : Bool) : Reads (classRest g c start named) strings := by
  refine ⟨.skip fun braced => .skip fun extended => .unlessOne fun name => .skip fun _ => .whenOne fun parent => ?_⟩
  refine .skip fun again => .ite (fun _ => .skip fun other => ?_) fun _ => ?_
  all_goals exact .read fun body => .node (by decide) (by simp)

instance reads_primary : Reads (primary g c) strings := by
  refine ⟨.skip fun start => .skip fun s => .skip fun t => ?_⟩
  -- Functions and classes are read behind their word, arrays and objects behind their bracket.
  split
  case h_7 => exact .skip fun _ => .afresh
  case h_8 => exact .skip fun _ => .afresh
  case h_9 =>
    refine .skip fun next => .ite (fun _ => ?_) fun _ => .afresh
    exact .skip fun _ => .skip fun _ => .afresh
  case h_12 => exact .skip fun _ => .read fun ts => .node (by decide) rfl
  case h_13 => exact .skip fun _ => .read fun ts => .node (by decide) rfl
  case h_14 => exact .read fun ts => .node (by decide) rfl
  case h_17 => exact .fail
  all_goals exact .afresh

theorem collects_subscript (calls : Bool) (start : ℕ) (base : Tree) :
    Collects base.strings (subscript g c calls start base) (Sum.elim strings strings) := by
  refine .skip fun optional => ?_
  -- `member` and `chained` build the node behind a point; a word and a private name share them.
  extract_lets kind member chained
  have hkind (k : Kind) (hk : k ≠ .string) : kind k ≠ .string := by
    dsimp only [kind]
    split
    · decide
    · exact hk
  have hmember (u : Unit) : Collects base.strings (member u) (Sum.elim strings strings) :=
    .bind (.node (hkind _ (by decide)) (by simp)) fun t => .done rfl
  have hchained (u : Unit) : Collects base.strings (chained u) (Sum.elim strings strings) :=
    .bind (.node (by decide) (by simp)) fun t => .done rfl
  refine .skip fun t => ?_
  split
  case h_1 =>
    refine .skip fun _ => .read fun t => .skip fun _ => ?_
    exact .bind (.node (hkind _ (by decide)) (by simp)) fun t => .done rfl
  case h_2 =>
    refine .ite (fun _ => .skip fun _ => .read fun args => ?_) fun _ => .done rfl
    exact .bind (.node (hkind _ (by decide)) (by simp)) fun t => .done rfl
  case h_3 =>
    refine .skip fun _ => .read fun ts => ?_
    exact .bind (.node (by decide) (by simp)) fun t => .done rfl
  case h_4 =>
    refine .skip fun _ => .skip fun _ => .skip fun t => ?_
    split <;> exact .skip fun u => hmember u
  case h_5 =>
    refine .ite (fun _ => ?_) fun _ => .done rfl
    split <;> exact .skip fun u => hchained u

theorem collects_subscripts (calls : Bool) (start : ℕ) (base : Tree) :
    Collects base.strings (subscripts g c calls start base) strings := by
  refine .ite (fun _ => .done rfl) fun _ => ?_
  exact collects_repeated strings rfl (collects_subscript g c calls start)

instance reads_superExpression (calls : Bool) : Reads (superExpression g c calls) strings := by
  refine ⟨.skip fun start => .skip fun _ => .skip fun call => .ite (fun _ => ?_) fun _ => ?_⟩
  · refine .skip fun _ => .skip fun _ => .read fun args => .bind (.node (by decide) rfl) fun t => ?_
    exact collects_subscripts g c calls start t
  · refine .skip fun _ => .skip fun _ => .skip fun _ => .bind (.node (by decide) (by simp)) fun t => ?_
    refine .bind (collects_subscript g c calls start t) fun r => ?_
    cases r with
    | inl member =>
      refine (collects_subscripts g c calls start _).of_eq ?_
      rw [Tree.strings_node (by decide)]
      simp
    | inr _ => exact .fail

instance reads_importExpression (calls : Bool) : Reads (importExpression g c calls) strings := by
  refine ⟨.skip fun start => .skip fun _ => .skip fun phased => ?_⟩
  extract_lets rest
  have hrest (u : Unit) : Collects [] (rest u) strings := by
    refine .skip fun _ => .skip fun _ => .read fun args => .bind (.node (by decide) rfl) fun t => ?_
    exact collects_subscripts g c calls start t
  refine .ite (fun _ => .skip fun known => .ite (fun _ => ?_) fun _ => ?_) fun _ => hrest ()
  · exact .bind (.node (by decide) (by simp)) fun t => collects_subscripts g c calls start t
  · exact .skip fun _ => .skip fun _ => .skip fun _ => .skip fun u => hrest u

instance reads_constructed : Reads (constructed g c) strings := by
  refine ⟨.skip fun start => .skip fun isNew => .ite (fun _ => .skip fun dotted => .ite (fun _ => ?_) fun _ => ?_) fun _ => ?_⟩
  · refine .skip fun _ => .bind (.node (by decide) (by simp)) fun t => ?_
    exact collects_subscripts g c false start t
  · refine .read fun callee => .skip fun _ => .skip fun call => .ite (fun _ => ?_) fun _ => .node (by decide) (by simp)
    refine .read fun args => .bind (.node (by decide) (by simp)) fun t => ?_
    exact collects_subscripts g c false start t
  · refine .skip fun isSuper => .ite (fun _ => .afresh) fun _ => .skip fun isImport => .ite (fun _ => .afresh) fun _ => ?_
    exact .read fun t => collects_subscripts g c false start t

instance reads_leftHandSide : Reads (leftHandSide g c) strings := by
  refine ⟨.skip fun start => .skip fun isSuper => .ite (fun _ => .afresh) fun _ => ?_⟩
  refine .skip fun isImport => .ite (fun _ => .afresh) fun _ => ?_
  exact .read fun t => collects_subscripts g c true start t

instance reads_awaited : Reads (awaited g c) strings := by
  refine ⟨.skip fun start => .skip fun _ => .skip fun _ => .skip fun _ => .skip fun _ => .skip fun _ => ?_⟩
  refine .ite (fun _ => .node (by decide) (by simp)) fun _ => ?_
  exact .read fun t => .node (by decide) (by simp)

instance reads_unary : Reads (unary g c) strings := by
  refine ⟨.skip fun start => .skip fun t => .ite (fun _ => ?_) fun _ => ?_⟩
  · refine .skip fun update => .skip fun _ => .ite (fun _ => .read fun t => .node (by decide) (by simp)) fun _ => ?_
    refine .read fun t => .node (by decide) ?_
    cases t <;> simp
  · refine .skip fun waits => .ite (fun _ => .afresh) fun _ => .read fun t => .skip fun line => ?_
    refine .ite (fun _ => .done (by simp)) fun _ => ?_
    refine .skip fun update => .ite (fun _ => ?_) fun _ => .done (by simp)
    exact .skip fun _ => .node (by decide) (by simp)

instance reads_binary : Reads (binary g c) strings := by
  refine ⟨.skip fun start => .read fun first => ?_⟩
  cases first with
  | some first => exact .ite (fun _ => .done (by simp)) fun _ => collects_binaryRest g c start first
  | none =>
    refine .skip fun _ => .skip fun _ => .skip fun _ => .bind (.node (by decide) (by simp)) fun t => ?_
    exact collects_binaryRest g c start t

instance reads_conditional : Reads (conditional g c) strings := by
  refine ⟨.skip fun start => .read fun test => .ite (fun _ => .done (by simp)) fun _ => ?_⟩
  refine .skip fun asked => .ite (fun _ => ?_) fun _ => .done (by simp)
  exact .read fun yes => .skip fun _ => .read fun no => .node (by decide) (by simp)

instance reads_yielded : Reads (yielded g c) strings := by
  refine ⟨.skip fun start => .skip fun _ => .skip fun _ => .skip fun _ => .skip fun _ => .ite (fun _ => ?_) fun _ => ?_⟩
  · exact .node (by decide) (by simp)
  · exact .skip fun _ => .read fun t => .node (by decide) (by simp)

instance reads_assignment : Reads (assignment g c) strings := by
  refine ⟨.skip fun start => .skip fun _ => .skip fun yields => .ite (fun _ => .afresh) fun _ => .read fun target => ?_⟩
  refine .ite (fun _ => .done (by simp)) fun _ => .skip fun assigns => .ite (fun _ => ?_) fun _ => ?_
  · refine .bind (collects_accept (fun u => Tree.strings_asAssigned?) (by simp)) fun u => .skip fun _ => ?_
    exact .read fun value => .node (by decide) (by simp)
  · refine .skip fun compound => .ite (fun _ => .skip fun _ => .skip fun _ => ?_) fun _ => .done (by simp)
    exact .read fun value => .node (by decide) (by simp)

instance reads_expression : Reads (expression g c) strings := by
  refine ⟨.skip fun start => .read fun first => ?_⟩
  refine collects_repeated (fun acc => allStrings acc.reverse) (by simp) fun acc => ?_
  refine .skip fun more => .ite (fun _ => .read fun t => .done (by simp)) fun _ => ?_
  split
  case h_1 => exact .done (by simp)
  case h_2 => exact .bind (.node (by decide) rfl) fun t => .done rfl

instance reads_patternMember : Reads (patternMember g c) strings := by
  refine ⟨.skip fun start => .skip fun spread => .ite (fun _ => .read fun t => .node (by decide) (by simp)) fun _ => ?_⟩
  refine .skip fun t => .read fun name => .skip fun colon => .ite (fun _ => ?_) fun _ => ?_
  · exact .read fun target => .read fun value => .node (by decide) (by simp)
  · exact .skip fun _ => .read fun value => .node (by decide) (by simp)

instance reads_patternItem : Reads (patternItem g c) strings := by
  refine ⟨.skip fun start => .skip fun spread => .ite (fun _ => .read fun t => .node (by decide) (by simp)) fun _ => ?_⟩
  exact .read fun name => .read fun value => .node (by decide) (by simp)

instance reads_binding : Reads (binding g c) strings := by
  refine ⟨.skip fun start => .skip fun array => .ite (fun _ => .read fun ts => .node (by decide) (by simp)) fun _ => ?_⟩
  refine .skip fun object => .ite (fun _ => ?_) fun _ => .afresh
  exact .read fun members => .skip fun _ => .node (by decide) (by simp)

end

end VisibleText.JavaScript
