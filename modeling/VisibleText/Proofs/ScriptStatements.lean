import VisibleText.Proofs.ScriptExpressions

namespace VisibleText.JavaScript

open VisibleText.JavaScript.Parser
open VisibleText.JavaScript.Tree (strings allStrings)

section

variable (g : Grammar) [g.KeepsLiterals] (c : Context)

instance quiet_patternNeedsNoValue (kind : VariableKind) (inLoop : Bool) : Quiet (patternNeedsNoValue kind inLoop) := by
  unfold patternNeedsNoValue
  infer_instance

instance reads_declarator (kind : VariableKind) (inLoop : Bool) : Reads (declarator g c kind inLoop) strings := by
  refine ⟨.skip fun start => .skip fun _ => .skip fun _ => .read fun name => .read fun value => ?_⟩
  exact .skip fun _ => .skip fun _ => .node (by decide) (by simp)

instance reads_declarators (kind : VariableKind) (inLoop : Bool) : Reads (declarators g c kind inLoop) allStrings := by
  refine reads_repeated fun acc => .skip fun ends => .skip fun finished => .ite (fun _ => .done (by simp)) fun _ => ?_
  refine .read fun t => .skip fun more => .ite (fun _ => .done (by simp)) fun _ => ?_
  exact .done (by simp)

instance quiet_skipStatement : Quiet skipStatement := by
  refine ⟨collects_repeated (fun _ => []) rfl fun _ => ?_⟩
  refine .skip fun ends => .ite (fun _ => .done (by simp)) fun _ => .skip fun _ => .skip fun t => .done ?_
  split <;> simp

instance quiet_variableKind : Quiet variableKind := by unfold variableKind; infer_instance

instance reads_declaration : Reads (declaration g c) strings := by
  refine ⟨.skip fun start => .skip fun kind => .read fun vars => .bind (.node (by decide) (by simp)) fun t => ?_⟩
  refine .skip fun ends => .ite (fun _ => .skip fun _ => .skip fun _ => ?_) fun _ => ?_
  all_goals exact .done rfl

instance quiet_atVariables (decl : Bool) : Quiet (atVariables decl) := by
  refine ⟨.skip fun t => ?_⟩
  split <;> exact Quiet.collects

instance reads_condition : Reads (condition g c) strings :=
  ⟨.skip fun _ => .read fun t => .skip fun _ => .done (by simp)⟩

instance reads_ifStatement : Reads (ifStatement g c) strings := by
  refine ⟨.skip fun start => .skip fun _ => .read fun test => .read fun yes => .skip fun _ => .whenOne fun no => ?_⟩
  exact .node (by decide) (by simp)

instance reads_whileStatement : Reads (whileStatement g c) strings := by
  refine ⟨.skip fun start => .skip fun _ => ?_⟩
  exact .read fun head => .read fun body => .node (by decide) (by simp)

instance reads_doStatement : Reads (doStatement g c) strings := by
  refine ⟨.skip fun start => .skip fun _ => .read fun body => .skip fun _ => .read fun test => ?_⟩
  exact .skip fun _ => .node (by decide) (by simp)

instance reads_countingHead : Reads (countingHead g c) allStrings := by
  refine ⟨.skip fun _ => .unlessOne fun test => .skip fun _ => .skip fun _ => .unlessOne fun step => ?_⟩
  exact .done (by simp)

instance reads_iteratingHead? (awaits : Bool) : Reads (iteratingHead? g c awaits) fun r => r.elim [] allStrings := by
  refine ⟨.skip fun ofs => .ite (fun _ => .read fun t => .done (by simp)) fun _ => ?_⟩
  refine .skip fun ins => .ite (fun _ => .skip fun _ => .read fun t => .done (by simp)) fun _ => ?_
  exact .done (by simp)

instance reads_loopHead (awaits : Bool) : Reads (loopHead g c awaits) allStrings := by
  refine ⟨.skip fun counts => .ite (fun _ => .skip fun _ => .afresh) fun _ => .skip fun declares => ?_⟩
  extract_lets rest
  have hrest (first : Tree) : Collects first.strings (rest first) allStrings := by
    refine .read fun iterated => ?_
    cases iterated with
    | some iterated => exact .done (by simp)
    | none => exact .skip fun _ => .skip fun _ => .read fun head => .done (by simp)
  refine .ite (fun _ => .skip fun start => .skip fun kind => .read fun vars => ?_) fun _ => ?_
  · exact .bind (.node (by decide) (by simp)) hrest
  · refine .read fun t => .skip fun _ => .skip fun _ => .ite (fun _ => ?_) fun _ => ?_
    · exact .bind (collects_accept ((Tree.strings_patterns .assigns).1 t) (by simp)) hrest
    · exact .bind (.done rfl) hrest

instance reads_forStatement : Reads (forStatement g c) strings := by
  refine ⟨.skip fun start => .skip fun _ => .skip fun awaits => .skip fun _ => .read fun head => ?_⟩
  exact .skip fun _ => .read fun body => .node (by decide) (by simp)

instance reads_caseBody : Reads (caseBody g c) allStrings := by
  refine reads_repeated fun acc => .skip fun _ => .skip fun _ => .skip fun _ => .skip fun _ => ?_
  exact .ite (fun _ => .done (by simp)) fun _ => .read fun t => .done (by simp)

instance reads_switchStatement : Reads (switchStatement g c) strings := by
  refine ⟨.skip fun start => .skip fun _ => .read fun subject => .skip fun _ => ?_⟩
  refine .bind (collects_repeated (f := fun cases => subject.strings ++ allStrings cases)
    (fun a => subject.strings ++ allStrings a.1.reverse) (by simp) fun (acc, hasDefault) => ?_) fun cases => ?_
  · refine .skip fun isCase => .ite (fun _ => .read fun test => .skip fun _ => .read fun body => .done (by simp)) fun _ => ?_
    refine .skip fun isDefault => .ite (fun _ => .skip fun _ => .skip fun _ => .read fun body => .done (by simp)) fun _ => ?_
    exact .skip fun _ => .done (by simp)
  · exact .node (by decide) (by simp)

instance reads_handler : Reads (handler g c) allStrings := by
  refine ⟨.skip fun catches => .ite (fun _ => .skip fun named => ?_) fun _ => .done (by simp)⟩
  extract_lets rest
  have hrest (parameter : List Tree) : Collects (allStrings parameter) (rest parameter) allStrings :=
    .read fun body => .done (by simp)
  refine .ite (fun _ => .read fun t => .skip fun _ => ?_) fun _ => ?_
  all_goals exact .bind (.done (by simp)) hrest

instance reads_finalizer : Reads (finalizer g c) allStrings :=
  ⟨.skip fun ends => .ite (fun _ => .afresh) fun _ => .done (by simp)⟩

instance reads_tryStatement : Reads (tryStatement g c) strings := by
  refine ⟨.skip fun start => .skip fun _ => .read fun body => .read fun caught => .read fun final => ?_⟩
  exact .node (by decide) (by simp)

instance reads_strayHandler : Reads (strayHandler g c) strings :=
  ⟨.skip fun start => .skip fun _ => .skip fun _ => .node (by decide) (by simp)⟩

instance reads_jumpStatement : Reads jumpStatement strings := by
  refine ⟨.skip fun start => .skip fun _ => .skip fun ends => .ite (fun _ => .pass fun label _ => .skip fun _ => ?_) fun _ => ?_⟩
  all_goals exact .node (by decide) (by simp)

instance reads_returnStatement : Reads (returnStatement g c) strings := by
  refine ⟨.skip fun start => .skip fun _ => .skip fun _ => .unlessOne fun value => .skip fun _ => ?_⟩
  exact .node (by decide) (by simp)

instance reads_throwStatement : Reads (throwStatement g c) strings := by
  refine ⟨.skip fun start => .skip fun _ => .skip fun _ => .skip fun _ => .read fun value => .skip fun _ => ?_⟩
  exact .node (by decide) (by simp)

instance reads_expressionStatement : Reads (expressionStatement g c) strings := by
  refine ⟨.skip fun start => .read fun t => .skip fun colon => .ite (fun _ => ?_) fun _ => ?_⟩
  · refine .skip fun _ => .skip fun isFunction => .ite (fun _ => .skip fun next => .skip fun _ => ?_) fun _ => ?_
    all_goals exact .read fun body => .node (by decide) (by simp)
  · refine .skip fun ends => .ite (fun _ => .node (by decide) (by simp)) fun _ => .skip fun _ => .skip fun _ => ?_
    exact .bind (collects_binaryRest g c.withIn start t) fun t => .node (by decide) (by simp)

theorem collects_awaitRest (start : ℕ) (operand : Tree) :
    Collects operand.strings (awaitRest g c start operand) strings := by
  refine .bind (collects_binaryRest g c.withIn start operand) fun t => .skip fun _ => ?_
  exact .node (by decide) (by simp)

instance quiet_atResources : Quiet atResources := by
  refine ⟨.skip fun next => ?_⟩
  split <;> exact Quiet.collects

instance reads_resources (start : ℕ) : Reads (resources g c start) strings :=
  ⟨.skip fun _ => .read fun vars => .node (by decide) (by simp)⟩

instance reads_awaitResources : Reads (awaitResources g c) strings := by
  refine ⟨.skip fun start => .skip fun _ => .skip fun held => .ite (fun _ => .afresh) fun _ => .read fun t => ?_⟩
  exact .bind (.node (by decide) (by simp)) fun t => collects_awaitRest g c start t

instance reads_awaitStatement (decl : Bool) : Reads (awaitStatement g c decl) strings := by
  refine ⟨.skip fun next => .ite (fun _ => .afresh) fun _ => .ite (fun _ => ?_) fun _ => .afresh⟩
  exact .skip fun start => .read fun t => collects_awaitRest g c start t

instance reads_importStatement : Reads (importStatement g c) strings :=
  ⟨.skip fun start => .read fun t => .skip fun _ => .node (by decide) (by simp)⟩

instance reads_statement (decl : Bool) : Reads (statement g c decl) strings := by
  refine ⟨.skip fun start => .skip fun declares => .ite (fun _ => .afresh) fun _ => .skip fun t => ?_⟩
  split
  case h_2 => exact .read fun body => .node (by decide) (by simp)
  case h_17 => exact .skip fun _ => .skip fun _ => .node (by decide) (by simp)
  case h_18 => exact .skip fun _ => .afresh
  case h_19 => exact .skip fun _ => .afresh
  case h_20 =>
    refine .skip fun next => .ite (fun _ => ?_) fun _ => .afresh
    exact .skip fun _ => .skip fun _ => .afresh
  case h_22 => exact .skip fun held => .ite (fun _ => .afresh) fun _ => .afresh
  all_goals exact .afresh

end

instance reads_exportedName : Reads exportedName strings := by
  refine ⟨.skip fun t => ?_⟩
  split
  case h_1 => exact .afresh
  case h_2 => exact .afresh
  case h_3 => exact .fail

instance reads_importSpecifier : Reads importSpecifier strings := by
  refine ⟨.skip fun start => .skip fun first => .read fun name => .skip fun renamed => .ite (fun _ => ?_) fun _ => ?_⟩
  · exact .read fun t => .node (by decide) (by simp)
  · extract_lets rest
    have hrest (u : Unit) : Collects ([] ++ name.strings) (rest u) strings := .node (by decide) (by simp)
    split
    · exact .skip fun u => hrest u
    · exact .skip fun u => hrest u

instance reads_importNamespace : Reads importNamespace strings := ⟨.skip fun _ => .skip fun _ => .afresh⟩

instance reads_importClause : Reads importClause allStrings := by
  refine ⟨.skip fun all => .ite (fun _ => .read fun t => .done (by simp)) fun _ => ?_⟩
  refine .skip fun some => .ite (fun _ => .afresh) fun _ => .read fun name => .skip fun more => ?_
  refine .ite (fun _ => ?_) fun _ => .done (by simp)
  refine .skip fun some => .ite (fun _ => .read fun names => .done (by simp)) fun _ => ?_
  exact .skip fun all => .ite (fun _ => .read fun t => .done (by simp)) fun _ => .done (by simp)

section

variable (g : Grammar) [g.KeepsLiterals] (c : Context)

instance reads_moduleSource : Reads (moduleSource g c) allStrings := by
  refine ⟨.read fun source => .skip fun start => .skip fun _ => .skip fun _ => .skip fun _ => ?_⟩
  refine .ite (fun _ => .skip fun _ => .skip fun _ => ?_) fun _ => .done (by simp)
  exact .read fun members => .bind_last (.node (by decide) rfl) fun t => .done (by simp)

instance reads_importDeclaration : Reads (importDeclaration g c) strings := by
  refine ⟨.skip fun start => .skip fun _ => .skip fun t => ?_⟩
  extract_lets rest
  have hrest (clause : List Tree) : Collects (allStrings clause) (rest clause) strings :=
    .read fun source => .skip fun _ => .node (by decide) (by simp)
  refine .ite (fun _ => ?_) fun _ => .read fun names => .skip fun _ => ?_
  all_goals exact .bind (.done (by simp)) hrest

instance reads_exportSpecifier : Reads exportSpecifier strings := by
  refine ⟨.skip fun start => .read fun name => .skip fun _ => .whenOne fun renamed => ?_⟩
  exact .node (by decide) (by simp)

instance reads_exportAll (start : ℕ) : Reads (exportAll g c start) strings := by
  refine ⟨.skip fun _ => .skip fun _ => .whenOne fun name => .skip fun _ => .read fun source => .skip fun _ => ?_⟩
  refine .node ?_ (by simp)
  split <;> decide

instance reads_exportNames (start : ℕ) : Reads (exportNames g c start) strings := by
  refine ⟨.skip fun _ => .read fun names => .skip fun elsewhere => ?_⟩
  extract_lets rest
  have hrest (source : List Tree) : Collects (allStrings names ++ allStrings source) (rest source) strings :=
    .skip fun _ => .node (by decide) (by simp)
  refine .ite (fun _ => .read hrest) fun _ => .skip fun _ => ?_
  exact .bind (.done (by simp)) hrest

instance reads_exportDefault (start : ℕ) : Reads (exportDefault g c start) strings := by
  refine ⟨.skip fun _ => .skip fun here => .skip fun isFunction => .ite (fun _ => ?_) fun _ => ?_⟩
  · exact .read fun t => .node (by decide) (by simp)
  refine .skip fun isClass => .ite (fun _ => .read fun t => .node (by decide) (by simp)) fun _ => ?_
  refine .skip fun async => .ite (fun _ => .skip fun next => .ite (fun _ => ?_) fun _ => ?_) fun _ => ?_
  · exact .skip fun _ => .skip fun _ => .read fun t => .node (by decide) (by simp)
  all_goals exact .read fun value => .skip fun _ => .node (by decide) (by simp)

instance quiet_atDeclaration : Quiet atDeclaration := by
  refine ⟨.skip fun declares => .ite (fun _ => Quiet.collects) fun _ => .skip fun t => ?_⟩
  split <;> exact Quiet.collects

instance reads_exportDeclaration : Reads (exportDeclaration g c) strings := by
  refine ⟨.skip fun start => .skip fun _ => .skip fun all => .ite (fun _ => .afresh) fun _ => ?_⟩
  refine .skip fun names => .ite (fun _ => .afresh) fun _ => .skip fun isDefault => .ite (fun _ => .afresh) fun _ => ?_
  exact .skip fun _ => .skip fun _ => .read fun t => .node (by decide) (by simp)

instance reads_item : Reads (item g) strings := by
  refine ⟨.skip fun next => .skip fun exports => .ite (fun _ => .afresh) fun _ => ?_⟩
  exact .skip fun imports => .ite (fun _ => .afresh) fun _ => .afresh

instance reads_program : Reads (program g) strings := by
  refine ⟨.bind (collects_repeated (f := allStrings) (fun acc => allStrings acc.reverse) (by simp) fun acc => ?_) fun items => ?_⟩
  · exact .skip fun finished => .ite (fun _ => .done (by simp)) fun _ => .read fun t => .done (by simp)
  · exact .node (by decide) rfl

end

instance keepsLiterals_grammar (depth : ℕ) : (grammar depth).KeepsLiterals := by
  induction depth with
  | zero => exact ⟨fun _ => ⟨.fail⟩, fun _ => ⟨.fail⟩, fun _ => ⟨.fail⟩, fun _ => ⟨.fail⟩, fun _ => ⟨.fail⟩, fun _ => ⟨.fail⟩,
      fun _ _ => ⟨.fail⟩⟩
  | succ depth ih =>
    exact ⟨reads_expression _, reads_assignment _, reads_unary _, reads_leftHandSide _, reads_constructed _, reads_binding _,
      reads_statement _⟩

theorem afterInterpreter_suffix (code : List Char) : afterInterpreter code <:+ code := by
  unfold afterInterpreter
  split
  case h_1 rest => exact (List.dropWhile_suffix _).trans (List.suffix_append ['#', '!'] rest)
  case h_2 => exact List.suffix_rfl

theorem iterate_end {σ α : Type} {step : σ → Parser (σ ⊕ α)} {Q : State → Prop}
    (hstep : ∀ a s r, (step a s).1 = some (.inr r) → Q (step a s).2) {fuel : ℕ} {a : σ} {s : State} {r : α}
    (h : (iterate step fuel a s).1 = some r) : Q (iterate step fuel a s).2 := by
  induction fuel generalizing a s with
  | zero => cases h
  | succ fuel ih =>
    rw [iterate] at h ⊢
    rcases hrun : step a s with ⟨_ | (b | b), s'⟩
    · rw [bind_none hrun] at h
      cases h
    · rw [bind_some hrun] at h ⊢
      exact ih h
    · rw [bind_some hrun] at h ⊢
      have hQ := hstep a s b (by rw [hrun])
      rwa [hrun] at hQ

theorem program_end {g : Grammar} {s : State} {t : Tree} (h : (program g s).1 = some t) :
    (program g s).2.lexeme.token = .finish := by
  rw [program] at h ⊢
  generalize hstep : (fun acc => do
    if ← isFinish then return .inr acc.reverse
    return .inl ((← item g) :: acc) : List Tree → Parser (List Tree ⊕ List Tree)) = step at h ⊢
  have hends : ∀ acc s items, (step acc s).1 = some (.inr items) → (step acc s).2.lexeme.token = .finish := by
    intro acc s items hresult
    rw [← hstep] at hresult ⊢
    dsimp only at hresult ⊢
    rw [bind_some (rfl : isFinish s = (some (decide (s.lexeme.token = .finish)), s))] at hresult ⊢
    by_cases hfinish : s.lexeme.token = .finish
    · simp only [hfinish, decide_true, if_true]
      exact hfinish
    · simp only [hfinish, decide_false, Bool.false_eq_true, if_false] at hresult
      obtain ⟨t, -, ht⟩ := bind_result hresult
      cases ht
  rcases hrun : repeated [] step s with ⟨_ | items, s'⟩
  · rw [bind_none hrun] at h
    cases h
  · rw [bind_some hrun]
    rw [repeated, bind_some (rfl : lexeme s = (some s.lexeme, s))] at hrun
    have hfinish := iterate_end (Q := fun s => s.lexeme.token = .finish) hends (congrArg Prod.fst hrun)
    rw [hrun] at hfinish
    exact hfinish

theorem firstLexeme_isIn (code : List Char) : (firstLexeme code).IsIn code ∧
    byteLength code - byteLength (afterInterpreter code) ≤ (firstLexeme code).here.offset := by
  have hat := Cursor.IsAt.suffix (c := ⟨0, code⟩) ⟨[], rfl, rfl⟩ (afterInterpreter_suffix code)
  rw [Nat.zero_add] at hat
  exact lexemeFrom_isIn hat true

theorem read?_held {code : List Char} {p : Outcome} (h : read? code = some p) :
    ∃ s : State, s.Fits code ∧ s.lexeme.token = .finish ∧ p.strings = s.strings.reverse ∧ p.passed = s.passed ∧
      Held code p.tree.strings s := by
  obtain ⟨t, ht, rfl⟩ := Option.map_eq_some_iff.mp h
  obtain ⟨hlexeme, hstart⟩ := firstLexeme_isIn code
  obtain ⟨hreaches, hheld⟩ := (reads_program (grammar (2 * code.length + 4))).collects code
    ⟨firstLexeme code, _, 0, [], []⟩ trivial ⟨hlexeme, hstart, .first, List.forall_mem_nil _⟩
  have hempty : Held code [] ⟨firstLexeme code, byteLength code - byteLength (afterInterpreter code), 0, [], []⟩ :=
    ⟨.nil, List.forall_mem_nil _, List.forall_mem_nil _, List.forall_mem_nil _, List.forall_mem_nil _,
      List.forall_mem_nil _, List.Subset.refl _⟩
  exact ⟨_, hreaches.fits, program_end ht, rfl, rfl, (hheld [] hempty).2 t ht⟩

end VisibleText.JavaScript
