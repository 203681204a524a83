import RegisterMachine.Proofs.Structured.Drawing

/-! # What is written is scanned again

The text of a tree spells the tokens of its derivation: word by word for expressions and single
statements, and body by body for the rest. A body is written from its scope in the whole tree, and
that scope is as it was left when the body was closed.

* `Expression.spells`: expressions.
* `Frozen`: the scopes that were opened have not changed since.
* `Draws.closed`, `Draws.text_closed`: the statements of a scope and of a tree. -/

namespace RegisterMachine.Structured

open RegisterMachine.Text

/-! ### Symbols and blanks -/

section Symbols

theorem closed_space : Closed " " [] := closed_blank (c := ' ') (by decide)

theorem closed_break : Closed "\n" [] := closed_blank (c := '\n') (by decide)

theorem closed_leftParen : Closed "(" [.leftParen] :=
  closed_symbol (c := '(') rfl (by decide) (by decide) (by decide) (by decide)

theorem closed_rightParen : Closed ")" [.rightParen] :=
  closed_symbol (c := ')') rfl (by decide) (by decide) (by decide) (by decide)

theorem closed_leftBrace : Closed "\x7b" [.leftBrace] :=
  closed_symbol (c := '\x7b') rfl (by decide) (by decide) (by decide) (by decide)

theorem closed_rightBrace : Closed "\x7d" [.rightBrace] :=
  closed_symbol (c := '\x7d') rfl (by decide) (by decide) (by decide) (by decide)

theorem closed_leftBracket : Closed "[" [.leftBracket] :=
  closed_symbol (c := '[') rfl (by decide) (by decide) (by decide) (by decide)

theorem closed_rightBracket : Closed "]" [.rightBracket] :=
  closed_symbol (c := ']') rfl (by decide) (by decide) (by decide) (by decide)

theorem closed_semicolon : Closed ";" [.semicolon] :=
  closed_symbol (c := ';') rfl (by decide) (by decide) (by decide) (by decide)

theorem closed_comma : Closed "," [.comma] :=
  closed_symbol (c := ',') rfl (by decide) (by decide) (by decide) (by decide)

theorem spells_assign : Spells "=" [.assign] :=
  spells_single (c := '=') rfl (by decide) (by decide) (by decide)

theorem closed_arrow : Closed "->" [.arrow] :=
  closed_double (c := '-') (d := '>') rfl (by decide) (by decide) (by decide)
    (by decide)

theorem spells_operator (op : Operator) : Spells op.symbol [.operator op] := by
  cases op with
  | add => exact spells_single (c := '+') rfl (by decide) (by decide) (by decide)
  | subtract => exact spells_single (c := '-') rfl (by decide) (by decide) (by decide)
  | multiply => exact spells_single (c := '*') rfl (by decide) (by decide) (by decide)
  | divide => exact spells_single (c := '/') rfl (by decide) (by decide) (by decide)
  | greaterThan => exact spells_single (c := '>') rfl (by decide) (by decide) (by decide)
  | lessThan => exact spells_single (c := '<') rfl (by decide) (by decide) (by decide)
  | equal =>
    exact (closed_double (c := '=') (d := '=') rfl (by decide) (by decide)
      (by decide) (by decide)).spells
  | notEqual =>
    exact (closed_double (c := '!') (d := '=') rfl (by decide) (by decide)
      (by decide) (by decide)).spells
  | greaterThanOrEqual =>
    exact (closed_double (c := '>') (d := '=') rfl (by decide) (by decide)
      (by decide) (by decide)).spells
  | lessThanOrEqual =>
    exact (closed_double (c := '<') (d := '=') rfl (by decide) (by decide)
      (by decide) (by decide)).spells

end Symbols

/-! ### A text in front of a symbol -/

section Parts

variable {text : String} {tokens : List Token}

theorem Spells.space (h : Spells text tokens) : Closed (text ++ " ") tokens := by
  simpa using h.append closed_space rfl rfl

theorem Closed.space (h : Closed text tokens) : Closed (text ++ " ") tokens := by
  simpa using h.append closed_space

/-- A keyword with the blank behind it. -/
theorem closed_keyword (k : Keyword) : Closed (k.text ++ " ") [.keyword k] :=
  (spells_keyword k).space

end Parts

/-! ### Expressions -/

section Expressions

variable {t : Tree} {scope : ScopeId}

mutual

/-- **The text of an expression spells its tokens.** -/
theorem Expression.spells : ∀ e : Expression, e.Readable t scope → Spells e.text e.tokens
  | .name i, h => spells_name h.1
  | .number value span, _ => spells_number value
  | .binary op left right span, h => by
    have hleft := (closed_leftParen.append_spells (Expression.spells left h.1)).space
    have hoperator := (hleft.append_spells (spells_operator op)).space
    have hright := (hoperator.append_spells (Expression.spells right h.2)).append closed_rightParen
      rfl rfl
    simpa [text, tokens] using hright.spells
  | .element i index span, h => by
    have hname := (spells_name h.1).append closed_leftBracket rfl rfl
    have hindex := (hname.append_spells (Expression.spells index h.2.2.2)).append
      closed_rightBracket rfl rfl
    simpa [text, tokens] using hindex.spells
  | .new type span, h => h.elim
  | .call i es resolved span, h => by
    have hname := (spells_name h.1).append closed_leftParen rfl rfl
    have hes := (hname.append_spells (Expression.spells_arguments es h.2.2.2.2)).append
      closed_rightParen rfl rfl
    simpa [text, tokens] using hes.spells

/-- Arguments with commas between them. -/
theorem Expression.spells_arguments : ∀ es : List Expression, AllReadable t scope es →
    Spells (", ".intercalate (texts es)) (argumentTokens es)
  | [], _ => closed_empty.spells
  | [e], h => by
    have he := Expression.spells e h.1
    simpa [texts, argumentTokens] using he
  | e :: following :: es, h => by
    have he := ((Expression.spells e h.1).append closed_comma rfl rfl).space
    have hes := he.append_spells (Expression.spells_arguments (following :: es) h.2)
    simpa [texts, argumentTokens, String.intercalate_cons_cons, String.append_assoc] using hes

end

end Expressions

/-! ### Statements without bodies -/

section Statements

variable {t : Tree} {scope : ScopeId} {type : Option ValueType}

theorem Target.spells {target : Target} {e : Expression} (he : e.Readable t scope)
    (htext : e.text = target.text) (htokens : e.tokens = target.tokens) :
    Spells target.text target.tokens :=
  htext ▸ htokens ▸ Expression.spells e he

theorem spells_type (h : IsScalar type) :
    Spells (parameterType type) [.keyword (declaredKeyword type)] := by
  rcases h with rfl | rfl | rfl
  exacts [spells_keyword .var, spells_keyword .int, spells_keyword .bool]

theorem declaredType_of_isScalar (h : IsScalar type) : declaredType type = parameterType type := by
  rcases h with rfl | rfl | rfl <;> rfl

/-- What stands behind `=`, through the end of the line. -/
theorem closed_assigned {target value : String} {tokens tokens' : List Token}
    (ht : Spells target tokens) (hv : Spells value tokens') :
    Closed (target ++ " = " ++ value ++ ";\n")
      (tokens ++ .assign :: (tokens' ++ [.semicolon])) := by
  have hassign := (ht.space.append_spells spells_assign).space
  have hvalue := ((hassign.append_spells hv).append closed_semicolon rfl rfl).append closed_break
  simpa [String.append_assoc] using hvalue

/-- The type of an array, as it is written behind `new`. -/
theorem closed_array {element : ValueType} {size : Nat} (hscalar : element = .int ∨ element = .bool)
    (hfits : size ≤ Machine.maxRegisters) (span : Span) :
    Closed (Expression.new (.array element size) span).text
      (Expression.new (.array element size) span).tokens := by
  have hmax : Machine.maxRegisters = 65536 := rfl
  have hsize : (UInt32.ofNat size).toNat = size := UInt32.toNat_ofNat_of_lt' (by
    show size < 4294967296
    omega)
  have helement : Spells element.text [.keyword element.keyword] := by
    rcases hscalar with rfl | rfl
    exacts [spells_keyword .int, spells_keyword .bool]
  have hnumber := spells_number (.ofNat size)
  rw [hsize] at hnumber
  have hopen := ((closed_keyword .new).append_spells helement).append closed_leftBracket rfl rfl
  have hclose := (hopen.append_spells hnumber).append closed_rightBracket rfl rfl
  simpa [Expression.text, Expression.tokens, ValueType.text, ValueType.keyword, ValueType.width,
    Keyword.text, toString, String.append_assoc] using hclose

/-- **A statement without bodies spells its tokens.** -/
theorem Parser.Plain.closed {around : Parser.Surroundings} {s : Statement}
    (h : Parser.Plain t scope around s) (parameters : ScopeId → List Statement)
    (body : ScopeId → String) : Closed (s.text parameters body) s.tokens := by
  cases h with
  | @array i element size place span declarable type scalar positive fits =>
    have htype : Spells (declaredType i.type) [.keyword (declaredKeyword i.type)] := by
      rw [type]
      rcases scalar with rfl | rfl
      exacts [spells_keyword .int, spells_keyword .bool]
    have hassigned := closed_assigned (spells_name declarable.name)
      (closed_array scalar fits place).spells
    simpa [Statement.text, Statement.tokens, Target.text, Target.tokens, Target.identifier,
      String.append_assoc] using htype.space.append hassigned
  | @declare i e span declarable scalar readable =>
    have htype := spells_type scalar
    rw [← declaredType_of_isScalar scalar] at htype
    have hassigned := closed_assigned (spells_name declarable.name) (Expression.spells e readable)
    simpa [Statement.text, Statement.tokens, Target.text, Target.tokens, Target.identifier,
      String.append_assoc] using htype.space.append hassigned
  | @assign i e span target readable =>
    have hassigned := closed_assigned (spells_name target.1) (Expression.spells e readable)
    simpa [Statement.text, Statement.tokens, Target.text, Target.tokens] using hassigned
  | @assignElement i index e place span target readable =>
    have hassigned := closed_assigned (Expression.spells _ target) (Expression.spells e readable)
    simpa [Statement.text, Statement.tokens, Target.text, Target.tokens, Expression.text,
      Expression.tokens] using hassigned
  | leave span inLoop =>
    have hleave := ((spells_keyword .break).append closed_semicolon rfl rfl).append closed_break
    exact hleave
  | again span inLoop =>
    have hagain := ((spells_keyword .continue).append closed_semicolon rfl rfl).append closed_break
    exact hagain
  | @evaluate i es span readable =>
    have hcall :=
      ((Expression.spells _ readable).append closed_semicolon rfl rfl).append closed_break
    simpa [Statement.text, Statement.tokens, String.append_assoc] using hcall

end Statements

/-! ### Parameters and return types -/

section Functions

/-- A parameter. -/
def parameterText (i : Identifier) : String := parameterType i.type ++ " " ++ i.name

theorem parameterTexts_eq (ps : List Identifier) : parameterTexts (ps.map .parameter) =
    String.join (ps.zipIdx.map fun (i, index) =>
      (if index = 0 then "" else ", ") ++ parameterText i) := by
  rw [parameterTexts, List.zipIdx_map, List.map_map]
  congr 2
  funext entry
  obtain ⟨i, index⟩ := entry
  simp [Statement.declared?, parameterText, String.append_assoc]

theorem parameterTexts_cons (i : Identifier) (ps : List Identifier) :
    parameterTexts ((i :: ps).map .parameter) =
      parameterText i ++ String.join (ps.map fun p => ", " ++ parameterText p) := by
  have hrest : ∀ (ps : List Identifier) (n : Nat),
      (ps.zipIdx (n + 1)).map (fun (p, index) =>
        (if index = 0 then "" else ", ") ++ parameterText p) =
          ps.map fun p => ", " ++ parameterText p := by
    intro ps
    induction ps with
    | nil => exact fun _ => rfl
    | cons p ps ih =>
      intro n
      rw [List.zipIdx_cons, List.map_cons, List.map_cons, ih]
      rfl
  rw [parameterTexts_eq, List.zipIdx_cons, List.map_cons, String.join_cons, hrest ps 0]
  simp

theorem spells_parameter {i : Identifier} (hname : IsName i.name) (hscalar : IsScalar i.type) :
    Spells (parameterText i) [.keyword (declaredKeyword i.type), .named i.name] :=
  (spells_type hscalar).space.append_spells (spells_name hname)

/-- **Parameters spell their tokens.** -/
theorem spells_parameters : ∀ ps : List Identifier,
    (∀ i ∈ ps, IsName i.name ∧ IsScalar i.type) →
      Spells (parameterTexts (ps.map .parameter)) (parameterTokens ps)
  | [], _ => closed_empty.spells
  | [i], h => by
    obtain ⟨hname, hscalar⟩ := h i (List.mem_singleton_self i)
    rw [parameterTexts_cons, List.map_nil, String.join_nil, String.append_empty]
    exact spells_parameter hname hscalar
  | i :: following :: ps, h => by
    obtain ⟨hname, hscalar⟩ := h i List.mem_cons_self
    have hi := ((spells_parameter hname hscalar).append closed_comma rfl rfl).space
    have hps := hi.append_spells
      (spells_parameters (following :: ps) fun j hj => h j (List.mem_cons_of_mem _ hj))
    rw [parameterTexts_cons] at hps ⊢
    simpa [parameterTokens, String.append_assoc] using hps

/-- The type that a function returns, as it is written in front of its body. -/
def returnText : Option ValueType → String
  | some type => "-> " ++ type.text ++ " "
  | none => ""

theorem function_text (i : Identifier) (arguments inner : ScopeId) (returns : Option ValueType)
    (span : Span) (parameters : ScopeId → List Statement) (body : ScopeId → String) :
    (Statement.function i arguments inner returns span).text parameters body =
      "fn " ++ i.name ++ "(" ++ parameterTexts (parameters arguments) ++ ") " ++
        returnText returns ++ body inner ++ "\n" := by
  cases returns <;> rfl

theorem closed_returns {type : Option ValueType} (h : IsScalar type) :
    Closed (returnText type) (returnTokens type) := by
  rcases h with rfl | rfl | rfl
  · exact closed_empty
  · exact (closed_arrow.space.append_spells (spells_keyword .int)).space
  · exact (closed_arrow.space.append_spells (spells_keyword .bool)).space

/-- The name of a function and its parameters. -/
theorem closed_title {name : String} {ps : List Identifier} (hname : IsName name)
    (named : ∀ i ∈ ps, IsName i.name ∧ IsScalar i.type) :
    Closed (Keyword.fn.text ++ " " ++ name ++ "(" ++ parameterTexts (ps.map .parameter) ++ ")" ++ " ")
      (.keyword .fn :: .named name :: .leftParen :: (parameterTokens ps ++ [.rightParen])) := by
  have hopen := ((closed_keyword .fn).append_spells (spells_name hname)).append closed_leftParen
    rfl rfl
  exact ((hopen.append_spells (spells_parameters ps named)).append closed_rightParen rfl rfl).space

end Functions

/-! ### Statements with bodies -/

/-- **The scopes that were opened between two trees** are as in the second one. -/
structure Frozen (t t' whole : Tree) : Prop where
  size : t'.scopes.size ≤ whole.scopes.size
  scope : ∀ id, t.scopes.size ≤ id → id < t'.scopes.size → whole.scope id = t'.scope id

/-- A body in its braces, as it is written in a tree. -/
def Tree.bodyText (t : Tree) (depth level : Nat) (body : ScopeId) : String :=
  "\x7b\n" ++ t.scopeText depth (level + 1) body ++ Tree.indent level ++ "\x7d"

/-- Statements of one scope as they are written in a tree. -/
def Tree.statementTexts (t : Tree) (depth level : Nat) (l : List Statement) : String :=
  String.join (l.map fun s => Tree.indent level ++
    s.text (fun id => (t.scope id).statements.toList) (t.bodyText depth level))

theorem Tree.scopeText_succ (t : Tree) (depth level : Nat) (id : ScopeId) :
    t.scopeText (depth + 1) level id =
      t.statementTexts depth level (t.scope id).statements.toList :=
  rfl

namespace Frozen

variable {t t₁ t' whole : Tree} {scope : ScopeId} {l : List Statement}

/-- What comes later changes no scope that was opened before. -/
theorem left (h : Frozen t t' whole) (hgrown : Parser.Grown t₁ t' scope l)
    (hscope : scope < t.scopes.size) : Frozen t t₁ whole where
  size := Nat.le_trans hgrown.size h.size
  scope id hid hlt := by
    have hne : id ≠ scope := Nat.ne_of_gt (Nat.lt_of_lt_of_le hscope hid)
    rw [h.scope id hid (Nat.lt_of_lt_of_le hlt hgrown.size), hgrown.keeps id hlt hne]

/-- What was opened before is not in question. -/
theorem right (h : Frozen t t' whole) (hsize : t.scopes.size ≤ t₁.scopes.size) :
    Frozen t₁ t' whole :=
  ⟨h.size, fun id hid hlt => h.scope id (Nat.le_trans hsize hid) hlt⟩

end Frozen

namespace Parser

theorem DrawsParameters.named {scope : ScopeId} {t t' : Tree} {ps : List Identifier}
    (h : DrawsParameters scope t ps t') : ∀ i ∈ ps, IsName i.name ∧ IsScalar i.type := by
  induction h with
  | nil => exact fun i hi => nomatch hi
  | cons declarable scalar others ih =>
    intro i hi
    rcases List.mem_cons.mp hi with rfl | hi
    · exact ⟨declarable.name, scalar⟩
    · exact ih i hi

section Bodies

variable {t t' whole : Tree} {shared : List ScopeId} {depth : Nat} {s : Statement}
  {l : List Statement} {tokens : List Token}

theorem closed_statement {level : Nat}
    (h : Closed (s.text (fun id => (whole.scope id).statements.toList)
      (whole.bodyText depth level)) tokens) :
    Closed (whole.statementTexts depth level [s]) tokens := by
  simpa [Tree.statementTexts] using (closed_indent level).append h

/-- **A body spells its tokens in braces**, if the statements of its scope spell them. There is a
level of depth left for every scope that is opened later. -/
theorem closed_body (level : Nat) (hgrown : Grown (t.addScope shared).1 t' t.scopes.size l)
    (hfrozen : Frozen t t' whole) (hdepth : whole.scopes.size ≤ depth + t.scopes.size)
    (h : t.scopes.size < (t.addScope shared).1.scopes.size → Frozen (t.addScope shared).1 t' whole →
      ∀ depth level, whole.scopes.size ≤ depth + (t.addScope shared).1.scopes.size →
        Closed (whole.statementTexts depth level l) tokens) :
    Closed (whole.bodyText depth level t.scopes.size) (braced tokens) := by
  have hadded : (t.addScope shared).1.scopes.size = t.scopes.size + 1 := size_addScope
  have hnew : t.scopes.size < t'.scopes.size := by
    have hsize := hgrown.size
    omega
  have hwhole := hfrozen.size
  have hstatements : (whole.scope t.scopes.size).statements.toList = l := by
    rw [hfrozen.scope _ (Nat.le_refl _) hnew, hgrown.own_new]
  obtain ⟨depth, rfl⟩ : ∃ rest, depth = rest + 1 := ⟨depth - 1, by omega⟩
  have hinside := h (by omega) (hfrozen.right (by omega)) depth (level + 1) (by omega)
  have hopen := (closed_leftBrace.append closed_break).append hinside
  have hclose := (hopen.append (closed_indent level)).append closed_rightBrace
  rw [Tree.bodyText, Tree.scopeText_succ, hstatements]
  simpa [braced, String.append_assoc] using hclose

/-- A keyword and a condition, in front of a body. -/
theorem closed_head {scope : ScopeId} {e : Expression} (keyword : Keyword)
    (condition : Condition t scope e) :
    Closed (keyword.text ++ " " ++ e.text ++ " ") (.keyword keyword :: e.tokens) :=
  ((closed_keyword keyword).append_spells (Expression.spells _ condition.readable)).space

/-- The scope of the parameters holds them, also when the function is read. -/
theorem statements_arguments {ps : List Identifier} {t₂ : Tree}
    (parameters : DrawsParameters t.scopes.size (t.addScope shared).1 ps t₂)
    (hgrown : Grown (t₂.addScope [t.scopes.size]).1 t' t₂.scopes.size l)
    (hfrozen : Frozen t t' whole) :
    (whole.scope t.scopes.size).statements.toList = ps.map .parameter := by
  have hadded : (t.addScope shared).1.scopes.size = t.scopes.size + 1 := size_addScope
  have hsize := parameters.grown.size
  have hkept := hgrown.inside t.scopes.size
  have hopened : t.scopes.size < t₂.scopes.size := by omega
  rw [hfrozen.scope _ (Nat.le_refl _) (Nat.lt_of_lt_of_le hopened hkept.size), hkept.own hopened,
    ← parameters.grown.own_new]
  simp

end Bodies

/-- **The statements of a scope spell the tokens of their derivation.** -/
theorem Draws.closed {d d' : Draft} {scope : ScopeId} {around : Surroundings} {l : List Statement}
    {tokens : List Token} (h : Draws d scope around l tokens d') (whole : Tree) :
    scope < d.tree.scopes.size → Frozen d.tree d'.tree whole → ∀ depth level,
      whole.scopes.size ≤ depth + d.tree.scopes.size →
        Closed (whole.statementTexts depth level l) tokens := by
  induction h with
  | nil => exact fun _ _ _ _ _ => closed_empty
  | @cons d d₁ d' scope around s l tokens others first rest ihfirst ihrest =>
    intro hscope hfrozen depth level hdepth
    have hsize := first.grown.size
    have hs := ihfirst hscope (hfrozen.left rest.grown hscope) depth level hdepth
    have hl := ihrest (Nat.lt_of_lt_of_le hscope hsize) (hfrozen.right hsize) depth level (by omega)
    simpa [Tree.statementTexts] using hs.append hl
  | plain statement =>
    intro _ _ depth level _
    exact closed_statement (statement.closed _ _)
  | give span inFunction readable =>
    intro _ _ depth level _
    have hgive := (((closed_keyword .return).append_spells (Expression.spells _ readable)).append
      closed_semicolon rfl rfl).append closed_break
    refine closed_statement ?_
    simpa [Statement.text, Statement.tokens, Keyword.text, String.append_assoc] using hgive
  | block opened body ih =>
    intro hscope hfrozen depth level hdepth
    cases opened
    have hbody := closed_body level body.grown (hfrozen.left (Grown.push _ _ _) hscope) hdepth ih
    refine closed_statement ?_
    simpa [Statement.text] using hbody.append closed_break
  | loop span condition opened body ih =>
    intro hscope hfrozen depth level hdepth
    cases opened
    have hbody := closed_body level body.grown (hfrozen.left (Grown.push _ _ _) hscope) hdepth ih
    have hhead := closed_head .while condition
    refine closed_statement ?_
    simpa [Statement.text, Keyword.text, String.append_assoc] using
      (hhead.append hbody).append closed_break
  | branch span condition opened body ih =>
    intro hscope hfrozen depth level hdepth
    cases opened
    have hbody := closed_body level body.grown (hfrozen.left (Grown.push _ _ _) hscope) hdepth ih
    have hhead := closed_head .ifThen condition
    refine closed_statement ?_
    simpa [Statement.text, Keyword.text, String.append_assoc] using
      (hhead.append hbody).append closed_break
  | @branchElse _ _ _ _ _ scope _ _ _ _ _ _ _ _ span condition opened body opened' otherwise ih
      ih' =>
    intro hscope hfrozen depth level hdepth
    cases opened
    cases opened'
    have hgrown := body.grown.inside scope
    have hinner := hfrozen.left (Grown.push _ _ _) hscope
    have hbody := closed_body level body.grown
      (hinner.left (otherwise.grown.inside scope) hscope) hdepth ih
    have hother := closed_body level otherwise.grown (hinner.right hgrown.size)
      (Nat.le_trans hdepth (Nat.add_le_add_left hgrown.size _)) ih'
    have hhead := closed_head .ifThen condition
    have helse := (closed_space.append (closed_keyword .orElse)).append hother
    refine closed_statement ?_
    simpa [Statement.text, Keyword.text, String.append_assoc] using
      ((hhead.append hbody).append helse).append closed_break
  | @function d inside _ t₂ _ scope _ i _ _ ps _ _ span name fresh bound scalar opened parameters
      opened' body returns ih =>
    intro hscope hfrozen depth level hdepth
    obtain ⟨rfl, rfl⟩ := addScope_ok opened
    obtain ⟨rfl, rfl⟩ := addScope_ok opened'
    have hadded : (d.tree.addScope [scope]).1.scopes.size = d.tree.scopes.size + 1 := size_addScope
    have hsize := parameters.grown.size
    have hinner : Frozen d.tree inside.tree whole := hfrozen.left (Grown.push _ _ _) hscope
    have hlater : Frozen t₂ inside.tree whole := hinner.right (by omega)
    have hleft : whole.scopes.size ≤ depth + t₂.scopes.size := by omega
    have hbody := closed_body level body.grown hlater hleft ih
    have harguments := statements_arguments parameters body.grown hinner
    have hhead := closed_title name parameters.named
    refine closed_statement ?_
    simpa [function_text, harguments, Keyword.text, String.append_assoc] using
      ((hhead.append (closed_returns scalar)).append hbody).append closed_break

/-- **The text of a tree spells the tokens of its derivation.** -/
theorem Draws.text_closed {d : Draft} {l : List Statement} {tokens : List Token}
    (h : Draws {} rootScope {} l tokens d) : Closed d.tree.text tokens := by
  have hgrown := h.grown
  have hsize : 0 < d.tree.scopes.size := hgrown.size
  have hroot : (d.tree.scope rootScope).statements.toList = l := by
    rw [hgrown.own (by decide)]
    simp [Tree.scope, rootScope]
  obtain ⟨depth, hdepth⟩ : ∃ depth, d.tree.scopes.size = depth + 1 :=
    Nat.exists_eq_succ_of_ne_zero (Nat.ne_of_gt hsize)
  have hclosed := h.closed d.tree (by decide)
    ⟨Nat.le_refl _, fun _ _ _ => rfl⟩ depth 0 (Nat.le_of_eq hdepth)
  rw [Tree.text, hdepth, Tree.scopeText_succ, hroot]
  exact hclosed

end Parser

end RegisterMachine.Structured
