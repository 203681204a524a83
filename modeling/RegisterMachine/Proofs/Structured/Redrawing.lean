import RegisterMachine.Proofs.Structured.Rereading

/-! # Statements that are read again

From the tokens as which statements are written the parser draws the same statements, places apart.
A statement stands in front of whatever comes behind it, but for an `else`.

* `Draft.Like`: drafts that are equal but for places.
* `plain_reads`: statements without bodies.
* `Draws.reads`: all statements. -/

namespace RegisterMachine.Structured

open RegisterMachine.Success

/-! ### Trees that are equal but for places -/

section Same

variable {t t' : Tree} {scope : ScopeId} {name : String} {v : View}

theorem Tree.fresh_view : (t.view v).Fresh scope name ↔ t.Fresh scope name := by
  have hany : (fun s : Statement => s.declared?.any (·.name == name)) ∘ Statement.view v =
      fun s : Statement => s.declared?.any (·.name == name) := by
    funext s
    rw [Function.comp_apply, Statement.declared?_view]
    cases s.declared? <;> rfl
  rw [Fresh, Fresh, scope_view, Scope.view, Array.any_map, hany]

theorem Tree.freshFunction_view :
    (t.view v).FreshFunction scope name ↔ t.FreshFunction scope name := by
  have hany : (fun s : Statement => s.declaresFunction name) ∘ Statement.view v =
      fun s : Statement => s.declaresFunction name := by
    funext s
    exact Statement.declaresFunction_view s name
  rw [FreshFunction, FreshFunction, scope_view, Scope.view, Array.any_map, hany]

theorem Tree.Same.fresh (h : t.Same t') (hfresh : t'.Fresh scope name) : t.Fresh scope name := by
  rwa [← fresh_view (v := .unplaced), h, fresh_view]

theorem Tree.Same.freshFunction (h : t.Same t') (hfresh : t'.FreshFunction scope name) :
    t.FreshFunction scope name := by
  rwa [← freshFunction_view (v := .unplaced), h, freshFunction_view]

theorem Tree.Same.push {s s' : Statement} (h : t.Same t')
    (hs : s.view .unplaced = s'.view .unplaced) : (t.push scope s).Same (t'.push scope s') := by
  rw [Same, view_push, view_push, h, hs]

theorem Tree.Same.addScope (h : t.Same t') (shared : List ScopeId) :
    (t.addScope shared).1.Same (t'.addScope shared).1 := by
  rw [Same, view_addScope, view_addScope, h]

theorem Tree.Same.size (h : t.Same t') : t.scopes.size = t'.scopes.size := by
  rw [← size_view (v := .unplaced), h, size_view]

theorem checkFresh_run {u : Token} (h : t.Fresh scope u.raw) : checkFresh t scope u = .ok () :=
  if_neg (Bool.eq_false_iff.mp h)

end Same

namespace Parser

/-- **The drafts are equal** but for places. -/
structure Draft.Like (d d' : Draft) : Prop where
  tree : d.tree.Same d'.tree
  returned : d.returned = d'.returned

namespace Draft.Like

variable {d d' : Draft} {scope : ScopeId} {s s' : Statement}

theorem push (h : d.Like d') (hs : s.view .unplaced = s'.view .unplaced) :
    (d.push scope s).Like (d'.push scope s') :=
  ⟨h.tree.push hs, h.returned⟩

theorem site (h : d.Like d') (stop : Span) : (d.site scope stop).At d'.tree scope := ⟨h.tree, rfl⟩

/-- A scope that is opened in both drafts. -/
theorem openScope {d₁ : Draft} {inner : ScopeId} (h : d.Like d')
    (opened : d'.openScope scope = (d₁, inner)) :
    ∃ d₂, d.openScope scope = (d₂, inner) ∧ d₂.Like d₁ := by
  obtain ⟨htree, hreturned, rfl⟩ := openScope_ok opened
  refine ⟨{ d with tree := (d.tree.addScope [scope]).1 }, ?_, ⟨?_, h.returned.trans hreturned.symm⟩⟩
  · rw [openScope_eq]
    exact congrArg _ h.tree.size
  · rw [htree]
    exact h.tree.addScope [scope]

end Draft.Like

/-! ### Statements without bodies -/

section Plain

variable {site : Site} {t : Tree} {scope : ScopeId} {tokens rest : List Token} {u : Token}

/-- The reader answers with this statement, places apart, and with what is behind it. -/
def ReadsStatement {tokens : List Token} (result : Except Error (Statement × Shorter tokens))
    (s : Statement) (rest : List Token) : Prop :=
  ∃ s' r, result = .ok (s', r) ∧ r.1 = rest ∧ s'.view .unplaced = s.view .unplaced

theorem expectSemicolon_run {stop : Span} (h : u.kind = .semicolon) :
    expectSemicolon stop (u :: rest) = .ok (u, .tail u rest) := expect_run h

theorem ofKeyword?_declaredKeyword {type : Option ValueType} (h : IsScalar type) :
    ValueType.ofKeyword? (declaredKeyword type) = type := by
  rcases h with rfl | rfl | rfl <;> rfl

/-- An initial value that is no array. -/
theorem initialValue_reads (declared : Option ValueType) {e : Expression} {written : List Token}
    (hat : site.At t scope) (he : e.Readable t scope) (hwritten : Written 0 e written)
    (h : Begins tokens written rest) (hends : Ends rest) :
    ∃ e' r, initialValue site declared tokens = .ok (declared, e', r) ∧ r.1 = rest ∧
      e'.view .unplaced = e.view .unplaced := by
  obtain ⟨e', r, hexpression, hr, hview⟩ := expression_reads hat he hwritten h hends
  obtain ⟨v, vs, rfl, hv⟩ := hwritten.head
  obtain ⟨u, tokens, rfl, hu, -⟩ := h.cons
  have hnew : ¬ u.kind = .keyword .new := by
    rw [bare_kind hu]
    rcases hv with hv | hv | hv <;> rw [hv] <;> decide
  refine ⟨e', r, ?_, hr, hview⟩
  rw [initialValue]
  dsimp only
  rw [if_neg hnew, bind_run hexpression]
  rfl

/-- **A declaration, behind its type**, once its initial value is read. -/
theorem declaration_run {declared : Option ValueType} {i : Identifier} {e : Expression}
    {span : Span} {type u v w : Token} (hat : site.At t scope) (hi : Declarable t scope i)
    (htype : ValueType.ofKeyword? (declaredKeyword declared) = declared)
    (hkind : type.kind = .keyword (declaredKeyword declared)) (hu : u.bare = .named i.name)
    (hv : v.bare = .assign) (hw : w.bare = .semicolon)
    (hinitial : ∃ e' r, initialValue site declared tokens = .ok (i.type, e', r) ∧
      r.1 = w :: rest ∧ e'.view .unplaced = e.view .unplaced) :
    ReadsStatement (declaration site type (u :: v :: tokens)) (.assign (.name i) e true span)
      rest := by
  have hname : u.kind = .identifier := bare_kind hu
  have hraw : u.raw = i.name := bare_raw hu
  have hassign : v.kind = .assign := bare_kind hv
  have hsemicolon : w.kind = .semicolon := bare_kind hw
  obtain ⟨e', ⟨_, hlt⟩, hinitial, rfl, hview⟩ := hinitial
  have hfresh : checkFresh site.tree site.scope u = .ok () := by
    rw [hat.scope]
    exact checkFresh_run (hraw ▸ hat.tree.fresh hi.fresh)
  rw [declaration]
  simp only [hkind, htype]
  rw [bind_run (expect_run hname)]
  dsimp only [Shorter.tail]
  rw [bind_run hfresh, bind_run (expect_run hassign)]
  dsimp only [Shorter.tail]
  rw [bind_run hinitial]
  dsimp only
  rw [bind_run (expectSemicolon_run hsemicolon)]
  refine ⟨_, _, rfl, rfl, ?_⟩
  have hbound := hi.bound
  cases i
  cases hbound
  simp only [Statement.view, hview, hraw, hat.scope]
  rfl

/-- The declaration of a scalar. -/
theorem declaration_reads {i : Identifier} {e : Expression} {span : Span} {written : List Token}
    {type : Token} (hat : site.At t scope) (hi : Declarable t scope i) (hscalar : IsScalar i.type)
    (htype : type.kind = .keyword (declaredKeyword i.type)) (he : e.Readable t scope)
    (hwritten : Written 0 e written)
    (h : Begins tokens (.named i.name :: .assign :: (written ++ [.semicolon])) rest) :
    ReadsStatement (declaration site type tokens) (.assign (.name i) e true span) rest := by
  obtain ⟨u, tokens, rfl, hu, h⟩ := h.cons
  obtain ⟨v, tokens, rfl, hv, h⟩ := h.cons
  obtain ⟨middle, hvalue, h⟩ := h.append
  obtain ⟨w, middle, rfl, hw, h⟩ := h.cons
  cases h.nil
  exact declaration_run hat hi (ofKeyword?_declaredKeyword hscalar) htype hu hv hw
    (initialValue_reads i.type hat he hwritten hvalue (.of_bare hw (by simp)))

theorem arraySize_run {size : Nat} (hu : u.number? = some (.ofNat size)) (hpositive : 0 < size)
    (hfits : size ≤ Machine.maxRegisters) : arraySize u = .ok size := by
  have hmax : Machine.maxRegisters = 65536 := rfl
  have hsize : (UInt32.ofNat size).toNat = size := UInt32.toNat_ofNat_of_lt' (by
    show size < 4294967296
    omega)
  rw [arraySize, hu]
  dsimp only
  rw [hsize, if_neg (by omega), if_neg (by omega)]

/-- `new` and the type of an array. -/
theorem initialization_reads (site : Site) {element : ValueType} {size : Nat} (keyword : Token)
    (hscalar : element = .int ∨ element = .bool) (hpositive : 0 < size)
    (hfits : size ≤ Machine.maxRegisters)
    (h : Begins tokens [.keyword element.keyword, .leftBracket, .numbered (.ofNat size),
      .rightBracket] rest) :
    ∃ span r, initialization site keyword tokens = .ok (.array element size, span, r) ∧
      r.1 = rest := by
  obtain ⟨u, tokens, rfl, hu, h⟩ := h.cons
  obtain ⟨v, tokens, rfl, hv, h⟩ := h.cons
  obtain ⟨w, tokens, rfl, hw, h⟩ := h.cons
  obtain ⟨x, tokens, rfl, hx, h⟩ := h.cons
  cases h.nil
  have htype : u.kind = .keyword element.keyword := bare_kind hu
  have hopen : v.kind = .leftBracket := bare_kind hv
  have hclose : x.kind = .rightBracket := bare_kind hx
  have hsize := arraySize_run (bare_number hw) hpositive hfits
  rw [initialization, bind_run next_run]
  dsimp only [Shorter.tail]
  rcases hscalar with rfl | rfl <;> simp only [htype, ValueType.keyword]
  all_goals
    rw [bind_run (expect_run hopen)]
    dsimp only [Shorter.tail]
    rw [bind_run next_run]
    dsimp only [Shorter.tail]
    rw [bind_run hsize, bind_run (expect_run hclose)]
    exact ⟨_, _, rfl, rfl⟩

/-- The declaration of an array. -/
theorem declaration_reads_array {i : Identifier} {element : ValueType} {size : Nat}
    {place span : Span} {type : Token} (hat : site.At t scope) (hi : Declarable t scope i)
    (hi' : i.type = some (.array element size)) (hscalar : element = .int ∨ element = .bool)
    (hpositive : 0 < size) (hfits : size ≤ Machine.maxRegisters)
    (htype : type.kind = .keyword element.keyword)
    (h : Begins tokens (.named i.name :: .assign :: ((Expression.new (.array element size)
      place).tokens ++ [.semicolon])) rest) :
    ReadsStatement (declaration site type tokens)
      (.assign (.name i) (.new (.array element size) place) true span) rest := by
  obtain ⟨u, tokens, rfl, hu, h⟩ := h.cons
  obtain ⟨v, tokens, rfl, hv, h⟩ := h.cons
  obtain ⟨x, tokens, rfl, hx, h⟩ := h.cons
  have hmore : Begins tokens ([.keyword element.keyword, .leftBracket, .numbered (.ofNat size),
    .rightBracket] ++ [.semicolon]) rest := h
  obtain ⟨middle, hvalue, h⟩ := hmore.append
  obtain ⟨w, middle, rfl, hw, h⟩ := h.cons
  cases h.nil
  have hnew : x.kind = .keyword .new := bare_kind hx
  have hdeclared : ValueType.ofKeyword? (declaredKeyword (some element)) = some element := by
    rcases hscalar with rfl | rfl <;> rfl
  obtain ⟨place', r, hinitialization, hr⟩ :=
    initialization_reads site x hscalar hpositive hfits hvalue
  have helement : checkElement (some element) (.array element size) place' = .ok () := if_pos rfl
  refine declaration_run hat hi hdeclared htype hu hv hw
    ⟨.new (.array element size) place', ?_⟩
  rw [initialValue, hi']
  dsimp only
  rw [if_pos hnew, bind_run hinitialization]
  dsimp only
  rw [bind_run helement]
  exact ⟨_, rfl, hr, rfl⟩

/-- An expression and the semicolon behind it. -/
theorem value_reads {e : Expression} (hat : site.At t scope) (he : e.Readable t scope)
    (h : Begins tokens (e.tokens ++ [.semicolon]) rest) :
    ∃ e' r close r', expression site tokens = .ok (e', r) ∧
      expectSemicolon site.stop r.1 = .ok (close, r') ∧ r'.1 = rest ∧
        e'.view .unplaced = e.view .unplaced := by
  obtain ⟨middle, hvalue, h⟩ := h.append
  obtain ⟨w, last, rfl, hw, h⟩ := h.cons
  cases h.nil
  obtain ⟨e', ⟨_, hlt⟩, hexpression, rfl, hview⟩ :=
    expression_reads hat he (he.written 0) hvalue (.of_bare hw (by simp))
  exact ⟨e', _, w, _, hexpression, expectSemicolon_run (bare_kind hw), rfl, hview⟩

/-- An assignment to a scalar. -/
theorem assignment_reads {i : Identifier} {e : Expression} {span : Span} {name : Token}
    (hat : site.At t scope) (hi : (Expression.name i).Readable t scope)
    (hname : name.raw = i.name) (he : e.Readable t scope)
    (h : Begins tokens (.assign :: (e.tokens ++ [.semicolon])) rest) :
    ReadsStatement (assignment site name tokens) (.assign (.name i) e false span) rest := by
  obtain ⟨u, tokens, rfl, hu, h⟩ := h.cons
  have hassign : u.kind = .assign := bare_kind hu
  obtain ⟨e', ⟨_, hlt⟩, close, ⟨_, hlt'⟩, hexpression, hsemicolon, rfl, hview⟩ :=
    value_reads hat he h
  rw [assignment]
  simp only [hassign]
  rw [bind_run (hat.scalar hi hname), bind_run hexpression]
  dsimp only
  rw [bind_run hsemicolon]
  refine ⟨_, _, rfl, rfl, ?_⟩
  simp only [Statement.view, hview]
  rfl

/-- An assignment to an element of an array. -/
theorem assignment_reads_element {i : Identifier} {index e : Expression} {place span : Span}
    {name : Token} (hat : site.At t scope)
    (hi : (Expression.element i index place).Readable t scope) (hname : name.raw = i.name)
    (he : e.Readable t scope)
    (h : Begins tokens ((.leftBracket :: (index.tokens ++ [.rightBracket])) ++ .assign ::
      (e.tokens ++ [.semicolon])) rest) :
    ReadsStatement (assignment site name tokens) (.assign (.element i index place) e false span)
      rest := by
  obtain ⟨middle, htarget, h⟩ := h.append
  obtain ⟨v, middle, rfl, hv, hvalue⟩ := h.cons
  obtain ⟨u, tokens, rfl, hu, -⟩ := htarget.cons
  have hopen : u.kind = .leftBracket := bare_kind hu
  have hassign : v.kind = .assign := bare_kind hv
  obtain ⟨index', span', ⟨_, hlt⟩, helement, rfl, hindex⟩ := element_reads hat hi hname
    (fun h hends => expression_reads hat hi.2.2.2 (hi.2.2.2.written 0) h hends) htarget
  obtain ⟨e', ⟨_, hlt'⟩, close, ⟨_, hlt''⟩, hexpression, hsemicolon, rfl, hview⟩ :=
    value_reads hat he hvalue
  rw [assignment]
  simp only [hopen]
  rw [bind_run helement]
  dsimp only
  rw [bind_run (expect_run hassign)]
  dsimp only [Shorter.tail]
  rw [bind_run hexpression]
  dsimp only
  rw [bind_run hsemicolon]
  refine ⟨_, _, rfl, rfl, ?_⟩
  simp only [Statement.view, Target.view, hview, hindex]
  rfl

/-- A call for its effects. -/
theorem assignment_reads_call {i : Identifier} {es : List Expression} {span : Span} {name : Token}
    (hat : site.At t scope) (he : (Expression.call i es none span).Readable t scope)
    (hname : name.raw = i.name)
    (h : Begins tokens ((.leftParen :: (Expression.argumentTokens es ++ [.rightParen])) ++
      [.semicolon]) rest) :
    ReadsStatement (assignment site name tokens) (.evaluate (.call i es none span)) rest := by
  obtain ⟨middle, hcalled, h⟩ := h.append
  obtain ⟨w, last, rfl, hw, h⟩ := h.cons
  cases h.nil
  obtain ⟨u, tokens, rfl, hu, -⟩ := hcalled.cons
  have hopen : u.kind = .leftParen := bare_kind hu
  have hsemicolon : w.kind = .semicolon := bare_kind hw
  obtain ⟨e', ⟨_, hlt⟩, hcall, rfl, hview⟩ := call_reads span he hname
    (fun h => arguments_reads hat he.2.2.2.2 he.2.2.2.2.written h) hcalled
  rw [assignment]
  simp only [hopen]
  rw [bind_run hcall]
  dsimp only
  rw [bind_run (expectSemicolon_run hsemicolon)]
  refine ⟨_, _, rfl, rfl, ?_⟩
  simp only [Statement.view, hview]

/-- A statement of a keyword alone. -/
theorem keywordStatement_run (stop : Span) (s : Statement)
    (h : Begins tokens [.semicolon] rest) :
    ∃ r, keywordStatement stop s tokens = .ok (s, r) ∧ r.1 = rest := by
  obtain ⟨u, tokens, rfl, hu, h⟩ := h.cons
  cases h.nil
  have hsemicolon : u.kind = .semicolon := bare_kind hu
  rw [keywordStatement, bind_run (expectSemicolon_run hsemicolon)]
  exact ⟨_, rfl, rfl⟩

/-- A `return`, behind its keyword. -/
theorem returned_reads {e : Expression} (span : Span) (keyword : Token) (hat : site.At t scope)
    (he : e.Readable t scope) (h : Begins tokens (e.tokens ++ [.semicolon]) rest) :
    ReadsStatement (returned site keyword tokens) (.give e span) rest := by
  obtain ⟨e', ⟨_, hlt⟩, close, ⟨_, hlt'⟩, hexpression, hsemicolon, rfl, hview⟩ :=
    value_reads hat he h
  rw [returned, bind_run hexpression]
  dsimp only
  rw [bind_run hsemicolon]
  refine ⟨_, _, rfl, rfl, ?_⟩
  simp only [Statement.view, hview]

theorem isComparison_view {v : View} : ∀ e : Expression, isComparison (e.view v) = isComparison e
  | .name _ | .number _ _ | .binary _ _ _ _ | .element _ _ _ | .new _ _ | .call _ _ _ _ => rfl

/-- A condition: the comparison is written with its parentheses. -/
theorem condition_reads {e : Expression} (missing : ErrorCode) (expected : String)
    (hat : site.At t scope) (he : Condition t scope e) (h : Begins tokens e.tokens rest) :
    ReadsAs (condition site missing expected tokens) e rest := by
  obtain ⟨hreadable, hcomparison⟩ := he
  cases e with
  | binary op left right span =>
    have hwritten : Written 0 (.binary op left right span)
        (left.tokens ++ .operator op :: right.tokens) :=
      .binary (Nat.zero_le _) (hreadable.1.written _) (hreadable.2.written _)
    rw [Expression.tokens_binary] at h
    obtain ⟨u, tokens, rfl, hu, h⟩ := h.cons
    obtain ⟨middle, hinside, h⟩ := h.append
    obtain ⟨w, middle, rfl, hw, h⟩ := h.cons
    cases h.nil
    have hopen : u.kind = .leftParen := bare_kind hu
    have hclose : w.kind = .rightParen := bare_kind hw
    obtain ⟨e', ⟨_, hlt⟩, hlevel, rfl, hview⟩ :=
      expression_reads hat hreadable hwritten hinside (.of_bare hw (by simp))
    have hcomparison' : isComparison e' = true := by
      rw [← isComparison_view (v := .unplaced), hview, isComparison_view, hcomparison]
    rw [condition, bind_run (expect_run hopen)]
    dsimp only [Shorter.tail]
    rw [bind_run hlevel]
    dsimp only
    rw [bind_run (expect_run hclose)]
    dsimp only
    rw [if_pos hcomparison']
    exact ⟨e', _, rfl, rfl, hview⟩
  | _ => cases hcomparison

theorem keyword_of_isScalar {type : Option ValueType} (h : IsScalar type) :
    declaredKeyword type = .var ∨ declaredKeyword type = .int ∨ declaredKeyword type = .bool := by
  rcases h with rfl | rfl | rfl <;> simp [declaredKeyword, ValueType.keyword]

/-- A statement that starts with a type. -/
theorem statement_declaration {stop : Span} {d : Draft} {around : Surroundings} {k : Keyword}
    {s : Statement} (hk : k = .var ∨ k = .int ∨ k = .bool) (hu : u.kind = .keyword k)
    (h : ReadsStatement (declaration (d.site scope stop) u tokens) s rest) :
    ∃ s' r, statement stop d scope around (u :: tokens) = .ok (d.push scope s', r) ∧ r.1 = rest ∧
      s'.view .unplaced = s.view .unplaced := by
  obtain ⟨s', ⟨_, hlt⟩, hdeclaration, rfl, hview⟩ := h
  rw [statement]
  rcases hk with rfl | rfl | rfl <;> simp only [hu]
  all_goals
    rw [bind_run hdeclaration]
    exact ⟨s', _, rfl, rfl, hview⟩

/-- A statement that starts with a name. -/
theorem statement_assignment {stop : Span} {d : Draft} {around : Surroundings} {s : Statement}
    (hu : u.kind = .identifier)
    (h : ReadsStatement (assignment (d.site scope stop) u tokens) s rest) :
    ∃ s' r, statement stop d scope around (u :: tokens) = .ok (d.push scope s', r) ∧ r.1 = rest ∧
      s'.view .unplaced = s.view .unplaced := by
  obtain ⟨s', ⟨_, hlt⟩, hassignment, rfl, hview⟩ := h
  rw [statement]
  simp only [hu]
  rw [bind_run hassignment]
  exact ⟨s', _, rfl, rfl, hview⟩

/-- **A statement without bodies is read again from its tokens.** -/
theorem plain_reads {stop : Span} {d : Draft} {around : Surroundings} {s : Statement}
    (hat : (d.site scope stop).At t scope) (hs : Plain t scope around s)
    (h : Begins tokens s.tokens rest) :
    ∃ s' r, statement stop d scope around tokens = .ok (d.push scope s', r) ∧ r.1 = rest ∧
      s'.view .unplaced = s.view .unplaced := by
  cases hs with
  | @array i element size place span declarable type scalar positive fits =>
    obtain ⟨u, tokens, rfl, hu, h⟩ := h.cons
    have hkind : u.kind = .keyword element.keyword := by
      rw [bare_kind hu, Target.identifier, type]
      rfl
    refine statement_declaration ?_ hkind (declaration_reads_array hat declarable type scalar
      positive fits hkind h)
    rcases scalar with rfl | rfl
    exacts [.inr (.inl rfl), .inr (.inr rfl)]
  | declare span declarable scalar readable =>
    obtain ⟨u, tokens, rfl, hu, h⟩ := h.cons
    have hkind := bare_kind hu
    exact statement_declaration (keyword_of_isScalar scalar) hkind
      (declaration_reads hat declarable scalar hkind readable (readable.written 0) h)
  | assign span target readable =>
    obtain ⟨u, tokens, rfl, hu, h⟩ := h.cons
    exact statement_assignment (bare_kind hu)
      (assignment_reads hat target (bare_raw hu) readable h)
  | assignElement place span target readable =>
    obtain ⟨u, tokens, rfl, hu, h⟩ := h.cons
    exact statement_assignment (bare_kind hu)
      (assignment_reads_element hat target (bare_raw hu) readable h)
  | leave span inLoop =>
    obtain ⟨u, tokens, rfl, hu, h⟩ := h.cons
    have hkind : u.kind = .keyword .break := bare_kind hu
    obtain ⟨⟨_, hlt⟩, hkeyword, rfl⟩ :=
      keywordStatement_run stop (.leave u.span) h
    rw [statement]
    simp only [hkind, inLoop, if_true]
    rw [bind_run hkeyword]
    exact ⟨_, _, rfl, rfl, rfl⟩
  | again span inLoop =>
    obtain ⟨u, tokens, rfl, hu, h⟩ := h.cons
    have hkind : u.kind = .keyword .continue := bare_kind hu
    obtain ⟨⟨_, hlt⟩, hkeyword, rfl⟩ :=
      keywordStatement_run stop (.again u.span) h
    rw [statement]
    simp only [hkind, inLoop, if_true]
    rw [bind_run hkeyword]
    exact ⟨_, _, rfl, rfl, rfl⟩
  | evaluate span readable =>
    obtain ⟨u, tokens, rfl, hu, h⟩ := h.cons
    exact statement_assignment (bare_kind hu)
      (assignment_reads_call hat readable (bare_raw hu) h)

end Plain

/-! ### Statements with bodies -/

section Bodies

variable {stop : Span} {scope : ScopeId} {around : Surroundings} {tokens written rest : List Token}
  {d d' d₁ : Draft} {u : Token}

/-- No `else` stands in front. -/
def NoElse (rest : List Token) : Prop := ∀ u us, rest = u :: us → u.kind ≠ .keyword .orElse

/-- **Reading goes on**: from the tokens and the draft the statements of a scope are read as from
what is behind and the draft there. -/
def Continues (stop : Span) (scope : ScopeId) (around : Surroundings) (d : Draft)
    (tokens : List Token) (d' : Draft) (rest : List Token) : Prop :=
  ∀ braced result r, statements stop d' scope around braced rest = .ok (result, r) →
    ∃ r', statements stop d scope around braced tokens = .ok (result, r') ∧ r'.1 = r.1

/-- One statement is read, and then what is behind it. -/
theorem continues_of_statement
    (h : ∃ r, statement stop d scope around tokens = .ok (d', r) ∧ r.1 = rest) :
    Continues stop scope around d tokens d' rest := by
  obtain ⟨⟨_, hlt⟩, hstatement, rfl⟩ := h
  intro braced result ⟨r, hle⟩ hrest
  cases tokens with
  | nil => exact absurd hlt (Nat.not_lt_zero _)
  | cons u tokens =>
    have hbrace : ¬ u.kind = .rightBrace := by
      intro hkind
      rw [statement] at hstatement
      simp only [hkind] at hstatement
      cases hstatement
    rw [statements, if_neg hbrace, bind_run hstatement]
    dsimp only
    rw [bind_run hrest]
    exact ⟨_, rfl, rfl⟩

/-- The statements of a body through its brace, once they are read. -/
theorem statements_of_continues (h : Continues stop scope around d tokens d' (u :: rest))
    (hu : u.kind = .rightBrace) :
    ∃ r, statements stop d scope around true tokens = .ok (d', r) ∧ r.1 = rest := by
  exact h true d' (Shorter.tail u rest).toAtMost (by rw [statements, if_pos hu]; rfl)

theorem otherwise_none (h : NoElse rest) :
    otherwise stop d scope around rest = .ok (d, none, .all rest) := by
  cases rest with
  | nil => rw [otherwise]
  | cons u rest => rw [otherwise, if_neg (h u rest rfl)]

theorem NoElse.cons (h : u.kind ≠ .keyword .orElse) : NoElse (u :: rest) := by
  intro v us hrest
  obtain ⟨rfl, -⟩ := List.cons.inj hrest
  exact h

/-- Reading from like drafts with like results. -/
def Reads (stop : Span) (scope : ScopeId) (around : Surroundings) (d : Draft)
    (written : List Token) (d' : Draft) : Prop :=
  ∀ {e : Draft} {tokens rest : List Token}, e.Like d → Begins tokens written rest → NoElse rest →
    ∃ e', e'.Like d' ∧ Continues stop scope around e tokens e' rest

/-- The statements of a body, through its brace. -/
theorem statements_reads {inner : ScopeId} {e : Draft} (h : Reads stop inner around d₁ written d')
    (hlike : e.Like d₁) (hbegins : Begins tokens (written ++ [.rightBrace]) rest) :
    ∃ e' r, statements stop e inner around true tokens = .ok (e', r) ∧ r.1 = rest ∧ e'.Like d' := by
  obtain ⟨middle, hwritten, hbegins⟩ := hbegins.append
  obtain ⟨v, middle, rfl, hv, hbegins⟩ := hbegins.cons
  cases hbegins.nil
  have hclose : v.kind = .rightBrace := bare_kind hv
  obtain ⟨e', hlike', hcontinues⟩ := h hlike hwritten (NoElse.cons (by rw [hclose]; nofun))
  obtain ⟨r, hstatements, hr⟩ := statements_of_continues hcontinues hclose
  exact ⟨e', r, hstatements, hr, hlike'⟩

/-- A body, in its braces. -/
theorem body_reads {inner : ScopeId} {e : Draft} (h : Reads stop inner around d₁ written d')
    (hlike : e.Like d) (opened : d.openScope scope = (d₁, inner))
    (hbegins : Begins tokens (braced written) rest) :
    ∃ e' r, body stop e scope around tokens = .ok (e', inner, r) ∧ r.1 = rest ∧ e'.Like d' := by
  obtain ⟨u, tokens, rfl, hu, hbegins⟩ := hbegins.cons
  have hopen : u.kind = .leftBrace := bare_kind hu
  obtain ⟨e₁, hopened, hlike₁⟩ := hlike.openScope opened
  obtain ⟨e', ⟨_, hle⟩, hstatements, rfl, hlike'⟩ := statements_reads h hlike₁ hbegins
  rw [body, hopened]
  dsimp only
  rw [if_pos hopen, bind_run hstatements]
  exact ⟨e', _, rfl, rfl, hlike'⟩

/-- A condition and the body behind it. -/
theorem head_reads {inner : ScopeId} {f : Draft} {e : Expression} (missing : ErrorCode)
    (expected : String) (condition : Condition d.tree scope e)
    (hbody : Reads stop inner around d₁ written d') (hlike : f.Like d)
    (opened : d.openScope scope = (d₁, inner))
    (h : Begins tokens (e.tokens ++ braced written) rest) :
    ∃ value r f' r', Parser.condition (f.site scope stop) missing expected tokens = .ok (value, r) ∧
      body stop f scope around r.1 = .ok (f', inner, r') ∧ r'.1 = rest ∧ f'.Like d' ∧
        value.view .unplaced = e.view .unplaced := by
  obtain ⟨middle, hcondition, h⟩ := h.append
  obtain ⟨value, r, hvalue, rfl, hview⟩ :=
    condition_reads missing expected (hlike.site stop) condition hcondition
  obtain ⟨f', r', hbody, hr, hlike'⟩ := body_reads hbody hlike opened h
  exact ⟨value, r, f', r', hvalue, hbody, hr, hlike', hview⟩

theorem NoElse.of_begins (hwritten : NoElse written) (hrest : NoElse rest)
    (h : Begins tokens written rest) : NoElse tokens := by
  cases written with
  | nil =>
    cases h.nil
    exact hrest
  | cons t written =>
    obtain ⟨u, tokens, rfl, hu, -⟩ := h.cons
    refine NoElse.cons ?_
    rw [bare_kind hu]
    exact hwritten t written rfl

theorem NoElse.append {more : List Token} (h : NoElse written) (h' : NoElse more) :
    NoElse (written ++ more) := by
  cases written with
  | nil => exact h'
  | cons t written => exact NoElse.cons (h t written rfl)

theorem Plain.noElse {t : Tree} {s : Statement} (h : Plain t scope around s) : NoElse s.tokens := by
  cases h with
  | array place span declarable type scalar => exact NoElse.cons (by
      rw [Target.identifier, type]
      rcases scalar with rfl | rfl <;> simp [declaredKeyword, ValueType.keyword, Token.keyword])
  | declare span declarable scalar => exact NoElse.cons (by
      rcases scalar with h | h | h <;> (rw [Target.identifier, h]; decide))
  | _ => exact NoElse.cons fun h => by cases h

/-- No statement starts with `else`. -/
theorem Draws.noElse {l : List Statement} (h : Draws d scope around l written d') :
    NoElse written := by
  induction h with
  | nil => exact fun u us h => nomatch h
  | cons _ _ ih ih' => exact ih.append ih'
  | plain statement => exact statement.noElse
  | _ => exact NoElse.cons fun h => by cases h

/-! ### Functions -/

section Functions

variable {t t' tree : Tree} {type : Option ValueType}

theorem parameterType_run (hscalar : IsScalar type)
    (hu : u.kind = .keyword (declaredKeyword type)) : parameterType u = .ok type := by
  rw [parameterType, hu]
  rcases hscalar with rfl | rfl | rfl <;> rfl

/-- Parameters, through the parenthesis behind them. -/
theorem parametersFrom_reads (stop : Span) {ps : List Identifier}
    (h : DrawsParameters scope t ps t') :
    ∀ {tree : Tree} {tokens rest : List Token}, tree.Same t → ps ≠ [] →
      Begins tokens (parameterTokens ps ++ [.rightParen]) rest →
      ∃ tree' r, parametersFrom stop tree scope tokens = .ok (tree', r) ∧ r.1 = rest ∧
        tree'.Same t' := by
  induction h with
  | nil => exact fun _ hne => absurd rfl hne
  | @cons t t' i ps declarable scalar others ih =>
    intro tree tokens rest hsame _ h
    obtain ⟨u, v, w, tokens, rfl, hu, hv, hw⟩ : ∃ u v w tokens', tokens = u :: v :: w :: tokens' ∧
        u.bare = .keyword (declaredKeyword i.type) ∧ v.bare = .named i.name ∧
        ((ps = [] ∧ w.bare = .rightParen ∧ tokens' = rest) ∨ (ps ≠ [] ∧ w.bare = .comma ∧
          Begins tokens' (parameterTokens ps ++ [.rightParen]) rest)) := by
      cases ps with
      | nil =>
        obtain ⟨u, tokens, rfl, hu, h⟩ := h.cons
        obtain ⟨v, tokens, rfl, hv, h⟩ := h.cons
        obtain ⟨w, tokens, rfl, hw, h⟩ := h.cons
        exact ⟨u, v, w, tokens, rfl, hu, hv, .inl ⟨rfl, hw, h.nil⟩⟩
      | cons next ps =>
        obtain ⟨u, tokens, rfl, hu, h⟩ := h.cons
        obtain ⟨v, tokens, rfl, hv, h⟩ := h.cons
        obtain ⟨w, tokens, rfl, hw, h⟩ := h.cons
        exact ⟨u, v, w, tokens, rfl, hu, hv, .inr ⟨List.cons_ne_nil _ _, hw, h⟩⟩
    have htype : u.kind = .keyword (declaredKeyword i.type) := bare_kind hu
    have hname : v.kind = .identifier := bare_kind hv
    have hraw : v.raw = i.name := bare_raw hv
    have hfresh : checkFresh tree scope v = .ok () :=
      checkFresh_run (hraw ▸ hsame.fresh declarable.fresh)
    have hpushed : (tree.push scope (.parameter ⟨v.raw, i.type, some scope, v.span⟩)).Same
        (t.push scope (.parameter i)) := by
      refine hsame.push ?_
      have hbound := declarable.bound
      cases i
      cases hbound
      rw [hraw]
      rfl
    rw [parametersFrom, bind_run next_run]
    dsimp only [Shorter.tail]
    rw [bind_run (parameterType_run scalar htype), bind_run (expect_run hname)]
    dsimp only [Shorter.tail]
    rw [bind_run hfresh, bind_run next_run]
    rcases hw with ⟨rfl, hw, rfl⟩ | ⟨hne, hw, h⟩
    · have hclose : w.kind = .rightParen := bare_kind hw
      cases others
      simp only [hclose]
      exact ⟨_, _, rfl, rfl, hpushed⟩
    · have hcomma : w.kind = .comma := bare_kind hw
      obtain ⟨tree', ⟨_, hlt⟩, hothers, rfl, hsame'⟩ := ih hpushed hne h
      simp only [hcomma, Shorter.tail]
      rw [bind_run hothers]
      exact ⟨tree', _, rfl, rfl, hsame'⟩

theorem parameters_reads (stop : Span) {ps : List Identifier} (hps : DrawsParameters scope t ps t')
    (hsame : tree.Same t) (h : Begins tokens (parameterTokens ps ++ [.rightParen]) rest) :
    ∃ tree' r, parameters stop tree scope tokens = .ok (tree', r) ∧ r.1 = rest ∧
      tree'.Same t' := by
  cases ps with
  | nil =>
    cases hps
    obtain ⟨u, tokens, rfl, hu, h⟩ := h.cons
    cases h.nil
    have hclose : u.kind = .rightParen := bare_kind hu
    rw [parameters, if_pos hclose]
    exact ⟨tree, _, rfl, rfl, hsame⟩
  | cons i ps =>
    have hfrom := parametersFrom_reads stop hps hsame (List.cons_ne_nil i ps) h
    obtain ⟨u, tokens, rfl, hu⟩ : ∃ u tokens', tokens = u :: tokens' ∧
        u.bare = .keyword (declaredKeyword i.type) := by
      cases ps <;> obtain ⟨u, tokens, rfl, hu, -⟩ := h.cons <;> exact ⟨u, tokens, rfl, hu⟩
    have hopen : ¬ u.kind = .rightParen := by
      simp [bare_kind hu, Token.keyword]
    rw [parameters, if_neg hopen]
    exact hfrom

/-- The type that a function returns, in front of its body. -/
theorem returnType_reads (stop : Span) (hscalar : IsScalar type) (hu : u.kind = .leftBrace)
    (h : Begins tokens (returnTokens type) (u :: rest)) :
    ∃ r, returnType stop tokens = .ok (type, r) ∧ r.1 = u :: rest := by
  rcases hscalar with rfl | rfl | rfl
  · cases h.nil
    rw [returnType, if_neg (by simp [hu])]
    exact ⟨_, rfl, rfl⟩
  all_goals
    obtain ⟨v, tokens, rfl, hv, h⟩ := h.cons
    obtain ⟨w, tokens, rfl, hw, h⟩ := h.cons
    cases h.nil
    have harrow : v.kind = .arrow := bare_kind hv
    have htype := bare_kind hw
    rw [returnType, if_pos harrow, bind_run next_run]
    simp only [htype, Token.keyword, ValueType.keyword]
    exact ⟨_, rfl, rfl⟩

end Functions

/-- A function, behind its keyword, once the statements of its body are read. -/
theorem function_reads (stop : Span) {inside : Draft} {t₁ t₂ t₃ : Tree} {i : Identifier}
    {arguments inner : ScopeId} {ps : List Identifier} {f : Draft} (span : Span) (keyword : Token)
    (hlike : f.Like d) (fresh : d.tree.FreshFunction scope i.name) (bound : i.binding = some scope)
    (scalar : IsScalar i.type) (opened : d.tree.addScope [scope] = (t₁, arguments))
    (parameters : DrawsParameters arguments t₁ ps t₂)
    (opened' : t₂.addScope [arguments] = (t₃, inner))
    (hbody : Reads stop inner { inFunction := true } ⟨t₃, false⟩ written inside)
    (returns : inside.returned = true → i.type ≠ none)
    (h : Begins tokens (.named i.name :: .leftParen :: ((parameterTokens ps ++ [.rightParen]) ++
      (returnTokens i.type ++ braced written))) rest) :
    ∃ f' s r, function stop f scope keyword tokens = .ok (f', s, r) ∧ r.1 = rest ∧
      f'.Like { d with tree := inside.tree } ∧
      s.view .unplaced = (Statement.function i arguments inner i.type span).view .unplaced := by
  obtain ⟨v, tokens, rfl, hv, h⟩ := h.cons
  obtain ⟨w, tokens, rfl, hw, h⟩ := h.cons
  obtain ⟨middle, hps, h⟩ := h.append
  obtain ⟨last, hreturns, hbraced⟩ := h.append
  obtain ⟨x, last, rfl, hx, hinner⟩ := hbraced.cons
  have hname : v.kind = .identifier := bare_kind hv
  have hraw : v.raw = i.name := bare_raw hv
  have hparen : w.kind = .leftParen := bare_kind hw
  have hopen : x.kind = .leftBrace := bare_kind hx
  obtain ⟨rfl, rfl⟩ := addScope_ok opened
  obtain ⟨rfl, rfl⟩ := addScope_ok opened'
  have hfresh : checkFreshFunction f.tree scope v = .ok () :=
    if_neg (Bool.eq_false_iff.mp (hraw ▸ hlike.tree.freshFunction fresh))
  obtain ⟨tree₁, ⟨_, hlt⟩, hparameters, rfl, hsame₁⟩ :=
    parameters_reads stop parameters (hlike.tree.addScope [scope]) hps
  obtain ⟨⟨_, hle⟩, hreturnType, rfl⟩ := returnType_reads stop scalar hopen hreturns
  have hlike₁ : Draft.Like ⟨(tree₁.addScope [d.tree.scopes.size]).1, false⟩
      ⟨(t₂.addScope [d.tree.scopes.size]).1, false⟩ :=
    ⟨hsame₁.addScope [d.tree.scopes.size], rfl⟩
  obtain ⟨inside', ⟨_, hle'⟩, hstatements, rfl, hinside⟩ := statements_reads hbody hlike₁ hinner
  have hreturned : ¬ (inside'.returned = true ∧ i.type = none) := fun ⟨hgives, htype⟩ =>
    returns (hinside.returned.symm.trans hgives) htype
  rw [function, bind_run (expect_run hname)]
  dsimp only [Shorter.tail]
  rw [bind_run hfresh, bind_run (expect_run hparen)]
  have hopened : f.tree.addScope [scope] = ((f.tree.addScope [scope]).1, d.tree.scopes.size) := by
    rw [← hlike.tree.size]
    rfl
  have hopened' : tree₁.addScope [d.tree.scopes.size] =
      ((tree₁.addScope [d.tree.scopes.size]).1, t₂.scopes.size) := by
    rw [← hsame₁.size]
    rfl
  rw [hopened]
  dsimp only [Shorter.tail]
  rw [bind_run hparameters]
  dsimp only
  rw [bind_run hreturnType]
  dsimp only
  rw [bind_run (expect_run hopen), hopened']
  dsimp only [Shorter.tail]
  rw [bind_run hstatements]
  dsimp only
  rw [if_neg hreturned]
  refine ⟨_, _, _, rfl, rfl, ⟨hinside.tree, hlike.returned⟩, ?_⟩
  cases i
  cases bound
  rw [hraw]
  rfl

/-! ### All statements -/

section Statements

variable {d₂ d₃ : Draft} {inner other : ScopeId} {e : Expression} {written' : List Token}

/-- Statements one behind the other. -/
theorem Reads.append (hfirst : Reads stop scope around d written d₁)
    (hothers : Reads stop scope around d₁ written' d') (hnext : NoElse written') :
    Reads stop scope around d (written ++ written') d' := by
  intro f tokens rest hlike h hrest
  obtain ⟨middle, hwritten, hwritten'⟩ := h.append
  obtain ⟨f₁, hlike₁, hcontinues⟩ := hfirst hlike hwritten (hnext.of_begins hrest hwritten')
  obtain ⟨f', hlike', hcontinues'⟩ := hothers hlike₁ hwritten' hrest
  refine ⟨f', hlike', fun braced result r h => ?_⟩
  obtain ⟨r₁, h₁, hr₁⟩ := hcontinues' braced result r h
  obtain ⟨r₂, h₂, hr₂⟩ := hcontinues braced result r₁ h₁
  exact ⟨r₂, h₂, hr₂.trans hr₁⟩

/-- A `return`. -/
theorem reads_give (span : Span) (inFunction : around.inFunction = true)
    (readable : e.Readable d.tree scope) : Reads stop scope around d (Statement.give e span).tokens
      { d.push scope (.give e span) with returned := true } := by
  intro f tokens rest hlike h _
  obtain ⟨u, tokens, rfl, hu, h⟩ := h.cons
  have hkind : u.kind = .keyword .return := bare_kind hu
  obtain ⟨s', ⟨_, hlt⟩, hreturned, rfl, hview⟩ :=
    returned_reads span u (hlike.site stop) readable h
  refine ⟨{ f.push _ s' with returned := true }, ⟨(hlike.push hview).tree, rfl⟩,
    continues_of_statement ?_⟩
  rw [statement]
  simp only [hkind, inFunction, if_true]
  rw [bind_run hreturned]
  exact ⟨_, rfl, rfl⟩

/-- A block. -/
theorem reads_block (opened : d.openScope scope = (d₁, inner))
    (hbody : Reads stop inner around d₁ written d') :
    Reads stop scope around d (braced written) (d'.push scope (.block inner)) := by
  intro f tokens rest hlike h _
  obtain ⟨u, tokens, rfl, hu, h⟩ := h.cons
  have hkind : u.kind = .leftBrace := bare_kind hu
  obtain ⟨f₁, hopened, hlike₁⟩ := hlike.openScope opened
  obtain ⟨f', ⟨_, hle⟩, hstatements, rfl, hlike'⟩ := statements_reads hbody hlike₁ h
  refine ⟨_, hlike'.push rfl, continues_of_statement ?_⟩
  rw [statement]
  simp only [hkind, hopened]
  rw [bind_run hstatements]
  exact ⟨_, rfl, rfl⟩

/-- A loop, once its body is read. -/
theorem reads_loop (span : Span) (condition : Condition d.tree scope e)
    (opened : d.openScope scope = (d₁, inner))
    (hbody : Reads stop inner { around with inLoop := true } d₁ written d') :
    Reads stop scope around d (.keyword .while :: (e.tokens ++ braced written))
      (d'.push scope (.loop e inner span)) := by
  intro f tokens rest hlike h _
  obtain ⟨u, tokens, rfl, hu, h⟩ := h.cons
  have hkind : u.kind = .keyword .while := bare_kind hu
  obtain ⟨value, ⟨_, hlt⟩, f', ⟨_, hle⟩, hvalue, hbody, rfl, hlike', hview⟩ :=
    head_reads .whileMissingOpeningParenthesis "expected `(` after `while`" condition hbody hlike
      opened h
  have hs : (Statement.loop value inner (u.span.upTo value.span)).view .unplaced =
      (Statement.loop e inner span).view .unplaced := by
    simp only [Statement.view, hview]
  refine ⟨_, hlike'.push hs, continues_of_statement ?_⟩
  rw [statement]
  simp only [hkind]
  rw [bind_run hvalue]
  dsimp only
  rw [bind_run hbody]
  exact ⟨_, rfl, rfl⟩

/-- A branch without an `else`, once its body is read. -/
theorem reads_branch (span : Span) (condition : Condition d.tree scope e)
    (opened : d.openScope scope = (d₁, inner)) (hbody : Reads stop inner around d₁ written d') :
    Reads stop scope around d (.keyword .ifThen :: (e.tokens ++ braced written))
      (d'.push scope (.branch e inner none span)) := by
  intro f tokens rest hlike h hrest
  obtain ⟨u, tokens, rfl, hu, h⟩ := h.cons
  have hkind : u.kind = .keyword .ifThen := bare_kind hu
  obtain ⟨value, ⟨_, hlt⟩, f', ⟨_, hle⟩, hvalue, hbody, rfl, hlike', hview⟩ :=
    head_reads .ifMissingOpeningParenthesis "expected `(` after `if`" condition hbody hlike
      opened h
  have hs : (Statement.branch value inner none (u.span.upTo value.span)).view .unplaced =
      (Statement.branch e inner none span).view .unplaced := by
    simp only [Statement.view, hview]
  refine ⟨_, hlike'.push hs, continues_of_statement ?_⟩
  rw [statement]
  simp only [hkind]
  rw [bind_run hvalue]
  dsimp only
  rw [bind_run hbody]
  dsimp only
  rw [bind_run (otherwise_none hrest)]
  exact ⟨_, rfl, rfl⟩

/-- A branch with an `else`, once both bodies are read. -/
theorem reads_branchElse (span : Span) (condition : Condition d.tree scope e)
    (opened : d.openScope scope = (d₁, inner)) (hbody : Reads stop inner around d₁ written d₂)
    (opened' : d₂.openScope scope = (d₃, other)) (hbody' : Reads stop other around d₃ written' d') :
    Reads stop scope around d
      (.keyword .ifThen :: (e.tokens ++ (braced written ++ .keyword .orElse :: braced written')))
      (d'.push scope (.branch e inner (some other) span)) := by
  intro f tokens rest hlike h _
  obtain ⟨u, tokens, rfl, hu, h⟩ := h.cons
  have hkind : u.kind = .keyword .ifThen := bare_kind hu
  rw [← List.append_assoc] at h
  obtain ⟨last, hhead, h⟩ := h.append
  obtain ⟨v, last, rfl, hv, h⟩ := h.cons
  have helse : v.kind = .keyword .orElse := bare_kind hv
  obtain ⟨value, ⟨_, hlt⟩, f₁, ⟨_, hle⟩, hvalue, hbody, rfl, hlike₁, hview⟩ :=
    head_reads .ifMissingOpeningParenthesis "expected `(` after `if`" condition hbody hlike
      opened hhead
  obtain ⟨f', ⟨_, hle'⟩, hbody', rfl, hlike'⟩ := body_reads hbody' hlike₁ opened' h
  have hs : (Statement.branch value inner (some other) (u.span.upTo value.span)).view .unplaced =
      (Statement.branch e inner (some other) span).view .unplaced := by
    simp only [Statement.view, hview]
  refine ⟨_, hlike'.push hs, continues_of_statement ?_⟩
  rw [statement]
  simp only [hkind]
  rw [bind_run hvalue]
  dsimp only
  rw [bind_run hbody]
  dsimp only
  rw [Parser.otherwise, if_pos helse, bind_run hbody']
  exact ⟨_, rfl, rfl⟩

end Statements

/-- **Statements are read again from their tokens**, whatever stands behind them but an `else`. -/
theorem Draws.reads {l : List Statement} (h : Draws d scope around l written d') (stop : Span) :
    Reads stop scope around d written d' := by
  induction h with
  | nil d scope around =>
    intro e tokens rest hlike h _
    cases h.nil
    exact ⟨e, hlike, fun _ _ r hrest => ⟨r, hrest, rfl⟩⟩
  | cons first others ih ih' => exact ih.append ih' others.noElse
  | plain statement =>
    intro e tokens rest hlike h _
    obtain ⟨s', r, hstatement, hr, hview⟩ := plain_reads (hlike.site stop) statement h
    exact ⟨_, hlike.push hview, continues_of_statement ⟨r, hstatement, hr⟩⟩
  | give span inFunction readable => exact reads_give span inFunction readable
  | block opened body ih => exact reads_block opened ih
  | loop span condition opened body ih => exact reads_loop span condition opened ih
  | branch span condition opened body ih => exact reads_branch span condition opened ih
  | branchElse span condition opened body opened' _ ih ih' =>
    exact reads_branchElse span condition opened ih opened' ih'
  | function span name fresh bound scalar opened parameters opened' body returns ih =>
    intro f tokens rest hlike h _
    obtain ⟨u, tokens, rfl, hu, h⟩ := h.cons
    have hkind : u.kind = .keyword .fn := bare_kind hu
    obtain ⟨f', s, ⟨_, hlt⟩, hfunction, rfl, hlike', hs⟩ := function_reads stop span u hlike fresh
      bound scalar opened parameters opened' ih returns h
    refine ⟨_, hlike'.push hs, continues_of_statement ?_⟩
    rw [statement]
    simp only [hkind]
    rw [bind_run hfunction]
    exact ⟨_, rfl, rfl⟩

end Bodies

end Parser

end RegisterMachine.Structured
