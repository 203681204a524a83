import RegisterMachine.Proofs.Structured.Binding
import RegisterMachine.Proofs.Structured.Settling
import RegisterMachine.Toolchain

/-! # One pass of types is enough

Types are filled in statement by statement, each from the types that were found before it. In the
tree that comes out, every declaration that had no type has the type of its initial value as it is
found in that same tree, so a second pass finds nothing new.

* `Tree.TypeOfBinding`, `Tree.Infers`: the type of a name, and that of an expression.
* `Statement.Filled`: what a pass may change of a statement.
* `typeOfName?_iff`, `typeOf?_iff`: in the tree that comes out, the types that are looked up are
  these.
* `inferTypes_fixed`: one pass comes to the end. -/

namespace RegisterMachine.Structured

open RegisterMachine.Success

/-! ### The type of an expression -/

/-- **The declaration that the name is bound to** has this type. -/
def Tree.TypeOfBinding (t : Tree) (j : Identifier) (type : ValueType) : Prop :=
  ∃ id s i, t.statement? id = some s ∧ s.declared? = some i ∧ j.binding = some id.scope ∧
    i.name = j.name ∧ i.type = some type

/-- **The type of an initial value**, where each name has the type of the declaration that it is
bound to. -/
inductive Tree.Infers (t : Tree) : Expression → ValueType → Prop
  | number (value : UInt32) (span : Span) : Infers t (.number value span) .int
  | arithmetic {op : Operator} (computes : op.isComparison = false) (left right : Expression)
    (span : Span) : Infers t (.binary op left right span) .int
  | comparison {op : Operator} (compares : op.isComparison = true) (left right : Expression)
    (span : Span) : Infers t (.binary op left right span) .bool
  | element {i : Identifier} {element : ValueType} {size : Nat}
    (declared : t.TypeOfBinding i (.array element size)) (index : Expression) (span : Span) :
    Infers t (.element i index span) element
  | call {id : StatementId} {f : Identifier} {parameters body : ScopeId} {type : ValueType}
    {place : Span}
    (function : t.statement? id = some (.function f parameters body (some type) place))
    (i : Identifier) (arguments : List Expression) (span : Span) :
    Infers t (.call i arguments (some id) span) type
  | name {i : Identifier} {type : ValueType} (declared : t.TypeOfBinding i type) :
    Infers t (.name i) type

/-- **What a pass may change of a statement**: the type of an untyped declaration, and that of an
untyped name that is returned. -/
inductive Statement.Filled : Statement → Statement → Prop
  | same (s : Statement) : Filled s s
  | declaration {i : Identifier} (untyped : i.type = none) (type : Option ValueType)
    (e : Expression) (span : Span) :
    Filled (.assign (.name i) e true span) (.assign (.name { i with type }) e true span)
  | give {i : Identifier} (untyped : i.type = none) (type : Option ValueType) (span : Span) :
    Filled (.give (.name i) span) (.give (.name { i with type }) span)

theorem exists_array {j : Identifier} (h : Site.namesArray j = true) :
    ∃ element size, j.type = some (.array element size) := by
  rw [Site.namesArray] at h
  rcases hj : j.type with _ | _ | _ | ⟨element, size⟩ <;> rw [hj] at h
  case some.array => exact ⟨element, size, rfl⟩
  all_goals cases h

theorem Tree.filled_inferStatement (t : Tree) (s : Statement) : s.Filled (t.inferStatement s) := by
  unfold inferStatement
  split
  · rename_i i e span
    split
    · exact .same _
    · rename_i hnone
      exact .declaration hnone _ e span
  · rename_i i span
    cases hi : i.type with
    | none => exact .give hi _ span
    | some type =>
      have hsame : { i with type := t.typeOfName? i } = i := by
        rw [typeOfName?, hi]
        cases i
        cases hi
        rfl
      rw [hsame]
      exact .same _
  · exact .same _

/-! ### The tree that comes out -/

section Result

variable {t : Tree} {id : StatementId} {s : Statement} {e : Expression} {i j : Identifier}
  {type : ValueType} {span : Span}

namespace Tree.Lexical

/-- In the tree that comes out, as in any tree on the way to it, names that are declared before have
their final types. -/
theorem midway_self (t : Tree) (id : StatementId) : t.Midway id t.inferTypes :=
  ⟨fun _ _ => rfl, view_inferTypes⟩

/-- All trees on the way find the same type for an expression whose names are declared before. -/
theorem typeOf?_midway (h : t.Lexical) {p : Tree} (hmid : t.Midway id p)
    (hnames : ∀ j ∈ e.names, t.DeclaredBefore id j) : p.typeOf? e = t.inferTypes.typeOf? e := by
  have htype : ∀ j ∈ e.names, p.typeOfName? j = t.inferTypes.typeOfName? j := by
    intro j hj
    rw [hmid.typeOfName h (fun id' _ => h.finished id') (hnames j hj),
      (midway_self t id).typeOfName h (fun id' _ => h.finished id') (hnames j hj)]
  cases e with
  | name j => exact htype j (List.mem_singleton_self j)
  | element j index span => exact congrArg (·.map ValueType.element) (htype j List.mem_cons_self)
  | call i es resolved span =>
    cases resolved with
    | none => rfl
    | some callee =>
      exact (hmid.returnType callee).trans ((midway_self t id).returnType callee).symm
  | number | binary | new => rfl

/-- **The type that is looked up for a name** is that of its declaration. -/
theorem typeOfName?_iff (h : t.Lexical) (hj : t.DeclaredBefore id j) :
    t.inferTypes.typeOfName? j = some type ↔ t.inferTypes.TypeOfBinding j type := by
  obtain ⟨scope, i, hbinding, hdeclaration, htype, -⟩ :=
    (midway_self t id).declaration h (fun id' _ => h.finished id') hj
  have hlookup := (midway_self t id).typeOfName h (fun id' _ => h.finished id') hj
  rw [hlookup, ← htype]
  constructor
  · intro hi
    obtain ⟨id', s, hs, rfl, hdeclared, hname, -⟩ := declaration?_ok hdeclaration
    exact ⟨id', s, i, hs, hdeclared, hbinding, hname, hi⟩
  · -- no other declaration of the name is in the scope
    rintro ⟨id', s, i', hs, hdeclared, hbinding', hname, htype'⟩
    have hfound := h.declaration?_eq view_inferTypes hs hdeclared
    cases hbinding.symm.trans hbinding'
    rw [hname, hdeclaration] at hfound
    cases hfound
    exact htype'

/-- **The type that is looked up for an expression** is the one that it has by the rules. -/
theorem typeOf?_iff (h : t.Lexical) (hnames : ∀ j ∈ e.names, t.DeclaredBefore id j)
    (hvalue : e.IsValue) : t.inferTypes.typeOf? e = some type ↔ t.inferTypes.Infers e type := by
  cases e with
  | number value span =>
    refine ⟨fun hi => ?_, ?_⟩
    · cases hi
      exact .number value span
    · rintro ⟨⟩
      rfl
  | name j =>
    refine (h.typeOfName?_iff (hnames j (List.mem_singleton_self j))).trans ⟨.name, ?_⟩
    rintro ⟨⟩
    assumption
  | binary op left right span =>
    rw [typeOf?, ValueType.ofOperator]
    refine ⟨fun hi => ?_, ?_⟩
    · cases hi
      split
      · exact .comparison ‹_› left right span
      · exact .arithmetic (Bool.eq_false_iff.mpr ‹_›) left right span
    · rintro (_ | ⟨hcomputes⟩ | ⟨hcompares⟩)
      · rw [hcomputes]
        rfl
      · rw [hcompares]
        rfl
  | element j index span =>
    have hdeclared := hnames j List.mem_cons_self
    rw [typeOf?]
    constructor
    · intro hi
      obtain ⟨own, hown, rfl⟩ := Option.map_eq_some_iff.mp hi
      have hbinding := (h.typeOfName?_iff hdeclared).mp hown
      obtain ⟨element, size, hj⟩ := exists_array hvalue
      rw [typeOfName?, hj] at hown
      cases hown
      exact .element hbinding index span
    · rintro (_ | _ | _ | ⟨hbinding, -, -⟩)
      rw [(h.typeOfName?_iff hdeclared).mpr hbinding]
      rfl
  | new => exact hvalue.elim
  | call i es resolved span =>
    constructor
    · intro hi
      obtain ⟨callee, rfl, hreturns⟩ := Option.bind_eq_some_iff.mp hi
      rw [returnType?] at hreturns
      split at hreturns
      · rename_i f parameters body returns place hs
        rw [hreturns] at hs
        exact .call hs i es span
      · cases hreturns
    · rintro (_ | _ | _ | _ | ⟨hs⟩)
      rw [typeOf?, Option.bind_some, returnType?, hs]

/-- **A declaration without a type** has that of its initial value in the tree that comes out. -/
theorem declaration_filled (h : t.Lexical)
    (hs : t.statement? id = some (.assign (.name i) e true span)) (hi : i.type = none) :
    ∃ type, t.inferTypes.statement? id = some (.assign (.name { i with type }) e true span) ∧
      type = t.inferTypes.typeOf? e ∧
      ∀ inferred, type = some inferred ↔ t.inferTypes.Infers e inferred := by
  obtain ⟨p, hmid, hfinal, -⟩ := h.exists_midway hs
  have hnames : ∀ j ∈ e.names, t.DeclaredBefore id j := h.used id _ hs
  have hvalue : e.IsValue := by
    rcases h.typed id _ hs with ⟨element, size, harray, -⟩ | ⟨-, hvalue⟩
    · cases hi.symm.trans harray
    · exact hvalue
  rw [inferStatement_none hi] at hfinal
  have heq := h.typeOf?_midway hmid hnames
  refine ⟨p.typeOf? e, hfinal, heq, fun inferred => ?_⟩
  rw [heq]
  exact h.typeOf?_iff hnames hvalue

/-- A name that is returned has the type of its declaration in the tree that comes out. -/
theorem give_filled (h : t.Lexical) (hs : t.statement? id = some (.give (.name i) span)) :
    ∃ type, t.inferTypes.statement? id = some (.give (.name { i with type }) span) ∧
      type = t.inferTypes.typeOfName? i ∧
      ∀ declared, type = some declared ↔ t.inferTypes.TypeOfBinding i declared := by
  obtain ⟨p, hmid, hfinal, -⟩ := h.exists_midway hs
  have hnames : ∀ j ∈ (Expression.name i).names, t.DeclaredBefore id j := h.used id _ hs
  have heq : p.typeOfName? i = t.inferTypes.typeOfName? i := h.typeOf?_midway hmid hnames
  refine ⟨p.typeOfName? i, hfinal, heq, fun declared => ?_⟩
  rw [heq]
  exact h.typeOfName?_iff (hnames i (List.mem_singleton_self i))

theorem typeOfName?_untyped {p : Tree} (h : p.typeOfName? i = none) :
    p.typeOfName? { i with type := none } = none := by
  obtain ⟨name, type, binding, place⟩ := i
  cases type with
  | none => exact h
  | some type => cases h

/-- **A second pass finds nothing new.** -/
theorem inferTypes_again (h : t.Lexical) : t.inferTypes.inferTypes = t.inferTypes := by
  refine inferTypes_eq_self fun id s' hs' => ?_
  obtain ⟨s, hs, -⟩ := statement?_of_view view_inferTypes.symm hs'
  obtain ⟨p, -, hfinal, -⟩ := h.exists_midway hs
  cases hfinal.symm.trans hs'
  cases s with
  | assign target e initial span =>
    cases target <;> cases initial <;> try rfl
    rename_i i
    cases hi : i.type with
    | some type => rw [inferStatement_some hi, inferStatement_some hi]
    | none =>
      obtain ⟨type, htyped, heq, -⟩ := h.declaration_filled hs hi
      rw [Option.some.inj (hfinal.symm.trans htyped)]
      cases type with
      | some type => exact inferStatement_some rfl
      | none =>
        rw [inferStatement_none rfl, ← heq]
  | give e span =>
    cases e <;> try rfl
    rename_i i
    obtain ⟨type, htyped, heq, -⟩ := h.give_filled hs
    rw [Option.some.inj (hfinal.symm.trans htyped), inferStatement]
    cases type with
    | some type => rfl
    | none => rw [typeOfName?_untyped heq.symm]
  | _ => rfl

end Tree.Lexical

end Result

/-- **The tree after a pass**, against the tree before: the scopes are the same, and no statement is
changed but those that may be. -/
structure Tree.Filled (t t' : Tree) : Prop where
  size : t'.scopes.size = t.scopes.size
  shared : ∀ x, (t'.scope x).shared = (t.scope x).shared
  statements : ∀ id, Option.Rel Statement.Filled (t.statement? id) (t'.statement? id)

theorem Tree.Lexical.filled {t : Tree} (h : t.Lexical) : t.Filled t.inferTypes where
  size := by rw [← size_view (v := .untyped), view_inferTypes, size_view]
  shared x := by
    have hscope := congrArg (fun t : Tree => (t.scope x).shared) t.view_inferTypes
    simpa only [scope_view, Scope.view] using hscope
  statements id := by
    cases hs : t.statement? id with
    | some s =>
      obtain ⟨p, -, hfinal, -⟩ := h.exists_midway hs
      rw [hfinal]
      exact .some (p.filled_inferStatement s)
    | none =>
      cases hs' : t.inferTypes.statement? id with
      | none => exact .none
      | some s' =>
        obtain ⟨s, hs₀, -⟩ := statement?_of_view view_inferTypes.symm hs'
        cases hs.symm.trans hs₀

/-! ### Every tree that is read -/

namespace Parser

/-- **One pass reaches the fixed point.** When a tree was read and its calls were bound, types can
be filled in. Only untyped declarations and untyped names that are returned get a type. In the tree
that comes out, an untyped declaration has just the type of its initial value, as this tree says
it, or none if it says none, and a name that is returned that of its declaration. A second pass
changes nothing. -/
theorem inferTypes_fixed {tokens : List Token} {read t : Tree} (h : parse tokens = .ok read)
    (hbound : read.bindCalls = .ok t) :
    (∀ source, tokenize source = .ok tokens → analyze source = .ok t.inferTypes) ∧
    t.Filled t.inferTypes ∧
    (∀ id i e span, t.statement? id = some (.assign (.name i) e true span) → i.type = none →
      ∃ type, t.inferTypes.statement? id = some (.assign (.name { i with type }) e true span) ∧
        ∀ inferred, type = some inferred ↔ t.inferTypes.Infers e inferred) ∧
    (∀ id i span, t.statement? id = some (.give (.name i) span) →
      ∃ type, t.inferTypes.statement? id = some (.give (.name { i with type }) span) ∧
        ∀ declared, type = some declared ↔ t.inferTypes.TypeOfBinding i declared) ∧
    t.inferTypes.inferTypes = t.inferTypes := by
  have hview : read.view .unbound = t.view .unbound :=
    (Tree.view_bindCalls (fun _ => rfl) hbound).symm
  have lexical : t.Lexical := (parse_lexical h).of_view hview
  refine ⟨fun source hsource => ?_, lexical.filled, fun id i e span hs hi => ?_,
    fun id i span hs => ?_, lexical.inferTypes_again⟩
  · rw [analyze, hsource]
    show (parse tokens >>= fun tree => tree.bindCalls >>= fun tree => pure tree.inferTypes) = _
    rw [bind_run h, bind_run hbound]
    rfl
  · obtain ⟨type, htyped, -, hinfers⟩ := lexical.declaration_filled hs hi
    exact ⟨type, htyped, hinfers⟩
  · obtain ⟨type, htyped, -, hdeclared⟩ := lexical.give_filled hs
    exact ⟨type, htyped, hdeclared⟩

/-- The tokens of `var a = f(); fn f() -> int { var b = a; return b; } var c = a > 1;`. -/
def chainTokens : List Token :=
  [.keyword .var, .named "a", .assign, .named "f", .leftParen, .rightParen, .semicolon,
    .keyword .fn, .named "f", .leftParen, .rightParen, .arrow, .keyword .int, .leftBrace,
    .keyword .var, .named "b", .assign, .named "a", .semicolon, .keyword .return, .named "b",
    .semicolon, .rightBrace, .keyword .var, .named "c", .assign, .named "a",
    .operator .greaterThan, .numbered 1, .semicolon]

/-- The type of the function comes to `a`, from there to `b`, and to the name that is returned. -/
theorem chain_fixed : ∃ read t, parse chainTokens = .ok read ∧ read.bindCalls = .ok t ∧
    t.statementIds.map (fun id => (t.inferTypes.statement? id).bind fun s =>
      s.declared?.bind Identifier.type) = [some .int, none, some .bool, some .int, none] ∧
    t.Filled t.inferTypes ∧ t.inferTypes.inferTypes = t.inferTypes := by
  have hrun : (parse chainTokens).toOption.bind (fun read => read.bindCalls.toOption.map fun t =>
      t.statementIds.map fun id => (t.inferTypes.statement? id).bind fun s =>
        s.declared?.bind Identifier.type) =
          some [some .int, none, some .bool, some .int, none] := by decide_cbv
  obtain ⟨read, hread, hrun⟩ := Option.bind_eq_some_iff.mp hrun
  obtain ⟨t, ht, htypes⟩ := Option.map_eq_some_iff.mp hrun
  obtain ⟨-, hfilled, -, -, hagain⟩ :=
    inferTypes_fixed (ok_of_toOption hread) (ok_of_toOption ht)
  exact ⟨read, t, ok_of_toOption hread, ok_of_toOption ht, htypes, hfilled, hagain⟩

end Parser

end RegisterMachine.Structured
