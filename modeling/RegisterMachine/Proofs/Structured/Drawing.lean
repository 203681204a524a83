import RegisterMachine.Proofs.Structured.Declared
import RegisterMachine.Proofs.Structured.Drafted
import RegisterMachine.Proofs.Structured.Lexemes
import RegisterMachine.Proofs.Structured.View

/-! # Derivations of trees

`Draws d scope around l tokens d'` says that the statements `l` can be put into a scope of the draft
`d`, which becomes `d'`, and are written as `tokens`: bodies in braces, and operations in
parentheses. There is one rule for every form of statement, so what holds of all trees that are read
is proved by induction on derivations, and knows nothing of layout, precedence or short forms.

* `Tree.Sees`, `Expression.Readable`, `Plain`: names, expressions and statements as they may stand
  in a scope.
* `Draws`: the derivations.
* `Draws.grown`: what becomes of the scopes.
* `Draws.view`: names may have other types, within reason (`Retypes`). -/

namespace RegisterMachine.Structured

/-! ### Tokens of the parts of a tree -/

/-- The keyword of a scalar type; of an array, that of its elements. -/
def ValueType.keyword : ValueType → Keyword
  | int => .int
  | bool => .bool
  | array element _ => element.keyword

/-- The keyword in front of a name that is declared. -/
def declaredKeyword : Option ValueType → Keyword
  | some type => type.keyword
  | none => .var

namespace Expression

mutual

/-- **The tokens of an expression**, fully parenthesised. -/
def tokens : Expression → List Token
  | name i => [.named i.name]
  | number value _ => [.numbered value]
  | binary op left right _ =>
    .leftParen :: (left.tokens ++ .operator op :: (right.tokens ++ [.rightParen]))
  | element i index _ => .named i.name :: .leftBracket :: (index.tokens ++ [.rightBracket])
  | new type _ =>
    [.keyword .new, .keyword type.keyword, .leftBracket, .numbered (.ofNat type.width),
      .rightBracket]
  | call i arguments _ _ =>
    .named i.name :: .leftParen :: (argumentTokens arguments ++ [.rightParen])

/-- The tokens of arguments, with commas between them. -/
def argumentTokens : List Expression → List Token
  | [] => []
  | [e] => e.tokens
  | e :: next :: rest => e.tokens ++ .comma :: argumentTokens (next :: rest)

end

end Expression

def Target.tokens : Target → List Token
  | name i => [.named i.name]
  | element i index _ => .named i.name :: .leftBracket :: (index.tokens ++ [.rightBracket])

/-- The tokens of parameters, with commas between them. -/
def parameterTokens : List Identifier → List Token
  | [] => []
  | [i] => [.keyword (declaredKeyword i.type), .named i.name]
  | i :: next :: rest =>
    .keyword (declaredKeyword i.type) :: .named i.name :: .comma :: parameterTokens (next :: rest)

/-- The tokens of the type that a function returns. -/
def returnTokens : Option ValueType → List Token
  | some type => [.arrow, .keyword type.keyword]
  | none => []

/-- Tokens in braces. -/
def braced (tokens : List Token) : List Token := .leftBrace :: (tokens ++ [.rightBrace])

/-- **The tokens of a statement without bodies.** -/
def Statement.tokens : Statement → List Token
  | assign target e initial _ =>
    (if initial then [.keyword (declaredKeyword target.identifier.type)] else []) ++
      (target.tokens ++ .assign :: (e.tokens ++ [.semicolon]))
  | leave _ => [.keyword .break, .semicolon]
  | again _ => [.keyword .continue, .semicolon]
  | give e _ => .keyword .return :: (e.tokens ++ [.semicolon])
  | evaluate e => e.tokens ++ [.semicolon]
  | _ => []

/-! ### What may stand in a scope -/

/-- **The scope sees the declaration that the name is bound to**, and it has the type of the
name. -/
def Tree.Sees (t : Tree) (scope : ScopeId) (i : Identifier) : Prop :=
  ∃ binding declaration, t.declaration? scope i.name = some (binding, declaration) ∧
    i.binding = some binding ∧ declaration = { i with span := declaration.span }

mutual

/-- **The expression may stand in the scope.** -/
def Expression.Readable (t : Tree) (scope : ScopeId) : Expression → Prop
  | .name i => IsName i.name ∧ t.Sees scope i ∧ Site.namesArray i = false
  | .number _ _ => True
  | .binary _ left right _ => left.Readable t scope ∧ right.Readable t scope
  | .element i index _ =>
    IsName i.name ∧ t.Sees scope i ∧ Site.namesArray i = true ∧ index.Readable t scope
  | .new _ _ => False
  | .call i arguments resolved _ =>
    IsName i.name ∧ i.type = none ∧ i.binding = none ∧ resolved = none ∧
      Expression.AllReadable t scope arguments

def Expression.AllReadable (t : Tree) (scope : ScopeId) : List Expression → Prop
  | [] => True
  | e :: rest => e.Readable t scope ∧ Expression.AllReadable t scope rest

end

theorem Expression.Readable.binary {t : Tree} {scope : ScopeId} {op : Operator}
    {left right : Expression} {span : Span} (hl : left.Readable t scope)
    (hr : right.Readable t scope) : (Expression.binary op left right span).Readable t scope :=
  ⟨hl, hr⟩

/-- The scope declares no such name. -/
def Tree.Fresh (t : Tree) (scope : ScopeId) (name : String) : Prop :=
  (t.scope scope).statements.any (fun s => s.declared?.any (·.name == name)) = false

theorem Tree.Fresh.ne {t : Tree} {scope : ScopeId} {name : String} (hfresh : t.Fresh scope name)
    {id : StatementId} {s : Statement} {i : Identifier} (hs : t.statement? id = some s)
    (hscope : id.scope = scope) (hi : s.declared? = some i) : i.name ≠ name := by
  intro hname
  rw [Tree.statement?_eq, hscope] at hs
  have hany := Array.any_eq_false.mp hfresh
  obtain ⟨hindex, hs⟩ := Array.getElem?_eq_some_iff.mp hs
  have hno := hany id.index hindex
  rw [hs, hi] at hno
  simp [hname] at hno

/-- The scope declares no such function. -/
def Tree.FreshFunction (t : Tree) (scope : ScopeId) (name : String) : Prop :=
  (t.scope scope).statements.any (·.declaresFunction name) = false

theorem Tree.FreshFunction.declares {t : Tree} {scope : ScopeId} {name : String}
    (hfresh : t.FreshFunction scope name) {id : StatementId} {s : Statement}
    (hs : t.statement? id = some s) (hscope : id.scope = scope) :
    s.declaresFunction name = false := by
  rw [Tree.statement?_eq, hscope] at hs
  obtain ⟨hindex, rfl⟩ := Array.getElem?_eq_some_iff.mp hs
  exact Bool.eq_false_iff.mpr (Array.any_eq_false.mp hfresh id.index hindex)

/-- Not the type of an array. -/
def IsScalar (type : Option ValueType) : Prop := type = none ∨ type = some .int ∨ type = some .bool

theorem namesArray_of_isScalar {i : Identifier} (h : IsScalar i.type) :
    Site.namesArray i = false := by
  rw [Site.namesArray]
  rcases h with h | h | h <;> rw [h] <;> rfl

/-- **A name as the scope may declare it.** -/
structure Declarable (t : Tree) (scope : ScopeId) (i : Identifier) : Prop where
  name : IsName i.name
  fresh : t.Fresh scope i.name
  bound : i.binding = some scope

namespace Parser

/-- **A statement without bodies as it may stand in the scope**, if it is no `return`. -/
inductive Plain (t : Tree) (scope : ScopeId) (around : Surroundings) : Statement → Prop
  | array {i : Identifier} {element : ValueType} {size : Nat} (place span : Span)
    (declarable : Declarable t scope i) (type : i.type = some (.array element size))
    (scalar : element = .int ∨ element = .bool) (positive : 0 < size)
    (fits : size ≤ Machine.maxRegisters) :
    Plain t scope around (.assign (.name i) (.new (.array element size) place) true span)
  | declare {i : Identifier} {e : Expression} (span : Span) (declarable : Declarable t scope i)
    (scalar : IsScalar i.type) (readable : e.Readable t scope) :
    Plain t scope around (.assign (.name i) e true span)
  | assign {i : Identifier} {e : Expression} (span : Span)
    (target : (Expression.name i).Readable t scope) (readable : e.Readable t scope) :
    Plain t scope around (.assign (.name i) e false span)
  | assignElement {i : Identifier} {index e : Expression} (place span : Span)
    (target : (Expression.element i index place).Readable t scope) (readable : e.Readable t scope) :
    Plain t scope around (.assign (.element i index place) e false span)
  | leave (span : Span) (inLoop : around.inLoop = true) : Plain t scope around (.leave span)
  | again (span : Span) (inLoop : around.inLoop = true) : Plain t scope around (.again span)
  | evaluate {i : Identifier} {arguments : List Expression} (span : Span)
    (readable : (Expression.call i arguments none span).Readable t scope) :
    Plain t scope around (.evaluate (.call i arguments none span))

/-- **A condition as it may stand in the scope.** -/
structure Condition (t : Tree) (scope : ScopeId) (e : Expression) : Prop where
  readable : e.Readable t scope
  comparison : isComparison e = true

/-- **Parameters are put into their scope.** -/
inductive DrawsParameters (scope : ScopeId) : Tree → List Identifier → Tree → Prop
  | nil (t : Tree) : DrawsParameters scope t [] t
  | cons {t t' : Tree} {i : Identifier} {rest : List Identifier}
    (declarable : Declarable t scope i) (scalar : IsScalar i.type)
    (others : DrawsParameters scope (t.push scope (.parameter i)) rest t') :
    DrawsParameters scope t (i :: rest) t'

/-- **Derivations of trees.** -/
inductive Draws : Draft → ScopeId → Surroundings → List Statement → List Token → Draft → Prop
  | nil (d : Draft) (scope : ScopeId) (around : Surroundings) : Draws d scope around [] [] d
  | cons {d d₁ d' scope around s l tokens others} (first : Draws d scope around [s] tokens d₁)
    (rest : Draws d₁ scope around l others d') :
    Draws d scope around (s :: l) (tokens ++ others) d'
  | plain {d : Draft} {scope around s} (statement : Plain d.tree scope around s) :
    Draws d scope around [s] s.tokens (d.push scope s)
  | give {d : Draft} {scope around} {e : Expression} (span : Span)
    (inFunction : around.inFunction = true) (readable : e.Readable d.tree scope) :
    Draws d scope around [.give e span] (Statement.give e span).tokens
      { d.push scope (.give e span) with returned := true }
  | block {d d₁ d' : Draft} {scope around inner l tokens} (opened : d.openScope scope = (d₁, inner))
    (body : Draws d₁ inner around l tokens d') :
    Draws d scope around [.block inner] (braced tokens) (d'.push scope (.block inner))
  | loop {d d₁ d' : Draft} {scope around e inner l tokens} (span : Span)
    (condition : Condition d.tree scope e) (opened : d.openScope scope = (d₁, inner))
    (body : Draws d₁ inner { around with inLoop := true } l tokens d') :
    Draws d scope around [.loop e inner span]
      (.keyword .while :: (e.tokens ++ braced tokens))
      (d'.push scope (.loop e inner span))
  | branch {d d₁ d' : Draft} {scope around e inner l tokens} (span : Span)
    (condition : Condition d.tree scope e) (opened : d.openScope scope = (d₁, inner))
    (body : Draws d₁ inner around l tokens d') :
    Draws d scope around [.branch e inner none span]
      (.keyword .ifThen :: (e.tokens ++ braced tokens))
      (d'.push scope (.branch e inner none span))
  | branchElse {d d₁ d₂ d₃ d' : Draft} {scope around e inner other l l' tokens tokens'}
    (span : Span) (condition : Condition d.tree scope e) (opened : d.openScope scope = (d₁, inner))
    (body : Draws d₁ inner around l tokens d₂) (opened' : d₂.openScope scope = (d₃, other))
    (otherwise : Draws d₃ other around l' tokens' d') :
    Draws d scope around [.branch e inner (some other) span]
      (.keyword .ifThen :: (e.tokens ++ (braced tokens ++ .keyword .orElse :: braced tokens')))
      (d'.push scope (.branch e inner (some other) span))
  | function {d inside : Draft} {t₁ t₂ t₃ : Tree} {scope around i arguments inner ps l tokens}
    (span : Span) (name : IsName i.name) (fresh : d.tree.FreshFunction scope i.name)
    (bound : i.binding = some scope) (scalar : IsScalar i.type)
    (opened : d.tree.addScope [scope] = (t₁, arguments))
    (parameters : DrawsParameters arguments t₁ ps t₂)
    (opened' : t₂.addScope [arguments] = (t₃, inner))
    (body : Draws ⟨t₃, false⟩ inner { inFunction := true } l tokens inside)
    (returns : inside.returned = true → i.type ≠ none) :
    Draws d scope around [.function i arguments inner i.type span]
      (.keyword .fn :: .named i.name :: .leftParen :: ((parameterTokens ps ++ [.rightParen]) ++
        (returnTokens i.type ++ braced tokens)))
      ({ d with tree := inside.tree }.push scope (.function i arguments inner i.type span))

/-! ### What becomes of the scopes -/

section Scopes

variable {t : Tree} {scope id : ScopeId} {s : Statement} {shared : List ScopeId}

theorem scope_push_self (h : scope < t.scopes.size) : (t.push scope s).scope scope =
    { t.scope scope with statements := (t.scope scope).statements.push s } := by
  simp [Tree.push, Tree.scope, Array.getD_eq_getD_getElem?, Array.getElem_modify, h]

theorem scope_push_of_ne (h : id ≠ scope) : (t.push scope s).scope id = t.scope id := by
  simp [Tree.push, Tree.scope, Array.getD_eq_getD_getElem?, Array.getElem?_modify, h.symm]

theorem shared_push :
    ((t.push scope s).scope id).shared = (t.scope id).shared := by
  simp only [Tree.push, Tree.scope, Array.getD_eq_getD_getElem?, Array.getElem?_modify]
  split
  · cases t.scopes[id]? <;> rfl
  · rfl

@[simp] theorem size_push : (t.push scope s).scopes.size = t.scopes.size := Array.size_modify

@[simp] theorem size_addScope : (t.addScope shared).1.scopes.size = t.scopes.size + 1 :=
  Array.size_push _

theorem scope_addScope_of_lt (h : id < t.scopes.size) :
    (t.addScope shared).1.scope id = t.scope id := by
  simp [Tree.addScope, Tree.scope, Array.getD_eq_getD_getElem?, Array.getElem?_push_lt, h]

theorem scope_addScope_self : (t.addScope shared).1.scope t.scopes.size = { shared } := by
  simp [Tree.addScope, Tree.scope, Array.getD_eq_getD_getElem?]

end Scopes

/-- **Statements were put into a scope**, and new scopes were opened behind the others. -/
structure Grown (t t' : Tree) (scope : ScopeId) (l : List Statement) : Prop where
  size : t.scopes.size ≤ t'.scopes.size
  keeps : ∀ id < t.scopes.size, id ≠ scope → t'.scope id = t.scope id
  own : scope < t.scopes.size → t'.scope scope =
    { t.scope scope with statements := (t.scope scope).statements ++ l.toArray }

namespace Grown

variable {t t₁ t' : Tree} {scope id : ScopeId} {s : Statement} {l l' : List Statement}

theorem grows (h : Grown t t' scope l) : t.Grows t' := by
  intro id s hs
  have hid : id.scope < t.scopes.size := by
    obtain ⟨x, hx, -⟩ := Option.bind_eq_some_iff.mp hs
    exact (Array.getElem?_eq_some_iff.mp hx).1
  rw [Tree.statement?_eq] at hs ⊢
  by_cases hscope : id.scope = scope
  · subst hscope
    obtain ⟨hindex, -⟩ := Array.getElem?_eq_some_iff.mp hs
    rw [h.own hid, Array.getElem?_append_left hindex]
    exact hs
  · rw [h.keeps _ hid hscope]
    exact hs

theorem refl (t : Tree) (scope : ScopeId) : Grown t t scope [] :=
  ⟨Nat.le_refl _, fun _ _ _ => rfl, fun _ => by simp⟩

theorem trans (h : Grown t t₁ scope l) (h' : Grown t₁ t' scope l') :
    Grown t t' scope (l ++ l') where
  size := Nat.le_trans h.size h'.size
  keeps id hid hne := by rw [h'.keeps id (Nat.lt_of_lt_of_le hid h.size) hne, h.keeps id hid hne]
  own hscope := by
    rw [h'.own (Nat.lt_of_lt_of_le hscope h.size), h.own hscope]
    simp

theorem shared (h : Grown t t' scope l) (hid : id < t.scopes.size) :
    (t'.scope id).shared = (t.scope id).shared := by
  by_cases hne : id = scope
  · subst hne
    rw [h.own hid]
  · rw [h.keeps id hid hne]

theorem push (t : Tree) (scope : ScopeId) (s : Statement) : Grown t (t.push scope s) scope [s] where
  size := Nat.le_of_eq size_push.symm
  keeps _ _ hne := scope_push_of_ne hne
  own hscope := by
    rw [scope_push_self hscope, Array.push_eq_append]

/-- Statements in a new scope leave the others as they are. -/
theorem inside {shared : List ScopeId} (scope : ScopeId)
    (h : Grown (t.addScope shared).1 t' t.scopes.size l) : Grown t t' scope [] := by
  have hsize : t.scopes.size < (t.addScope shared).1.scopes.size := by simp
  have hkeeps : ∀ id < t.scopes.size, t'.scope id = t.scope id := fun id hid => by
    rw [h.keeps id (Nat.lt_trans hid hsize) (Nat.ne_of_lt hid), scope_addScope_of_lt hid]
  exact ⟨Nat.le_trans (Nat.le_of_lt hsize) h.size, fun id hid _ => hkeeps id hid,
    fun hscope => by simp [hkeeps scope hscope]⟩

/-- The new scope has the statements. -/
theorem own_new {shared : List ScopeId} (h : Grown (t.addScope shared).1 t' t.scopes.size l) :
    (t'.scope t.scopes.size).statements.toList = l := by
  rw [h.own (by simp), scope_addScope_self]
  simp

end Grown

theorem openScope_eq (d : Draft) (shared : ScopeId) : d.openScope shared =
    ({ d with tree := (d.tree.addScope [shared]).1 }, (d.tree.addScope [shared]).2) := rfl

theorem openScope_ok {d d₁ : Draft} {scope inner : ScopeId} (h : d.openScope scope = (d₁, inner)) :
    d₁.tree = (d.tree.addScope [scope]).1 ∧ d₁.returned = d.returned ∧
      inner = d.tree.scopes.size := by
  cases h
  exact ⟨rfl, rfl, rfl⟩

theorem addScope_ok {t t₁ : Tree} {shared : List ScopeId} {inner : ScopeId}
    (h : t.addScope shared = (t₁, inner)) : t₁ = (t.addScope shared).1 ∧ inner = t.scopes.size := by
  cases h
  exact ⟨rfl, rfl⟩

/-- Statements in a scope that was opened for them leave the others as they are. -/
theorem Grown.opened {d d₁ : Draft} {t : Tree} {scope inner : ScopeId} {l : List Statement}
    (h : Grown d₁.tree t inner l) (opened : d.openScope scope = (d₁, inner)) :
    Grown d.tree t scope [] := by
  obtain ⟨htree, -, rfl⟩ := openScope_ok opened
  rw [htree] at h
  exact h.inside scope

theorem DrawsParameters.grown {scope : ScopeId} {t t' : Tree} {ps : List Identifier}
    (h : DrawsParameters scope t ps t') : Grown t t' scope (ps.map .parameter) := by
  induction h with
  | nil t => exact Grown.refl t scope
  | cons declarable scalar others ih => exact (Grown.push _ scope _).trans ih

/-- **What becomes of the scopes** when statements are put into one. -/
theorem Draws.grown {d d' : Draft} {scope : ScopeId} {around : Surroundings} {l : List Statement}
    {tokens : List Token} (h : Draws d scope around l tokens d') :
    Grown d.tree d'.tree scope l := by
  induction h with
  | nil d scope => exact Grown.refl d.tree scope
  | cons _ _ ih ih' => exact ih.trans ih'
  | plain | give => exact Grown.push _ _ _
  | block opened _ ih | loop _ _ opened _ ih | branch _ _ opened _ ih =>
    exact (ih.opened opened).trans (Grown.push _ _ _)
  | branchElse _ _ opened _ opened' _ ih ih' =>
    exact ((ih.opened opened).trans (ih'.opened opened')).trans (Grown.push _ _ _)
  | function span name fresh bound scalar opened parameters opened' _ returns ih =>
    obtain ⟨rfl, rfl⟩ := addScope_ok opened
    obtain ⟨rfl, rfl⟩ := addScope_ok opened'
    exact ((parameters.grown.inside _).trans (ih.inside _)).trans (Grown.push _ _ _)

end Parser

end RegisterMachine.Structured
