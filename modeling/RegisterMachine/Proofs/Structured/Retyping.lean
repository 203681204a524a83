import RegisterMachine.Proofs.Structured.Redrawing

/-! # Other types for the names of a tree

A tree that has a derivation still has one if its scalars are given other types: only whether a name
is an array decides how it may be used.

* `Retypes`: types that say the same about arrays.
* `Draws.view`: the derivation of the tree under these types. -/

namespace RegisterMachine.Structured

/-- **Other types of names**: scalars stay scalars, arrays stay as they are, and all uses of a name
have one type. -/
structure Retypes (type : Identifier → Option ValueType) : Prop where
  one : ∀ i span, type { i with span } = type i
  array : ∀ i, Site.namesArray i = true → type i = i.type
  scalar : ∀ i, Site.namesArray i = false → IsScalar (type i)

namespace Retypes

variable {type : Identifier → Option ValueType} {t : Tree} {scope : ScopeId} {i : Identifier}

theorem namesArray_withType (h : Retypes type) (i : Identifier) :
    Site.namesArray (i.withType (type i)) = Site.namesArray i := by
  cases hi : Site.namesArray i with
  | true =>
    rw [← hi, h.array i hi]
    rfl
  | false => exact namesArray_of_isScalar (h.scalar i hi)

theorem isScalar (h : Retypes type) (hscalar : IsScalar i.type) : IsScalar (type i) :=
  h.scalar i (namesArray_of_isScalar hscalar)

theorem sees (h : Retypes type) (hsees : t.Sees scope i) :
    (t.view (.typed type)).Sees scope (i.withType (type i)) := by
  obtain ⟨binding, declaration, hdeclaration, hbinding, hsame⟩ := hsees
  refine ⟨binding, declaration.withType (type declaration), ?_, hbinding, ?_⟩
  · rw [Tree.declaration?_view, Identifier.withType_name, hdeclaration]
    rfl
  · rw [hsame]
    simp only [h.one]
    rfl

theorem declarable (h : Declarable t scope i) :
    Declarable (t.view (.typed type)) scope (i.withType (type i)) :=
  ⟨h.name, Tree.fresh_view.mpr h.fresh, h.bound⟩

mutual

theorem readable (h : Retypes type) : ∀ e : Expression, e.Readable t scope →
    (e.view (.typed type)).Readable (t.view (.typed type)) scope
  | .name i, he => ⟨he.1, h.sees he.2.1, (h.namesArray_withType i).trans he.2.2⟩
  | .number _ _, _ => trivial
  | .binary _ left right _, he => ⟨readable h left he.1, readable h right he.2⟩
  | .element i index _, he =>
    ⟨he.1, h.sees he.2.1, (h.namesArray_withType i).trans he.2.2.1, readable h index he.2.2.2⟩
  | .new _ _, he => he.elim
  | .call _ es _ _, he => ⟨he.1, he.2.1, he.2.2.1, he.2.2.2.1, allReadable h es he.2.2.2.2⟩

theorem allReadable (h : Retypes type) : ∀ es : List Expression, Expression.AllReadable t scope es →
    Expression.AllReadable (t.view (.typed type)) scope (Expression.viewAll (.typed type) es)
  | [], _ => trivial
  | e :: es, he => ⟨readable h e he.1, allReadable h es he.2⟩

end

end Retypes

namespace Parser

variable {type : Identifier → Option ValueType} {t t' : Tree} {scope : ScopeId}

/-- The draft under a view. -/
def Draft.view (v : View) (d : Draft) : Draft := { d with tree := d.tree.view v }

theorem Draft.view_empty (v : View) : ({} : Draft).view v = {} := by
  simp [view, Tree.view, Scope.view]

theorem Draft.view_push (v : View) (d : Draft) (s : Statement) :
    (d.push scope s).view v = (d.view v).push scope (s.view v) := by
  simp only [view, push, Tree.view_push]

theorem Draft.view_openScope {v : View} {d d₁ : Draft} {inner : ScopeId}
    (h : d.openScope scope = (d₁, inner)) : (d.view v).openScope scope = (d₁.view v, inner) := by
  cases h
  simp [view, openScope, Tree.addScope, Tree.view, Scope.view]

theorem Plain.view {around : Surroundings} {s : Statement} (hs : Plain t scope around s)
    (h : Retypes type) :
    Plain (t.view (.typed type)) scope around (s.view (.typed type)) := by
  cases hs with
  | @array i element size place span declarable hi scalar positive fits =>
    have harray : Site.namesArray i = true := by
      rw [Site.namesArray, hi]
      rfl
    exact .array {} {} (Retypes.declarable declarable) ((h.array i harray).trans hi) scalar
      positive fits
  | declare span declarable scalar readable =>
    exact .declare {} (Retypes.declarable declarable) (h.isScalar scalar) (h.readable _ readable)
  | assign span target readable => exact .assign {} (h.readable _ target) (h.readable _ readable)
  | assignElement place span target readable =>
    exact .assignElement {} {} (h.readable _ target) (h.readable _ readable)
  | leave span inLoop => exact .leave {} inLoop
  | again span inLoop => exact .again {} inLoop
  | evaluate span readable => exact .evaluate {} (h.readable _ readable)

theorem Condition.view {e : Expression} (he : Condition t scope e) (h : Retypes type) :
    Condition (t.view (.typed type)) scope (e.view (.typed type)) :=
  ⟨h.readable e he.readable, (isComparison_view e).trans he.comparison⟩

theorem DrawsParameters.view {ps : List Identifier} (hps : DrawsParameters scope t ps t')
    (h : Retypes type) : DrawsParameters scope (t.view (.typed type))
      (ps.map fun i => i.withType (type i)) (t'.view (.typed type)) := by
  induction hps with
  | nil t => exact .nil _
  | cons declarable scalar others ih =>
    rw [Tree.view_push] at ih
    exact .cons (Retypes.declarable declarable) (h.isScalar scalar) ih

theorem addScope_view {v : View} {t₁ : Tree} {shared : List ScopeId} {inner : ScopeId}
    (h : t.addScope shared = (t₁, inner)) : (t.view v).addScope shared = (t₁.view v, inner) := by
  cases h
  simp [Tree.addScope, Tree.view, Scope.view]

/-- **Statements under other types have a derivation**, though other tokens. -/
theorem Draws.view {d d' : Draft} {around : Surroundings} {l : List Statement}
    {tokens : List Token} (hl : Draws d scope around l tokens d') (h : Retypes type) :
    ∃ written, Draws (d.view (.typed type)) scope around (l.map (·.view (.typed type))) written
      (d'.view (.typed type)) := by
  induction hl with
  | nil d scope around => exact ⟨_, .nil _ _ _⟩
  | cons _ _ ih ih' =>
    obtain ⟨first, hfirst⟩ := ih
    obtain ⟨others, hothers⟩ := ih'
    exact ⟨_, .cons hfirst hothers⟩
  | plain statement =>
    rw [Draft.view_push]
    exact ⟨_, .plain (statement.view h)⟩
  | @give d scope around e span inFunction readable =>
    have hgive : Draft.view (.typed type) { d.push scope (.give e span) with returned := true } =
        { (d.view (.typed type)).push scope (.give (e.view (.typed type)) {}) with
          returned := true } := by
      simp only [Draft.view, Draft.push, Tree.view_push, Statement.view]
    rw [hgive]
    exact ⟨_, .give {} inFunction (h.readable e readable)⟩
  | block opened _ ih =>
    obtain ⟨body, hbody⟩ := ih
    rw [Draft.view_push]
    exact ⟨_, .block (Draft.view_openScope opened) hbody⟩
  | loop span condition opened _ ih =>
    obtain ⟨body, hbody⟩ := ih
    rw [Draft.view_push]
    exact ⟨_, .loop {} (condition.view h) (Draft.view_openScope opened) hbody⟩
  | branch span condition opened _ ih =>
    obtain ⟨body, hbody⟩ := ih
    rw [Draft.view_push]
    exact ⟨_, .branch {} (condition.view h) (Draft.view_openScope opened) hbody⟩
  | branchElse span condition opened _ opened' _ ih ih' =>
    obtain ⟨body, hbody⟩ := ih
    obtain ⟨other, hother⟩ := ih'
    rw [Draft.view_push]
    exact ⟨_, .branchElse {} (condition.view h) (Draft.view_openScope opened) hbody
      (Draft.view_openScope opened') hother⟩
  | @function d inside t₁ t₂ t₃ scope around i arguments inner ps l tokens span name fresh bound
      scalar opened parameters opened' _ returns ih =>
    obtain ⟨body, hbody⟩ := ih
    rw [Draft.view_push]
    exact ⟨_, .function (i := i.withType i.type) {} name (Tree.freshFunction_view.mpr fresh) bound
      scalar (addScope_view opened) (parameters.view h) (addScope_view opened') hbody returns⟩

end Parser

end RegisterMachine.Structured
