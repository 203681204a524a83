import RegisterMachine.Proofs.Success
import RegisterMachine.Structured.Tree.Parser.Names

/-! # Names and their declarations

A search finds a statement of the tree, and if every scope shares only scopes that were opened
before it, one of the scope where the search starts or of an earlier scope.

* `Expression.names`, `Statement.names`: the names that are used.
* `declaration?_ok`: what is found is a declaration of the name.
* `StatementId.Before`, `Tree.DeclaredBefore`: the order of statements, and names that are declared
  before they are used. -/

namespace RegisterMachine.Structured

/-! ### Names -/

namespace Expression

mutual

/-- **The names that an expression uses**, functions apart. -/
def names : Expression → List Identifier
  | .name i => [i]
  | .number _ _ | .new _ _ => []
  | .binary _ left right _ => left.names ++ right.names
  | .element i index _ => i :: index.names
  | .call _ arguments _ _ => namesOf arguments

def namesOf : List Expression → List Identifier
  | [] => []
  | e :: rest => e.names ++ namesOf rest

end

theorem mem_namesOf {j : Identifier} {es : List Expression} :
    j ∈ namesOf es ↔ ∃ e ∈ es, j ∈ e.names := by
  induction es with
  | nil => simp [namesOf]
  | cons e es ih => simp [namesOf, ih]

end Expression

/-- **The names that a statement uses**, without the one that it declares. -/
def Statement.names : Statement → List Identifier
  | assign (.name _) e true _ => e.names
  | assign (.name i) e false _ => i :: e.names
  | assign (.element i index _) e _ _ => i :: (index.names ++ e.names)
  | branch e _ _ _ | loop e _ _ | give e _ | evaluate e => e.names
  | block _ | leave _ | again _ | function _ _ _ _ _ | parameter _ => []

/-! ### Places of statements -/

/-- The order of scopes, and of the statements of one scope. -/
def StatementId.Before (id id' : StatementId) : Prop :=
  id.scope < id'.scope ∨ id.scope = id'.scope ∧ id.index < id'.index

theorem StatementId.Before.irrefl (id : StatementId) : ¬ id.Before id := by
  rintro (h | ⟨-, h⟩)
  · exact Nat.lt_irrefl _ h
  · exact Nat.lt_irrefl _ h

theorem StatementId.Before.asymm {id id' : StatementId} (h : id.Before id') : ¬ id'.Before id := by
  intro h'
  rcases h with h | ⟨hscope, h⟩ <;> rcases h' with h' | ⟨hscope', h'⟩
  · exact Nat.lt_asymm h h'
  · exact Nat.ne_of_gt h hscope'
  · exact Nat.ne_of_gt h' hscope
  · exact Nat.lt_asymm h h'

theorem Tree.statement?_eq (t : Tree) (id : StatementId) :
    t.statement? id = (t.scope id.scope).statements[id.index]? := by
  rw [statement?, scope, Array.getD_eq_getD_getElem?]
  cases t.scopes[id.scope]? with
  | none => simp
  | some scope => rfl

/-- The other tree has all statements of this one. -/
def Tree.Grows (t t' : Tree) : Prop := ∀ id s, t.statement? id = some s → t'.statement? id = some s

theorem Tree.Grows.trans {t t₁ t' : Tree} (h : t.Grows t₁) (h' : t₁.Grows t') : t.Grows t' :=
  fun id s hs => h' id s (h id s hs)

/-- **The name is declared before this place**, with this type. -/
def Tree.DeclaredBefore (t : Tree) (id : StatementId) (j : Identifier) : Prop :=
  ∃ id' s i, t.statement? id' = some s ∧ id'.Before id ∧ j.binding = some id'.scope ∧
    s.declared? = some i ∧ i = { j with span := i.span }

theorem Tree.DeclaredBefore.grows {t t' : Tree} {id : StatementId} {j : Identifier}
    (h : t.DeclaredBefore id j) (hgrows : t.Grows t') : t'.DeclaredBefore id j := by
  obtain ⟨id', s, i, hs, hrest⟩ := h
  exact ⟨id', s, i, hgrows id' s hs, hrest⟩

/-- **Every scope shares only scopes that were opened before it.** -/
def Tree.Inward (t : Tree) : Prop := ∀ id, ∀ shared ∈ (t.scope id).shared, shared < id

/-! ### Searches -/

section Search

variable {t : Tree} {α : Type} {find : Statement → Option α} {place : StatementId} {a : α}

/-- What is found is a statement of the tree. -/
theorem searchTo_ok : ∀ {depth : Nat} {id : ScopeId},
    t.searchTo find depth id = some (place, a) →
      ∃ s, t.statement? place = some s ∧ find s = some a ∧ (t.Inward → place.scope ≤ id)
  | 0, _, h => by cases h
  | depth + 1, id, h => by
    rw [Tree.searchTo] at h
    split at h
    · cases h
    · rename_i scope hscope
      split at h
      · rename_i hit hfirst
        cases h
        obtain ⟨⟨s, index⟩, hmem, hs⟩ := List.exists_of_findSome?_eq_some hfirst
        obtain ⟨found, hfound, heq⟩ := Option.map_eq_some_iff.mp hs
        cases heq
        refine ⟨s, ?_, hfound, fun _ => Nat.le_refl _⟩
        have hindex := List.mk_mem_zipIdx_iff_getElem?.mp hmem
        rw [Array.getElem?_toList] at hindex
        rw [Tree.statement?, hscope, Option.bind_some]
        exact hindex
      · obtain ⟨next, hshared, hnext⟩ := List.exists_of_findSome?_eq_some h
        obtain ⟨s, hs, hfind, hle⟩ := searchTo_ok hnext
        refine ⟨s, hs, hfind, fun inward => Nat.le_trans (hle inward) (Nat.le_of_lt ?_)⟩
        refine inward id next ?_
        rw [Tree.scope, Array.getD_eq_getD_getElem?, hscope]
        exact hshared

/-- **The declaration that a name is bound to.** -/
theorem declaration?_ok {scope binding : ScopeId} {name : String} {i : Identifier}
    (h : t.declaration? scope name = some (binding, i)) :
    ∃ id s, t.statement? id = some s ∧ id.scope = binding ∧ s.declared? = some i ∧ i.name = name ∧
      (t.Inward → binding ≤ scope) := by
  obtain ⟨⟨place, i'⟩, hsearch, heq⟩ := Option.map_eq_some_iff.mp h
  cases heq
  obtain ⟨s, hs, hfind, hle⟩ := searchTo_ok hsearch
  obtain ⟨hdeclared, hname⟩ := Option.filter_eq_some_iff.mp hfind
  exact ⟨place, s, hs, rfl, hdeclared, beq_iff_eq.mp hname, hle⟩

/-- **A declaration in the scope itself is found**, the first one of the name. -/
theorem declaration?_own {id : StatementId} {s : Statement} {i : Identifier}
    (hs : t.statement? id = some s) (hdeclared : s.declared? = some i)
    (hfirst : ∀ id' s' i', t.statement? id' = some s' → id'.scope = id.scope →
      s'.declared? = some i' → i'.name = i.name → id' = id) :
    t.declaration? id.scope i.name = some (id.scope, i) := by
  obtain ⟨scope, hscope, hindex⟩ := Option.bind_eq_some_iff.mp hs
  have hsize : id.scope < t.scopes.size := (Array.getElem?_eq_some_iff.mp hscope).1
  obtain ⟨depth, hdepth⟩ := Nat.exists_eq_succ_of_ne_zero (Nat.ne_zero_of_lt hsize)
  have hmem : (s, id.index) ∈ scope.statements.toList.zipIdx := by
    rw [List.mk_mem_zipIdx_iff_getElem?, Array.getElem?_toList]
    exact hindex
  rw [Tree.declaration?, Tree.search, hdepth, Tree.searchTo, hscope]
  dsimp only
  split
  · rename_i hit hhit
    obtain ⟨⟨s', index⟩, hmem', hs'⟩ := List.exists_of_findSome?_eq_some hhit
    obtain ⟨found, hfound, rfl⟩ := Option.map_eq_some_iff.mp hs'
    obtain ⟨hdeclared', hname⟩ := Option.filter_eq_some_iff.mp hfound
    have hplace : t.statement? ⟨id.scope, index⟩ = some s' := by
      rw [List.mk_mem_zipIdx_iff_getElem?, Array.getElem?_toList] at hmem'
      rw [Tree.statement?, hscope]
      exact hmem'
    have hid := hfirst _ s' found hplace rfl hdeclared' (beq_iff_eq.mp hname)
    rw [hid, hs] at hplace
    cases hplace
    rw [hdeclared] at hdeclared'
    cases hdeclared'
    rfl
  · -- the statement itself is one of those that are looked at
    rename_i hnone
    have hno := List.findSome?_eq_none_iff.mp hnone _ hmem
    simp [hdeclared] at hno

end Search

end RegisterMachine.Structured
