import RegisterMachine.Proofs.Structured.Contents
import RegisterMachine.Proofs.Structured.Reach

/-! # Trees that were read

While a tree is read, a new scope is opened for each body and for the parameters of each function,
and it is given to one statement. So in the end no two statements share a scope. The scopes that
were opened and still wait for their statement are the pending ones.

* `Statement.opened`: the scopes that a statement is given.
* `Owned`: no scope is given twice, with `Owned.addScope` and `Owned.push`.
* `Statement.Proper`: a statement as it may stand in a scope.
* `Drafted`: the invariant of the parser, with `Drafted.addScope` and `Drafted.push`.
* `Statement.Single`: statements without bodies. -/

namespace RegisterMachine.Structured

open RegisterMachine.Success

/-- **The scopes that a statement is given**: its bodies, and the parameters of a function. -/
def Statement.opened : Statement → List ScopeId
  | branch _ body otherwise _ => otherwise.toList ++ [body]
  | loop _ body _ | block body => [body]
  | function _ parameters body _ _ => [body, parameters]
  | _ => []

/-- **A statement as it may stand in a scope**: on one line, and a declaration bound to the scope.
-/
structure Statement.Proper (scope : ScopeId) (s : Statement) : Prop where
  clean : Clean s.summary
  bound : ∀ i e span, s = .assign (.name i) e true span → i.binding = some scope

/-- **Who is given the scopes**: no scope is given twice, and the pending ones are not given yet. -/
structure Owned (pending : List ScopeId) (t : Tree) : Prop where
  nonempty : 0 < t.scopes.size
  pending_nodup : pending.Nodup
  pending_range : ∀ x ∈ pending, x ≠ rootScope ∧ x < t.scopes.size
  waiting : ∀ x ∈ pending, ∀ id s, t.statement? id = some s → x ∉ s.opened
  nodup : ∀ id s, t.statement? id = some s → s.opened.Nodup
  range : ∀ id s, t.statement? id = some s → ∀ x ∈ s.opened, x ≠ rootScope ∧ x < t.scopes.size
  once : ∀ id id' s s' x, t.statement? id = some s → t.statement? id' = some s' → x ∈ s.opened →
    x ∈ s'.opened → id = id'

/-- **What reading keeps**: no scope is given twice, and the pending ones are not given yet. -/
structure Drafted (pending : List ScopeId) (t : Tree) : Prop where
  nonempty : 0 < t.scopes.size
  pending_nodup : pending.Nodup
  pending_range : ∀ x ∈ pending, x ≠ rootScope ∧ x < t.scopes.size
  waiting : ∀ x ∈ pending, ∀ id s, t.statement? id = some s → x ∉ s.opened
  nodup : ∀ id s, t.statement? id = some s → s.opened.Nodup
  range : ∀ id s, t.statement? id = some s → ∀ x ∈ s.opened, x ≠ rootScope ∧ x < t.scopes.size
  once : ∀ id id' s s' x, t.statement? id = some s → t.statement? id' = some s' → x ∈ s.opened →
    x ∈ s'.opened → id = id'
  proper : ∀ id s, t.statement? id = some s → s.Proper id.scope

/-! ### The steps of the parser -/

section Steps

variable {pending : List ScopeId} {t t' : Tree} {scope : ScopeId} {s : Statement}

theorem Drafted.statement?_empty (id : StatementId) : ({} : Tree).statement? id = none := by
  obtain ⟨scope, index⟩ := id
  cases scope <;> simp [Tree.statement?]

theorem Drafted.statement?_addScope (t : Tree) (shared : List ScopeId) (id : StatementId) :
    (t.addScope shared).1.statement? id = t.statement? id := by
  unfold Tree.statement? Tree.addScope
  dsimp only
  rw [Array.getElem?_push]
  split
  · rename_i hid
    have hnone : t.scopes[id.scope]? = none := Array.getElem?_eq_none (Nat.le_of_eq hid.symm)
    rw [hnone]
    rfl
  · rfl

/-- A statement is pushed to one place. -/
theorem Drafted.statement?_push {id : StatementId} {s' : Statement}
    (h : (t.push scope s).statement? id = some s') :
    t.statement? id = some s' ∨
      (id = ⟨scope, (t.scope scope).statements.size⟩ ∧ s' = s) := by
  obtain ⟨x, hx, hs⟩ := Option.bind_eq_some_iff.mp h
  have hmodify : (t.scopes.modify scope fun scope =>
      { scope with statements := scope.statements.push s })[id.scope]? = some x := hx
  rw [Array.getElem?_modify] at hmodify
  split at hmodify
  · rename_i hscope
    obtain ⟨y, hy, rfl⟩ := Option.map_eq_some_iff.mp hmodify
    have hyscope : t.scope scope = y := by
      rw [hscope, Tree.scope, Array.getD_eq_getD_getElem?, hy]
      rfl
    rw [Array.getElem?_push] at hs
    split at hs
    · rename_i hindex
      cases hs
      refine .inr ⟨?_, rfl⟩
      obtain ⟨idScope, index⟩ := id
      cases hscope
      cases hindex
      rw [hyscope]
      rfl
    · refine .inl ?_
      rw [Tree.statement?, hy]
      exact hs
  · refine .inl ?_
    rw [Tree.statement?, hmodify]
    exact hs

namespace Owned

open Drafted

theorem empty : Owned [] {} := by
  have hnone : ∀ id s, ¬ ({} : Tree).statement? id = some s := by
    intro id s h
    rw [statement?_empty] at h
    cases h
  exact ⟨Nat.one_pos, List.nodup_nil, (fun _ h => nomatch h), (fun _ h => nomatch h),
    (fun id s h => absurd h (hnone id s)), (fun id s h => absurd h (hnone id s)),
    (fun id _ s _ _ h => absurd h (hnone id s))⟩

/-- A new scope is pending. -/
theorem addScope (h : Owned pending t) (shared : List ScopeId) :
    Owned ((t.addScope shared).2 :: pending) (t.addScope shared).1 := by
  have hsize : (t.addScope shared).1.scopes.size = t.scopes.size + 1 := Array.size_push _
  have hnew : (t.addScope shared).2 = t.scopes.size := rfl
  have hstatement := statement?_addScope t shared
  obtain ⟨nonempty, pending_nodup, pending_range, waiting, nodup, range, once⟩ := h
  simp only [← hstatement] at waiting nodup range once
  have hmore : ∀ {x}, x < t.scopes.size → x < (t.addScope shared).1.scopes.size := fun hx =>
    hsize ▸ Nat.lt_succ_of_lt hx
  rw [hnew]
  refine ⟨hmore nonempty, List.nodup_cons.mpr ⟨fun hmem => ?_, pending_nodup⟩, ?_, ?_, nodup, ?_,
    once⟩
  · exact Nat.lt_irrefl _ (pending_range _ hmem).2
  · intro x hx
    rcases List.mem_cons.mp hx with rfl | hx
    · exact ⟨Nat.ne_of_gt nonempty, hsize ▸ Nat.lt_succ_self _⟩
    · exact ⟨(pending_range x hx).1, hmore (pending_range x hx).2⟩
  · intro x hx id s hs hmem
    rcases List.mem_cons.mp hx with rfl | hx
    · exact Nat.lt_irrefl _ (range id s hs _ hmem).2
    · exact waiting x hx id s hs hmem
  · exact fun id s hs x hx => ⟨(range id s hs x hx).1, hmore (range id s hs x hx).2⟩

/-- The pending scopes are given to a statement. -/
theorem push (h : Owned (s.opened ++ pending) t) : Owned pending (t.push scope s) := by
  have hsize : (t.push scope s).scopes.size = t.scopes.size := Array.size_modify
  obtain ⟨nonempty, pending_nodup, pending_range, waiting, nodup, range, once⟩ := h
  obtain ⟨hnodup, hpending, hdisjoint⟩ := List.nodup_append.mp pending_nodup
  have hopened : ∀ x ∈ s.opened, x ∈ s.opened ++ pending := fun x hx => List.mem_append_left _ hx
  have hwaiting : ∀ x ∈ pending, x ∈ s.opened ++ pending := fun x hx => List.mem_append_right _ hx
  refine ⟨by omega, hpending, ?_, ?_, ?_, ?_, ?_⟩
  · rw [hsize]
    exact fun x hx => pending_range x (hwaiting x hx)
  · intro x hx id s' hs' hmem
    rcases statement?_push hs' with hs' | ⟨-, rfl⟩
    · exact waiting x (hwaiting x hx) id s' hs' hmem
    · exact hdisjoint x hmem x hx rfl
  · intro id s' hs'
    rcases statement?_push hs' with hs' | ⟨-, rfl⟩
    · exact nodup id s' hs'
    · exact hnodup
  · rw [hsize]
    intro id s' hs' x hx
    rcases statement?_push hs' with hs' | ⟨-, rfl⟩
    · exact range id s' hs' x hx
    · exact pending_range x (hopened x hx)
  · intro id id' s₁ s₂ x h₁ h₂ hx₁ hx₂
    rcases statement?_push h₁ with hold₁ | ⟨hid₁, hs₁⟩ <;>
      rcases statement?_push h₂ with hold₂ | ⟨hid₂, hs₂⟩
    · exact once id id' s₁ s₂ x hold₁ hold₂ hx₁ hx₂
    · exact absurd hx₁ (waiting x (hopened x (hs₂ ▸ hx₂)) id s₁ hold₁)
    · exact absurd hx₂ (waiting x (hopened x (hs₁ ▸ hx₁)) id' s₂ hold₂)
    · exact hid₁.trans hid₂.symm

end Owned

namespace Drafted

theorem owned (h : Drafted pending t) : Owned pending t :=
  ⟨h.nonempty, h.pending_nodup, h.pending_range, h.waiting, h.nodup, h.range, h.once⟩

theorem of_owned (h : Owned pending t)
    (proper : ∀ id s, t.statement? id = some s → s.Proper id.scope) : Drafted pending t :=
  ⟨h.nonempty, h.pending_nodup, h.pending_range, h.waiting, h.nodup, h.range, h.once, proper⟩

theorem empty : Drafted [] {} := by
  refine of_owned Owned.empty fun id s hs => ?_
  rw [statement?_empty] at hs
  cases hs

theorem addScope (h : Drafted pending t) (shared : List ScopeId) :
    Drafted ((t.addScope shared).2 :: pending) (t.addScope shared).1 := by
  refine of_owned (h.owned.addScope shared) fun id s hs => ?_
  rw [statement?_addScope] at hs
  exact h.proper id s hs

theorem push (h : Drafted (s.opened ++ pending) t) (hs : s.Proper scope) :
    Drafted pending (t.push scope s) := by
  refine of_owned h.owned.push fun id s' hs' => ?_
  rcases statement?_push hs' with hs' | ⟨rfl, rfl⟩
  · exact h.proper id s' hs'
  · exact hs

end Drafted

end Steps

/-! ### Statements without bodies -/

/-- A statement that opens no scope. -/
structure Statement.Single (scope : ScopeId) (s : Statement) : Prop extends s.Proper scope where
  closed : s.opened = []

theorem Drafted.single {pending : List ScopeId} {t : Tree} {scope : ScopeId} {s : Statement}
    (h : Drafted pending t) (hs : s.Single scope) : Drafted pending (t.push scope s) := by
  refine Drafted.push ?_ hs.toProper
  rw [hs.closed]
  exact h

end RegisterMachine.Structured
