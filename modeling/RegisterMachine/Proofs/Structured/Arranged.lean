import Mathlib.Data.List.Nodup
import RegisterMachine.Proofs.Structured.Analyzed
import RegisterMachine.Proofs.Structured.Resolution

/-! # What is around what in a tree

The tree of a source has its scopes inside each other as they stand in the source. A scope that a
statement opens is inside the scope of the statement, the body of a function inside the scope of its
parameters. What a statement names is declared around it, the functions that it calls too.

* `callees_eq`: the functions that are called, by the calls.
* `Tree.Arranged`: scopes, names and calls.
* `arranged_of_stages`, `analyze_arranged`: the tree of any tokens, and that of every source. -/

namespace RegisterMachine.Structured

open RegisterMachine.Success

/-! ### Calls and their functions -/

mutual

theorem Expression.callees_eq : ∀ e : Expression, e.callees = e.calls.filterMap Call.resolved
  | .name _ | .number _ _ | .new _ _ => rfl
  | .binary _ left right _ => by
    rw [callees, calls, List.filterMap_append, callees_eq left, callees_eq right]
  | .element _ index _ => by rw [callees, calls, callees_eq index]
  | .call _ es resolved _ => by
    rw [callees, calls, List.filterMap_append, calleesOf_eq es]
    cases resolved <;> rfl

theorem Expression.calleesOf_eq : ∀ es : List Expression,
    calleesOf es = (callsOf es).filterMap Call.resolved
  | [] => rfl
  | e :: es => by
    rw [calleesOf, callsOf, List.filterMap_append, callees_eq e, calleesOf_eq es]

end

/-- **The functions that a statement calls** are those that its calls are bound to. -/
theorem Statement.callees_eq (s : Statement) : s.callees = s.calls.filterMap Call.resolved := by
  cases s with
  | assign target e initial span =>
    cases target with
    | name i => exact e.callees_eq
    | element i index place =>
      rw [callees, calls, List.filterMap_append, index.callees_eq, e.callees_eq]
      rfl
  | branch e | loop e | give e | evaluate e => exact e.callees_eq
  | block | leave | again | function | parameter => rfl

theorem Statement.mem_callees {s : Statement} {g : StatementId} :
    g ∈ s.callees ↔ ∃ call ∈ s.calls, call.resolved = some g := by
  rw [callees_eq]
  exact List.mem_filterMap

section Views

variable {v : View}

mutual

theorem Expression.callees_view (hv : v.resolved = id) : ∀ e : Expression,
    (e.view v).callees = e.callees
  | .name _ | .number _ _ | .new _ _ => rfl
  | .binary _ left right _ => by
    rw [view, callees, callees, callees_view hv left, callees_view hv right]
  | .element _ index _ => by rw [view, callees, callees, callees_view hv index]
  | .call _ es _ _ => by rw [view, callees, callees, hv, calleesOf_viewAll hv es, id]

theorem Expression.calleesOf_viewAll (hv : v.resolved = id) : ∀ es : List Expression,
    calleesOf (viewAll v es) = calleesOf es
  | [] => rfl
  | e :: es => by rw [viewAll, calleesOf, calleesOf, callees_view hv e, calleesOf_viewAll hv es]

end

theorem Statement.callees_view (hv : v.resolved = id) (s : Statement) :
    (s.view v).callees = s.callees := by
  have he := Expression.callees_view hv
  cases s with
  | assign target e initial span =>
    cases target <;> cases initial <;> simp only [view, Target.view, callees, he]
  | branch e | loop e | give e | evaluate e => exact he e
  | block | leave | again | function | parameter => rfl

theorem Statement.nested_view (s : Statement) (scope : ScopeId) :
    (s.view v).nested scope = s.nested scope := by
  cases s with
  | assign target e initial span => cases target <;> cases initial <;> rfl
  | _ => rfl

theorem Tree.size_of_view {t t' : Tree} (h : t.view v = t'.view v) :
    t.scopes.size = t'.scopes.size := by
  rw [← size_view (v := v), h, size_view]

theorem Tree.Function.of_view {t t' : Tree} {id : StatementId} {parameters body : ScopeId}
    (h : t.Function id parameters body) (hview : t.view v = t'.view v) :
    t'.Function id parameters body := by
  obtain ⟨i, returns, span, hs⟩ := h
  obtain ⟨s', hs', hlike⟩ := Tree.statement?_of_view hview.symm hs
  cases s' with
  | function i' parameters' body' returns' span' =>
    obtain ⟨-, rfl, rfl, -⟩ := Statement.function.inj hlike
    exact ⟨i', returns', span', hs'⟩
  | assign target e initial span => cases target <;> cases initial <;> cases hlike
  | _ => cases hlike

end Views

/-- The scopes that a statement runs are inside its own. -/
theorem Statement.nested_of_bodies {s : Statement} {scope body : ScopeId} (h : body ∈ s.bodies) :
    (body, scope) ∈ s.nested scope := by
  cases s with
  | branch e first otherwise span =>
    cases otherwise with
    | none => simpa [bodies, nested] using h
    | some other => simpa [bodies, nested, or_comm] using h
  | loop | block => simpa [bodies, nested] using h
  | _ => cases h

/-! ### Scopes, names and calls -/

/-- **What is around what in a tree.** -/
structure Tree.Arranged (t : Tree) : Prop where
  /-- The root is in no other scope. -/
  root : rootScope < t.scopes.size ∧ (t.scope rootScope).shared = []
  /-- A scope that a statement opens is inside its parent, which has a smaller number. -/
  nested : ∀ id s, t.statement? id = some s → ∀ p ∈ s.nested id.scope,
    (t.scope p.1).shared = [p.2] ∧ p.2 < p.1 ∧ p.1 < t.scopes.size
  signed : t.Signed
  names : t.BindsAround
  /-- A statement calls functions that are declared around it. -/
  callees : ∀ id s, t.statement? id = some s → ∀ g ∈ s.callees,
    (∃ parameters body, t.Function g parameters body) ∧ t.Within id.scope g.scope

theorem Tree.WellFormed.nested {t : Tree} (h : t.WellFormed) {id : StatementId} {s : Statement}
    (hs : t.statement? id = some s) {p : ScopeId × ScopeId} (hp : p ∈ s.nested id.scope) :
    (t.scope p.1).shared = [p.2] ∧ p.2 < p.1 ∧ p.1 < t.scopes.size := by
  have hopened : p.1 ∈ s.opened := s.map_nested id.scope ▸ List.mem_map_of_mem hp
  obtain ⟨hroot, hlt⟩ := h.range id s hs p.1 hopened
  obtain ⟨id', s', outer, hs', hp', hshared, houter⟩ := h.parent p.1 hlt hroot
  -- the statement that opens the scope is this one, and it opens it once
  have hopened' : p.1 ∈ s'.opened := by
    rw [← s'.map_nested id'.scope]
    exact List.mem_map.mpr ⟨_, hp', rfl⟩
  obtain rfl := h.once id id' s s' p.1 hs hs' hopened hopened'
  cases hs.symm.trans hs'
  have hnodup := h.nodup id s hs
  rw [← s.map_nested id.scope] at hnodup
  have hsame : (p.1, outer) = p := List.inj_on_of_nodup_map hnodup hp' hp rfl
  rw [← hsame]
  exact ⟨hshared, houter, hlt⟩

/-- **In the tree of any tokens** scopes, names and calls are arranged in this way. -/
theorem arranged_of_stages {tokens : List Token} {read bound : Tree}
    (hread : Parser.parse tokens = .ok read) (hbound : read.bindCalls = .ok bound) :
    bound.inferTypes.Arranged := by
  have wellFormed := Parser.parse_wellFormed hread
  have signed := Parser.parse_signed hread
  have huntyped : bound.view .untyped = bound.inferTypes.view .untyped := bound.view_inferTypes.symm
  have hbare := Tree.bare_inferTypes hbound
  have hshared := Tree.shared_of_view hbare
  have hsize := Tree.size_of_view hbare
  refine ⟨?_, fun id s hs p hp => ?_, signed.of_view hbare,
    (Parser.parse_bindsAround hread).of_view hbare, fun id s hs g hg => ?_⟩
  · rw [← hsize, ← hshared]
    exact wellFormed.root
  · obtain ⟨s₀, hs₀, hlike⟩ := Tree.statement?_of_view hbare hs
    rw [← Statement.nested_view (v := .bare), ← hlike, Statement.nested_view] at hp
    rw [← hsize, ← hshared]
    exact wellFormed.nested hs₀ hp
  · obtain ⟨s₁, hs₁, hlike⟩ := Tree.statement?_of_view huntyped hs
    rw [← Statement.callees_view (v := .untyped) rfl, ← hlike, Statement.callees_view rfl,
      Statement.mem_callees] at hg
    obtain ⟨call', hcall', hresolved⟩ := hg
    obtain ⟨s₀, -, hbind⟩ := Tree.statement?_bindCalls hbound hs₁
    obtain ⟨call, -, hresolves⟩ := exists_of_mem_right (Statement.bound hbind).2 hcall'
    obtain ⟨callee, hlookup, hcallee⟩ := hresolves.found
    cases hresolved.symm.trans hcallee
    have hanswers := (Tree.lookup_ok_iff wellFormed signed).mp hlookup
    obtain ⟨i, parameters, body, returns, span, -, hfunction, -⟩ := hanswers.offers
    have hf : read.Function g parameters body := ⟨i, returns, span, hfunction⟩
    exact ⟨⟨parameters, body, hf.of_view hbare⟩,
      hanswers.nearest.within.congr fun x => (hshared x).symm⟩

theorem analyze_arranged {source : String} {t : Tree} (h : analyze source = .ok t) :
    t.Arranged := by
  obtain ⟨tokens, -, h⟩ := bind_ok h
  obtain ⟨read, hread, h⟩ := bind_ok h
  obtain ⟨bound, hbound, h⟩ := bind_ok h
  cases pure_ok h
  exact arranged_of_stages hread hbound

end RegisterMachine.Structured
