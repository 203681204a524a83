import RegisterMachine.Proofs.Structured.Declared
import RegisterMachine.Proofs.Structured.View
import RegisterMachine.Structured.Tree.Inference

/-! # Filling in types

The statements of a tree are typed one after the other, each in the tree that the earlier ones have
left. Only the types of names change, and a statement has its final type once it is its turn.

* `statement?_inferAt`, `inferTypes_at`: what becomes of one statement.
* `view_inferTypes`: what is kept.
* `inferTypes_unplaced`: places do not matter. -/

namespace RegisterMachine.Structured

/-! ### Trees by their statements -/

section Trees

variable {t t' : Tree} {v v' : View}

/-- **Trees are equal** if they have the same statements in the same scopes. -/
theorem Tree.ext_statements (hsize : t.scopes.size = t'.scopes.size)
    (hshared : ∀ id, (t.scope id).shared = (t'.scope id).shared)
    (hstatements : ∀ id, t.statement? id = t'.statement? id) : t = t' := by
  obtain ⟨scopes⟩ := t
  obtain ⟨scopes'⟩ := t'
  rw [mk.injEq]
  refine Array.ext hsize fun id hid hid' => ?_
  have hscope : (⟨scopes⟩ : Tree).scope id = scopes[id] := by
    simp [Tree.scope, Array.getD_eq_getD_getElem?, hid]
  have hscope' : (⟨scopes'⟩ : Tree).scope id = scopes'[id] := by
    simp [Tree.scope, Array.getD_eq_getD_getElem?, hid']
  rw [← hscope, ← hscope']
  have hown :
      ((⟨scopes⟩ : Tree).scope id).statements = ((⟨scopes'⟩ : Tree).scope id).statements := by
    refine Array.ext_getElem? fun index => ?_
    have hstatement := hstatements ⟨id, index⟩
    rw [statement?_eq, statement?_eq] at hstatement
    exact hstatement
  have hshares := hshared id
  cases hx : (⟨scopes⟩ : Tree).scope id
  cases hy : (⟨scopes'⟩ : Tree).scope id
  rw [hx, hy] at hown hshares
  cases hown
  cases hshares
  rfl

/-- Trees look alike if their statements do. -/
theorem Tree.view_ext (hsize : t.scopes.size = t'.scopes.size)
    (hshared : ∀ id, (t.scope id).shared = (t'.scope id).shared)
    (hstatements : ∀ id, (t.statement? id).map (·.view v) = (t'.statement? id).map (·.view v')) :
    t.view v = t'.view v' := by
  refine ext_statements (by rw [size_view, size_view, hsize]) (fun id => ?_) fun id => ?_
  · rw [scope_view, scope_view]
    exact hshared id
  · rw [statement?_view, statement?_view, hstatements]

end Trees

/-! ### One statement -/

section Statement

variable {t : Tree} {id id' : StatementId} {s : Statement}

theorem Tree.statement?_inferAt (t : Tree) (id id' : StatementId) :
    (t.inferAt id).statement? id' =
      if id' = id then (t.statement? id).map t.inferStatement else t.statement? id' := by
  unfold inferAt
  split
  · rename_i hnone
    split
    · rename_i heq
      rw [heq, hnone]
      rfl
    · rfl
  · rename_i s hs
    obtain ⟨x, hx, hindex⟩ := Option.bind_eq_some_iff.mp hs
    rw [statement?, Array.getElem?_modify]
    by_cases hscope : id.scope = id'.scope
    · rw [if_pos hscope, ← hscope, hx, Option.map_some, Option.bind_some,
        Array.getElem?_setIfInBounds]
      by_cases hplace : id.index = id'.index
      · have heq : id' = id := by
          cases id
          cases id'
          cases hscope
          cases hplace
          rfl
        rw [if_pos hplace, if_pos heq, hs, if_pos (Array.getElem?_eq_some_iff.mp hindex).1]
        rfl
      · have hne : id' ≠ id := fun heq => hplace (heq ▸ rfl)
        rw [if_neg hplace, if_neg hne, statement?, ← hscope, hx]
        rfl
    · have hne : id' ≠ id := fun heq => hscope (heq ▸ rfl)
      rw [if_neg hscope, if_neg hne]
      rfl

theorem Tree.size_inferAt : (t.inferAt id).scopes.size = t.scopes.size := by
  unfold inferAt
  split
  · rfl
  · exact Array.size_modify

theorem Tree.shared_inferAt (scope : ScopeId) :
    ((t.inferAt id).scope scope).shared = (t.scope scope).shared := by
  unfold inferAt
  split
  · rfl
  · simp only [Tree.scope, Array.getD_eq_getD_getElem?, Array.getElem?_modify]
    split
    · cases t.scopes[scope]? <;> rfl
    · rfl

theorem Tree.inferAt_eq_self (h : ∀ s, t.statement? id = some s → t.inferStatement s = s) :
    t.inferAt id = t := by
  refine ext_statements size_inferAt (fun _ => shared_inferAt _) fun id' => ?_
  rw [statement?_inferAt]
  split
  · rename_i heq
    rw [heq]
    cases hs : t.statement? id with
    | none => rfl
    | some s => rw [Option.map_some, h s hs]
  · rfl

theorem Tree.view_inferStatement (s : Statement) :
    (t.inferStatement s).view .untyped = s.view .untyped := by
  unfold inferStatement
  split
  · split <;> rfl
  · rfl
  · rfl

theorem Tree.view_inferAt : (t.inferAt id).view .untyped = t.view .untyped := by
  refine view_ext size_inferAt (fun _ => shared_inferAt _) fun id' => ?_
  rw [statement?_inferAt]
  split
  · rename_i heq
    rw [heq]
    cases t.statement? id with
    | none => rfl
    | some s => exact congrArg some (view_inferStatement s)
  · rfl

end Statement

/-! ### All statements -/

section Statements

variable {t : Tree} {id : StatementId} {s : Statement} {ids : List StatementId}

theorem Tree.view_foldl : (ids.foldl inferAt t).view .untyped = t.view .untyped := by
  induction ids generalizing t with
  | nil => rfl
  | cons id ids ih => rw [List.foldl_cons, ih, view_inferAt]

/-- **A tree whose statements are all typed** stays as it is. -/
theorem Tree.inferTypes_eq_self
    (h : ∀ id s, t.statement? id = some s → t.inferStatement s = s) : t.inferTypes = t := by
  rw [inferTypes]
  generalize t.statementIds = ids
  induction ids with
  | nil => rfl
  | cons id ids ih => rw [List.foldl_cons, inferAt_eq_self (h id), ih]

/-- **Nothing but the types of names is changed.** -/
theorem Tree.view_inferTypes : t.inferTypes.view .untyped = t.view .untyped := view_foldl

theorem Tree.statement?_foldl (h : id ∉ ids) :
    (ids.foldl inferAt t).statement? id = t.statement? id := by
  induction ids generalizing t with
  | nil => rfl
  | cons id' ids ih =>
    have hne : id ≠ id' := fun heq => h (heq ▸ List.mem_cons_self)
    rw [List.foldl_cons, ih fun hmem => h (List.mem_cons_of_mem _ hmem), statement?_inferAt,
      if_neg hne]

theorem Tree.mem_statementIds (hs : t.statement? id = some s) : id ∈ t.statementIds := by
  obtain ⟨scope, hscope, hindex⟩ := Option.bind_eq_some_iff.mp hs
  refine List.mem_flatMap.mpr ⟨(scope, id.scope), ?_, ?_⟩
  · rw [List.mk_mem_zipIdx_iff_getElem?, Array.getElem?_toList]
    exact hscope
  · exact List.mem_map.mpr
      ⟨id.index, List.mem_range.mpr (Array.getElem?_eq_some_iff.mp hindex).1, rfl⟩

/-- The statements are taken in order. -/
theorem Tree.pairwise_statementIds (t : Tree) : t.statementIds.Pairwise StatementId.Before := by
  refine List.pairwise_flatMap.mpr ⟨fun entry _ => ?_, ?_⟩
  · refine List.pairwise_map.mpr ?_
    exact List.pairwise_lt_range.imp fun hlt => .inr ⟨rfl, hlt⟩
  · have hsorted : (t.scopes.toList.zipIdx.map Prod.snd).Pairwise (· < ·) := by
      rw [List.zipIdx_map_snd]
      exact List.pairwise_lt_range'
    refine (List.pairwise_map.mp hsorted).imp fun hlt x hx y hy => ?_
    obtain ⟨_, -, rfl⟩ := List.mem_map.mp hx
    obtain ⟨_, -, rfl⟩ := List.mem_map.mp hy
    exact .inl hlt

/-- **What becomes of a statement**: it is typed in a tree where the earlier ones are final. -/
theorem Tree.inferTypes_at (hs : t.statement? id = some s) :
    ∃ p : Tree, t.inferTypes.statement? id = some (p.inferStatement s) ∧
      (∀ id', id'.Before id → p.statement? id' = t.inferTypes.statement? id') ∧
      p.view .untyped = t.view .untyped := by
  obtain ⟨earlier, later, hids⟩ := List.append_of_mem (mem_statementIds hs)
  have hsorted := t.pairwise_statementIds
  rw [hids] at hsorted
  obtain ⟨-, hlater, hcross⟩ := List.pairwise_append.mp hsorted
  have hearlier : id ∉ earlier := fun hmem =>
    StatementId.Before.irrefl id (hcross id hmem id List.mem_cons_self)
  have hbehind : ∀ id' ∈ later, id.Before id' := (List.pairwise_cons.mp hlater).1
  have hfinal : ∀ id', id' ∉ later → t.inferTypes.statement? id' =
      ((earlier.foldl inferAt t).inferAt id).statement? id' := by
    intro id' hmem
    rw [inferTypes, hids, List.foldl_append, List.foldl_cons, statement?_foldl hmem]
  refine ⟨earlier.foldl inferAt t, ?_, fun id' hbefore => ?_, view_foldl⟩
  · rw [hfinal id fun hmem => StatementId.Before.irrefl id (hbehind id hmem), statement?_inferAt,
      if_pos rfl, statement?_foldl hearlier, hs]
    rfl
  · have hne : id' ≠ id := fun heq => StatementId.Before.irrefl id (heq ▸ hbefore)
    rw [hfinal id' fun hmem => hbefore.asymm (hbehind id' hmem), statement?_inferAt, if_neg hne]

end Statements

/-! ### Places -/

section Places

variable {t : Tree}

theorem Tree.returnType?_view {v : View} (id : StatementId) :
    (t.view v).returnType? id = t.returnType? id := by
  rw [returnType?, returnType?, statement?_view]
  cases t.statement? id with
  | none => rfl
  | some s =>
    cases s with
    | assign target e initial span => cases target <;> cases initial <;> rfl
    | _ => rfl

theorem Tree.typeOfName?_unplaced (i : Identifier) :
    (t.view .unplaced).typeOfName? (i.withType i.type) = t.typeOfName? i := by
  obtain ⟨name, type, binding, span⟩ := i
  cases type with
  | some type => rfl
  | none =>
    cases binding with
    | none => rfl
    | some binding =>
      simp only [typeOfName?, Identifier.withType, declaration?_view]
      cases t.declaration? binding name <;> rfl

theorem Tree.typeOf?_unplaced (e : Expression) :
    (t.view .unplaced).typeOf? (e.view .unplaced) = t.typeOf? e := by
  cases e with
  | name i => exact typeOfName?_unplaced i
  | element i index span => exact congrArg (·.map ValueType.element) (typeOfName?_unplaced i)
  | call i es resolved span =>
    cases resolved with
    | none => rfl
    | some id => exact returnType?_view id
  | number | binary | new => rfl

theorem Tree.inferStatement_unplaced (s : Statement) :
    (t.view .unplaced).inferStatement (s.view .unplaced) = (t.inferStatement s).view .unplaced := by
  cases s with
  | assign target e initial span =>
    cases target <;> cases initial
    case name.true i =>
      obtain ⟨name, type, binding, place⟩ := i
      cases type with
      | some type => rfl
      | none =>
        have htype := typeOf?_unplaced (t := t) e
        simp only [Statement.view, inferStatement, Identifier.withType_type, View.unplaced,
          View.typed] at htype ⊢
        rw [htype]
        rfl
    all_goals rfl
  | give e span =>
    cases e
    case name i =>
      have htype := typeOfName?_unplaced (t := t) i
      simp only [Statement.view, Expression.view, inferStatement, View.unplaced, View.typed]
        at htype ⊢
      rw [htype]
      rfl
    all_goals rfl
  | _ => rfl

theorem Tree.inferAt_unplaced (id : StatementId) :
    (t.view .unplaced).inferAt id = (t.inferAt id).view .unplaced := by
  refine ext_statements ?_ (fun scope => ?_) fun id' => ?_
  · rw [size_inferAt, size_view, size_view, size_inferAt]
  · rw [shared_inferAt, scope_view, scope_view]
    exact (shared_inferAt scope).symm
  · rw [statement?_inferAt, statement?_view, statement?_view, statement?_view, statement?_inferAt]
    split
    · cases t.statement? id with
      | none => rfl
      | some s => exact congrArg some (inferStatement_unplaced s)
    · rfl

theorem Tree.statementIds_view {v : View} : (t.view v).statementIds = t.statementIds := by
  rw [statementIds, statementIds, view, Array.toList_map, List.zipIdx_map, List.flatMap_map]
  simp [Scope.view]

/-- **Places do not matter** for types. -/
theorem Tree.inferTypes_unplaced (t : Tree) :
    (t.view .unplaced).inferTypes = t.inferTypes.view .unplaced := by
  rw [inferTypes, inferTypes, statementIds_view]
  generalize t.statementIds = ids
  induction ids generalizing t with
  | nil => rfl
  | cons id ids ih => rw [List.foldl_cons, List.foldl_cons, inferAt_unplaced, ih]

end Places

end RegisterMachine.Structured
