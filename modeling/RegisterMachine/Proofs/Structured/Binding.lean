import RegisterMachine.Proofs.Success
import RegisterMachine.Proofs.Structured.View
import RegisterMachine.Structured.Tree.Calls

/-! # Binding calls under a view

Which function a call is bound to depends on names, scopes and numbers of arguments only. So the
calls of a tree under a view are bound to the same functions, if the view keeps the functions that
calls are bound to, and a call that cannot be bound is refused with the same words.

* `Error.Same`: errors that are the same but for their places.
* `bindCalls_alike`: binding the calls of the view is viewing the tree with its calls bound.
* `view_bindCalls`: nothing but calls is changed. -/

namespace RegisterMachine.Structured

open RegisterMachine.Success

/-- **The errors are the same** but for their places. -/
structure Error.Same (e e' : Error) : Prop where
  code : e.code = e'.code
  detail : e.detail = e'.detail

theorem Error.Same.refl (e : Error) : e.Same e := ⟨rfl, rfl⟩

variable {v : View} {t : Tree} {scope : ScopeId}

/-- **The view keeps the functions** that calls are bound to. -/
def View.KeepsCalls (v : View) : Prop := ∀ id, v.resolved (some id) = some id

theorem Tree.parameterCount_view (id : StatementId) :
    (t.view v).parameterCount id = t.parameterCount id := by
  rw [parameterCount, parameterCount, statement?_view]
  cases t.statement? id with
  | none => rfl
  | some s =>
    cases s with
    | assign target e initial span => cases target <;> cases initial <;> rfl
    | function => simp [Statement.view, scope_view, Scope.view]
    | _ => rfl

theorem Tree.callee_alike (i : Identifier) (type : Option ValueType) (given : Nat)
    (span span' : Span) : Alike Error.Same Eq (t.callee scope i given span)
      ((t.view v).callee scope (i.withType type) given span') := by
  rw [callee, callee, function?_view, Identifier.withType_name]
  cases t.function? scope i.name with
  | none => exact ⟨rfl, rfl⟩
  | some id =>
    simp only [parameterCount_view]
    split
    · rfl
    · exact ⟨rfl, rfl⟩

mutual

theorem Expression.bindCalls_alike (hv : v.KeepsCalls) : ∀ e : Expression,
    Alike Error.Same (fun a b => a.view v = b) (e.bindCalls t scope)
      ((e.view v).bindCalls (t.view v) scope)
  | .name _ | .number _ _ | .new _ _ => rfl
  | .binary op left right span => by
    simp only [view, bindCalls]
    refine .bind (bindCalls_alike hv left) fun left' _ hleft => ?_
    refine .bind (bindCalls_alike hv right) fun right' _ hright => ?_
    subst hleft hright
    rfl
  | .element i index span => by
    simp only [view, bindCalls]
    refine .bind (bindCalls_alike hv index) fun index' _ hindex => ?_
    subst hindex
    rfl
  | .call i es resolved span => by
    simp only [view, bindCalls]
    refine .bind (bindAll_alike hv es) fun es' _ hes => ?_
    subst hes
    rw [viewAll_eq_map, List.length_map]
    refine .bind (Tree.callee_alike i i.type es'.length span {}) fun callee _ hcallee => ?_
    subst hcallee
    show call _ (viewAll v es') (v.resolved (some callee)) {} = _
    rw [hv callee, viewAll_eq_map]

theorem Expression.bindAll_alike (hv : v.KeepsCalls) : ∀ es : List Expression,
    Alike Error.Same (fun as bs => viewAll v as = bs) (bindAll t scope es)
      (bindAll (t.view v) scope (viewAll v es))
  | [] => rfl
  | e :: es => by
    simp only [viewAll, bindAll]
    refine .bind (bindCalls_alike hv e) fun e' _ he => ?_
    refine .bind (bindAll_alike hv es) fun es' _ hes => ?_
    subst he hes
    rfl

end

/-- The target of an assignment under the view. -/
theorem Target.bindCalls_alike (hv : v.KeepsCalls) (t : Tree) (scope : ScopeId) (target : Target)
    (initial : Bool) :
    ∃ target' : Target, (∀ e span, (Statement.assign target e initial span).view v =
        .assign target' (e.view v) initial {}) ∧
      Alike Error.Same (fun a b => ∀ e span, (Statement.assign a e initial span).view v =
        .assign b (e.view v) initial {}) (target.bindCalls t scope)
        (target'.bindCalls (t.view v) scope) := by
  cases target with
  | name i => cases initial <;> exact ⟨_, fun _ _ => rfl, fun _ _ => rfl⟩
  | element i index place =>
    have hindex : Alike Error.Same (fun a b => a.view v = b) (index.bindCalls t scope)
        ((index.view v).bindCalls (t.view v) scope) := Expression.bindCalls_alike hv index
    cases initial with
    | false =>
      refine ⟨_, fun _ _ => rfl, .bind hindex fun index' _ h => ?_⟩
      subst h
      exact fun _ _ => rfl
    | true =>
      refine ⟨_, fun _ _ => rfl, .bind hindex fun index' _ h => ?_⟩
      subst h
      exact fun _ _ => rfl

theorem Statement.bindCalls_alike (hv : v.KeepsCalls) (s : Statement) :
    Alike Error.Same (fun a b => a.view v = b) (s.bindCalls t scope)
      ((s.view v).bindCalls (t.view v) scope) := by
  have he : ∀ e : Expression, Alike Error.Same (fun a b => a.view v = b) (e.bindCalls t scope)
      ((e.view v).bindCalls (t.view v) scope) := Expression.bindCalls_alike hv
  cases s with
  | assign target e initial span =>
    obtain ⟨target', hview, htarget⟩ := Target.bindCalls_alike hv t scope target initial
    rw [hview]
    refine .bind htarget fun a b hab => .bind (he e) fun e' _ he' => ?_
    subst he'
    exact hab e' span
  | branch e | loop e | give e | evaluate e =>
    refine .bind (he e) fun e' _ he' => ?_
    subst he'
    rfl
  | block | leave | again | function | parameter => rfl

theorem Tree.bindScope_alike (hv : v.KeepsCalls) (id : ScopeId) (s : Scope) :
    Alike Error.Same (fun a b => a.view v = b) (t.bindScope id s)
      ((t.view v).bindScope id (s.view v)) := by
  have hall : Alike Error.Same (fun as bs => as.map (Statement.view v) = bs)
      (s.statements.mapM (Statement.bindCalls t id))
      ((s.statements.map (Statement.view v)).mapM (Statement.bindCalls (t.view v) id)) :=
    .arrayMapM fun s _ => Statement.bindCalls_alike hv s
  refine .map hall fun statements _ h => ?_
  subst h
  rfl

/-- **Binding the calls of a view.** -/
theorem Tree.bindCalls_alike (hv : v.KeepsCalls) (t : Tree) :
    Alike Error.Same (fun a b => a.view v = b) t.bindCalls (t.view v).bindCalls := by
  have hscopes : (t.view v).scopes.zipIdx =
      t.scopes.zipIdx.map fun entry => (entry.1.view v, entry.2) := by
    rw [← Array.toList_inj, Array.toList_map, Array.toList_zipIdx, Array.toList_zipIdx, view,
      Array.toList_map, List.zipIdx_map]
    rfl
  have hall : Alike Error.Same (fun as bs => as.map (Scope.view v) = bs)
      (t.scopes.zipIdx.mapM fun entry => t.bindScope entry.2 entry.1)
      ((t.scopes.zipIdx.map fun entry => (entry.1.view v, entry.2)).mapM fun entry =>
        (t.view v).bindScope entry.2 entry.1) :=
    .arrayMapM fun entry _ => bindScope_alike hv entry.2 entry.1
  rw [bindCalls, bindCalls, hscopes]
  refine .map hall fun scopes _ h => ?_
  subst h
  rfl

theorem Tree.bindCalls_view (hv : v.KeepsCalls) :
    (t.view v).bindCalls.toOption = t.bindCalls.toOption.map (view v) :=
  (bindCalls_alike hv t).toOption

/-! ### Nothing but calls is changed -/

/-- **The view does not tell** which functions calls are bound to. -/
def View.DropsCalls (v : View) : Prop := ∀ resolved, v.resolved resolved = v.resolved none

mutual

theorem Expression.view_bindCalls (hv : v.DropsCalls) : ∀ {e e' : Expression},
    e.bindCalls t scope = .ok e' → e'.view v = e.view v
  | .name i, e', h | .number value span, e', h | .new type span, e', h => by
    cases h
    rfl
  | .binary op left right span, e', h => by
    rw [bindCalls] at h
    obtain ⟨left', hleft, h⟩ := bind_ok h
    obtain ⟨right', hright, h⟩ := bind_ok h
    cases pure_ok h
    rw [view, view, view_bindCalls hv hleft, view_bindCalls hv hright]
  | .element i index span, e', h => by
    rw [bindCalls] at h
    obtain ⟨index', hindex, h⟩ := bind_ok h
    cases pure_ok h
    rw [view, view, view_bindCalls hv hindex]
  | .call i arguments resolved span, e', h => by
    rw [bindCalls] at h
    obtain ⟨arguments', harguments, h⟩ := bind_ok h
    obtain ⟨callee, -, h⟩ := bind_ok h
    cases pure_ok h
    rw [view, view, viewAll_bindAll hv harguments, hv, hv resolved]

theorem Expression.viewAll_bindAll (hv : v.DropsCalls) : ∀ {es es' : List Expression},
    bindAll t scope es = .ok es' → viewAll v es' = viewAll v es
  | [], es', h => by
    cases h
    rfl
  | e :: es, es', h => by
    rw [bindAll] at h
    obtain ⟨e', he, h⟩ := bind_ok h
    obtain ⟨rest', hrest, h⟩ := bind_ok h
    cases pure_ok h
    rw [viewAll, viewAll, view_bindCalls hv he, viewAll_bindAll hv hrest]

end

theorem Statement.view_bindCalls (hv : v.DropsCalls) {s s' : Statement}
    (h : s.bindCalls t scope = .ok s') : s'.view v = s.view v := by
  cases s with
  | assign target e initial span =>
    rw [bindCalls] at h
    obtain ⟨target', htarget, h⟩ := bind_ok h
    obtain ⟨e', he, h⟩ := bind_ok h
    cases pure_ok h
    have he := Expression.view_bindCalls hv he
    cases target with
    | name i =>
      cases htarget
      cases initial <;> simp only [view, Target.view, he]
    | element i index place =>
      rw [Target.bindCalls] at htarget
      obtain ⟨index', hindex, htarget⟩ := bind_ok htarget
      cases pure_ok htarget
      have hindex := Expression.view_bindCalls hv hindex
      cases initial <;> simp only [view, Target.view, he, hindex]
  | branch e | loop e | give e | evaluate e =>
    rw [bindCalls] at h
    obtain ⟨e', he, h⟩ := bind_ok h
    cases pure_ok h
    rw [view, view, Expression.view_bindCalls hv he]
  | block | leave | again | function | parameter =>
    cases h
    rfl

/-- **Binding its calls changes nothing else** in a tree. -/
theorem Tree.view_bindCalls (hv : v.DropsCalls) {t' : Tree} (h : t.bindCalls = .ok t') :
    t'.view v = t.view v := by
  obtain ⟨scopes, hscopes, rfl⟩ := map_ok h
  rw [Array.mapM_eq_mapM_toList] at hscopes
  obtain ⟨l, hl, rfl⟩ := map_ok hscopes
  have hscope : ∀ (entry : Scope × ScopeId) (s' : Scope),
      t.bindScope entry.2 entry.1 = .ok s' → s'.view v = entry.1.view v := by
    intro entry s' hs'
    obtain ⟨statements, hstatements, rfl⟩ := map_ok hs'
    rw [Array.mapM_eq_mapM_toList] at hstatements
    obtain ⟨m, hm, rfl⟩ := map_ok hstatements
    have hview := map_of_mapM hm fun _ _ hs => Statement.view_bindCalls hv hs
    rw [Scope.view, Scope.view, List.map_toArray, hview, ← List.map_toArray, Array.toArray_toList]
  have hview := map_of_mapM hl hscope
  have hzip : t.scopes.zipIdx.toList.map (fun entry => entry.1.view v) =
      t.scopes.toList.map (·.view v) := by
    rw [Array.toList_zipIdx]
    exact (List.map_map (g := Scope.view v) (f := Prod.fst)).symm.trans
      (congrArg _ (List.zipIdx_map_fst _ _))
  rw [view, view, List.map_toArray, hview, hzip, ← List.map_toArray, Array.toArray_toList]

end RegisterMachine.Structured
