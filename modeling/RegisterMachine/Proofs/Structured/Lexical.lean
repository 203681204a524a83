import RegisterMachine.Proofs.Structured.Building

/-! # Names are declared before they are used

While statements are put into scopes, every name that a statement uses is already declared, in the
scope of the statement or in one that was opened before it. So in the order of scopes and statements
a declaration stands in front of all its uses.

* `Statement.Typed`: the types of declarations as they are read.
* `Tree.Lexical`: the invariant, with `Lexical.push` and `Lexical.addScope`.
* `Builds.lexical`, `parse_lexical`: it holds of every tree that is read.
* `Lexical.of_view`: it holds of the tree with its calls bound. -/

namespace RegisterMachine.Structured

open RegisterMachine.Success

/-- **Declared names are bound to the scope that declares them.** -/
def Tree.Bound (t : Tree) : Prop :=
  ∀ id s i, t.statement? id = some s → s.declared? = some i → i.binding = some id.scope

/-- The value of the expression is one number, as far as the types of its names say. -/
def Expression.IsValue : Expression → Prop
  | .name j => Site.namesArray j = false
  | .element j _ _ => Site.namesArray j = true
  | .new _ _ => False
  | _ => True

/-- **The types of a declaration**: an array of scalars for `new`, and nothing but scalars for
others. -/
def Statement.Typed : Statement → Prop
  | assign (.name i) e true _ =>
    (∃ element size, i.type = some (.array element size) ∧ IsScalar (some element)) ∨
      IsScalar i.type ∧ e.IsValue
  | parameter i => IsScalar i.type
  | function _ _ _ returns _ => IsScalar returns
  | _ => True

/-- **Every name has one declaration in its scope**, and it stands before all uses. -/
structure Tree.Lexical (t : Tree) : Prop where
  inward : t.Inward
  bound : t.Bound
  unique : ∀ id id' s s' i i', t.statement? id = some s → t.statement? id' = some s' →
    id'.scope = id.scope → s.declared? = some i → s'.declared? = some i' → i'.name = i.name →
    id' = id
  used : ∀ id s, t.statement? id = some s → ∀ j ∈ s.names, t.DeclaredBefore id j
  typed : ∀ id s, t.statement? id = some s → s.Typed

section Growing

variable {t t' : Tree} {scope : ScopeId} {l : List Statement} {s : Statement} {j : Identifier}

/-- The place at the end of a scope. -/
def Tree.placeIn (t : Tree) (scope : ScopeId) : StatementId :=
  ⟨scope, (t.scope scope).statements.size⟩

/-- **What a scope sees is declared before** its next statement. -/
theorem Tree.Inward.declaredBefore (inward : t.Inward) (h : t.Sees scope j) :
    t.DeclaredBefore (t.placeIn scope) j := by
  obtain ⟨binding, declaration, hdeclaration, hbinding, hsame⟩ := h
  obtain ⟨id, s, hs, rfl, hdeclared, -, hle⟩ := declaration?_ok hdeclaration
  refine ⟨id, s, declaration, hs, ?_, hbinding, hdeclared, hsame⟩
  rcases Nat.lt_or_eq_of_le (hle inward) with hlt | heq
  · exact .inl hlt
  · refine .inr ⟨heq, ?_⟩
    rw [Tree.statement?_eq, heq] at hs
    exact (Array.getElem?_eq_some_iff.mp hs).1

/-- The scope sees what a name is bound to. -/
theorem Parser.Uses.sees {T : Token → Prop} (bound : t.Bound) (h : Uses T t scope j) :
    t.Sees scope j := by
  obtain ⟨name, binding, declaration, -, -, hdeclaration, rfl⟩ := h
  refine ⟨binding, declaration, hdeclaration, rfl, ?_⟩
  obtain ⟨id, s, hs, rfl, hdeclared, hraw, -⟩ := declaration?_ok hdeclaration
  have hbinding := bound id s declaration hs hdeclared
  cases declaration
  cases hraw
  cases hbinding
  rfl

theorem Parser.Parses.isValue {T : Token → Prop} {e : Expression} (h : Parses T t scope e) :
    e.IsValue := by
  cases h with
  | name _ scalar => exact scalar
  | element _ array => exact array
  | number | binary | call => trivial

theorem Parser.Forms.typed {T : Token → Prop} {around : Surroundings}
    (h : Forms T t scope around s) : s.Typed := by
  cases h with
  | array declares type scalar =>
    refine .inl ⟨_, _, type, ?_⟩
    rcases scalar with rfl | rfl
    exacts [.inr (.inl rfl), .inr (.inr rfl)]
  | declare declares scalar value => exact .inr ⟨scalar, value.isValue⟩
  | _ => trivial

end Growing

namespace Tree.Lexical

variable {t : Tree} {scope : ScopeId} {s : Statement}

/-- A new scope shares what was opened before it. -/
theorem addScope (h : t.Lexical) (hscope : scope < t.scopes.size) :
    (t.addScope [scope]).1.Lexical where
  inward := by
    intro id shared hshared
    rcases Nat.lt_trichotomy id t.scopes.size with hid | rfl | hid
    · rw [Parser.scope_addScope_of_lt hid] at hshared
      exact h.inward id shared hshared
    · rw [Parser.scope_addScope_self] at hshared
      exact List.mem_singleton.mp hshared ▸ hscope
    · have hnone : (t.addScope [scope]).1.scopes[id]? = none :=
        Array.getElem?_eq_none (by rw [Parser.size_addScope]; exact hid)
      rw [Tree.scope, Array.getD_eq_getD_getElem?, hnone] at hshared
      cases hshared
  bound id s i hs hi := by
    rw [Drafted.statement?_addScope] at hs
    exact h.bound id s i hs hi
  unique id id' s s' i i' hs hs' := by
    rw [Drafted.statement?_addScope] at hs hs'
    exact h.unique id id' s s' i i' hs hs'
  used id s hs j hj := by
    rw [Drafted.statement?_addScope] at hs
    refine (h.used id s hs j hj).grows fun id s hs => ?_
    rw [Drafted.statement?_addScope]
    exact hs
  typed id s hs := by
    rw [Drafted.statement?_addScope] at hs
    exact h.typed id s hs

/-- **A statement is put into a scope** that declares what it uses, and not what it declares. -/
theorem push (h : t.Lexical)
    (hdeclared : ∀ i, s.declared? = some i → t.Fresh scope i.name ∧ i.binding = some scope)
    (hused : ∀ j ∈ s.names, t.DeclaredBefore (t.placeIn scope) j) (htyped : s.Typed) :
    (t.push scope s).Lexical where
  inward := by
    intro id shared hshared
    rw [Parser.shared_push] at hshared
    exact h.inward id shared hshared
  bound id s' i hs' hi := by
    rcases Drafted.statement?_push hs' with hs' | ⟨rfl, rfl⟩
    · exact h.bound id s' i hs' hi
    · exact (hdeclared i hi).2
  unique id id' s₁ s₂ i i' hs₁ hs₂ hscope hi hi' hname := by
    rcases Drafted.statement?_push hs₁ with hold₁ | ⟨rfl, rfl⟩ <;>
      rcases Drafted.statement?_push hs₂ with hold₂ | ⟨rfl, rfl⟩
    · exact h.unique id id' s₁ s₂ i i' hold₁ hold₂ hscope hi hi' hname
    · exact absurd hname.symm ((hdeclared i' hi').1.ne hold₁ hscope.symm hi)
    · exact absurd hname ((hdeclared i hi).1.ne hold₂ hscope hi')
    · rfl
  used id s' hs' j hj := by
    have hgrows := (Parser.Grown.push t scope s).grows
    rcases Drafted.statement?_push hs' with hs' | ⟨rfl, rfl⟩
    · exact (h.used id s' hs' j hj).grows hgrows
    · exact (hused j hj).grows hgrows
  typed id s' hs' := by
    rcases Drafted.statement?_push hs' with hs' | ⟨-, rfl⟩
    · exact h.typed id s' hs'
    · exact htyped

end Tree.Lexical

namespace Parser

variable {scope : ScopeId}

/-- What was declared before the next statement of a scope still is, once bodies were read. -/
theorem Grown.declaredBefore {t t' : Tree} {j : Identifier} (h : Grown t t' scope [])
    (hscope : scope < t.scopes.size) (hj : t.DeclaredBefore (t.placeIn scope) j) :
    t'.DeclaredBefore (t'.placeIn scope) j := by
  have hplace : t'.placeIn scope = t.placeIn scope := by
    rw [Tree.placeIn, Tree.placeIn, h.own hscope]
    simp
  rw [hplace]
  exact hj.grows h.grows

theorem BuildsParameters.lexical {T : Token → Prop} {t t' : Tree} {ps : List Identifier}
    (hps : BuildsParameters T scope t ps t') (h : t.Lexical) : t'.Lexical := by
  induction hps with
  | nil => exact h
  | cons declares scalar others ih =>
    refine ih (h.push (fun i hi => ?_) (fun _ hj => nomatch hj) scalar)
    cases hi
    exact ⟨declares.fresh, declares.bound⟩

/-- **Names stay declared before they are used.** -/
theorem Builds.lexical {d d' : Draft} {around : Surroundings} {l : List Statement}
    {used : List Token} (hl : Builds d scope around l used d') :
    scope < d.tree.scopes.size → d.tree.Lexical → d'.tree.Lexical := by
  induction hl with
  | nil => exact fun _ h => h
  | cons first rest ih ih' =>
    intro hscope h
    exact ih' (Nat.lt_of_lt_of_le hscope first.grown.size) (ih hscope h)
  | plain statement =>
    intro _ h
    exact h.push (fun i hi => ⟨(statement.declares hi).fresh, (statement.declares hi).bound⟩)
      (fun j hj => h.inward.declaredBefore (Uses.sees h.bound (statement.uses j hj)))
      statement.typed
  | give inFunction statement =>
    intro _ h
    obtain ⟨e, span, rfl, value, -⟩ := statement
    exact h.push (fun _ hi => nomatch hi)
      (fun j hj => h.inward.declaredBefore (Uses.sees h.bound (value.uses j hj))) trivial
  | block opened body ih =>
    intro hscope h
    cases opened
    exact (ih (by simp) (h.addScope hscope)).push (fun _ hi => nomatch hi) (fun _ hj => nomatch hj)
      trivial
  | loop condition whole opened body ih | branch condition whole opened body ih =>
    intro hscope h
    have hgrown := body.grown.opened opened
    cases opened
    refine (ih (by simp) (h.addScope hscope)).push (fun _ hi => nomatch hi) (fun j hj => ?_) trivial
    exact hgrown.declaredBefore hscope
      (h.inward.declaredBefore (Uses.sees h.bound (condition.value.uses j hj)))
  | branchElse condition whole opened body opened' otherwise ih ih' =>
    intro hscope h
    have hinner := body.grown.opened opened
    have hother := otherwise.grown.opened opened'
    have hmiddle := Nat.lt_of_lt_of_le hscope hinner.size
    cases opened
    cases opened'
    refine (ih' (by simp) ((ih (by simp) (h.addScope hscope)).addScope hmiddle)).push
      (fun _ hi => nomatch hi) (fun j hj => ?_) trivial
    exact hother.declaredBefore hmiddle (hinner.declaredBefore hscope
      (h.inward.declaredBefore (Uses.sees h.bound (condition.value.uses j hj))))
  | function titles whole opened parameters opened' body returns ih =>
    intro hscope h
    obtain ⟨rfl, rfl⟩ := addScope_ok opened
    obtain ⟨rfl, rfl⟩ := addScope_ok opened'
    have harguments := parameters.lexical (h.addScope hscope)
    have hsize := Nat.lt_of_lt_of_le (Nat.lt_succ_self _)
      (Nat.le_trans (Nat.le_of_eq size_addScope.symm) parameters.grown.size)
    exact (ih (by simp) (harguments.addScope hsize)).push (fun _ hi => nomatch hi)
      (fun _ hj => nomatch hj) titles.scalar

theorem lexical_empty : ({} : Tree).Lexical where
  inward id shared hshared := by
    cases id <;> cases hshared
  bound id s _ hs := absurd hs (by rw [Drafted.statement?_empty]; nofun)
  unique id _ s _ _ _ hs := absurd hs (by rw [Drafted.statement?_empty]; nofun)
  used id s hs := absurd hs (by rw [Drafted.statement?_empty]; nofun)
  typed id s hs := absurd hs (by rw [Drafted.statement?_empty]; nofun)

/-- **In every tree that is read names are declared before they are used.** -/
theorem parse_lexical {tokens : List Token} {t : Tree} (h : parse tokens = .ok t) : t.Lexical := by
  obtain ⟨l, used, d, -, hbuilds, rfl⟩ := (parse_outcome tokens).ok h
  exact hbuilds.lexical (by decide) lexical_empty

end Parser

/-! ### Trees that differ in places and calls -/

section Views

variable {v : View} {t t' : Tree} {s s' : Statement}

mutual

theorem Expression.names_view : ∀ e : Expression,
    (e.view v).names = e.names.map fun j => j.withType (v.used j)
  | .name _ | .number _ _ | .new _ _ => rfl
  | .binary _ left right _ => by
    rw [view, names, names, List.map_append, names_view left, names_view right]
  | .element _ index _ => by
    rw [view, names, names, List.map_cons, names_view index]
  | .call _ es _ _ => by
    rw [view, names, names, namesOf_viewAll es]

theorem Expression.namesOf_viewAll : ∀ es : List Expression,
    namesOf (viewAll v es) = (namesOf es).map fun j => j.withType (v.used j)
  | [] => rfl
  | e :: es => by
    rw [viewAll, namesOf, namesOf, List.map_append, names_view e, namesOf_viewAll es]

end

theorem Statement.names_unbound (s : Statement) :
    (s.view .unbound).names = s.names.map fun j => j.withType j.type := by
  cases s with
  | assign target e initial span =>
    cases target <;> cases initial <;>
      simp only [view, Target.view, names, Expression.names_view, List.map_cons,
        List.map_append] <;>
      rfl
  | branch e | loop e | give e | evaluate e =>
    rw [view, names, names, Expression.names_view]
    rfl
  | block | leave | again | function | parameter => rfl

theorem Expression.isValue_unbound {e : Expression} (h : e.IsValue) :
    (e.view .unbound).IsValue := by
  cases e with
  | name | element | new => exact h
  | number | binary | call => trivial

theorem Expression.isValue_of_unbound {e : Expression} (h : (e.view .unbound).IsValue) :
    e.IsValue := by
  cases e with
  | name | element | new => exact h
  | number | binary | call => trivial

theorem Statement.typed_unbound (s : Statement) : (s.view .unbound).Typed ↔ s.Typed := by
  cases s with
  | assign target e initial span =>
    cases target <;> cases initial
    case name.true i =>
      exact or_congr Iff.rfl (and_congr Iff.rfl
        ⟨Expression.isValue_of_unbound, Expression.isValue_unbound⟩)
    all_goals exact Iff.rfl
  | _ => exact Iff.rfl

/-- Names that are alike but for their places. -/
theorem Identifier.eq_of_withType {i j : Identifier} (h : i.withType i.type = j.withType j.type) :
    i = { j with span := i.span } := by
  cases i
  cases j
  cases h
  rfl

/-- A scope declares a name once, under any view. -/
theorem Tree.Lexical.unique_of_view {v : View} (h : t.Lexical) (hview : t.view v = t'.view v)
    {id id' : StatementId} {s s' : Statement} {i i' : Identifier}
    (hs : t'.statement? id = some s) (hs' : t'.statement? id' = some s')
    (hscope : id'.scope = id.scope) (hi : s.declared? = some i) (hi' : s'.declared? = some i')
    (hname : i'.name = i.name) : id' = id := by
  obtain ⟨s₀, hs₀, hlike⟩ := Tree.statement?_of_view hview hs
  obtain ⟨s₁, hs₁, hlike'⟩ := Tree.statement?_of_view hview hs'
  obtain ⟨i₀, hi₀, hsame⟩ := Statement.declared?_of_view hlike hi
  obtain ⟨i₁, hi₁, hsame'⟩ := Statement.declared?_of_view hlike' hi'
  have hname₀ := congrArg Identifier.name hsame
  have hname₁ := congrArg Identifier.name hsame'
  rw [Identifier.withType_name, Identifier.withType_name] at hname₀ hname₁
  exact h.unique id id' s₀ s₁ i₀ i₁ hs₀ hs₁ hscope hi₀ hi₁ (by rw [hname₀, hname₁, hname])

/-- **The invariant does not depend on places and calls.** -/
theorem Tree.Lexical.of_view (h : t.Lexical) (hview : t.view .unbound = t'.view .unbound) :
    t'.Lexical where
  inward id shared hshared := by
    have hscope := congrArg (fun t : Tree => (t.scope id).shared) hview
    simp only [Tree.scope_view, Scope.view] at hscope
    exact h.inward id shared (hscope ▸ hshared)
  bound id s' i' hs' hi' := by
    obtain ⟨s, hs, hlike⟩ := Tree.statement?_of_view hview hs'
    obtain ⟨i, hi, hsame⟩ := Statement.declared?_of_view hlike hi'
    have hbinding := congrArg Identifier.binding hsame
    exact hbinding.symm.trans (h.bound id s i hs hi)
  unique _ _ _ _ _ _ := h.unique_of_view hview
  used id s' hs' j' hj' := by
    obtain ⟨s, hs, hlike⟩ := Tree.statement?_of_view hview hs'
    have hnames := congrArg Statement.names hlike
    rw [Statement.names_unbound, Statement.names_unbound] at hnames
    obtain ⟨j, hj, hsame⟩ := List.mem_map.mp (hnames ▸ List.mem_map_of_mem hj')
    obtain ⟨id₀, s₀, i₀, hs₀, hbefore, hbinding, hi₀, heq⟩ := h.used id s hs j hj
    obtain ⟨s₁, hs₁, hlike₁⟩ := Tree.statement?_of_view hview.symm hs₀
    obtain ⟨i₁, hi₁, hsame₁⟩ := Statement.declared?_of_view hlike₁ hi₀
    have hj : j' = { j with span := j'.span } := Identifier.eq_of_withType hsame.symm
    have hi : i₁ = { i₀ with span := i₁.span } := Identifier.eq_of_withType hsame₁
    refine ⟨id₀, s₁, i₁, hs₁, hbefore, ?_, hi₁, ?_⟩
    · rw [hj]
      exact hbinding
    · rw [hi, hj, heq]
  typed id s' hs' := by
    obtain ⟨s, hs, hlike⟩ := Tree.statement?_of_view hview hs'
    rw [← Statement.typed_unbound, ← hlike, Statement.typed_unbound]
    exact h.typed id s hs

end Views

end RegisterMachine.Structured
