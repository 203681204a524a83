import RegisterMachine.Proofs.Structured.Ledger

/-! # Actions fit where they are carried out

A part of a tree is emitted inside some scopes, and it must fit there: the scalars that it names are
declared in these scopes, and the scopes that it opens are none of them. So all its actions fit,
too: whatever is reserved belongs to a declaration in one of the scopes, and no array is declared
twice.

* `Task.Fits`: what is around a part.
* `Action.Declares`: the elements of arrays, by what declares them.
* `Action.Fits`: what is around an action.
* `Plan.fits`: the actions for a part. -/

namespace RegisterMachine.Structured

/-! ### What is around a part -/

/-- **The names are those of scalars in these scopes**, and all that is around the functions is
among the scopes. -/
structure Covered (t : Tree) (active : List ScopeId) (names : List Identifier)
    (callees : List StatementId) : Prop where
  names : ∀ j ∈ names, ∃ x ∈ active, j.binding = some x ∧ t.HasSlot ⟨j.name, x, none⟩
  callees : ∀ f ∈ callees, ∀ y, t.Within f.scope y → y ∈ active

/-- **All that is around the part** is among these scopes. -/
def Task.Fits (t : Tree) (active : List ScopeId) : Task → Prop
  | expression e => Covered t active e.scalars e.callees
  | statement id s => s ∈ (t.scope id).statements.toList ∧ ∀ y, t.Within id y → y ∈ active
  | scope id => ∀ y, t.Within id y → y = id ∨ y ∈ active
  | _ => False

/-- **An action declares the elements of an array**, as they are reserved or by a statement. -/
inductive Action.Declares : Action → Slot → Prop
  | array (name : String) (scope : ScopeId) (size k : Nat) :
    Declares (.array name scope size) ⟨name, scope, some k⟩
  | statement {scope : ScopeId} {s : Statement} {i : Identifier} (k : Nat)
    (declared : s.declared? = some i) :
    Declares (.part (.statement scope s)) ⟨i.name, scope, some k⟩

/-- The action declares nothing. -/
def Action.Quiet (action : Action) : Prop := ∀ slot, ¬ action.Declares slot

/-- The actions declare different slots. -/
def Action.Distinct (a b : Action) : Prop := ∀ slot, a.Declares slot → ¬ b.Declares slot

/-- **What an action reserves belongs to a declaration** in these scopes. A scope whose names are
given up was not among them before, and its actions declare arrays of this scope, none of them
twice. -/
inductive Action.Fits (t : Tree) : List ScopeId → Action → Prop
  | part {active : List ScopeId} {task : Task} (apart : Apart t active task)
    (fits : task.Fits t active) : Fits t active (.part task)
  | scalar {active : List ScopeId} {name : String} {scope : ScopeId} (mem : scope ∈ active)
    (slot : t.HasSlot ⟨name, scope, none⟩) : Fits t active (.scalar name scope)
  | array {active : List ScopeId} {name : String} {scope : ScopeId} {size : Nat}
    (mem : scope ∈ active) (slots : ∀ k < size, t.HasSlot ⟨name, scope, some k⟩) :
    Fits t active (.array name scope size)
  | temporary {active : List ScopeId} : Fits t active .temporary
  | free {active : List ScopeId} : Fits t active .free
  | inside {active : List ScopeId} {scope : ScopeId} {actions : List Action}
    (fresh : scope ∉ active)
    (own : ∀ action ∈ actions, ∀ slot, action.Declares slot → slot.scope = scope)
    (once : actions.Pairwise Action.Distinct)
    (fits : ∀ action ∈ actions, Fits t (scope :: active) action) :
    Fits t active (.inside scope actions)

section Covered

variable {t : Tree} {active : List ScopeId} {names : List Identifier}
  {callees : List StatementId} {task : Task} {e : Expression} {s : Statement} {x y z : ScopeId}

theorem Covered.mono {active' : List ScopeId} (h : Covered t active names callees)
    (hactive : ∀ x ∈ active, x ∈ active') : Covered t active' names callees := by
  refine ⟨fun j hj => ?_, fun f hf y hy => hactive y (h.callees f hf y hy)⟩
  obtain ⟨x, hx, hslot⟩ := h.names j hj
  exact ⟨x, hactive x hx, hslot⟩

theorem Covered.scalar (h : Covered t active names callees) {i : Identifier} (hi : i ∈ names)
    (other : ScopeId) : Action.Fits t active (.scalar i.name (i.binding.getD other)) := by
  obtain ⟨x, hx, hbinding, hslot⟩ := h.names i hi
  rw [hbinding]
  exact .scalar hx hslot

theorem Covered.sub {names' : List Identifier} {callees' : List StatementId}
    (h : Covered t active names callees) (hnames : ∀ j ∈ names', j ∈ names)
    (hcallees : ∀ f ∈ callees', f ∈ callees) : Covered t active names' callees' :=
  ⟨fun j hj => h.names j (hnames j hj), fun f hf => h.callees f (hcallees f hf)⟩

/-- **An expression inside a part**, with names and calls that are among those of the part. -/
theorem Covered.expression (h : Covered t active names task.callees) (apart : Apart t active task)
    (hnames : ∀ j ∈ e.scalars, j ∈ names) (hcallees : ∀ f ∈ e.callees, f ∈ task.callees) :
    Action.Fits t active (.part (.expression e)) :=
  .part (apart.mono (.of_subset (fun _ h => nomatch h) hcallees)) (h.sub hnames hcallees)

theorem Covered.operand (h : Covered t active e.scalars callees) {actions : List Action}
    (hactions : e.operand? = some actions) : ∀ action ∈ actions, action.Fits t active := by
  intro action haction
  cases e with
  | number =>
    cases hactions
    cases haction
  | name i =>
    cases hactions
    rw [List.mem_singleton.mp haction]
    exact h.scalar (List.mem_singleton_self i) rootScope
  | _ => cases hactions

theorem Tree.Within.of_shared (h : t.Within x z) (hshared : (t.scope x).shared = [y]) :
    z = x ∨ t.Within y z := by
  rcases h.cases with rfl | ⟨y', hy', h⟩
  · exact .inl rfl
  · rw [hshared, List.mem_singleton] at hy'
    exact .inr (hy' ▸ h)

/-- What is around a statement covers it. -/
theorem Task.Fits.covered (arranged : t.Arranged) (housed : t.Housed)
    (h : (Task.statement x s).Fits t active) : Covered t active s.scalars s.callees := by
  obtain ⟨hs, hactive⟩ := h
  obtain ⟨index, hplace⟩ := exists_place hs
  refine ⟨fun j hj => ?_, fun f hf y hy => ?_⟩
  · obtain ⟨y, hbinding, hwithin, hslot⟩ := housed.scalars _ s hplace j hj
    exact ⟨y, hactive y hwithin, hbinding, hslot⟩
  · have hwithin := (arranged.callees _ s hplace f hf).2
    exact hactive y (Relation.ReflTransGen.trans hwithin hy)

/-- **A scope that a statement runs** fits where the statement does. -/
theorem Task.Fits.body (h : (Task.statement x s).Fits t active) (arranged : t.Arranged)
    (apart : Apart t active (.statement x s)) (hy : y ∈ s.bodies) :
    Action.Fits t active (.part (.scope y)) := by
  obtain ⟨hs, hactive⟩ := h
  obtain ⟨index, hplace⟩ := exists_place hs
  have hshared := (arranged.nested _ s hplace _ (Statement.nested_of_bodies hy)).1
  refine .part (apart.mono (.of_subset (fun z hz => ?_) fun _ h => nomatch h)) fun z hz => ?_
  · exact List.mem_singleton.mp hz ▸ hy
  · exact (hz.of_shared hshared).imp_right (hactive z)

end Covered

/-! ### Who declares arrays -/

section Declares

variable {t : Tree} {active : List ScopeId} {task : Task} {scope : ScopeId}
  {actions : List Action} {slot : Slot}

namespace Action

@[simp] theorem quiet_expression (e : Expression) : (part (.expression e)).Quiet :=
  fun _ h => nomatch h

@[simp] theorem quiet_scope (x : ScopeId) : (part (.scope x)).Quiet := fun _ h => nomatch h

@[simp] theorem quiet_scalar (name : String) (scope : ScopeId) : (scalar name scope).Quiet :=
  fun _ h => nomatch h

@[simp] theorem quiet_temporary : temporary.Quiet := fun _ h => nomatch h

@[simp] theorem quiet_free : free.Quiet := fun _ h => nomatch h

@[simp] theorem quiet_inside (scope : ScopeId) (actions : List Action) :
    (inside scope actions).Quiet := fun _ h => nomatch h

end Action

theorem Action.Declares.of_statement {s : Statement}
    (h : (Action.part (.statement scope s)).Declares slot) :
    ∃ i k, s.declared? = some i ∧ slot = ⟨i.name, scope, some k⟩ := by
  cases h with
  | statement k declared => exact ⟨_, k, declared, rfl⟩

/-- A scope is fit for actions that declare nothing. -/
theorem Action.Fits.quiet (fresh : scope ∉ active)
    (h : ∀ action ∈ actions, action.Fits t (scope :: active) ∧ action.Quiet) :
    Action.Fits t active (.inside scope actions) := by
  refine .inside fresh (fun action haction slot hd => ((h action haction).2 slot hd).elim) ?_
    fun action haction => (h action haction).1
  exact List.pairwise_of_forall_mem_list fun _ _ b hb slot _ => (h b hb).2 slot

/-- **The statements of a scope declare arrays of this scope**, none of them twice. -/
theorem Action.own_statements {l : List Statement} {action : Action}
    (haction : action ∈ Action.statements scope l) (h : action.Declares slot) :
    slot.scope = scope := by
  obtain ⟨s, -, rfl⟩ := List.mem_map.mp haction
  obtain ⟨i, k, -, rfl⟩ := h.of_statement
  rfl

theorem Action.once_statements (housed : t.Housed) (x : ScopeId) :
    (Action.statements x (t.scope x).statements.toList).Pairwise Action.Distinct := by
  refine (List.Pairwise.filter _ ?_).map _ fun _ _ h => h
  refine List.pairwise_iff_getElem.mpr fun j k hj hk hjk slot h h' => ?_
  have hplace : ∀ {n} (hn : n < (t.scope x).statements.toList.length),
      t.statement? ⟨x, n⟩ = some (t.scope x).statements.toList[n] := fun hn => by
    rw [Tree.statement?_eq, ← Array.getElem?_toList, List.getElem?_eq_getElem hn]
  obtain ⟨i, _, hi, rfl⟩ := h.of_statement
  obtain ⟨i', _, hi', hslot⟩ := h'.of_statement
  have hname : i'.name = i.name := (congrArg Slot.name hslot).symm
  have hsame := housed.distinct _ _ _ _ _ _ (hplace hj) (hplace hk) rfl hi hi' hname
  cases hsame
  exact Nat.lt_irrefl _ hjk

end Declares

/-! ### Calls -/

section Calls

variable {t : Tree} {active : List ScopeId} {e : Expression} {es : List Expression}
  {f : StatementId} {parameters body : ScopeId}

theorem Expression.mem_calleesOf {g : StatementId} :
    g ∈ calleesOf es ↔ ∃ e ∈ es, g ∈ e.callees := by
  induction es with
  | nil => simp [calleesOf]
  | cons e es ih => simp [calleesOf, ih]

/-- An expression without calls leaves all scopes alone. -/
theorem Apart.of_plain (active : List ScopeId) (h : e.hasCall = false) :
    Apart t active (.expression e) := by
  have hcallees : (Task.expression e).callees = [] := Expression.callees_of_plain e h
  have hnone : ∀ x, ¬ Visits t (.expression e) x := by
    rintro x ⟨b, hb | ⟨id, hid, -⟩, -⟩
    · cases hb
    · rw [hcallees] at hid
      cases hid
  refine ⟨fun x hx => ?_, fun x hx => absurd hx (hnone x), fun x hx => absurd hx (hnone x)⟩
  rcases hx with hx | ⟨id, body, hid | ⟨y, hy, -⟩, -⟩
  · exact absurd hx (hnone x)
  · rw [hcallees] at hid
    cases hid
  · exact absurd hy (hnone y)

/-- The parameters of a function have slots. -/
theorem Tree.hasSlot_parameter (housed : t.Housed) (signed : t.Signed)
    (hf : t.Function f parameters body) {name : String}
    (hname : name ∈ t.declaredNames parameters) : t.HasSlot ⟨name, parameters, none⟩ := by
  obtain ⟨i, hi, rfl⟩ := List.mem_map.mp hname
  obtain ⟨s, hs, hdeclared⟩ := List.mem_filterMap.mp hi
  obtain ⟨i', rfl⟩ := signed f parameters body hf s hs
  cases hdeclared
  obtain ⟨index, hplace⟩ := exists_place hs
  exact ⟨_, _, i, hplace, rfl, .scalar (housed.parameters _ i hplace)⟩

/-- **The body of a function fits** inside its parameters, where a call of it does. -/
theorem Action.fits_body (arranged : t.Arranged) (separate : t.Separate)
    (hf : t.Function f parameters body) (apart : Apart t active (.expression e))
    (hcallee : f ∈ e.callees) (haround : ∀ y, t.Within f.scope y → y ∈ active) :
    Action.Fits t (parameters :: active) (.part (.scope body)) := by
  refine .part (apart.body separate hcallee hf) fun y hy => ?_
  obtain ⟨i, returns, place, hplace⟩ := hf
  have hinner := (arranged.nested f _ hplace (body, parameters) (by simp [Statement.nested])).1
  have houter := (arranged.nested f _ hplace (parameters, f.scope) (by simp [Statement.nested])).1
  refine (hy.of_shared hinner).imp_right fun hy => ?_
  rcases hy.of_shared houter with rfl | hy
  · exact List.mem_cons_self
  · exact List.mem_cons_of_mem _ (haround y hy)

/-- **A call fits** where its arguments and its function do. -/
theorem Action.fits_call (arranged : t.Arranged) (housed : t.Housed) (separate : t.Separate)
    {i : Identifier} {span : Span} (hf : t.Function f parameters body)
    (apart : Apart t active (.expression (.call i es (some f) span)))
    (h : Covered t active (Expression.call i es (some f) span).scalars
      (Expression.call i es (some f) span).callees) :
    ∀ action ∈ Action.call parameters (t.declaredNames parameters) es [.part (.scope body)],
      action.Fits t active := by
  have hcallee : f ∈ (Expression.call i es (some f) span).callees :=
    List.mem_append_right _ (List.mem_singleton_self f)
  have hfresh : parameters ∉ active := apart.away _ (.inr ⟨f, body, .inl hcallee, hf⟩)
  have hnames : ∀ e ∈ es, ∀ j ∈ e.scalars, j ∈ (Expression.call i es (some f) span).scalars :=
    fun e he j hj => Expression.mem_scalarsOf.mpr ⟨e, he, hj⟩
  have hcallees : ∀ e ∈ es, ∀ g ∈ e.callees, g ∈ (Expression.call i es (some f) span).callees :=
    fun e he g hg => List.mem_append_left _ (Expression.mem_calleesOf.mpr ⟨e, he, hg⟩)
  have hparameter : ∀ p ∈ (t.declaredNames parameters).zip es,
      Action.Fits t (parameters :: active) (.scalar p.1 parameters) := fun p hp =>
    .scalar List.mem_cons_self
      (t.hasSlot_parameter housed arranged.signed hf (List.of_mem_zip hp).1)
  have hbody := fits_body arranged separate hf apart hcallee (h.callees f hcallee)
  unfold Action.call
  split
  · -- the arguments are computed before the parameters are held
    simp only [staging, List.forall_mem_append, List.forall_mem_flatMap, List.forall_mem_cons,
      List.not_mem_nil, false_implies, implies_true, and_true]
    refine ⟨fun e he => ⟨h.expression apart (hnames e he) (hcallees e he), .temporary⟩,
      .quiet hfresh ?_⟩
    simp only [List.forall_mem_append, List.forall_mem_map, List.forall_mem_singleton]
    refine ⟨⟨fun p hp => ⟨hparameter p hp, quiet_scalar p.1 parameters⟩, fun action haction => ?_⟩,
      hbody, quiet_scope body⟩
    rw [List.eq_of_mem_replicate haction]
    exact ⟨.free, quiet_free⟩
  · -- arguments without calls leave the parameters alone
    rename_i hplain
    refine List.forall_mem_singleton.mpr (.quiet hfresh ?_)
    simp only [passing, List.forall_mem_append, List.forall_mem_flatMap, List.forall_mem_cons,
      List.not_mem_nil, false_implies, implies_true, and_true]
    refine ⟨fun p hp => ?_, hbody, quiet_scope body⟩
    have he := (List.of_mem_zip hp).2
    have hcall : p.2.hasCall = false := by
      by_contra hcall
      exact hplain (List.any_eq_true.mpr ⟨p.2, he, by simpa using hcall⟩)
    have hargument := (h.sub (hnames p.2 he) (hcallees p.2 he)).mono fun x =>
      List.mem_cons_of_mem parameters
    exact ⟨⟨.part (.of_plain _ hcall) hargument, quiet_expression p.2⟩,
      hparameter p hp, quiet_scalar p.1 parameters⟩

end Calls

/-! ### The actions for a part -/

section Plans

variable {t : Tree} {active : List ScopeId} {task : Task} {e : Expression} {s : Statement}
  {x : ScopeId} {actions : List Action}

theorem Plan.fits_expression (arranged : t.Arranged) (housed : t.Housed) (separate : t.Separate)
    (plan : Plan t (.expression e) actions) (apart : Apart t active (.expression e))
    (covered : Covered t active e.scalars e.callees) :
    ∀ action ∈ actions, action.Fits t active := by
  cases plan with
  | number => exact List.forall_mem_nil _
  | name i =>
    exact List.forall_mem_singleton.mpr (covered.scalar (List.mem_singleton_self i) rootScope)
  | element i index span =>
    simp only [List.forall_mem_cons]
    exact ⟨covered.expression apart (fun _ h => h) fun _ h => h, .temporary, .free,
      List.forall_mem_nil _⟩
  | @simple left right first second op span rightOperand leftOperand =>
    have hleft : Covered t active left.scalars [] :=
      covered.sub (fun _ => List.mem_append_left _) fun _ h => nomatch h
    have hright : Covered t active right.scalars [] :=
      covered.sub (fun _ => List.mem_append_right _) fun _ h => nomatch h
    exact List.forall_mem_append.mpr ⟨hright.operand rightOperand, hleft.operand leftOperand⟩
  | @spilled right second op left span rightOperand =>
    have hright : Covered t active right.scalars [] :=
      covered.sub (fun _ => List.mem_append_right _) fun _ h => nomatch h
    refine List.forall_mem_append.mpr ⟨hright.operand rightOperand, ?_⟩
    simp only [List.forall_mem_cons]
    exact ⟨covered.expression apart (fun _ => List.mem_append_left _)
        fun _ => List.mem_append_left _,
      .temporary, .free, List.forall_mem_nil _⟩
  | binary op left right span =>
    simp only [List.forall_mem_cons]
    exact ⟨covered.expression apart (fun _ => List.mem_append_left _)
        fun _ => List.mem_append_left _,
      .temporary,
      covered.expression apart (fun _ => List.mem_append_right _) fun _ => List.mem_append_right _,
      .temporary, .free, .free, List.forall_mem_nil _⟩
  | call i es span function =>
    exact Action.fits_call arranged housed separate function apart covered

theorem Plan.fits_statement (arranged : t.Arranged) (housed : t.Housed)
    (plan : Plan t (.statement x s) actions) (apart : Apart t active (.statement x s))
    (h : (Task.statement x s).Fits t active) : ∀ action ∈ actions, action.Fits t active := by
  have covered := h.covered arranged housed
  cases plan with
  | leave | again => exact List.forall_mem_nil _
  | array _ i type place span =>
    obtain ⟨hs, hactive⟩ := h
    obtain ⟨index, hplace⟩ := exists_place hs
    obtain ⟨element, htype⟩ := housed.arrays _ i type place span hplace
    refine List.forall_mem_singleton.mpr (.array (hactive x (.refl t x)) fun k hk => ?_)
    exact ⟨_, _, i, hplace, rfl, .element htype hk⟩
  | assign _ i initial span value =>
    rw [Statement.scalars_assign value] at covered
    simp only [List.forall_mem_cons]
    exact ⟨covered.expression apart (fun _ => List.mem_cons_of_mem _) fun _ h => h,
      covered.scalar List.mem_cons_self x, List.forall_mem_nil _⟩
  | assignElement =>
    simp only [List.forall_mem_cons]
    exact ⟨covered.expression apart (fun _ => List.mem_append_left _)
        fun _ => List.mem_append_left _,
      .temporary,
      covered.expression apart (fun _ => List.mem_append_right _) fun _ => List.mem_append_right _,
      .free, List.forall_mem_nil _⟩
  | branch =>
    simp only [List.forall_mem_cons, List.forall_mem_map]
    exact ⟨covered.expression apart (fun _ h => h) fun _ h => h,
      h.body arranged apart List.mem_cons_self,
      fun other hother => h.body arranged apart (List.mem_cons_of_mem _ hother)⟩
  | loop _ condition body =>
    simp only [List.forall_mem_cons]
    exact ⟨covered.expression apart (fun _ h => h) fun _ h => h,
      h.body arranged apart (List.mem_singleton_self body), List.forall_mem_nil _⟩
  | block _ body =>
    exact List.forall_mem_singleton.mpr (h.body arranged apart (List.mem_singleton_self body))
  | give | evaluate =>
    exact List.forall_mem_singleton.mpr (covered.expression apart (fun _ h => h) fun _ h => h)

/-- **All actions for a part fit** where the part does. -/
theorem Plan.fits (arranged : t.Arranged) (housed : t.Housed) (separate : t.Separate)
    (plan : Plan t task actions) (apart : Apart t active task) (h : task.Fits t active) :
    ∀ action ∈ actions, action.Fits t active := by
  cases task with
  | expression e => exact plan.fits_expression arranged housed separate apart h
  | statement x s => exact plan.fits_statement arranged housed apart h
  | scope x =>
    cases plan
    have hself : Visits t (.scope x) x := ⟨x, .inl (List.mem_singleton_self x), .refl⟩
    refine List.forall_mem_singleton.mpr (.inside (apart.away x (.inl hself))
      (fun _ haction _ h => Action.own_statements haction h) (Action.once_statements housed x) ?_)
    intro action haction
    obtain ⟨s, hs, rfl⟩ := List.mem_map.mp haction
    have hs := (List.mem_filter.mp hs).1
    refine .part (apart.inside.mono (.of_subset (fun b hb => ?_) fun f hf => ?_)) ⟨hs, ?_⟩
    · exact List.mem_flatMap.mpr ⟨s, hs, hb⟩
    · exact List.mem_flatMap.mpr ⟨s, hs, hf⟩
    · exact fun y hy => List.mem_cons.mpr (h y hy)
  | staged | passing | arguments | statements => exact h.elim

theorem Expression.quiet_operand (h : e.operand? = some actions) :
    ∀ action ∈ actions, action.Quiet := by
  cases e with
  | number | name =>
    cases h
    simp
  | _ => cases h

/-- **Only one action for a part declares something**, and only if the part does. -/
theorem Plan.quiet (plan : Plan t task actions) : (∀ action ∈ actions, action.Quiet) ∨
    ∃ action, actions = [action] ∧
      ∀ slot, action.Declares slot → (Action.part task).Declares slot := by
  cases plan with
  | array _ i type place span =>
    refine .inr ⟨_, rfl, fun slot h => ?_⟩
    cases h
    exact .statement _ rfl
  | simple op span rightOperand leftOperand =>
    exact .inl (List.forall_mem_append.mpr
      ⟨Expression.quiet_operand rightOperand, Expression.quiet_operand leftOperand⟩)
  | spilled op left span rightOperand =>
    refine .inl (List.forall_mem_append.mpr ⟨Expression.quiet_operand rightOperand, ?_⟩)
    simp
  | call i es span function =>
    left
    unfold Action.call
    split
    · simp +contextual [Action.staging, or_imp]
    · simp
  | _ =>
    left
    simp +contextual [or_imp]

end Plans

end RegisterMachine.Structured
