import RegisterMachine.Proofs.Structured.Calling
import RegisterMachine.Proofs.Structured.Guarded
import RegisterMachine.Proofs.Structured.Prepared

/-! # The code of prepared programs is guarded

Where a program reads no name before its declaration, its code reads no register that was not
stored: the registers of the names that are known have been stored, and so have all temporaries.
Other names may have registers as well, that nothing was stored into, but those are not read.

* `Backed`: the registers of what is known, and the temporaries, have been stored.
* `Primed`: what is assumed of a part of a tree, and `Task.declares`, what is known behind it.
* `Secured`: what is proved of every part of a tree, and `Emits.secured`: it holds, by induction on
  derivations. -/

namespace RegisterMachine.Structured

open RegisterMachine.Assembly RegisterMachine.Success

/-! ### Registers that have been stored -/

/-- **The registers of what is known have been stored**, and so have the temporaries. -/
structure Backed (known : List Binding) (R : Registers) (S : Set Nat) : Prop where
  scalar : ∀ b ∈ known, ∃ r ∈ S, R.get? b.name b.scope = some r
  temporary : ∀ r ∈ R.temporaries, r ∈ S

section Backed

variable {known known' : List Binding} {R R' : Registers} {S S' : Set Nat} {r : Nat}

theorem Backed.mono (h : Backed known R S) (hknown : ∀ b ∈ known', b ∈ known) (hS : S ⊆ S') :
    Backed known' R S' := by
  refine ⟨fun b hb => ?_, fun r hr => hS (h.temporary r hr)⟩
  obtain ⟨r, hr, hget⟩ := h.scalar b (hknown b hb)
  exact ⟨r, hS hr, hget⟩

theorem Backed.append (h : Backed known R S) (h' : Backed known' R S) :
    Backed (known ++ known') R S :=
  ⟨fun b hb => (List.mem_append.mp hb).elim (h.scalar b) (h'.scalar b), h.temporary⟩

/-- A step that touches nothing that is known. -/
theorem Backed.leads {touched : Slot → Prop} {added : List Nat} (h : Backed known R S)
    (hleads : Leads touched added R R')
    (hnot : ∀ b ∈ known, ¬ touched ⟨b.name, b.scope, none⟩) (hadded : ∀ r ∈ added, r ∈ S) :
    Backed known R' S := by
  refine ⟨fun b hb => ?_, fun r hr => ?_⟩
  · obtain ⟨r, hr, hget⟩ := h.scalar b hb
    exact ⟨r, hr, hleads.keeps _ r (hnot b hb) hget⟩
  · rw [hleads.temporaries] at hr
    rcases List.mem_append.mp hr with hr | hr
    · exact hadded r hr
    · exact h.temporary r hr

/-- A new temporary that is stored. -/
theorem Backed.stage (h : Backed known R S) (temporary : R.temporary = (r, R')) :
    Backed known R' (insert r S) := by
  refine (h.mono (fun _ hb => hb) (Set.subset_insert r S)).leads
    (Registers.leads_temporary (fun _ => False) temporary) (fun _ _ => id) fun x hx => ?_
  exact List.mem_singleton.mp hx ▸ Set.mem_insert r S

/-- A scalar that is stored. -/
theorem Backed.store {name : String} {scope : ScopeId} (h : Backed known R S)
    (register : R.getOrReserve name scope = (r, R')) :
    Backed (⟨name, scope⟩ :: known) R' (insert r S) := by
  have hbacked : Backed known R' (insert r S) :=
    (h.mono (fun _ hb => hb) (Set.subset_insert r S)).leads
      (Registers.leads_getOrReserve (fun _ => False) register) (fun _ _ => id)
      (fun _ hx => nomatch hx)
  refine ⟨fun b hb => ?_, hbacked.temporary⟩
  rcases List.mem_cons.mp hb with rfl | hb
  · exact ⟨r, Set.mem_insert r S, Registers.get?_getOrReserve register⟩
  · exact hbacked.scalar b hb

theorem Backed.free (h : Backed known R S) (r : Nat) : Backed known (R.freeTemporary r) S :=
  ⟨h.scalar, fun x hx => h.temporary x (List.mem_of_mem_erase hx)⟩

theorem Backed.freeAll (h : Backed known R S) (rs : List Nat) :
    Backed known (rs.foldl Registers.freeTemporary R) S := by
  induction rs generalizing R with
  | nil => exact h
  | cons r rs ih => exact ih (h.free r)

/-- **A name that is known has its register**, which has been stored. -/
theorem Backed.of_isKnown (h : Backed known R S) {i : Identifier} (hi : i.isKnown known = true)
    {default : ScopeId} (register : R.getOrReserve i.name (i.binding.getD default) = (r, R')) :
    r ∈ S ∧ R' = R := by
  unfold Identifier.isKnown at hi
  split at hi
  · rename_i scope hscope
    obtain ⟨r', hr', hget⟩ := h.scalar _ (List.contains_iff_mem.mp hi)
    rw [hscope, Option.getD_some] at register
    obtain ⟨hget', rfl⟩ | ⟨hnone, -⟩ := Registers.getOrReserve_cases register
    · obtain rfl := Option.some.inj (hget.symm.trans hget')
      exact ⟨hr', rfl⟩
    · rw [hnone] at hget
      cases hget
  · cases hi

theorem Simple.backed {t : Tree} {enter : List Binding → ScopeId → Bool} {e : Expression}
    {o : Operand} (h : Simple R e o R') (hb : Backed known R S)
    (prepared : e.prepared t enter known = true) :
    (∀ r, o.register? = some r → r ∈ S) ∧ R' = R := by
  cases h with
  | number => exact ⟨(fun _ hr => nomatch hr), rfl⟩
  | name register =>
    obtain ⟨hr, rfl⟩ := hb.of_isKnown prepared register
    exact ⟨fun x hx => Option.some.inj hx ▸ hr, rfl⟩

end Backed

/-! ### What is assumed and what is known behind -/

namespace Task

/-- **The names that a part reads are known**, in the sense of `Tree.Prepared`. -/
def Prepared (t : Tree) (d : Nat) (known : List Binding) : Task → Prop
  | expression e => e.prepared t (scopePrepared t d) known = true
  | staged es _ => Expression.preparedAll t (scopePrepared t d) known es = true
  | passing _ names es | arguments _ names es =>
    names.length = es.length ∧ Expression.preparedAll t (scopePrepared t d) known es = true
  | statement _ s => s.prepared t (scopePrepared t d) known = true
  | statements home l => statementsPrepared t (scopePrepared t d) home known l = true
  | scope id => scopePrepared t d known id = true

/-- The scalars that a part gives values to, for what comes behind it. -/
def declares : Task → List Binding
  | passing parameters names _ | arguments parameters names _ =>
    names.map fun name => ⟨name, parameters⟩
  | statement home s => s.declares home
  | statements home l => l.flatMap (Statement.declares home)
  | _ => []

end Task

/-- **A part that reads only what has been stored**: the names that it reads are known, they belong
to active scopes, and their registers have been stored. -/
structure Primed (t : Tree) (d : Nat) (active : List ScopeId) (known : List Binding) (S : Set Nat)
    (task : Task) (R : Registers) : Prop where
  apart : Apart t active task
  home : ∀ s, task.home? = some s → s ∈ active
  bound : task.Bound
  within : ∀ b ∈ known, b.scope ∈ active
  prepared : task.Prepared t d known
  backed : Backed known R S

/-- **What is proved of every part of a tree.** -/
def Secured (t : Tree) (d : Nat) (a : Surroundings) (task : Task) (R : Registers) (n : Nat)
    (code : Code) (R' : Registers) (n' : Nat) : Prop :=
  ∀ (active : List ScopeId) (known : List Binding) (S : Set Nat), Primed t d active known S task R →
    ∃ T, Guardable a.marks n n' S code T ∧ Backed (task.declares ++ known) R' T

section Primed

variable {t : Tree} {d n n' : Nat} {a : Surroundings} {active : List ScopeId}
  {known : List Binding} {S S₁ : Set Nat} {task task' : Task} {R R₁ R' : Registers} {code : Code}

theorem Primed.part (h : Primed t d active known S task R) (hpart : Part task' task)
    (bound : task'.Bound) (prepared : task'.Prepared t d known) (backed : Backed known R₁ S₁) :
    Primed t d active known S₁ task' R₁ where
  apart := h.apart.part hpart
  home s hs := by
    rcases hpart.home with hnone | heq
    · rw [hnone] at hs
      cases hs
    · exact h.home s (heq ▸ hs)
  bound := bound
  within := h.within
  prepared := prepared
  backed := backed

/-- **A part that leaves the active scopes alone** leaves the registers of what is known. -/
theorem Primed.behind (h : Primed t d active known S task R) (home : task.home? = none)
    (hadded : task.added = []) (hemits : Emits t d a task R n code R' n') : Backed known R' S := by
  refine h.backed.leads hemits.leads (fun b hb hchanges => ?_) fun r hr => ?_
  · rcases hchanges with htouches | hhome
    · exact h.apart.away b.scope htouches (h.within b hb)
    · rw [home] at hhome
      cases hhome
  · rw [hadded] at hr
    cases hr

end Primed

/-! ### Expressions -/

section Expressions

variable {t : Tree} {d : Nat} {a : Surroundings} {R R₁ R₂ R₃ R₄ R' : Registers}
  {n n₁ n₂ n' r : Nat} {code first second : Code} {i : Identifier} {op : Operator}
  {left right index : Expression}

theorem secured_number (value : UInt32) (span : Span) :
    Secured t d a (.expression (.number value span)) R n [Code.load (.immediate value)] R n :=
  fun _ _ S primed => ⟨S, .number (.nil _ _ _), primed.backed⟩

theorem secured_name (register : R.getOrReserve i.name (i.binding.getD rootScope) = (r, R')) :
    Secured t d a (.expression (.name i)) R n [Code.load (.register r)] R' n := by
  intro active known S primed
  obtain ⟨hr, rfl⟩ := primed.backed.of_isKnown primed.prepared register
  exact ⟨S, .load (fun x hx => Option.some.inj hx ▸ hr) (.nil _ _ _), primed.backed⟩

theorem secured_simple {l : Operand} {r : Operand} (span : Span) (second : Simple R right r R₁)
    (first : Simple R₁ left l R₂) (operation : Operation.code op l r n = (code, n')) :
    Secured t d a (.expression (.binary op left right span)) R n (Code.load l :: code) R₂ n' := by
  intro active known S primed
  obtain ⟨hleft, hright⟩ := Bool.and_eq_true_iff.mp primed.prepared
  obtain ⟨hr, rfl⟩ := second.backed primed.backed hright
  obtain ⟨hl, rfl⟩ := first.backed primed.backed hleft
  exact ⟨S, .load hl (.operation hl hr operation), primed.backed⟩

/-- A temporary that was stored is read. -/
theorem register?_mem {T : Set Nat} :
    ∀ x, (Operand.register r).register? = some x → x ∈ insert r T :=
  fun _ hx => Option.some.inj hx ▸ Set.mem_insert r T

theorem secured_spilled {r : Operand} {spill : Nat} (span : Span) (second : Simple R right r R₁)
    (temporary : R₂.temporary = (spill, R₃))
    (operation : Operation.code op (.register spill) r n₁ = (code, n'))
    (ih : Secured t d a (.expression left) R₁ n first R₂ n₁) :
    Secured t d a (.expression (.binary op left right span)) R n
      (first ++ Code.store spill :: code) (R₃.freeTemporary spill) n' := by
  intro active known S primed
  obtain ⟨hleft, hright⟩ := Bool.and_eq_true_iff.mp primed.prepared
  obtain ⟨hr, rfl⟩ := second.backed primed.backed hright
  have primedLeft := primed.part (.left op left right span) trivial hleft primed.backed
  obtain ⟨T, hfirst, hbacked⟩ := ih active known S primedLeft
  refine ⟨_, hfirst.append (.store (.operation register?_mem (fun x hx => ?_) operation)),
    (hbacked.stage temporary).free spill⟩
  exact Set.mem_insert_of_mem spill (hfirst.keeps (hr x hx))

theorem secured_binary {l : Nat} (span : Span) (leftTemporary : R₁.temporary = (l, R₂))
    (rightTemporary : R₃.temporary = (r, R₄))
    (operation : Operation.code op (.register l) (.register r) n₂ = (code, n'))
    (ihl : Secured t d a (.expression left) R n first R₁ n₁)
    (ihr : Secured t d a (.expression right) R₂ n₁ second R₃ n₂) :
    Secured t d a (.expression (.binary op left right span)) R n
      (first ++ Code.store l :: second ++ Code.store r :: Code.load (.register l) :: code)
      ((R₄.freeTemporary r).freeTemporary l) n' := by
  intro active known S primed
  obtain ⟨hleft, hright⟩ := Bool.and_eq_true_iff.mp primed.prepared
  have primedLeft := primed.part (.left op left right span) trivial hleft primed.backed
  obtain ⟨T₁, hfirst, hbacked₁⟩ := ihl active known S primedLeft
  have primedRight := primed.part (.right op left right span) trivial hright
    (hbacked₁.stage leftTemporary)
  obtain ⟨T₂, hsecond, hbacked₂⟩ := ihr active known _ primedRight
  have hl : ∀ x, (Operand.register l).register? = some x → x ∈ insert r T₂ :=
    fun x hx => Set.mem_insert_of_mem r (hsecond.keeps (register?_mem x hx))
  refine ⟨_, (hfirst.append hsecond.store).append (.store (.load hl ?_)),
    ((hbacked₂.stage rightTemporary).free r).free l⟩
  exact .operation hl register?_mem operation

theorem secured_element {base : Nat} (span : Span) (temporary : R₁.temporary = (r, R₂))
    (ih : Secured t d a (.expression index) R n code R₁ n₁) :
    Secured t d a (.expression (.element i index span)) R n
      (code ++ [.operate .add (.immediate (.ofNat base)), Code.store r, Code.load (.pointer r)])
      (R₂.freeTemporary r) n₁ := by
  intro active known S primed
  have primedIndex := primed.part (.index i index span) trivial primed.prepared primed.backed
  obtain ⟨T, hcode, hbacked⟩ := ih active known S primedIndex
  refine ⟨_, hcode.append (.compute Opcode.noConfusion (fun _ hr => nomatch hr) (.store ?_)),
    (hbacked.stage temporary).free r⟩
  exact .load register?_mem (.nil _ _ _)

end Expressions

/-! ### Calls -/

section Calls

variable {t : Tree} {d : Nat} {a : Surroundings} {R R₁ R₂ R' : Registers} {n n₁ n₂ n' r : Nat}
  {code others : Code} {scope : ScopeId} {name : String} {names : List String} {e : Expression}
  {es : List Expression} {temporaries : List Nat}

theorem secured_stagedNil : Secured t d a (.staged [] []) R n [] R n :=
  fun _ _ S primed => ⟨S, .nil _ _ _, primed.backed⟩

theorem secured_stagedCons (temporary : R₁.temporary = (r, R₂))
    (ih : Secured t d a (.expression e) R n code R₁ n₁)
    (ihr : Secured t d a (.staged es temporaries) R₂ n₁ others R' n') :
    Secured t d a (.staged (e :: es) (r :: temporaries)) R n (code ++ Code.store r :: others) R'
      n' := by
  intro active known S primed
  obtain ⟨hhead, htail⟩ := Bool.and_eq_true_iff.mp primed.prepared
  have primedHead := primed.part (.stagedHead e es (r :: temporaries)) trivial hhead primed.backed
  obtain ⟨T₁, hcode, hbacked₁⟩ := ih active known S primedHead
  have primedTail := primed.part (.stagedTail e es (r :: temporaries) temporaries) trivial htail
    (hbacked₁.stage temporary)
  obtain ⟨T₂, hothers, hbacked₂⟩ := ihr active known _ primedTail
  exact ⟨T₂, hcode.append hothers.store, hbacked₂⟩

theorem secured_passingNil (none : names = [] ∨ es = []) :
    Secured t d a (.passing scope names es) R n [] R n := by
  intro active known S primed
  have hnames : names = [] := by
    rcases none with rfl | rfl
    · rfl
    · exact List.eq_nil_of_length_eq_zero primed.prepared.1
  subst hnames
  exact ⟨S, .nil _ _ _, primed.backed⟩

theorem secured_passingCons (plain : e.hasCall = false)
    (register : R₁.getOrReserve name scope = (r, R₂))
    (rest : Emits t d a (.passing scope names es) R₂ n₁ others R' n')
    (ih : Secured t d a (.expression e) R n code R₁ n₁)
    (ihr : Secured t d a (.passing scope names es) R₂ n₁ others R' n') :
    Secured t d a (.passing scope (name :: names) (e :: es)) R n
      (code ++ Code.store r :: others) R' n' := by
  intro active known S primed
  obtain ⟨hlength, hprepared⟩ := primed.prepared
  obtain ⟨hhead, htail⟩ := Bool.and_eq_true_iff.mp hprepared
  have primedHead := primed.part (.passingHead scope (name :: names) e es plain) trivial hhead
    primed.backed
  obtain ⟨T₁, hcode, hbacked₁⟩ := ih active known S primedHead
  have hstored : Backed (⟨name, scope⟩ :: known) R₂ (insert r T₁) := hbacked₁.store register
  have primedTail := primed.part (.passingTail scope (name :: names) names e es) trivial
    ⟨Nat.succ.inj hlength, htail⟩ (hstored.mono (fun b hb => List.mem_cons_of_mem _ hb) subset_rfl)
  obtain ⟨T₂, hothers, hbacked₂⟩ := ihr active known _ primedTail
  -- passing the other arguments leaves the first parameter
  have hfirst : Backed [⟨name, scope⟩] R' T₂ :=
    ((hstored.mono (fun b hb => by simp_all) subset_rfl).leads rest.leads
      (fun _ _ => not_changes_of_nothing rfl rfl rfl _) fun _ hx => nomatch hx).mono
      (fun _ hb => hb) hothers.keeps
  exact ⟨T₂, hcode.append hothers.store, hfirst.append hbacked₂⟩

theorem secured_direct (ih : Secured t d a (.passing scope names es) R n code R' n') :
    Secured t d a (.arguments scope names es) R n code R' n' :=
  fun active known S primed => ih active known S
    (primed.part (.passing scope names es) trivial primed.prepared primed.backed)

/-- Staged values are moved to the parameters. -/
theorem Moves.guardable {pairs : List (String × Nat)} {known : List Binding} {S : Set Nat}
    (h : Moves scope pairs R code R') (outer : List Mark) (n : Nat) (hbacked : Backed known R S)
    (hstaged : ∀ p ∈ pairs, p.2 ∈ S) :
    ∃ T, Guardable outer n n S code T ∧
      Backed (pairs.map (fun p => ⟨p.1, scope⟩) ++ known) R' T := by
  induction h generalizing known S with
  | nil R => exact ⟨S, .nil _ _ _, hbacked⟩
  | @cons name staged r rest R R₁ R' code register others ih =>
    have hread : staged ∈ S := hstaged _ List.mem_cons_self
    obtain ⟨T, hcode, hbacked'⟩ := ih (hbacked.store register) fun p hp =>
      Set.mem_insert_of_mem r (hstaged p (List.mem_cons_of_mem _ hp))
    refine ⟨T, .load (fun x hx => Option.some.inj hx ▸ hread) hcode.store,
      hbacked'.mono (fun b hb => ?_) subset_rfl⟩
    simp only [List.map_cons, List.cons_append, List.mem_cons, List.mem_append] at hb ⊢
    tauto

theorem Emits.length_staged : ∀ {es : List Expression} {temporaries : List Nat} {R : Registers}
    {n : Nat} {code : Code}, Emits t d a (.staged es temporaries) R n code R' n' →
    temporaries.length = es.length
  | _, _, _, _, _, .stagedNil => rfl
  | _, _, _, _, _, .stagedCons _ _ rest => congrArg Nat.succ rest.length_staged

theorem secured_staging {moves : Code}
    (staged : Emits t d a (.staged es temporaries) R n code R₁ n₁)
    (moved : Moves scope (names.zip temporaries) R₁ moves R₂)
    (ih : Secured t d a (.staged es temporaries) R n code R₁ n₁) :
    Secured t d a (.arguments scope names es) R n (code ++ moves)
      (temporaries.reverse.foldl Registers.freeTemporary R₂) n₁ := by
  intro active known S primed
  obtain ⟨hlength, hprepared⟩ := primed.prepared
  have primedStaged := primed.part (.staged scope names es temporaries) trivial hprepared
    primed.backed
  obtain ⟨T₁, hcode, hbacked₁⟩ := ih active known S primedStaged
  have htemporaries : ∀ p ∈ names.zip temporaries, p.2 ∈ T₁ := by
    rintro ⟨name, r⟩ hp
    refine hbacked₁.temporary r ?_
    rw [staged.leads.temporaries]
    exact List.mem_append_left _ (List.mem_reverse.mpr (List.of_mem_zip hp).2)
  obtain ⟨T₂, hmoves, hbacked₂⟩ := moved.guardable a.marks n₁ hbacked₁ htemporaries
  refine ⟨T₂, hcode.append hmoves, hbacked₂.freeAll _ |>.mono (fun b hb => ?_) subset_rfl⟩
  have hnames : (names.zip temporaries).map (fun p => (⟨p.1, scope⟩ : Binding)) =
      names.map fun name => ⟨name, scope⟩ := by
    have hzip : (names.zip temporaries).map Prod.fst = names :=
      List.map_fst_zip (Nat.le_of_eq (hlength.trans staged.length_staged.symm))
    conv_rhs => rw [← hzip, List.map_map]
    rfl
  rw [hnames]
  exact hb

/-- **A call**: the body of the function knows the parameters. -/
theorem secured_call {passing inner : Code} {parameters body : ScopeId} {i f : Identifier}
    {callee : StatementId} {returns : Option ValueType} {place : Span} (separate : t.Separate)
    (span : Span)
    (function : t.statement? callee = some (.function f parameters body returns place))
    (inlined : Emits t d ⟨none, some ⟨.returned, n₁⟩, callee :: a.inlining⟩ (.scope body)
      R₁ (n₁ + 1) inner R₂ n₂)
    (iha : Secured t d a (.arguments parameters (t.declaredNames parameters) es) R n passing R₁ n₁)
    (ihb : Secured t d ⟨none, some ⟨.returned, n₁⟩, callee :: a.inlining⟩ (.scope body)
      R₁ (n₁ + 1) inner R₂ n₂) :
    Secured t d a (.expression (.call i es (some callee) span)) R n
      (passing ++ .comment ("inline " ++ i.name) :: inner ++ [.label ⟨.returned, n₁⟩])
      ((t.declaredNames parameters).foldl (fun R name => R.release name parameters) R₂) n₂ := by
  intro active known S primed
  have hfunction : t.Function callee parameters body := ⟨f, returns, place, function⟩
  have hcallee : callee ∈ (Expression.call i es (some callee) span).callees :=
    List.mem_append_right _ (List.mem_singleton_self callee)
  have haway : parameters ∉ active :=
    primed.apart.away parameters (.inr ⟨callee, body, .inl hcallee, hfunction⟩)
  obtain ⟨harguments, hbody⟩ := Bool.and_eq_true_iff.mp primed.prepared
  rw [callable?_eq function] at hbody
  split at hbody
  case h_2 => cases hbody
  rename_i parameters' body' hcallable
  rw [Option.ite_none_right_eq_some] at hcallable
  obtain ⟨hlength, heq⟩ := hcallable
  cases heq
  have primedArguments := primed.part
    (.arguments parameters (t.declaredNames parameters) i es (some callee) span) trivial
    ⟨hlength, harguments⟩ primed.backed
  obtain ⟨T₁, hpassing, hbacked₁⟩ := iha active known S primedArguments
  have primedBody : Primed t d (parameters :: active) (t.parametersOf parameters ++ known) T₁
      (.scope body) R₁ :=
    { apart := primed.apart.body separate hcallee hfunction
      home := by simp [Task.home?]
      bound := trivial
      within := fun b hb => by
        rcases List.mem_append.mp hb with hb | hb
        · obtain ⟨name, -, rfl⟩ := List.mem_map.mp hb
          exact List.mem_cons_self
        · exact List.mem_cons_of_mem parameters (primed.within b hb)
      prepared := hbody
      backed := hbacked₁ }
  obtain ⟨T₂, hinner, -⟩ := ihb _ _ _ primedBody
  refine ⟨T₁, ?_, ?_⟩
  · rw [List.append_assoc]
    refine hpassing.append (.close rfl (.comment _ (hinner.mono fun m hm => ?_)))
    exact List.mem_cons.mpr (.inl (List.mem_singleton.mp hm))
  · have hknown : Backed known R₂ T₁ :=
      (primedBody.behind rfl rfl inlined).mono (fun b hb => List.mem_append_right _ hb) subset_rfl
    refine hknown.leads (leads_releaseParameters _ parameters R₂) (fun b hb hscope => ?_)
      fun _ hx => absurd hx List.not_mem_nil
    exact haway (hscope ▸ primed.within b hb)

end Calls

/-! ### Statements -/

section Statements

variable {t : Tree} {d : Nat} {a : Surroundings} {R R₁ R₂ R₃ R' : Registers}
  {n n₁ n₂ n' r : Nat} {code test first second : Code} {scope body : ScopeId} {i : Identifier}
  {e index : Expression}

theorem secured_array {base : Nat} {type : ValueType} (place span : Span)
    (registers : R.reserveArray? i.name scope type.width = some (base, R')) :
    Secured t d a (.statement scope (.assign (.name i) (.new type place) true span)) R n
      (Code.load (.immediate 0) ::
        (List.range type.width).map fun offset => Code.store (base + offset)) R' n := by
  intro active known S primed
  -- whatever is stored, all that was known is still there
  have hstores : ∀ (l : List Nat) (S : Set Nat),
      ∃ T, S ⊆ T ∧ Guardable a.marks n n S (l.map fun offset => Code.store (base + offset)) T := by
    intro l
    induction l with
    | nil => exact fun S => ⟨S, subset_rfl, .nil _ _ _⟩
    | cons offset l ih =>
      intro S
      obtain ⟨T, hT, hcode⟩ := ih (insert (base + offset) S)
      exact ⟨T, (Set.subset_insert _ S).trans hT, hcode.store⟩
  obtain ⟨T, hT, hcode⟩ := hstores (List.range type.width) S
  refine ⟨T, hcode.number, (primed.backed.leads (Registers.leads_reserveArray registers)
    (fun b hb htouched => htouched.2.2 rfl) fun _ hx => nomatch hx).mono (fun b hb => hb) hT⟩

theorem secured_assign (initial : Bool) (span : Span)
    (value : Emits t d a (.expression e) R n code R₁ n₁)
    (register : R₁.getOrReserve i.name (i.binding.getD scope) = (r, R'))
    (ih : Secured t d a (.expression e) R n code R₁ n₁) :
    Secured t d a (.statement scope (.assign (.name i) e initial span)) R n
      (code ++ [Code.store r]) R' n₁ := by
  intro active known S primed
  have primedValue := primed.part (.value scope i e initial span) trivial primed.prepared
    primed.backed
  obtain ⟨T, hcode, hbacked⟩ := ih active known S primedValue
  refine ⟨_, hcode.append (.store (.nil _ _ _)), (hbacked.store register).mono (fun b hb => ?_)
    subset_rfl⟩
  cases initial with
  | false =>
    have hdeclares : (Task.statement scope (.assign (.name i) e false span)).declares = [] := by
      cases value <;> rfl
    rw [hdeclares] at hb
    exact List.mem_cons_of_mem _ hb
  | true =>
    have hbinding : i.binding = some scope := primed.bound i e span rfl
    have hdeclares : (Task.statement scope (.assign (.name i) e true span)).declares =
        [⟨i.name, scope⟩] := by
      cases value <;> rfl
    rw [hbinding, Option.getD_some]
    rw [hdeclares] at hb
    exact hb

theorem secured_assignElement {base : Nat} {other : Code} (initial : Bool) (place span : Span)
    (temporary : R₁.temporary = (r, R₂))
    (iha : Secured t d a (.expression index) R n code R₁ n₁)
    (ihv : Secured t d a (.expression e) R₂ n₁ other R₃ n₂) :
    Secured t d a (.statement scope (.assign (.element i index place) e initial span)) R n
      (code ++ [.operate .add (.immediate (.ofNat base)), Code.store r] ++ other ++
        [.operate .store (.pointer r)])
      (R₃.freeTemporary r) n₂ := by
  intro active known S primed
  obtain ⟨hindex, hvalue⟩ := Bool.and_eq_true_iff.mp primed.prepared
  have primedIndex := primed.part (.place scope i index e initial place span) trivial hindex
    primed.backed
  obtain ⟨T₁, hcode, hbacked₁⟩ := iha active known S primedIndex
  have primedValue := primed.part (.content scope i index e initial place span) trivial hvalue
    (hbacked₁.stage temporary)
  obtain ⟨T₂, hother, hbacked₂⟩ := ihv active known _ primedValue
  have haddress : Guardable a.marks n n₁ S
      (code ++ [.operate .add (.immediate (.ofNat base)), Code.store r]) (insert r T₁) :=
    hcode.append (.compute Opcode.noConfusion (fun _ hr => nomatch hr) (.store (.nil _ _ _)))
  have hr : r ∈ T₂ := hother.keeps (Set.mem_insert r T₁)
  exact ⟨T₂, (haddress.append hother).append (.storePointer hr (.nil _ _ _)), hbacked₂.free r⟩

theorem secured_branch (span : Span)
    (inner : Emits t d a (.scope body) R₁ (n₁ + 1) first R' n')
    (iht : Secured t d a (.expression e) R n test R₁ n₁)
    (ihi : Secured t d a (.scope body) R₁ (n₁ + 1) first R' n') :
    Secured t d a (.statement scope (.branch e body none span)) R n
      (test ++ .jump .jzero ⟨.ifEnd, n₁⟩ :: first ++ [.label ⟨.ifEnd, n₁⟩]) R' n' := by
  intro active known S primed
  obtain ⟨hboth, -⟩ := Bool.and_eq_true_iff.mp primed.prepared
  obtain ⟨htest, hbody⟩ := Bool.and_eq_true_iff.mp hboth
  have primedTest := primed.part (.test scope e body none span) trivial htest primed.backed
  obtain ⟨T₁, htested, hbacked₁⟩ := iht active known S primedTest
  have primedBody := primed.part (.body scope e body none span) trivial hbody hbacked₁
  obtain ⟨T₂, hinner, -⟩ := ihi active known T₁ primedBody
  exact ⟨T₁, .branch rfl htested hinner, primedBody.behind rfl rfl inner⟩

theorem secured_branchElse {other : ScopeId} (span : Span)
    (inner : Emits t d a (.scope body) R₁ (n₁ + 2) first R₂ n₂)
    (otherwise : Emits t d a (.scope other) R₂ n₂ second R' n')
    (iht : Secured t d a (.expression e) R n test R₁ n₁)
    (ihi : Secured t d a (.scope body) R₁ (n₁ + 2) first R₂ n₂)
    (iho : Secured t d a (.scope other) R₂ n₂ second R' n') :
    Secured t d a (.statement scope (.branch e body (some other) span)) R n
      (test ++ .jump .jzero ⟨.ifElse, n₁ + 1⟩ :: first ++ .jump .goto ⟨.ifEnd, n₁⟩ ::
        .label ⟨.ifElse, n₁ + 1⟩ :: second ++ [.label ⟨.ifEnd, n₁⟩]) R' n' := by
  intro active known S primed
  obtain ⟨hboth, hother⟩ := Bool.and_eq_true_iff.mp primed.prepared
  obtain ⟨htest, hbody⟩ := Bool.and_eq_true_iff.mp hboth
  have primedTest := primed.part (.test scope e body (some other) span) trivial htest primed.backed
  obtain ⟨T₁, htested, hbacked₁⟩ := iht active known S primedTest
  have primedBody := primed.part (.body scope e body (some other) span) trivial hbody hbacked₁
  obtain ⟨T₂, hfirst, -⟩ := ihi active known T₁ primedBody
  have primedOther := primed.part (.otherwise scope e body other span) trivial hother
    (primedBody.behind rfl rfl inner)
  obtain ⟨T₃, hsecond, -⟩ := iho active known T₁ primedOther
  exact ⟨T₁, .branchElse rfl rfl htested hfirst hsecond, primedOther.behind rfl rfl otherwise⟩

theorem secured_loop (span : Span) (tested : Emits t d a (.expression e) R (n + 2) test R₁ n₁)
    (inner : Emits t d { a with loop := some (⟨.whileStart, n⟩, ⟨.whileEnd, n + 1⟩) }
      (.scope body) R₁ n₁ code R' n')
    (iht : Secured t d a (.expression e) R (n + 2) test R₁ n₁)
    (ihi : Secured t d { a with loop := some (⟨.whileStart, n⟩, ⟨.whileEnd, n + 1⟩) }
      (.scope body) R₁ n₁ code R' n') :
    Secured t d a (.statement scope (.loop e body span)) R n
      (.label ⟨.whileStart, n⟩ :: test ++ .jump .jzero ⟨.whileEnd, n + 1⟩ :: code ++
        [.jump .goto ⟨.whileStart, n⟩, .label ⟨.whileEnd, n + 1⟩]) R' n' := by
  intro active known S primed
  obtain ⟨htest, hbody⟩ := Bool.and_eq_true_iff.mp primed.prepared
  have primedTest := primed.part (.loopTest scope e body span) trivial htest primed.backed
  obtain ⟨T₁, htested, hbacked₁⟩ := iht active known S primedTest
  have primedBody := primed.part (.loopBody scope e body span) trivial hbody hbacked₁
  obtain ⟨T₂, hinner, -⟩ := ihi active known T₁ primedBody
  -- each turn starts with what had been stored before the loop
  have primedAgain := primed.part (.loopBody scope e body span) trivial hbody
    (primedTest.behind rfl rfl tested)
  refine ⟨S, .loop rfl rfl htested (hinner.mono fun m hm => ?_), primedAgain.behind rfl rfl inner⟩
  simp only [Surroundings.marks, Option.toList_some, List.flatMap_cons, List.flatMap_nil,
    List.append_nil, List.mem_append, List.mem_cons] at hm ⊢
  tauto

/-- Jumps to labels of the surroundings. -/
theorem guardable_jumps {outer marks : List Mark} (S : Set Nat) (n : Nat)
    (h : ∀ m ∈ marks, m ∈ outer) : Guardable outer n n S (marks.map (.jump .goto)) S := by
  induction marks with
  | nil => exact .nil _ _ _
  | cons m marks ih =>
    exact .jump (h m List.mem_cons_self) (ih fun m' hm' => h m' (List.mem_cons_of_mem m hm'))

/-- A statement that jumps to one of the labels of the loop around it. -/
theorem secured_jump {s : Statement} (hs : s.declares scope = []) {side : Mark × Mark → Mark}
    (hside : ∀ l, side l ∈ [l.1, l.2]) :
    Secured t d a (.statement scope s) R n
      (a.loop.toList.map fun l => .jump .goto (side l)) R n := by
  intro active known S primed
  have hcode : Guardable a.marks n n S ((a.loop.toList.map side).map (.jump .goto)) S := by
    refine guardable_jumps S n fun m hm => ?_
    obtain ⟨l, hloop, rfl⟩ := List.mem_map.mp hm
    exact List.mem_append_right _ (List.mem_flatMap.mpr ⟨l, hloop, hside l⟩)
  rw [List.map_map] at hcode
  refine ⟨S, hcode, ?_⟩
  rw [Task.declares, hs]
  exact primed.backed

theorem secured_leave (span : Span) :
    Secured t d a (.statement scope (.leave span)) R n
      (a.loop.toList.map fun (_, done) => .jump .goto done) R n :=
  secured_jump rfl fun l => List.mem_cons_of_mem l.1 List.mem_cons_self

theorem secured_again (span : Span) :
    Secured t d a (.statement scope (.again span)) R n
      (a.loop.toList.map fun (start, _) => .jump .goto start) R n :=
  secured_jump rfl fun _ => List.mem_cons_self

theorem secured_give (span : Span) (ih : Secured t d a (.expression e) R n code R' n') :
    Secured t d a (.statement scope (.give e span)) R n
      (code ++ a.exit.toList.map (.jump .goto)) R' n' := by
  intro active known S primed
  obtain ⟨T, hcode, hbacked⟩ := ih active known S
    (primed.part (.give scope e span) trivial primed.prepared primed.backed)
  exact ⟨T, hcode.append (guardable_jumps T n' fun m hm => List.mem_append_left _ hm), hbacked⟩

theorem secured_evaluate (ih : Secured t d a (.expression e) R n code R' n') :
    Secured t d a (.statement scope (.evaluate e)) R n code R' n' :=
  fun active known S primed => ih active known S
    (primed.part (.evaluate scope e) trivial primed.prepared primed.backed)

theorem secured_block (ih : Secured t d a (.scope body) R n code R' n') :
    Secured t d a (.statement scope (.block body)) R n code R' n' :=
  fun active known S primed => ih active known S
    (primed.part (.block scope body) trivial primed.prepared primed.backed)

/-! ### Rows of statements and scopes -/

section Rows

variable {l : List Statement} {s : Statement}

theorem secured_nil : Secured t d a (.statements scope []) R n [] R n :=
  fun _ _ S primed => ⟨S, .nil _ _ _, primed.backed⟩

/-- Behind a statement, what it declares is known. -/
theorem Primed.tail {active : List ScopeId} {known : List Binding} {S T : Set Nat}
    (primed : Primed t d active known S (.statements scope (s :: l)) R)
    (hbacked : Backed (s.declares scope ++ known) R₁ T) :
    Primed t d active (s.declares scope ++ known) T (.statements scope l) R₁ where
  apart := primed.apart.part (.tail scope s l)
  home := primed.home
  bound i e span hmem := primed.bound i e span (List.mem_cons_of_mem s hmem)
  within b hb := by
    rcases List.mem_append.mp hb with hb | hb
    · have hscope : b.scope = scope := by
        unfold Statement.declares at hb
        split at hb
        · cases hb
        · rw [List.mem_singleton.mp hb]
        · cases hb
      exact hscope ▸ primed.home scope rfl
    · exact primed.within b hb
  prepared := (Bool.and_eq_true_iff.mp primed.prepared).2
  backed := hbacked

theorem secured_silent (silent : s.isSilent = true)
    (ih : Secured t d a (.statements scope l) R n code R' n') :
    Secured t d a (.statements scope (s :: l)) R n code R' n' := by
  intro active known S primed
  have hdeclares : s.declares scope = [] := by
    cases s with
    | function | parameter => rfl
    | _ => cases silent
  have hbacked : Backed (s.declares scope ++ known) R S := hdeclares ▸ primed.backed
  have primedTail := primed.tail hbacked
  rw [hdeclares] at primedTail
  obtain ⟨T, hcode, hbacked⟩ := ih active known S primedTail
  refine ⟨T, hcode, ?_⟩
  rw [Task.declares, List.flatMap_cons, hdeclares]
  exact hbacked

theorem secured_cons (ihf : Secured t d a (.statement scope s) R n first R₁ n₁)
    (iho : Secured t d a (.statements scope l) R₁ n₁ second R' n') :
    Secured t d a (.statements scope (s :: l)) R n (.comment s.summary :: first ++ second) R'
      n' := by
  intro active known S primed
  have primedHead := primed.part (.head scope s l)
    (fun i e span hs => primed.bound i e span (hs ▸ List.mem_cons_self))
    (Bool.and_eq_true_iff.mp primed.prepared).1 primed.backed
  obtain ⟨T₁, hfirst, hbacked₁⟩ := ihf active known S primedHead
  obtain ⟨T₂, hsecond, hbacked₂⟩ := iho active _ T₁ (primed.tail hbacked₁)
  refine ⟨T₂, (hfirst.append hsecond).comment _, hbacked₂.mono (fun b hb => ?_) subset_rfl⟩
  rw [Task.declares, List.flatMap_cons] at hb
  simp only [Task.declares, List.mem_append] at hb ⊢
  tauto

theorem secured_scope (hbound : (Task.inside t scope).Bound)
    (ih : Secured t d a (.inside t scope) R n code R₁ n') :
    Secured t (d + 1) a (.scope scope) R n code (t.release scope R₁) n' := by
  intro active known S primed
  have haway : scope ∉ active :=
    primed.apart.away scope (.inl ⟨scope, .inl (List.mem_singleton_self scope), .refl⟩)
  have primedInside : Primed t d (scope :: active) known S (.inside t scope) R :=
    { apart := primed.apart.inside
      home := fun s hs => Option.some.inj hs ▸ List.mem_cons_self
      bound := hbound
      within := fun b hb => List.mem_cons_of_mem scope (primed.within b hb)
      prepared := primed.prepared
      backed := primed.backed }
  obtain ⟨T, hcode, hbacked⟩ := ih _ known S primedInside
  have hknown : Backed known R₁ T :=
    hbacked.mono (fun b hb => List.mem_append_right _ hb) subset_rfl
  refine ⟨T, hcode, hknown.leads (leads_releaseScope t scope R₁) (fun b hb hscope => ?_)
    fun _ hx => nomatch hx⟩
  exact haway (hscope ▸ primed.within b hb)

end Rows

end Statements

/-- **The code of every part can be guarded.** -/
theorem Emits.secured {t : Tree} {d : Nat} {a : Surroundings} {task : Task} {R R' : Registers}
    {n n' : Nat} {code : Code} (separate : t.Separate)
    (hbound : ∀ scope, (Task.inside t scope).Bound) (h : Emits t d a task R n code R' n') :
    Secured t d a task R n code R' n' := by
  induction h with
  | number value span => exact secured_number value span
  | name register => exact secured_name register
  | element span array address temporary ih => exact secured_element span temporary ih
  | simple span second first operation => exact secured_simple span second first operation
  | spilled span second leftCode temporary operation ih =>
    exact secured_spilled span second temporary operation ih
  | binary span leftCode leftTemporary rightCode rightTemporary operation ihl ihr =>
    exact secured_binary span leftTemporary rightTemporary operation ihl ihr
  | call span fresh function arguments inlined iha ihb =>
    exact secured_call separate span function inlined iha ihb
  | direct plain passing ih => exact secured_direct ih
  | staging calls staged moved ih => exact secured_staging staged moved ih
  | stagedNil => exact secured_stagedNil
  | stagedCons argument temporary rest iha ihr => exact secured_stagedCons temporary iha ihr
  | passingNil none => exact secured_passingNil none
  | passingCons plain argument register rest iha ihr =>
    exact secured_passingCons plain register rest iha ihr
  | array place span registers => exact secured_array place span registers
  | assign initial span value register ih => exact secured_assign initial span value register ih
  | assignElement initial place span array address temporary value iha ihv =>
    exact secured_assignElement initial place span temporary iha ihv
  | branch span tested inner iht ihi => exact secured_branch span inner iht ihi
  | branchElse span tested inner otherwise iht ihi iho =>
    exact secured_branchElse span inner otherwise iht ihi iho
  | loop span tested inner iht ihi => exact secured_loop span tested inner iht ihi
  | block inner ih => exact secured_block ih
  | leave span => exact secured_leave span
  | again span => exact secured_again span
  | give span value ih => exact secured_give span ih
  | evaluate value ih => exact secured_evaluate ih
  | nil => exact secured_nil
  | silent silent others ih => exact secured_silent silent ih
  | cons first others ihf iho => exact secured_cons ihf iho
  | @scope _ _ _ _ _ _ _ scope inner ih => exact secured_scope (hbound scope) ih

end RegisterMachine.Structured
