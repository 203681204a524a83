import RegisterMachine.Proofs.Structured.Analyzed
import RegisterMachine.Proofs.Structured.Capacity
import RegisterMachine.Proofs.Structured.Fitting

/-! # The discipline of the registers

Whatever the emitter does to the registers, no two holders share one. Temporaries are back when a
part has been emitted, bindings keep their registers until their scope is left, and a scope that was
left holds nothing. So the variables of the root, which is left last, never share a register.

* `Moment.Disciplined`: what holds of each entry of the log.
* `Registers.Ordered`: the invariant, with a step for each action.
* `Logs.carried`: actions that fit keep to the discipline.
* `Registers.Rooted`: the registers of the root.
* `emit_disciplined`: the log of every emission. -/

namespace RegisterMachine.Structured

open RegisterMachine.Success

/-! ### The discipline -/

/-- **No binding has two registers**, and no register has two holders. -/
structure Registers.Exclusive (R : Registers) : Prop where
  bindings : (R.reserved.map (·.1)).Nodup
  held : R.held.Nodup

/-- **Registers are handed out that nobody holds**, and bindings keep theirs. -/
structure Registers.Grows (R R' : Registers) : Prop where
  keeps : R.reserved ⊆ R'.reserved
  reserved : ∀ entry ∈ R'.reserved, entry ∈ R.reserved ∨ entry.2 ∉ R.held
  temporaries : ∀ r ∈ R'.temporaries, r ∈ R.temporaries ∨ r ∉ R.held

/-- **The scopes that are over** when a part has been emitted: a scope itself, and the parameters of
a function that was called. -/
inductive Task.Closes (t : Tree) : Task → ScopeId → Prop
  | scope (id : ScopeId) : Closes t (.scope id) id
  | call {callee : StatementId} {parameters body : ScopeId} (i : Identifier)
    (es : List Expression) (span : Span) (function : t.Function callee parameters body) :
    Closes t (.expression (.call i es (some callee) span)) parameters

/-- **What holds of each entry of the log.** -/
inductive Moment.Disciplined (t : Tree) : Moment → Prop
  | changed {R R' : Registers} (before : R.Exclusive) (after : R'.Exclusive) (grows : R.Grows R') :
    Disciplined t (.changed R R')
  /-- Bindings of other scopes keep their registers, and those that are left belong to scopes that
  are still being emitted. -/
  | left {active : List ScopeId} {scope : ScopeId} {R R' : Registers} (before : R.Exclusive)
    (after : R'.Exclusive) (temporaries : R'.temporaries = R.temporaries)
    (keeps : ∀ entry ∈ R.reserved, entry.1.scope ≠ scope → entry ∈ R'.reserved)
    (inside : ∀ entry ∈ R'.reserved, entry.1.scope ≠ scope ∧ entry.1.scope ∈ active) :
    Disciplined t (.left active scope R R')
  /-- The temporaries are those from before, all bindings keep their registers, and none belongs to
  a scope that is over. -/
  | emitted {active : List ScopeId} {task : Task} {R R' : Registers} (before : R.Exclusive)
    (after : R'.Exclusive) (temporaries : R'.temporaries = R.temporaries)
    (keeps : R.reserved ⊆ R'.reserved) (inside : ∀ entry ∈ R'.reserved, entry.1.scope ∈ active)
    (closed : ∀ x, task.Closes t x → ∀ entry ∈ R'.reserved, entry.1.scope ≠ x) :
    Disciplined t (.emitted active task R R')

/-! ### The invariant -/

/-- **Each binding that holds a register is declared** in one of these scopes. -/
structure Registers.Ordered (t : Tree) (active : List ScopeId) (R : Registers) : Prop where
  sound : R.Sound
  bindings : (R.reserved.map (·.1)).Nodup
  inside : ∀ entry ∈ R.reserved, entry.1.scope ∈ active
  declared : ∀ entry ∈ R.reserved, t.HasSlot entry.1

namespace Registers

section Ordered

variable {t : Tree} {active : List ScopeId} {R R' : Registers} {name : String} {scope : ScopeId}
  {size base r : Nat}

theorem ordered_empty (t : Tree) (active : List ScopeId) : ({} : Registers).Ordered t active :=
  ⟨sound_empty, List.nodup_nil, fun _ h => (nomatch h), fun _ h => nomatch h⟩

theorem Ordered.exclusive (h : R.Ordered t active) : R.Exclusive := ⟨h.bindings, h.sound.nodup⟩

theorem Ordered.mono {active' : List ScopeId} (h : R.Ordered t active)
    (hactive : ∀ x ∈ active, x ∈ active') : R.Ordered t active' :=
  { h with inside := fun entry hentry => hactive _ (h.inside entry hentry) }

/-- A scalar without a register is no binding that holds one. -/
theorem not_mem_of_get? (h : R.get? name scope = none) :
    (⟨name, scope, none⟩ : Slot) ∉ R.reserved.map (·.1) := by
  intro hmem
  obtain ⟨entry, hentry, hslot⟩ := List.mem_map.mp hmem
  have hne := List.lookup_eq_none_iff.mp h entry hentry
  rw [← hslot] at hne
  simp at hne

theorem nodup_scalar (register : R.getOrReserve name scope = (r, R'))
    (h : (R.reserved.map (·.1)).Nodup) : (R'.reserved.map (·.1)).Nodup := by
  obtain ⟨-, rfl⟩ | ⟨hnone, rfl, rfl⟩ := getOrReserve_cases register
  · exact h
  · exact List.nodup_cons.mpr ⟨not_mem_of_get? hnone, h⟩

theorem Ordered.scalar (h : R.Ordered t active) (register : R.getOrReserve name scope = (r, R'))
    (mem : scope ∈ active) (slot : t.HasSlot ⟨name, scope, none⟩) : R'.Ordered t active := by
  have sound := (leads_getOrReserve (fun _ => False) register).sound h.sound
  have bindings := nodup_scalar register h.bindings
  obtain ⟨-, rfl⟩ | ⟨-, rfl, rfl⟩ := getOrReserve_cases register
  · exact h
  · exact ⟨sound, bindings,
      List.forall_mem_cons.mpr ⟨mem, h.inside⟩, List.forall_mem_cons.mpr ⟨slot, h.declared⟩⟩

/-- The elements of an array are different bindings. -/
theorem nodup_elementSlots : ((elementSlots name scope base size).map (·.1)).Nodup := by
  rw [elementSlots, List.map_reverse, List.nodup_reverse, List.map_map]
  exact List.nodup_range.map fun j k hjk => Option.some.inj (congrArg Slot.element hjk)

/-- An array that has no registers yet. -/
theorem nodup_array (registers : R.reserveArray? name scope size = some (base, R'))
    (h : (R.reserved.map (·.1)).Nodup) (free : ∀ k r, (⟨name, scope, some k⟩, r) ∉ R.reserved) :
    (R'.reserved.map (·.1)).Nodup := by
  obtain ⟨-, -, rfl⟩ := reserveArray_some registers
  show ((elementSlots name scope base size ++ R.reserved).map (·.1)).Nodup
  rw [List.map_append, List.nodup_append]
  refine ⟨nodup_elementSlots, h, fun slot hslot slot' hslot' heq => ?_⟩
  obtain ⟨⟨_, x⟩, hentry, rfl⟩ := List.mem_map.mp hslot
  obtain ⟨⟨_, r⟩, hentry', rfl⟩ := List.mem_map.mp hslot'
  obtain ⟨k, -, rfl, -⟩ := mem_elementSlots.mp hentry
  cases heq
  exact free k r hentry'

theorem Ordered.array (h : R.Ordered t active)
    (registers : R.reserveArray? name scope size = some (base, R')) (mem : scope ∈ active)
    (slots : ∀ k < size, t.HasSlot ⟨name, scope, some k⟩)
    (free : ∀ k r, (⟨name, scope, some k⟩, r) ∉ R.reserved) : R'.Ordered t active := by
  have sound := (leads_reserveArray registers).sound h.sound
  have bindings := nodup_array registers h.bindings free
  obtain ⟨-, -, rfl⟩ := reserveArray_some registers
  refine ⟨sound, bindings, List.forall_mem_append.mpr ⟨?_, h.inside⟩,
    List.forall_mem_append.mpr ⟨?_, h.declared⟩⟩
  · rintro ⟨slot, x⟩ hentry
    obtain ⟨k, -, rfl, -⟩ := mem_elementSlots.mp hentry
    exact mem
  · rintro ⟨slot, x⟩ hentry
    obtain ⟨k, hk, rfl, -⟩ := mem_elementSlots.mp hentry
    exact slots k hk

theorem Ordered.temporary (h : R.Ordered t active) (register : R.temporary = (r, R')) :
    R'.Ordered t active := by
  have sound := (leads_temporary (fun _ => False) register).sound h.sound
  cases register
  exact ⟨sound, h.bindings, h.inside, h.declared⟩

theorem Ordered.free (h : R.Ordered t active) (r : Nat) : (R.freeTemporary r).Ordered t active :=
  ⟨h.sound.free r, h.bindings, h.inside, h.declared⟩

/-- Registers are given back, and nothing else happens. -/
theorem release_shrinks (t : Tree) (scope : ScopeId) (R : Registers) :
    (t.release scope R).reserved.Sublist R.reserved ∧
      (t.release scope R).symbols = R.symbols := by
  unfold Tree.release
  generalize (t.scope scope).statements.toList.filterMap Statement.declared? = l
  induction l generalizing R with
  | nil => exact ⟨.refl _, rfl⟩
  | cons i l ih =>
    have hname : (Emit.releaseName scope R i).reserved.Sublist R.reserved ∧
        (Emit.releaseName scope R i).symbols = R.symbols := by
      unfold Emit.releaseName
      split <;> exact ⟨List.filter_sublist, rfl⟩
    obtain ⟨hreserved, hsymbols⟩ := ih (Emit.releaseName scope R i)
    exact ⟨hreserved.trans hname.1, hsymbols.trans hname.2⟩

/-- **Nothing of a scope is held** when its names were given up. -/
theorem Ordered.left (h : R.Ordered t (scope :: active)) :
    (t.release scope R).Ordered t active ∧
      ∀ entry ∈ (t.release scope R).reserved, entry.1.scope ≠ scope := by
  obtain ⟨hsub, -⟩ := release_shrinks t scope R
  have hgone : ∀ entry ∈ (t.release scope R).reserved, entry.1.scope ≠ scope :=
    fun entry hentry hscope =>
      (mem_release.mp hentry).2 ⟨hscope, h.declared entry (hsub.subset hentry)⟩
  refine ⟨⟨(leads_releaseScope t scope R).sound h.sound, h.bindings.sublist (hsub.map _),
    fun entry hentry => ?_, fun entry hentry => h.declared entry (hsub.subset hentry)⟩, hgone⟩
  exact (List.mem_cons.mp (h.inside entry (hsub.subset hentry))).resolve_left (hgone entry hentry)

end Ordered

/-! ### What is handed out -/

section Grows

variable {t : Tree} {R R' : Registers} {name : String} {scope : ScopeId} {size base r : Nat}

theorem grows_scalar (register : R.getOrReserve name scope = (r, R')) : R.Grows R' := by
  obtain ⟨-, rfl⟩ | ⟨-, rfl, rfl⟩ := getOrReserve_cases register
  · exact ⟨fun _ h => h, fun _ => .inl, fun _ => .inl⟩
  · exact ⟨fun _ => List.mem_cons_of_mem _,
      List.forall_mem_cons.mpr ⟨.inr R.nextFree_not_mem, fun _ => .inl⟩, fun _ => .inl⟩

theorem grows_array (registers : R.reserveArray? name scope size = some (base, R')) :
    R.Grows R' := by
  obtain ⟨rfl, -, rfl⟩ := reserveArray_some registers
  refine ⟨fun _ => List.mem_append_right _,
    List.forall_mem_append.mpr ⟨?_, fun _ => .inl⟩, fun _ => .inl⟩
  rintro ⟨slot, x⟩ hentry
  obtain ⟨k, -, -, rfl⟩ := mem_elementSlots.mp hentry
  refine .inr fun hheld => ?_
  have := lt_nextFree hheld
  omega

theorem grows_temporary (register : R.temporary = (r, R')) : R.Grows R' := by
  cases register
  exact ⟨fun _ h => h, fun _ => .inl,
    List.forall_mem_cons.mpr ⟨.inr R.nextFree_not_mem, fun _ => .inl⟩⟩

theorem grows_free (R : Registers) (r : Nat) : R.Grows (R.freeTemporary r) :=
  ⟨fun _ h => h, fun _ => .inl, fun _ h => .inl (List.mem_of_mem_erase h)⟩

end Grows

end Registers

/-! ### The registers of the root -/

/-- **Symbols that share no register.** -/
def Symbol.Disjoint (y z : Symbol) : Prop :=
  y.register + y.width ≤ z.register ∨ z.register + z.width ≤ y.register

/-- **The symbols of the root** hold all their registers, and share none. -/
structure Registers.Rooted (R : Registers) : Prop where
  held : ∀ y ∈ R.symbols, y.scope = rootScope → 0 < y.width ∧
    ∀ k < y.width, ∃ slot : Slot, slot.scope = rootScope ∧ (slot, y.register + k) ∈ R.reserved
  disjoint : (R.symbols.toList.filter (·.scope = rootScope)).Pairwise Symbol.Disjoint

namespace Registers

section Rooted

variable {R R' : Registers} {y : Symbol} {name : String} {scope : ScopeId} {size base r : Nat}

theorem rooted_empty : ({} : Registers).Rooted := ⟨fun _ h => (nomatch h), List.Pairwise.nil⟩

/-- A root whose registers are still held. -/
theorem Rooted.keep (h : R.Rooted) (symbols : R'.symbols = R.symbols)
    (keeps : ∀ entry ∈ R.reserved, entry.1.scope = rootScope → entry ∈ R'.reserved) :
    R'.Rooted := by
  refine ⟨fun y hy hroot => ?_, symbols ▸ h.disjoint⟩
  obtain ⟨hwidth, hheld⟩ := h.held y (symbols ▸ hy) hroot
  refine ⟨hwidth, fun k hk => ?_⟩
  obtain ⟨slot, hslot, hentry⟩ := hheld k hk
  exact ⟨slot, hslot, keeps _ hentry hslot⟩

/-- **A new symbol** stands above all that is held. -/
theorem Rooted.push (h : R.Rooted) (symbols : R'.symbols = R.symbols.push y)
    (keeps : R.reserved ⊆ R'.reserved) (register : y.register = R.nextFree) (width : 0 < y.width)
    (holds : ∀ k < y.width, ∃ slot : Slot, slot.scope = y.scope ∧
      (slot, y.register + k) ∈ R'.reserved) : R'.Rooted := by
  refine ⟨fun z hz hroot => ?_, ?_⟩
  · rw [symbols] at hz
    rcases Array.mem_push.mp hz with hz | rfl
    · obtain ⟨hwidth, hheld⟩ := h.held z hz hroot
      refine ⟨hwidth, fun k hk => ?_⟩
      obtain ⟨slot, hslot, hentry⟩ := hheld k hk
      exact ⟨slot, hslot, keeps hentry⟩
    · exact ⟨width, hroot ▸ holds⟩
  · rw [symbols, Array.toList_push, List.filter_append, List.pairwise_append]
    refine ⟨h.disjoint, List.Pairwise.filter _ (List.pairwise_singleton _ _), fun z hz z' hz' => ?_⟩
    obtain ⟨hz, hroot⟩ := List.mem_filter.mp hz
    obtain rfl := List.mem_singleton.mp (List.mem_filter.mp hz').1
    obtain ⟨hwidth, hheld⟩ := h.held z (Array.mem_toList_iff.mp hz) (of_decide_eq_true hroot)
    obtain ⟨slot, -, hentry⟩ := hheld (z.width - 1) (by omega)
    have hlt := lt_nextFree (List.mem_append_left _ (List.mem_map.mpr ⟨_, hentry, rfl⟩))
    exact .inl (by omega)

theorem Rooted.scalar (h : R.Rooted) (register : R.getOrReserve name scope = (r, R')) :
    R'.Rooted := by
  have grows := grows_scalar register
  obtain ⟨-, rfl⟩ | ⟨-, rfl, rfl⟩ := getOrReserve_cases register
  · exact h
  · refine h.push rfl grows.keeps rfl Nat.one_pos fun k hk => ?_
    obtain rfl : k = 0 := Nat.lt_one_iff.mp hk
    exact ⟨_, rfl, List.mem_cons_self⟩

theorem Rooted.array (h : R.Rooted)
    (registers : R.reserveArray? name scope size = some (base, R')) : R'.Rooted := by
  have grows := grows_array registers
  obtain ⟨hbase, hsize, rfl⟩ := reserveArray_some registers
  refine h.push rfl grows.keeps hbase hsize fun k hk => ⟨⟨name, scope, some k⟩, rfl, ?_⟩
  exact List.mem_append_left _ (mem_elementSlots.mpr ⟨k, hk, rfl, rfl⟩)

end Rooted

end Registers

/-! ### Parts of a tree -/

section Parts

variable {t : Tree} {task : Task} {actions : List Action} {action : Action} {slot : Slot}
  {x : ScopeId}

theorem Plan.added (plan : Plan t task actions) : task.added = [] := by cases plan <;> rfl

theorem Plan.declares (plan : Plan t task actions) (haction : action ∈ actions)
    (h : action.Declares slot) : (Action.part task).Declares slot := by
  rcases plan.quiet with hquiet | ⟨only, rfl, honly⟩
  · exact absurd h (hquiet action haction slot)
  · exact honly slot (List.mem_singleton.mp haction ▸ h)

theorem Task.Closes.touches (h : task.Closes t x) : Touches t task x := by
  cases h with
  | scope => exact .inl ⟨x, .inl (List.mem_singleton_self x), .refl⟩
  | @call callee _ body i es span function =>
    exact .inr ⟨callee, body, .inl (List.mem_append_right _ (List.mem_singleton_self _)), function⟩

/-- Nothing is around the root. -/
theorem Tree.Within.of_root (h : t.Within rootScope x) (arranged : t.Arranged) :
    x = rootScope := by
  rcases h.cases with rfl | ⟨y, hy, -⟩
  · rfl
  · rw [arranged.root.2] at hy
    cases hy

end Parts

/-! ### Actions that are carried out -/

/-- **These actions are next.** They fit, and the arrays that they declare hold no registers yet. -/
structure Orderly (t : Tree) (active : List ScopeId) (R : Registers) (actions : List Action) :
    Prop where
  ordered : R.Ordered t active
  fits : ∀ action ∈ actions, action.Fits t active
  once : actions.Pairwise Action.Distinct
  free : ∀ action ∈ actions, ∀ slot, action.Declares slot → ∀ r, (slot, r) ∉ R.reserved

/-- **What actions come to.** Elements of arrays that are newly held were declared by them. -/
structure Carried (t : Tree) (active : List ScopeId) (actions : List Action) (R : Registers)
    (log : List Moment) (R' : Registers) : Prop where
  ordered : R'.Ordered t active
  keeps : R.reserved ⊆ R'.reserved
  elements : ∀ entry ∈ R'.reserved, entry.1.element ≠ none →
    entry ∈ R.reserved ∨ ∃ action ∈ actions, action.Declares entry.1
  rooted : rootScope ∈ active → R.Rooted → R'.Rooted
  disciplined : ∀ m ∈ log, m.Disciplined t

section Carried

variable {t : Tree} {active : List ScopeId} {action : Action} {actions rest : List Action}
  {R R₁ R' : Registers} {log log' : List Moment} {task : Task} {name : String} {scope : ScopeId}
  {size base r : Nat} {slot : Slot}

theorem Action.Declares.element (h : action.Declares slot) : slot.element ≠ none := by
  cases h <;> exact Option.some_ne_none _

theorem Carried.nil (h : R.Ordered t active) : Carried t active [] R [] R :=
  ⟨h, fun _ h => h, fun _ h _ => .inl h, fun _ h => h, List.forall_mem_nil _⟩

/-- **One action and then the others.** -/
theorem Carried.cons (h : Carried t active [action] R log R₁)
    (h' : Carried t active rest R₁ log' R') :
    Carried t active (action :: rest) R (log ++ log') R' where
  ordered := h'.ordered
  keeps := List.Subset.trans h.keeps h'.keeps
  elements entry hentry helement := by
    rcases h'.elements entry hentry helement with hentry | ⟨a, ha, hdeclares⟩
    · refine (h.elements entry hentry helement).imp_right fun ⟨a, ha, hdeclares⟩ => ?_
      exact ⟨a, List.mem_cons.mpr (.inl (List.mem_singleton.mp ha)), hdeclares⟩
    · exact .inr ⟨a, List.mem_cons_of_mem _ ha, hdeclares⟩
  rooted hroot hR := h'.rooted hroot (h.rooted hroot hR)
  disciplined := List.forall_mem_append.mpr ⟨h.disciplined, h'.disciplined⟩

namespace Orderly

theorem tail (h : Orderly t active R (action :: rest))
    (carried : Carried t active [action] R log R₁) : Orderly t active R₁ rest where
  ordered := carried.ordered
  fits := (List.forall_mem_cons.mp h.fits).2
  once := (List.pairwise_cons.mp h.once).2
  free a ha slot hdeclares r hentry := by
    rcases carried.elements _ hentry hdeclares.element with hentry | ⟨a', ha', hdeclares'⟩
    · exact h.free a (List.mem_cons_of_mem _ ha) slot hdeclares r hentry
    · obtain rfl := List.mem_singleton.mp ha'
      exact (List.pairwise_cons.mp h.once).1 a ha slot hdeclares' hdeclares

/-- Registers that are handed out, or a temporary that is given back. -/
theorem change (h : Orderly t active R (action :: rest)) (ordered : R₁.Ordered t active)
    (grows : R.Grows R₁)
    (elements : ∀ entry ∈ R₁.reserved, entry.1.element ≠ none →
      entry ∈ R.reserved ∨ action.Declares entry.1)
    (rooted : R.Rooted → R₁.Rooted) : Carried t active [action] R [.changed R R₁] R₁ where
  ordered := ordered
  keeps := grows.keeps
  elements entry hentry helement := (elements entry hentry helement).imp_right fun hdeclares =>
    ⟨action, List.mem_singleton_self action, hdeclares⟩
  rooted _ := rooted
  disciplined := List.forall_mem_singleton.mpr
    (.changed h.ordered.exclusive ordered.exclusive grows)

theorem scalar (h : Orderly t active R (.scalar name scope :: rest))
    (register : R.getOrReserve name scope = (r, R₁)) :
    Carried t active [.scalar name scope] R [.changed R R₁] R₁ := by
  cases (List.forall_mem_cons.mp h.fits).1 with
  | scalar mem slot =>
    refine h.change (h.ordered.scalar register mem slot) (Registers.grows_scalar register) ?_
      (·.scalar register)
    intro entry hentry helement
    obtain ⟨-, rfl⟩ | ⟨-, rfl, rfl⟩ := Registers.getOrReserve_cases register
    · exact .inl hentry
    · rcases List.mem_cons.mp hentry with rfl | hentry
      · exact absurd rfl helement
      · exact .inl hentry

theorem array (h : Orderly t active R (.array name scope size :: rest))
    (registers : R.reserveArray? name scope size = some (base, R₁)) :
    Carried t active [.array name scope size] R [.changed R R₁] R₁ := by
  cases (List.forall_mem_cons.mp h.fits).1 with
  | array mem slots =>
    have free := (List.forall_mem_cons.mp h.free).1
    refine h.change (h.ordered.array registers mem slots fun k => free _ (.array name scope size k))
      (Registers.grows_array registers) ?_ (·.array registers)
    intro entry hentry helement
    obtain ⟨-, -, rfl⟩ := Registers.reserveArray_some registers
    rcases List.mem_append.mp hentry with hentry | hentry
    · obtain ⟨k, -, hslot, -⟩ := Registers.mem_elementSlots.mp hentry
      exact .inr (hslot ▸ .array name scope size k)
    · exact .inl hentry

theorem temporary (h : Orderly t active R (.temporary :: rest))
    (register : R.temporary = (r, R₁)) :
    Carried t active [.temporary] R [.changed R R₁] R₁ := by
  refine h.change (h.ordered.temporary register) (Registers.grows_temporary register) ?_ ?_
  · cases register
    exact fun _ hentry _ => .inl hentry
  · cases register
    exact fun hR => hR.keep rfl fun _ hentry _ => hentry

theorem giveBack (h : Orderly t active R (.free :: rest)) (r : Nat) :
    Carried t active [.free] R [.changed R (R.freeTemporary r)] (R.freeTemporary r) :=
  h.change (h.ordered.free r) (Registers.grows_free R r) (fun _ hentry _ => .inl hentry)
    fun hR => hR.keep rfl fun _ hentry _ => hentry

/-- The actions behind which the names of a scope are given up. -/
theorem inside (h : Orderly t active R (.inside scope actions :: rest)) :
    Orderly t (scope :: active) R actions := by
  cases (List.forall_mem_cons.mp h.fits).1 with
  | inside fresh own once fits =>
    refine ⟨h.ordered.mono fun _ => List.mem_cons_of_mem _, fits, once, ?_⟩
    intro action haction slot hdeclares r hentry
    have hscope := h.ordered.inside _ hentry
    exact fresh (own action haction slot hdeclares ▸ hscope)

theorem left (h : Orderly t active R (.inside scope actions :: rest))
    (inner : Carried t (scope :: active) actions R log R₁) :
    Carried t active [.inside scope actions] R
      (log ++ [.left active scope R₁ (t.release scope R₁)]) (t.release scope R₁) := by
  cases (List.forall_mem_cons.mp h.fits).1 with
  | inside fresh own once fits =>
    obtain ⟨ordered, hgone⟩ := inner.ordered.left
    have hstays : ∀ entry ∈ R₁.reserved, entry.1.scope ≠ scope →
        entry ∈ (t.release scope R₁).reserved :=
      fun entry hentry hscope => mem_release.mpr ⟨hentry, fun hof => hscope hof.1⟩
    refine ⟨ordered, fun entry hentry => ?_, fun entry hentry helement => ?_, fun hroot hR => ?_,
      List.forall_mem_append.mpr ⟨inner.disciplined, List.forall_mem_singleton.mpr ?_⟩⟩
    · refine hstays entry (inner.keeps hentry) fun hscope => ?_
      exact fresh (hscope ▸ h.ordered.inside entry hentry)
    · left
      have hscope := hgone entry hentry
      have hentry := (mem_release.mp hentry).1
      refine (inner.elements entry hentry helement).resolve_right ?_
      rintro ⟨action, haction, hdeclares⟩
      exact hscope (own action haction _ hdeclares)
    · refine (inner.rooted (List.mem_cons_of_mem _ hroot) hR).keep
        (Registers.release_shrinks t scope R₁).2 fun entry hentry hscope => ?_
      refine hstays entry hentry fun hscope' => ?_
      exact fresh (hscope' ▸ hscope ▸ hroot)
    · exact .left inner.ordered.exclusive ordered.exclusive
        (leads_releaseScope t scope R₁).temporaries hstays
        fun entry hentry => ⟨hgone entry hentry, ordered.inside entry hentry⟩

theorem plan (h : Orderly t active R (.part task :: rest)) (arranged : t.Arranged)
    (housed : t.Housed) (separate : t.Separate) (plan : Plan t task actions) :
    Orderly t active R actions := by
  cases (List.forall_mem_cons.mp h.fits).1 with
  | part apart fits =>
    refine ⟨h.ordered, plan.fits arranged housed separate apart fits, ?_, ?_⟩
    · rcases plan.quiet with hquiet | ⟨action, rfl, -⟩
      · exact List.pairwise_of_forall_mem_list fun _ _ b hb slot _ => hquiet b hb slot
      · exact List.pairwise_singleton _ _
    · intro action haction slot hdeclares
      exact (List.forall_mem_cons.mp h.free).1 slot (plan.declares haction hdeclares)

theorem part (h : Orderly t active R (.part task :: rest)) (plan : Plan t task actions)
    (inner : Carried t active actions R log R₁) (temporaries : R₁.temporaries = R.temporaries) :
    Carried t active [.part task] R (log ++ [.emitted active task R R₁]) R₁ := by
  cases (List.forall_mem_cons.mp h.fits).1 with
  | part apart fits =>
    refine ⟨inner.ordered, inner.keeps, fun entry hentry helement => ?_, inner.rooted,
      List.forall_mem_append.mpr ⟨inner.disciplined, List.forall_mem_singleton.mpr ?_⟩⟩
    · refine (inner.elements entry hentry helement).imp_right fun ⟨action, haction, hdeclares⟩ => ?_
      exact ⟨_, List.mem_singleton_self _, plan.declares haction hdeclares⟩
    · refine .emitted h.ordered.exclusive inner.ordered.exclusive temporaries inner.keeps
        inner.ordered.inside fun x hx entry hentry hscope => ?_
      exact apart.away x hx.touches (hscope ▸ inner.ordered.inside entry hentry)

end Orderly

end Carried

/-- **Actions that fit keep to the discipline.** -/
theorem Logs.carried {t : Tree} (arranged : t.Arranged) (housed : t.Housed)
    (separate : t.Separate) {active : List ScopeId} {actions : List Action} {R R' : Registers}
    {log : List Moment} (h : Logs t active actions R log R') :
    Orderly t active R actions → Carried t active actions R log R' := by
  induction h with
  | nil => exact fun orderly => .nil orderly.ordered
  | part emits plan inner others ihi iho =>
    intro orderly
    have temporaries := emits.leads.temporaries
    rw [plan.added, List.nil_append] at temporaries
    have first := orderly.part plan (ihi (orderly.plan arranged housed separate plan)) temporaries
    rw [List.append_cons]
    exact first.cons (iho (orderly.tail first))
  | inside inner others ihi iho =>
    intro orderly
    have first := orderly.left (ihi orderly.inside)
    rw [List.append_cons]
    exact first.cons (iho (orderly.tail first))
  | scalar register others ih =>
    intro orderly
    have first := orderly.scalar register
    exact first.cons (ih (orderly.tail first))
  | array registers others ih =>
    intro orderly
    have first := orderly.array registers
    exact first.cons (ih (orderly.tail first))
  | temporary register others ih =>
    intro orderly
    have first := orderly.temporary register
    exact first.cons (ih (orderly.tail first))
  | @free _ _ r _ _ _ latest others ih =>
    intro orderly
    have first := orderly.giveBack r
    exact first.cons (ih (orderly.tail first))

/-! ### The symbols -/

/-- **The symbols lie among the registers that are counted.** -/
def Registers.Counted (R : Registers) : Prop :=
  ∀ y ∈ R.symbols, 1 ≤ y.register ∧ y.register + y.width ≤ R.highest + 1

theorem Registers.Counted.step {R R' : Registers} (h : R.Counted) (hstep : Step R R') :
    R'.Counted := by
  intro y hy
  cases hstep with
  | scalar register =>
    obtain ⟨-, rfl⟩ | ⟨-, rfl, rfl⟩ := getOrReserve_cases register
    · exact h y hy
    · have hpos := R.nextFree_pos
      rcases Array.mem_push.mp hy with hy | rfl
      · have := h y hy
        exact ⟨this.1, by simp only; omega⟩
      · exact ⟨hpos, by simp only; omega⟩
  | array registers =>
    obtain ⟨rfl, hsize, rfl⟩ := reserveArray_some registers
    have hpos := R.nextFree_pos
    rcases Array.mem_push.mp hy with hy | rfl
    · have := h y hy
      exact ⟨this.1, by simp only; omega⟩
    · exact ⟨hpos, by simp only; omega⟩
  | temporary register =>
    cases register
    have := h y hy
    exact ⟨this.1, by simp only; omega⟩
  | back symbols highest =>
    rw [highest]
    exact h y (symbols ▸ hy)

/-! ### Every emission -/

/-- **The registers of the root** keep to the discipline, and its symbols share none. -/
theorem Logs.root {t : Tree} (arranged : t.Arranged) (housed : t.Housed) (separate : t.Separate)
    (apart : Apart t [] (.scope rootScope)) {R : Registers} {log : List Moment}
    (h : Logs t [] [.part (.scope rootScope)] {} log R) :
    (∀ m ∈ log, m.Disciplined t) ∧
      (R.symbols.toList.filter (·.scope = rootScope)).Pairwise Symbol.Disjoint := by
  have orderly : Orderly t [] {} [.part (.scope rootScope)] := by
    refine ⟨Registers.ordered_empty t [], List.forall_mem_singleton.mpr (.part apart ?_),
      List.pairwise_singleton _ _, fun _ _ _ _ _ hentry => nomatch hentry⟩
    exact fun y hy => .inl (hy.of_root arranged)
  refine ⟨(h.carried arranged housed separate orderly).disciplined, ?_⟩
  cases h with
  | part emits plan inner others =>
    have hplan := orderly.plan arranged housed separate plan
    cases others
    cases plan
    cases inner with
    | inside inner others =>
      cases others
      have carried := inner.carried arranged housed separate hplan.inside
      rw [(Registers.release_shrinks t rootScope _).2]
      exact (carried.rooted (List.mem_singleton_self _) Registers.rooted_empty).disjoint

/-- **Every emission keeps to the discipline.** It has a log, of all changes of the registers and of
all parts that were emitted, which ends with the registers of the result; and whatever is in such a
log is disciplined. The symbols lie in the registers that are counted, and those of the root share
none. -/
theorem emit_disciplined {source : String} {t : Tree} {e : Emission}
    (h : analyze source = .ok t) (he : t.emit = .ok e) :
    (∃ log R, Logs t [] [.part (.scope rootScope)] {} log R ∧
      e.symbols = R.symbols.toList ∧ e.registerCount = R.highest) ∧
    (∀ log R, Logs t [] [.part (.scope rootScope)] {} log R → ∀ m ∈ log, m.Disciplined t) ∧
    (∀ y ∈ e.symbols, 1 ≤ y.register ∧ y.register + y.width ≤ e.registerCount + 1) ∧
    (e.symbols.filter (·.scope = rootScope)).Pairwise Symbol.Disjoint := by
  have arranged := analyze_arranged h
  have housed := analyze_housed h
  have separate := (analyze_drafted h).separate
  obtain ⟨code, R, n, hemits, -, hsymbols, hcount⟩ := emit_ok he
  have apart := hemits.apart separate
  obtain ⟨log, hlog⟩ :=
    Does.part hemits (hemits.planned housed arranged.signed) Does.nil
  refine ⟨⟨log, R, hlog, hsymbols, hcount⟩,
    fun log R hlog => (hlog.root arranged housed separate apart).1, fun y hy => ?_, ?_⟩
  · have hcounted : R.Counted := hemits.invariant Registers.Counted.step fun _ h => nomatch h
    rw [hcount]
    exact hcounted y (Array.mem_toList_iff.mp (hsymbols ▸ hy))
  · rw [hsymbols]
    exact (hlog.root arranged housed separate apart).2

/-- A call among the arguments of a call. -/
def callInCall : String := "var x = 1; var y = f(f(x)); fn f(int a) -> int \x7b return a; \x7d"

def callInCallTokens : List Token :=
  [⟨.keyword .var, .none, ⟨1, 1, 3⟩, "var"⟩, ⟨.identifier, .name "x", ⟨1, 5, 1⟩, "x"⟩,
    ⟨.assign, .none, ⟨1, 7, 1⟩, "="⟩, ⟨.number, .number 1, ⟨1, 9, 1⟩, "1"⟩,
    ⟨.semicolon, .none, ⟨1, 10, 1⟩, ";"⟩, ⟨.keyword .var, .none, ⟨1, 12, 3⟩, "var"⟩,
    ⟨.identifier, .name "y", ⟨1, 16, 1⟩, "y"⟩, ⟨.assign, .none, ⟨1, 18, 1⟩, "="⟩,
    ⟨.identifier, .name "f", ⟨1, 20, 1⟩, "f"⟩, ⟨.leftParen, .none, ⟨1, 21, 1⟩, "("⟩,
    ⟨.identifier, .name "f", ⟨1, 22, 1⟩, "f"⟩, ⟨.leftParen, .none, ⟨1, 23, 1⟩, "("⟩,
    ⟨.identifier, .name "x", ⟨1, 24, 1⟩, "x"⟩, ⟨.rightParen, .none, ⟨1, 25, 1⟩, ")"⟩,
    ⟨.rightParen, .none, ⟨1, 26, 1⟩, ")"⟩, ⟨.semicolon, .none, ⟨1, 27, 1⟩, ";"⟩,
    ⟨.keyword .fn, .none, ⟨1, 29, 2⟩, "fn"⟩, ⟨.identifier, .name "f", ⟨1, 32, 1⟩, "f"⟩,
    ⟨.leftParen, .none, ⟨1, 33, 1⟩, "("⟩, ⟨.keyword .int, .none, ⟨1, 34, 3⟩, "int"⟩,
    ⟨.identifier, .name "a", ⟨1, 38, 1⟩, "a"⟩, ⟨.rightParen, .none, ⟨1, 39, 1⟩, ")"⟩,
    ⟨.arrow, .none, ⟨1, 41, 2⟩, "->"⟩, ⟨.keyword .int, .none, ⟨1, 44, 3⟩, "int"⟩,
    ⟨.leftBrace, .none, ⟨1, 48, 1⟩, "\x7b"⟩, ⟨.keyword .return, .none, ⟨1, 50, 6⟩, "return"⟩,
    ⟨.identifier, .name "a", ⟨1, 57, 1⟩, "a"⟩, ⟨.semicolon, .none, ⟨1, 58, 1⟩, ";"⟩,
    ⟨.rightBrace, .none, ⟨1, 60, 1⟩, "\x7d"⟩]

theorem tokenize_callInCall : tokenize callInCall = .ok callInCallTokens :=
  ok_of_toOption (by decide +kernel)

def callInCallTree : Tree :=
  let f (column : Nat) : Identifier := ⟨"f", none, none, ⟨1, column, 1⟩⟩
  let inner : Expression :=
    .call (f 22) [.name ⟨"x", none, some rootScope, ⟨1, 24, 1⟩⟩] (some ⟨rootScope, 2⟩) ⟨1, 22, 4⟩
  ⟨#[⟨[], #[.assign (.name ⟨"x", some .int, some rootScope, ⟨1, 5, 1⟩⟩) (.number 1 ⟨1, 9, 1⟩) true
        ⟨1, 1, 10⟩,
      .assign (.name ⟨"y", some .int, some rootScope, ⟨1, 16, 1⟩⟩)
        (.call (f 20) [inner] (some ⟨rootScope, 2⟩) ⟨1, 20, 7⟩) true ⟨1, 12, 16⟩,
      .function ⟨"f", some .int, some rootScope, ⟨1, 32, 1⟩⟩ 1 2 (some .int) ⟨1, 29, 4⟩]⟩,
    ⟨[rootScope], #[.parameter ⟨"a", some .int, some 1, ⟨1, 38, 1⟩⟩]⟩,
    ⟨[1], #[.give (.name ⟨"a", some .int, some 1, ⟨1, 57, 1⟩⟩) ⟨1, 50, 8⟩]⟩]⟩

theorem analyze_callInCall : analyze callInCall = .ok callInCallTree := by
  rw [analyze, tokenize_callInCall]
  cbv

/-- The parameter is given a register for each of the two calls. -/
theorem callInCall_disciplined : ∃ t e, analyze callInCall = .ok t ∧ t.emit = .ok e ∧
    e.symbols = [⟨"x", 0, 1, 1⟩, ⟨"a", 1, 2, 1⟩, ⟨"a", 1, 3, 1⟩, ⟨"y", 0, 2, 1⟩] ∧
    ∃ log R, Logs t [] [.part (.scope rootScope)] {} log R ∧ e.registerCount = R.highest ∧
      ∀ m ∈ log, m.Disciplined t := by
  have hemission : callInCallTree.emit.toOption.map Emission.symbols =
      some [⟨"x", 0, 1, 1⟩, ⟨"a", 1, 2, 1⟩, ⟨"a", 1, 3, 1⟩, ⟨"y", 0, 2, 1⟩] := by
    decide +kernel
  obtain ⟨e, he, hsymbols⟩ := Option.map_eq_some_iff.mp hemission
  have he := ok_of_toOption he
  obtain ⟨⟨log, R, hlog, -, hcount⟩, disciplined, -⟩ := emit_disciplined analyze_callInCall he
  exact ⟨_, e, analyze_callInCall, he, hsymbols, log, R, hlog, hcount, disciplined log R hlog⟩

end RegisterMachine.Structured
