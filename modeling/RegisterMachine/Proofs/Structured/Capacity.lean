import Mathlib.Logic.Relation
import RegisterMachine.Proofs.Structured.Derivation
import RegisterMachine.Proofs.Structured.Reservation

/-! # Registers that fit in a machine

An array is refused if its registers do not fit in a machine. Nothing is refused when a scalar, a
parameter or an intermediate result is given the register behind the last one. So the arrays of an
emitted program lie in the machine, but the registers that are counted need not.

* `Registers.Step`: one register or one array that is handed out, or registers that are given back.
* `Emits.steps`: emitting code takes such steps and no others.
* `Emits.arraysFit`: the arrays of emitted code.
* `emit_arrayThenScalar`: a scalar behind an array that fills the machine. -/

namespace RegisterMachine.Structured

open Relation RegisterMachine.Success

namespace Registers

/-- **A step of the registers.** -/
inductive Step : Registers → Registers → Prop
  | scalar {R R' : Registers} {name : String} {scope : ScopeId} {r : Nat}
    (register : R.getOrReserve name scope = (r, R')) : Step R R'
  | array {R R' : Registers} {name : String} {scope : ScopeId} {size base : Nat}
    (registers : R.reserveArray? name scope size = some (base, R')) : Step R R'
  | temporary {R R' : Registers} {r : Nat} (register : R.temporary = (r, R')) : Step R R'
  | back {R R' : Registers} (symbols : R'.symbols = R.symbols) (highest : R'.highest = R.highest) :
    Step R R'

theorem steps_foldl {α : Type} {f : Registers → α → Registers} (hf : ∀ R a, Step R (f R a))
    (l : List α) (R : Registers) : ReflTransGen Step R (l.foldl f R) := by
  induction l generalizing R with
  | nil => exact .refl
  | cons a l ih => exact (ih (f R a)).head (hf R a)

theorem step_freeTemporary (R : Registers) (r : Nat) : Step R (R.freeTemporary r) := .back rfl rfl

theorem step_release (R : Registers) (name : String) (scope : ScopeId) :
    Step R (R.release name scope) := .back rfl rfl

theorem step_releaseName (scope : ScopeId) (R : Registers) (i : Identifier) :
    Step R (Emit.releaseName scope R i) := by
  unfold Emit.releaseName
  split <;> exact .back rfl rfl

end Registers

open Registers

theorem Simple.steps {R R' : Registers} {e : Expression} {o : Assembly.Operand}
    (h : Simple R e o R') : ReflTransGen Step R R' := by
  cases h with
  | number => exact .refl
  | name register => exact .single (.scalar register)

theorem Moves.steps {scope : ScopeId} {pairs : List (String × Nat)} {R R' : Registers}
    {code : Code} (h : Moves scope pairs R code R') : ReflTransGen Step R R' := by
  induction h with
  | nil => exact .refl
  | cons register _ ih => exact ih.head (.scalar register)

/-- **Emitting code takes steps of the registers.** -/
theorem Emits.steps {t : Tree} {d : Nat} {a : Surroundings} {task : Task} {R R' : Registers}
    {n n' : Nat} {code : Code} (h : Emits t d a task R n code R' n') :
    ReflTransGen Step R R' := by
  induction h with
  | number | stagedNil | passingNil | leave | again | nil => exact .refl
  | name register => exact .single (.scalar register)
  | array _ _ registers => exact .single (.array registers)
  | simple _ second first => exact second.steps.trans first.steps
  | direct _ _ ih | block _ ih | give _ _ ih | evaluate _ ih | silent _ _ ih => exact ih
  | branch _ _ _ ih ih' | loop _ _ _ ih ih' | cons _ _ ih ih' => exact ih.trans ih'
  | branchElse _ _ _ _ ih ih' ih'' => exact (ih.trans ih').trans ih''
  | assign _ _ _ register ih => exact ih.tail (.scalar register)
  | element _ _ _ temporary ih =>
    exact (ih.tail (.temporary temporary)).tail (step_freeTemporary _ _)
  | spilled _ second _ temporary _ ih =>
    exact ((second.steps.trans ih).tail (.temporary temporary)).tail (step_freeTemporary _ _)
  | binary _ _ leftTemporary _ rightTemporary _ ih ih' =>
    have hleft := ih.tail (.temporary leftTemporary)
    have hright := (hleft.trans ih').tail (.temporary rightTemporary)
    exact (hright.tail (step_freeTemporary _ _)).tail (step_freeTemporary _ _)
  | assignElement _ _ _ _ _ temporary _ ih ih' =>
    exact ((ih.tail (.temporary temporary)).trans ih').tail (step_freeTemporary _ _)
  | call _ _ _ _ _ ih ih' =>
    exact (ih.trans ih').trans (steps_foldl (fun R name => step_release R name _) _ _)
  | staging _ _ moved ih =>
    exact (ih.trans moved.steps).trans (steps_foldl step_freeTemporary _ _)
  | stagedCons _ temporary _ ih ih' => exact (ih.tail (.temporary temporary)).trans ih'
  | passingCons _ _ register _ ih ih' => exact (ih.tail (.scalar register)).trans ih'
  | scope _ ih => exact ih.trans (steps_foldl (step_releaseName _) _ _)

/-- **What every step keeps** is kept when code is emitted. -/
theorem Emits.invariant {P : Registers → Prop} (hP : ∀ {R R'}, P R → Step R R' → P R') {t : Tree}
    {d : Nat} {a : Surroundings} {task : Task} {R R' : Registers} {n n' : Nat} {code : Code}
    (h : Emits t d a task R n code R' n') (hR : P R) : P R' := by
  have hsteps := h.steps
  clear h
  induction hsteps with
  | refl => exact hR
  | tail _ hstep ih => exact hP ih hstep

/-! ### Arrays -/

/-- **The arrays lie in the machine.** What fills more than one register, or none, is an array. -/
def Registers.ArraysFit (R : Registers) : Prop :=
  ∀ y ∈ R.symbols, y.width ≠ 1 → y.register + y.width ≤ Machine.maxRegisters + 1

/-- The last register of an array is one of the machine. -/
theorem Registers.reserveArray_le {R R' : Registers} {name : String} {scope : ScopeId}
    {size base : Nat} (h : R.reserveArray? name scope size = some (base, R')) :
    base + size ≤ Machine.maxRegisters + 1 := by
  unfold reserveArray? at h
  dsimp only at h
  split at h
  · cases h
  · cases h
    omega

theorem Registers.ArraysFit.step {R R' : Registers} (h : R.ArraysFit) (hstep : Step R R') :
    R'.ArraysFit := by
  intro y hy hwidth
  cases hstep with
  | scalar register =>
    obtain ⟨-, rfl⟩ | ⟨-, rfl, rfl⟩ := getOrReserve_cases register
    · exact h y hy hwidth
    · rcases Array.mem_push.mp hy with hy | rfl
      · exact h y hy hwidth
      · exact absurd rfl hwidth
  | @array name scope size base registers =>
    have hfit := reserveArray_le registers
    obtain ⟨-, -, rfl⟩ := reserveArray_some registers
    rcases Array.mem_push.mp hy with hy | rfl
    · exact h y hy hwidth
    · exact hfit
  | temporary register =>
    cases register
    exact h y hy hwidth
  | back symbols _ => exact h y (symbols ▸ hy) hwidth

/-- **The arrays of emitted code lie in the machine.** -/
theorem Emits.arraysFit {t : Tree} {d : Nat} {a : Surroundings} {task : Task} {R R' : Registers}
    {n n' : Nat} {code : Code} (h : Emits t d a task R n code R' n') (hR : R.ArraysFit) :
    R'.ArraysFit := h.invariant Registers.ArraysFit.step hR

/-! ### A scalar behind an array -/

section Scalar

variable {t : Tree} {enter : Surroundings → ScopeId → Emit Code} {a : Surroundings} {st : Emitter}
  {scope : ScopeId} {i : Identifier} {place span : Span} {R : Registers}

theorem array_of_reserve {size base : Nat}
    (h : st.registers.reserveArray? i.name scope size = some (base, R)) :
    Emit.array i scope size st = .ok (base, ⟨R, st.nextLabel⟩) := by
  have hget : (get : Emit Emitter) st = .ok (st, st) := rfl
  unfold Emit.array
  rw [state_bind_run hget, h]
  rfl

theorem scalar_of_reserve {name : String} {r : Nat}
    (h : st.registers.getOrReserve name scope = (r, R)) :
    Emit.scalar name scope st = .ok (r, ⟨R, st.nextLabel⟩) := by
  obtain rfl : _ = r := congrArg Prod.fst h
  obtain rfl : _ = R := congrArg Prod.snd h
  rfl

theorem exists_arrayCode {type : ValueType} {base : Nat}
    (h : st.registers.reserveArray? i.name scope type.width = some (base, R)) :
    ∃ code, commentedCode t enter a scope (.assign (.name i) (.new type place) true span) st =
      .ok (code, ⟨R, st.nextLabel⟩) := by
  have hcode : statementCode t enter a scope (.assign (.name i) (.new type place) true span) st =
      .ok (_, ⟨R, st.nextLabel⟩) :=
    (state_bind_run (array_of_reserve h)).trans rfl
  exact ⟨_, (state_bind_run hcode).trans rfl⟩

theorem exists_numberCode {value : UInt32} {r : Nat}
    (h : st.registers.getOrReserve i.name (i.binding.getD scope) = (r, R)) :
    ∃ code, commentedCode t enter a scope (.assign (.name i) (.number value place) true span) st =
      .ok (code, ⟨R, st.nextLabel⟩) := by
  have hvalue : expressionCode t enter a (.number value place) st =
      .ok ([Code.load (.immediate value)], st) := by
    rw [expressionCode]
    rfl
  have hcode : statementCode t enter a scope (.assign (.name i) (.number value place) true span)
      st = .ok (_, ⟨R, st.nextLabel⟩) :=
    (state_bind_run hvalue).trans ((state_bind_run (scalar_of_reserve h)).trans rfl)
  exact ⟨_, (state_bind_run hcode).trans rfl⟩

end Scalar

/-- The declaration of an array of so many elements, at the start of a source. -/
def arrayDeclaration (size : Nat) : Statement :=
  .assign (.name ⟨"a", some (.array .int size), some rootScope, ⟨1, 5, 1⟩⟩)
    (.new (.array .int size) ⟨1, 9, 14⟩) true ⟨1, 1, 23⟩

/-- The declaration of a scalar behind it. -/
def scalarDeclaration : Statement :=
  .assign (.name ⟨"b", some .int, some rootScope, ⟨1, 29, 1⟩⟩) (.number 1 ⟨1, 33, 1⟩) true
    ⟨1, 25, 10⟩

/-- A program of the two declarations. -/
def arrayThenScalar (size : Nat) : Tree :=
  ⟨#[⟨[], #[arrayDeclaration size, scalarDeclaration]⟩]⟩

/-- **A scalar behind an array is never refused**, not even behind one that fills the machine. -/
theorem emit_arrayThenScalar {size : Nat} (hpos : 0 < size) (hfit : size ≤ Machine.maxRegisters) :
    ∃ e, (arrayThenScalar size).emit = .ok e ∧ size < e.registerCount := by
  obtain ⟨d, hdepth⟩ : ∃ d, (arrayThenScalar size).emissionDepth = d + 1 :=
    Nat.exists_eq_add_one.mpr (by simp [Tree.emissionDepth, arrayThenScalar])
  obtain ⟨R, hR⟩ : ∃ R, ({} : Registers).reserveArray? "a" rootScope size = some (1, R) := by
    have hnext : ({} : Registers).nextFree = 1 := rfl
    unfold reserveArray?
    rw [hnext]
    exact ⟨_, if_neg (by omega)⟩
  have hlast : size < R.nextFree := by
    have hheld := lookup_element hR (show size - 1 < size by omega)
    have hlt := lt_nextFree (mem_held_of_lookup hheld)
    omega
  have hb : R.get? "b" rootScope = none := by
    obtain ⟨-, -, rfl⟩ := reserveArray_some hR
    rw [get?, List.lookup_eq_none_iff]
    intro entry hentry
    rw [List.append_nil] at hentry
    obtain ⟨i, -, hslot, -⟩ := mem_elementSlots.mp hentry
    simp [hslot]
  obtain ⟨R', hR', hcount⟩ :
      ∃ R', R.getOrReserve "b" rootScope = (R.nextFree, R') ∧ R.nextFree ≤ R'.highest := by
    unfold getOrReserve
    rw [hb]
    exact ⟨_, rfl, Nat.le_max_right _ _⟩
  let t := arrayThenScalar size
  obtain ⟨first, hfirst⟩ : ∃ code, commentedCode t (scopeCode t d) {} rootScope
      (arrayDeclaration size) {} = .ok (code, ⟨R, 0⟩) := exists_arrayCode hR
  obtain ⟨second, hsecond⟩ : ∃ code, commentedCode t (scopeCode t d) {} rootScope
      scalarDeclaration ⟨R, 0⟩ = .ok (code, ⟨R', 0⟩) := exists_numberCode hR'
  have hstatements : (t.scope rootScope).statements.toList.mapM
      (commentedCode t (scopeCode t d) {} rootScope) {} = .ok ([first, second], ⟨R', 0⟩) := by
    show List.mapM (m := Emit) _ [arrayDeclaration size, scalarDeclaration] _ = _
    rw [List.mapM_cons, state_bind_run hfirst, List.mapM_cons,
      state_bind_run ((state_bind_run hsecond).trans rfl)]
    rfl
  have hcode : (scopeCode t (d + 1) {} rootScope).run {} =
      .ok ([first, second].flatten, ⟨t.release rootScope R', 0⟩) := by
    rw [scopeCode]
    exact (state_bind_run hstatements).trans rfl
  have hrelease : (t.release rootScope R').highest = R'.highest := rfl
  refine ⟨⟨[first, second].flatten ++ [.halt], (t.release rootScope R').symbols.toList,
    (t.release rootScope R').highest⟩, ?_, ?_⟩
  · unfold Tree.emit
    rw [hdepth, hcode]
  · show size < (t.release rootScope R').highest
    omega

end RegisterMachine.Structured
