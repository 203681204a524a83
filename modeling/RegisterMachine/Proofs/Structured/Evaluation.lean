import RegisterMachine.Proofs.Structured.Layout
import RegisterMachine.Proofs.Structured.Lines
import RegisterMachine.Proofs.Structured.Operating

/-! # Expressions are evaluated by their code

`Simulated` is what is proved of every part of a tree, by induction on the derivation of its code:
from a bank that holds the store, running the code answers the meaning of the part. Behind it the
bank holds the store that the meaning ends with, temporaries that were there before are kept, and
the value of an expression is in the accumulator. Here are the cases of expressions without calls.

* `Ready`: the place of the code in the whole, and the registers there.
* `Arrived`: what holds at a point that is reached; `Arrived.write` and `Arrived.trans` follow the
  code.
* `simulated_number`, `simulated_name`, `simulated_binary`, `simulated_element`: the cases. -/

namespace RegisterMachine.Structured

open RegisterMachine.Assembly RegisterMachine.Machine

/-! ### Places in the code -/

/-- What comes behind the labels to which code may jump. -/
structure Targets where
  leave : Code := []
  again : Code := []
  give : Code := []

/-- The code behind the labels of the surroundings. -/
structure Targets.Aims (T : Targets) (whole : Code) (a : Surroundings) : Prop where
  loop : ∀ start done, a.loop = some (start, done) →
    .label start :: T.again <:+ whole ∧ .label done :: T.leave <:+ whole
  exit : ∀ m, a.exit = some m → .label m :: T.give <:+ whole

/-- The code that goes on behind a signal. -/
def Targets.behind (T : Targets) (rest : Code) : Signal → Code
  | .next => rest
  | .leave => T.leave
  | .again => T.again
  | .returned _ => T.give

/-- There is a label to jump to with this signal. -/
def Signal.Handled (a : Surroundings) : Signal → Prop
  | next => True
  | leave | again => a.loop.isSome
  | returned _ => a.exit.isSome

/-- The names that statements declare are bound to their scope. -/
def Task.Bound : Task → Prop
  | statement id s => ∀ i e span, s = .assign (.name i) e true span → i.binding = some id
  | statements id l => ∀ i e span, .assign (.name i) e true span ∈ l → i.binding = some id
  | _ => True

/-- **The code of a part stands in the whole** before other code, where these scopes are active and
the layout is reserved. -/
structure Ready (t : Tree) (whole : Code) (size : Nat) (active : List ScopeId) (L : Layout)
    (task : Task) (R R' : Registers) (code rest : Code) : Prop where
  apart : Apart t active task
  home : ∀ s, task.home? = some s → s ∈ active
  bound : task.Bound
  known : Known active L
  lays : Lays R L
  sound : R.Sound
  fits : R'.highest < size
  placed : code ++ rest <:+ whole

/-- **What holds at a point that is reached**: the code is this, the bank holds the store, and the
registers that are spared have the contents that they had. -/
structure Arrived (size : Nat) (L : Layout) (plain : Prop) (R : Registers) (bank : Bank)
    (rest : Code) (σ : Store) (e : Point) : Prop where
  code : e.code = rest
  holds : Holds size L σ e.bank
  kept : Kept plain R bank e.bank

/-- What holds behind a statement or a scope: the code is that behind the signal, and a value that
is returned is in the accumulator. -/
structure Left (size : Nat) (L : Layout) (T : Targets) (R : Registers) (bank : Bank) (rest : Code)
    (y : Signal × Store) (e : Point) : Prop where
  arrived : Arrived size L False R bank (T.behind rest y.1) y.2 e
  value : ∀ v, y.1 = .returned v → e.bank.accumulator = v

/-- **What is proved of a part of a tree.** Statements may declare names of their scope, and so the
layout behind them is another. -/
def Simulated (t : Tree) (whole : Code) (size d : Nat) (a : Surroundings) (task : Task)
    (R : Registers) (code : Code) (R' : Registers) : Prop :=
  ∀ (active : List ScopeId) (L : Layout) (rest : Code) (fuel : Nat) (σ : Store) (bank : Bank)
    {least : Nat},
    Ready t whole size active L task R R' code rest → least ≤ fuel - d → Holds size L σ bank →
    match task with
    | .expression e =>
      Answers whole least ⟨code ++ rest, bank⟩ (result t (scopeRun t fuel) e σ) fun y e' =>
        Arrived size L (e.hasCall = false) R bank rest y.2 e' ∧
          ∀ v, y.1 = some v → e'.bank.accumulator = v
    | .staged es temporaries =>
      Answers whole least ⟨code ++ rest, bank⟩ (results t (scopeRun t fuel) es σ) fun y e' =>
        Arrived size L False R bank rest y.2 e' ∧
          List.Forall₂ (fun r v => e'.bank.read? r = some v) temporaries y.1
    | .passing parameters names es =>
      names.length = es.length → parameters ∉ active → ∀ τ, Passed parameters R τ bank →
      Answers whole least ⟨code ++ rest, bank⟩ (results t (scopeRun t fuel) es σ) fun y e' =>
        Arrived size L False R bank rest y.2 e' ∧
          Passed parameters R' (τ.bind parameters names y.1) e'.bank
    | .arguments parameters names es =>
      names.length = es.length → parameters ∉ active →
      Answers whole least ⟨code ++ rest, bank⟩ (results t (scopeRun t fuel) es σ) fun y e' =>
        Arrived size L False R bank rest y.2 e' ∧
          Passed parameters R' (Store.empty.bind parameters names y.1) e'.bank
    | .statement scope s =>
      ∀ T : Targets, T.Aims whole a →
      Answers whole least ⟨code ++ rest, bank⟩ (statementRun t (scopeRun t fuel) fuel scope s σ)
        fun y e' => y.1.Handled a → ∃ L', Left size L' T R bank rest y e' ∧
          (∀ b, b.scope ≠ scope → L' b = L b) ∧ (y.1 = .next → Lays R' L')
    | .statements scope l =>
      ∀ T : Targets, T.Aims whole a →
      Answers whole least ⟨code ++ rest, bank⟩ (statementsRun t (scopeRun t fuel) fuel scope l σ)
        fun y e' => y.1.Handled a → ∃ L', Left size L' T R bank rest y e' ∧
          (∀ b, b.scope ≠ scope → L' b = L b) ∧ (y.1 = .next → Lays R' L')
    | .scope id =>
      ∀ T : Targets, T.Aims whole a →
      Answers whole least ⟨code ++ rest, bank⟩ (scopeRun t fuel id σ)
        fun y e' => y.1.Handled a → Left size L T R bank rest y e'

/-! ### Following the code -/

section Follow

variable {t : Tree} {whole code code' rest rest' : Code} {size : Nat} {active : List ScopeId}
  {L L' : Layout} {task task' : Task} {R R₁ R₂ R' : Registers} {plain plain' : Prop}
  {bank bank' : Bank} {σ σ' : Store} {e e' : Point} {x : Nat}

theorem Ready.part (h : Ready t whole size active L task R R' code rest) (hpart : Part task' task)
    (bound : task'.Bound) (lays : Lays R₁ L) (sound : R₁.Sound) (fits : R₂.highest < size)
    (placed : code' ++ rest' <:+ whole) : Ready t whole size active L task' R₁ R₂ code' rest' where
  apart := h.apart.part hpart
  home s hs := by
    rcases hpart.home with hnone | heq
    · rw [hnone] at hs
      cases hs
    · exact h.home s (heq ▸ hs)
  bound := bound
  known := h.known
  lays := lays
  sound := sound
  fits := fits
  placed := placed

theorem Arrived.start (rest : Code) (plain : Prop) (R : Registers) (h : Holds size L σ bank) :
    Arrived size L plain R bank rest σ ⟨rest, bank⟩ := ⟨rfl, h, .refl plain R bank⟩

/-- The same, seen from another place of the code. -/
theorem Arrived.moved (h : Arrived size L plain R bank rest σ ⟨code, bank'⟩) (rest' : Code) :
    Arrived size L plain R bank rest' σ ⟨rest', bank'⟩ := ⟨rfl, h.holds, h.kept⟩

theorem Arrived.weaken (h : Arrived size L plain R bank rest σ e) (hp : plain' → plain) :
    Arrived size L plain' R bank rest σ e :=
  ⟨h.code, h.holds, fun x hx => h.kept x (hx.mono hp)⟩

/-- A register that belongs to nothing is written. -/
theorem Arrived.write (h : Arrived size L plain R bank rest σ e) (hx : Avoids L x)
    (hspared : ¬ Spared plain R x) (v : UInt32) (rest' : Code) :
    Arrived size L plain R bank rest' σ ⟨rest', e.bank.write x v⟩ :=
  ⟨rfl, h.holds.write hx v, h.kept.write hspared v⟩

theorem Arrived.accumulate (h : Arrived size L plain R bank rest σ e) (hl : Lays R L)
    (hs : R.Sound) (v : UInt32) (rest' : Code) :
    Arrived size L plain R bank rest' σ ⟨rest', e.bank.write 0 v⟩ :=
  h.write (hl.avoids_zero hs) (not_spared_zero hs) v rest'

/-- A register that nobody holds, at a place where all that was spared is spared. -/
theorem Arrived.stage (h : Arrived size L plain R bank rest σ e) (hl : Lays R₁ L)
    (hx : x ∉ R₁.held) (hspared : ∀ y, Spared plain R y → Spared plain' R₁ y) (v : UInt32)
    (rest' : Code) : Arrived size L plain R bank rest' σ ⟨rest', e.bank.write x v⟩ :=
  h.write (hl.avoids hx) (fun hy => hx (hspared x hy).held) v rest'

theorem Arrived.trans (h : Arrived size L plain R bank rest σ e)
    (h' : Arrived size L' plain' R₁ e.bank rest' σ' e')
    (hspared : ∀ y, Spared plain R y → Spared plain' R₁ y) :
    Arrived size L' plain R bank rest' σ' e' :=
  ⟨h'.code, h'.holds, h.kept.trans h'.kept hspared⟩

/-- The bindings of a scope end. -/
theorem Arrived.erase {s : ScopeId} (h : Arrived size L' plain R bank rest σ e)
    (hsame : ∀ b, b.scope ≠ s → L' b = L b) : Arrived size L plain R bank rest (σ.erase s) e :=
  ⟨h.code, h.holds.erase hsame, h.kept⟩

end Follow

/-! ### What is spared -/

section Spared

variable {t : Tree} {plain plain' : Prop} {R R' : Registers} {x : Nat}

theorem Spared.grow {added : List Nat} (h : Spared plain R x)
    (hleads : Leads (fun _ => False) added R R') : Spared plain R' x :=
  h.leads hleads fun hp => ⟨hp, fun _ hfalse => hfalse⟩

/-- A part that opens no scope and calls no function changes no slot. -/
theorem not_changes_of_nothing {task : Task} (hbodies : task.bodies = [])
    (hcallees : task.callees = []) (hhome : task.home? = none) (slot : Slot) :
    ¬ task.Changes t slot := by
  have hvisits : ∀ x, ¬ Visits t task x := by
    rintro x ⟨b, hb | ⟨id, hid, -⟩, -⟩
    · rw [hbodies] at hb
      cases hb
    · rw [hcallees] at hid
      cases hid
  rintro ((hx | ⟨id, body, hid | ⟨x, hx, -⟩, -⟩) | hslot)
  · exact hvisits _ hx
  · rw [hcallees] at hid
    cases hid
  · exact hvisits x hx
  · rw [hhome] at hslot
    cases hslot

/-- An expression without calls changes no slot. -/
theorem not_changes_of_plain {e : Expression} (h : e.hasCall = false) (slot : Slot) :
    ¬ (Task.expression e).Changes t slot := by
  have hcallees : (Task.expression e).callees = [] := Expression.callees_of_plain e h
  exact not_changes_of_nothing rfl hcallees rfl slot

/-- What is spared before an expression is spared behind it. -/
theorem Spared.expression {d : Nat} {a : Surroundings} {n n' : Nat} {code : Code} {e : Expression}
    (h : Spared plain R x) (hemits : Emits t d a (.expression e) R n code R' n')
    (hplain : plain → e.hasCall = false) : Spared plain R' x :=
  h.leads hemits.leads fun hp => ⟨hp, not_changes_of_plain (hplain hp)⟩

end Spared

/-! ### The rules of the meaning -/

section Meaning

variable {whole : Code} {least : Nat} {α β : Type} {s : Point} {σ : Store} {i : Identifier}
  {done : β × Store → Point → Prop}

/-- A value that has to be there. -/
theorem Answers.needed {m : Eval (Option UInt32)} {f : UInt32 → Eval β}
    {mid : Option UInt32 × Store → Point → Prop} (h : Answers whole least s (m σ) mid)
    (h' : ∀ v σ' e, mid (some v, σ') e → Answers whole least e (f v σ') done) :
    Answers whole least s ((m >>= fun y => Eval.needed y >>= f) σ) done := by
  refine h.bind fun y σ' e he => ?_
  cases y with
  | none => exact trivial
  | some v => exact h' v σ' e he

theorem Answers.lift {x : Except Interruption α} {f : α → Eval β} {mid : α → Point → Prop}
    (h : Answers whole least s x mid)
    (h' : ∀ v e, mid v e → Answers whole least e (f v σ) done) :
    Answers whole least s ((StateT.lift x >>= f) σ) done := by
  match x, h with
  | .ok v, ⟨k, e, hrun, he⟩ => exact before hrun (h' v e he)
  | .error .divided, h => exact h
  | .error .stuck, _ => exact trivial
  | .error .unfinished, h => exact h

theorem Answers.locate {f : Binding → Eval β}
    (h : ∀ scope, i.binding = some scope → Answers whole least s (f ⟨i.name, scope⟩ σ) done) :
    Answers whole least s ((Eval.locate i >>= f) σ) done := by
  have hbind : (Eval.locate i >>= f) σ = Eval.locate i σ >>= fun y => f y.1 y.2 := rfl
  rw [hbind]
  cases hb : i.binding with
  | none =>
    have hlocate : Eval.locate i σ = .error .stuck := by rw [Eval.locate, hb]
    rw [hlocate]
    exact trivial
  | some scope =>
    have hlocate : Eval.locate i σ = .ok (⟨i.name, scope⟩, σ) := by rw [Eval.locate, hb]
    rw [hlocate]
    exact h scope hb

theorem Answers.get {f : Store → Eval β} (h : Answers whole least s (f σ σ) done) :
    Answers whole least s ((MonadState.get >>= f) σ) done := h

theorem Answers.readScalar {f : UInt32 → Eval β}
    (h : ∀ scope v, i.binding = some scope → σ ⟨i.name, scope⟩ = some (.scalar v) →
      Answers whole least s (f v σ) done) :
    Answers whole least s ((Eval.readScalar i >>= f) σ) done := by
  rw [Eval.readScalar, bind_assoc]
  refine .locate fun scope hb => ?_
  have hscope := fun v => h scope v hb
  rw [bind_assoc]
  refine .get ?_
  split
  · rename_i v hσ
    exact hscope v hσ
  · exact trivial

theorem Answers.readElement {k : UInt32} {f : UInt32 → Eval β}
    (h : ∀ scope values v, i.binding = some scope → σ ⟨i.name, scope⟩ = some (.array values) →
      values[k.toNat]? = some v → Answers whole least s (f v σ) done) :
    Answers whole least s ((Eval.readElement i k >>= f) σ) done := by
  rw [Eval.readElement, bind_assoc]
  refine .locate fun scope hb => ?_
  have hscope := fun values v => h scope values v hb
  rw [bind_assoc]
  refine .get ?_
  split
  · rename_i values hσ
    split
    · rename_i v hv
      exact hscope values v hσ hv
    · exact trivial
  · exact trivial

theorem Answers.assignScalar {v : UInt32} {f : Unit → Eval β}
    (h : ∀ scope w, i.binding = some scope → σ ⟨i.name, scope⟩ = some (.scalar w) →
      Answers whole least s (f () (σ.set ⟨i.name, scope⟩ (.scalar v))) done) :
    Answers whole least s ((Eval.assignScalar i v >>= f) σ) done := by
  rw [Eval.assignScalar, bind_assoc]
  refine .locate fun scope hb => ?_
  have hscope := fun w => h scope w hb
  rw [bind_assoc]
  refine .get ?_
  split
  · rename_i w hσ
    exact hscope w hσ
  · exact trivial

theorem Answers.assignElement {k v : UInt32} {f : Unit → Eval β}
    (h : ∀ scope values, i.binding = some scope → σ ⟨i.name, scope⟩ = some (.array values) →
      k.toNat < values.length →
      Answers whole least s (f () (σ.set ⟨i.name, scope⟩ (.array (values.set k.toNat v)))) done) :
    Answers whole least s ((Eval.assignElement i k v >>= f) σ) done := by
  rw [Eval.assignElement, bind_assoc]
  refine .locate fun scope hb => ?_
  have hscope := fun values => h scope values hb
  rw [bind_assoc]
  refine .get ?_
  split
  · rename_i values hσ
    by_cases hk : k.toNat < values.length
    · rw [if_pos hk]
      exact hscope values hσ hk
    · rw [if_neg hk]
      exact trivial
  · exact trivial

end Meaning

/-! ### Operands that need no code -/

section Operands

variable {t : Tree} {whole code rest : Code} {least size n n' : Nat} {enter : ScopeId → Eval Signal}
  {L : Layout} {plain : Prop} {R R' : Registers} {bank bank₁ : Bank} {σ : Store} {e : Expression}
  {o l r : Operand} {α : Type}

theorem getOrReserve_of_get? {name : String} {scope : ScopeId} {x : Nat}
    (h : R.get? name scope = some x) : R.getOrReserve name scope = (x, R) := by
  rw [Registers.getOrReserve, h]

/-- The register of a name that is declared. -/
theorem Holds.named {i : Identifier} {scope default : ScopeId} {v : UInt32} {x : Nat}
    (h : Holds size L σ bank) (lays : Lays R L) (hb : i.binding = some scope)
    (hσ : σ ⟨i.name, scope⟩ = some (.scalar v))
    (register : R.getOrReserve i.name (i.binding.getD default) = (x, R')) :
    R' = R ∧ L ⟨i.name, scope⟩ = some (.scalar x) ∧ R.get? i.name scope = some x ∧
      bank.read? x = some v := by
  obtain ⟨y, hL, hget, hread⟩ := h.scalar lays hσ
  rw [hb, Option.getD_some, getOrReserve_of_get? hget] at register
  cases register
  exact ⟨rfl, hL, hget, hread⟩

/-- **The value of an operand that needs no code** can be read. -/
theorem Simple.answers {f : UInt32 → Eval α} {done : α × Store → Point → Prop}
    (h : Simple R e o R') (lays : Lays R L) (sound : R.Sound) (holds : Holds size L σ bank)
    (h' : ∀ v, Reads bank o v → Answers whole least ⟨code, bank⟩ (f v σ) done) :
    Answers whole least ⟨code, bank⟩
      ((result t enter e >>= fun y => Eval.needed y >>= f) σ) done := by
  cases h with
  | number value span =>
    rw [result]
    exact h' value rfl
  | name register =>
    rw [result, bind_assoc]
    refine .readScalar fun scope v hb hσ => h' v ?_
    obtain ⟨-, -, hget, hread⟩ := holds.named lays hb hσ register
    exact ⟨sound.pos hget, hread⟩

/-- The code of an operator, at the end of an expression. -/
theorem Arrived.operate {op : Operator} {x y : UInt32}
    (h : Arrived size L plain R bank (code ++ rest) σ ⟨code ++ rest, bank₁⟩) (lays : Lays R L)
    (sound : R.Sound) (hpos : 0 < size) (operation : Operation.code op l r n = (code, n'))
    (hacc : bank₁.accumulator = x) (hx : Reads bank₁ l x) (hy : Reads bank₁ r y)
    (placed : code ++ rest <:+ whole) :
    Answers whole least ⟨code ++ rest, bank₁⟩
      ((StateT.lift (op.apply x y) >>= fun v => (pure (some v) : Eval (Option UInt32))) σ)
      fun y e => Arrived size L plain R bank rest y.2 e ∧
        ∀ v, y.1 = some v → e.bank.accumulator = v := by
  have hsize : 0 < bank₁.size := h.holds.size.symm ▸ hpos
  refine .lift (operation_answers operation hsize hacc hx hy.denotes placed) fun v e he => ?_
  subst he
  refine .ok ⟨h.accumulate lays sound v rest, fun w hw => ?_⟩
  cases hw
  exact Bank.accumulator_write v hsize

end Operands

/-! ### Expressions -/

section Expressions

variable {t : Tree} {whole : Code} {least size d : Nat} {a : Surroundings}
  {R R₁ R₂ R₃ R₄ R' : Registers} {n n₁ n₂ n' : Nat} {code first second : Code}

theorem simulated_number (value : UInt32) (span : Span) :
    Simulated t whole size d a (.expression (.number value span)) R
      [Code.load (.immediate value)] R := by
  intro active L rest fuel σ bank least ready _ holds
  have hsize : 0 < bank.size := holds.size.symm ▸ Nat.zero_lt_of_lt ready.fits
  have hvalue : Reads bank (.immediate value) value := rfl
  show Answers _ _ _ (result t (scopeRun t fuel) (.number value span) σ) _
  rw [result]
  refine hvalue.load (.ok ⟨?_, fun v hv => ?_⟩)
  · exact (Arrived.start rest _ R holds).accumulate ready.lays ready.sound value rest
  · cases hv
    exact Bank.accumulator_write value hsize

theorem simulated_name {i : Identifier} {r : Nat}
    (register : R.getOrReserve i.name (i.binding.getD rootScope) = (r, R')) :
    Simulated t whole size d a (.expression (.name i)) R [Code.load (.register r)] R' := by
  intro active L rest fuel σ bank least ready _ holds
  have hsize : 0 < bank.size := holds.size.symm ▸ Nat.zero_lt_of_lt ready.fits
  show Answers _ _ _ (result t (scopeRun t fuel) (.name i) σ) _
  rw [result]
  refine .readScalar fun scope v hb hσ => ?_
  obtain ⟨-, -, hget, hread⟩ := holds.named ready.lays hb hσ register
  have hvalue : Reads bank (.register r) v := ⟨ready.sound.pos hget, hread⟩
  refine hvalue.load (.ok ⟨?_, fun w hw => ?_⟩)
  · exact (Arrived.start rest _ R holds).accumulate ready.lays ready.sound v rest
  · cases hw
    exact Bank.accumulator_write v hsize

theorem simulated_simple {op : Operator} {left right : Expression} {l r : Operand} (span : Span)
    (hsecond : Simple R right r R₁) (hfirst : Simple R₁ left l R₂)
    (operation : Operation.code op l r n = (code, n')) :
    Simulated t whole size d a (.expression (.binary op left right span)) R
      (Code.load l :: code) R₂ := by
  intro active L rest fuel σ bank least ready _ holds
  have hpos : 0 < size := Nat.zero_lt_of_lt ready.fits
  have hsize : 0 < bank.size := holds.size.symm ▸ hpos
  have hleads := hsecond.leads fun _ => False
  show Answers _ _ _ (result t (scopeRun t fuel) (.binary op left right span) σ) _
  rw [result]
  refine hfirst.answers (ready.lays.grow hleads) (hleads.sound ready.sound) holds fun x hx => ?_
  refine hsecond.answers ready.lays ready.sound holds fun y hy => ?_
  refine hx.load ?_
  have arrived := (Arrived.start rest ((Expression.binary op left right span).hasCall = false) R
    holds).accumulate ready.lays ready.sound x (code ++ rest)
  exact arrived.operate ready.lays ready.sound hpos operation (Bank.accumulator_write x hsize)
    (hx.write x) (hy.write x) (behind [_] ready.placed)

/-- What is laid out before an expression is laid out behind it. -/
theorem Ready.lays_behind {active : List ScopeId} {L : Layout} {rest : Code} {e : Expression}
    (h : Ready t whole size active L (.expression e) R R₁ code rest)
    (hemits : Emits t d a (.expression e) R n code R₁ n₁) : Lays R₁ L :=
  h.lays.emits h.known h.apart rfl hemits

/-- **An intermediate value** is computed and stored in a new temporary. -/
theorem Simulated.stage {e : Expression} {r fuel : Nat} {active : List ScopeId} {L : Layout}
    {rest : Code} {σ : Store} {bank : Bank} {α : Type} {f : UInt32 → Eval α}
    {done : α × Store → Point → Prop}
    (ih : Simulated t whole size d a (.expression e) R code R₁)
    (hemits : Emits t d a (.expression e) R n code R₁ n₁) (temporary : R₁.temporary = (r, R₂))
    (ready : Ready t whole size active L (.expression e) R R₁ code (Code.store r :: rest))
    (hfits : R₂.highest < size) (hfuel : least ≤ fuel - d) (holds : Holds size L σ bank)
    (h : ∀ v σ₁ bank₁, Arrived size L (e.hasCall = false) R bank rest σ₁ ⟨rest, bank₁⟩ →
      bank₁.accumulator = v → Reads bank₁ (.register r) v →
      Answers whole least ⟨rest, bank₁⟩ (f v σ₁) done) :
    Answers whole least ⟨code ++ Code.store r :: rest, bank⟩
      ((result t (scopeRun t fuel) e >>= fun y => Eval.needed y >>= f) σ) done := by
  obtain ⟨hfresh, hone⟩ := Registers.temporary_fresh temporary
  refine .needed (ih active L _ fuel σ bank ready hfuel holds) ?_
  rintro v σ₁ ⟨_, bank₁⟩ ⟨⟨rfl, holds₁, kept₁⟩, hacc⟩
  have hsize : r < bank₁.size := by
    rw [holds₁.size]
    exact Nat.lt_of_le_of_lt (le_highest_of_temporary temporary) hfits
  obtain rfl : bank₁.accumulator = v := hacc v rfl
  refine .store hsize (h _ σ₁ _ ?_ (Bank.accumulator_write_of_pos _ hone)
    ⟨hone, Bank.read?_write_self _ hsize⟩)
  have arrived : Arrived size L (e.hasCall = false) R bank _ σ₁ ⟨_, bank₁⟩ :=
    ⟨rfl, holds₁, kept₁⟩
  exact arrived.stage (ready.lays_behind hemits) hfresh
    (fun x hx => hx.expression hemits id) _ rest

theorem simulated_spilled {op : Operator} {left right : Expression} {r : Operand} {spill : Nat}
    (span : Span) (hsecond : Simple R right r R₁)
    (leftCode : Emits t d a (.expression left) R₁ n first R₂ n₁)
    (temporary : R₂.temporary = (spill, R₃))
    (operation : Operation.code op (.register spill) r n₁ = (code, n'))
    (ih : Simulated t whole size d a (.expression left) R₁ first R₂) :
    Simulated t whole size d a (.expression (.binary op left right span)) R
      (first ++ Code.store spill :: code) (R₃.freeTemporary spill) := by
  intro active L rest fuel σ bank least ready hfuel holds
  have placed : first ++ Code.store spill :: (code ++ rest) <:+ whole := by
    simpa using ready.placed
  have hleads := hsecond.leads fun _ => False
  have hfits : R₃.highest < size := ready.fits
  have hfits₂ : R₂.highest < size :=
    Nat.lt_of_le_of_lt (Registers.leads_temporary (fun _ => False) temporary).highest hfits
  have hplain : (Expression.binary op left right span).hasCall = false → left.hasCall = false :=
    fun h => (Bool.or_eq_false_iff.mp h).1
  have readyLeft := ready.part (.left op left right span) trivial (ready.lays.grow hleads)
    (hleads.sound ready.sound) hfits₂ placed
  show Answers _ _ _ (result t (scopeRun t fuel) (.binary op left right span) σ) _
  rw [result, List.append_assoc]
  refine ih.stage leftCode temporary readyLeft hfits hfuel holds ?_
  intro x σ₁ bank₁ arrived₁ hacc hx
  have arrived : Arrived size L ((Expression.binary op left right span).hasCall = false) R bank
      (code ++ rest) σ₁ ⟨code ++ rest, bank₁⟩ :=
    (Arrived.start rest _ R holds).trans arrived₁ fun x hx => (hx.grow hleads).mono hplain
  refine hsecond.answers ready.lays ready.sound arrived.holds fun y hy => ?_
  exact arrived.operate ready.lays ready.sound (Nat.zero_lt_of_lt hfits) operation hacc hx hy
    (behind [_] (behind first placed))

theorem simulated_binary {op : Operator} {left right : Expression} {l r : Nat} (span : Span)
    (leftCode : Emits t d a (.expression left) R n first R₁ n₁)
    (leftTemporary : R₁.temporary = (l, R₂))
    (rightCode : Emits t d a (.expression right) R₂ n₁ second R₃ n₂)
    (rightTemporary : R₃.temporary = (r, R₄))
    (operation : Operation.code op (.register l) (.register r) n₂ = (code, n'))
    (ihl : Simulated t whole size d a (.expression left) R first R₁)
    (ihr : Simulated t whole size d a (.expression right) R₂ second R₃) :
    Simulated t whole size d a (.expression (.binary op left right span)) R
      (first ++ Code.store l :: second ++ Code.store r :: Code.load (.register l) :: code)
      ((R₄.freeTemporary r).freeTemporary l) := by
  intro active L rest fuel σ bank least ready hfuel holds
  have placed : first ++ Code.store l :: (second ++
      Code.store r :: Code.load (.register l) :: (code ++ rest)) <:+ whole := by
    simpa using ready.placed
  have placed₂ := behind [Code.store l] (behind first placed)
  have hl := Registers.leads_temporary (fun _ => False) leftTemporary
  have hfits₄ : R₄.highest < size := ready.fits
  have hfits₃ : R₃.highest < size :=
    Nat.lt_of_le_of_lt (Registers.leads_temporary (fun _ => False) rightTemporary).highest hfits₄
  have hfits₂ : R₂.highest < size := Nat.lt_of_le_of_lt rightCode.leads.highest hfits₃
  have readyLeft := ready.part (.left op left right span) trivial ready.lays ready.sound
    (Nat.lt_of_le_of_lt hl.highest hfits₂) placed
  have readyRight := ready.part (.right op left right span) trivial
    ((readyLeft.lays_behind leftCode).grow hl) (hl.sound (leftCode.leads.sound ready.sound))
    hfits₃ placed₂
  have hplain : (Expression.binary op left right span).hasCall = false →
      left.hasCall = false ∧ right.hasCall = false := Bool.or_eq_false_iff.mp
  show Answers _ _ _ (result t (scopeRun t fuel) (.binary op left right span) σ) _
  rw [result]
  simp only [List.append_assoc, List.cons_append]
  refine ihl.stage leftCode leftTemporary readyLeft hfits₂ hfuel holds ?_
  rintro x σ₁ bank₁ arrived₁ - hx
  refine ihr.stage rightCode rightTemporary readyRight hfits₄ hfuel arrived₁.holds ?_
  rintro y σ₂ bank₂ arrived₂ - hy
  -- the left operand is still in its temporary
  have hkept : Spared (right.hasCall = false) R₂ l := by
    rw [Spared, hl.temporaries]
    exact .inl List.mem_cons_self
  have hx₂ : Reads bank₂ (.register l) x := ⟨hx.1, (arrived₂.kept l hkept).trans hx.2⟩
  have arrived : Arrived size L ((Expression.binary op left right span).hasCall = false) R bank
      _ σ₂ ⟨_, bank₂⟩ :=
    ((Arrived.start rest _ R holds).trans arrived₁ fun z hz => hz.mono fun h => (hplain h).1).trans
      arrived₂ fun z hz => ((hz.expression leftCode fun h => (hplain h).1).grow hl).mono
        fun h => (hplain h).2
  have hpos : 0 < size := Nat.zero_lt_of_lt hfits₄
  have hsize : 0 < bank₂.size := arrived.holds.size.symm ▸ hpos
  refine hx₂.load ?_
  exact (arrived.accumulate ready.lays ready.sound x (code ++ rest)).operate ready.lays ready.sound
    hpos operation (Bank.accumulator_write x hsize) (hx₂.write x) (hy.write x)
    (behind [_, _] (behind second placed₂))

/-- **The address of an element** is computed and stored in a new temporary. -/
theorem Simulated.address {e : Expression} {base r fuel : Nat} {active : List ScopeId} {L : Layout}
    {rest : Code} {σ : Store} {bank : Bank} {α : Type} {f : UInt32 → Eval α}
    {done : α × Store → Point → Prop}
    (ih : Simulated t whole size d a (.expression e) R code R₁)
    (hemits : Emits t d a (.expression e) R n code R₁ n₁) (temporary : R₁.temporary = (r, R₂))
    (ready : Ready t whole size active L (.expression e) R R₁ code
      (.operate .add (.immediate (.ofNat base)) :: Code.store r :: rest))
    (hfits : R₂.highest < size) (hfuel : least ≤ fuel - d) (holds : Holds size L σ bank)
    (h : ∀ k σ₁ bank₁, Arrived size L (e.hasCall = false) R bank rest σ₁ ⟨rest, bank₁⟩ →
      bank₁.read? r = some (k + .ofNat base) → Answers whole least ⟨rest, bank₁⟩ (f k σ₁) done) :
    Answers whole least
      ⟨code ++ .operate .add (.immediate (.ofNat base)) :: Code.store r :: rest, bank⟩
      ((result t (scopeRun t fuel) e >>= fun y => Eval.needed y >>= f) σ) done := by
  refine .needed (ih active L _ fuel σ bank ready hfuel holds) ?_
  rintro k σ₁ ⟨_, bank₁⟩ ⟨arrived₁, hacc⟩
  obtain rfl := arrived₁.code
  obtain rfl : bank₁.accumulator = k := hacc k rfl
  have hbase : Reads bank₁ (.immediate (.ofNat base)) (.ofNat base) := rfl
  refine .compute hbase.operandValue (.inl rfl) rfl ?_
  have arrived₂ := arrived₁.accumulate ready.lays ready.sound
    (bank₁.accumulator + .ofNat base) (Code.store r :: rest)
  have hzero : 0 < bank₁.size := by
    rw [arrived₁.holds.size]
    exact Nat.zero_lt_of_lt hfits
  have hsize : r < (bank₁.write 0 (bank₁.accumulator + .ofNat base)).size := by
    rw [arrived₂.holds.size]
    exact Nat.lt_of_le_of_lt (le_highest_of_temporary temporary) hfits
  refine .store hsize ?_
  rw [Bank.accumulator_write _ hzero]
  refine h _ σ₁ _ ?_ (Bank.read?_write_self _ hsize)
  exact arrived₂.stage (ready.lays_behind hemits) (Registers.temporary_fresh temporary).1
    (fun x hx => hx.expression hemits id) _ rest

/-- The sum of a base and an index does not wrap inside the bank. -/
theorem toNat_address {k : UInt32} {base : Nat} (h : base + k.toNat ≤ maxRegisters) :
    (k + UInt32.ofNat base).toNat = base + k.toNat := by
  rw [maxRegisters] at h
  rw [UInt32.toNat_add, UInt32.toNat_ofNat']
  omega

/-- The register of an element of an array that is declared. -/
theorem Holds.element {L : Layout} {σ : Store} {bank : Bank} {i : Identifier} {scope : ScopeId}
    {base : Nat} {k : UInt32} {values : List UInt32} (h : Holds size L σ bank) (lays : Lays R L)
    (sound : R.Sound) (hfits : R.highest < size) (hmax : size ≤ maxRegisters + 1)
    (array : i.binding.bind (R.arrayBase? i.name) = some base) (hb : i.binding = some scope)
    (hσ : σ ⟨i.name, scope⟩ = some (.array values)) (hk : k.toNat < values.length) :
    L ⟨i.name, scope⟩ = some (.array base values.length) ∧ base + k.toNat < size ∧
      (k + UInt32.ofNat base).toNat = base + k.toNat ∧
      bank.read? (base + k.toNat) = values[k.toNat]? := by
  obtain ⟨base', hL, hbase, hregisters⟩ := h.array lays hσ
  rw [hb, Option.bind_some] at array
  obtain rfl : base' = base := Option.some.inj (hbase.symm.trans array)
  obtain ⟨hheld, hread⟩ := hregisters k.toNat hk
  have hlt : base' + k.toNat < size := Nat.lt_of_le_of_lt (sound.counted _ hheld) hfits
  exact ⟨hL, hlt, toNat_address (by omega), hread⟩

theorem simulated_element {i : Identifier} {index : Expression} {base r : Nat} (span : Span)
    (hmax : size ≤ maxRegisters + 1) (array : i.binding.bind (R.arrayBase? i.name) = some base)
    (address : Emits t d a (.expression index) R n code R₁ n₁) (temporary : R₁.temporary = (r, R₂))
    (ih : Simulated t whole size d a (.expression index) R code R₁) :
    Simulated t whole size d a (.expression (.element i index span)) R
      (code ++ [.operate .add (.immediate (.ofNat base)), Code.store r, Code.load (.pointer r)])
      (R₂.freeTemporary r) := by
  intro active L rest fuel σ bank least ready hfuel holds
  have placed : code ++ .operate .add (.immediate (.ofNat base)) :: Code.store r ::
      Code.load (.pointer r) :: rest <:+ whole := by
    simpa using ready.placed
  have hleads := Registers.leads_temporary (fun _ => False) temporary
  have hfits : R₂.highest < size := ready.fits
  have hfits₁ : R₁.highest < size := Nat.lt_of_le_of_lt hleads.highest hfits
  have hfits₀ : R.highest < size := Nat.lt_of_le_of_lt address.leads.highest hfits₁
  have readyIndex := ready.part (.index i index span) trivial ready.lays ready.sound hfits₁ placed
  show Answers _ _ _ (result t (scopeRun t fuel) (.element i index span) σ) _
  rw [result, List.append_assoc]
  refine ih.address address temporary readyIndex hfits hfuel holds fun k σ₁ bank₁ arrived₁ hr => ?_
  refine .readElement fun scope values v hb hσ hv => ?_
  have hk : k.toNat < values.length := (List.getElem?_eq_some_iff.mp hv).1
  obtain ⟨-, -, haddress, hread⟩ :=
    arrived₁.holds.element ready.lays ready.sound hfits₀ hmax array hb hσ hk
  rw [hv, ← haddress] at hread
  have hsize : 0 < bank₁.size := by
    rw [arrived₁.holds.size]
    exact Nat.zero_lt_of_lt hfits
  refine .loadPointer hr hread (.ok ⟨?_, fun w hw => ?_⟩)
  · exact arrived₁.accumulate ready.lays ready.sound v rest
  · cases hw
    exact Bank.accumulator_write v hsize

end Expressions

end RegisterMachine.Structured
