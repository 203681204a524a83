import RegisterMachine.Proofs.Success
import RegisterMachine.Structured.Emission

/-! # Derivations of emitted code

`Emits t depth around task R n code R' n'` says that the code of a part of a tree is `code`, when it
is emitted with the registers `R` and the next label `n`; it leaves the registers `R'` and the next
label `n'`. There is one rule for every way in which code is emitted, so what holds of all code is
proved by induction on derivations.

* `Task`: the parts of a tree that have code.
* `Emits`: the derivations.
* `scopeCode_emits`: whatever is emitted has a derivation. -/

namespace RegisterMachine.Structured

open RegisterMachine.Assembly RegisterMachine.Success

/-- **A part of a tree that has code.** -/
inductive Task
  | expression (e : Expression)
  /-- Arguments that are computed into these temporaries. -/
  | staged (arguments : List Expression) (temporaries : List Nat)
  /-- Arguments without calls that are computed into the registers of the parameters. -/
  | passing (scope : ScopeId) (names : List String) (arguments : List Expression)
  | arguments (scope : ScopeId) (names : List String) (arguments : List Expression)
  | statement (scope : ScopeId) (s : Statement)
  /-- Statements under their comments. -/
  | statements (scope : ScopeId) (statements : List Statement)
  | scope (id : ScopeId)

/-- An expression that needs no code, as an operand. -/
inductive Simple (R : Registers) : Expression → Operand → Registers → Prop
  | number (value : UInt32) (span : Span) : Simple R (.number value span) (.immediate value) R
  | name {i : Identifier} {r : Nat} {R' : Registers}
      (register : R.getOrReserve i.name (i.binding.getD rootScope) = (r, R')) :
      Simple R (.name i) (.register r) R'

/-- Staged values are moved to the registers of the parameters. -/
inductive Moves (scope : ScopeId) : List (String × Nat) → Registers → Code → Registers → Prop
  | nil (R : Registers) : Moves scope [] R [] R
  | cons {name : String} {staged r : Nat} {rest : List (String × Nat)} {R R₁ R' : Registers}
      {code : Code} (register : R.getOrReserve name scope = (r, R₁))
      (others : Moves scope rest R₁ code R') :
      Moves scope ((name, staged) :: rest) R
        (Code.load (.register staged) :: Code.store r :: code) R'

/-- A statement without code. -/
def Statement.isSilent : Statement → Bool
  | function _ _ _ _ _ | parameter _ => true
  | _ => false

/-- The names that a scope declares are given up. -/
def Tree.release (t : Tree) (scope : ScopeId) (R : Registers) : Registers :=
  ((t.scope scope).statements.toList.filterMap Statement.declared?).foldl
    (Emit.releaseName scope) R

/-- **Derivations of code.** -/
inductive Emits (t : Tree) :
    Nat → Surroundings → Task → Registers → Nat → Code → Registers → Nat → Prop
  | number {d a R n} (value : UInt32) (span : Span) :
    Emits t d a (.expression (.number value span)) R n [Code.load (.immediate value)] R n
  | name {d a R n R' r} {i : Identifier}
    (register : R.getOrReserve i.name (i.binding.getD rootScope) = (r, R')) :
    Emits t d a (.expression (.name i)) R n [Code.load (.register r)] R' n
  | element {d a R n R₁ n₁ R₂ base r code} {i : Identifier} {index : Expression} (span : Span)
    (array : i.binding.bind (R.arrayBase? i.name) = some base)
    (address : Emits t d a (.expression index) R n code R₁ n₁)
    (temporary : R₁.temporary = (r, R₂)) :
    Emits t d a (.expression (.element i index span)) R n
      (code ++ [.operate .add (.immediate (.ofNat base)), Code.store r, Code.load (.pointer r)])
      (R₂.freeTemporary r) n₁
  | simple {d a R n R₁ R₂ n' l r code} {op : Operator} {left right : Expression} (span : Span)
    (second : Simple R right r R₁) (first : Simple R₁ left l R₂)
    (operation : Operation.code op l r n = (code, n')) :
    Emits t d a (.expression (.binary op left right span)) R n (Code.load l :: code) R₂ n'
  | spilled {d a R n R₁ R₂ n₁ R₃ n' spill r code first} {op : Operator}
    {left right : Expression} (span : Span)
    (second : Simple R right r R₁)
    (leftCode : Emits t d a (.expression left) R₁ n first R₂ n₁)
    (temporary : R₂.temporary = (spill, R₃))
    (operation : Operation.code op (.register spill) r n₁ = (code, n')) :
    Emits t d a (.expression (.binary op left right span)) R n
      (first ++ Code.store spill :: code) (R₃.freeTemporary spill) n'
  | binary {d a R n R₁ n₁ R₂ R₃ n₂ R₄ n' l r code first second} {op : Operator}
    {left right : Expression} (span : Span)
    (leftCode : Emits t d a (.expression left) R n first R₁ n₁)
    (leftTemporary : R₁.temporary = (l, R₂))
    (rightCode : Emits t d a (.expression right) R₂ n₁ second R₃ n₂)
    (rightTemporary : R₃.temporary = (r, R₄))
    (operation : Operation.code op (.register l) (.register r) n₂ = (code, n')) :
    Emits t d a (.expression (.binary op left right span)) R n
      (first ++ Code.store l :: second ++ Code.store r :: Code.load (.register l) :: code)
      ((R₄.freeTemporary r).freeTemporary l) n'
  | call {d a R n R₁ n₁ R₂ n₂ passing inner parameters body} {i f : Identifier}
    {es : List Expression} {callee : StatementId} {returns : Option ValueType} {place : Span}
    (span : Span) (fresh : callee ∉ a.inlining)
    (function : t.statement? callee = some (.function f parameters body returns place))
    (arguments :
      Emits t d a (.arguments parameters (t.declaredNames parameters) es) R n passing R₁ n₁)
    (inlined : Emits t d ⟨none, some ⟨.returned, n₁⟩, callee :: a.inlining⟩ (.scope body)
      R₁ (n₁ + 1) inner R₂ n₂) :
    Emits t d a (.expression (.call i es (some callee) span)) R n
      (passing ++ .comment ("inline " ++ i.name) :: inner ++ [.label ⟨.returned, n₁⟩])
      ((t.declaredNames parameters).foldl (fun R name => R.release name parameters) R₂) n₂
  | direct {d a R n R' n' code scope names es} (plain : es.any Expression.hasCall = false)
    (passing : Emits t d a (.passing scope names es) R n code R' n') :
    Emits t d a (.arguments scope names es) R n code R' n'
  | staging {d a R n R₁ n₁ R₂ code moves scope names es temporaries}
    (calls : es.any Expression.hasCall = true)
    (staged : Emits t d a (.staged es temporaries) R n code R₁ n₁)
    (moved : Moves scope (names.zip temporaries) R₁ moves R₂) :
    Emits t d a (.arguments scope names es) R n (code ++ moves)
      (temporaries.reverse.foldl Registers.freeTemporary R₂) n₁
  | stagedNil {d a R n} : Emits t d a (.staged [] []) R n [] R n
  | stagedCons {d a R n R₁ n₁ R₂ R' n' r code others e es temporaries}
    (argument : Emits t d a (.expression e) R n code R₁ n₁)
    (temporary : R₁.temporary = (r, R₂))
    (rest : Emits t d a (.staged es temporaries) R₂ n₁ others R' n') :
    Emits t d a (.staged (e :: es) (r :: temporaries)) R n (code ++ Code.store r :: others) R' n'
  | passingNil {d a R n scope names es} (none : names = [] ∨ es = []) :
    Emits t d a (.passing scope names es) R n [] R n
  | passingCons {d a R n R₁ n₁ R₂ R' n' r code others scope name names e es}
    (plain : e.hasCall = false) (argument : Emits t d a (.expression e) R n code R₁ n₁)
    (register : R₁.getOrReserve name scope = (r, R₂))
    (rest : Emits t d a (.passing scope names es) R₂ n₁ others R' n') :
    Emits t d a (.passing scope (name :: names) (e :: es)) R n
      (code ++ Code.store r :: others) R' n'
  | array {d a R n R' base scope} {i : Identifier} {type : ValueType} (place span : Span)
    (registers : R.reserveArray? i.name scope type.width = some (base, R')) :
    Emits t d a (.statement scope (.assign (.name i) (.new type place) true span)) R n
      (Code.load (.immediate 0) ::
        (List.range type.width).map fun offset => Code.store (base + offset)) R' n
  | assign {d a R n R₁ n₁ R' r code scope} {i : Identifier} {e : Expression} (initial : Bool)
    (span : Span) (value : Emits t d a (.expression e) R n code R₁ n₁)
    (register : R₁.getOrReserve i.name (i.binding.getD scope) = (r, R')) :
    Emits t d a (.statement scope (.assign (.name i) e initial span)) R n
      (code ++ [Code.store r]) R' n₁
  | assignElement {d a R n R₁ n₁ R₂ R₃ n₂ base r code other scope} {i : Identifier}
    {index e : Expression} (initial : Bool) (place span : Span)
    (array : i.binding.bind (R.arrayBase? i.name) = some base)
    (address : Emits t d a (.expression index) R n code R₁ n₁)
    (temporary : R₁.temporary = (r, R₂))
    (value : Emits t d a (.expression e) R₂ n₁ other R₃ n₂) :
    Emits t d a (.statement scope (.assign (.element i index place) e initial span)) R n
      (code ++ [.operate .add (.immediate (.ofNat base)), Code.store r] ++ other ++
        [.operate .store (.pointer r)])
      (R₃.freeTemporary r) n₂
  | branch {d a R n R₁ n₁ R' n' test first scope body} {condition : Expression} (span : Span)
    (tested : Emits t d a (.expression condition) R n test R₁ n₁)
    (inner : Emits t d a (.scope body) R₁ (n₁ + 1) first R' n') :
    Emits t d a (.statement scope (.branch condition body none span)) R n
      (test ++ .jump .jzero ⟨.ifEnd, n₁⟩ :: first ++ [.label ⟨.ifEnd, n₁⟩]) R' n'
  | branchElse {d a R n R₁ n₁ R₂ n₂ R' n' test first second scope body other}
    {condition : Expression} (span : Span)
    (tested : Emits t d a (.expression condition) R n test R₁ n₁)
    (inner : Emits t d a (.scope body) R₁ (n₁ + 2) first R₂ n₂)
    (otherwise : Emits t d a (.scope other) R₂ n₂ second R' n') :
    Emits t d a (.statement scope (.branch condition body (some other) span)) R n
      (test ++ .jump .jzero ⟨.ifElse, n₁ + 1⟩ :: first ++ .jump .goto ⟨.ifEnd, n₁⟩ ::
        .label ⟨.ifElse, n₁ + 1⟩ :: second ++ [.label ⟨.ifEnd, n₁⟩]) R' n'
  | loop {d a R n R₁ n₁ R' n' test code scope body} {condition : Expression} (span : Span)
    (tested : Emits t d a (.expression condition) R (n + 2) test R₁ n₁)
    (inner : Emits t d { a with loop := some (⟨.whileStart, n⟩, ⟨.whileEnd, n + 1⟩) }
      (.scope body) R₁ n₁ code R' n') :
    Emits t d a (.statement scope (.loop condition body span)) R n
      (.label ⟨.whileStart, n⟩ :: test ++ .jump .jzero ⟨.whileEnd, n + 1⟩ :: code ++
        [.jump .goto ⟨.whileStart, n⟩, .label ⟨.whileEnd, n + 1⟩]) R' n'
  | block {d a R n R' n' code scope body} (inner : Emits t d a (.scope body) R n code R' n') :
    Emits t d a (.statement scope (.block body)) R n code R' n'
  | leave {d a R n scope} (span : Span) :
    Emits t d a (.statement scope (.leave span)) R n
      (a.loop.toList.map fun (_, done) => .jump .goto done) R n
  | again {d a R n scope} (span : Span) :
    Emits t d a (.statement scope (.again span)) R n
      (a.loop.toList.map fun (start, _) => .jump .goto start) R n
  | give {d a R n R' n' code scope e} (span : Span)
    (value : Emits t d a (.expression e) R n code R' n') :
    Emits t d a (.statement scope (.give e span)) R n
      (code ++ a.exit.toList.map (.jump .goto)) R' n'
  | evaluate {d a R n R' n' code scope e}
    (value : Emits t d a (.expression e) R n code R' n') :
    Emits t d a (.statement scope (.evaluate e)) R n code R' n'
  | nil {d a R n scope} : Emits t d a (.statements scope []) R n [] R n
  | silent {d a R n R' n' code scope rest} {s : Statement} (silent : s.isSilent = true)
    (others : Emits t d a (.statements scope rest) R n code R' n') :
    Emits t d a (.statements scope (s :: rest)) R n code R' n'
  | cons {d a R n R₁ n₁ R' n' code other scope rest} {s : Statement}
    (first : Emits t d a (.statement scope s) R n code R₁ n₁)
    (others : Emits t d a (.statements scope rest) R₁ n₁ other R' n') :
    Emits t d a (.statements scope (s :: rest)) R n (.comment s.summary :: code ++ other) R' n'
  | scope {d a R n R₁ n' code scope}
    (inner : Emits t d a (.statements scope (t.scope scope).statements.toList) R n code R₁ n') :
    Emits t (d + 1) a (.scope scope) R n code (t.release scope R₁) n'

/-! ### What one step of the emitter did -/

section Steps

variable {st st' : Emitter} {name : String} {scope : ScopeId} {r : Nat}

theorem scalar_ok (h : Emit.scalar name scope st = .ok (r, st')) :
    st.registers.getOrReserve name scope = (r, st'.registers) ∧ st'.nextLabel = st.nextLabel := by
  cases h
  exact ⟨rfl, rfl⟩

theorem temporary_ok (h : Emit.temporary st = .ok (r, st')) :
    st.registers.temporary = (r, st'.registers) ∧ st'.nextLabel = st.nextLabel := by
  cases h
  exact ⟨rfl, rfl⟩

theorem freeTemporary_ok {u : Unit} (h : Emit.freeTemporary r st = .ok (u, st')) :
    st'.registers = st.registers.freeTemporary r ∧ st'.nextLabel = st.nextLabel := by
  cases h
  exact ⟨rfl, rfl⟩

theorem freeAll_ok {rs : List Nat} {u : Unit} (h : Emit.freeAll rs st = .ok (u, st')) :
    st'.registers = rs.reverse.foldl Registers.freeTemporary st.registers ∧
      st'.nextLabel = st.nextLabel := by
  cases h
  exact ⟨rfl, rfl⟩

theorem freshMark_ok {purpose : Purpose} {mark : Mark}
    (h : Emit.freshMark purpose st = .ok (mark, st')) :
    mark = ⟨purpose, st.nextLabel⟩ ∧ st'.registers = st.registers ∧
      st'.nextLabel = st.nextLabel + 1 := by
  cases h
  exact ⟨rfl, rfl, rfl⟩

theorem operation_ok {op : Operator} {left right : Operand} {code : Code}
    (h : Emit.operation op left right st = .ok (code, st')) :
    Operation.code op left right st.nextLabel = (code, st'.nextLabel) ∧
      st'.registers = st.registers := by
  cases h
  exact ⟨rfl, rfl⟩

theorem arrayBase_ok {i : Identifier} {base : Nat} (h : Emit.arrayBase i st = .ok (base, st')) :
    i.binding.bind (st.registers.arrayBase? i.name) = some base ∧ st' = st := by
  unfold Emit.arrayBase at h
  obtain ⟨e, e', he, h⟩ := state_bind_ok h
  cases he
  cases hb : i.binding.bind (st.registers.arrayBase? i.name) with
  | none => rw [hb] at h; cases h
  | some b =>
    rw [hb] at h
    obtain ⟨rfl, rfl⟩ := state_pure_ok h
    exact ⟨rfl, rfl⟩

theorem array_ok {i : Identifier} {size base : Nat}
    (h : Emit.array i scope size st = .ok (base, st')) :
    st.registers.reserveArray? i.name scope size = some (base, st'.registers) ∧
      st'.nextLabel = st.nextLabel := by
  unfold Emit.array at h
  obtain ⟨e, e', he, h⟩ := state_bind_ok h
  cases he
  cases hb : st.registers.reserveArray? i.name scope size with
  | none => rw [hb] at h; cases h
  | some reserved =>
    rw [hb] at h
    obtain ⟨_, e', he, h⟩ := state_bind_ok h
    cases he
    obtain ⟨rfl, rfl⟩ := state_pure_ok h
    exact ⟨rfl, rfl⟩

theorem simple?_ok {e : Expression} {o : Option Operand}
    (h : Emit.simple? e st = .ok (o, st')) :
    st'.nextLabel = st.nextLabel ∧
      ((o = none ∧ st' = st) ∨ ∃ o', o = some o' ∧ Simple st.registers e o' st'.registers) := by
  cases e with
  | number value span =>
    cases h
    exact ⟨rfl, .inr ⟨_, rfl, .number value span⟩⟩
  | name i =>
    obtain ⟨r, st₁, hr, h⟩ := state_bind_ok (x := Emit.scalar _ _) h
    obtain ⟨rfl, rfl⟩ := state_pure_ok h
    obtain ⟨hr, hn⟩ := scalar_ok hr
    exact ⟨hn, .inr ⟨_, rfl, .name hr⟩⟩
  | binary | element | new | call =>
    cases h
    exact ⟨rfl, .inl ⟨rfl, rfl⟩⟩

theorem passStaged_ok : ∀ {pairs : List (String × Nat)} {st st' : Emitter} {code : Code},
    Emit.passStaged scope pairs st = .ok (code, st') →
      Moves scope pairs st.registers code st'.registers ∧ st'.nextLabel = st.nextLabel
  | [], st, st', code, h => by
    cases h
    exact ⟨.nil _, rfl⟩
  | (name, staged) :: rest, st, st', code, h => by
    obtain ⟨r, st₁, hr, h⟩ := state_bind_ok (x := Emit.scalar _ _) h
    obtain ⟨others, st₂, ho, h⟩ := state_bind_ok h
    obtain ⟨rfl, rfl⟩ := state_pure_ok h
    obtain ⟨hr, hn⟩ := scalar_ok hr
    obtain ⟨hmoves, hn'⟩ := passStaged_ok ho
    exact ⟨.cons hr hmoves, hn'.trans hn⟩

theorem callee_ok {t : Tree} {inlining : List StatementId} {i : Identifier}
    {resolved : Option StatementId} {span : Span} {id : StatementId} {parameters body : ScopeId}
    (h : Emit.callee t inlining i resolved span st = .ok ((id, parameters, body), st')) :
    st' = st ∧ resolved = some id ∧ id ∉ inlining ∧
      ∃ f returns place, t.statement? id = some (.function f parameters body returns place) := by
  cases resolved with
  | none => cases h
  | some callee =>
    by_cases hfresh : callee ∈ inlining
    · rw [Emit.callee, if_pos hfresh] at h
      cases h
    · rw [Emit.callee, if_neg hfresh] at h
      cases hs : t.statement? callee with
      | none => rw [hs] at h; cases h
      | some s =>
        rw [hs] at h
        cases s with
        | function f parameters' body' returns place =>
          cases h
          exact ⟨rfl, rfl, hfresh, f, returns, place, hs⟩
        | _ => cases h

end Steps

/-! ### Whatever is emitted has a derivation -/

section Soundness

variable {t : Tree} {d : Nat} {enter : Surroundings → ScopeId → Emit Code}

/-- The code for which there is a derivation, emitted from one state to another. -/
def Derived (t : Tree) (d : Nat) (a : Surroundings) (task : Task) (st : Emitter) (code : Code)
    (st' : Emitter) : Prop :=
  Emits t d a task st.registers st.nextLabel code st'.registers st'.nextLabel

/-- What is handed on as `enter` has derivations. -/
def Derives (t : Tree) (d : Nat) (enter : Surroundings → ScopeId → Emit Code) : Prop :=
  ∀ a scope st code st', enter a scope st = .ok (code, st') →
    Derived t d a (.scope scope) st code st'

variable {a : Surroundings}

/-- The code of a call, behind the code that passes its arguments. -/
theorem inlinedCode_emits (henter : Derives t d enter) {i f : Identifier} {es : List Expression}
    {callee : StatementId}
    {parameters body : ScopeId} {returns : Option ValueType} {place span : Span}
    {passing code : Code} {st st₁ st' : Emitter} (fresh : callee ∉ a.inlining)
    (function : t.statement? callee = some (.function f parameters body returns place))
    (arguments :
      Derived t d a (.arguments parameters (t.declaredNames parameters) es) st passing st₁)
    (h : inlinedCode t enter a callee i.name parameters body passing st₁ = .ok (code, st')) :
    Derived t d a (.expression (.call i es (some callee) span)) st code st' := by
  obtain ⟨exit, st₂, hmark, h⟩ := state_bind_ok (x := Emit.freshMark _) h
  obtain ⟨inner, st₃, hinner, h⟩ := state_bind_ok h
  obtain ⟨_, st₄, hrelease, h⟩ := state_bind_ok h
  obtain ⟨rfl, rfl⟩ := state_pure_ok h
  cases hrelease
  obtain ⟨rfl, hr, hn⟩ := freshMark_ok hmark
  have hbody := henter _ _ _ _ _ hinner
  rw [Derived, hr, hn] at hbody
  exact .call span fresh function arguments hbody

/-- The code of this expression has derivations. -/
def DerivesExpression (t : Tree) (d : Nat) (enter : Surroundings → ScopeId → Emit Code)
    (a : Surroundings) (e : Expression) : Prop :=
  ∀ {st st' : Emitter} {code : Code}, expressionCode t enter a e st = .ok (code, st') →
    Derived t d a (.expression e) st code st'

section Expressions

variable {op : Operator} {left right : Expression} {st st₁ st' : Emitter} {code : Code}

theorem element_emits {i : Identifier} {index : Expression} (span : Span)
    (ih : DerivesExpression t d enter a index) :
    DerivesExpression t d enter a (.element i index span) := by
  intro st st' code h
  rw [expressionCode] at h
  obtain ⟨base, st₁, hbase, h⟩ := state_bind_ok h
  obtain ⟨address, st₂, hindex, h⟩ := state_bind_ok h
  obtain ⟨r, st₃, hr, h⟩ := state_bind_ok h
  obtain ⟨_, st₄, hfree, h⟩ := state_bind_ok h
  obtain ⟨rfl, rfl⟩ := state_pure_ok h
  obtain ⟨hbase, rfl⟩ := arrayBase_ok hbase
  obtain ⟨hr, hn⟩ := temporary_ok hr
  obtain ⟨hfree, hn'⟩ := freeTemporary_ok hfree
  rw [Derived, hfree, hn', hn]
  exact .element span hbase (ih hindex) hr

/-- An operation on two values that are computed. -/
theorem computed_emits (span : Span) (ihl : DerivesExpression t d enter a left)
    (ihr : DerivesExpression t d enter a right)
    (h : (do
      let first ← expressionCode t enter a left
      let l ← Emit.temporary
      let second ← expressionCode t enter a right
      let r ← Emit.temporary
      let code ← Emit.operation op (.register l) (.register r)
      Emit.freeTemporary r
      Emit.freeTemporary l
      return first ++ Code.store l :: second ++ Code.store r :: Code.load (.register l) :: code :
        Emit Code) st = .ok (code, st')) :
    Derived t d a (.expression (.binary op left right span)) st code st' := by
  obtain ⟨first, st₁, hleft, h⟩ := state_bind_ok h
  obtain ⟨l, st₂, hl, h⟩ := state_bind_ok h
  obtain ⟨second, st₃, hright, h⟩ := state_bind_ok h
  obtain ⟨r, st₄, hr, h⟩ := state_bind_ok h
  obtain ⟨opCode, st₅, hop, h⟩ := state_bind_ok h
  obtain ⟨_, st₆, hfree, h⟩ := state_bind_ok h
  obtain ⟨_, st₇, hfree', h⟩ := state_bind_ok h
  obtain ⟨rfl, rfl⟩ := state_pure_ok h
  obtain ⟨hl, hn₂⟩ := temporary_ok hl
  obtain ⟨hr, hn₄⟩ := temporary_ok hr
  obtain ⟨hop, hr₅⟩ := operation_ok hop
  obtain ⟨hfree, hn₆⟩ := freeTemporary_ok hfree
  obtain ⟨hfree', hn₇⟩ := freeTemporary_ok hfree'
  have hcode := ihr hright
  rw [Derived, hn₂] at hcode
  rw [hn₄] at hop
  rw [Derived, hfree', hfree, hr₅, hn₇, hn₆]
  exact .binary span (ihl hleft) hl hcode hr hop

/-- An operation whose right operand needs no code, on a value that is computed. -/
theorem spilled_emits (span : Span) {r : Operand} (ihl : DerivesExpression t d enter a left)
    (second : Simple st.registers right r st₁.registers) (hn : st₁.nextLabel = st.nextLabel)
    (h : (do
      let first ← expressionCode t enter a left
      let spill ← Emit.temporary
      let code ← Emit.operation op (.register spill) r
      Emit.freeTemporary spill
      return first ++ Code.store spill :: code : Emit Code) st₁ = .ok (code, st')) :
    Derived t d a (.expression (.binary op left right span)) st code st' := by
  obtain ⟨first, st₂, hleft, h⟩ := state_bind_ok h
  obtain ⟨spill, st₃, hspill, h⟩ := state_bind_ok h
  obtain ⟨opCode, st₄, hop, h⟩ := state_bind_ok h
  obtain ⟨_, st₅, hfree, h⟩ := state_bind_ok h
  obtain ⟨rfl, rfl⟩ := state_pure_ok h
  obtain ⟨hspill, hn₃⟩ := temporary_ok hspill
  obtain ⟨hop, hr₄⟩ := operation_ok hop
  obtain ⟨hfree, hn₅⟩ := freeTemporary_ok hfree
  have hcode := ihl hleft
  rw [Derived, hn] at hcode
  rw [hn₃] at hop
  rw [Derived, hfree, hr₄, hn₅]
  exact .spilled span second hcode hspill hop

theorem binary_emits (span : Span) (ihl : DerivesExpression t d enter a left)
    (ihr : DerivesExpression t d enter a right) :
    DerivesExpression t d enter a (.binary op left right span) := by
  intro st st' code h
  rw [expressionCode] at h
  obtain ⟨second, st₁, hsecond, hrest⟩ := state_bind_ok h
  clear h
  obtain ⟨hn₁, ⟨rfl, rfl⟩ | ⟨r, rfl, hr⟩⟩ := simple?_ok hsecond
  · exact computed_emits span ihl ihr hrest
  obtain ⟨first, st₂, hfirst, hlast⟩ := state_bind_ok hrest
  clear hrest
  obtain ⟨hn₂, ⟨rfl, rfl⟩ | ⟨l, rfl, hl⟩⟩ := simple?_ok hfirst
  · exact spilled_emits span ihl hr hn₁ hlast
  obtain ⟨opCode, st₃, hop, h⟩ := state_bind_ok hlast
  obtain ⟨rfl, rfl⟩ := state_pure_ok h
  obtain ⟨hop, hr₃⟩ := operation_ok hop
  rw [hn₂, hn₁] at hop
  rw [Derived, hr₃]
  exact .simple span hr hl hop

theorem call_emits (henter : Derives t d enter) {i : Identifier} {es : List Expression}
    {resolved : Option StatementId} (span : Span)
    (ihstaged : ∀ {st st' : Emitter} {code : Code} {temporaries : List Nat},
      stagedCode t enter a es st = .ok ((code, temporaries), st') →
        Derived t d a (.staged es temporaries) st code st')
    (ihpassing : ∀ (scope : ScopeId) (names : List String) {st st' : Emitter} {code : Code},
      es.any Expression.hasCall = false →
        passingCode t enter a scope names es st = .ok (code, st') →
          Derived t d a (.passing scope names es) st code st') :
    DerivesExpression t d enter a (.call i es resolved span) := by
  intro st st' code h
  rw [expressionCode] at h
  obtain ⟨⟨callee, parameters, body⟩, st₁, hcallee, hrest⟩ := state_bind_ok h
  clear h
  obtain ⟨rfl, rfl, hfresh, f, returns, place, hfunction⟩ := callee_ok hcallee
  dsimp only at hrest
  by_cases hcalls : es.any Expression.hasCall = true
  · rw [if_pos hcalls] at hrest
    obtain ⟨⟨staging, staged⟩, st₂, hstaged, hrest⟩ := state_bind_ok hrest
    obtain ⟨moves, st₃, hmoves, hrest⟩ := state_bind_ok hrest
    obtain ⟨_, st₄, hfree, hrest⟩ := state_bind_ok hrest
    obtain ⟨passing, st₅, hpassing, hrest⟩ := state_bind_ok hrest
    obtain ⟨rfl, rfl⟩ := state_pure_ok hpassing
    obtain ⟨hmoves, hn₃⟩ := passStaged_ok hmoves
    obtain ⟨hfree, hn₄⟩ := freeAll_ok hfree
    refine inlinedCode_emits henter hfresh hfunction ?_ hrest
    rw [Derived, hfree, hn₄, hn₃]
    exact .staging hcalls (ihstaged hstaged) hmoves
  · rw [if_neg hcalls] at hrest
    obtain ⟨passing, st₂, hpassing, hrest⟩ := state_bind_ok hrest
    refine inlinedCode_emits henter hfresh hfunction ?_ hrest
    have hplain : es.any Expression.hasCall = false := by simpa using hcalls
    exact .direct hplain (ihpassing parameters _ hplain hpassing)

end Expressions

mutual

/-- **The code of every expression has a derivation.** -/
theorem expressionCode_emits (henter : Derives t d enter) :
    ∀ e : Expression, DerivesExpression t d enter a e
  | .number value span, st, st', code, h => by
    rw [expressionCode] at h
    obtain ⟨rfl, rfl⟩ := state_pure_ok h
    exact .number value span
  | .name i, st, st', code, h => by
    rw [expressionCode] at h
    obtain ⟨r, st₁, hr, h⟩ := state_bind_ok h
    obtain ⟨rfl, rfl⟩ := state_pure_ok h
    obtain ⟨hr, hn⟩ := scalar_ok hr
    rw [Derived, hn]
    exact .name hr
  | .element _ index span, _, _, _, h => element_emits span (expressionCode_emits henter index) h
  | .binary _ left right span, _, _, _, h =>
    binary_emits span (expressionCode_emits henter left) (expressionCode_emits henter right) h
  | .call _ es _ span, _, _, _, h =>
    call_emits henter span (stagedCode_emits henter es)
      (fun scope names => passingCode_emits henter scope names es) h
  | .new _ _, _, _, _, h => by
    rw [expressionCode] at h
    cases h

theorem stagedCode_emits (henter : Derives t d enter) :
    ∀ (es : List Expression) {st st' : Emitter} {code : Code}
    {temporaries : List Nat}, stagedCode t enter a es st = .ok ((code, temporaries), st') →
      Derived t d a (.staged es temporaries) st code st'
  | [], st, st', code, temporaries, h => by
    rw [stagedCode] at h
    cases h
    exact .stagedNil
  | e :: es, st, st', code, temporaries, h => by
    rw [stagedCode] at h
    obtain ⟨argument, st₁, hargument, h⟩ := state_bind_ok h
    obtain ⟨r, st₂, hr, h⟩ := state_bind_ok h
    obtain ⟨⟨others, staged⟩, st₃, hrest, h⟩ := state_bind_ok h
    obtain ⟨heq, rfl⟩ := state_pure_ok h
    cases heq
    obtain ⟨hr, hn⟩ := temporary_ok hr
    have hcode := stagedCode_emits henter es hrest
    rw [Derived, hn] at hcode
    exact .stagedCons (expressionCode_emits henter e hargument) hr hcode

theorem passingCode_emits (henter : Derives t d enter) (scope : ScopeId) :
    ∀ (names : List String) (es : List Expression) {st st' : Emitter} {code : Code},
      es.any Expression.hasCall = false →
        passingCode t enter a scope names es st = .ok (code, st') →
          Derived t d a (.passing scope names es) st code st'
  | [], es, st, st', code, _, h => by
    rw [passingCode] at h
    · cases h
      exact .passingNil (.inl rfl)
    · exact fun _ _ _ _ h => nomatch h
  | name :: names, [], st, st', code, _, h => by
    rw [passingCode] at h
    · cases h
      exact .passingNil (.inr rfl)
    · exact fun _ _ _ _ _ h => nomatch h
  | name :: names, e :: es, st, st', code, hplain, h => by
    rw [List.any_cons, Bool.or_eq_false_iff] at hplain
    rw [passingCode] at h
    obtain ⟨argument, st₁, hargument, h⟩ := state_bind_ok h
    obtain ⟨r, st₂, hr, h⟩ := state_bind_ok h
    obtain ⟨others, st₃, hrest, h⟩ := state_bind_ok h
    obtain ⟨rfl, rfl⟩ := state_pure_ok h
    obtain ⟨hr, hn⟩ := scalar_ok hr
    have hcode := passingCode_emits henter scope names es hplain.2 hrest
    rw [Derived, hn] at hcode
    exact .passingCons hplain.1 (expressionCode_emits henter e hargument) hr hcode

end

theorem scalarAssignment_emits (henter : Derives t d enter) {scope : ScopeId} {initial : Bool}
    {i : Identifier} {e : Expression} {span : Span} {st st' : Emitter} {code : Code}
    (h : (do
      let code ← expressionCode t enter a e
      let register ← Emit.scalar i.name (i.binding.getD scope)
      return code ++ [Code.store register] : Emit Code) st = .ok (code, st')) :
    Derived t d a (.statement scope (.assign (.name i) e initial span)) st code st' := by
  obtain ⟨value, st₁, hvalue, h⟩ := state_bind_ok h
  obtain ⟨r, st₂, hr, h⟩ := state_bind_ok h
  obtain ⟨rfl, rfl⟩ := state_pure_ok h
  obtain ⟨hr, hn⟩ := scalar_ok hr
  rw [Derived, hn]
  exact .assign initial span (expressionCode_emits henter e hvalue) hr

theorem assignmentCode_emits (henter : Derives t d enter) {scope : ScopeId} {initial : Bool}
    {e : Expression} {span : Span} : ∀ (target : Target) {st st' : Emitter} {code : Code},
      assignmentCode t enter a scope initial e target st = .ok (code, st') →
        Derived t d a (.statement scope (.assign target e initial span)) st code st'
  | .name i, st, st', code, h => by
    cases initial with
    | false => exact scalarAssignment_emits henter h
    | true =>
      cases e with
      | new type place =>
        obtain ⟨base, st₁, hbase, h⟩ := state_bind_ok (x := Emit.array _ _ _) h
        obtain ⟨rfl, rfl⟩ := state_pure_ok h
        obtain ⟨hbase, hn⟩ := array_ok hbase
        rw [Derived, hn]
        exact .array place span hbase
      | _ => exact scalarAssignment_emits henter h
  | .element i index place, st, st', code, h => by
    unfold assignmentCode at h
    obtain ⟨⟨target, address⟩, st₁, htarget, h⟩ := state_bind_ok h
    obtain ⟨value, st₂, hvalue, h⟩ := state_bind_ok h
    obtain ⟨_, st₃, hfree, h⟩ := state_bind_ok h
    obtain ⟨rfl, rfl⟩ := state_pure_ok h
    unfold addressCode at htarget
    obtain ⟨base, st₄, hbase, htarget⟩ := state_bind_ok htarget
    obtain ⟨indexCode, st₅, hindex, htarget⟩ := state_bind_ok htarget
    obtain ⟨r, st₆, hr, htarget⟩ := state_bind_ok htarget
    obtain ⟨heq, rfl⟩ := state_pure_ok htarget
    cases heq
    obtain ⟨hbase, rfl⟩ := arrayBase_ok hbase
    obtain ⟨hr, hn⟩ := temporary_ok hr
    obtain ⟨hfree, hn'⟩ := freeTemporary_ok hfree
    have hcode := expressionCode_emits henter e hvalue
    rw [Derived, hn] at hcode
    rw [Derived, hfree, hn']
    exact .assignElement initial place span hbase (expressionCode_emits henter index hindex) hr
      hcode

theorem statementCode_emits (henter : Derives t d enter) {scope : ScopeId} {s : Statement}
    (hs : s.isSilent = false) {st st' : Emitter} {code : Code}
    (h : statementCode t enter a scope s st = .ok (code, st')) :
    Derived t d a (.statement scope s) st code st' := by
  cases s with
  | assign target e initial span => exact assignmentCode_emits henter target h
  | branch condition body otherwise span =>
    unfold statementCode at h
    obtain ⟨test, st₁, htest, h⟩ := state_bind_ok h
    obtain ⟨done, st₂, hdone, h⟩ := state_bind_ok h
    obtain ⟨rfl, hr₂, hn₂⟩ := freshMark_ok hdone
    have htest := expressionCode_emits henter condition htest
    cases otherwise with
    | none =>
      obtain ⟨first, st₃, hfirst, h⟩ := state_bind_ok h
      obtain ⟨rfl, rfl⟩ := state_pure_ok h
      have hfirst := henter _ _ _ _ _ hfirst
      rw [Derived, hr₂, hn₂] at hfirst
      exact .branch span htest hfirst
    | some other =>
      obtain ⟨failed, st₃, hfailed, h⟩ := state_bind_ok h
      obtain ⟨first, st₄, hfirst, h⟩ := state_bind_ok h
      obtain ⟨second, st₅, hsecond, h⟩ := state_bind_ok h
      obtain ⟨rfl, rfl⟩ := state_pure_ok h
      obtain ⟨rfl, hr₃, hn₃⟩ := freshMark_ok hfailed
      have hfirst := henter _ _ _ _ _ hfirst
      rw [Derived, hr₃, hr₂, hn₃, hn₂] at hfirst
      rw [hn₂]
      exact .branchElse span htest hfirst (henter _ _ _ _ _ hsecond)
  | loop condition body span =>
    unfold statementCode at h
    obtain ⟨start, st₁, hstart, h⟩ := state_bind_ok h
    obtain ⟨done, st₂, hdone, h⟩ := state_bind_ok h
    obtain ⟨test, st₃, htest, h⟩ := state_bind_ok h
    obtain ⟨inner, st₄, hinner, h⟩ := state_bind_ok h
    obtain ⟨rfl, rfl⟩ := state_pure_ok h
    obtain ⟨rfl, hr₁, hn₁⟩ := freshMark_ok hstart
    obtain ⟨rfl, hr₂, hn₂⟩ := freshMark_ok hdone
    have htest := expressionCode_emits henter condition htest
    rw [Derived, hr₂, hr₁, hn₂, hn₁] at htest
    have hinner := henter _ _ _ _ _ hinner
    rw [hn₁] at hinner ⊢
    exact .loop span htest hinner
  | block body => exact .block (henter _ _ _ _ _ h)
  | leave span =>
    obtain ⟨rfl, rfl⟩ := state_pure_ok h
    exact .leave span
  | again span =>
    obtain ⟨rfl, rfl⟩ := state_pure_ok h
    exact .again span
  | function | parameter => cases hs
  | give e span =>
    unfold statementCode at h
    obtain ⟨value, st₁, hvalue, h⟩ := state_bind_ok h
    obtain ⟨rfl, rfl⟩ := state_pure_ok h
    exact .give span (expressionCode_emits henter e hvalue)
  | evaluate e => exact .evaluate (expressionCode_emits henter e h)

theorem commentedCode_ok (henter : Derives t d enter) {scope : ScopeId} {s : Statement}
    {st st' : Emitter} {code : Code} (h : commentedCode t enter a scope s st = .ok (code, st')) :
    (s.isSilent = true ∧ code = [] ∧ st' = st) ∨
      ∃ inner, code = .comment s.summary :: inner ∧
        Derived t d a (.statement scope s) st inner st' := by
  cases hs : s.isSilent with
  | true =>
    refine .inl ⟨rfl, ?_⟩
    cases s with
    | function | parameter => cases h; exact ⟨rfl, rfl⟩
    | _ => cases hs
  | false =>
    refine .inr ?_
    have hcode : commentedCode t enter a scope s =
        (statementCode t enter a scope s >>= fun code => pure (.comment s.summary :: code)) := by
      cases s with
      | function | parameter => cases hs
      | _ => rfl
    rw [hcode] at h
    obtain ⟨inner, st₁, hinner, h⟩ := state_bind_ok h
    obtain ⟨rfl, rfl⟩ := state_pure_ok h
    exact ⟨inner, rfl, statementCode_emits henter hs hinner⟩

theorem statements_emits (henter : Derives t d enter) (scope : ScopeId) :
    ∀ (statements : List Statement) {st st' : Emitter} {codes : List Code},
      statements.mapM (commentedCode t enter a scope) st = .ok (codes, st') →
        Derived t d a (.statements scope statements) st codes.flatten st'
  | [], st, st', codes, h => by
    rw [List.mapM_nil] at h
    obtain ⟨rfl, rfl⟩ := state_pure_ok h
    exact .nil
  | s :: statements, st, st', codes, h => by
    rw [List.mapM_cons] at h
    obtain ⟨code, st₁, hfirst, h⟩ := state_bind_ok h
    obtain ⟨others, st₂, hothers, h⟩ := state_bind_ok h
    obtain ⟨rfl, rfl⟩ := state_pure_ok h
    have hrest := statements_emits henter scope statements hothers
    obtain ⟨hs, rfl, rfl⟩ | ⟨inner, rfl, hinner⟩ := commentedCode_ok henter hfirst
    · exact .silent hs hrest
    · exact .cons hinner hrest

/-- **The code of every scope has a derivation.** -/
theorem scopeCode_emits (t : Tree) : ∀ d : Nat, Derives t d (scopeCode t d)
  | 0, a, scope, st, code, st', h => by cases h
  | d + 1, a, scope, st, code, st', h => by
    rw [scopeCode] at h
    obtain ⟨codes, st₁, hcodes, h⟩ := state_bind_ok h
    obtain ⟨_, st₂, hrelease, h⟩ := state_bind_ok h
    obtain ⟨rfl, rfl⟩ := state_pure_ok h
    cases hrelease
    exact .scope (statements_emits (scopeCode_emits t d) scope _ hcodes)

end Soundness

/-- **The assembly of a tree** is the code of its root, and `END`. -/
theorem emit_ok {t : Tree} {e : Emission} (h : t.emit = .ok e) :
    ∃ code R n, Emits t t.emissionDepth {} (.scope rootScope) {} 0 code R n ∧
      e.code = code ++ [.halt] ∧ e.symbols = R.symbols.toList ∧ e.registerCount = R.highest := by
  rw [Tree.emit_eq] at h
  obtain ⟨⟨code, st⟩, hcode, rfl⟩ := map_ok h
  exact ⟨code, st.registers, st.nextLabel, scopeCode_emits t t.emissionDepth _ _ _ _ _ hcode,
    rfl, rfl, rfl⟩

end RegisterMachine.Structured
