import RegisterMachine.Proofs.Structured.Holding
import RegisterMachine.Proofs.Structured.Slots

/-! # What the emitter does with registers

Emitting a part of a tree comes down to a few actions with registers: a scalar or an array is given
registers, a temporary is taken and given back, the names of a scope are given up, and in between
other parts are emitted. Here these actions are carried out one after the other, and a log is kept
of every change and of every part that has been emitted.

* `Action`, `Plan`: the actions for a part of a tree.
* `Moment`, `Logs`: actions that are carried out, with the log.
* `Emits.planned`: whatever is emitted has a log. -/

namespace RegisterMachine.Structured

open RegisterMachine.Assembly

/-! ### Actions -/

/-- **What the emitter does with registers.** -/
inductive Action
  /-- A part of the tree is emitted. -/
  | part (task : Task)
  /-- The register of a scalar is looked up, or reserved if there is none. -/
  | scalar (name : String) (scope : ScopeId)
  | array (name : String) (scope : ScopeId) (size : Nat)
  | temporary
  /-- The latest temporary is given back. -/
  | free
  /-- The names of the scope are given up behind these actions. -/
  | inside (scope : ScopeId) (actions : List Action)

/-- The actions for an operand that needs no code. -/
def Expression.operand? : Expression → Option (List Action)
  | number _ _ => some []
  | name i => some [.scalar i.name (i.binding.getD rootScope)]
  | _ => none

namespace Action

/-- Arguments are computed into temporaries. -/
def staging (es : List Expression) : List Action :=
  es.flatMap fun e => [part (.expression e), temporary]

/-- Arguments are computed into the registers of the parameters. -/
def passing (parameters : ScopeId) (names : List String) (es : List Expression) : List Action :=
  (names.zip es).flatMap fun p => [part (.expression p.2), scalar p.1 parameters]

/-- **The actions for a call**: the arguments are passed and then the body is emitted. If there are
calls among the arguments, these are made before the parameters are given registers. -/
def call (parameters : ScopeId) (names : List String) (es : List Expression)
    (body : List Action) : List Action :=
  if es.any Expression.hasCall then
    staging es ++ [inside parameters ((names.zip es).map (fun p => scalar p.1 parameters) ++
      List.replicate es.length free ++ body)]
  else [inside parameters (passing parameters names es ++ body)]

/-- Statements are emitted, but for declarations of functions and parameters. -/
def statements (scope : ScopeId) (l : List Statement) : List Action :=
  (l.filter (!·.isSilent)).map fun s => part (.statement scope s)

end Action

/-- **The actions for a part of a tree.** -/
inductive Plan (t : Tree) : Task → List Action → Prop
  | number (value : UInt32) (span : Span) : Plan t (.expression (.number value span)) []
  | name (i : Identifier) :
    Plan t (.expression (.name i)) [.scalar i.name (i.binding.getD rootScope)]
  | element (i : Identifier) (index : Expression) (span : Span) :
    Plan t (.expression (.element i index span)) [.part (.expression index), .temporary, .free]
  | simple {left right : Expression} {first second : List Action} (op : Operator) (span : Span)
    (rightOperand : right.operand? = some second) (leftOperand : left.operand? = some first) :
    Plan t (.expression (.binary op left right span)) (second ++ first)
  | spilled {right : Expression} {second : List Action} (op : Operator) (left : Expression)
    (span : Span) (rightOperand : right.operand? = some second) :
    Plan t (.expression (.binary op left right span))
      (second ++ [.part (.expression left), .temporary, .free])
  | binary (op : Operator) (left right : Expression) (span : Span) :
    Plan t (.expression (.binary op left right span))
      [.part (.expression left), .temporary, .part (.expression right), .temporary, .free, .free]
  | call {callee : StatementId} {parameters body : ScopeId} (i : Identifier) (es : List Expression)
    (span : Span) (function : t.Function callee parameters body) :
    Plan t (.expression (.call i es (some callee) span))
      (Action.call parameters (t.declaredNames parameters) es [.part (.scope body)])
  | array (scope : ScopeId) (i : Identifier) (type : ValueType) (place span : Span) :
    Plan t (.statement scope (.assign (.name i) (.new type place) true span))
      [.array i.name scope type.width]
  | assign {e : Expression} (scope : ScopeId) (i : Identifier) (initial : Bool) (span : Span)
    (value : ∀ type place, e ≠ .new type place) :
    Plan t (.statement scope (.assign (.name i) e initial span))
      [.part (.expression e), .scalar i.name (i.binding.getD scope)]
  | assignElement (scope : ScopeId) (i : Identifier) (index e : Expression) (initial : Bool)
    (place span : Span) :
    Plan t (.statement scope (.assign (.element i index place) e initial span))
      [.part (.expression index), .temporary, .part (.expression e), .free]
  | branch (scope : ScopeId) (condition : Expression) (body : ScopeId)
    (otherwise : Option ScopeId) (span : Span) :
    Plan t (.statement scope (.branch condition body otherwise span))
      (.part (.expression condition) :: .part (.scope body) ::
        otherwise.toList.map fun other => .part (.scope other))
  | loop (scope : ScopeId) (condition : Expression) (body : ScopeId) (span : Span) :
    Plan t (.statement scope (.loop condition body span))
      [.part (.expression condition), .part (.scope body)]
  | block (scope body : ScopeId) : Plan t (.statement scope (.block body)) [.part (.scope body)]
  | leave (scope : ScopeId) (span : Span) : Plan t (.statement scope (.leave span)) []
  | again (scope : ScopeId) (span : Span) : Plan t (.statement scope (.again span)) []
  | give (scope : ScopeId) (e : Expression) (span : Span) :
    Plan t (.statement scope (.give e span)) [.part (.expression e)]
  | evaluate (scope : ScopeId) (e : Expression) :
    Plan t (.statement scope (.evaluate e)) [.part (.expression e)]
  | scope (id : ScopeId) :
    Plan t (.scope id) [.inside id (Action.statements id (t.scope id).statements.toList)]

/-! ### The log -/

/-- **What is written to the log.** -/
inductive Moment
  /-- Registers were handed out, or a temporary was given back. -/
  | changed (before after : Registers)
  /-- The names of a scope were given up, which was inside these scopes, the innermost first. -/
  | left (active : List ScopeId) (scope : ScopeId) (before after : Registers)
  /-- A part was emitted, inside these scopes. That of the parameters is among them from when the
  arguments are passed until the call is over. -/
  | emitted (active : List ScopeId) (task : Task) (before after : Registers)

/-- **Actions that are carried out**, inside these scopes and with these registers, their log and
the registers behind them. Every part has code. -/
inductive Logs (t : Tree) :
    List ScopeId → List Action → Registers → List Moment → Registers → Prop
  | nil {active : List ScopeId} {R : Registers} : Logs t active [] R [] R
  | part {active task actions rest R log R₁ log' R' d a n code n'}
    (emits : Emits t d a task R n code R₁ n') (plan : Plan t task actions)
    (inner : Logs t active actions R log R₁) (others : Logs t active rest R₁ log' R') :
    Logs t active (.part task :: rest) R (log ++ .emitted active task R R₁ :: log') R'
  | inside {active scope actions rest R log R₁ log' R'}
    (inner : Logs t (scope :: active) actions R log R₁)
    (others : Logs t active rest (t.release scope R₁) log' R') :
    Logs t active (.inside scope actions :: rest) R
      (log ++ .left active scope R₁ (t.release scope R₁) :: log') R'
  | scalar {active name scope rest r R R₁ log R'}
    (register : R.getOrReserve name scope = (r, R₁)) (others : Logs t active rest R₁ log R') :
    Logs t active (.scalar name scope :: rest) R (.changed R R₁ :: log) R'
  | array {active name scope size rest base R R₁ log R'}
    (registers : R.reserveArray? name scope size = some (base, R₁))
    (others : Logs t active rest R₁ log R') :
    Logs t active (.array name scope size :: rest) R (.changed R R₁ :: log) R'
  | temporary {active rest r R R₁ log R'} (register : R.temporary = (r, R₁))
    (others : Logs t active rest R₁ log R') :
    Logs t active (.temporary :: rest) R (.changed R R₁ :: log) R'
  | free {active rest r R log R'} (latest : R.temporaries.head? = some r)
    (others : Logs t active rest (R.freeTemporary r) log R') :
    Logs t active (.free :: rest) R (.changed R (R.freeTemporary r) :: log) R'

section Append

variable {t : Tree} {active : List ScopeId} {l l' : List Action} {R R₁ R' : Registers}
  {log log' : List Moment}

/-- **One after the other.** -/
theorem Logs.append (h : Logs t active l R log R₁) (h' : Logs t active l' R₁ log' R') :
    Logs t active (l ++ l') R (log ++ log') R' := by
  induction h with
  | nil => exact h'
  | part emits plan inner _ _ ih =>
    rw [List.append_assoc]
    exact .part emits plan inner (ih h')
  | inside inner _ _ ih =>
    rw [List.append_assoc]
    exact .inside inner (ih h')
  | scalar register _ ih => exact .scalar register (ih h')
  | array registers _ ih => exact .array registers (ih h')
  | temporary register _ ih => exact .temporary register (ih h')
  | free latest _ ih => exact .free latest (ih h')

end Append

/-! ### Whatever is emitted has a log -/

/-- The actions can be carried out, whatever is logged. -/
def Does (t : Tree) (active : List ScopeId) (actions : List Action) (R R' : Registers) : Prop :=
  ∃ log, Logs t active actions R log R'

/-- **What emitting a part does is planned**, whatever scopes it is inside. -/
def Task.Planned (t : Tree) (R R' : Registers) : Task → Prop
  | staged es temporaries => temporaries.length = es.length ∧
    ∀ active, Does t active (Action.staging es) R R'
  | passing parameters names es => ∀ active, Does t active (Action.passing parameters names es) R R'
  | arguments parameters names es => ∀ active body R'', Does t (parameters :: active) body R' R'' →
    Does t active (Action.call parameters names es body) R (t.release parameters R'')
  | statements id l => ∀ active, Does t active (Action.statements id l) R R'
  | task => ∃ actions, Plan t task actions ∧ ∀ active, Does t active actions R R'

section Does

variable {t : Tree} {active : List ScopeId} {rest l l' : List Action} {R R₁ R' : Registers}
  {name : String} {scope : ScopeId} {r : Nat}

namespace Does

theorem nil : Does t active [] R R := ⟨[], .nil⟩

theorem append (h : Does t active l R R₁) (h' : Does t active l' R₁ R') :
    Does t active (l ++ l') R R' := by
  obtain ⟨log, h⟩ := h
  obtain ⟨log', h'⟩ := h'
  exact ⟨_, h.append h'⟩

theorem scalar (register : R.getOrReserve name scope = (r, R₁)) (h : Does t active rest R₁ R') :
    Does t active (.scalar name scope :: rest) R R' := by
  obtain ⟨log, h⟩ := h
  exact ⟨_, .scalar register h⟩

theorem temporary (register : R.temporary = (r, R₁)) (h : Does t active rest R₁ R') :
    Does t active (.temporary :: rest) R R' := by
  obtain ⟨log, h⟩ := h
  exact ⟨_, .temporary register h⟩

theorem free (latest : R.temporaries.head? = some r)
    (h : Does t active rest (R.freeTemporary r) R') : Does t active (.free :: rest) R R' := by
  obtain ⟨log, h⟩ := h
  exact ⟨_, .free latest h⟩

theorem inside (h : Does t (scope :: active) l R R₁) :
    Does t active [.inside scope l] R (t.release scope R₁) := by
  obtain ⟨log, h⟩ := h
  exact ⟨_, .inside h .nil⟩

theorem part {d : Nat} {a : Surroundings} {task : Task} {n n' : Nat} {code : Code}
    (emits : Emits t d a task R n code R₁ n')
    (planned : ∃ actions, Plan t task actions ∧ ∀ active, Does t active actions R R₁)
    (h : Does t active rest R₁ R') : Does t active (.part task :: rest) R R' := by
  obtain ⟨actions, plan, hdoes⟩ := planned
  obtain ⟨log, inner⟩ := hdoes active
  obtain ⟨log', h⟩ := h
  exact ⟨_, .part emits plan inner h⟩

/-- The latest temporaries are given back. -/
theorem freeAll {rs base : List Nat} (latest : R.temporaries = rs ++ base) :
    Does t active (List.replicate rs.length .free) R
      (rs.foldl Registers.freeTemporary R) := by
  induction rs generalizing R with
  | nil => exact nil
  | cons r rs ih =>
    refine .free (by rw [latest]; rfl) (ih ?_)
    rw [Registers.freeTemporary, latest]
    exact List.erase_cons_head ..

end Does

theorem temporaries_temporary (h : R.temporary = (r, R')) : R'.temporaries = r :: R.temporaries :=
  (Registers.leads_temporary (fun _ => False) h).temporaries

theorem temporary_latest (h : R.temporary = (r, R')) : R'.temporaries.head? = some r := by
  rw [temporaries_temporary h]
  rfl

theorem Simple.does {e : Expression} {o : Operand} (h : Simple R e o R') :
    ∃ actions, e.operand? = some actions ∧ ∀ active, Does t active actions R R' := by
  cases h with
  | number => exact ⟨[], rfl, fun _ => .nil⟩
  | name register => exact ⟨_, rfl, fun _ => .scalar register .nil⟩

theorem Moves.does {pairs : List (String × Nat)} {code : Code} (h : Moves scope pairs R code R') :
    Does t active (pairs.map fun p => .scalar p.1 scope) R R' := by
  induction h with
  | nil => exact .nil
  | cons register _ ih => exact .scalar register ih

/-- The parameters are given up like the names of any scope. -/
theorem Tree.release_parameters (housed : t.Housed) (signed : t.Signed) {id : StatementId}
    {parameters body : ScopeId} (hf : t.Function id parameters body) (R : Registers) :
    (t.declaredNames parameters).foldl (fun R name => R.release name parameters) R =
      t.release parameters R := by
  rw [declaredNames, List.foldl_map, release]
  refine List.foldl_ext _ _ _ fun R i hi => ?_
  obtain ⟨s, hs, hdeclared⟩ := List.mem_filterMap.mp hi
  obtain ⟨i', rfl⟩ := signed id parameters body hf s hs
  cases hdeclared
  obtain ⟨index, hplace⟩ := exists_place hs
  have hplain := housed.parameters _ i hplace
  unfold Emit.releaseName
  split
  · rename_i hi
    rw [Site.namesArray, hi] at hplain
    cases hplain
  · rfl

/-- Declarations of functions and parameters have no code. -/
theorem Emits.loud {d : Nat} {a : Surroundings} {s : Statement} {n n' : Nat} {code : Code}
    (h : Emits t d a (.statement scope s) R n code R' n') : s.isSilent = false := by
  cases h <;> rfl

theorem map_zip_fst {α β γ δ : Type} (f : α → δ) (l : List α) {m : List β} {m' : List γ}
    (h : m.length = m'.length) :
    (l.zip m).map (fun p => f p.1) = (l.zip m').map (fun p => f p.1) := by
  induction l generalizing m m' with
  | nil => rfl
  | cons a l ih =>
    cases m with
    | nil =>
      cases m' with
      | nil => rfl
      | cons => cases h
    | cons b m =>
      cases m' with
      | nil => cases h
      | cons c m' => simp [ih (Nat.succ.inj h)]

end Does

/-- **Whatever is emitted is planned**, so it has a log. -/
theorem Emits.planned {t : Tree} (housed : t.Housed) (signed : t.Signed) {d : Nat}
    {a : Surroundings} {task : Task} {R R' : Registers} {n n' : Nat} {code : Code}
    (h : Emits t d a task R n code R' n') : task.Planned t R R' := by
  induction h with
  | number value span => exact ⟨[], .number value span, fun _ => .nil⟩
  | name register => exact ⟨_, .name _, fun _ => .scalar register .nil⟩
  | element span array address temporary ih =>
    exact ⟨_, .element .., fun active => .part address ih
      (.temporary temporary (.free (temporary_latest temporary) .nil))⟩
  | simple span second first operation =>
    obtain ⟨actions, hsecond, hdoes⟩ := second.does
    obtain ⟨actions', hfirst, hdoes'⟩ := first.does
    exact ⟨_, .simple _ span hsecond hfirst, fun active => (hdoes active).append (hdoes' active)⟩
  | spilled span second leftCode temporary operation ih =>
    obtain ⟨actions, hsecond, hdoes⟩ := second.does
    exact ⟨_, .spilled _ _ span hsecond, fun active => (hdoes active).append
      (.part leftCode ih (.temporary temporary (.free (temporary_latest temporary) .nil)))⟩
  | binary span leftCode leftTemporary rightCode rightTemporary operation ihl ihr =>
    refine ⟨_, .binary .., fun active => .part leftCode ihl (.temporary leftTemporary
      (.part rightCode ihr (.temporary rightTemporary ?_)))⟩
    refine .free (temporary_latest rightTemporary) (.free ?_ .nil)
    rw [Registers.freeTemporary, temporaries_temporary rightTemporary, List.erase_cons_head,
      rightCode.leads.temporaries]
    exact temporary_latest leftTemporary
  | call span fresh function arguments inlined iha ihb =>
    refine ⟨_, .call _ _ span ⟨_, _, _, function⟩, fun active => ?_⟩
    rw [Tree.release_parameters housed signed ⟨_, _, _, function⟩]
    exact iha active _ _ (.part inlined ihb .nil)
  | direct plain passing ih =>
    intro active body R'' hbody
    rw [Action.call, if_neg (Bool.eq_false_iff.mp plain)]
    exact .inside ((ih _).append hbody)
  | @staging _ _ R _ _ _ R₂ _ _ scope names es temporaries calls staged moved ih =>
    intro active body R'' hbody
    obtain ⟨hlength, hstaged⟩ := ih
    have hmoves := map_zip_fst (fun name => Action.scalar name scope) names hlength
    have hfree : R₂.temporaries = temporaries.reverse ++ R.temporaries := by
      rw [(moved.leads fun _ => False).temporaries]
      exact staged.leads.temporaries
    have hfrees : Does t (scope :: active) (List.replicate temporaries.reverse.length .free) R₂ _ :=
      Does.freeAll hfree
    rw [List.length_reverse, hlength] at hfrees
    rw [Action.call, if_pos calls, ← hmoves]
    exact (hstaged active).append (.inside (.append (.append moved.does hfrees) hbody))
  | stagedNil => exact ⟨rfl, fun _ => .nil⟩
  | stagedCons argument temporary rest iha ihr =>
    obtain ⟨hlength, hrest⟩ := ihr
    exact ⟨congrArg Nat.succ hlength, fun active =>
      .part argument iha (.temporary temporary (hrest active))⟩
  | passingNil none =>
    intro active
    rcases none with rfl | rfl
    · exact .nil
    · rw [Action.passing, List.zip_nil_right]
      exact .nil
  | passingCons plain argument register rest iha ihr =>
    exact fun active => .part argument iha (.scalar register (ihr active))
  | array place span registers =>
    exact ⟨_, .array .., fun active => ⟨_, .array registers .nil⟩⟩
  | assign initial span value register ih =>
    refine ⟨_, .assign _ _ initial span ?_, fun active => .part value ih (.scalar register .nil)⟩
    rintro type place rfl
    cases value
  | assignElement initial place span array address temporary value iha ihv =>
    refine ⟨_, .assignElement .., fun active => .part address iha (.temporary temporary
      (.part value ihv (.free ?_ .nil)))⟩
    rw [value.leads.temporaries]
    exact temporary_latest temporary
  | branch span tested inner iht ihi =>
    exact ⟨_, .branch .., fun active => .part tested iht (.part inner ihi .nil)⟩
  | branchElse span tested inner otherwise iht ihi iho =>
    exact ⟨_, .branch .., fun active =>
      .part tested iht (.part inner ihi (.part otherwise iho .nil))⟩
  | loop span tested inner iht ihi =>
    exact ⟨_, .loop .., fun active => .part tested iht (.part inner ihi .nil)⟩
  | block inner ih => exact ⟨_, .block .., fun active => .part inner ih .nil⟩
  | leave span => exact ⟨[], .leave _ span, fun _ => .nil⟩
  | again span => exact ⟨[], .again _ span, fun _ => .nil⟩
  | give span value ih => exact ⟨_, .give .., fun active => .part value ih .nil⟩
  | evaluate value ih => exact ⟨_, .evaluate .., fun active => .part value ih .nil⟩
  | nil => exact fun _ => .nil
  | silent silent others ih =>
    intro active
    rw [Action.statements, List.filter_cons_of_neg (by simp [silent])]
    exact ih active
  | cons first others ihf iho =>
    intro active
    rw [Action.statements, List.filter_cons_of_pos (by simp [first.loud])]
    exact .part first ihf (iho active)
  | scope inner ih => exact ⟨_, .scope _, fun active => .inside (ih _)⟩

end RegisterMachine.Structured
