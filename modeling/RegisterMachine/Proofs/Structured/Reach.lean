import Mathlib.Logic.Relation
import RegisterMachine.Proofs.Structured.Derivation

/-! # The scopes that a part of a tree reaches

Running a part of a tree runs the scopes inside it and the bodies of the functions that it calls,
and these run others. A part of a tree that has code reaches no scope from itself, for the code of
the scope would have to be inside itself.

* `Visits`, `Called`, `Touches`: the scopes that a part runs, the functions that it calls, and the
  scopes whose names it may declare, parameters among them.
* `Emits.ends`: the ways from a scope that has code come to an end, so it is not visited from
  itself.
* `Apart`: a part of a tree leaves these scopes alone, with `Apart.mono`, `Apart.inside` and
  `Apart.body` for the parts of the part. -/

namespace RegisterMachine.Structured

/-! ### Calls and bodies of one part -/

namespace Expression

mutual

/-- The functions that the calls in an expression are bound to. -/
def callees : Expression → List StatementId
  | binary _ left right _ => left.callees ++ right.callees
  | element _ index _ => index.callees
  | call _ arguments resolved _ => calleesOf arguments ++ resolved.toList
  | name _ | number _ _ | new _ _ => []

def calleesOf : List Expression → List StatementId
  | [] => []
  | e :: rest => e.callees ++ calleesOf rest

end

theorem callees_of_plain : ∀ (e : Expression), e.hasCall = false → e.callees = []
  | .name _, _ | .number _ _, _ | .new _ _, _ => rfl
  | .binary _ left right _, h => by
    rw [hasCall, Bool.or_eq_false_iff] at h
    rw [callees, callees_of_plain left h.1, callees_of_plain right h.2, List.append_nil]
  | .element _ index _, h => by
    rw [hasCall] at h
    rw [callees, callees_of_plain index h]

theorem calleesOf_of_plain : ∀ (es : List Expression),
    es.any hasCall = false → calleesOf es = []
  | [], _ => rfl
  | e :: es, h => by
    rw [List.any_cons, Bool.or_eq_false_iff] at h
    rw [calleesOf, callees_of_plain e h.1, calleesOf_of_plain es h.2, List.append_nil]

end Expression

/-- The functions that a statement calls in its own expressions. -/
def Statement.callees : Statement → List StatementId
  | assign (.name _) e _ _ => e.callees
  | assign (.element _ index _) e _ _ => index.callees ++ e.callees
  | branch e _ _ _ | loop e _ _ | give e _ | evaluate e => e.callees
  | block _ | leave _ | again _ | function _ _ _ _ _ | parameter _ => []

/-- The scopes that a statement may run. -/
def Statement.bodies : Statement → List ScopeId
  | branch _ body otherwise _ => body :: otherwise.toList
  | loop _ body _ | block body => [body]
  | _ => []

namespace Task

def callees : Task → List StatementId
  | expression e => e.callees
  | staged es _ | arguments _ _ es => Expression.calleesOf es
  | statement _ s => s.callees
  | statements _ l => l.flatMap Statement.callees
  | passing _ _ _ | scope _ => []

def bodies : Task → List ScopeId
  | expression _ | staged _ _ | passing _ _ _ | arguments _ _ _ => []
  | statement _ s => s.bodies
  | statements _ l => l.flatMap Statement.bodies
  | scope id => [id]

/-- The scope that statements are a part of. -/
def home? : Task → Option ScopeId
  | statement id _ | statements id _ => some id
  | _ => none

/-- All statements of a scope. -/
def inside (t : Tree) (id : ScopeId) : Task := statements id (t.scope id).statements.toList

end Task

/-! ### Reaching on -/

section Reach

variable {t : Tree} {task task' : Task} {a b c x : ScopeId} {id id' : StatementId}
  {parameters body : ScopeId}

/-- A function with its parameters and its body. -/
def Tree.Function (t : Tree) (id : StatementId) (parameters body : ScopeId) : Prop :=
  ∃ f returns place, t.statement? id = some (.function f parameters body returns place)

theorem Tree.Function.unique {parameters' body' : ScopeId} (h : t.Function id parameters body)
    (h' : t.Function id parameters' body') : parameters = parameters' ∧ body = body' := by
  obtain ⟨f, returns, place, h⟩ := h
  obtain ⟨f', returns', place', h'⟩ := h'
  rw [h] at h'
  cases h'
  exact ⟨rfl, rfl⟩

/-- The part runs this scope by a statement or a call of its own. -/
def Opens (t : Tree) (task : Task) (b : ScopeId) : Prop :=
  b ∈ task.bodies ∨ ∃ id ∈ task.callees, ∃ parameters, t.Function id parameters b

/-- The statements of a scope run another scope. -/
def Enters (t : Tree) (a b : ScopeId) : Prop := Opens t (.inside t a) b

/-- **The part runs this scope**, by itself or by a scope that it runs. -/
def Visits (t : Tree) (task : Task) (x : ScopeId) : Prop :=
  ∃ b, Opens t task b ∧ Relation.ReflTransGen (Enters t) b x

/-- **The part calls this function**, by itself or in a scope that it runs. -/
def Called (t : Tree) (task : Task) (id : StatementId) : Prop :=
  id ∈ task.callees ∨ ∃ x, Visits t task x ∧ id ∈ (Task.inside t x).callees

/-- **The part may declare names in this scope**: it runs it, or passes arguments to it. -/
def Touches (t : Tree) (task : Task) (x : ScopeId) : Prop :=
  Visits t task x ∨ ∃ id body, Called t task id ∧ t.Function id x body

theorem Visits.next (h : Visits t task a) (hb : Enters t a b) : Visits t task b := by
  obtain ⟨c, hc, hca⟩ := h
  exact ⟨c, hc, hca.tail hb⟩

theorem Called.visits (h : Called t task id) (hf : t.Function id parameters body) :
    Visits t task body := by
  rcases h with h | ⟨x, hx, h⟩
  · exact ⟨body, .inr ⟨id, h, parameters, hf⟩, .refl⟩
  · exact hx.next (.inr ⟨id, h, parameters, hf⟩)

/-- All that one part runs and calls, another part runs and calls too. -/
structure Sub (t : Tree) (task' task : Task) : Prop where
  bodies : ∀ b ∈ task'.bodies, Visits t task b
  callees : ∀ id ∈ task'.callees, Called t task id

namespace Sub

theorem visits (h : Sub t task' task) (hx : Visits t task' x) : Visits t task x := by
  obtain ⟨b, hb, hbx⟩ := hx
  have hvisits : Visits t task b := by
    rcases hb with hb | ⟨id, hid, parameters, hf⟩
    · exact h.bodies b hb
    · exact (h.callees id hid).visits hf
  obtain ⟨c, hc, hcb⟩ := hvisits
  exact ⟨c, hc, hcb.trans hbx⟩

theorem called (h : Sub t task' task) (hid : Called t task' id) : Called t task id := by
  rcases hid with hid | ⟨x, hx, hid⟩
  · exact h.callees id hid
  · exact .inr ⟨x, h.visits hx, hid⟩

theorem touches (h : Sub t task' task) (hx : Touches t task' x) : Touches t task x := by
  rcases hx with hx | ⟨id, body, hid, hf⟩
  · exact .inl (h.visits hx)
  · exact .inr ⟨id, body, h.called hid, hf⟩

/-- A part whose calls and bodies are among those of another. -/
theorem of_subset (hb : ∀ b ∈ task'.bodies, b ∈ task.bodies)
    (hc : ∀ id ∈ task'.callees, id ∈ task.callees) : Sub t task' task :=
  ⟨fun b h => ⟨b, .inl (hb b h), .refl⟩, fun id h => .inl (hc id h)⟩

/-- The first of two parts. -/
theorem first {l : List ScopeId} {m : List StatementId} (hb : task.bodies = task'.bodies ++ l)
    (hc : task.callees = task'.callees ++ m) : Sub t task' task :=
  of_subset (fun _ h => hb ▸ List.mem_append_left _ h) (fun _ h => hc ▸ List.mem_append_left _ h)

/-- The second of two parts. -/
theorem second {l : List ScopeId} {m : List StatementId} (hb : task.bodies = l ++ task'.bodies)
    (hc : task.callees = m ++ task'.callees) : Sub t task' task :=
  of_subset (fun _ h => hb ▸ List.mem_append_right _ h) (fun _ h => hc ▸ List.mem_append_right _ h)

theorem inside (t : Tree) (scope : ScopeId) : Sub t (.inside t scope) (.scope scope) := by
  have hself : Visits t (.scope scope) scope := ⟨scope, .inl (List.mem_singleton_self _), .refl⟩
  exact ⟨fun b hb => hself.next (.inl hb), fun id hid => .inr ⟨scope, hself, hid⟩⟩

/-- The body of a function that is called. -/
theorem of_call (h : id ∈ task.callees) (hf : t.Function id parameters body) :
    Sub t (.scope body) task := by
  refine ⟨fun b hb => ?_, fun _ h => nomatch h⟩
  rw [List.mem_singleton.mp hb]
  exact ⟨body, .inr ⟨id, h, parameters, hf⟩, .refl⟩

end Sub

/-- **The parts of a part**, apart from bodies of functions and what is inside a scope. -/
inductive Part : Task → Task → Prop
  | index (i : Identifier) (index : Expression) (span : Span) :
    Part (.expression index) (.expression (.element i index span))
  | left (op : Operator) (left right : Expression) (span : Span) :
    Part (.expression left) (.expression (.binary op left right span))
  | right (op : Operator) (left right : Expression) (span : Span) :
    Part (.expression right) (.expression (.binary op left right span))
  | arguments (parameters : ScopeId) (names : List String) (i : Identifier)
    (es : List Expression) (resolved : Option StatementId) (span : Span) :
    Part (.arguments parameters names es) (.expression (.call i es resolved span))
  | passing (parameters : ScopeId) (names : List String) (es : List Expression) :
    Part (.passing parameters names es) (.arguments parameters names es)
  | staged (parameters : ScopeId) (names : List String) (es : List Expression)
    (temporaries : List Nat) : Part (.staged es temporaries) (.arguments parameters names es)
  | stagedHead (e : Expression) (es : List Expression) (temporaries : List Nat) :
    Part (.expression e) (.staged (e :: es) temporaries)
  | stagedTail (e : Expression) (es : List Expression) (temporaries others : List Nat) :
    Part (.staged es others) (.staged (e :: es) temporaries)
  | passingHead (parameters : ScopeId) (names : List String) (e : Expression)
    (es : List Expression) (plain : e.hasCall = false) :
    Part (.expression e) (.passing parameters names (e :: es))
  | passingTail (parameters : ScopeId) (names others : List String) (e : Expression)
    (es : List Expression) :
    Part (.passing parameters others es) (.passing parameters names (e :: es))
  | value (scope : ScopeId) (i : Identifier) (e : Expression) (initial : Bool) (span : Span) :
    Part (.expression e) (.statement scope (.assign (.name i) e initial span))
  | place (scope : ScopeId) (i : Identifier) (index e : Expression) (initial : Bool)
    (place span : Span) :
    Part (.expression index) (.statement scope (.assign (.element i index place) e initial span))
  | content (scope : ScopeId) (i : Identifier) (index e : Expression) (initial : Bool)
    (place span : Span) :
    Part (.expression e) (.statement scope (.assign (.element i index place) e initial span))
  | test (scope : ScopeId) (e : Expression) (body : ScopeId) (otherwise : Option ScopeId)
    (span : Span) : Part (.expression e) (.statement scope (.branch e body otherwise span))
  | body (scope : ScopeId) (e : Expression) (body : ScopeId) (otherwise : Option ScopeId)
    (span : Span) : Part (.scope body) (.statement scope (.branch e body otherwise span))
  | otherwise (scope : ScopeId) (e : Expression) (body other : ScopeId) (span : Span) :
    Part (.scope other) (.statement scope (.branch e body (some other) span))
  | loopTest (scope : ScopeId) (e : Expression) (body : ScopeId) (span : Span) :
    Part (.expression e) (.statement scope (.loop e body span))
  | loopBody (scope : ScopeId) (e : Expression) (body : ScopeId) (span : Span) :
    Part (.scope body) (.statement scope (.loop e body span))
  | block (scope body : ScopeId) : Part (.scope body) (.statement scope (.block body))
  | give (scope : ScopeId) (e : Expression) (span : Span) :
    Part (.expression e) (.statement scope (.give e span))
  | evaluate (scope : ScopeId) (e : Expression) :
    Part (.expression e) (.statement scope (.evaluate e))
  | head (scope : ScopeId) (s : Statement) (rest : List Statement) :
    Part (.statement scope s) (.statements scope (s :: rest))
  | tail (scope : ScopeId) (s : Statement) (rest : List Statement) :
    Part (.statements scope rest) (.statements scope (s :: rest))

theorem Part.sub (t : Tree) (h : Part task' task) : Sub t task' task := by
  have plain : ∀ {e}, e.hasCall = false → ∀ task, Sub t (.expression e) task := fun {e} he task =>
    .of_subset (fun _ h => nomatch h)
      (fun _ h => nomatch Expression.callees_of_plain e he ▸ (show _ ∈ e.callees from h))
  cases h with
  | left | arguments | stagedHead | place | head => exact .first rfl rfl
  | test | loopTest => exact .first rfl (List.append_nil _).symm
  | right | stagedTail | content =>
    exact .of_subset (fun _ h => nomatch h) (fun _ h => List.mem_append_right _ h)
  | otherwise => exact .of_subset (fun _ h => List.mem_cons_of_mem _ h) (fun _ h => nomatch h)
  | tail => exact .second rfl rfl
  | passing | passingTail => exact .of_subset (fun _ h => nomatch h) (fun _ h => nomatch h)
  | passingHead _ _ _ _ he => exact plain he _
  | body =>
    refine .of_subset (fun _ h => ?_) (fun _ h => nomatch h)
    rw [List.mem_singleton.mp h]
    exact List.mem_cons_self
  | loopBody | block => exact .of_subset (fun _ h => h) (fun _ h => nomatch h)
  | index | staged | value | give | evaluate =>
    exact .of_subset (fun _ h => nomatch h) (fun _ h => h)

/-- The statements among the parts belong to the same scope. -/
theorem Part.home (h : Part task' task) : task'.home? = none ∨ task'.home? = task.home? := by
  cases h <;> first | exact .inl rfl | exact .inr rfl

theorem visits_inside_iff {s x : ScopeId} :
    Visits t (.inside t s) x ↔ Relation.TransGen (Enters t) s x :=
  ⟨fun ⟨_, hb, hbx⟩ => .head' hb hbx, fun h => Relation.TransGen.head'_iff.mp h⟩

/-! ### No scope with code reaches itself -/

/-- The scopes that are reached from this one end somewhere. -/
def Ends (t : Tree) (s : ScopeId) : Prop := Acc (fun b a => Enters t a b) s

theorem Ends.not_visits (h : Ends t a) : ¬ Visits t (.inside t a) a := by
  rw [visits_inside_iff]
  induction h with
  | intro a _ ih =>
    intro hcycle
    obtain ⟨b, hab, hba⟩ := Relation.TransGen.head'_iff.mp hcycle
    exact ih b hab (.tail' hba hab)

theorem Ends.of_visits (h : ∀ b, Opens t task b → Ends t b) (hx : Visits t task x) : Ends t x := by
  obtain ⟨b, hb, hbx⟩ := hx
  have hend := h b hb
  clear hb
  induction hbx with
  | refl => exact hend
  | tail _ hlast ih => exact ih.inv hlast

end Reach

/-- All that a part opens ends somewhere. -/
structure Ended (t : Tree) (task : Task) : Prop where
  bodies : ∀ b ∈ task.bodies, Ends t b
  callees : ∀ id ∈ task.callees, ∀ parameters body, t.Function id parameters body → Ends t body

theorem Ended.of_append {t : Tree} {task task₁ task₂ : Task} (h₁ : Ended t task₁)
    (h₂ : Ended t task₂) (hb : task.bodies = task₁.bodies ++ task₂.bodies)
    (hc : task.callees = task₁.callees ++ task₂.callees) : Ended t task := by
  refine ⟨fun b h => ?_, fun id h => ?_⟩
  · rw [hb, List.mem_append] at h
    exact h.elim (h₁.bodies b) (h₂.bodies b)
  · rw [hc, List.mem_append] at h
    exact h.elim (h₁.callees id) (h₂.callees id)

theorem Ended.of_eq {t : Tree} {task task' : Task} (h : Ended t task')
    (hb : task.bodies = task'.bodies) (hc : task.callees = task'.callees) : Ended t task := by
  refine ⟨fun b hmem => h.bodies b (hb ▸ hmem), fun id hmem => h.callees id (hc ▸ hmem)⟩

theorem Simple.callees {R R' : Registers} {e : Expression} {o : Assembly.Operand}
    (h : Simple R e o R') :
    e.callees = [] := by
  cases h <;> rfl

theorem Statement.callees_of_isSilent {s : Statement} (h : s.isSilent = true) :
    s.callees = [] ∧ s.bodies = [] := by
  cases s <;> first | exact ⟨rfl, rfl⟩ | cases h

/-- **What is opened by a part with code ends somewhere.** -/
theorem Emits.ended {t : Tree} {d : Nat} {a : Surroundings} {task : Task} {R R' : Registers}
    {n n' : Nat} {code : Code} (h : Emits t d a task R n code R' n') : Ended t task := by
  have nothing : ∀ task : Task, task.bodies = [] → task.callees = [] → Ended t task := by
    intro task hb hc
    exact ⟨by simp [hb], by simp [hc]⟩
  induction h with
  | number | name | stagedNil | passingNil | passingCons | array | leave | again | nil =>
    exact nothing _ rfl rfl
  | element _ _ _ _ ih | staging _ _ _ ih | assign _ _ _ _ ih | block _ ih | give _ _ ih
  | evaluate _ ih => exact ih.of_eq rfl rfl
  | binary _ _ _ _ _ _ ih ih' | stagedCons _ _ _ ih ih' | assignElement _ _ _ _ _ _ _ ih ih'
  | cons _ _ ih ih' => exact ih.of_append ih' rfl rfl
  | branch _ _ _ ih ih' | loop _ _ _ ih ih' =>
    exact ih.of_append ih' rfl (List.append_nil _).symm
  | @simple _ _ _ _ _ _ _ _ _ _ _ left right _ second first =>
    refine nothing _ rfl ?_
    show left.callees ++ right.callees = []
    rw [first.callees, second.callees, List.append_nil]
  | @spilled _ _ _ _ _ _ _ _ _ _ _ _ _ _ left right _ second _ _ _ ih =>
    refine ih.of_eq rfl ?_
    show left.callees ++ right.callees = left.callees
    rw [second.callees, List.append_nil]
  | @call _ _ _ _ _ _ _ _ _ _ _ body _ f _ _ returns place _ _ function _ _ ih ih' =>
    refine ⟨fun b h => (nomatch h), fun id h parameters' body' hf => ?_⟩
    rcases List.mem_append.mp h with h | h
    · exact ih.callees id h parameters' body' hf
    · cases List.mem_singleton.mp h
      obtain ⟨-, rfl⟩ := Tree.Function.unique ⟨f, returns, place, function⟩ hf
      exact ih'.bodies body (List.mem_singleton_self body)
  | direct plain => exact nothing _ rfl (Expression.calleesOf_of_plain _ plain)
  | branchElse _ _ _ _ ih ih' ih'' =>
    refine ⟨fun b h => ?_, ih.callees⟩
    rcases List.mem_cons.mp h with rfl | h
    · exact ih'.bodies b (List.mem_singleton_self b)
    · exact ih''.bodies b h
  | silent silent _ ih =>
    obtain ⟨hc, hb⟩ := Statement.callees_of_isSilent silent
    refine ih.of_eq ?_ ?_
    · rw [Task.bodies, List.flatMap_cons, hb]
      rfl
    · rw [Task.callees, List.flatMap_cons, hc]
      rfl
  | @scope _ _ _ _ _ _ _ scope _ ih =>
    refine ⟨fun b h => ?_, fun _ h => (nomatch h)⟩
    rw [List.mem_singleton.mp h]
    refine Acc.intro _ fun c hc => ?_
    rcases hc with hc | ⟨id, hid, parameters, hf⟩
    · exact ih.bodies c hc
    · exact ih.callees id hid parameters c hf

theorem Emits.ends {t : Tree} {d : Nat} {a : Surroundings} {task : Task} {R R' : Registers}
    {n n' : Nat} {code : Code} (h : Emits t d a task R n code R' n') {x : ScopeId}
    (hx : Visits t task x) : Ends t x := by
  refine Ends.of_visits (fun b hb => ?_) hx
  rcases hb with hb | ⟨id, hid, parameters, hf⟩
  · exact h.ended.bodies b hb
  · exact h.ended.callees id hid parameters b hf

/-! ### Parts that leave scopes alone -/

/-- **Each function has parameters of its own**, and they are nobody's body. -/
structure Tree.Separate (t : Tree) : Prop where
  unique : ∀ {id id' parameters body body'}, t.Function id parameters body →
    t.Function id' parameters body' → id = id'
  not_entered : ∀ {id parameters body a}, t.Function id parameters body → ¬ Enters t a parameters
  not_root : ∀ {id parameters body}, t.Function id parameters body → parameters ≠ rootScope

/-- **The part declares no name in the active scopes.** No scope that it visits holds the parameters
of a function, or is visited from itself. -/
structure Apart (t : Tree) (active : List ScopeId) (task : Task) : Prop where
  away : ∀ x, Touches t task x → x ∉ active
  proper : ∀ x, Visits t task x → ∀ id body, ¬ t.Function id x body
  ends : ∀ x, Visits t task x → Ends t x

namespace Apart

variable {t : Tree} {active : List ScopeId} {task task' : Task}

theorem mono (h : Apart t active task) (hsub : Sub t task' task) : Apart t active task' :=
  ⟨fun x hx => h.away x (hsub.touches hx), fun x hx => h.proper x (hsub.visits hx),
    fun x hx => h.ends x (hsub.visits hx)⟩

theorem part (h : Apart t active task) (hpart : Part task' task) : Apart t active task' :=
  h.mono (hpart.sub t)

/-- A scope is left alone by its own statements. -/
theorem inside {s : ScopeId} (h : Apart t active (.scope s)) :
    Apart t (s :: active) (.inside t s) := by
  have hself : Visits t (.scope s) s := ⟨s, .inl (List.mem_singleton_self s), .refl⟩
  obtain ⟨away, proper, ends⟩ := h.mono (Sub.inside t s)
  refine ⟨fun x hx hmem => ?_, proper, ends⟩
  rcases List.mem_cons.mp hmem with rfl | hmem
  · rcases hx with hx | ⟨id, body, -, hf⟩
    · exact (h.ends x hself).not_visits hx
    · exact h.proper x hself id body hf
  · exact away x hx hmem

/-- The parameters of a function are left alone by its body. -/
theorem body {id : StatementId} {parameters body : ScopeId} (separate : t.Separate)
    (h : Apart t active task) (hid : id ∈ task.callees) (hf : t.Function id parameters body) :
    Apart t (parameters :: active) (.scope body) := by
  obtain ⟨away, proper, ends⟩ := h.mono (Sub.of_call hid hf)
  refine ⟨fun x hx hmem => ?_, proper, ends⟩
  rcases List.mem_cons.mp hmem with rfl | hmem
  · rcases hx with hx | ⟨id', body', hcalled, hf'⟩
    · exact proper x hx id body hf
    · obtain rfl := separate.unique hf' hf
      rcases hcalled with hcalled | ⟨y, ⟨b, hb, hby⟩, hcalled⟩
      · exact nomatch hcalled
      · rcases hb with hb | ⟨_, hb, _⟩
        · obtain rfl := List.mem_singleton.mp hb
          have hcycle : Enters t y b := .inr ⟨id', hcalled, x, hf⟩
          have hself : Visits t (.scope b) b := ⟨b, .inl (List.mem_singleton_self b), .refl⟩
          exact (ends b hself).not_visits (visits_inside_iff.mpr (.tail' hby hcycle))
        · exact nomatch hb
  · exact away x hx hmem

end Apart

/-- The code of the root leaves nothing alone but the root. -/
theorem Emits.apart {t : Tree} {d : Nat} {a : Surroundings} {R R' : Registers} {n n' : Nat}
    {code : Code} (separate : t.Separate)
    (h : Emits t d a (.scope rootScope) R n code R' n') : Apart t [] (.scope rootScope) := by
  refine ⟨fun _ _ => List.not_mem_nil, fun x hx id body hf => ?_, fun x hx => h.ends hx⟩
  obtain ⟨b, hb, hbx⟩ := hx
  rcases Relation.ReflTransGen.cases_tail hbx with rfl | ⟨c, -, hc⟩
  · rcases hb with hb | ⟨_, hb, _⟩
    · exact separate.not_root hf (List.mem_singleton.mp hb)
    · exact nomatch hb
  · exact separate.not_entered hf hc

end RegisterMachine.Structured
