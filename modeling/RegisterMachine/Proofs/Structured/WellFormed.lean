import RegisterMachine.Proofs.Structured.Lexical

/-! # Trees as the later passes need them

The passes behind the parser take much for granted: that the scopes form a tree, that a jump has a
loop around it and a `return` a function with a type, that conditions compare, and that arrays are
indexed. The parser checks all of it while it reads, by its surroundings and by what is declared so
far.

* `Tree.InLoop`, `Tree.Returns`: what is around a scope, as the tree says.
* `Statement.Regular`: conditions, arrays and their sizes.
* `Tree.WellFormed`: all of it.
* `Formed`: what reading keeps of the scopes; `Builds.allowed`: the surroundings of the parser are
  those of the tree.
* `parse_wellFormed`: every tree that is read. -/

namespace RegisterMachine.Structured

open RegisterMachine.Success RegisterMachine.Structured.Parser

/-! ### Scopes and what is around them -/

/-- **The scopes that a statement opens**, each with its parent: the body of a function is inside
the scope of the parameters, every other one inside the scope of the statement. -/
def Statement.nested (scope : ScopeId) : Statement → List (ScopeId × ScopeId)
  | branch _ body otherwise _ => otherwise.toList.map (·, scope) ++ [(body, scope)]
  | loop _ body _ | block body => [(body, scope)]
  | function _ parameters body _ _ => [(body, parameters), (parameters, scope)]
  | _ => []

theorem Statement.map_nested (s : Statement) (scope : ScopeId) :
    (s.nested scope).map Prod.fst = s.opened := by
  cases s with
  | branch condition body otherwise => cases otherwise <;> rfl
  | _ => rfl

/-- **The scope is in the body of a loop**, and in no function inside it. -/
inductive Tree.InLoop (t : Tree) : ScopeId → Prop
  | body {id : StatementId} {condition : Expression} {inner : ScopeId} {span : Span}
    (loop : t.statement? id = some (.loop condition inner span)) : t.InLoop inner
  | nested {id : StatementId} {s : Statement} {inner : ScopeId}
    (statement : t.statement? id = some s) (same : s.isFunction = false)
    (opened : inner ∈ s.opened) (around : t.InLoop id.scope) :
    t.InLoop inner

/-- **The innermost function around the scope** declares this type to return. -/
inductive Tree.Returns (t : Tree) : ScopeId → Option ValueType → Prop
  | body {id : StatementId} {i : Identifier} {parameters inner : ScopeId} {type : Option ValueType}
    {span : Span} (function : t.statement? id = some (.function i parameters inner type span)) :
    t.Returns inner type
  | nested {id : StatementId} {s : Statement} {inner : ScopeId} {type : Option ValueType}
    (statement : t.statement? id = some s) (same : s.isFunction = false) (opened : inner ∈ s.opened)
    (around : t.Returns id.scope type) : t.Returns inner type

/-- **A statement has around it what it needs.** -/
def Statement.Allowed (t : Tree) (scope : ScopeId) : Statement → Prop
  | leave _ | again _ => t.InLoop scope
  | give _ _ => ∃ type, t.Returns scope (some type)
  | _ => True

/-! ### Conditions and arrays -/

mutual

/-- **Names of arrays have an index, and no others**; and there is no `new`. -/
def Expression.Indexed : Expression → Prop
  | .name i => Site.namesArray i = false
  | .number _ _ => True
  | .binary _ left right _ => left.Indexed ∧ right.Indexed
  | .element i index _ => Site.namesArray i = true ∧ index.Indexed
  | .new _ _ => False
  | .call _ arguments _ _ => Expression.AllIndexed arguments

def Expression.AllIndexed : List Expression → Prop
  | [] => True
  | e :: rest => e.Indexed ∧ Expression.AllIndexed rest

end

theorem Expression.allIndexed_of_forall {es : List Expression} (h : ∀ e ∈ es, e.Indexed) :
    Expression.AllIndexed es := by
  induction es with
  | nil => trivial
  | cons e es ih =>
    exact ⟨h e List.mem_cons_self, ih fun e he => h e (List.mem_cons_of_mem _ he)⟩

/-- **Conditions compare, and arrays are what `new` gives**: a declaration is of an array exactly if
its initial value is a `new` of that array, and there is no other `new`. -/
def Statement.Regular : Statement → Prop
  | assign (.name i) e true _ =>
    (∃ element size place, e = .new (.array element size) place ∧
      i.type = some (.array element size) ∧ (element = .int ∨ element = .bool) ∧
      1 ≤ size ∧ size ≤ Machine.maxRegisters) ∨
    Site.namesArray i = false ∧ e.Indexed
  | assign (.name i) e false _ => (Expression.name i).Indexed ∧ e.Indexed
  | assign (.element i index place) e initial _ =>
    initial = false ∧ (Expression.element i index place).Indexed ∧ e.Indexed
  | branch condition _ _ _ | loop condition _ _ =>
    Parser.isComparison condition = true ∧ condition.Indexed
  | give e _ | evaluate e => e.Indexed
  | parameter i => Site.namesArray i = false
  | block _ | leave _ | again _ | function _ _ _ _ _ => True

/-! ### Well-formed trees -/

/-- **What the passes behind the parser take for granted.** -/
structure Tree.WellFormed (t : Tree) : Prop where
  /-- The root is in no other scope. -/
  root : rootScope < t.scopes.size ∧ (t.scope rootScope).shared = []
  /-- Every other scope was opened by a statement, inside its parent, which has a smaller number. -/
  parent : ∀ x < t.scopes.size, x ≠ rootScope → ∃ id s outer, t.statement? id = some s ∧
    (x, outer) ∈ s.nested id.scope ∧ (t.scope x).shared = [outer] ∧ outer < x
  /-- No statement opens the root, or a scope that there is not. -/
  range : ∀ id s, t.statement? id = some s → ∀ x ∈ s.opened, x ≠ rootScope ∧ x < t.scopes.size
  /-- No two statements open the same scope, -/
  once : ∀ id id' s s' x, t.statement? id = some s → t.statement? id' = some s' → x ∈ s.opened →
    x ∈ s'.opened → id = id'
  /-- and none opens a scope twice. -/
  nodup : ∀ id s, t.statement? id = some s → s.opened.Nodup
  /-- Jumps are in loops, and `return` in a function that declares a type. -/
  allowed : ∀ id s, t.statement? id = some s → s.Allowed t id.scope
  regular : ∀ id s, t.statement? id = some s → s.Regular
  /-- No scope declares a name twice, -/
  declarations : ∀ id id' s s' i i', t.statement? id = some s → t.statement? id' = some s' →
    id'.scope = id.scope → s.declared? = some i → s'.declared? = some i' → i'.name = i.name →
    id' = id
  /-- or a function. -/
  functions : ∀ id id' s s' name, t.statement? id = some s → t.statement? id' = some s' →
    id'.scope = id.scope → s.declaresFunction name = true → s'.declaresFunction name = true →
    id' = id
  /-- The type of a name that is used is that of its declaration. -/
  types : ∀ id s, t.statement? id = some s → ∀ j ∈ s.names, ∃ id' s' i,
    t.statement? id' = some s' ∧ s'.declared? = some i ∧ j.binding = some id'.scope ∧
    i.name = j.name ∧ i.type = j.type

/-! ### What is parsed is regular -/

namespace Parser

section Regular

variable {T : Token → Prop} {t : Tree} {scope : ScopeId} {around : Surroundings}

theorem Parses.indexed {e : Expression} (h : Parses T t scope e) : e.Indexed := by
  induction h with
  | number => trivial
  | name _ scalar => exact scalar
  | binary _ _ _ ih ih' => exact ⟨ih, ih'⟩
  | element _ array _ _ ih => exact ⟨array, ih⟩
  | call _ _ _ _ ih => exact Expression.allIndexed_of_forall ih

theorem Forms.regular {s : Statement} (h : Forms T t scope around s) : s.Regular := by
  cases h with
  | array _ type scalar positive fits =>
    exact .inl ⟨_, _, _, rfl, type, scalar, positive, fits⟩
  | declare _ scalar value => exact .inr ⟨namesArray_of_isScalar scalar, value.indexed⟩
  | assign target value => exact ⟨target.indexed, value.indexed⟩
  | assignElement target value => exact ⟨rfl, target.indexed, value.indexed⟩
  | leave | again => trivial
  | evaluate value => exact value.indexed

theorem Made.regular {s : Statement} (h : Made T t scope s) : s.Regular := by
  cases h with
  | plain forms => exact forms.regular
  | give gives =>
    obtain ⟨e, span, rfl, value, -⟩ := gives
    exact value.indexed
  | loop condition | branch condition => exact ⟨condition.comparison, condition.value.indexed⟩
  | parameter _ scalar => exact namesArray_of_isScalar scalar
  | block | function => trivial

/-- Statements without bodies open no scope, and they declare no function. -/
theorem Forms.closed {s : Statement} (h : Forms T t scope around s) :
    s.opened = [] ∧ ∀ name, s.declaresFunction name = false := by
  cases h <;> exact ⟨rfl, fun _ => rfl⟩

end Regular

end Parser

/-! ### What reading keeps of the scopes -/

/-- **What reading keeps**: the scopes form a tree, but for the pending ones, which are still to be
given to a statement. -/
structure Formed (pending : List ScopeId) (t : Tree) : Prop where
  owned : Owned pending t
  root : (t.scope rootScope).shared = []
  inside : ∀ x < t.scopes.size, x ≠ rootScope → ∃ outer < x, (t.scope x).shared = [outer]
  given : ∀ x < t.scopes.size, x ≠ rootScope → x ∉ pending →
    ∃ id s, t.statement? id = some s ∧ x ∈ s.opened
  nested : ∀ id s, t.statement? id = some s → ∀ p ∈ s.nested id.scope, (t.scope p.1).shared = [p.2]
  functions : ∀ id id' s s' name, t.statement? id = some s → t.statement? id' = some s' →
    id'.scope = id.scope → s.declaresFunction name = true → s'.declaresFunction name = true →
    id' = id

/-- A statement that was just put into a scope is at its end. -/
theorem Tree.statement?_push_self {t : Tree} {scope : ScopeId} {s : Statement}
    (h : scope < t.scopes.size) : (t.push scope s).statement? (t.placeIn scope) = some s := by
  rw [statement?_eq, placeIn, Parser.scope_push_self h]
  exact Array.getElem?_push_size

namespace Formed

variable {pending : List ScopeId} {t : Tree} {scope : ScopeId} {s : Statement}

theorem empty : Formed [] {} where
  owned := Owned.empty
  root := rfl
  inside x hx hroot := absurd (Nat.lt_one_iff.mp hx) hroot
  given x hx hroot := absurd (Nat.lt_one_iff.mp hx) hroot
  nested id s hs := absurd hs (by rw [Drafted.statement?_empty]; nofun)
  functions id _ s _ _ hs := absurd hs (by rw [Drafted.statement?_empty]; nofun)

/-- A new scope is pending, inside one that was opened before. -/
theorem addScope (h : Formed pending t) (hscope : scope < t.scopes.size) :
    Formed (t.scopes.size :: pending) (t.addScope [scope]).1 := by
  have hstatement := Drafted.statement?_addScope t [scope]
  have hlast : ∀ {x}, x < (t.addScope [scope]).1.scopes.size →
      x < t.scopes.size ∨ x = t.scopes.size := by
    intro x hx
    rw [size_addScope] at hx
    omega
  obtain ⟨owned, root, inside, given, nested, functions⟩ := h
  refine ⟨owned.addScope [scope], ?_, ?_, ?_, ?_, ?_⟩
  · have hroot : rootScope < t.scopes.size := owned.nonempty
    rw [scope_addScope_of_lt hroot]
    exact root
  · intro x hx hroot
    obtain hx | rfl := hlast hx
    · rw [scope_addScope_of_lt hx]
      exact inside x hx hroot
    · exact ⟨scope, hscope, by rw [scope_addScope_self]⟩
  · intro x hx hroot hpending
    obtain ⟨hnew, hpending⟩ := not_or.mp (mt List.mem_cons.mpr hpending)
    obtain ⟨id, s, hs, hmem⟩ := given x ((hlast hx).resolve_right hnew) hroot hpending
    exact ⟨id, s, by rwa [hstatement], hmem⟩
  · intro id s hs p hp
    rw [hstatement] at hs
    have hmem : p.1 ∈ s.opened := s.map_nested id.scope ▸ List.mem_map_of_mem hp
    rw [scope_addScope_of_lt (owned.range id s hs p.1 hmem).2]
    exact nested id s hs p hp
  · intro id id' s s' name hs hs'
    rw [hstatement] at hs hs'
    exact functions id id' s s' name hs hs'

/-- **A statement is put into a scope**, and it is given the scopes that were opened for it. -/
theorem push (h : Formed (s.opened ++ pending) t) (hscope : scope < t.scopes.size)
    (hnested : ∀ p ∈ s.nested scope, (t.scope p.1).shared = [p.2])
    (hfresh : ∀ name, s.declaresFunction name = true → t.FreshFunction scope name) :
    Formed pending (t.push scope s) := by
  have hgrows := (Grown.push t scope s).grows
  obtain ⟨owned, root, inside, given, nested, functions⟩ := h
  refine ⟨owned.push, ?_, ?_, ?_, ?_, ?_⟩
  · rw [shared_push]
    exact root
  · intro x hx
    rw [size_push] at hx
    rw [shared_push]
    exact inside x hx
  · intro x hx hroot hpending
    rw [size_push] at hx
    by_cases hmem : x ∈ s.opened
    · exact ⟨_, s, Tree.statement?_push_self hscope, hmem⟩
    · obtain ⟨id, s', hs', hmem⟩ := given x hx hroot (by simp [hmem, hpending])
      exact ⟨id, s', hgrows id s' hs', hmem⟩
  · intro id s' hs' p hp
    rw [shared_push]
    rcases Drafted.statement?_push hs' with hs' | ⟨rfl, rfl⟩
    · exact nested id s' hs' p hp
    · exact hnested p hp
  · intro id id' s₁ s₂ name hs₁ hs₂ hsame h₁ h₂
    rcases Drafted.statement?_push hs₁ with hold₁ | ⟨rfl, rfl⟩ <;>
      rcases Drafted.statement?_push hs₂ with hold₂ | ⟨rfl, rfl⟩
    · exact functions id id' s₁ s₂ name hold₁ hold₂ hsame h₁ h₂
    · exact absurd h₁ (by simp [(hfresh name h₂).declares hold₁ hsame.symm])
    · exact absurd h₂ (by simp [(hfresh name h₁).declares hold₂ hsame])
    · rfl

/-- A statement without bodies is put into a scope. -/
theorem single (h : Formed pending t) (hscope : scope < t.scopes.size)
    (hclosed : s.opened = [] ∧ ∀ name, s.declaresFunction name = false) :
    Formed pending (t.push scope s) := by
  refine push (by rwa [hclosed.1]) hscope (fun p hp => ?_) fun name hname => ?_
  · have hmem : p.1 ∈ s.opened := s.map_nested scope ▸ List.mem_map_of_mem hp
    rw [hclosed.1] at hmem
    cases hmem
  · rw [hclosed.2] at hname
    cases hname

end Formed

namespace Parser

theorem BuildsParameters.formed {T : Token → Prop} {scope : ScopeId} {t t' : Tree}
    {ps : List Identifier} {pending : List ScopeId} (hps : BuildsParameters T scope t ps t')
    (hscope : scope < t.scopes.size) (h : Formed pending t) : Formed pending t' := by
  induction hps with
  | nil => exact h
  | cons _ _ _ ih =>
    exact ih (by rwa [size_push]) (h.single hscope ⟨rfl, fun _ => rfl⟩)

theorem Grown.freshFunction {t t' : Tree} {scope : ScopeId} {name : String}
    (h : Grown t t' scope []) (hscope : scope < t.scopes.size)
    (hfresh : t.FreshFunction scope name) : t'.FreshFunction scope name := by
  rw [Tree.FreshFunction, h.own hscope, Array.append_empty]
  exact hfresh

/-- **A body** is in a new scope, which is pending behind it. -/
structure BodyFormed (pending : List ScopeId) (scope inner : ScopeId) (t : Tree) : Prop where
  formed : Formed (inner :: pending) t
  shared : (t.scope inner).shared = [scope]
  scope_lt : scope < t.scopes.size
  inner_lt : inner < t.scopes.size

theorem bodyFormed {t t' : Tree} {pending : List ScopeId} {scope : ScopeId} {l : List Statement}
    (h : Formed pending t) (hscope : scope < t.scopes.size)
    (body : Grown (t.addScope [scope]).1 t' t.scopes.size l)
    (keeps : ∀ {pending : List ScopeId}, t.scopes.size < (t.addScope [scope]).1.scopes.size →
      Formed pending (t.addScope [scope]).1 → Formed pending t') :
    BodyFormed pending scope t.scopes.size t' where
  formed := keeps (by simp) (h.addScope hscope)
  shared := by rw [body.shared (by simp), scope_addScope_self]
  scope_lt := Nat.lt_of_lt_of_le hscope (body.inside scope).size
  inner_lt := Nat.lt_of_lt_of_le (by simp) body.size

/-- **The scopes stay a tree** while statements are put into them. -/
theorem Builds.formed {d d' : Draft} {scope : ScopeId} {around : Surroundings}
    {l : List Statement} {used : List Token} (h : Builds d scope around l used d') :
    ∀ {pending : List ScopeId}, scope < d.tree.scopes.size → Formed pending d.tree →
      Formed pending d'.tree := by
  induction h with
  | nil => exact fun _ hd => hd
  | cons first _ ih ih' =>
    exact fun hscope hd => ih' (Nat.lt_of_lt_of_le hscope first.grown.size) (ih hscope hd)
  | plain statement => exact fun hscope hd => hd.single hscope statement.closed
  | give _ statement =>
    intro pending hscope hd
    obtain ⟨e, span, rfl, -⟩ := statement
    exact hd.single hscope ⟨rfl, fun _ => rfl⟩
  | block opened body ih | loop _ _ opened body ih | branch _ _ opened body ih =>
    intro pending hscope hd
    cases opened
    obtain ⟨hformed, hshared, hlt, -⟩ := bodyFormed hd hscope body.grown ih
    exact hformed.push hlt (by simp [Statement.nested, hshared]) nofun
  | branchElse _ _ opened body opened' otherwise ih ih' =>
    intro pending hscope hd
    cases opened
    cases opened'
    obtain ⟨hformed, hshared, hlt, hinner⟩ := bodyFormed hd hscope body.grown ih
    obtain ⟨hformed', hshared', hlt', -⟩ := bodyFormed hformed hlt otherwise.grown ih'
    have hkept := (otherwise.grown.inside rootScope).shared hinner
    exact hformed'.push hlt' (by simp [Statement.nested, hshared', hkept, hshared]) nofun
  | @function d _ _ _ _ scope _ _ _ _ _ _ _ _ _ titles _ opened parameters opened' body _ ih =>
    intro pending hscope hd
    obtain ⟨rfl, rfl⟩ := addScope_ok opened
    obtain ⟨rfl, rfl⟩ := addScope_ok opened'
    obtain ⟨hformed, hshared, hlt, hinner⟩ :=
      bodyFormed hd hscope parameters.grown fun hlt h => parameters.formed hlt h
    obtain ⟨hformed', hshared', -, -⟩ := bodyFormed hformed hinner body.grown ih
    have hheader : Grown d.tree _ scope [] := parameters.grown.inside scope
    have hbody := body.grown.inside scope
    have hkept := hbody.shared hinner
    refine hformed'.push (Nat.lt_of_lt_of_le hlt hbody.size) ?_ fun name hname => ?_
    · simp [Statement.nested, hshared', hkept, hshared]
    · rw [← beq_iff_eq.mp hname]
      exact (hheader.trans hbody).freshFunction hscope titles.fresh

/-! ### What is around a scope -/

theorem Builds.returned {d d' : Draft} {scope : ScopeId} {around : Surroundings}
    {l : List Statement} {used : List Token} (h : Builds d scope around l used d') :
    d.returned = true → d'.returned = true := by
  induction h with
  | nil | plain | function => exact id
  | cons _ _ ih ih' => exact fun hd => ih' (ih hd)
  | give => exact fun _ => rfl
  | block opened _ ih | loop _ _ opened _ ih | branch _ _ opened _ ih =>
    cases opened
    exact ih
  | branchElse _ _ opened _ opened' _ ih ih' =>
    cases opened
    cases opened'
    exact fun hd => ih' (ih hd)

/-- All statements of `t` have around them what they need, in the tree that `t` becomes. -/
def Allows (tree t : Tree) : Prop :=
  ∀ id s, t.statement? id = some s → s.Allowed tree id.scope

theorem Allows.push {tree t : Tree} {scope : ScopeId} {s : Statement} (h : Allows tree t)
    (hs : s.Allowed tree scope) : Allows tree (t.push scope s) := by
  intro id s' hs'
  rcases Drafted.statement?_push hs' with hs' | ⟨rfl, rfl⟩
  · exact h id s' hs'
  · exact hs

theorem Allows.addScope {tree t : Tree} (h : Allows tree t) (shared : List ScopeId) :
    Allows tree (t.addScope shared).1 := by
  intro id s hs
  rw [Drafted.statement?_addScope] at hs
  exact h id s hs

theorem BuildsParameters.allowed {T : Token → Prop} {scope : ScopeId} {t t' tree : Tree}
    {ps : List Identifier} (hps : BuildsParameters T scope t ps t') (h : Allows tree t) :
    Allows tree t' := by
  induction hps with
  | nil => exact h
  | cons _ _ _ ih => exact ih (h.push trivial)

/-- **What the parser has around it is around the scope.** -/
structure Around (tree : Tree) (scope : ScopeId) (around : Surroundings) (returned : Bool) :
    Prop where
  loop : around.inLoop = true → tree.InLoop scope
  function : around.inFunction = true → returned = true → ∃ type, tree.Returns scope (some type)

section Around

variable {t tree : Tree} {scope inner : ScopeId} {around : Surroundings} {returned returned' : Bool}
  {s : Statement}

theorem Around.sooner (h : Around tree scope around returned)
    (hreturned : returned' = true → returned = true) : Around tree scope around returned' :=
  ⟨h.loop, fun hfunction hgives => h.function hfunction (hreturned hgives)⟩

/-- Blocks and branches change nothing of what is around them. -/
theorem Around.nested (h : Around tree scope around returned)
    (hgrows : (t.push scope s).Grows tree) (hscope : scope < t.scopes.size)
    (same : s.isFunction = false) (opened : inner ∈ s.opened) :
    Around tree inner around returned := by
  have hs := hgrows _ _ (Tree.statement?_push_self hscope)
  refine ⟨fun hloop => .nested hs same opened (h.loop hloop), fun hfunction hgives => ?_⟩
  obtain ⟨type, htype⟩ := h.function hfunction hgives
  exact ⟨type, .nested hs same opened htype⟩

end Around

/-- **Statements have around them what they need**, in every tree that the draft becomes. -/
theorem Builds.allowed {d d' : Draft} {scope : ScopeId} {around : Surroundings}
    {l : List Statement} {used : List Token} {tree : Tree} (h : Builds d scope around l used d') :
    scope < d.tree.scopes.size → d'.tree.Grows tree → Around tree scope around d'.returned →
      Allows tree d.tree → Allows tree d'.tree := by
  induction h with
  | nil => exact fun _ _ _ hd => hd
  | cons first rest ih ih' =>
    intro hscope hgrows haround hd
    exact ih' (Nat.lt_of_lt_of_le hscope first.grown.size) hgrows haround
      (ih hscope (rest.grown.grows.trans hgrows) (haround.sooner rest.returned) hd)
  | plain statement =>
    intro hscope hgrows haround hd
    refine hd.push ?_
    cases statement with
    | leave inLoop | again inLoop => exact haround.loop inLoop
    | _ => trivial
  | give inFunction statement =>
    intro hscope hgrows haround hd
    obtain ⟨e, span, rfl, -⟩ := statement
    exact hd.push (haround.function inFunction rfl)
  | block opened body ih | branch _ _ opened body ih =>
    intro hscope hgrows haround hd
    have hlt := Nat.lt_of_lt_of_le hscope (body.grown.opened opened).size
    cases opened
    exact (ih (by simp) ((Grown.push _ _ _).grows.trans hgrows)
      (haround.nested hgrows hlt rfl (by simp [Statement.opened])) (hd.addScope _)).push trivial
  | loop _ _ opened body ih =>
    intro hscope hgrows haround hd
    have hlt := Nat.lt_of_lt_of_le hscope (body.grown.opened opened).size
    have hloop := hgrows _ _ (Tree.statement?_push_self hlt)
    cases opened
    have hinside := haround.nested hgrows hlt rfl (List.mem_singleton_self _)
    exact (ih (by simp) ((Grown.push _ _ _).grows.trans hgrows) ⟨fun _ => .body hloop,
      hinside.function⟩ (hd.addScope _)).push trivial
  | @branchElse d _ d₂ _ _ _ _ _ _ _ _ _ _ _ _ _ _ _ opened body opened' otherwise ih ih' =>
    intro hscope hgrows haround hd
    have hmiddle := Nat.lt_of_lt_of_le hscope (body.grown.opened opened).size
    have hlt := Nat.lt_of_lt_of_le hmiddle (otherwise.grown.opened opened').size
    have hrest := (otherwise.grown.opened opened').grows
    cases opened
    cases opened'
    have hgrows' := (Grown.push _ _ _).grows.trans hgrows
    have hbody : Around tree d.tree.scopes.size _ _ :=
      haround.nested hgrows hlt rfl (by simp [Statement.opened])
    have hother : Around tree d₂.tree.scopes.size _ _ :=
      haround.nested hgrows hlt rfl (by simp [Statement.opened])
    exact (ih' (by simp) hgrows' hother (Allows.addScope (ih (by simp) (hrest.trans hgrows')
      (hbody.sooner otherwise.returned) (hd.addScope _)) _)).push trivial
  | @function d _ _ _ _ scope _ _ _ _ _ _ _ _ _ titles _ opened parameters opened' body returns
      ih =>
    intro hscope hgrows haround hd
    obtain ⟨rfl, rfl⟩ := addScope_ok opened
    obtain ⟨rfl, rfl⟩ := addScope_ok opened'
    have hlt : scope < _ := Nat.lt_of_lt_of_le hscope
      ((parameters.grown.inside scope).trans (body.grown.inside scope)).size
    have hfunction := hgrows _ _ (Tree.statement?_push_self hlt)
    refine (ih (by simp) ((Grown.push _ _ _).grows.trans hgrows) ⟨nofun, fun _ hgives => ?_⟩
      (Allows.addScope (parameters.allowed (hd.addScope _)) _)).push trivial
    obtain ⟨type, htype⟩ := Option.ne_none_iff_exists'.mp (returns hgives)
    exact ⟨type, .body (htype ▸ hfunction)⟩

/-! ### Every tree that is read -/

/-- **Every tree that is read is well-formed.** -/
theorem parse_wellFormed {tokens : List Token} {t : Tree} (h : parse tokens = .ok t) :
    t.WellFormed := by
  have hlexical := parse_lexical h
  have hmade := @parse_made tokens t h
  obtain ⟨l, used, d, -, hbuilds, rfl⟩ := (parse_outcome tokens).ok h
  have hformed := hbuilds.formed (by decide) Formed.empty
  have hallows : Allows d.tree d.tree := by
    refine hbuilds.allowed (by decide) (fun _ _ => id) ⟨nofun, nofun⟩ fun id s hs => ?_
    rw [Drafted.statement?_empty] at hs
    cases hs
  refine ⟨⟨hformed.owned.nonempty, hformed.root⟩, fun x hx hroot => ?_, hformed.owned.range,
    hformed.owned.once, hformed.owned.nodup, hallows, fun id s hs => ?_, hlexical.unique,
    hformed.functions, fun id s hs j hj => ?_⟩
  · obtain ⟨id, s, hs, hopened⟩ := hformed.given x hx hroot nofun
    obtain ⟨⟨x', outer⟩, hmem, rfl⟩ := List.mem_map.mp (s.map_nested id.scope ▸ hopened)
    have hshared := hformed.nested id s hs _ hmem
    obtain ⟨outer', hlt, hshared'⟩ := hformed.inside _ hx hroot
    cases List.singleton_inj.mp (hshared.symm.trans hshared')
    exact ⟨id, s, outer, hs, hmem, hshared, hlt⟩
  · obtain ⟨t₀, hs⟩ := hmade hs
    exact hs.regular
  · obtain ⟨id', s', i, hs', -, hbinding, hdeclared, heq⟩ := hlexical.used id s hs j hj
    exact ⟨id', s', i, hs', hdeclared, hbinding, by rw [heq], by rw [heq]⟩

/-- The tokens of a function with a loop and a `return`, and of an array:
`fn f(int a) -> int { while (a > 1) break; return a; } var x = new int[2]; x[0] = f(1);` -/
def mixedTokens : List Token :=
  [.keyword .fn, .named "f", .leftParen, .keyword .int, .named "a", .rightParen, .arrow,
    .keyword .int, .leftBrace, .keyword .while, .leftParen, .named "a", .operator .greaterThan,
    .numbered 1, .rightParen, .keyword .break, .semicolon, .keyword .return, .named "a", .semicolon,
    .rightBrace, .keyword .var, .named "x", .assign, .keyword .new, .keyword .int, .leftBracket,
    .numbered 2, .rightBracket, .semicolon, .named "x", .leftBracket, .numbered 0, .rightBracket,
    .assign, .named "f", .leftParen, .numbered 1, .rightParen, .semicolon]

/-- They are the tokens of a tree with four scopes. -/
theorem mixed_wellFormed : ∃ t, parse mixedTokens = .ok t ∧ t.scopes.size = 4 ∧ t.WellFormed := by
  have hsize : (parse mixedTokens).toOption.map (fun t => t.scopes.size) = some 4 := by decide_cbv
  obtain ⟨t, ht, hsize⟩ := Option.map_eq_some_iff.mp hsize
  exact ⟨t, ok_of_toOption ht, hsize, parse_wellFormed (ok_of_toOption ht)⟩

end Parser

end RegisterMachine.Structured
