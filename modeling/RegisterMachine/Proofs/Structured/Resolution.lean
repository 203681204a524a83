import RegisterMachine.Proofs.Structured.Binding
import RegisterMachine.Proofs.Structured.Enclosing

/-! # How calls are resolved

Calls are bound in two passes. The first looks up every call, in the order of scopes and statements
and the arguments of a call before the call itself; the second goes through the tree again and gives
each call that it meets the next of the answers. Only if both meet the same calls in the same order
does each call get its own answer.

* `Tree.calls`: the calls of a tree in order; `Tree.fill`: the second pass.
* `Follows`: a part of the tree that is bound at once, against the two passes; `bindCalls_eq`.
* `Tree.Answers`, `Tree.Unanswered`: the function of a call, and what is wrong if there is none.
* `Tree.unresolved`: the tree without the answers.
* `parse_resolved`: calls are bound to the nearest functions of their names, and nothing else is
  changed; it fails at the first call without a function. -/

namespace RegisterMachine.Structured

open RegisterMachine.Success

/-! ### The calls of a tree -/

/-- A call as it stands in a tree. -/
structure Call where
  identifier : Identifier
  arguments : List Expression
  resolved : Option StatementId
  span : Span

/-- The name of the function that is called. -/
def Call.name (call : Call) : String := call.identifier.name

/-- The number of arguments that are given. -/
def Call.given (call : Call) : Nat := call.arguments.length

namespace Expression

mutual

/-- **The calls in an expression**, the arguments of a call before the call itself. -/
def calls : Expression → List Call
  | name _ | number _ _ | new _ _ => []
  | binary _ left right _ => left.calls ++ right.calls
  | element _ index _ => index.calls
  | call identifier arguments resolved span =>
    callsOf arguments ++ [⟨identifier, arguments, resolved, span⟩]

def callsOf : List Expression → List Call
  | [] => []
  | e :: rest => e.calls ++ callsOf rest

end

end Expression

def Target.calls : Target → List Call
  | name _ => []
  | element _ index _ => index.calls

/-- **The calls in a statement's own expressions**, those in an index that is assigned to first. -/
def Statement.calls : Statement → List Call
  | assign target e _ _ => target.calls ++ e.calls
  | branch e _ _ _ | loop e _ _ | give e _ | evaluate e => e.calls
  | block _ | leave _ | again _ | function _ _ _ _ _ | parameter _ => []

/-- **The calls of a tree** with their scopes, in the order of scopes and statements. -/
def Tree.calls (t : Tree) : List (ScopeId × Call) :=
  t.scopes.zipIdx.toList.flatMap fun (scope, id) =>
    scope.statements.toList.flatMap fun s => s.calls.map (id, ·)

/-! ### Two passes -/

/-- The function that a call is bound to, or what is wrong. -/
def Tree.lookup (t : Tree) (p : ScopeId × Call) : Except Error StatementId :=
  t.callee p.1 p.2.identifier p.2.given p.2.span

/-- The next of the answers. -/
def nextAnswer : StateM (List StatementId) (Option StatementId) :=
  fun answers => (answers.head?, answers.tail)

namespace Expression

mutual

/-- **Each call gets the next answer.** -/
def fill : Expression → StateM (List StatementId) Expression
  | name identifier => return name identifier
  | number value span => return number value span
  | new type span => return new type span
  | binary op left right span => do
    let left ← left.fill
    let right ← right.fill
    return binary op left right span
  | element identifier index span => do
    let index ← index.fill
    return element identifier index span
  | call identifier arguments _ span => do
    let arguments ← fillAll arguments
    let answer ← nextAnswer
    return call identifier arguments answer span

def fillAll : List Expression → StateM (List StatementId) (List Expression)
  | [] => return []
  | e :: rest => do
    let e ← e.fill
    let rest ← fillAll rest
    return e :: rest

end

end Expression

def Target.fill : Target → StateM (List StatementId) Target
  | name identifier => return name identifier
  | element identifier index span => do
    let index ← index.fill
    return element identifier index span

def Statement.fill : Statement → StateM (List StatementId) Statement
  | assign target e initial span => do
    let target ← target.fill
    let e ← e.fill
    return assign target e initial span
  | branch condition body otherwise span => do
    let condition ← condition.fill
    return branch condition body otherwise span
  | loop condition body span => do
    let condition ← condition.fill
    return loop condition body span
  | give e span => do
    let e ← e.fill
    return give e span
  | evaluate e => do
    let e ← e.fill
    return evaluate e
  | other => return other

def Scope.fill (s : Scope) : StateM (List StatementId) Scope := do
  let statements ← s.statements.mapM Statement.fill
  return { s with statements }

/-- **The second pass** over the whole tree. -/
def Tree.fill (t : Tree) : StateM (List StatementId) Tree := do
  let scopes ← t.scopes.mapM Scope.fill
  return ⟨scopes⟩

/-- **Binding calls in two passes**: all are looked up, and then the answers are written back. -/
def Tree.bindInOrder (t : Tree) : Except Error Tree := do
  let answers ← t.calls.mapM t.lookup
  return (t.fill.run answers).1

/-- **A part of the tree is bound at once as it is in two passes**, of which the first meets these
calls: the errors are the same, and the second pass takes just the answers of the first. -/
def Follows {α : Type} (t : Tree) (calls : List (ScopeId × Call)) (x : Except Error α)
    (y : StateM (List StatementId) α) : Prop :=
  Alike Eq (fun a answers => ∀ rest, y (answers ++ rest) = (a, rest)) x (calls.mapM t.lookup)

section Follows

variable {α β γ : Type} {t : Tree} {scope : ScopeId} {calls calls' : List (ScopeId × Call)}
  {x : Except Error α} {y : StateM (List StatementId) α}

theorem Follows.pure (t : Tree) (a : α) : Follows t [] (.ok a) (pure a) := fun _ => rfl

theorem Follows.bind {f : α → Except Error β} {g : α → StateM (List StatementId) β}
    (h : Follows t calls x y) (hf : ∀ a, x = .ok a → Follows t calls' (f a) (g a)) :
    Follows t (calls ++ calls') (x >>= f) (y >>= g) := by
  unfold Follows
  rw [List.mapM_append]
  obtain ⟨e, e', hx, hcalls, rfl⟩ | ⟨a, answers, hx, hcalls, hy⟩ := h.cases
  · rw [hx, hcalls]
    exact rfl
  · have hrest := hf a hx
    obtain ⟨e, e', hfa, hcalls', rfl⟩ | ⟨b, answers', hfa, hcalls', hg⟩ := hrest.cases
    · rw [bind_run hx, hfa, hcalls, hcalls']
      exact rfl
    · rw [bind_run hx, hfa, hcalls, hcalls']
      intro rest
      show g (y (answers ++ answers' ++ rest)).1 (y (answers ++ answers' ++ rest)).2 = (b, rest)
      rw [List.append_assoc, hy, hg]

/-- A step that looks nothing up is left out of the list of calls. -/
theorem Follows.map {f : α → β} (h : Follows t calls x y) :
    Follows t calls (x >>= fun a => .ok (f a)) (y >>= fun a => Pure.pure (f a)) := by
  have hmap := h.bind (f := fun a => .ok (f a)) (g := fun a => Pure.pure (f a))
    fun a _ => Follows.pure t (f a)
  rwa [List.append_nil] at hmap

theorem Follows.mapM {l : List γ} {calls : γ → List (ScopeId × Call)} {f : γ → Except Error β}
    {g : γ → StateM (List StatementId) β} (h : ∀ c ∈ l, Follows t (calls c) (f c) (g c)) :
    Follows t (l.flatMap calls) (l.mapM f) (l.mapM g) := by
  induction l with
  | nil =>
    rw [List.mapM_nil, List.mapM_nil]
    exact .pure t []
  | cons c l ih =>
    rw [List.mapM_cons, List.mapM_cons, List.flatMap_cons]
    refine (h c List.mem_cons_self).bind fun b _ => ?_
    exact (ih fun c hc => h c (List.mem_cons_of_mem _ hc)).map

theorem Follows.mapM_array {xs : Array γ} {calls : γ → List (ScopeId × Call)}
    {f : γ → Except Error β} {g : γ → StateM (List StatementId) β}
    (h : ∀ c ∈ xs.toList, Follows t (calls c) (f c) (g c)) (k : Array β → α) :
    Follows t (xs.toList.flatMap calls) ((xs.mapM f).map k)
      (xs.mapM g >>= fun ys => Pure.pure (k ys)) := by
  have hrow := (Follows.mapM h).map (f := fun l => k l.toArray)
  rw [Array.mapM_eq_mapM_toList, Array.mapM_eq_mapM_toList]
  cases hx : xs.toList.mapM f <;> rw [hx] at hrow <;> exact hrow

/-- A call that is looked up takes one answer. -/
theorem Follows.lookup (t : Tree) (p : ScopeId × Call) (f : Option StatementId → α) :
    Follows t [p] (t.lookup p >>= fun id => .ok (f (some id)))
      (nextAnswer >>= fun answer => Pure.pure (f answer)) := by
  unfold Follows
  rw [List.mapM_cons, List.mapM_nil]
  cases t.lookup p with
  | error e => exact rfl
  | ok id => exact fun rest => rfl

theorem Expression.bindAll_length {es es' : List Expression} (h : bindAll t scope es = .ok es') :
    es'.length = es.length := by
  induction es generalizing es' with
  | nil =>
    cases h
    rfl
  | cons e es ih =>
    rw [bindAll] at h
    obtain ⟨e', -, h⟩ := bind_ok h
    obtain ⟨rest', hrest, h⟩ := bind_ok h
    cases pure_ok h
    rw [List.length_cons, List.length_cons, ih hrest]

mutual

theorem Expression.follows : ∀ e : Expression,
    Follows t (e.calls.map (scope, ·)) (e.bindCalls t scope) e.fill
  | .name _ | .number _ _ | .new _ _ => Follows.pure t _
  | .binary op left right span => by
    rw [calls, List.map_append, bindCalls, fill]
    exact left.follows.bind fun left' _ => right.follows.map
  | .element i index span => by
    rw [calls, bindCalls, fill]
    exact index.follows.map
  | .call i arguments resolved span => by
    rw [calls, List.map_append, bindCalls, fill]
    refine (followsOf arguments).bind fun arguments' harguments => ?_
    rw [bindAll_length harguments]
    exact Follows.lookup t (scope, ⟨i, arguments, resolved, span⟩)
      (Expression.call i arguments' · span)

theorem Expression.followsOf : ∀ es : List Expression,
    Follows t ((callsOf es).map (scope, ·)) (bindAll t scope es) (fillAll es)
  | [] => Follows.pure t _
  | e :: es => by
    rw [callsOf, List.map_append, bindAll, fillAll]
    exact e.follows.bind fun e' _ => (followsOf es).map

end

theorem Target.follows (target : Target) :
    Follows t (target.calls.map (scope, ·)) (target.bindCalls t scope) target.fill := by
  cases target with
  | name i => exact .pure t _
  | element i index span => exact index.follows.map

theorem Statement.follows (s : Statement) :
    Follows t (s.calls.map (scope, ·)) (s.bindCalls t scope) s.fill := by
  cases s with
  | assign target e initial span =>
    rw [calls, List.map_append]
    exact target.follows.bind fun target' _ => e.follows.map
  | branch e | loop e | give e | evaluate e => exact e.follows.map
  | block | leave | again | function | parameter => exact .pure t _

theorem Scope.follows (s : Scope) :
    Follows t (s.statements.toList.flatMap fun s => s.calls.map (scope, ·)) (t.bindScope scope s)
      s.fill :=
  Follows.mapM_array (fun s _ => s.follows) fun statements => { s with statements }

theorem Tree.fill_eq (t : Tree) :
    t.fill = (t.scopes.zipIdx.mapM fun p => p.1.fill) >>= fun scopes => pure ⟨scopes⟩ := by
  have hrow : t.scopes.mapM Scope.fill = t.scopes.zipIdx.mapM fun p => p.1.fill := by
    conv_lhs => rw [← Array.zipIdx_map_fst 0 t.scopes]
    exact Array.mapM_map
  rw [fill, hrow]

/-- **Binding calls at once** is the same as doing it in two passes. -/
theorem Tree.bindCalls_eq (t : Tree) : t.bindCalls = t.bindInOrder := by
  have hall : Follows t t.calls t.bindCalls t.fill := by
    rw [fill_eq]
    exact Follows.mapM_array (fun p _ => p.1.follows) Tree.mk
  rw [bindInOrder]
  obtain ⟨e, e', htree, hcalls, rfl⟩ | ⟨t', answers, htree, hcalls, hfill⟩ := hall.cases
  · rw [htree, hcalls]
    rfl
  · have hrun := hfill []
    rw [List.append_nil] at hrun
    rw [htree, bind_run hcalls]
    show Except.ok t' = .ok (t.fill answers).1
    rw [hrun]

end Follows

/-! ### Nothing else is changed -/

namespace Expression

mutual

/-- The expression with no call resolved. -/
def unresolved : Expression → Expression
  | name identifier => name identifier
  | number value span => number value span
  | new type span => new type span
  | binary op left right span => binary op left.unresolved right.unresolved span
  | element identifier index span => element identifier index.unresolved span
  | call identifier arguments _ span => call identifier (unresolvedAll arguments) none span

def unresolvedAll : List Expression → List Expression
  | [] => []
  | e :: rest => e.unresolved :: unresolvedAll rest

end

end Expression

def Target.unresolved : Target → Target
  | name identifier => name identifier
  | element identifier index span => element identifier index.unresolved span

def Statement.unresolved : Statement → Statement
  | assign target e initial span => assign target.unresolved e.unresolved initial span
  | branch condition body otherwise span => branch condition.unresolved body otherwise span
  | loop condition body span => loop condition.unresolved body span
  | give e span => give e.unresolved span
  | evaluate e => evaluate e.unresolved
  | other => other

def Scope.unresolved (s : Scope) : Scope :=
  { s with statements := s.statements.map Statement.unresolved }

/-- **The tree with no call resolved**, and all else as it is. -/
def Tree.unresolved (t : Tree) : Tree := ⟨t.scopes.map Scope.unresolved⟩

/-- **A call before and after it is bound**: it is looked up, and the answer is written into it. -/
structure Tree.Resolves (t : Tree) (scope : ScopeId) (call call' : Call) : Prop where
  found : ∃ id, t.lookup (scope, call) = .ok id ∧ call'.resolved = some id
  identifier : call'.identifier = call.identifier
  given : call'.given = call.given
  span : call'.span = call.span

section Bound

variable {t t' : Tree} {scope : ScopeId}

mutual

theorem Expression.bound : ∀ {e e' : Expression}, e.bindCalls t scope = .ok e' →
    e'.unresolved = e.unresolved ∧ List.Forall₂ (t.Resolves scope) e.calls e'.calls
  | .name i, e', h | .number value span, e', h | .new type span, e', h => by
    cases h
    exact ⟨rfl, .nil⟩
  | .binary op left right span, e', h => by
    rw [bindCalls] at h
    obtain ⟨left', hleft, h⟩ := bind_ok h
    obtain ⟨right', hright, h⟩ := bind_ok h
    cases pure_ok h
    obtain ⟨hsame, hcalls⟩ := bound hleft
    obtain ⟨hsame', hcalls'⟩ := bound hright
    rw [unresolved, unresolved, hsame, hsame', calls, calls]
    exact ⟨rfl, List.rel_append hcalls hcalls'⟩
  | .element i index span, e', h => by
    rw [bindCalls] at h
    obtain ⟨index', hindex, h⟩ := bind_ok h
    cases pure_ok h
    obtain ⟨hsame, hcalls⟩ := bound hindex
    rw [unresolved, unresolved, hsame, calls, calls]
    exact ⟨rfl, hcalls⟩
  | .call i arguments resolved span, e', h => by
    rw [bindCalls] at h
    obtain ⟨arguments', harguments, h⟩ := bind_ok h
    obtain ⟨callee, hcallee, h⟩ := bind_ok h
    cases pure_ok h
    have hlength := bindAll_length harguments
    obtain ⟨hsame, hcalls⟩ := boundAll harguments
    rw [unresolved, unresolved, hsame, calls, calls]
    refine ⟨rfl, List.rel_append hcalls (.cons ⟨⟨callee, ?_, rfl⟩, rfl, hlength, rfl⟩ .nil)⟩
    rw [hlength] at hcallee
    exact hcallee

theorem Expression.boundAll : ∀ {es es' : List Expression}, bindAll t scope es = .ok es' →
    unresolvedAll es' = unresolvedAll es ∧
      List.Forall₂ (t.Resolves scope) (callsOf es) (callsOf es')
  | [], es', h => by
    cases h
    exact ⟨rfl, .nil⟩
  | e :: es, es', h => by
    rw [bindAll] at h
    obtain ⟨e', he, h⟩ := bind_ok h
    obtain ⟨rest', hrest, h⟩ := bind_ok h
    cases pure_ok h
    obtain ⟨hsame, hcalls⟩ := bound he
    obtain ⟨hsame', hcalls'⟩ := boundAll hrest
    rw [unresolvedAll, unresolvedAll, hsame, hsame', callsOf, callsOf]
    exact ⟨rfl, List.rel_append hcalls hcalls'⟩

end

theorem Target.bound {target target' : Target} (h : target.bindCalls t scope = .ok target') :
    target'.unresolved = target.unresolved ∧
      List.Forall₂ (t.Resolves scope) target.calls target'.calls := by
  cases target with
  | name i =>
    cases h
    exact ⟨rfl, .nil⟩
  | element i index span =>
    obtain ⟨index', hindex, h⟩ := bind_ok h
    cases pure_ok h
    obtain ⟨hsame, hcalls⟩ := Expression.bound hindex
    rw [unresolved, unresolved, hsame]
    exact ⟨rfl, hcalls⟩

theorem Statement.bound {s s' : Statement} (h : s.bindCalls t scope = .ok s') :
    s'.unresolved = s.unresolved ∧ List.Forall₂ (t.Resolves scope) s.calls s'.calls := by
  cases s with
  | assign target e initial span =>
    obtain ⟨target', htarget, h⟩ := bind_ok h
    obtain ⟨e', he, h⟩ := bind_ok h
    cases pure_ok h
    obtain ⟨hsame, hcalls⟩ := Target.bound htarget
    obtain ⟨hsame', hcalls'⟩ := Expression.bound he
    rw [unresolved, unresolved, hsame, hsame']
    exact ⟨rfl, List.rel_append hcalls hcalls'⟩
  | branch e | loop e | give e | evaluate e =>
    obtain ⟨e', he, h⟩ := bind_ok h
    cases pure_ok h
    obtain ⟨hsame, hcalls⟩ := Expression.bound he
    rw [unresolved, unresolved, hsame]
    exact ⟨rfl, hcalls⟩
  | block | leave | again | function | parameter =>
    cases h
    exact ⟨rfl, .nil⟩

theorem Scope.bound {s s' : Scope} (h : t.bindScope scope s = .ok s') :
    s'.unresolved = s.unresolved ∧
      List.Forall₂ (fun s s' => s.bindCalls t scope = .ok s') s.statements.toList
        s'.statements.toList := by
  obtain ⟨statements, hstatements, rfl⟩ := map_ok h
  rw [Array.mapM_eq_mapM_toList] at hstatements
  obtain ⟨l, hl, rfl⟩ := map_ok hstatements
  have hsame := map_of_mapM hl fun _ _ hs => (Statement.bound hs).1
  refine ⟨?_, mapM_ok hl⟩
  rw [unresolved, unresolved, List.map_toArray, hsame, ← List.map_toArray, Array.toArray_toList]

namespace Tree

theorem scopes_bindCalls (h : t.bindCalls = .ok t') :
    List.Forall₂ (fun p s' => t.bindScope p.2 p.1 = .ok s') t.scopes.toList.zipIdx
      t'.scopes.toList := by
  obtain ⟨scopes, hscopes, rfl⟩ := map_ok h
  rw [Array.mapM_eq_mapM_toList] at hscopes
  obtain ⟨l, hl, rfl⟩ := map_ok hscopes
  rw [Array.toList_zipIdx] at hl
  exact mapM_ok hl

/-- **Nothing but the answers is changed.** -/
theorem unresolved_bindCalls (h : t.bindCalls = .ok t') : t'.unresolved = t.unresolved := by
  have hsame : t'.scopes.toList.map Scope.unresolved =
      (t.scopes.toList.zipIdx.map Prod.fst).map Scope.unresolved := by
    have hall := scopes_bindCalls h
    generalize t.scopes.toList.zipIdx = l, t'.scopes.toList = l' at hall ⊢
    induction hall with
    | nil => rfl
    | cons hs _ ih => rw [List.map_cons, List.map_cons, List.map_cons, (Scope.bound hs).1, ih]
  rw [List.zipIdx_map_fst] at hsame
  rw [unresolved, unresolved, Tree.mk.injEq, ← Array.toList_inj, Array.toList_map, Array.toList_map]
  exact hsame

/-- Statements of the bound tree are statements with their calls bound. -/
theorem statement?_bindCalls (h : t.bindCalls = .ok t') {id : StatementId} {s' : Statement}
    (hs' : t'.statement? id = some s') :
    ∃ s, t.statement? id = some s ∧ s.bindCalls t id.scope = .ok s' := by
  obtain ⟨x', hx', hs'⟩ := Option.bind_eq_some_iff.mp hs'
  rw [← Array.getElem?_toList] at hx' hs'
  obtain ⟨⟨x, k⟩, hx, hbind⟩ := exists_of_getElem?_right (scopes_bindCalls h) hx'
  rw [List.getElem?_zipIdx] at hx
  obtain ⟨y, hy, heq⟩ := Option.map_eq_some_iff.mp hx
  obtain ⟨rfl, rfl⟩ := Prod.mk.inj heq
  rw [Nat.zero_add] at hbind
  obtain ⟨s, hs, hbound⟩ := exists_of_getElem?_right (Scope.bound hbind).2 hs'
  refine ⟨s, ?_, hbound⟩
  rw [Array.getElem?_toList] at hy hs
  rw [statement?, hy]
  exact hs

theorem mem_calls {p : ScopeId × Call} :
    p ∈ t.calls ↔ ∃ id s, t.statement? id = some s ∧ p.1 = id.scope ∧ p.2 ∈ s.calls := by
  simp only [calls, List.mem_flatMap, List.mem_map, Array.toList_zipIdx]
  constructor
  · rintro ⟨⟨x, scope⟩, hx, s, hs, call, hcall, rfl⟩
    obtain ⟨index, hs⟩ := List.mem_iff_getElem?.mp hs
    rw [List.mk_mem_zipIdx_iff_getElem?, Array.getElem?_toList] at hx
    rw [Array.getElem?_toList] at hs
    refine ⟨⟨scope, index⟩, s, ?_, rfl, hcall⟩
    rw [statement?, hx]
    exact hs
  · rintro ⟨id, s, hs, hscope, hcall⟩
    obtain ⟨x, hx, hs⟩ := Option.bind_eq_some_iff.mp hs
    rw [← Array.getElem?_toList] at hx hs
    refine ⟨(x, id.scope), ?_, s, List.mem_of_getElem? hs, p.2, hcall, ?_⟩
    · rw [List.mk_mem_zipIdx_iff_getElem?]
      exact hx
    · rw [← hscope]

end Tree

end Bound

/-! ### The function of a call -/

/-- **The statement declares a function** of this name, with so many parameters. -/
def Tree.Offers (t : Tree) (id : StatementId) (name : String) (count : Nat) : Prop :=
  ∃ i parameters body returns span, ∃ ps : List Identifier,
    t.statement? id = some (.function i parameters body returns span) ∧ i.name = name ∧
      (t.scope parameters).statements.toList = ps.map .parameter ∧ ps.length = count

/-- **The function of a call**: it has the name of the call and as many parameters as the call has
arguments, and no scope nearer to the call declares a function of this name. -/
structure Tree.Answers (t : Tree) (scope : ScopeId) (call : Call) (id : StatementId) : Prop where
  nearest : t.Nearest (t.HasFunction call.name) scope id.scope
  offers : t.Offers id call.name call.given

/-- **What is wrong with a call that has no function**: there is none of its name around it, or the
nearest one has another number of parameters. -/
inductive Tree.Unanswered (t : Tree) (scope : ScopeId) (call : Call) : Error → Prop
  | unseen (none : ∀ x, t.Within scope x → ¬ t.HasFunction call.name x) :
    Unanswered t scope call ⟨.functionNotFound,
      s!"function `{call.name}` not found", call.identifier.span⟩
  | mismatch {id : StatementId} {expected : Nat}
    (nearest : t.Nearest (t.HasFunction call.name) scope id.scope)
    (offers : t.Offers id call.name expected)
    (differs : expected ≠ call.given) :
    Unanswered t scope call ⟨.functionArgumentMismatch,
      s!"function `{call.name}` takes {expected} argument(s) but {call.given} were given",
      call.span⟩

section Answers

variable {t t' : Tree} {scope : ScopeId} {call call' : Call} {id : StatementId} {name : String}
  {count : Nat}

theorem Statement.eq_of_declaresFunction {s : Statement} (h : s.declaresFunction name = true) :
    ∃ i parameters body returns span, s = .function i parameters body returns span ∧
      i.name = name := by
  cases s with
  | function i parameters body returns span =>
    exact ⟨i, parameters, body, returns, span, rfl, beq_iff_eq.mp h⟩
  | _ => cases h

namespace Tree

theorem Offers.declares (h : t.Offers id name count) :
    ∃ s, t.statement? id = some s ∧ s.declaresFunction name = true := by
  obtain ⟨i, parameters, body, returns, span, ps, hs, hname, -⟩ := h
  exact ⟨_, hs, beq_iff_eq.mpr hname⟩

theorem Offers.parameterCount (h : t.Offers id name count) : t.parameterCount id = count := by
  obtain ⟨i, parameters, body, returns, span, ps, hs, -, hps, rfl⟩ := h
  rw [Tree.parameterCount, hs]
  show (t.scope parameters).statements.size = ps.length
  rw [← Array.length_toList, hps, List.length_map]

theorem Signed.offers (h : t.Signed) {s : Statement} (hs : t.statement? id = some s)
    (hdeclares : s.declaresFunction name = true) : t.Offers id name (t.parameterCount id) := by
  obtain ⟨i, parameters, body, returns, span, rfl, rfl⟩ := s.eq_of_declaresFunction hdeclares
  have hall := h id parameters body ⟨i, returns, span, hs⟩
  obtain ⟨ps, hps⟩ : ∃ ps : List Identifier,
      (t.scope parameters).statements.toList = ps.map .parameter := by
    generalize (t.scope parameters).statements.toList = l at hall
    induction l with
    | nil => exact ⟨[], rfl⟩
    | cons s l ih =>
      obtain ⟨⟨i, rfl⟩, hrest⟩ := List.forall_mem_cons.mp hall
      obtain ⟨ps, rfl⟩ := ih hrest
      exact ⟨i :: ps, rfl⟩
  refine ⟨i, parameters, body, returns, span, ps, hs, rfl, hps, ?_⟩
  rw [Tree.parameterCount, hs]
  show ps.length = (t.scope parameters).statements.size
  rw [← Array.length_toList, hps, List.length_map]

/-- **The search for the function of a call** finds the one function of the name in the nearest
scope that has one. -/
theorem function?_iff (wellFormed : t.WellFormed) : t.function? scope name = some id ↔
    t.Nearest (t.HasFunction name) scope id.scope ∧
      ∃ s, t.statement? id = some s ∧ s.declaresFunction name = true := by
  refine ⟨function?_ok wellFormed.single, ?_⟩
  rintro ⟨hnearest, s, hs, hdeclares⟩
  cases hfound : t.function? scope name with
  | none => exact absurd hnearest.has (function?_none wellFormed.inward hfound hnearest.within)
  | some id' =>
    obtain ⟨hnearest', s', hs', hdeclares'⟩ := function?_ok wellFormed.single hfound
    have hscope := hnearest.unique hnearest'
    rw [wellFormed.functions id id' s s' name hs hs' hscope.symm hdeclares hdeclares']

theorem lookup_eq : t.lookup (scope, call) =
    match t.function? scope call.name with
    | none => .error
      ⟨.functionNotFound, s!"function `{call.name}` not found", call.identifier.span⟩
    | some id =>
      if t.parameterCount id = call.given then .ok id
      else
        let expected := t.parameterCount id
        .error ⟨.functionArgumentMismatch,
          s!"function `{call.name}` takes {expected} argument(s) but {call.given} were given",
          call.span⟩ := rfl

variable (wellFormed : t.WellFormed) (signed : t.Signed)

include wellFormed signed

/-- **A call is looked up** with success if it has a function, and this is the answer. -/
theorem lookup_ok_iff : t.lookup (scope, call) = .ok id ↔ t.Answers scope call id := by
  have hiff : t.function? scope call.name = some id ↔ _ := function?_iff wellFormed
  rw [lookup_eq]
  constructor
  · intro h
    split at h
    · cases h
    · rename_i id' hfound
      split at h
      · rename_i hcount
        cases h
        obtain ⟨hnearest, s, hs, hdeclares⟩ := hiff.mp hfound
        exact ⟨hnearest, hcount ▸ signed.offers hs hdeclares⟩
      · cases h
  · rintro ⟨hnearest, hoffers⟩
    rw [hiff.mpr ⟨hnearest, hoffers.declares⟩]
    dsimp only
    rw [if_pos hoffers.parameterCount]

/-- **A call is looked up** without success if something is wrong with it, and this is the error. -/
theorem lookup_error_iff {e : Error} :
    t.lookup (scope, call) = .error e ↔ t.Unanswered scope call e := by
  rw [lookup_eq]
  constructor
  · intro h
    split at h
    · rename_i hnone
      cases h
      exact .unseen fun x hx => function?_none wellFormed.inward hnone hx
    · rename_i id hfound
      split at h
      · cases h
      · rename_i hcount
        cases h
        obtain ⟨hnearest, s, hs, hdeclares⟩ := (function?_iff wellFormed).mp hfound
        exact .mismatch hnearest (signed.offers hs hdeclares) hcount
  · rintro (hnone | ⟨hnearest, hoffers, hdiffers⟩)
    · cases hfound : t.function? scope call.name with
      | none => rfl
      | some id =>
        have hnearest := ((function?_iff wellFormed).mp hfound).1
        exact absurd hnearest.has (hnone _ hnearest.within)
    · rw [(function?_iff wellFormed).mpr ⟨hnearest, hoffers.declares⟩]
      dsimp only
      rw [hoffers.parameterCount, if_neg hdiffers]

omit wellFormed signed in
theorem HasFunction.of_view {v : View} (hview : t.view v = t'.view v)
    (h : t.HasFunction name scope) : t'.HasFunction name scope := by
  obtain ⟨id, s, hs, hid, hdeclares⟩ := h
  obtain ⟨s', hs', hlike⟩ := Tree.statement?_of_view hview.symm hs
  refine ⟨id, s', hs', hid, ?_⟩
  rw [← Statement.declaresFunction_view (v := v), hlike, Statement.declaresFunction_view]
  exact hdeclares

omit wellFormed signed in
/-- The function of a call is the same in a tree that is the same but for places, types and calls.
-/
theorem Answers.of_view {v : View} (h : t.Answers scope call id) (signed' : t'.Signed)
    (hview : t.view v = t'.view v) (hname : call'.name = call.name)
    (hgiven : call'.given = call.given) : t'.Answers scope call' id := by
  obtain ⟨s, hs, hdeclares⟩ := h.offers.declares
  obtain ⟨s', hs', hlike⟩ := Tree.statement?_of_view hview.symm hs
  have hdeclares' : s'.declaresFunction call.name = true := by
    rw [← Statement.declaresFunction_view (v := v), hlike, Statement.declaresFunction_view]
    exact hdeclares
  have hcount : t'.parameterCount id = call.given := by
    rw [← Tree.parameterCount_view (v := v), ← hview, Tree.parameterCount_view]
    exact h.offers.parameterCount
  constructor
  · rw [hname]
    refine h.nearest.congr (fun x y hx => ?_) fun x => ?_
    · rw [← Tree.shared_of_view hview]
      exact hx
    · exact ⟨HasFunction.of_view hview, HasFunction.of_view hview.symm⟩
  · rw [hname, hgiven, ← hcount]
    exact signed'.offers hs' hdeclares'

end Tree

end Answers

/-! ### Every tree that is read -/

namespace Parser

/-- **Calls are resolved to the functions they name.** In a tree that is read, calls are bound as
they are in two passes. If this succeeds, each call in the tree gets the function of its name that
is nearest to it, which has as many parameters as the call has arguments, and nothing else is
changed. It fails if and only if something is wrong with a call, and with the error of the first
such call. -/
theorem parse_resolved {tokens : List Token} {t : Tree} (h : parse tokens = .ok t) :
    t.bindCalls = t.bindInOrder ∧
    (∀ t', t.bindCalls = .ok t' → t'.unresolved = t.unresolved ∧
      ∀ p ∈ t'.calls, ∃ id, p.2.resolved = some id ∧ t'.Answers p.1 p.2 id) ∧
    ((∃ e, t.bindCalls = .error e) ↔ ∃ p ∈ t.calls, ∃ e, t.Unanswered p.1 p.2 e) ∧
    ∀ e, t.bindCalls = .error e ↔ ∃ before p after, t.calls = before ++ p :: after ∧
      (∀ q ∈ before, ∃ id, t.Answers q.1 q.2 id) ∧ t.Unanswered p.1 p.2 e := by
  have wellFormed := parse_wellFormed h
  have signed := parse_signed h
  have hfirst : ∀ e, t.bindCalls = .error e ↔ ∃ before p after, t.calls = before ++ p :: after ∧
      (∀ q ∈ before, ∃ id, t.Answers q.1 q.2 id) ∧ t.Unanswered p.1 p.2 e := by
    intro e
    have herror : t.bindCalls = .error e ↔ t.calls.mapM t.lookup = .error e := by
      rw [Tree.bindCalls_eq, Tree.bindInOrder]
      cases t.calls.mapM t.lookup <;> simp [bind, Except.bind, pure, Except.pure]
    simp only [herror, mapM_error_iff, ← Tree.lookup_ok_iff wellFormed signed,
      ← Tree.lookup_error_iff wellFormed signed]
  refine ⟨t.bindCalls_eq, fun t' ht' => ⟨Tree.unresolved_bindCalls ht', ?_⟩, ?_, hfirst⟩
  · rintro ⟨scope, call'⟩ hcall'
    obtain ⟨id, s', hs', rfl, hmem⟩ := Tree.mem_calls.mp hcall'
    obtain ⟨s, hs, hbound⟩ := Tree.statement?_bindCalls ht' hs'
    obtain ⟨call, -, hresolves⟩ := exists_of_mem_right (Statement.bound hbound).2 hmem
    obtain ⟨callee, hcallee, hresolved⟩ := hresolves.found
    have hanswers := (Tree.lookup_ok_iff wellFormed signed).mp hcallee
    have hview : t.view .unbound = t'.view .unbound :=
      (Tree.view_bindCalls (fun _ => rfl) ht').symm
    exact ⟨callee, hresolved, hanswers.of_view (signed.of_view hview) hview
      (congrArg Identifier.name hresolves.identifier) hresolves.given⟩
  · constructor
    · rintro ⟨e, he⟩
      obtain ⟨before, p, after, hcalls, -, hp⟩ := (hfirst e).mp he
      exact ⟨p, hcalls ▸ by simp, e, hp⟩
    · -- a tree whose calls are all bound has a function for each of them
      rintro ⟨p, hp, e, hunanswered⟩
      cases ht' : t.bindCalls with
      | error e' => exact ⟨e', rfl⟩
      | ok t' =>
        have hlookup : t.lookup p = .error e :=
          (Tree.lookup_error_iff wellFormed signed).mpr hunanswered
        rw [Tree.bindCalls_eq, Tree.bindInOrder] at ht'
        obtain ⟨answers, hanswers, -⟩ := bind_ok ht'
        obtain ⟨id, -, hid⟩ := exists_of_mem_left (mapM_ok hanswers) hp
        cases hlookup.symm.trans hid

/-- The tokens of `int a = f(f(1)); { fn f(int b) -> int { return b; } f(2); }
fn f(int b) -> int { return b; }`. -/
def nearestTokens : List Token :=
  let function : List Token := [.keyword .fn, .named "f", .leftParen, .keyword .int, .named "b",
    .rightParen, .arrow, .keyword .int, .leftBrace, .keyword .return, .named "b", .semicolon,
    .rightBrace]
  [.keyword .int, .named "a", .assign, .named "f", .leftParen, .named "f", .leftParen, .numbered 1,
    .rightParen, .rightParen, .semicolon, .leftBrace] ++ function ++
    [.named "f", .leftParen, .numbered 2, .rightParen, .semicolon, .rightBrace] ++ function

/-- The two calls outside of the block are bound to the function behind it, the one in the block to
the function there. -/
theorem nearest_resolved : ∃ t t', parse nearestTokens = .ok t ∧ t.bindCalls = .ok t' ∧
    t'.calls.map (fun p => (p.1, p.2.resolved)) =
      [(0, some ⟨0, 2⟩), (0, some ⟨0, 2⟩), (1, some ⟨1, 0⟩)] ∧
    t'.unresolved = t.unresolved ∧
      ∀ p ∈ t'.calls, ∃ id, p.2.resolved = some id ∧ t'.Answers p.1 p.2 id := by
  have hrun : (parse nearestTokens).toOption.bind (fun t => t.bindCalls.toOption.map fun t' =>
      (t'.calls.map fun (scope, call) => (scope, call.resolved))) =
        some [(0, some ⟨0, 2⟩), (0, some ⟨0, 2⟩), (1, some ⟨1, 0⟩)] := by decide_cbv
  obtain ⟨t, ht, hrun⟩ := Option.bind_eq_some_iff.mp hrun
  obtain ⟨t', ht', hcalls⟩ := Option.map_eq_some_iff.mp hrun
  obtain ⟨-, hbound, -⟩ := parse_resolved (ok_of_toOption ht)
  exact ⟨t, t', ok_of_toOption ht, ok_of_toOption ht', hcalls, hbound t' (ok_of_toOption ht')⟩

end Parser

end RegisterMachine.Structured
