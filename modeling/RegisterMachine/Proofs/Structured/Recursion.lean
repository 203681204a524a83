import Mathlib.Data.List.Perm.Subperm
import RegisterMachine.Proofs.Structured.Arranged
import RegisterMachine.Proofs.Structured.Entering

/-! # Functions that call themselves

The body of a function is emitted anew at every call, inside the code that calls it, so a function
that calls itself has no code. The emitter keeps the functions that it is in, and refuses a call to
one of them. It finds just the functions that call themselves and that the program reaches, and it
comes to an end in every case: the functions that it is in are different ones, and in the body of
one of them it goes from a scope to scopes inside it.

* `Tree.Contains`: the calls in the code of a scope; `Tree.Calls`, `Tree.Reachable`: functions that
  call each other, and those that the program reaches.
* `Entered`: what is known of the functions that are being emitted, with `Entered.inside` and
  `Entered.called` for the two ways to go deeper.
* `checkedCode`: the emitter that looks at every scope whether a function comes twice.
* `scopeCode_matches`: it does the same, and what is refused is a call to a function around it.
* `emit_recursion`: recursion is found exactly. -/

namespace RegisterMachine.Structured

open RegisterMachine.Success

/-! ### Functions that call each other -/

/-- A block, branch or body of a loop of this scope. -/
def Tree.Opens (t : Tree) (x y : ScopeId) : Prop :=
  ∃ s ∈ (t.scope x).statements.toList, y ∈ s.bodies

/-- **The call is in the code of the scope**: in one of its statements, or in a scope inside it.
Bodies of functions that are declared there do not count. -/
def Tree.Contains (t : Tree) (x : ScopeId) (call : Call) : Prop :=
  ∃ y, Relation.ReflTransGen t.Opens x y ∧ ∃ s ∈ (t.scope y).statements.toList, call ∈ s.calls

/-- The call is in the body of the function. -/
def Tree.Makes (t : Tree) (f : StatementId) (call : Call) : Prop :=
  ∃ parameters body, t.Function f parameters body ∧ t.Contains body call

/-- **One function calls another.** -/
def Tree.Calls (t : Tree) (f g : StatementId) : Prop :=
  ∃ call, t.Makes f call ∧ call.resolved = some g

/-- **The program reaches the function**: it is called in the code of the root, or by a function
that is reached. -/
inductive Tree.Reachable (t : Tree) : StatementId → Prop
  | root {g : StatementId} {call : Call} (contains : t.Contains rootScope call)
    (resolved : call.resolved = some g) : Reachable t g
  | step {f g : StatementId} (reachable : Reachable t f) (calls : t.Calls f g) : Reachable t g

section Contains

variable {t : Tree} {x y : ScopeId} {call : Call}

theorem Tree.Contains.own {s : Statement} (hs : s ∈ (t.scope x).statements.toList)
    (hcall : call ∈ s.calls) : t.Contains x call :=
  ⟨x, .refl, s, hs, hcall⟩

theorem Tree.Contains.outside (h : t.Contains y call) (hxy : t.Opens x y) : t.Contains x call := by
  obtain ⟨z, hyz, hs⟩ := h
  exact ⟨z, .head hxy hyz, hs⟩

end Contains

/-! ### The functions that are being emitted -/

/-- The places of all functions. -/
def Tree.functionIds (t : Tree) : List StatementId :=
  t.scopes.toList.zipIdx.flatMap fun (scope, x) =>
    (scope.statements.toList.zipIdx.filter fun p => p.1.isFunction).map fun p => ⟨x, p.2⟩

theorem Tree.length_functionIds (t : Tree) : t.functionIds.length = t.functionCount := by
  have hscope : ∀ l : List Statement, (l.zipIdx.filter fun p => p.1.isFunction).length =
      (l.filter (·.isFunction)).length := by
    intro l
    have hmap := congrArg List.length (List.filter_map (l := l.zipIdx) (f := Prod.fst)
      (p := Statement.isFunction))
    rw [List.zipIdx_map_fst, List.length_map] at hmap
    exact hmap.symm
  have hrow : t.scopes.toList = t.scopes.toList.zipIdx.map Prod.fst :=
    (List.zipIdx_map_fst 0 _).symm
  rw [functionIds, functionCount, List.length_flatMap, List.length_flatMap]
  conv_rhs => rw [hrow, List.map_map]
  simp only [List.length_map, hscope, Function.comp_def]

theorem Tree.Function.mem_functionIds {t : Tree} {f : StatementId} {parameters body : ScopeId}
    (h : t.Function f parameters body) : f ∈ t.functionIds := by
  obtain ⟨i, returns, span, hs⟩ := h
  obtain ⟨scope, hscope, hindex⟩ := Option.bind_eq_some_iff.mp hs
  rw [← Array.getElem?_toList] at hscope hindex
  have hentry := List.mk_mem_zipIdx_iff_getElem?.mpr hindex
  refine List.mem_flatMap.mpr ⟨(scope, f.scope), List.mk_mem_zipIdx_iff_getElem?.mpr hscope, ?_⟩
  exact List.mem_map.mpr ⟨_, List.mem_filter.mpr ⟨hentry, rfl⟩, rfl⟩

/-- **Where the emitter is**: in this scope, and in these functions, the innermost first. -/
structure Entered (t : Tree) (inlining : List StatementId) (scope : ScopeId) : Prop where
  lt : scope < t.scopes.size
  nodup : inlining.Nodup
  reachable : ∀ f ∈ inlining, t.Reachable f ∧ ∃ parameters body, t.Function f parameters body
  /-- The calls in the scope are calls of the program. -/
  contained : ∀ call, t.Contains scope call → ∀ g, call.resolved = some g → t.Reachable g
  /-- They are calls of the innermost function, -/
  makes : ∀ f, inlining.head? = some f → ∀ call, t.Contains scope call → t.Makes f call
  /-- and the others call this one. -/
  calls : ∀ f, inlining.head? = some f → ∀ g ∈ inlining, Relation.ReflTransGen t.Calls g f

/-- How many more scopes can be entered inside each other. -/
def Tree.remaining (t : Tree) (inlining : List StatementId) (scope : ScopeId) : Nat :=
  (t.functionCount - inlining.length) * t.scopes.size + (t.scopes.size - scope)

namespace Entered

variable {t : Tree} {inlining : List StatementId} {scope : ScopeId}

theorem root (arranged : t.Arranged) : Entered t [] rootScope where
  lt := arranged.root.1
  nodup := List.nodup_nil
  reachable := nofun
  contained _ hcall _ hresolved := .root hcall hresolved
  makes := nofun
  calls := nofun

theorem remaining_pos (h : Entered t inlining scope) : 0 < t.remaining inlining scope := by
  have hpos : 0 < t.scopes.size - scope := Nat.sub_pos_of_lt h.lt
  exact Nat.add_pos_right _ hpos

/-- No more functions than there are. -/
theorem length_le (h : Entered t inlining scope) : inlining.length ≤ t.functionCount := by
  rw [← t.length_functionIds]
  refine (h.nodup.subperm fun f hf => ?_).length_le
  obtain ⟨-, parameters, body, hfunction⟩ := h.reachable f hf
  exact hfunction.mem_functionIds

section Deeper

variable (arranged : t.Arranged) (h : Entered t inlining scope) {s : Statement}
  (hs : s ∈ (t.scope scope).statements.toList)

include arranged h hs

/-- **Into a scope** that a statement opens. -/
theorem inside {body : ScopeId} (hbody : body ∈ s.bodies) : Entered t inlining body ∧
    t.remaining inlining body < t.remaining inlining scope := by
  obtain ⟨index, hplace⟩ := exists_place hs
  obtain ⟨-, houter, hlt⟩ := arranged.nested _ s hplace _ (Statement.nested_of_bodies hbody)
  have hopens : t.Opens scope body := ⟨s, hs, hbody⟩
  constructor
  · exact ⟨hlt, h.nodup, h.reachable, fun call hcall => h.contained call (hcall.outside hopens),
      fun f hf call hcall => h.makes f hf call (hcall.outside hopens), h.calls⟩
  · have hdeeper : t.scopes.size - body < t.scopes.size - scope := Nat.sub_lt_sub_left h.lt houter
    exact Nat.add_lt_add_left hdeeper _

/-- **Into the body of a function** that is called. -/
theorem called {call : Call} (hcall : call ∈ s.calls) {f : StatementId}
    (hresolved : call.resolved = some f) (hfresh : f ∉ inlining) {parameters body : ScopeId}
    (hf : t.Function f parameters body) : Entered t (f :: inlining) body ∧
      t.remaining (f :: inlining) body < t.remaining inlining scope := by
  have hcontains : t.Contains scope call := .own hs hcall
  have hreachable := h.contained call hcontains f hresolved
  have hlt : body < t.scopes.size := by
    obtain ⟨i, returns, span, hfunction⟩ := hf
    exact (arranged.nested f _ hfunction (body, parameters) List.mem_cons_self).2.2
  have hentered : Entered t (f :: inlining) body := by
    refine ⟨hlt, List.nodup_cons.mpr ⟨hfresh, h.nodup⟩, ?_, fun call hcall g hg => ?_, ?_, ?_⟩
    · exact List.forall_mem_cons.mpr ⟨⟨hreachable, parameters, body, hf⟩, h.reachable⟩
    · exact .step hreachable ⟨call, ⟨parameters, body, hf, hcall⟩, hg⟩
    · rintro _ ⟨⟩ call hcall
      exact ⟨parameters, body, hf, hcall⟩
    · rintro _ ⟨⟩ g hg
      rcases List.mem_cons.mp hg with rfl | hg
      · exact .refl
      · -- the innermost function so far is the one that calls this one
        cases inlining with
        | nil => cases hg
        | cons f' rest =>
          exact (h.calls f' rfl g hg).tail ⟨call, h.makes f' rfl call hcontains, hresolved⟩
  refine ⟨hentered, ?_⟩
  have hlength := hentered.length_le
  rw [List.length_cons] at hlength
  have hfewer : t.functionCount - inlining.length =
      t.functionCount - (inlining.length + 1) + 1 := by omega
  have hpos : 0 < t.scopes.size - scope := Nat.sub_pos_of_lt h.lt
  unfold Tree.remaining
  rw [List.length_cons, hfewer, Nat.succ_mul]
  have hle : t.scopes.size - body ≤ t.scopes.size := Nat.sub_le _ _
  omega

end Deeper

end Entered

/-! ### Looking out for functions that come twice -/

/-- **The emitter that looks at the functions that it is in**, whenever it enters a scope: it gives
up if one of them comes twice. -/
def checkedCode (t : Tree) : (depth : Nat) → Surroundings → ScopeId → Emit Code
  | 0, _, _ => throw .endless
  | depth + 1, around, scope =>
    if around.inlining.Nodup then do
      let statements := (t.scope scope).statements.toList
      let codes ← statements.mapM (commentedCode t (checkedCode t depth) around scope)
      Emit.releaseDeclared statements scope
      return codes.flatten
    else throw .endless

/-- The assembly of a tree by this emitter, with at most `depth` scopes inside each other. -/
def Tree.checkedEmit (t : Tree) (depth : Nat) : Except Refusal Emission :=
  ((checkedCode t depth {} rootScope).run {}).map fun answer =>
    ⟨answer.1 ++ [.halt], answer.2.registers.symbols.toList, answer.2.registers.highest⟩

/-- **What the emitter may refuse**: never that it does not come to an end, and as recursion just a
call in a function that is reached to one that comes back to it. -/
def Tree.Blames (t : Tree) : Refusal → Prop
  | .endless => False
  | .error e => e.code = .recursiveCall → ∃ f g call, t.Reachable f ∧ t.Makes f call ∧
    call.resolved = some g ∧ Relation.ReflTransGen t.Calls g f ∧ e = call.recursion

theorem Tree.usual_blames (t : Tree) : Usual t.Blames := by
  intro code detail span hcode h
  exact absurd h hcode

section Matches

variable {t : Tree} {inlining : List StatementId} {scope : ScopeId}

/-- A call to a function that is being emitted is one that comes back. -/
theorem Entered.blames (h : Entered t inlining scope) {call : Call}
    (hcall : t.Contains scope call) {g : StatementId} (hresolved : call.resolved = some g)
    (hg : g ∈ inlining) : t.Blames (.error call.recursion) := by
  intro _
  cases inlining with
  | nil => cases hg
  | cons f rest =>
    have hf := (h.reachable f List.mem_cons_self).1
    exact ⟨f, g, call, hf, h.makes f rfl call hcall, hresolved, h.calls f rfl g hg, rfl⟩

/-- **Whatever the depth, if only it is enough**, the emitter does the same when it looks out for
functions that come twice. -/
theorem scopeCode_matches (arranged : t.Arranged) {depth depth' : Nat}
    (h : Entered t inlining scope) (hdepth : t.remaining inlining scope ≤ depth)
    (hdepth' : t.remaining inlining scope ≤ depth') {around : Surroundings}
    (haround : around.inlining = inlining) :
    Matches t.Blames (scopeCode t depth around scope) (checkedCode t depth' around scope) := by
  induction depth generalizing depth' inlining scope around with
  | zero => exact absurd h.remaining_pos (Nat.not_lt.mpr hdepth)
  | succ depth ih =>
    cases depth' with
    | zero => exact absurd h.remaining_pos (Nat.not_lt.mpr hdepth')
    | succ depth' =>
      subst haround
      rw [scopeCode, checkedCode, if_pos h.nodup]
      refine .bind (.mapM fun s hs => ?_) fun _ => .bind (.modify _) fun _ => .answer _
      have hless : ∀ {inner : Nat}, inner < t.remaining around.inlining scope →
          inner ≤ depth ∧ inner ≤ depth' := by
        intro inner hinner
        omega
      refine commentedCode_matches t.usual_blames scope (fun call hcall g hresolved => ?_)
        fun body hbody inside hinside => ?_
      · refine ⟨h.blames (.own hs hcall) hresolved, fun hfresh parameters body hf => ?_⟩
        obtain ⟨hentered, hlt⟩ := h.called arranged hs hcall hresolved hfresh hf
        exact fun inside hinside => ih hentered (hless hlt).1 (hless hlt).2 hinside
      · obtain ⟨hentered, hlt⟩ := h.inside arranged hs hbody
        exact ih hentered (hless hlt).1 (hless hlt).2 hinside

theorem Tree.remaining_root (t : Tree) :
    t.remaining [] rootScope = t.scopes.size * (t.functionCount + 1) := by
  rw [remaining, rootScope, List.length_nil, Nat.mul_succ, Nat.mul_comm]
  rfl

theorem Tree.remaining_le_emissionDepth (t : Tree) :
    t.remaining [] rootScope ≤ t.emissionDepth := by
  rw [remaining_root]
  exact Nat.le_mul_of_pos_right _ (Nat.succ_pos _)

end Matches

/-! ### Programs with code -/

section Code

variable {t : Tree} {task : Task} {x y : ScopeId} {call : Call} {f g : StatementId}
  {parameters body : ScopeId}

theorem Tree.Opens.enters (h : t.Opens x y) : Enters t x y := by
  obtain ⟨s, hs, hy⟩ := h
  exact .inl (List.mem_flatMap.mpr ⟨s, hs, hy⟩)

theorem Tree.Opens.all_enters (h : Relation.ReflTransGen t.Opens x y) :
    Relation.ReflTransGen (Enters t) x y := by
  induction h with
  | refl => exact .refl
  | tail _ hopens ih => exact ih.tail hopens.enters

/-- The body of a function that is called is entered from where the call is. -/
theorem Tree.Contains.enters (h : t.Contains x call) (hresolved : call.resolved = some g)
    (hg : t.Function g parameters body) : Relation.TransGen (Enters t) x body := by
  obtain ⟨y, hxy, s, hs, hcall⟩ := h
  have hentered : Enters t y body := by
    refine .inr ⟨g, List.mem_flatMap.mpr ⟨s, hs, ?_⟩, parameters, hg⟩
    exact Statement.mem_callees.mpr ⟨call, hcall, hresolved⟩
  exact .tail' (Tree.Opens.all_enters hxy) hentered

theorem Visits.trans (h : Visits t task x) (hxy : Relation.TransGen (Enters t) x y) :
    Visits t task y := by
  induction hxy with
  | single hstep => exact h.next hstep
  | tail _ hstep ih => exact ih.next hstep

theorem Tree.Arranged.function (arranged : t.Arranged) (h : t.Contains x call)
    (hresolved : call.resolved = some g) : ∃ parameters body, t.Function g parameters body := by
  obtain ⟨y, -, s, hs, hcall⟩ := h
  obtain ⟨index, hplace⟩ := exists_place hs
  exact (arranged.callees _ s hplace g (Statement.mem_callees.mpr ⟨call, hcall, hresolved⟩)).1

/-- **The bodies of functions that the program reaches** are visited from the root. -/
theorem Tree.Reachable.visits (arranged : t.Arranged) (h : t.Reachable g) :
    ∃ parameters body, t.Function g parameters body ∧ Visits t (.scope rootScope) body := by
  have hroot : Visits t (.scope rootScope) rootScope :=
    ⟨rootScope, .inl (List.mem_singleton_self _), .refl⟩
  induction h with
  | root contains resolved =>
    obtain ⟨parameters, body, hg⟩ := arranged.function contains resolved
    exact ⟨parameters, body, hg, hroot.trans (contains.enters resolved hg)⟩
  | step _ calls ih =>
    obtain ⟨_, body, hf, hvisits⟩ := ih
    obtain ⟨call, ⟨_, body', hf', contains⟩, resolved⟩ := calls
    obtain ⟨-, rfl⟩ := hf.unique hf'
    obtain ⟨parameters, inner, hg⟩ := arranged.function contains resolved
    exact ⟨parameters, inner, hg, hvisits.trans (contains.enters resolved hg)⟩

/-- Functions that call each other have bodies that enter each other. -/
theorem Tree.Calls.enters (arranged : t.Arranged) (h : Relation.TransGen t.Calls f g)
    (hf : t.Function f parameters body) :
    ∃ parameters' body', t.Function g parameters' body' ∧
      Relation.TransGen (Enters t) body body' := by
  have hstep : ∀ {f g parameters body}, t.Calls f g → t.Function f parameters body →
      ∃ parameters' body', t.Function g parameters' body' ∧
        Relation.TransGen (Enters t) body body' := by
    rintro f g parameters body ⟨call, ⟨_, body₀, hf₀, contains⟩, resolved⟩ hf
    obtain ⟨-, rfl⟩ := hf.unique hf₀
    obtain ⟨parameters', body', hg⟩ := arranged.function contains resolved
    exact ⟨parameters', body', hg, contains.enters resolved hg⟩
  induction h with
  | single hcalls => exact hstep hcalls hf
  | tail _ hcalls ih =>
    obtain ⟨_, middle, hmiddle, henters⟩ := ih
    obtain ⟨parameters', body', hg, henters'⟩ := hstep hcalls hmiddle
    exact ⟨parameters', body', hg, henters.trans henters'⟩

/-- **If a tree has code**, no function that the program reaches calls itself. -/
theorem Tree.not_recursive_of_emit (arranged : t.Arranged) {e : Emission} (h : t.emit = .ok e)
    (hf : t.Reachable f) : ¬ Relation.TransGen t.Calls f f := by
  intro hcycle
  obtain ⟨code, R, n, hemits, -⟩ := emit_ok h
  obtain ⟨parameters, body, hfunction, hvisits⟩ := hf.visits arranged
  obtain ⟨parameters', body', hfunction', henters⟩ := Tree.Calls.enters arranged hcycle hfunction
  obtain ⟨-, rfl⟩ := hfunction.unique hfunction'
  exact (hemits.ends hvisits).not_visits (visits_inside_iff.mpr henters)

end Code

/-- **What is refused of an arranged tree** is not that emitting does not come to an end. -/
theorem Tree.Arranged.blames {t : Tree} (arranged : t.Arranged) {refusal : Refusal}
    (h : t.emit = .error refusal) : t.Blames refusal := by
  have hmatches : Matches t.Blames (scopeCode t t.emissionDepth {} rootScope)
      (checkedCode t _ {} rootScope) :=
    scopeCode_matches arranged (.root arranged) t.remaining_le_emissionDepth (Nat.le_refl _) rfl
  obtain ⟨-, houtcome⟩ := hmatches {}
  rw [Tree.emit_eq] at h
  have hanswer : Outcome t.Blames (fun _ => True) (.error refusal) :=
    h ▸ houtcome.map fun _ _ => trivial
  exact hanswer

/-! ### The tree of every source -/

/-- **Recursion is found exactly**, in the tree of every source. Emitting comes to an end: a depth
of so many scopes is enough, and the functions that are being emitted are always different ones. A
call is refused as recursion only if it is in a function that the program reaches, and the function
that it calls comes back to this one; so the functions that are not reached do not matter. If there
is code, no function that is reached calls itself, directly or by others. -/
theorem emit_recursion {source : String} {t : Tree} (h : analyze source = .ok t) :
    t.emit ≠ .error .endless ∧
    (∀ depth, t.scopes.size * (t.functionCount + 1) ≤ depth → t.checkedEmit depth = t.emit) ∧
    (∀ e, t.emit = .error (.error e) → e.code = .recursiveCall →
      ∃ f g call, t.Reachable f ∧ t.Reachable g ∧ Relation.TransGen t.Calls g g ∧
        t.Makes f call ∧ call.resolved = some g ∧ e = call.recursion) ∧
    ∀ e, t.emit = .ok e → ∀ f, t.Reachable f → ¬ Relation.TransGen t.Calls f f := by
  have arranged := analyze_arranged h
  have hmatches : ∀ depth, t.remaining [] rootScope ≤ depth →
      Matches t.Blames (scopeCode t t.emissionDepth {} rootScope)
        (checkedCode t depth {} rootScope) := fun depth hdepth =>
    scopeCode_matches arranged (.root arranged) t.remaining_le_emissionDepth hdepth rfl
  refine ⟨fun hendless => arranged.blames hendless, fun depth hdepth => ?_, fun e he hcode => ?_,
    fun e he f hf => Tree.not_recursive_of_emit arranged he hf⟩
  · obtain ⟨heq, -⟩ := hmatches depth (t.remaining_root ▸ hdepth) {}
    rw [Tree.checkedEmit, StateT.run, ← heq, ← Tree.emit_eq]
  · obtain ⟨f, g, call, hf, hmakes, hresolved, hback, rfl⟩ := arranged.blames he hcode
    have hcalls : t.Calls f g := ⟨call, hmakes, hresolved⟩
    exact ⟨f, g, call, hf, .step hf hcalls, .tail' hback hcalls, hmakes, hresolved, rfl⟩

/-- A function that calls itself, and is called. -/
def recursive : String := "f(); fn f() \x7b f(); \x7d"

def recursiveTokens : List Token :=
  [⟨.identifier, .name "f", ⟨1, 1, 1⟩, "f"⟩, ⟨.leftParen, .none, ⟨1, 2, 1⟩, "("⟩,
    ⟨.rightParen, .none, ⟨1, 3, 1⟩, ")"⟩, ⟨.semicolon, .none, ⟨1, 4, 1⟩, ";"⟩,
    ⟨.keyword .fn, .none, ⟨1, 6, 2⟩, "fn"⟩, ⟨.identifier, .name "f", ⟨1, 9, 1⟩, "f"⟩,
    ⟨.leftParen, .none, ⟨1, 10, 1⟩, "("⟩, ⟨.rightParen, .none, ⟨1, 11, 1⟩, ")"⟩,
    ⟨.leftBrace, .none, ⟨1, 13, 1⟩, "\x7b"⟩, ⟨.identifier, .name "f", ⟨1, 15, 1⟩, "f"⟩,
    ⟨.leftParen, .none, ⟨1, 16, 1⟩, "("⟩, ⟨.rightParen, .none, ⟨1, 17, 1⟩, ")"⟩,
    ⟨.semicolon, .none, ⟨1, 18, 1⟩, ";"⟩, ⟨.rightBrace, .none, ⟨1, 20, 1⟩, "\x7d"⟩]

theorem tokenize_recursive : tokenize recursive = .ok recursiveTokens :=
  ok_of_toOption (by decide +kernel)

def recursiveTree : Tree :=
  ⟨#[⟨[], #[.evaluate (.call ⟨"f", none, none, ⟨1, 1, 1⟩⟩ [] (some ⟨rootScope, 1⟩) ⟨1, 1, 3⟩),
      .function ⟨"f", none, some rootScope, ⟨1, 9, 1⟩⟩ 1 2 none ⟨1, 6, 4⟩]⟩,
    ⟨[rootScope], #[]⟩,
    ⟨[1], #[.evaluate (.call ⟨"f", none, none, ⟨1, 15, 1⟩⟩ [] (some ⟨rootScope, 1⟩) ⟨1, 15, 3⟩)]⟩]⟩

theorem analyze_recursive : analyze recursive = .ok recursiveTree := by
  rw [analyze, tokenize_recursive]
  cbv

theorem emit_recursive : recursiveTree.emit =
    .error (.error ⟨.recursiveCall, "`f` calls itself and cannot be inlined", ⟨1, 15, 3⟩⟩) := by
  have hrefused : (match recursiveTree.emit with
      | .ok _ => none
      | .error refusal => some refusal) =
        some (.error ⟨.recursiveCall, "`f` calls itself and cannot be inlined", ⟨1, 15, 3⟩⟩) := by
    decide +kernel
  split at hrefused
  · cases hrefused
  · rename_i refusal he
    rw [he, Option.some.inj hrefused]

/-- The call in the function is refused, and it is there because the root calls the function. -/
theorem recursive_refused : ∃ t e g, ∃ call : Call, analyze recursive = .ok t ∧
    t.emit = .error (.error e) ∧ e.code = .recursiveCall ∧ e.span = ⟨1, 15, 3⟩ ∧
      t.Reachable g ∧ Relation.TransGen t.Calls g g ∧ e = call.recursion := by
  obtain ⟨-, -, hrefused, -⟩ := emit_recursion analyze_recursive
  obtain ⟨_, g, call, -, hg, hcycle, -, -, hcall⟩ := hrefused _ emit_recursive rfl
  exact ⟨_, _, g, call, analyze_recursive, emit_recursive, rfl, rfl, hg, hcycle, hcall⟩

end RegisterMachine.Structured
