import RegisterMachine.Proofs.Structured.Building
import RegisterMachine.Proofs.Structured.Inferring
import RegisterMachine.Structured.Emission
import RegisterMachine.Structured.Tree.Calls

/-! # What is wrong with a tree that was read

Calls are bound and code is emitted long after the tokens were read. What is refused then is about a
name, a call or an array of the tree, and these have kept the places that the parser made of the
places of the tokens.

* `Tree.Located`: the places of a tree are made of those of tokens.
* `Tree.bindCalls_outcome`, `Tree.Located.inferTypes`: they are kept.
* `Refuses`, `Tree.emit_outcome`: what is refused is about the tokens. -/

namespace RegisterMachine.Structured

open RegisterMachine.Success

/-! ### Places of a tree -/

namespace Expression

mutual

/-- **The places of an expression** are made of those of tokens with the property `T`. -/
def Located (T : Token → Prop) : Expression → Prop
  | name i => Spanned T i.span
  | number _ span | new _ span => Spanned T span
  | binary _ left right span => Spanned T span ∧ left.Located T ∧ right.Located T
  | element i index span => Spanned T i.span ∧ Spanned T span ∧ index.Located T
  | call i arguments _ span => Spanned T i.span ∧ Spanned T span ∧ AllLocated T arguments

def AllLocated (T : Token → Prop) : List Expression → Prop
  | [] => True
  | e :: rest => e.Located T ∧ AllLocated T rest

end

theorem allLocated {T : Token → Prop} : ∀ {es : List Expression}, (∀ e ∈ es, e.Located T) →
    AllLocated T es
  | [], _ => trivial
  | e :: _, h => ⟨h e List.mem_cons_self, allLocated fun e he => h e (List.mem_cons_of_mem _ he)⟩

end Expression

def Target.Located (T : Token → Prop) : Target → Prop
  | name i => Spanned T i.span
  | element i index span => Spanned T i.span ∧ Spanned T span ∧ index.Located T

/-- The same for the expressions of a statement. -/
def Statement.Located (T : Token → Prop) : Statement → Prop
  | assign target e _ _ => target.Located T ∧ e.Located T
  | branch e _ _ _ | loop e _ _ | give e _ | evaluate e => e.Located T
  | block _ | leave _ | again _ | function _ _ _ _ _ | parameter _ => True

def Scope.Located (T : Token → Prop) (scope : Scope) : Prop :=
  ∀ s ∈ scope.statements.toList, s.Located T

/-- **The places of a tree** are made of those of tokens. -/
def Tree.Located (T : Token → Prop) (t : Tree) : Prop := ∀ scope ∈ t.scopes.toList, scope.Located T

section Trees

variable {T : Token → Prop} {t : Tree}

theorem Tree.located_iff :
    t.Located T ↔ ∀ id s, t.statement? id = some s → s.Located T := by
  constructor
  · intro h id s hs
    obtain ⟨scope, hscope, hindex⟩ := Option.bind_eq_some_iff.mp hs
    refine h scope ?_ s ?_
    · exact Array.mem_toList_iff.mpr (Array.mem_of_getElem? hscope)
    · exact Array.mem_toList_iff.mpr (Array.mem_of_getElem? hindex)
  · intro h scope hscope s hs
    obtain ⟨x, hx⟩ := Array.mem_iff_getElem?.mp (Array.mem_toList_iff.mp hscope)
    obtain ⟨index, hindex⟩ := Array.mem_iff_getElem?.mp (Array.mem_toList_iff.mp hs)
    refine h ⟨x, index⟩ s ?_
    rw [statement?, hx]
    exact hindex

theorem Tree.Located.scope (h : t.Located T) (id : ScopeId) : (t.scope id).Located T := by
  rw [Tree.scope, Array.getD_eq_getD_getElem?]
  cases hscope : t.scopes[id]? with
  | none => exact List.forall_mem_nil _
  | some scope => exact h scope (Array.mem_toList_iff.mpr (Array.mem_of_getElem? hscope))

end Trees

namespace Parser

variable {T : Token → Prop} {t : Tree} {scope : ScopeId}

theorem Parses.located {e : Expression} (he : Parses T t scope e) : e.Located T := by
  induction he with
  | number value place => exact .token place
  | name use => exact Uses.spanned use
  | binary op first second ih ih' => exact ⟨first.spanned.upTo second.spanned, ih, ih'⟩
  | element use array inner closes ih =>
    exact ⟨Uses.spanned use, (Uses.spanned use).upTo (.token closes), ih⟩
  | call word kind each closes ih =>
    exact ⟨.token word, (Spanned.token word).upTo (.token closes), Expression.allLocated ih⟩

theorem Declares.spanned {i : Identifier} (hi : Declares T t scope i) : Spanned T i.span := by
  obtain ⟨name, hname, -, -, hspan⟩ := hi.word
  exact hspan ▸ .token hname

theorem Forms.located {around : Surroundings} {s : Statement} (hs : Forms T t scope around s) :
    s.Located T := by
  cases hs with
  | array declares _ _ _ _ value => exact ⟨declares.spanned, value⟩
  | declare declares _ value => exact ⟨declares.spanned, value.located⟩
  | assign target value => exact ⟨target.located, value.located⟩
  | assignElement target value => exact ⟨target.located, value.located⟩
  | leave | again => trivial
  | evaluate value => exact value.located

theorem Made.located {s : Statement} (hs : Made T t scope s) : s.Located T := by
  cases hs with
  | plain forms => exact forms.located
  | give gives =>
    obtain ⟨e, span, rfl, he, -⟩ := gives
    exact he.located
  | loop condition | branch condition => exact condition.value.located
  | block | function | parameter => trivial

end Parser

/-! ### Calls that are bound -/

section Calls

variable {T : Token → Prop} {stop : Span} {t : Tree} {scope : ScopeId}

theorem Tree.callee_outcome {i : Identifier} {span : Span} (hi : Spanned T i.span)
    (hspan : Spanned T span) (given : Nat) :
    Outcome (Blamed T stop) (fun _ => True) (t.callee scope i given span) := by
  unfold callee
  split
  · exact blamed hi (by decide)
  · dsimp only
    split
    · trivial
    · exact blamed hspan (by decide)

mutual

theorem Expression.bindCalls_outcome : ∀ e : Expression, e.Located T →
    Outcome (Blamed T stop) (Located T) (e.bindCalls t scope)
  | .name _, h | .number _ _, h | .new _ _, h => h
  | .binary op left right span, ⟨hspan, hleft, hright⟩ => by
    rw [bindCalls]
    refine (bindCalls_outcome left hleft).bind fun left' hleft' => ?_
    refine (bindCalls_outcome right hright).bind fun right' hright' => ?_
    exact ⟨hspan, hleft', hright'⟩
  | .element i index span, ⟨hi, hspan, hindex⟩ => by
    rw [bindCalls]
    refine (bindCalls_outcome index hindex).bind fun index' hindex' => ?_
    exact ⟨hi, hspan, hindex'⟩
  | .call i arguments resolved span, ⟨hi, hspan, harguments⟩ => by
    rw [bindCalls]
    refine (bindAll_outcome arguments harguments).bind fun arguments' harguments' => ?_
    refine (Tree.callee_outcome hi hspan _).bind fun callee _ => ?_
    exact ⟨hi, hspan, harguments'⟩

theorem Expression.bindAll_outcome : ∀ es : List Expression, AllLocated T es →
    Outcome (Blamed T stop) (AllLocated T) (bindAll t scope es)
  | [], _ => trivial
  | e :: es, ⟨he, hes⟩ => by
    rw [bindAll]
    refine (bindCalls_outcome e he).bind fun e' he' => ?_
    refine (bindAll_outcome es hes).bind fun es' hes' => ?_
    exact ⟨he', hes'⟩

end

theorem Statement.bindCalls_outcome {s : Statement} (h : s.Located T) :
    Outcome (Blamed T stop) (Located T) (s.bindCalls t scope) := by
  cases s with
  | assign target e initial span =>
    obtain ⟨htarget, he⟩ := h
    have hbound : Outcome (Blamed T stop) (Target.Located T) (target.bindCalls t scope) := by
      cases target with
      | name i => exact htarget
      | element i index place =>
        obtain ⟨hi, hplace, hindex⟩ := htarget
        refine (Expression.bindCalls_outcome index hindex).bind fun index' hindex' => ?_
        exact ⟨hi, hplace, hindex'⟩
    rw [bindCalls]
    refine hbound.bind fun target' htarget' => ?_
    refine (Expression.bindCalls_outcome e he).bind fun e' he' => ?_
    exact ⟨htarget', he'⟩
  | branch e | loop e | give e | evaluate e =>
    rw [bindCalls]
    exact (Expression.bindCalls_outcome e h).bind fun e' he' => he'
  | block | leave | again | function | parameter => trivial

theorem Tree.bindScope_outcome {s : Scope} (h : s.Located T) :
    Outcome (Blamed T stop) (Scope.Located T) (t.bindScope scope s) := by
  have hall : Outcome (Blamed T stop) (fun l => ∀ s ∈ l, s.Located T)
      (s.statements.toList.mapM (Statement.bindCalls t scope)) :=
    Outcome.mapM fun s hs => Statement.bindCalls_outcome (h s hs)
  unfold bindScope
  rw [Array.mapM_eq_mapM_toList]
  refine Outcome.map (Outcome.map hall fun l hl => ?_) fun statements hstatements => hstatements
  exact fun s hs => hl s (by simpa using hs)

/-- **Binding the calls** keeps the places. -/
theorem Tree.bindCalls_outcome (h : t.Located T) :
    Outcome (Blamed T stop) (Tree.Located T) t.bindCalls := by
  have hall : Outcome (Blamed T stop) (fun l => ∀ scope ∈ l, scope.Located T)
      (t.scopes.zipIdx.toList.mapM fun entry => t.bindScope entry.2 entry.1) := by
    refine Outcome.mapM fun entry hentry => bindScope_outcome (h entry.1 ?_)
    rw [Array.toList_zipIdx] at hentry
    exact List.fst_mem_of_mem_zipIdx hentry
  unfold bindCalls
  rw [Array.mapM_eq_mapM_toList]
  refine Outcome.map (Outcome.map hall fun l hl => ?_) fun scopes hscopes => hscopes
  exact fun scope hscope => hl scope (by simpa using hscope)

theorem Statement.Located.inferStatement {s : Statement} (h : s.Located T) :
    (t.inferStatement s).Located T := by
  unfold Tree.inferStatement
  split
  · split <;> exact h
  · exact h
  · exact h

/-- Filling in the types keeps the places as well. -/
theorem Tree.Located.inferTypes (h : t.Located T) : t.inferTypes.Located T := by
  unfold Tree.inferTypes
  generalize t.statementIds = ids
  induction ids generalizing t with
  | nil => exact h
  | cons id ids ih =>
    refine ih (Tree.located_iff.mpr fun id' s hs => ?_)
    rw [Tree.located_iff] at h
    rw [Tree.statement?_inferAt] at hs
    split at hs
    · obtain ⟨s', hs', rfl⟩ := Option.map_eq_some_iff.mp hs
      exact (h id s' hs').inferStatement
    · exact h id' s hs

end Calls

/-! ### Code that is refused -/

/-- **What is refused** is about the tokens. -/
def Refuses {α : Type} (T : Token → Prop) (stop : Span) (x : Emit α) : Prop :=
  ∀ e, Outcome (fun r => ∀ err, r = Refusal.error err → Blamed T stop err) (fun _ => True) (x e)

namespace Refuses

variable {α β : Type} {T : Token → Prop} {stop : Span} {x : Emit α} {f : α → Emit β}

theorem bind (h : Refuses T stop x) (hf : ∀ a, Refuses T stop (f a)) :
    Refuses T stop (x >>= f) := by
  intro e
  show Outcome _ _ (x e >>= fun p => f p.1 p.2)
  exact (h e).bind fun p _ => hf p.1 p.2

theorem answer (a : α) : Refuses T stop (pure a : Emit α) := fun _ => trivial

theorem modify (g : Emitter → α × Emitter) : Refuses T stop (modifyGet g : Emit α) :=
  fun _ => trivial

theorem about {code : ErrorCode} {detail : String} {span : Span} (hspan : Spanned T span)
    (hcode : code ≠ .unexpectedCharacter) :
    Refuses T stop (Emit.refuse code detail span : Emit α) := by
  rintro e err ⟨⟩
  exact ⟨hcode, .inr hspan⟩

theorem mapM {f : α → Emit β} : ∀ {l : List α}, (∀ a ∈ l, Refuses T stop (f a)) →
    Refuses T stop (l.mapM f)
  | [], _ => by
    rw [List.mapM_nil]
    exact answer []
  | a :: l, h => by
    rw [List.mapM_cons]
    exact bind (h a List.mem_cons_self) fun b =>
      bind (mapM fun a ha => h a (List.mem_cons_of_mem _ ha)) fun bs => answer (b :: bs)

end Refuses

section Parts

variable {T : Token → Prop} {stop : Span}

theorem refuses_simple? (e : Expression) : Refuses T stop (Emit.simple? e) := by
  cases e with
  | name i => exact .bind (.modify _) fun _ => .answer _
  | number | binary | element | new | call => exact .answer _

theorem refuses_arrayBase {i : Identifier} (hi : Spanned T i.span) :
    Refuses T stop (Emit.arrayBase i) := by
  refine .bind (fun _ => trivial) fun e => ?_
  split
  · exact .answer _
  · exact .about hi (by decide)

theorem refuses_passStaged (scope : ScopeId) :
    ∀ staged : List (String × Nat), Refuses T stop (Emit.passStaged scope staged)
  | [] => .answer _
  | (_, _) :: rest =>
    .bind (.modify _) fun _ => .bind (refuses_passStaged scope rest) fun _ => .answer _

theorem refuses_callee (t : Tree) (inlining : List StatementId) {i : Identifier} {span : Span}
    (hi : Spanned T i.span) (hspan : Spanned T span) (resolved : Option StatementId) :
    Refuses T stop (Emit.callee t inlining i resolved span) := by
  unfold Emit.callee
  split
  · exact .about hi (by decide)
  · split
    · exact .about hspan (by decide)
    · split
      · exact .answer _
      · exact .about hi (by decide)

end Parts

section Code

variable {T : Token → Prop} {stop : Span} (t : Tree)
  {enter : Surroundings → ScopeId → Emit Code} (around : Surroundings)

mutual

/-- **The code of an expression.** -/
theorem refuses_expressionCode (henter : ∀ around id, Refuses T stop (enter around id)) :
    ∀ e : Expression, e.Located T → Refuses T stop (expressionCode t enter around e)
  | .number _ _, _ => .answer _
  | .name _, _ => .bind (.modify _) fun _ => .answer _
  | .new _ _, h => .about h (by decide)
  | .element i index span, ⟨hi, _, hindex⟩ => by
    rw [expressionCode]
    exact .bind (refuses_arrayBase hi) fun _ =>
      .bind (refuses_expressionCode henter index hindex) fun _ =>
      .bind (.modify _) fun _ => .bind (.modify _) fun _ => .answer _
  | .binary op left right span, ⟨_, hleft, hright⟩ => by
    rw [expressionCode]
    refine .bind (refuses_simple? right) fun r => ?_
    cases r with
    | some r =>
      refine .bind (refuses_simple? left) fun l => ?_
      cases l with
      | some l => exact .bind (.modify _) fun _ => .answer _
      | none =>
        exact .bind (refuses_expressionCode henter left hleft) fun _ => .bind (.modify _) fun _ =>
          .bind (.modify _) fun _ => .bind (.modify _) fun _ => .answer _
    | none =>
      exact .bind (refuses_expressionCode henter left hleft) fun _ => .bind (.modify _) fun _ =>
        .bind (refuses_expressionCode henter right hright) fun _ => .bind (.modify _) fun _ =>
        .bind (.modify _) fun _ => .bind (.modify _) fun _ => .bind (.modify _) fun _ => .answer _
  | .call i es resolved span, ⟨hi, hspan, hes⟩ => by
    rw [expressionCode]
    refine .bind (refuses_callee t around.inlining hi hspan resolved) ?_
    rintro ⟨callee, parameters, body⟩
    have hinlined : ∀ passing : Code,
        Refuses T stop (inlinedCode t enter around callee i.name parameters body passing) :=
      fun passing => .bind (.modify _) fun _ => .bind (henter _ _) fun _ => .bind (.modify _)
        fun _ => .answer _
    dsimp only
    split
    · exact .bind (refuses_stagedCode henter es hes) fun staged =>
        .bind (refuses_passStaged _ _) fun moves => .bind (.modify _) fun _ =>
        hinlined (staged.1 ++ moves)
    · exact .bind (refuses_passingCode henter es hes parameters _) hinlined

theorem refuses_stagedCode (henter : ∀ around id, Refuses T stop (enter around id)) :
    ∀ es : List Expression, Expression.AllLocated T es →
      Refuses T stop (stagedCode t enter around es)
  | [], _ => .answer _
  | e :: es, ⟨he, hes⟩ => by
    rw [stagedCode]
    exact .bind (refuses_expressionCode henter e he) fun _ => .bind (.modify _) fun _ =>
      .bind (refuses_stagedCode henter es hes) fun _ => .answer _

theorem refuses_passingCode (henter : ∀ around id, Refuses T stop (enter around id)) :
    ∀ es : List Expression, Expression.AllLocated T es → ∀ (scope : ScopeId) (names : List String),
      Refuses T stop (passingCode t enter around scope names es)
  | [], _, scope, [] | [], _, scope, _ :: _ | _ :: _, _, scope, [] => .answer _
  | e :: es, ⟨he, hes⟩, scope, name :: names => by
    rw [passingCode]
    exact .bind (refuses_expressionCode henter e he) fun _ => .bind (.modify _) fun _ =>
      .bind (refuses_passingCode henter es hes scope names) fun _ => .answer _

end

end Code

end RegisterMachine.Structured
