import RegisterMachine.Proofs.Structured.Derivation
import RegisterMachine.Proofs.Structured.Resolution

/-! # Where the emitter goes deeper

The code of an expression or statement is emitted at once, but for the scopes that it enters: the
bodies of a statement, and the bodies of the functions that are called. So two emitters that do the
same in these scopes do the same in the whole.

* `Matches`: computations that do the same, and are refused for known reasons only.
* `Admits`: two emitters do the same for a call.
* `expressionCode_matches`, `commentedCode_matches`: the code of the parts of a tree. -/

namespace RegisterMachine.Structured

open RegisterMachine.Success

/-! ### Computations that do the same -/

/-- **The computations do the same**, and if they are refused, the refusal is of this kind. -/
def Matches {α : Type} (E : Refusal → Prop) (x y : Emit α) : Prop :=
  ∀ st, x st = y st ∧ Outcome E (fun _ => True) (x st)

/-- The refusals are of this kind whenever no function calls itself. -/
def Usual (E : Refusal → Prop) : Prop :=
  ∀ code detail span, code ≠ .recursiveCall → E (.error ⟨code, detail, span⟩)

namespace Matches

variable {α β : Type} {E : Refusal → Prop} {x y : Emit α} {f g : α → Emit β}

theorem bind_ok (h : Matches E x y) (hf : ∀ a st st', x st = .ok (a, st') → Matches E (f a) (g a)) :
    Matches E (x >>= f) (y >>= g) := by
  intro st
  obtain ⟨heq, hrefused⟩ := h st
  show (x st >>= fun p => f p.1 p.2) = (y st >>= fun p => g p.1 p.2) ∧
    Outcome E _ (x st >>= fun p => f p.1 p.2)
  rw [← heq]
  cases hx : x st with
  | error refusal =>
    rw [hx] at hrefused
    exact ⟨rfl, hrefused⟩
  | ok p => exact hf p.1 st p.2 hx p.2

theorem bind (h : Matches E x y) (hf : ∀ a, Matches E (f a) (g a)) :
    Matches E (x >>= f) (y >>= g) :=
  h.bind_ok fun a _ _ _ => hf a

theorem answer (a : α) : Matches E (pure a : Emit α) (pure a) := fun _ => ⟨rfl, trivial⟩

theorem modify (g : Emitter → α × Emitter) : Matches E (modifyGet g : Emit α) (modifyGet g) :=
  fun _ => ⟨rfl, trivial⟩

theorem refused {code : ErrorCode} (detail : String) (span : Span)
    (h : E (.error ⟨code, detail, span⟩)) :
    Matches E (Emit.refuse code detail span : Emit α) (Emit.refuse code detail span) :=
  fun _ => ⟨rfl, h⟩

theorem mapM {γ : Type} {f g : γ → Emit β} : ∀ {l : List γ}, (∀ a ∈ l, Matches E (f a) (g a)) →
    Matches E (l.mapM f) (l.mapM g)
  | [], _ => by
    rw [List.mapM_nil, List.mapM_nil]
    exact answer []
  | a :: l, h => by
    rw [List.mapM_cons, List.mapM_cons]
    exact bind (h a List.mem_cons_self) fun b =>
      bind (mapM fun a ha => h a (List.mem_cons_of_mem _ ha)) fun bs => answer (b :: bs)

end Matches

/-! ### Parts of the emitter that enter no scope -/

section Parts

variable {E : Refusal → Prop}

theorem matches_simple? (e : Expression) : Matches E (Emit.simple? e) (Emit.simple? e) := by
  cases e with
  | name i => exact .bind (.modify _) fun _ => .answer _
  | number | binary | element | new | call => exact .answer _

theorem matches_array (usual : Usual E) (i : Identifier) (scope : ScopeId) (size : Nat) :
    Matches E (Emit.array i scope size) (Emit.array i scope size) := by
  refine .bind (fun _ => ⟨rfl, trivial⟩) fun st => ?_
  split
  · exact fun _ => ⟨rfl, trivial⟩
  · exact .refused _ _ (usual _ _ _ (by decide))

theorem matches_arrayBase (usual : Usual E) (i : Identifier) :
    Matches E (Emit.arrayBase i) (Emit.arrayBase i) := by
  refine .bind (fun _ => ⟨rfl, trivial⟩) fun st => ?_
  split
  · exact .answer _
  · exact .refused _ _ (usual _ _ _ (by decide))

theorem matches_passStaged (scope : ScopeId) : ∀ staged : List (String × Nat),
    Matches E (Emit.passStaged scope staged) (Emit.passStaged scope staged)
  | [] => .answer _
  | (_, _) :: rest =>
    .bind (.modify _) fun _ => .bind (matches_passStaged scope rest) fun _ => .answer _

end Parts

/-! ### Calls -/

/-- The error of a call to a function that is being emitted. -/
def Call.recursion (call : Call) : Error :=
  ⟨.recursiveCall, s!"`{call.name}` calls itself and cannot be inlined", call.span⟩

/-- **Two emitters do the same for a call** while these functions are being emitted: either the
function is one of them, or they do the same in its body. -/
def Admits (t : Tree) (E : Refusal → Prop) (enter enter' : Surroundings → ScopeId → Emit Code)
    (inlining : List StatementId) (call : Call) : Prop :=
  ∀ id, call.resolved = some id → (id ∈ inlining → E (.error call.recursion)) ∧
    (id ∉ inlining → ∀ parameters body, t.Function id parameters body → ∀ around : Surroundings,
      around.inlining = id :: inlining → Matches E (enter around body) (enter' around body))

section Code

variable {t : Tree} {E : Refusal → Prop} {enter enter' : Surroundings → ScopeId → Emit Code}
  {around : Surroundings}

theorem matches_callee (usual : Usual E) {call : Call}
    (h : Admits t E enter enter' around.inlining call) :
    Matches E (Emit.callee t around.inlining call.identifier call.resolved call.span)
      (Emit.callee t around.inlining call.identifier call.resolved call.span) := by
  unfold Emit.callee
  split
  · exact .refused _ _ (usual _ _ _ (by decide))
  · rename_i id hresolved
    split
    · exact .refused _ _ ((h id hresolved).1 ‹_›)
    · split
      · exact .answer _
      · exact .refused _ _ (usual _ _ _ (by decide))

mutual

/-- **The code of an expression.** -/
theorem expressionCode_matches (usual : Usual E) : ∀ e : Expression,
    (∀ call ∈ e.calls, Admits t E enter enter' around.inlining call) →
      Matches E (expressionCode t enter around e) (expressionCode t enter' around e)
  | .number _ _, _ => .answer _
  | .name _, _ => .bind (.modify _) fun _ => .answer _
  | .new _ _, _ => .refused _ _ (usual _ _ _ (by decide))
  | .element i index span, h => by
    rw [expressionCode, expressionCode]
    exact .bind (matches_arrayBase usual i) fun _ =>
      .bind (expressionCode_matches usual index h) fun _ =>
      .bind (.modify _) fun _ => .bind (.modify _) fun _ => .answer _
  | .binary op left right span, h => by
    obtain ⟨hleft, hright⟩ := List.forall_mem_append.mp h
    rw [expressionCode, expressionCode]
    refine .bind (matches_simple? right) fun r => ?_
    cases r with
    | some r =>
      refine .bind (matches_simple? left) fun l => ?_
      cases l with
      | some l => exact .bind (.modify _) fun _ => .answer _
      | none =>
        exact .bind (expressionCode_matches usual left hleft) fun _ => .bind (.modify _) fun _ =>
          .bind (.modify _) fun _ => .bind (.modify _) fun _ => .answer _
    | none =>
      exact .bind (expressionCode_matches usual left hleft) fun _ => .bind (.modify _) fun _ =>
        .bind (expressionCode_matches usual right hright) fun _ => .bind (.modify _) fun _ =>
        .bind (.modify _) fun _ => .bind (.modify _) fun _ => .bind (.modify _) fun _ => .answer _
  | .call i es resolved span, h => by
    obtain ⟨harguments, hown⟩ := List.forall_mem_append.mp h
    have hcall := hown _ (List.mem_singleton_self _)
    rw [expressionCode, expressionCode]
    refine .bind_ok (matches_callee usual hcall) ?_
    rintro ⟨callee, parameters, body⟩ st st' hcallee
    obtain ⟨-, hresolved, hfresh, f, returns, place, hs⟩ := callee_ok hcallee
    have hbody := (hcall callee hresolved).2 hfresh parameters body ⟨f, returns, place, hs⟩
    have hinlined : ∀ passing : Code,
        Matches E (inlinedCode t enter around callee i.name parameters body passing)
          (inlinedCode t enter' around callee i.name parameters body passing) :=
      fun passing => .bind (.modify _) fun _ => .bind (hbody _ rfl) fun _ => .bind (.modify _)
        fun _ => .answer _
    dsimp only
    split
    · exact .bind (stagedCode_matches usual es harguments) fun staged =>
        .bind (matches_passStaged _ _) fun moves => .bind (.modify _) fun _ =>
        hinlined (staged.1 ++ moves)
    · exact .bind (passingCode_matches usual es harguments parameters _) hinlined

theorem stagedCode_matches (usual : Usual E) : ∀ es : List Expression,
    (∀ call ∈ Expression.callsOf es, Admits t E enter enter' around.inlining call) →
      Matches E (stagedCode t enter around es) (stagedCode t enter' around es)
  | [], _ => .answer _
  | e :: es, h => by
    obtain ⟨he, hes⟩ := List.forall_mem_append.mp h
    rw [stagedCode, stagedCode]
    exact .bind (expressionCode_matches usual e he) fun _ => .bind (.modify _) fun _ =>
      .bind (stagedCode_matches usual es hes) fun _ => .answer _

theorem passingCode_matches (usual : Usual E) : ∀ es : List Expression,
    (∀ call ∈ Expression.callsOf es, Admits t E enter enter' around.inlining call) →
      ∀ (scope : ScopeId) (names : List String), Matches E
        (passingCode t enter around scope names es) (passingCode t enter' around scope names es)
  | [], _, scope, [] | [], _, scope, _ :: _ | _ :: _, _, scope, [] => .answer _
  | e :: es, h, scope, name :: names => by
    obtain ⟨he, hes⟩ := List.forall_mem_append.mp h
    rw [passingCode, passingCode]
    exact .bind (expressionCode_matches usual e he) fun _ => .bind (.modify _) fun _ =>
      .bind (passingCode_matches usual es hes scope names) fun _ => .answer _

end

theorem assignmentCode_matches (usual : Usual E) (scope : ScopeId) (initial : Bool)
    {e : Expression} {target : Target}
    (htarget : ∀ call ∈ target.calls, Admits t E enter enter' around.inlining call)
    (he : ∀ call ∈ e.calls, Admits t E enter enter' around.inlining call) :
    Matches E (assignmentCode t enter around scope initial e target)
      (assignmentCode t enter' around scope initial e target) := by
  have hcode := expressionCode_matches usual e he
  cases target with
  | name i =>
    have hassigned : Matches E
        (expressionCode t enter around e >>= fun code =>
          Emit.scalar i.name (i.binding.getD scope) >>= fun register =>
            pure (code ++ [Code.store register]))
        (expressionCode t enter' around e >>= fun code =>
          Emit.scalar i.name (i.binding.getD scope) >>= fun register =>
            pure (code ++ [Code.store register])) :=
      .bind hcode fun _ => .bind (.modify _) fun _ => .answer _
    cases initial with
    | false => exact hassigned
    | true =>
      cases e with
      | new type span => exact .bind (matches_array usual i _ _) fun _ => .answer _
      | name | number | binary | element | call => exact hassigned
  | element i index place =>
    have haddress : Matches E (addressCode t enter around i index)
        (addressCode t enter' around i index) :=
      .bind (matches_arrayBase usual i) fun _ =>
        .bind (expressionCode_matches usual index htarget) fun _ =>
        .bind (.modify _) fun _ => .answer _
    exact .bind haddress fun _ => .bind hcode fun _ => .bind (.modify _) fun _ => .answer _

/-- **The code of a statement**, under its comment. -/
theorem commentedCode_matches (usual : Usual E) (scope : ScopeId) {s : Statement}
    (hcalls : ∀ call ∈ s.calls, Admits t E enter enter' around.inlining call)
    (hbodies : ∀ body ∈ s.bodies, ∀ inside : Surroundings, inside.inlining = around.inlining →
      Matches E (enter inside body) (enter' inside body)) :
    Matches E (commentedCode t enter around scope s) (commentedCode t enter' around scope s) := by
  have hcode : Matches E (statementCode t enter around scope s)
      (statementCode t enter' around scope s) := by
    cases s with
    | assign target e initial span =>
      obtain ⟨htarget, hvalue⟩ := List.forall_mem_append.mp hcalls
      exact assignmentCode_matches usual scope initial htarget hvalue
    | branch e body otherwise span =>
      have hbody := hbodies body List.mem_cons_self
      refine .bind (expressionCode_matches usual e hcalls) fun _ => .bind (.modify _) fun _ => ?_
      cases otherwise with
      | none => exact .bind (hbody _ rfl) fun _ => .answer _
      | some other =>
        have hother := hbodies other (List.mem_cons_of_mem _ (List.mem_singleton_self _))
        exact .bind (.modify _) fun _ => .bind (hbody _ rfl) fun _ => .bind (hother _ rfl) fun _ =>
          .answer _
    | loop e body span =>
      have hbody := hbodies body (List.mem_singleton_self _)
      exact .bind (.modify _) fun _ => .bind (.modify _) fun _ =>
        .bind (expressionCode_matches usual e hcalls) fun _ => .bind (hbody _ rfl) fun _ =>
        .answer _
    | block body => exact hbodies body (List.mem_singleton_self _) _ rfl
    | give e span => exact .bind (expressionCode_matches usual e hcalls) fun _ => .answer _
    | evaluate e => exact expressionCode_matches usual e hcalls
    | leave | again | function | parameter => exact .answer _
  cases s with
  | function | parameter => exact .answer _
  | _ => exact .bind hcode fun _ => .answer _

end Code

end RegisterMachine.Structured
