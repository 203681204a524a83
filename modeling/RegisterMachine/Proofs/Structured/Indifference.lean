import RegisterMachine.Proofs.Structured.Binding
import RegisterMachine.Structured.Emission

/-! # What emitting does not see

The places in a tree are told in errors only, and the types of the names that are used are never
looked at. So the code that is emitted for a tree is the code that is emitted for its view, and what
is refused is refused with the same words.

* `Refusal.Same`, `Agree`: computations that come to the same, the places of errors apart.
* `expressionCode_unused`, `scopeCode_unused`: the code of the parts of a tree.
* `emit_alike`: the assembly of a tree. -/

namespace RegisterMachine.Structured

open RegisterMachine.Success

/-! ### Agreement -/

/-- **The refusals are the same** but for places. -/
def Refusal.Same : Refusal → Refusal → Prop
  | .error e, .error e' => e.Same e'
  | .endless, .endless => True
  | _, _ => False

theorem Refusal.Same.refl (r : Refusal) : r.Same r := by
  cases r with
  | error e => exact Error.Same.refl e
  | endless => trivial

/-- **The computations come to the same**, the places of errors apart. -/
def Agree {α : Type} (x y : Emit α) : Prop := ∀ e, Alike Refusal.Same Eq (x e) (y e)

namespace Agree

variable {α β : Type} {x y : Emit α} {f g : α → Emit β}

theorem refl (x : Emit α) : Agree x x := fun e => .refl .refl (x e)

theorem bind (h : Agree x y) (hf : ∀ a, Agree (f a) (g a)) : Agree (x >>= f) (y >>= g) := by
  intro e
  show Alike _ _ (x e >>= fun p => f p.1 p.2) (y e >>= fun p => g p.1 p.2)
  refine Alike.bind (h e) fun p _ hp => ?_
  subst hp
  exact hf p.1 p.2

theorem refused {code : ErrorCode} {detail : String} {span span' : Span} :
    Agree (Emit.refuse code detail span : Emit α) (Emit.refuse code detail span') :=
  fun _ => (⟨rfl, rfl⟩ : Error.Same ⟨code, detail, span⟩ ⟨code, detail, span'⟩)

theorem mapM {γ δ : Type} {f : γ → Emit β} {f' : δ → Emit β} {k : γ → δ} :
    ∀ {l : List γ}, (∀ a, Agree (f a) (f' (k a))) → Agree (l.mapM f) ((l.map k).mapM f')
  | [], _ => by
    rw [List.map_nil, List.mapM_nil, List.mapM_nil]
    exact refl _
  | a :: l, h => by
    rw [List.map_cons, List.mapM_cons, List.mapM_cons]
    exact bind (h a) fun b => bind (mapM h) fun bs => refl _

end Agree

/-! ### Parts of the emitter -/

section Parts

variable {v : View} {t : Tree}

theorem simple?_view : ∀ e : Expression, Emit.simple? (e.view v) = Emit.simple? e
  | .name _ | .number _ _ | .binary _ _ _ _ | .element _ _ _ | .new _ _ | .call _ _ _ _ => rfl

mutual

theorem Expression.hasCall_view : ∀ e : Expression, (e.view v).hasCall = e.hasCall
  | .name _ | .number _ _ | .new _ _ | .call _ _ _ _ => rfl
  | .binary _ left right _ => by
    rw [view, hasCall, hasCall, hasCall_view left, hasCall_view right]
  | .element _ index _ => by rw [view, hasCall, hasCall, hasCall_view index]

theorem Expression.any_hasCall_view : ∀ es : List Expression,
    (viewAll v es).any hasCall = es.any hasCall
  | [] => rfl
  | e :: es => by
    rw [viewAll, List.any_cons, List.any_cons, hasCall_view e, any_hasCall_view es]

end

theorem Statement.summary_view (s : Statement) : (s.view v).summary = s.summary := by
  cases s with
  | assign target e initial span =>
    cases target <;> cases initial <;>
      simp [view, Target.view, summary, Target.text]
  | _ => simp [view, summary]

theorem Tree.declaredNames_view (scope : ScopeId) :
    (t.view v).declaredNames scope = t.declaredNames scope := by
  rw [declaredNames, declaredNames, statements_view, List.filterMap_map, List.map_filterMap,
    List.map_filterMap]
  congr 1
  funext s
  rw [Function.comp_apply, Statement.declared?_view, Option.map_map]
  rfl

theorem Tree.functionCount_view : (t.view v).functionCount = t.functionCount := by
  have hscope : ∀ scope : Scope, ((scope.view v).statements.toList.filter (·.isFunction)).length =
      (scope.statements.toList.filter (·.isFunction)).length := by
    intro scope
    have hfunction : (fun s : Statement => s.isFunction) ∘ Statement.view v =
        fun s : Statement => s.isFunction := funext fun s => Statement.isFunction_view s
    rw [Scope.view, Array.toList_map, List.filter_map, List.length_map, hfunction]
  simp only [functionCount, view, Array.toList_map, List.flatMap_map, List.length_flatMap, hscope]

theorem Tree.emissionDepth_view : (t.view v).emissionDepth = t.emissionDepth := by
  rw [emissionDepth, emissionDepth, size_view, functionCount_view]

theorem agree_arrayBase (i : Identifier) (type : Option ValueType) :
    Agree (Emit.arrayBase i) (Emit.arrayBase (i.withType type)) := by
  refine .bind (.refl _) fun e => ?_
  rw [Identifier.withType_binding, Identifier.withType_name]
  cases i.binding.bind (e.registers.arrayBase? i.name) with
  | none => exact .refused
  | some base => exact .refl _

theorem agree_array (i : Identifier) (type : Option ValueType) (scope : ScopeId) (size : Nat) :
    Agree (Emit.array i scope size) (Emit.array (i.withType type) scope size) := by
  refine .bind (.refl _) fun e => ?_
  rw [Identifier.withType_name]
  cases e.registers.reserveArray? i.name scope size with
  | none => exact .refused
  | some reserved => exact .refl _

theorem agree_callee (inlining : List StatementId) (i : Identifier) (type : Option ValueType)
    (resolved : Option StatementId) (span : Span) : Agree (Emit.callee t inlining i resolved span)
      (Emit.callee (t.view v) inlining (i.withType type) resolved {}) := by
  cases resolved with
  | none => exact .refused
  | some id =>
    simp only [Emit.callee]
    split
    · exact .refused
    · rw [Tree.statement?_view]
      cases t.statement? id with
      | none => exact .refused
      | some s =>
        cases s with
        | assign target e initial place =>
          cases target <;> cases initial <;> exact .refused
        | function => exact .refl _
        | _ => exact .refused

end Parts

/-! ### Code -/

section Code

variable (t : Tree) {enter enter' : Surroundings → ScopeId → Emit Code} (around : Surroundings)

theorem agree_inlinedCode (henter : ∀ around id, Agree (enter around id) (enter' around id))
    (callee : StatementId) (name : String) (parameters body : ScopeId) (passing : Code) :
    Agree (inlinedCode t enter around callee name parameters body passing)
      (inlinedCode (t.view .unused) enter' around callee name parameters body passing) := by
  rw [inlinedCode, inlinedCode, Tree.declaredNames_view]
  exact .bind (.refl _) fun exit => .bind (henter _ _) fun inner => .refl _

mutual

/-- **The code of an expression** is that of its view. -/
theorem expressionCode_unused (henter : ∀ around id, Agree (enter around id) (enter' around id)) :
    ∀ e : Expression, Agree (expressionCode t enter around e)
      (expressionCode (t.view .unused) enter' around (e.view .unused))
  | .number value span => .refl _
  | .name i => .refl _
  | .new type span => .refused
  | .element i index span => by
    simp only [Expression.view, expressionCode]
    exact .bind (agree_arrayBase i _) fun base =>
      .bind (expressionCode_unused henter index) fun code => .refl _
  | .binary op left right span => by
    simp only [Expression.view, expressionCode, simple?_view]
    refine .bind (.refl _) fun r => ?_
    cases r with
    | some r =>
      refine .bind (.refl _) fun l => ?_
      cases l with
      | some l => exact .refl _
      | none => exact .bind (expressionCode_unused henter left) fun first => .refl _
    | none =>
      exact .bind (expressionCode_unused henter left) fun first => .bind (.refl _) fun l =>
        .bind (expressionCode_unused henter right) fun second => .refl _
  | .call i es resolved span => by
    simp only [Expression.view, expressionCode, Tree.declaredNames_view,
      Expression.any_hasCall_view]
    refine .bind (agree_callee _ i _ _ span) fun (callee, parameters, body) => ?_
    have hinlined := agree_inlinedCode t around henter callee i.name parameters body
    split
    · exact .bind (stagedCode_unused henter es) fun staged => .bind (.refl _) fun moves =>
        .bind (.refl _) fun _ => hinlined (staged.1 ++ moves)
    · exact .bind (passingCode_unused henter es parameters (t.declaredNames parameters)) hinlined

theorem stagedCode_unused (henter : ∀ around id, Agree (enter around id) (enter' around id)) :
    ∀ es : List Expression, Agree (stagedCode t enter around es)
      (stagedCode (t.view .unused) enter' around (Expression.viewAll .unused es))
  | [] => .refl _
  | e :: es => by
    simp only [Expression.viewAll, stagedCode]
    exact .bind (expressionCode_unused henter e) fun code => .bind (.refl _) fun temporary =>
      .bind (stagedCode_unused henter es) fun others => .refl _

theorem passingCode_unused (henter : ∀ around id, Agree (enter around id) (enter' around id)) :
    ∀ (es : List Expression) (scope : ScopeId) (names : List String),
      Agree (passingCode t enter around scope names es)
        (passingCode (t.view .unused) enter' around scope names (Expression.viewAll .unused es))
  | [], _, [] | [], _, _ :: _ | _ :: _, _, [] => .refl _
  | e :: es, scope, name :: names => by
    simp only [Expression.viewAll, passingCode]
    exact .bind (expressionCode_unused henter e) fun code => .bind (.refl _) fun register =>
      .bind (passingCode_unused henter es scope names) fun others => .refl _

end

theorem agree_addressCode (henter : ∀ around id, Agree (enter around id) (enter' around id))
    (i : Identifier) (type : Option ValueType) (index : Expression) :
    Agree (addressCode t enter around i index)
      (addressCode (t.view .unused) enter' around (i.withType type) (index.view .unused)) :=
  .bind (agree_arrayBase i type) fun _ =>
    .bind (expressionCode_unused t around henter index) fun _ => .refl _

theorem agree_assignmentCode (henter : ∀ around id, Agree (enter around id) (enter' around id))
    (scope : ScopeId) (initial : Bool) (e : Expression) (i : Identifier) (type : Option ValueType) :
    Agree (assignmentCode t enter around scope initial e (.name i))
      (assignmentCode (t.view .unused) enter' around scope initial (e.view .unused)
        (.name (i.withType type))) := by
  have hassigned : Agree (do
      let code ← expressionCode t enter around e
      let register ← Emit.scalar i.name (i.binding.getD scope)
      return code ++ [Code.store register] : Emit Code) (do
      let code ← expressionCode (t.view .unused) enter' around (e.view .unused)
      let register ← Emit.scalar i.name (i.binding.getD scope)
      return code ++ [Code.store register]) :=
    .bind (expressionCode_unused t around henter e) fun _ => .refl _
  cases initial with
  | false => exact hassigned
  | true =>
    cases e with
    | new type' span => exact .bind (agree_array i type scope type'.width) fun base => .refl _
    | name | number | binary | element | call => exact hassigned

/-- **The code of a statement** is that of its view. -/
theorem statementCode_unused (henter : ∀ around id, Agree (enter around id) (enter' around id))
    (scope : ScopeId) (s : Statement) : Agree (statementCode t enter around scope s)
      (statementCode (t.view .unused) enter' around scope (s.view .unused)) := by
  have he := expressionCode_unused t around henter
  cases s with
  | assign target e initial span =>
    cases target with
    | name i =>
      cases initial with
      | false => exact agree_assignmentCode t around henter scope false e i none
      | true => exact agree_assignmentCode t around henter scope true e i i.type
    | element i index place =>
      cases initial <;>
        exact .bind (agree_addressCode t around henter i _ index) fun address =>
          .bind (he e) fun code => .refl _
  | branch e body otherwise span =>
    refine .bind (he e) fun test => .bind (.refl _) fun done => ?_
    cases otherwise with
    | none => exact .bind (henter _ _) fun first => .refl _
    | some other =>
      exact .bind (.refl _) fun failed => .bind (henter _ _) fun first =>
        .bind (henter _ _) fun second => .refl _
  | loop e body span =>
    exact .bind (.refl _) fun start => .bind (.refl _) fun done => .bind (he e) fun test =>
      .bind (henter _ _) fun inner => .refl _
  | block body => exact henter _ _
  | give e span => exact .bind (he e) fun code => .refl _
  | evaluate e => exact he e
  | leave | again | function | parameter => exact .refl _

theorem commentedCode_unused (henter : ∀ around id, Agree (enter around id) (enter' around id))
    (scope : ScopeId) (s : Statement) : Agree (commentedCode t enter around scope s)
      (commentedCode (t.view .unused) enter' around scope (s.view .unused)) := by
  have hcommented : Agree (do
      let code ← statementCode t enter around scope s
      return .comment s.summary :: code : Emit Code) (do
      let code ← statementCode (t.view .unused) enter' around scope (s.view .unused)
      return .comment (s.view .unused).summary :: code) := by
    rw [Statement.summary_view]
    exact .bind (statementCode_unused t around henter scope s) fun code => .refl _
  cases s with
  | function | parameter => exact .refl _
  | assign target e initial span => cases target <;> cases initial <;> exact hcommented
  | _ => exact hcommented

end Code

theorem releaseDeclared_unused (l : List Statement) (scope : ScopeId) :
    Emit.releaseDeclared (l.map (·.view .unused)) scope = Emit.releaseDeclared l scope := by
  have hdeclared : (l.map (·.view .unused)).filterMap Statement.declared? =
      (l.filterMap Statement.declared?).map fun i => i.withType i.type := by
    rw [List.filterMap_map, List.map_filterMap]
    congr 1
    funext s
    exact s.declared?_view
  simp only [Emit.releaseDeclared, hdeclared, List.foldl_map]
  rfl

/-- **The code of a scope** is that of the scope in the view. -/
theorem scopeCode_unused (t : Tree) (depth : Nat) : ∀ (around : Surroundings) (scope : ScopeId),
    Agree (scopeCode t depth around scope) (scopeCode (t.view .unused) depth around scope) := by
  induction depth with
  | zero => exact fun _ _ => .refl _
  | succ depth ih =>
    intro around scope
    simp only [scopeCode, Tree.statements_view, releaseDeclared_unused]
    exact .bind (.mapM fun s => commentedCode_unused t around ih scope s) fun codes => .refl _

/-- **The assembly of a tree** is that of its view. -/
theorem emit_alike (t : Tree) : Alike Refusal.Same Eq t.emit (t.view .unused).emit := by
  rw [Tree.emit_eq, Tree.emit_eq, Tree.emissionDepth_view]
  refine (scopeCode_unused t t.emissionDepth {} rootScope {}).map ?_
  rintro answer _ rfl
  rfl

theorem emit_unused (t : Tree) : (t.view .unused).emit.toOption = t.emit.toOption := by
  obtain ⟨r, r', hr, hr', -⟩ | ⟨e, _, he, he', rfl⟩ := (emit_alike t).cases
  · rw [hr, hr']
    rfl
  · rw [he, he']

end RegisterMachine.Structured
