import RegisterMachine.Structured.Tree.Printer
import RegisterMachine.Structured.Tree.Visibility

/-! # Trees under a view

Two trees are often the same but for something: for the places in the source, for the types that
names have where they are declared or used, for the functions that calls are bound to. A `View` says
what is kept, and `Tree.view` keeps just that. No view keeps places.

* `View.typed`: names get new types, all else but places is kept; `View.unplaced` keeps the types.
* `declaration?_view`, `function?_view`: what a scope sees does not depend on the view.
* `text_view`: what is written depends on the types of declarations only. -/

namespace RegisterMachine.Structured

/-- **What is kept of a tree**: the types of names where they are declared and where they are used,
and the functions of calls. -/
structure View where
  declared : Identifier → Option ValueType
  used : Identifier → Option ValueType
  resolved : Option StatementId → Option StatementId

/-- Names have the types that `type` gives them. -/
def View.typed (type : Identifier → Option ValueType) : View := ⟨type, type, id⟩

/-- All but the places. -/
def View.unplaced : View := .typed Identifier.type

/-- All but the places and the functions of calls. -/
def View.unbound : View := ⟨Identifier.type, Identifier.type, fun _ => none⟩

/-- All but the places and the types of names. -/
def View.untyped : View := ⟨fun _ => none, fun _ => none, fun resolved => resolved⟩

/-- All but the places and the types of names that are used. -/
def View.unused : View := ⟨Identifier.type, fun _ => none, fun resolved => resolved⟩

/-- All but the places, the types of names and the functions of calls. -/
def View.bare : View := ⟨fun _ => none, fun _ => none, fun _ => none⟩

/-- The identifier with another type and without its place. -/
def Identifier.withType (i : Identifier) (type : Option ValueType) : Identifier :=
  { i with type, span := {} }

namespace Expression

mutual

def view (v : View) : Expression → Expression
  | name i => name (i.withType (v.used i))
  | number value _ => number value {}
  | binary op left right _ => binary op (left.view v) (right.view v) {}
  | element i index _ => element (i.withType (v.used i)) (index.view v) {}
  | new type _ => new type {}
  | call i arguments resolved _ =>
    call (i.withType i.type) (viewAll v arguments) (v.resolved resolved) {}

def viewAll (v : View) : List Expression → List Expression
  | [] => []
  | e :: rest => e.view v :: viewAll v rest

end

theorem viewAll_eq_map (v : View) (es : List Expression) : viewAll v es = es.map (view v) := by
  induction es with
  | nil => rfl
  | cons e es ih => rw [viewAll, ih, List.map_cons]

end Expression

def Target.view (v : View) : Target → Target
  | name i => name (i.withType (v.used i))
  | element i index _ => element (i.withType (v.used i)) (index.view v) {}

def Statement.view (v : View) : Statement → Statement
  | assign (.name i) e true _ => assign (.name (i.withType (v.declared i))) (e.view v) true {}
  | assign (.element i index _) e true _ =>
    assign (.element (i.withType i.type) (index.view v) {}) (e.view v) true {}
  | assign target e false _ => assign (target.view v) (e.view v) false {}
  | branch e body otherwise _ => branch (e.view v) body otherwise {}
  | loop e body _ => loop (e.view v) body {}
  | block body => block body
  | leave _ => leave {}
  | again _ => again {}
  | function i parameters body returns _ => function (i.withType i.type) parameters body returns {}
  | parameter i => parameter (i.withType (v.declared i))
  | give e _ => give (e.view v) {}
  | evaluate e => evaluate (e.view v)

def Scope.view (v : View) (s : Scope) : Scope :=
  { s with statements := s.statements.map (·.view v) }

/-- **The tree under a view.** -/
def Tree.view (v : View) (t : Tree) : Tree := ⟨t.scopes.map (·.view v)⟩

/-! ### Views of expressions -/

section Congruence

variable {v w : View}

mutual

/-- An expression shows nothing of the types of declarations. -/
theorem Expression.view_congr (hused : v.used = w.used) (hresolved : v.resolved = w.resolved) :
    ∀ e : Expression, e.view v = e.view w
  | .name _ => by rw [view, view, hused]
  | .number _ _ | .new _ _ => rfl
  | .binary _ left right _ => by
    rw [view, view, view_congr hused hresolved left, view_congr hused hresolved right]
  | .element _ index _ => by rw [view, view, hused, view_congr hused hresolved index]
  | .call _ es _ _ => by rw [view, view, hresolved, viewAll_congr hused hresolved es]

theorem Expression.viewAll_congr (hused : v.used = w.used) (hresolved : v.resolved = w.resolved) :
    ∀ es : List Expression, viewAll v es = viewAll w es
  | [] => rfl
  | e :: es => by
    rw [viewAll, viewAll, view_congr hused hresolved e, viewAll_congr hused hresolved es]

end

/-- **A statement looks the same** if its declaration does. -/
theorem Statement.view_congr (hused : v.used = w.used) (hresolved : v.resolved = w.resolved)
    {s : Statement} (hdeclared : ∀ i, s.declared? = some i → v.declared i = w.declared i) :
    s.view v = s.view w := by
  have he := Expression.view_congr hused hresolved
  cases s with
  | assign target e initial span =>
    cases target <;> cases initial
    case name.true i => rw [view, view, hdeclared i rfl, he]
    all_goals simp only [view, Target.view, hused, he]
  | parameter i => rw [view, view, hdeclared i rfl]
  | branch e | loop e | give e | evaluate e => rw [view, view, he]
  | block | leave | again | function => rfl

end Congruence

/-! ### The parts of a tree -/

section Parts

variable {v : View} {t : Tree}

@[simp] theorem Identifier.withType_name (i : Identifier) (type : Option ValueType) :
    (i.withType type).name = i.name := rfl

@[simp] theorem Identifier.withType_type (i : Identifier) (type : Option ValueType) :
    (i.withType type).type = type := rfl

@[simp] theorem Identifier.withType_binding (i : Identifier) (type : Option ValueType) :
    (i.withType type).binding = i.binding := rfl

@[simp] theorem Statement.declared?_view (s : Statement) :
    (s.view v).declared? = s.declared?.map fun i => i.withType (v.declared i) := by
  cases s with
  | assign target e initial span => cases target <;> cases initial <;> rfl
  | _ => rfl

@[simp] theorem Statement.declaresFunction_view (s : Statement) (name : String) :
    (s.view v).declaresFunction name = s.declaresFunction name := by
  cases s with
  | assign target e initial span => cases target <;> cases initial <;> rfl
  | _ => rfl

@[simp] theorem Statement.isFunction_view (s : Statement) :
    (s.view v).isFunction = s.isFunction := by
  cases s with
  | assign target e initial span => cases target <;> cases initial <;> rfl
  | _ => rfl

@[simp] theorem Tree.size_view : (t.view v).scopes.size = t.scopes.size := Array.size_map

@[simp] theorem Tree.scopes_view (id : ScopeId) :
    (t.view v).scopes[id]? = t.scopes[id]?.map (·.view v) := by
  simp [Tree.view]

theorem Tree.scope_view (id : ScopeId) : (t.view v).scope id = (t.scope id).view v := by
  rw [Tree.scope, Tree.scope, Array.getD_eq_getD_getElem?, Array.getD_eq_getD_getElem?,
    scopes_view]
  cases t.scopes[id]? with
  | none => simp [Scope.view]
  | some scope => rfl

theorem Tree.statements_view (id : ScopeId) :
    ((t.view v).scope id).statements.toList = (t.scope id).statements.toList.map (·.view v) := by
  rw [scope_view]
  exact Array.toList_map

theorem Tree.statement?_view (id : StatementId) :
    (t.view v).statement? id = (t.statement? id).map (·.view v) := by
  rw [statement?, statement?, scopes_view]
  cases t.scopes[id.scope]? with
  | none => rfl
  | some s => exact Array.getElem?_map

/-- Statements that are alike under the view declare alike names. -/
theorem Statement.declared?_of_view {s s' : Statement} (h : s.view v = s'.view v) {i' : Identifier}
    (hi' : s'.declared? = some i') :
    ∃ i, s.declared? = some i ∧ i.withType (v.declared i) = i'.withType (v.declared i') := by
  have hdeclared := congrArg Statement.declared? h
  rw [declared?_view, declared?_view, hi'] at hdeclared
  exact Option.map_eq_some_iff.mp hdeclared

theorem Tree.statement?_of_view {t' : Tree} (h : t.view v = t'.view v) {id : StatementId}
    {s' : Statement} (hs' : t'.statement? id = some s') :
    ∃ s, t.statement? id = some s ∧ s.view v = s'.view v := by
  have hstatement := congrArg (Tree.statement? · id) h
  rw [statement?_view, statement?_view, hs'] at hstatement
  exact Option.map_eq_some_iff.mp hstatement

theorem Tree.view_push (id : ScopeId) (s : Statement) :
    (t.push id s).view v = (t.view v).push id (s.view v) := by
  rw [Tree.view, Tree.view, push, push, Tree.mk.injEq]
  apply Array.ext_getElem?
  intro place
  simp only [Array.getElem?_map, Array.getElem?_modify]
  split
  · cases t.scopes[place]? with
    | none => rfl
    | some scope =>
      simp only [Option.map_some, Scope.view, Array.map_push]
  · rfl

theorem Tree.view_addScope (shared : List ScopeId) :
    (t.addScope shared).1.view v = ((t.view v).addScope shared).1 := by
  simp [Tree.view, addScope, Scope.view]

end Parts

/-! ### What scopes see -/

section Visibility

variable {v : View} {t : Tree}

/-- The first answer in a list that is mapped. -/
theorem findSome?_of_map {α β γ δ : Type} {f : α → Option β} {g : γ → Option δ} {m : α → γ}
    {k : β → δ} {l : List α} {hit : Option β} (h : ∀ a, g (m a) = (f a).map k)
    (hhit : l.findSome? f = hit) : (l.map m).findSome? g = hit.map k := by
  rw [← hhit, List.findSome?_map, List.map_findSome?]
  exact congrArg (List.findSome? · l) (funext h)

/-- A search under a view finds what the search finds, if each statement under the view gives what
the statement gives. -/
theorem Tree.searchTo_view {α β : Type} {find : Statement → Option α}
    {find' : Statement → Option β} {f : α → β} (h : ∀ s, find' (s.view v) = (find s).map f)
    (depth : Nat) (start : ScopeId) : (t.view v).searchTo find' depth start =
      (t.searchTo find depth start).map fun hit => (hit.1, f hit.2) := by
  induction depth generalizing start with
  | zero => rfl
  | succ depth ih =>
    rw [searchTo, searchTo, scopes_view]
    cases t.scopes[start]? with
    | none => rfl
    | some scope =>
      have hshared : scope.shared.findSome? ((t.view v).searchTo find' depth) =
          (scope.shared.findSome? (t.searchTo find depth)).map fun hit => (hit.1, f hit.2) := by
        have hids := findSome?_of_map (m := id) (l := scope.shared) (ih ·) rfl
        rwa [List.map_id] at hids
      have hstatements : (scope.view v).statements.toList.zipIdx =
          scope.statements.toList.zipIdx.map fun entry => (entry.1.view v, entry.2) := by
        rw [Scope.view, Array.toList_map, List.zipIdx_map]
        rfl
      dsimp only [Option.map_some]
      rw [hstatements]
      have hentry : ∀ entry : Statement × Nat,
          ((find' (entry.1.view v)).map fun found => ((⟨start, entry.2⟩ : StatementId), found)) =
            ((find entry.1).map fun found => ((⟨start, entry.2⟩ : StatementId), found)).map
              fun hit => (hit.1, f hit.2) := by
        intro entry
        rw [h, Option.map_map, Option.map_map]
        rfl
      cases hown : scope.statements.toList.zipIdx.findSome? fun entry =>
          (find entry.1).map fun found => ((⟨start, entry.2⟩ : StatementId), found) with
      | none =>
        rw [findSome?_of_map hentry hown]
        exact hshared
      | some hit =>
        rw [findSome?_of_map hentry hown]
        rfl

/-- **The declaration that a scope sees under a view.** -/
theorem Tree.declaration?_view (start : ScopeId) (name : String) :
    (t.view v).declaration? start name = (t.declaration? start name).map fun (binding, i) =>
      (binding, i.withType (v.declared i)) := by
  have hfind : ∀ s : Statement, ((s.view v).declared?.filter (·.name == name)) =
      (s.declared?.filter (·.name == name)).map fun i => i.withType (v.declared i) := by
    intro s
    rw [Statement.declared?_view]
    cases s.declared? with
    | none => rfl
    | some i =>
      by_cases hname : i.name == name <;> simp [Option.filter, hname]
  rw [declaration?, declaration?, search, search, size_view, searchTo_view hfind]
  cases t.searchTo (fun s => s.declared?.filter (·.name == name)) t.scopes.size start <;> rfl

/-- **The function that a scope sees under a view.** -/
theorem Tree.function?_view (start : ScopeId) (name : String) :
    (t.view v).function? start name = t.function? start name := by
  have hfind : ∀ s : Statement, (if (s.view v).declaresFunction name then some () else none) =
      (if s.declaresFunction name then some () else none).map id := by
    intro s
    rw [Statement.declaresFunction_view, Option.map_id]
    rfl
  rw [function?, function?, search, search, size_view, searchTo_view hfind]
  cases t.searchTo (fun s => if s.declaresFunction name then some () else none) t.scopes.size start
    <;> rfl

end Visibility

/-! ### A view of a view -/

/-- First the view `w`, and then the view `v` of what it keeps. -/
def View.after (v w : View) : View where
  declared i := v.declared (i.withType (w.declared i))
  used i := v.used (i.withType (w.used i))
  resolved := v.resolved ∘ w.resolved

section After

variable {v w : View}

mutual

theorem Expression.view_view : ∀ e : Expression, (e.view w).view v = e.view (v.after w)
  | .name i => rfl
  | .number value span | .new type span => rfl
  | .binary op left right span => by
    simp only [view, view_view left, view_view right]
  | .element i index span => by
    simp only [view, view_view index]
    rfl
  | .call i arguments resolved span => by
    simp only [view, viewAll_viewAll arguments]
    rfl

theorem Expression.viewAll_viewAll : ∀ es : List Expression,
    viewAll v (viewAll w es) = viewAll (v.after w) es
  | [] => rfl
  | e :: es => by
    simp only [viewAll, view_view e, viewAll_viewAll es]

end

theorem Statement.view_view (s : Statement) : (s.view w).view v = s.view (v.after w) := by
  cases s with
  | assign target e initial span =>
    cases target <;> cases initial <;>
      simp only [view, Target.view, Expression.view_view] <;> rfl
  | branch | loop | give | evaluate => simp only [view, Expression.view_view]
  | block | leave | again | function | parameter => rfl

theorem Tree.view_view (t : Tree) : (t.view w).view v = t.view (v.after w) := by
  simp only [view, Scope.view, Array.map_map, Function.comp_def, Statement.view_view]

end After

/-! ### What is written -/

section Text

variable {v : View}

mutual

@[simp] theorem Expression.text_view : ∀ e : Expression, (e.view v).text = e.text
  | .name i | .number value span | .new type span => rfl
  | .binary op left right span => by
    rw [view, text, text, text_view left, text_view right]
  | .element i index span => by
    rw [view, text, text, text_view index]
    rfl
  | .call i arguments resolved span => by
    rw [view, text, text, texts_viewAll arguments]
    rfl

@[simp] theorem Expression.texts_viewAll : ∀ es : List Expression, texts (viewAll v es) = texts es
  | [] => rfl
  | e :: es => by
    rw [viewAll, texts, texts, text_view e, texts_viewAll es]

end

@[simp] theorem Target.text_view (target : Target) : (target.view v).text = target.text := by
  cases target with
  | name i => rfl
  | element i index span => simp [view, text]

/-- **The view keeps the types of the names that are declared** by these statements. -/
def View.Keeps (v : View) (statements : List Statement) : Prop :=
  ∀ s ∈ statements, ∀ i, s.declared? = some i → v.declared i = i.type

theorem parameterTexts_view {statements : List Statement} (h : v.Keeps statements) :
    parameterTexts (statements.map (·.view v)) = parameterTexts statements := by
  have hwritten : ∀ entry ∈ statements.zipIdx, ∀ i, entry.1.declared? = some i →
      v.declared i = i.type := by
    intro entry hentry
    exact h entry.1 (List.fst_mem_of_mem_zipIdx hentry)
  rw [parameterTexts, parameterTexts, List.zipIdx_map, List.map_map]
  congr 1
  refine List.map_congr_left fun entry hentry => ?_
  obtain ⟨s, index⟩ := entry
  simp only [Function.comp_apply, Prod.map, Statement.declared?_view]
  cases hs : s.declared? with
  | none => rfl
  | some i =>
    simp only [Option.map_some, Identifier.withType_type, hwritten _ hentry i hs]
    rfl

/-- A statement under a view is written like the statement, if it declares its name with the same
type and has the same parameters. -/
theorem Statement.text_view {s : Statement} {parameters parameters' : ScopeId → List Statement}
    {body : ScopeId → String} (h : v.Keeps [s])
    (hparameters : ∀ id, parameterTexts (parameters' id) = parameterTexts (parameters id)) :
    (s.view v).text parameters' body = s.text parameters body := by
  cases s with
  | assign target e initial span =>
    cases initial with
    | false => cases target <;> simp [view, text]
    | true =>
      cases target with
      | name i =>
        have htype := h _ (List.mem_singleton_self _) i rfl
        simp [view, text, Target.identifier, Target.text, htype]
      | element i index place => simp [view, text, Target.identifier, Target.text]
  | _ => simp [view, text, hparameters]

theorem View.Keeps.of_mem {statements : List Statement} {s : Statement} (h : v.Keeps statements)
    (hs : s ∈ statements) : v.Keeps [s] := by
  intro s' hs'
  rw [List.mem_singleton.mp hs']
  exact h s hs

variable {t : Tree}

theorem Tree.scopeText_view (h : ∀ id, v.Keeps (t.scope id).statements.toList) (depth level : Nat)
    (id : ScopeId) : (t.view v).scopeText depth level id = t.scopeText depth level id := by
  induction depth generalizing level id with
  | zero => rfl
  | succ depth ih =>
    rw [scopeText, scopeText, statements_view, List.map_map]
    congr 1
    refine List.map_congr_left fun s hs => ?_
    have hparameters : ∀ id, parameterTexts ((t.view v).scope id).statements.toList =
        parameterTexts (t.scope id).statements.toList := by
      intro id
      rw [statements_view, parameterTexts_view (h id)]
    simp only [Function.comp_apply, ih]
    rw [Statement.text_view ((h id).of_mem hs) hparameters]

/-- **What is written of a tree under a view**, if the view keeps the types of declarations. -/
theorem Tree.text_view (h : ∀ id, v.Keeps (t.scope id).statements.toList) :
    (t.view v).text = t.text := by
  rw [text, text, size_view, scopeText_view h]

end Text

end RegisterMachine.Structured
