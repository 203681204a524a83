import RegisterMachine.Proofs.Structured.Derivation

/-! # What the lines of emitted code contain

The comments in emitted code are made of the names of the source, so a comment stays on its line if
the names do. A line with a pointer comes from an element of an array.

* `Emits.comment_clean`: comments without line breaks.
* `Emits.no_pointer`: no pointers without elements. -/

namespace RegisterMachine.Structured

open RegisterMachine.Assembly

/-! ### Comments -/

/-- A text without line breaks. -/
def Clean (text : String) : Prop := ∀ c ∈ text.toList, c ≠ '\n' ∧ c ≠ '\r'

theorem clean_append {a b : String} : Clean (a ++ b) ↔ Clean a ∧ Clean b := by
  simp only [Clean, String.toList_append, List.mem_append, or_imp, forall_and]
  tauto

/-- A part of a tree whose texts are on one line each. -/
def Task.Clean : Task → Prop
  | expression e => Structured.Clean e.text
  | staged es _ | passing _ _ es | arguments _ _ es => ∀ e ∈ es, Structured.Clean e.text
  | statement _ s => Structured.Clean s.summary
  | statements _ l => ∀ s ∈ l, Structured.Clean s.summary
  | scope _ => True

/-- All statements of a tree are on one line each, in the comments above their code. -/
def Tree.Clean (t : Tree) : Prop :=
  ∀ id, ∀ s ∈ (t.scope id).statements.toList, Structured.Clean s.summary

theorem clean_intercalate {separator : String} (hs : Clean separator) :
    ∀ {texts : List String}, Clean (separator.intercalate texts) ↔ ∀ x ∈ texts, Clean x
  | [] => by simp [Clean]
  | [x] => by simp
  | x :: y :: texts => by
    rw [String.intercalate_cons_cons, clean_append, clean_append, clean_intercalate hs]
    simp [hs]

theorem Expression.mem_texts {x : String} :
    ∀ {es : List Expression}, x ∈ Expression.texts es ↔ ∃ e ∈ es, e.text = x
  | [] => by simp [texts]
  | e :: es => by
    rw [texts, List.mem_cons, mem_texts]
    simp [eq_comm]

/-- The text of a call is on one line with its name and its arguments. -/
theorem clean_call {i : Identifier} {es : List Expression} {resolved : Option StatementId}
    {span : Span} : Clean (Expression.call i es resolved span).text ↔
      Clean i.name ∧ ∀ e ∈ es, Clean e.text := by
  have hparen : Clean "(" ∧ Clean ")" ∧ Clean ", " := by
    refine ⟨?_, ?_, ?_⟩ <;> simp [Clean]
  rw [Expression.text, clean_append, clean_append, clean_append, clean_intercalate hparen.2.2]
  simp only [hparen, Expression.mem_texts]
  constructor
  · rintro ⟨⟨⟨hi, -⟩, hes⟩, -⟩
    exact ⟨hi, fun e he => hes _ ⟨e, he, rfl⟩⟩
  · rintro ⟨hi, hes⟩
    refine ⟨⟨⟨hi, trivial⟩, ?_⟩, trivial⟩
    rintro _ ⟨e, he, rfl⟩
    exact hes e he

theorem Clean.of_binary {op : Operator} {left right : Expression} {span : Span}
    (h : Clean (Expression.binary op left right span).text) :
    Clean left.text ∧ Clean right.text := by
  simp only [Expression.text, clean_append] at h
  exact ⟨h.1.1.1.1.1.2, h.1.2⟩

theorem Clean.of_element {i : Identifier} {index : Expression} {span : Span}
    (h : Clean (Expression.element i index span).text) : Clean index.text := by
  simp only [Expression.text, clean_append] at h
  exact h.1.2

theorem Clean.of_summary {b : Bool} {target : Target} {e : Expression} {span : Span}
    (h : Clean (Statement.assign target e b span).summary) : Clean target.text ∧ Clean e.text := by
  simp only [Statement.summary, clean_append] at h
  exact ⟨h.1.1.2, h.2⟩

/-- Code whose comments are on one line each. -/
def CommentsClean (code : Code) : Prop := ∀ text, Line.comment text ∈ code → Clean text

namespace CommentsClean

variable {text : String} {mark : Mark} {op : Opcode} {o : Operand} {register : Nat}
  {code code' : Code}

@[simp] theorem nil : CommentsClean [] := by simp [CommentsClean]

@[simp] theorem append_iff :
    CommentsClean (code ++ code') ↔ CommentsClean code ∧ CommentsClean code' := by
  simp only [CommentsClean, List.mem_append, or_imp, forall_and]

@[simp] theorem comment_iff :
    CommentsClean (.comment text :: code) ↔ Clean text ∧ CommentsClean code := by
  simp [CommentsClean, or_imp, forall_and]

@[simp] theorem label_iff : CommentsClean (.label mark :: code) ↔ CommentsClean code := by
  simp [CommentsClean]

@[simp] theorem jump_iff : CommentsClean (.jump op mark :: code) ↔ CommentsClean code := by
  simp [CommentsClean]

@[simp] theorem operate_iff : CommentsClean (.operate op o :: code) ↔ CommentsClean code := by
  simp [CommentsClean]

@[simp] theorem load_iff : CommentsClean (Code.load o :: code) ↔ CommentsClean code := operate_iff

@[simp] theorem store_iff : CommentsClean (Code.store register :: code) ↔ CommentsClean code :=
  operate_iff

theorem map {α : Type} {f : α → Line} (h : ∀ x text, f x ≠ .comment text) (l : List α) :
    CommentsClean (l.map f) := by
  intro text htext
  obtain ⟨x, -, hx⟩ := List.mem_map.mp htext
  exact absurd hx (h x text)

end CommentsClean

/-- No comment on the way of an operator's code. -/
theorem operation_comment {op : Operator} {left right : Operand} {n n' : Nat} {code : Code}
    (h : Operation.code op left right n = (code, n')) : CommentsClean code := by
  cases op <;> cases h <;> simp [Operation.equal, Operation.greaterThan, Operation.lessThan]

theorem Moves.comment {scope : ScopeId} {pairs : List (String × Nat)} {R R' : Registers}
    {code : Code} (h : Moves scope pairs R code R') : CommentsClean code := by
  induction h with
  | nil => simp
  | cons _ _ ih => simpa using ih

/-- **Comments stay on their lines.** -/
theorem Emits.comment_clean {t : Tree} {d : Nat} {a : Surroundings} {task : Task}
    {R R' : Registers} {n n' : Nat} {code : Code} (h : Emits t d a task R n code R' n')
    (ht : t.Clean) (hc : task.Clean) : CommentsClean code := by
  induction h with
  | number | name | stagedNil | passingNil | nil => simp
  | leave | again => exact .map (by simp) _
  | array => exact CommentsClean.load_iff.mpr (.map (by simp [Code.store]) _)
  | element span array address temporary ih =>
    have haddress := ih hc.of_element
    simpa using haddress
  | simple span second first operation => simp [operation_comment operation]
  | spilled span second leftCode temporary operation ih =>
    have hleft := ih hc.of_binary.1
    simp [hleft, operation_comment operation]
  | binary span leftCode leftTemporary rightCode rightTemporary operation ihl ihr =>
    have hleft := ihl hc.of_binary.1
    have hright := ihr hc.of_binary.2
    simp [hleft, hright, operation_comment operation]
  | call span fresh function arguments inlined iha ihb =>
    obtain ⟨hname, hes⟩ := clean_call.mp hc
    have htitle := clean_append.mpr ⟨(by simp [Clean] : Clean "inline "), hname⟩
    have harguments := iha hes
    have hbody := ihb trivial
    simp [htitle, harguments, hbody]
  | direct plain passing ih => exact ih hc
  | staging calls staged moved ih => simp [ih hc, moved.comment]
  | stagedCons argument temporary rest iha ihr | passingCons _ argument temporary rest iha ihr =>
    have hargument := iha (hc _ List.mem_cons_self)
    have hrest := ihr fun e he => hc e (List.mem_cons_of_mem _ he)
    simp [hargument, hrest]
  | assign initial span value register ih =>
    have hvalue := ih hc.of_summary.2
    simpa using hvalue
  | assignElement initial place span array address temporary value iha ihv =>
    obtain ⟨htarget, he⟩ := Clean.of_summary hc
    simp only [Target.text, clean_append] at htarget
    have haddress := iha htarget.1.2
    have hvalue := ihv he
    simp [haddress, hvalue]
  | branch span tested inner iht ihi | loop span tested inner iht ihi =>
    have htested := iht (clean_append.mp hc).2
    have hinner := ihi trivial
    simp [htested, hinner]
  | branchElse span tested inner otherwise iht ihi iho =>
    have htested := iht (clean_append.mp hc).2
    have hinner := ihi trivial
    have hother := iho trivial
    simp [htested, hinner, hother]
  | block inner ih => exact ih trivial
  | give span value ih =>
    have hvalue := ih (clean_append.mp hc).2
    exact CommentsClean.append_iff.mpr ⟨hvalue, .map (by simp) _⟩
  | evaluate value ih => exact ih hc
  | silent silent others ih => exact ih fun s hs => hc s (List.mem_cons_of_mem _ hs)
  | cons first others ihf iho =>
    have hs := hc _ List.mem_cons_self
    have hfirst := ihf hs
    have hothers := iho fun s hs => hc s (List.mem_cons_of_mem _ hs)
    simp [hs, hfirst, hothers]
  | scope inner ih => exact ih (ht _)

/-! ### Elements of arrays -/

namespace Expression

mutual

/-- An element of an array is read. -/
def accesses : Expression → Bool
  | binary _ left right _ => left.accesses || right.accesses
  | element _ _ _ => true
  | call _ arguments _ _ => accessesAny arguments
  | name _ | number _ _ | new _ _ => false

def accessesAny : List Expression → Bool
  | [] => false
  | e :: rest => e.accesses || accessesAny rest

end

end Expression

/-- An element of an array is read or assigned. -/
def Statement.accesses : Statement → Bool
  | assign (.element _ _ _) _ _ _ => true
  | assign (.name _) e _ _ | branch e _ _ _ | loop e _ _ | give e _ | evaluate e => e.accesses
  | block _ | leave _ | again _ | function _ _ _ _ _ | parameter _ => false

/-- **No element of an array is read or assigned** anywhere in the tree. -/
def Tree.WithoutElements (t : Tree) : Prop :=
  ∀ id, ∀ s ∈ (t.scope id).statements.toList, s.accesses = false

/-- No element of an array is read or assigned in this part itself. -/
def Task.WithoutElements : Task → Prop
  | expression e => e.accesses = false
  | staged es _ | passing _ _ es | arguments _ _ es => Expression.accessesAny es = false
  | statement _ s => s.accesses = false
  | statements _ l => ∀ s ∈ l, s.accesses = false
  | scope _ => True

/-- A line that goes through a pointer. -/
def Line.IsPointer (line : Line) : Prop := ∃ op index, line = .operate op (.pointer index)

section Pointers

variable {text : String} {mark : Mark} {op : Opcode} {o : Operand} {register : Nat}

@[simp] theorem not_isPointer_comment : ¬ (Line.comment text).IsPointer := by simp [Line.IsPointer]

@[simp] theorem not_isPointer_label : ¬ (Line.label mark).IsPointer := by simp [Line.IsPointer]

@[simp] theorem not_isPointer_jump : ¬ (Line.jump op mark).IsPointer := by simp [Line.IsPointer]

@[simp] theorem isPointer_operate :
    (Line.operate op o).IsPointer ↔ ∃ index, o = .pointer index := by
  simp [Line.IsPointer]

@[simp] theorem isPointer_load : (Code.load o).IsPointer ↔ ∃ index, o = .pointer index :=
  isPointer_operate

@[simp] theorem not_isPointer_store : ¬ (Code.store register).IsPointer := by simp [Code.store]

/-- Code without a pointer. -/
def PointerFree (code : Code) : Prop := ∀ line ∈ code, ¬ line.IsPointer

namespace PointerFree

variable {line : Line} {code code' : Code}

@[simp] theorem nil : PointerFree [] := List.forall_mem_nil _

@[simp] theorem cons_iff : PointerFree (line :: code) ↔ ¬ line.IsPointer ∧ PointerFree code :=
  List.forall_mem_cons

@[simp] theorem append_iff :
    PointerFree (code ++ code') ↔ PointerFree code ∧ PointerFree code' :=
  List.forall_mem_append

theorem map {α : Type} {f : α → Line} (h : ∀ x, ¬ (f x).IsPointer) (l : List α) :
    PointerFree (l.map f) :=
  List.forall_mem_map.mpr fun x _ => h x

end PointerFree

theorem operation_pointer {op : Operator} {left right : Operand} {n n' : Nat} {code : Code}
    (h : Operation.code op left right n = (code, n')) (hl : ∀ index, left ≠ .pointer index)
    (hr : ∀ index, right ≠ .pointer index) : PointerFree code := by
  cases op <;> cases h <;>
    simp [Operation.equal, Operation.greaterThan, Operation.lessThan, hl, hr]

theorem Simple.not_pointer {e : Expression} {R R' : Registers}
    (h : Simple R e o R') : ∀ index, o ≠ .pointer index := by
  cases h <;> simp

theorem Moves.pointer {scope : ScopeId} {pairs : List (String × Nat)} {R R' : Registers}
    {code : Code} (h : Moves scope pairs R code R') : PointerFree code := by
  induction h with
  | nil => simp
  | cons _ _ ih => simpa using ih

end Pointers

/-- **Without elements of arrays there are no pointers.** -/
theorem Emits.no_pointer {t : Tree} {d : Nat} {a : Surroundings} {task : Task} {R R' : Registers}
    {n n' : Nat} {code : Code} (h : Emits t d a task R n code R' n') (ht : t.WithoutElements)
    (hw : task.WithoutElements) : PointerFree code := by
  induction h with
  | number | name | stagedNil | passingNil | nil => simp
  | leave | again => exact .map (fun _ => not_isPointer_jump) _
  | array => exact PointerFree.cons_iff.mpr ⟨by simp, .map (fun _ => not_isPointer_store) _⟩
  | element | assignElement => cases hw
  | simple span second first operation =>
    have hoperation := operation_pointer operation first.not_pointer second.not_pointer
    simpa [first.not_pointer] using hoperation
  | spilled span second leftCode temporary operation ih =>
    have hleft := ih (Bool.or_eq_false_iff.mp hw).1
    have hoperation := operation_pointer operation (by simp) second.not_pointer
    simp [hleft, hoperation]
  | binary span leftCode leftTemporary rightCode rightTemporary operation ihl ihr =>
    have hw := Bool.or_eq_false_iff.mp hw
    have hoperation := operation_pointer operation (by simp) (by simp)
    simp [ihl hw.1, ihr hw.2, hoperation]
  | call span fresh function arguments inlined iha ihb =>
    have harguments := iha hw
    have hbody := ihb trivial
    simp [harguments, hbody]
  | direct plain passing ih => exact ih hw
  | staging calls staged moved ih => simp [ih hw, moved.pointer]
  | stagedCons argument temporary rest iha ihr | passingCons _ argument temporary rest iha ihr =>
    have hw := Bool.or_eq_false_iff.mp hw
    simp [iha hw.1, ihr hw.2]
  | assign initial span value register ih =>
    have hvalue := ih hw
    simpa using hvalue
  | branch span tested inner iht ihi | loop span tested inner iht ihi =>
    have htested := iht hw
    have hinner := ihi trivial
    simp [htested, hinner]
  | branchElse span tested inner otherwise iht ihi iho =>
    have htested := iht hw
    have hinner := ihi trivial
    have hother := iho trivial
    simp [htested, hinner, hother]
  | block inner ih => exact ih trivial
  | give span value ih =>
    have hvalue := ih hw
    exact PointerFree.append_iff.mpr ⟨hvalue, .map (fun _ => not_isPointer_jump) _⟩
  | evaluate value ih => exact ih hw
  | silent silent others ih => exact ih fun s hs => hw s (List.mem_cons_of_mem _ hs)
  | cons first others ihf iho =>
    have hfirst := ihf (hw _ List.mem_cons_self)
    have hothers := iho fun s hs => hw s (List.mem_cons_of_mem _ hs)
    simp [hfirst, hothers]
  | scope inner ih => exact ih (ht _)

end RegisterMachine.Structured
