import RegisterMachine.Proofs.Structured.Meaning

/-! # More fuel, the same meaning

A run that comes to an end does so in the same way with more fuel. So a program has one meaning:
it ends in one store, it is interrupted for one reason, or no fuel is enough for it.

Fuel is used by scopes and by loops alone. Everything else hands on the runs of scopes, so it is
enough to compare it for two ways to `enter` them.

* `Eval.Below`: one run is as another, unless it is unfinished.
* `result_below`, `statementsRun_below`: expressions and statements.
* `Tree.run_mono`, `Tree.run_unique`: programs. -/

namespace RegisterMachine.Structured

/-- **The second run is as the first**, unless that is unfinished. -/
def Eval.Below {α : Type} (m m' : Eval α) : Prop :=
  ∀ σ, m σ ≠ .error .unfinished → m' σ = m σ

namespace Eval.Below

variable {α β : Type} {m m' : Eval α}

theorem refl (m : Eval α) : Below m m := fun _ _ => rfl

theorem of_unfinished (m : Eval α) : Below (fun _ => .error .unfinished) m :=
  fun _ h => absurd rfl h

theorem bind {f f' : α → Eval β} (h : Below m m') (hf : ∀ a, Below (f a) (f' a)) :
    Below (m >>= f) (m' >>= f') := by
  intro σ hfinished
  have hbind : ∀ (m : Eval α) (f : α → Eval β), (m >>= f) σ = m σ >>= fun y => f y.1 y.2 :=
    fun _ _ => rfl
  rw [hbind] at hfinished
  rw [hbind, hbind]
  have hm : m σ ≠ .error .unfinished := by
    intro hm
    rw [hm] at hfinished
    exact hfinished rfl
  rw [h σ hm]
  cases hrun : m σ with
  | error interruption => rfl
  | ok y =>
    rw [hrun] at hfinished
    exact hf y.1 y.2 hfinished

/-- What stands behind two runs may differ with their fuel. -/
theorem behind {f f' : α → Eval β} (m : Eval α) (hf : ∀ a, Below (f a) (f' a)) :
    Below (m >>= f) (m >>= f') :=
  (refl m).bind hf

/-- Two runs are followed by the same. -/
theorem followed (h : Below m m') (f : α → Eval β) : Below (m >>= f) (m' >>= f) :=
  h.bind fun a => refl (f a)

/-- **More turns of a loop.** -/
theorem loop {test test' : Eval UInt32} {body body' : Eval Signal} (ht : Below test test')
    (hb : Below body body') {turns turns' : Nat} (h : turns ≤ turns') :
    Below (Eval.loop test body turns) (Eval.loop test' body' turns') := by
  induction turns generalizing turns' with
  | zero => exact of_unfinished _
  | succ turns ih =>
    obtain ⟨turns', rfl⟩ := Nat.exists_eq_add_of_le' (Nat.le_trans (Nat.succ_pos turns) h)
    refine ht.bind fun v => ?_
    by_cases hv : v = 0
    · rw [if_pos hv, if_pos hv]
      exact refl _
    · rw [if_neg hv, if_neg hv]
      refine hb.bind fun signal => ?_
      cases signal with
      | next | again => exact ih (Nat.le_of_succ_le_succ h)
      | leave | returned => exact refl _

end Eval.Below

section Scopes

open Eval (Below)

variable {t : Tree} {enter enter' : ScopeId → Eval Signal}

theorem invoke_below (h : ∀ scope, Below (enter scope) (enter' scope)) (parameters body : ScopeId)
    (values : List UInt32) :
    Below (invoke t enter parameters body values) (invoke t enter' parameters body values) :=
  .behind _ fun _ => (h body).followed _

mutual

theorem result_below (h : ∀ scope, Below (enter scope) (enter' scope)) :
    ∀ e, Below (result t enter e) (result t enter' e)
  | .number _ _ => by
    rw [result, result]
    exact .refl _
  | .name _ => by
    rw [result, result]
    exact .refl _
  | .element _ index _ => by
    rw [result, result]
    exact (result_below h index).followed _
  | .binary _ left right _ => by
    rw [result, result]
    refine (result_below h left).bind fun _ => .behind _ fun _ => ?_
    exact (result_below h right).followed _
  | .call _ arguments resolved _ => by
    rw [result, result]
    cases t.callable? resolved arguments.length with
    | none => exact .refl _
    | some callee =>
      refine (results_below h arguments).bind fun values => ?_
      exact invoke_below h callee.1 callee.2 values
  | .new _ _ => by
    rw [result, result]
    exact .refl _

theorem results_below (h : ∀ scope, Below (enter scope) (enter' scope)) :
    ∀ es, Below (results t enter es) (results t enter' es)
  | [] => by
    rw [results, results]
    exact .refl _
  | e :: es => by
    rw [results, results]
    refine (result_below h e).bind fun _ => .behind _ fun _ => ?_
    exact (results_below h es).followed _

end

theorem value_below (h : ∀ scope, Below (enter scope) (enter' scope)) (e : Expression) :
    Below (value t enter e) (value t enter' e) :=
  (result_below h e).followed _

variable {turns turns' : Nat} (scope : ScopeId)

theorem statementRun_below (h : ∀ scope, Below (enter scope) (enter' scope))
    (hturns : turns ≤ turns') (s : Statement) :
    Below (statementRun t enter turns scope s) (statementRun t enter' turns' scope s) := by
  cases s with
  | assign target e initial span =>
    cases target with
    | element i index place =>
      rw [statementRun_assignElement, statementRun_assignElement]
      exact (value_below h index).bind fun _ => (value_below h e).followed _
    | name i =>
      cases initial with
      | false =>
        rw [statementRun_assign, statementRun_assign]
        exact (value_below h e).followed _
      | true =>
        cases e with
        | new type place => exact .refl _
        | _ => exact (value_below h _).followed _
  | branch condition body otherwise span =>
    refine (value_below h condition).bind fun v => ?_
    by_cases hv : v = 0
    · rw [if_pos hv, if_pos hv]
      cases otherwise with
      | none => exact .refl _
      | some other => exact h other
    · rw [if_neg hv, if_neg hv]
      exact h body
  | loop condition body span => exact .loop (value_below h condition) (h body) hturns
  | block body => exact h body
  | give e span => exact (value_below h e).followed _
  | evaluate e => exact (result_below h e).followed _
  | leave | again | function | parameter => exact .refl _

theorem statementsRun_below (h : ∀ scope, Below (enter scope) (enter' scope))
    (hturns : turns ≤ turns') (statements : List Statement) :
    Below (statementsRun t enter turns scope statements)
      (statementsRun t enter' turns' scope statements) := by
  induction statements with
  | nil => exact .refl _
  | cons s rest ih =>
    refine (statementRun_below scope h hturns s).bind fun signal => ?_
    cases signal with
    | next => exact ih
    | leave | again | returned => exact .refl _

theorem scopeRun_below (t : Tree) {fuel fuel' : Nat} (h : fuel ≤ fuel') (scope : ScopeId) :
    Below (scopeRun t fuel scope) (scopeRun t fuel' scope) := by
  induction fuel generalizing fuel' scope with
  | zero => exact .of_unfinished _
  | succ fuel ih =>
    obtain ⟨fuel', rfl⟩ := Nat.exists_eq_add_of_le' (Nat.le_trans (Nat.succ_pos fuel) h)
    have hle : fuel ≤ fuel' := Nat.le_of_succ_le_succ h
    have hinner := statementsRun_below (t := t) scope (ih hle) hle (t.scope scope).statements.toList
    exact .behind _ fun _ => hinner.followed _

end Scopes

/-- **More fuel does not change how a program ends.** -/
theorem Tree.run_mono (t : Tree) {fuel fuel' : Nat} (h : fuel ≤ fuel')
    (hfinished : t.run fuel ≠ .error .unfinished) : t.run fuel' = t.run fuel := by
  have hbelow := statementsRun_below (t := t) rootScope (fun scope => scopeRun_below t h scope) h
    (t.scope rootScope).statements.toList
  have hroot : statementsRun t (scopeRun t fuel) fuel rootScope
      (t.scope rootScope).statements.toList Store.empty ≠ .error .unfinished := by
    intro hroot
    rw [Tree.run, hroot] at hfinished
    exact hfinished rfl
  rw [Tree.run, Tree.run, hbelow Store.empty hroot]

/-- Two runs that are not unfinished end alike. -/
theorem Tree.run_unique (t : Tree) {fuel fuel' : Nat} (h : t.run fuel ≠ .error .unfinished)
    (h' : t.run fuel' ≠ .error .unfinished) : t.run fuel = t.run fuel' := by
  rcases Nat.le_total fuel fuel' with hle | hle
  · exact (t.run_mono hle h).symm
  · exact t.run_mono hle h'

end RegisterMachine.Structured
