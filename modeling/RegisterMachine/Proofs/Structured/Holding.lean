import RegisterMachine.Proofs.Structured.Reach
import RegisterMachine.Proofs.Structured.Reservation

/-! # What emitting does to the registers

The code of a part of a tree is emitted in a step of the registers, in the sense of `Leads`:
temporaries are given back, and slots of scopes that the part does not touch keep their registers.

* `Task.Changes`: the slots that a part may change.
* `Emits.leads`: the step. -/

namespace RegisterMachine.Structured

open RegisterMachine.Assembly

namespace Task

/-- The temporaries that a part leaves behind, the latest first. -/
def added : Task → List Nat
  | staged _ temporaries => temporaries.reverse
  | _ => []

/-- The slots that a part may change: those of the scopes that it touches, and of its own scope. -/
def Changes (t : Tree) (task : Task) (slot : Slot) : Prop :=
  Touches t task slot.scope ∨ task.home? = some slot.scope

end Task

section Leads

variable {t : Tree} {task task' : Task} {added : List Nat} {R R' : Registers}

theorem Leads.of_sub (h : Leads (task'.Changes t) added R R') (hsub : Sub t task' task)
    (hhome : task'.home? = none ∨ task'.home? = task.home?) :
    Leads (task.Changes t) added R R' := by
  refine h.mono fun slot hslot => ?_
  rcases hslot with hslot | hslot
  · exact .inl (hsub.touches hslot)
  · rcases hhome with hnone | hhome
    · rw [hnone] at hslot
      cases hslot
    · exact .inr (hhome ▸ hslot)

theorem Simple.leads {e : Expression} {o : Operand} (touched : Slot → Prop)
    (h : Simple R e o R') : Leads touched [] R R' := by
  cases h with
  | number => exact Leads.refl touched R
  | name register => exact Registers.leads_getOrReserve touched register

theorem Moves.leads {scope : ScopeId} {pairs : List (String × Nat)} {code : Code}
    (touched : Slot → Prop) (h : Moves scope pairs R code R') : Leads touched [] R R' := by
  induction h with
  | nil R => exact Leads.refl touched R
  | cons register _ ih => exact (Registers.leads_getOrReserve touched register).trans ih

theorem leads_releaseName (scope : ScopeId) (R : Registers) (i : Identifier) :
    Leads (fun slot => slot.scope = scope) [] R (Emit.releaseName scope R i) := by
  unfold Emit.releaseName
  split
  · exact R.leads_releaseArray i.name scope _
  · exact R.leads_release i.name scope

theorem leads_releaseScope (t : Tree) (scope : ScopeId) (R : Registers) :
    Leads (fun slot => slot.scope = scope) [] R (t.release scope R) :=
  Registers.leads_foldl (leads_releaseName scope) _ R

theorem leads_releaseParameters (names : List String) (scope : ScopeId) (R : Registers) :
    Leads (fun slot => slot.scope = scope) [] R
      (names.foldl (fun R name => R.release name scope) R) :=
  Registers.leads_foldl (fun R name => R.leads_release name scope) names R

theorem Leads.of_part (h : Leads (task'.Changes t) added R R') (hpart : Part task' task) :
    Leads (task.Changes t) added R R' :=
  h.of_sub (hpart.sub t) hpart.home

/-- **Emitting a part of a tree is a step of the registers.** -/
theorem Emits.leads {d : Nat} {a : Surroundings} {n n' : Nat} {code : Code}
    (h : Emits t d a task R n code R' n') : Leads (task.Changes t) task.added R R' := by
  induction h with
  | number | stagedNil | passingNil | leave | again | nil => exact Leads.refl _ _
  | name register => exact Registers.leads_getOrReserve _ register
  | element span array address temporary ih =>
    exact ((ih.of_part (.index ..)).trans (Registers.leads_temporary _ temporary)).free
  | simple span second first operation => exact (second.leads _).trans (first.leads _)
  | spilled span second leftCode temporary operation ih =>
    exact (((second.leads _).trans (ih.of_part (.left ..))).trans
      (Registers.leads_temporary _ temporary)).free
  | binary span leftCode leftTemporary rightCode rightTemporary operation ihl ihr =>
    exact (((ihl.of_part (.left ..)).trans (Registers.leads_temporary _ leftTemporary)).trans
      ((ihr.of_part (.right ..)).trans (Registers.leads_temporary _ rightTemporary))).free.free
  | @call _ _ _ _ _ _ _ _ _ _ parameters body i f es callee returns place span fresh function
      arguments inlined iha ihb =>
    have hf : t.Function callee parameters body := ⟨f, returns, place, function⟩
    have hcallee : callee ∈ (Task.expression (.call i es (some callee) span)).callees :=
      List.mem_append_right _ (List.mem_singleton_self callee)
    have hbody := ihb.of_sub (.of_call hcallee hf) (.inl rfl)
    exact ((iha.of_part (.arguments ..)).trans hbody).trans
      ((leads_releaseParameters _ parameters _).mono fun slot hslot =>
        .inl (.inr ⟨callee, body, .inl hcallee, hslot ▸ hf⟩))
  | direct plain passing ih => exact ih.of_part (.passing ..)
  | staging calls staged moved ih =>
    exact ((ih.of_part (.staged ..)).trans (moved.leads _)).freeAll
  | @stagedCons _ _ _ _ _ _ _ _ _ r _ _ _ _ temporaries argument temporary rest iha ihr =>
    rw [Task.added, List.reverse_cons]
    exact ((iha.of_part (.stagedHead ..)).trans (Registers.leads_temporary _ temporary)).trans
      (ihr.of_part (.stagedTail ..))
  | passingCons plain argument register rest iha ihr =>
    exact ((iha.of_part (.passingHead _ _ _ _ plain)).trans
      (Registers.leads_getOrReserve _ register)).trans (ihr.of_part (.passingTail ..))
  | array place span registers =>
    exact (Registers.leads_reserveArray registers).mono fun slot hslot =>
      .inr (congrArg some hslot.2.1.symm)
  | assign initial span value register ih =>
    exact (ih.of_part (.value ..)).trans (Registers.leads_getOrReserve _ register)
  | assignElement initial place span array address temporary value iha ihv =>
    exact (((iha.of_part (.place ..)).trans (Registers.leads_temporary _ temporary)).trans
      (ihv.of_part (.content ..))).free
  | branch span tested inner iht ihi =>
    exact (iht.of_part (.test ..)).trans (ihi.of_part (.body ..))
  | branchElse span tested inner otherwise iht ihi iho =>
    exact ((iht.of_part (.test ..)).trans (ihi.of_part (.body ..))).trans
      (iho.of_part (.otherwise ..))
  | loop span tested inner iht ihi =>
    exact (iht.of_part (.loopTest ..)).trans (ihi.of_part (.loopBody ..))
  | block inner ih => exact ih.of_part (.block ..)
  | give span value ih => exact ih.of_part (.give ..)
  | evaluate value ih => exact ih.of_part (.evaluate ..)
  | silent silent others ih => exact ih.of_part (.tail ..)
  | cons first others ihf iho => exact (ihf.of_part (.head ..)).trans (iho.of_part (.tail ..))
  | @scope _ _ _ _ R₁ _ _ scope inner ih =>
    have hself : Touches t (.scope scope) scope :=
      .inl ⟨scope, .inl (List.mem_singleton_self scope), .refl⟩
    have hinside : Leads ((Task.scope scope).Changes t) [] _ R₁ := ih.mono fun slot hslot => by
      rcases hslot with hslot | hslot
      · exact .inl ((Sub.inside t scope).touches hslot)
      · exact .inl (Option.some.inj hslot ▸ hself)
    have hrelease := leads_releaseScope t scope R₁
    exact hinside.trans (hrelease.mono fun slot hslot => .inl (hslot ▸ hself))

end Leads

end RegisterMachine.Structured
