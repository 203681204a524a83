import Mathlib.Data.Set.Insert
import Mathlib.Tactic.Tauto
import RegisterMachine.Structured.Emission.Operation

/-! # Code that reads only what it stored

Code is checked from its start to its end, with the registers that have been stored for certain. A
label can be jumped to from elsewhere; so each number of a label has registers that are needed
there, every way to the label must have stored them, and no more is known behind it.

* `Opcode.reads?`, `Opcode.stores?`: the register that is read, or stored, by the name in the
  operand.
* `Guarded`: the check, with `Guarded.append` and a rule for every kind of line.
* `guarded_operation`: the code of an operator reads its operands only.
* `Guardable`: what is needed at the labels can be chosen, with `Guardable.append` and
  `Guardable.close` to put code together. -/

namespace RegisterMachine.Assembly

namespace Opcode

/-- **The register whose contents are read** by its name in the operand. A `STORE` reads the
register of a pointer, and not the one that it stores into. -/
def reads? : Opcode → Operand → Option Nat
  | store, .register _ => none
  | _, o => o.register?

/-- The register that is stored by its name in the operand. -/
def stores? : Opcode → Operand → Option Nat
  | store, .register r => some r
  | _, _ => none

theorem reads?_of_ne {op : Opcode} (h : op ≠ store) (o : Operand) : op.reads? o = o.register? := by
  cases op <;> first | rfl | exact absurd rfl h

theorem stores?_of_ne {op : Opcode} (h : op ≠ store) (o : Operand) : op.stores? o = none := by
  cases op <;> first | rfl | exact absurd rfl h

end Opcode

/-- The register that an instruction reads by its name in the operand. -/
def Instruction.reads? (i : Instruction) : Option Nat :=
  match i.argument with
  | some (.operand o _) => i.opcode.reads? o
  | _ => none

end RegisterMachine.Assembly

namespace RegisterMachine.Structured

open RegisterMachine.Assembly

/-- **Code reads only registers that have been stored**, if those of `S` have been where it starts;
and those of `T` have been where it ends. -/
def Guarded (need : Nat → Set Nat) : Set Nat → Code → Set Nat → Prop
  | S, [], T => T ⊆ S
  | S, .comment _ :: code, T => Guarded need S code T
  | S, .label m :: code, T => need m.number ⊆ S ∧ Guarded need (need m.number) code T
  | S, .operate op o :: code, T =>
    (∀ r, op.reads? o = some r → r ∈ S) ∧ Guarded need {r | op.stores? o = some r ∨ r ∈ S} code T
  | S, .jump _ m :: code, T => need m.number ⊆ S ∧ Guarded need S code T
  | S, .halt :: code, T => Guarded need S code T

section Guarded

variable {need : Nat → Set Nat} {S S' T T' : Set Nat} {code code' : Code} {op : Opcode}
  {o : Operand} {m : Mark} {r n n' : Nat}

theorem Guarded.mono (h : Guarded need S code T) (hS : S ⊆ S') (hT : T' ⊆ T) :
    Guarded need S' code T' := by
  induction code generalizing S S' with
  | nil => exact (hT.trans h).trans hS
  | cons line code ih =>
    cases line with
    | comment | halt => exact ih h hS
    | label => exact ⟨h.1.trans hS, ih h.2 subset_rfl⟩
    | operate op o =>
      refine ⟨fun r hr => hS (h.1 r hr), ih h.2 fun r hr => ?_⟩
      exact hr.imp_right fun hr => hS hr
    | jump => exact ⟨h.1.trans hS, ih h.2 hS⟩

/-- **One code behind another.** -/
theorem Guarded.append (h : Guarded need S code T) (h' : Guarded need T code' T') :
    Guarded need S (code ++ code') T' := by
  induction code generalizing S with
  | nil => exact h'.mono h subset_rfl
  | cons line code ih =>
    cases line with
    | comment | halt => exact ih h
    | label | operate | jump => exact ⟨h.1, ih h.2⟩

/-- **Behind a label**, wherever it stands, the code is checked with what is needed there. -/
theorem Guarded.at_label {before : Code} (h : Guarded need S (before ++ .label m :: code) T) :
    Guarded need (need m.number) code T := by
  induction before generalizing S with
  | nil => exact h.2
  | cons line before ih =>
    cases line with
    | comment | halt => exact ih h
    | label | operate | jump => exact ih h.2

/-! ### The rules of the lines -/

theorem guarded_nil (need : Nat → Set Nat) (S : Set Nat) : Guarded need S [] S := subset_rfl

/-- A label at which all that has been stored is needed. -/
theorem Guarded.label (hm : need m.number = S) (h : Guarded need S code T) :
    Guarded need S (.label m :: code) T := by
  subst hm
  exact ⟨subset_rfl, h⟩

theorem Guarded.jump (hm : need m.number ⊆ S) (h : Guarded need S code T) :
    Guarded need S (.jump op m :: code) T := ⟨hm, h⟩

/-- An instruction that stores into no register by its name. -/
theorem Guarded.operate (hop : op.stores? o = none) (ho : ∀ r, op.reads? o = some r → r ∈ S)
    (h : Guarded need S code T) : Guarded need S (.operate op o :: code) T := by
  refine ⟨ho, ?_⟩
  simpa [hop] using h

theorem Guarded.compute (hop : op ≠ .store) (ho : ∀ r, o.register? = some r → r ∈ S)
    (h : Guarded need S code T) : Guarded need S (.operate op o :: code) T :=
  .operate (Opcode.stores?_of_ne hop o) (by rwa [Opcode.reads?_of_ne hop o]) h

theorem Guarded.load (ho : ∀ r, o.register? = some r → r ∈ S) (h : Guarded need S code T) :
    Guarded need S (Code.load o :: code) T := .compute Opcode.noConfusion ho h

theorem Guarded.number {value : UInt32} (h : Guarded need S code T) :
    Guarded need S (Code.load (.immediate value) :: code) T := .load (fun _ hr => nomatch hr) h

theorem Guarded.store (h : Guarded need (insert r S) code T) :
    Guarded need S (Code.store r :: code) T := by
  refine ⟨fun _ hx => (nomatch hx), h.mono (fun x hx => ?_) subset_rfl⟩
  rcases hx with rfl | hx
  · exact .inl rfl
  · exact .inr hx

/-! ### Operators -/

/-- The same is needed at all labels with these numbers. -/
def Needs (need : Nat → Set Nat) (S : Set Nat) (lo hi : Nat) : Prop :=
  ∀ k, lo ≤ k → k < hi → need k = S

theorem Needs.mono {lo lo' hi hi' : Nat} (h : Needs need S lo hi) (hlo : lo ≤ lo')
    (hhi : hi' ≤ hi) : Needs need S lo' hi' :=
  fun k hk hk' => h k (Nat.le_trans hlo hk) (Nat.lt_of_lt_of_le hk' hhi)

section Operators

variable {left right : Operand} (hr : ∀ r, right.register? = some r → r ∈ S)

include hr

theorem guarded_greaterThan (hneed : Needs need S n (n + 1)) :
    Guarded need S (Operation.greaterThan right n).1 S := by
  have hn : need n = S := hneed n (by omega) (by omega)
  exact .compute Opcode.noConfusion hr (.jump hn.subset (.number (.label hn (guarded_nil need S))))

theorem guarded_equal (hl : ∀ r, left.register? = some r → r ∈ S)
    (hneed : Needs need S n (n + 2)) : Guarded need S (Operation.equal left right n).1 S := by
  have hn : need n = S := hneed n (by omega) (by omega)
  have hn₁ : need (n + 1) = S := hneed (n + 1) (by omega) (by omega)
  refine .compute Opcode.noConfusion hr (.jump hn.subset (.load hr ?_))
  refine .compute Opcode.noConfusion hl (.jump hn.subset (.number (.jump hn₁.subset ?_)))
  exact .label hn (.number (.label hn₁ (guarded_nil need S)))

theorem guarded_lessThan (hl : ∀ r, left.register? = some r → r ∈ S)
    (hneed : Needs need S n (n + 4)) : Guarded need S (Operation.lessThan left right n).1 S := by
  have hn : need n = S := hneed n (by omega) (by omega)
  have hn₁ : need (n + 1) = S := hneed (n + 1) (by omega) (by omega)
  have hfirst : Guarded need S [Code.load right, .operate .sub left,
      .jump .jzero ⟨.lessFailed, n⟩, Code.load left] S :=
    .load hr (.compute Opcode.noConfusion hl (.jump hn.subset (.load hl (guarded_nil need S))))
  have hsame := guarded_equal hr hl (hneed.mono (Nat.le_add_right n 2) (Nat.le_refl (n + 4)))
  refine (hfirst.append hsame).append (.jump hn.subset (.number (.jump hn₁.subset ?_)))
  exact .label hn (.number (.label hn₁ (guarded_nil need S)))

omit hr in
theorem guarded_negation (hneed : Needs need S n (n + 2)) :
    Guarded need S (Operation.negation n).1 S := by
  have hn : need n = S := hneed n (by omega) (by omega)
  have hn₁ : need (n + 1) = S := hneed (n + 1) (by omega) (by omega)
  refine .jump hn.subset (.number (.jump hn₁.subset ?_))
  exact .label hn (.number (.label hn₁ (guarded_nil need S)))

/-- **The code of an operator** reads its operands only, and stores nothing. -/
theorem guarded_operation {op : Operator} (hl : ∀ r, left.register? = some r → r ∈ S)
    (h : Operation.code op left right n = (code, n'))
    (hneed : Needs need S n n') : Guarded need S code S := by
  cases op with
  | add | subtract | multiply | divide =>
    cases h
    exact .compute Opcode.noConfusion hr (guarded_nil need S)
  | equal =>
    cases h
    exact guarded_equal hr hl hneed
  | greaterThan =>
    cases h
    exact guarded_greaterThan hr hneed
  | lessThan =>
    cases h
    exact guarded_lessThan hr hl hneed
  | notEqual =>
    cases h
    have hneed : Needs need S n (n + 4) := hneed
    have hfirst : Needs need S n (n + 2) := hneed.mono (by omega) (by omega)
    have hsecond : Needs need S (n + 2) (n + 4) := hneed.mono (by omega) (by omega)
    exact (guarded_equal hr hl hfirst).append (guarded_negation hsecond)
  | greaterThanOrEqual =>
    cases h
    have hneed : Needs need S n (n + 6) := hneed
    have hfirst : Needs need S n (n + 4) := hneed.mono (by omega) (by omega)
    have hsecond : Needs need S (n + 4) (n + 6) := hneed.mono (by omega) (by omega)
    exact (guarded_lessThan hr hl hfirst).append (guarded_negation hsecond)
  | lessThanOrEqual =>
    cases h
    have hneed : Needs need S n (n + 3) := hneed
    have hfirst : Needs need S n (n + 1) := hneed.mono (by omega) (by omega)
    have hsecond : Needs need S (n + 1) (n + 3) := hneed.mono (by omega) (by omega)
    exact (guarded_greaterThan hr hfirst).append (guarded_negation hsecond)

end Operators

end Guarded

/-! ### Choosing what is needed -/

/-- **Code that can be guarded.** What is needed at its own labels, which have the numbers from `lo`
up to `hi`, can be chosen so that the code is guarded wherever all that is needed at the labels of
`outer` has been stored. -/
structure Guardable (outer : List Mark) (lo hi : Nat) (S : Set Nat) (code : Code) (T : Set Nat) :
    Prop where
  le : lo ≤ hi
  keeps : S ⊆ T
  needs : ∃ own : Nat → Set Nat, ∀ need, (∀ k, lo ≤ k → k < hi → need k = own k) →
    (∀ m ∈ outer, need m.number ⊆ S) → Guarded need S code T

namespace Guardable

variable {outer outer' : List Mark} {lo mid hi n r : Nat} {S T T' U : Set Nat} {code code' : Code}
  {m : Mark} {op : Opcode} {o : Operand}

/-- Code without labels. -/
theorem plain (n : Nat) (keeps : S ⊆ T)
    (h : ∀ need : Nat → Set Nat, (∀ m ∈ outer, need m.number ⊆ S) → Guarded need S code T) :
    Guardable outer n n S code T :=
  ⟨Nat.le_refl n, keeps, fun _ => ∅, fun need _ => h need⟩

theorem nil (outer : List Mark) (n : Nat) (S : Set Nat) : Guardable outer n n S [] S :=
  plain n subset_rfl fun need _ => guarded_nil need S

theorem mono (h : Guardable outer lo hi S code T) (hm : ∀ m ∈ outer, m ∈ outer') :
    Guardable outer' lo hi S code T := by
  obtain ⟨own, hown⟩ := h.needs
  exact ⟨h.le, h.keeps, own, fun need hneed houter =>
    hown need hneed fun m hmem => houter m (hm m hmem)⟩

/-- **One code behind another**: each chooses for its own numbers. -/
theorem append (h : Guardable outer lo mid S code T) (h' : Guardable outer mid hi T code' U) :
    Guardable outer lo hi S (code ++ code') U := by
  obtain ⟨own, hown⟩ := h.needs
  obtain ⟨own', hown'⟩ := h'.needs
  refine ⟨Nat.le_trans h.le h'.le, h.keeps.trans h'.keeps,
    fun k => if k < mid then own k else own' k, fun need hneed houter => ?_⟩
  have hfirst : Guarded need S code T := by
    refine hown need (fun k hk hk' => ?_) houter
    exact (hneed k hk (Nat.lt_of_lt_of_le hk' h'.le)).trans (if_pos hk')
  have hsecond : Guarded need T code' U := by
    refine hown' need (fun k hk hk' => ?_) fun m hm => (houter m hm).trans h.keeps
    exact (hneed k (Nat.le_trans h.le hk) hk').trans (if_neg (Nat.not_lt.mpr hk))
  exact hfirst.append hsecond

/-- A label of its own number needs all that has been stored where the code starts. -/
theorem needs_label (hm : m.number = n) (h : Guardable (m :: outer) (n + 1) hi S code T) :
    ∃ own : Nat → Set Nat, ∀ need, (∀ k, n ≤ k → k < hi → need k = own k) →
      (∀ m ∈ outer, need m.number ⊆ S) → need m.number = S ∧ Guarded need S code T := by
  obtain ⟨own, hown⟩ := h.needs
  refine ⟨fun k => if k = n then S else own k, fun need hneed houter => ?_⟩
  have hn : need m.number = S := by
    rw [hm]
    exact (hneed n (Nat.le_refl n) h.le).trans (if_pos rfl)
  refine ⟨hn, hown need (fun k hk hk' => ?_) fun m' hm' => ?_⟩
  · exact (hneed k (Nat.le_of_succ_le hk) hk').trans (if_neg (Nat.ne_of_gt hk))
  · rcases List.mem_cons.mp hm' with rfl | hm'
    · exact hn.subset
    · exact houter m' hm'

/-! ### Lines in front -/

section Lines

theorem comment (text : String) (h : Guardable outer lo hi S code T) :
    Guardable outer lo hi S (.comment text :: code) T := ⟨h.le, h.keeps, h.needs⟩

theorem compute (hop : op ≠ .store) (ho : ∀ r, o.register? = some r → r ∈ S)
    (h : Guardable outer lo hi S code T) : Guardable outer lo hi S (.operate op o :: code) T := by
  obtain ⟨own, hown⟩ := h.needs
  exact ⟨h.le, h.keeps, own, fun need hneed houter => .compute hop ho (hown need hneed houter)⟩

theorem load (ho : ∀ r, o.register? = some r → r ∈ S) (h : Guardable outer lo hi S code T) :
    Guardable outer lo hi S (Code.load o :: code) T := h.compute Opcode.noConfusion ho

theorem number {value : UInt32} (h : Guardable outer lo hi S code T) :
    Guardable outer lo hi S (Code.load (.immediate value) :: code) T :=
  h.load fun _ hr => nomatch hr

theorem store (h : Guardable outer lo hi (insert r S) code T) :
    Guardable outer lo hi S (Code.store r :: code) T := by
  obtain ⟨own, hown⟩ := h.needs
  refine ⟨h.le, (Set.subset_insert r S).trans h.keeps, own, fun need hneed houter => .store ?_⟩
  exact hown need hneed fun m hm => (houter m hm).trans (Set.subset_insert r S)

/-- The accumulator is stored where a register points to. -/
theorem storePointer (hr : r ∈ S) (h : Guardable outer lo hi S code T) :
    Guardable outer lo hi S (.operate .store (.pointer r) :: code) T := by
  obtain ⟨own, hown⟩ := h.needs
  refine ⟨h.le, h.keeps, own, fun need hneed houter => .operate rfl ?_ (hown need hneed houter)⟩
  exact fun x hx => Option.some.inj hx ▸ hr

theorem jump (hm : m ∈ outer) (h : Guardable outer lo hi S code T) :
    Guardable outer lo hi S (.jump op m :: code) T := by
  obtain ⟨own, hown⟩ := h.needs
  exact ⟨h.le, h.keeps, own, fun need hneed houter => .jump (houter m hm) (hown need hneed houter)⟩

/-- A label in front of the code that may jump to it. -/
theorem label (hm : m.number = n) (h : Guardable (m :: outer) (n + 1) hi S code T) :
    Guardable outer n hi S (.label m :: code) T := by
  obtain ⟨own, hown⟩ := h.needs_label hm
  refine ⟨Nat.le_of_succ_le h.le, h.keeps, own, fun need hneed houter => ?_⟩
  obtain ⟨hn, hcode⟩ := hown need hneed houter
  exact .label hn hcode

end Lines

/-- **A label behind the code that may jump to it.** What had been stored where the code starts has
been stored behind the label. -/
theorem close (hm : m.number = n) (h : Guardable (m :: outer) (n + 1) hi S code T) :
    Guardable outer n hi S (code ++ [.label m]) S := by
  obtain ⟨own, hown⟩ := h.needs_label hm
  refine ⟨Nat.le_of_succ_le h.le, subset_rfl, own, fun need hneed houter => ?_⟩
  obtain ⟨hn, hcode⟩ := hown need hneed houter
  exact (hcode.mono subset_rfl h.keeps).append (.label hn (guarded_nil need S))

theorem operation {left right : Operand} {op : Operator}
    (hl : ∀ r, left.register? = some r → r ∈ S) (hr : ∀ r, right.register? = some r → r ∈ S)
    (h : Operation.code op left right lo = (code, hi)) : Guardable outer lo hi S code S := by
  refine ⟨?_, subset_rfl, fun _ => S, fun need hneed _ => guarded_operation hr hl h hneed⟩
  obtain rfl : (Operation.code op left right lo).2 = hi := congrArg Prod.snd h
  cases op with
  | add | subtract | multiply | divide => exact Nat.le_refl lo
  | greaterThan => exact Nat.le_add_right lo 1
  | equal => exact Nat.le_add_right lo 2
  | lessThanOrEqual => exact Nat.le_add_right lo 3
  | lessThan | notEqual => exact Nat.le_add_right lo 4
  | greaterThanOrEqual => exact Nat.le_add_right lo 6

/-! ### The code of statements with bodies -/

section Bodies

variable {test first second inner : Code} {start done failed : Mark} {U' : Set Nat}

theorem branch (hd : done.number = n) (htest : Guardable outer lo n S test T)
    (hfirst : Guardable outer (n + 1) hi T first U) :
    Guardable outer lo hi S (test ++ .jump .jzero done :: first ++ [.label done]) T := by
  have hbody : Guardable (done :: outer) (n + 1) hi T (.jump .jzero done :: first) U :=
    .jump List.mem_cons_self (hfirst.mono fun _ h => List.mem_cons_of_mem _ h)
  rw [List.append_assoc]
  exact htest.append (hbody.close hd)

theorem branchElse (hd : done.number = n) (hf : failed.number = n + 1)
    (htest : Guardable outer lo n S test T) (hfirst : Guardable outer (n + 2) mid T first U)
    (hsecond : Guardable outer mid hi T second U') :
    Guardable outer lo hi S (test ++ .jump .jzero failed :: first ++ .jump .goto done ::
      .label failed :: second ++ [.label done]) T := by
  have hout : ∀ m ∈ outer, m ∈ failed :: done :: outer := fun m hm => by simp [hm]
  have hpassed : Guardable (failed :: done :: outer) (n + 2) mid T
      (.jump .jzero failed :: first ++ [.jump .goto done]) U :=
    .append (.jump List.mem_cons_self (hfirst.mono hout)) (.jump (by simp) (.nil _ _ _))
  have hbody := ((hpassed.close hf).append
    (hsecond.mono fun m hm => List.mem_cons_of_mem done hm)).close hd
  have hcode : test ++ .jump .jzero failed :: first ++ .jump .goto done ::
      .label failed :: second ++ [.label done] =
      test ++ (.jump .jzero failed :: first ++ [.jump .goto done] ++ [.label failed] ++ second ++
        [.label done]) := by simp
  rw [hcode]
  exact htest.append hbody

theorem loop (hs : start.number = n) (hd : done.number = n + 1)
    (htest : Guardable outer (n + 2) mid S test T)
    (hinner : Guardable (start :: done :: outer) mid hi T inner U) :
    Guardable outer n hi S (.label start :: test ++ .jump .jzero done :: inner ++
      [.jump .goto start, .label done]) S := by
  have htest := htest.mono (fun m hm => (by simp [hm] : m ∈ done :: start :: outer))
  have hinner := hinner.mono (fun m hm => (by simp at hm ⊢; tauto : m ∈ done :: start :: outer))
  have hturn : Guardable (done :: start :: outer) (n + 2) hi S
      (test ++ .jump .jzero done :: inner ++ [.jump .goto start]) U :=
    .append (.append htest (.jump List.mem_cons_self hinner)) (.jump (by simp) (.nil _ _ _))
  have hcode : .label start :: test ++ .jump .jzero done :: inner ++
      [.jump .goto start, .label done] =
      .label start :: (test ++ .jump .jzero done :: inner ++ [.jump .goto start] ++
        [.label done]) := by simp
  rw [hcode]
  exact .label hs (hturn.close hd)

end Bodies

end Guardable

end RegisterMachine.Structured
