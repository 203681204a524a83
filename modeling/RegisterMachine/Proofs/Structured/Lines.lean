import RegisterMachine.Proofs.Structured.Holding
import RegisterMachine.Assembly.Program.Parser

/-! # The lines of emitted code

Every line that is emitted can be assembled: operands suit their opcodes and name registers that
were counted, and jumps lead to labels that are placed, each of them once. The numbers of the labels
that a part of a tree places lie between the numbers of the next label before it and behind it.

* `Line.Valid`: a line that can be assembled.
* `Placed`: code with its labels, with `Placed.append` and `Placed.label` to put it together.
* `Emits.placed`: all code that is emitted. -/

namespace RegisterMachine.Structured

open RegisterMachine.Assembly

/-- The mark of a label. -/
def Line.mark? : Line → Option Mark
  | label mark => some mark
  | _ => none

/-- The marks of the labels in code. -/
def Code.marks (code : Code) : List Mark := code.filterMap Line.mark?

/-- The line can be assembled, with these labels and registers. -/
def Line.Valid (marks : List Mark) (highest : Nat) : Line → Prop
  | comment _ | label _ => True
  | operate opcode operand => opcode ≠ .halt ∧ opcode.accepts (.operand operand {}) = true ∧
      ∀ r, operand.register? = some r → r ≤ highest
  | jump opcode target => opcode.isJump = true ∧ target ∈ marks
  | halt => False

theorem Line.Valid.mono {marks marks' : List Mark} {highest highest' : Nat} {line : Line}
    (h : line.Valid marks highest) (hm : ∀ m ∈ marks, m ∈ marks') (hle : highest ≤ highest') :
    line.Valid marks' highest' := by
  cases line with
  | comment | label => trivial
  | operate opcode operand => exact ⟨h.1, h.2.1, fun r hr => Nat.le_trans (h.2.2 r hr) hle⟩
  | jump opcode target => exact ⟨h.1, hm _ h.2⟩
  | halt => exact h

section Valid

variable {marks : List Mark} {highest : Nat} {op : Opcode} {o : Operand}

theorem Line.valid_label (m : Mark) : (Line.label m).Valid marks highest := trivial

theorem Line.valid_jump_iff {m : Mark} :
    (Line.jump op m).Valid marks highest ↔ op.isJump = true ∧ m ∈ marks := Iff.rfl

/-- An opcode that computes takes every operand. -/
theorem Line.valid_operate_iff (hjump : op.isJump = false) (hstore : op ≠ .store)
    (hhalt : op ≠ .halt) :
    (Line.operate op o).Valid marks highest ↔ ∀ r, o.register? = some r → r ≤ highest := by
  have haccepts : op.accepts (.operand o {}) = true := by
    cases o <;> simp [Opcode.accepts, hjump, hstore]
  simp only [Valid, haccepts, hhalt, ne_eq, not_false_eq_true, true_and]

theorem Line.valid_load_iff :
    (Code.load o).Valid marks highest ↔ ∀ r, o.register? = some r → r ≤ highest :=
  valid_operate_iff rfl (by decide) (by decide)

theorem Line.valid_sub_iff :
    (Line.operate .sub o).Valid marks highest ↔ ∀ r, o.register? = some r → r ≤ highest :=
  valid_operate_iff rfl (by decide) (by decide)

theorem register?_immediate (value : UInt32) : (Operand.immediate value).register? = none := rfl

theorem Line.valid_number {value : UInt32} :
    (Code.load (.immediate value)).Valid marks highest :=
  valid_load_iff.mpr fun _ h => nomatch h

/-- Adding a number. -/
theorem Line.valid_add (value : UInt32) :
    (Line.operate .add (.immediate value)).Valid marks highest :=
  (valid_operate_iff rfl (by decide) (by decide)).mpr fun _ h => nomatch h

theorem Line.valid_store {r : Nat} (h : r ≤ highest) : (Code.store r).Valid marks highest :=
  ⟨by decide, rfl, fun _ hx => Option.some.inj hx ▸ h⟩

end Valid

/-- The marks that a surrounding construct has placed or will place. -/
def Surroundings.marks (a : Surroundings) : List Mark :=
  a.exit.toList ++ a.loop.toList.flatMap fun (start, done) => [start, done]

/-- **Code whose labels have the numbers from `lo` up to `hi`**, each of them once. Its jumps lead
to its labels or to those of `outer`. -/
structure Placed (outer : List Mark) (highest lo hi : Nat) (code : Code) : Prop where
  le : lo ≤ hi
  range : ∀ m ∈ code.marks, lo ≤ m.number ∧ m.number < hi
  nodup : (code.marks.map Mark.number).Nodup
  lines : ∀ line ∈ code, line.Valid (code.marks ++ outer) highest

namespace Placed

variable {outer outer' : List Mark} {highest highest' lo mid hi n : Nat} {code code' : Code}
  {line : Line} {m : Mark}

theorem nil (outer : List Mark) (highest lo : Nat) : Placed outer highest lo lo [] :=
  ⟨Nat.le_refl lo, fun _ h => (nomatch h), List.nodup_nil, fun _ h => (nomatch h)⟩

theorem mono (h : Placed outer highest lo hi code) (hm : ∀ m ∈ outer, m ∈ outer')
    (hle : highest ≤ highest') : Placed outer' highest' lo hi code := by
  refine ⟨h.le, h.range, h.nodup, fun line hline => (h.lines line hline).mono ?_ hle⟩
  intro m hmem
  rcases List.mem_append.mp hmem with hmem | hmem
  · exact List.mem_append_left _ hmem
  · exact List.mem_append_right _ (hm m hmem)

theorem raise (h : Placed outer highest lo hi code) (hle : highest ≤ highest') :
    Placed outer highest' lo hi code :=
  h.mono (fun _ hm => hm) hle

theorem append (h : Placed outer highest lo mid code) (h' : Placed outer highest mid hi code') :
    Placed outer highest lo hi (code ++ code') := by
  have hmarks : Code.marks (code ++ code') = code.marks ++ code'.marks := List.filterMap_append
  refine ⟨Nat.le_trans h.le h'.le, ?_, ?_, ?_⟩
  · intro m hm
    rw [hmarks, List.mem_append] at hm
    have hle := h.le
    have hle' := h'.le
    rcases hm with hm | hm
    · have := h.range m hm
      omega
    · have := h'.range m hm
      omega
  · rw [hmarks, List.map_append, List.nodup_append]
    refine ⟨h.nodup, h'.nodup, fun a ha b hb hab => ?_⟩
    obtain ⟨m, hm, rfl⟩ := List.mem_map.mp ha
    obtain ⟨m', hm', rfl⟩ := List.mem_map.mp hb
    have := h.range m hm
    have := h'.range m' hm'
    omega
  · intro line hline
    rw [hmarks]
    rcases List.mem_append.mp hline with hline | hline
    · refine (h.lines line hline).mono (fun m hm => ?_) (Nat.le_refl _)
      simp only [List.mem_append] at hm ⊢
      exact hm.elim (fun hm => .inl (.inl hm)) .inr
    · refine (h'.lines line hline).mono (fun m hm => ?_) (Nat.le_refl _)
      simp only [List.mem_append] at hm ⊢
      exact hm.elim (fun hm => .inl (.inr hm)) .inr

/-- Code without labels. -/
theorem plain (n : Nat) (hmark : ∀ line ∈ code, line.mark? = none)
    (hvalid : ∀ line ∈ code, line.Valid outer highest) : Placed outer highest n n code := by
  have hmarks : code.marks = [] := List.filterMap_eq_nil_iff.mpr hmark
  refine ⟨Nat.le_refl n, by simp [hmarks], by simp [hmarks], fun line hline => ?_⟩
  rw [hmarks]
  exact hvalid line hline

theorem single (n : Nat) (hmark : line.mark? = none) (hvalid : line.Valid outer highest) :
    Placed outer highest n n [line] :=
  plain n (by simpa using hmark) (by simpa using hvalid)

theorem cons (hmark : line.mark? = none) (hvalid : line.Valid outer highest)
    (h : Placed outer highest lo hi code) : Placed outer highest lo hi (line :: code) :=
  (single lo hmark hvalid).append h

/-- A label that was given the next number is placed between two pieces of code that may jump
to it. -/
theorem label (hm : m.number = n) (h : Placed (m :: outer) highest (n + 1) mid code)
    (h' : Placed (m :: outer) highest mid hi code') :
    Placed outer highest n hi (code ++ .label m :: code') := by
  obtain ⟨le, range, nodup, lines⟩ := h.append h'
  have hmarks : (Code.marks (code ++ .label m :: code')).Perm
      (m :: Code.marks (code ++ code')) := by
    simp only [Code.marks, List.filterMap_append, List.filterMap_cons, Line.mark?]
    exact List.perm_middle
  refine ⟨by omega, ?_, ?_, ?_⟩
  · intro x hx
    rcases List.mem_cons.mp (hmarks.mem_iff.mp hx) with rfl | hx
    · omega
    · have := range x hx
      omega
  · rw [(hmarks.map Mark.number).nodup_iff, List.map_cons, List.nodup_cons]
    refine ⟨fun hmem => ?_, nodup⟩
    obtain ⟨x, hx, hxm⟩ := List.mem_map.mp hmem
    have := range x hx
    omega
  · intro line hline
    have hmem : line = .label m ∨ line ∈ code ++ code' := by
      simp only [List.mem_append, List.mem_cons] at hline ⊢
      rcases hline with hline | hline | hline
      · exact .inr (.inl hline)
      · exact .inl hline
      · exact .inr (.inr hline)
    rcases hmem with rfl | hmem
    · trivial
    · refine (lines line hmem).mono (fun x hx => ?_) (Nat.le_refl _)
      simp only [List.mem_append, List.mem_cons, hmarks.mem_iff] at hx ⊢
      tauto

/-- A label at the end of the code that may jump to it. -/
theorem close (hm : m.number = n) (h : Placed (m :: outer) highest (n + 1) hi code) :
    Placed outer highest n hi (code ++ [.label m]) :=
  label hm h (nil _ _ _)

/-! ### The code of statements with bodies -/

section Bodies

variable {test first second inner : Code} {start done failed : Mark}

theorem branch (hd : done.number = n) (htest : Placed outer highest lo n test)
    (hfirst : Placed outer highest (n + 1) hi first) :
    Placed outer highest lo hi (test ++ .jump .jzero done :: first ++ [.label done]) := by
  have hbody : Placed (done :: outer) highest (n + 1) hi (.jump .jzero done :: first) :=
    .cons rfl ⟨rfl, by simp⟩ (hfirst.mono (fun _ h => List.mem_cons_of_mem _ h) (Nat.le_refl _))
  rw [List.append_assoc]
  exact htest.append (hbody.close hd)

theorem branchElse (hd : done.number = n) (hf : failed.number = n + 1)
    (htest : Placed outer highest lo n test) (hfirst : Placed outer highest (n + 2) mid first)
    (hsecond : Placed outer highest mid hi second) :
    Placed outer highest lo hi (test ++ .jump .jzero failed :: first ++ .jump .goto done ::
      .label failed :: second ++ [.label done]) := by
  have hout : ∀ m ∈ outer, m ∈ failed :: done :: outer := fun m hm => by simp [hm]
  have hpassed : Placed (failed :: done :: outer) highest (n + 2) mid
      (.jump .jzero failed :: first ++ [.jump .goto done]) :=
    .append (.cons rfl ⟨rfl, by simp⟩ (hfirst.mono hout (Nat.le_refl _)))
      (.single _ rfl ⟨rfl, by simp⟩)
  have hbody := (label hf hpassed (hsecond.mono hout (Nat.le_refl _))).close hd
  have hcode : test ++ .jump .jzero failed :: first ++ .jump .goto done ::
      .label failed :: second ++ [.label done] =
      test ++ (.jump .jzero failed :: first ++ [.jump .goto done] ++ .label failed :: second ++
        [.label done]) := by simp
  rw [hcode]
  exact htest.append hbody

theorem loop (hs : start.number = n) (hd : done.number = n + 1)
    (htest : Placed outer highest (n + 2) mid test)
    (hinner : Placed (start :: done :: outer) highest mid hi inner) :
    Placed outer highest n hi (.label start :: test ++ .jump .jzero done :: inner ++
      [.jump .goto start, .label done]) := by
  have htest := htest.mono (fun m hm => (by simp [hm] : m ∈ done :: start :: outer)) (Nat.le_refl _)
  have hinner := hinner.mono
    (fun m hm => (by simp at hm ⊢; tauto : m ∈ done :: start :: outer)) (Nat.le_refl _)
  have hturn : Placed (done :: start :: outer) highest (n + 2) hi
      (test ++ .jump .jzero done :: inner ++ [.jump .goto start]) :=
    .append (.append htest (.cons rfl ⟨rfl, by simp⟩ hinner)) (.single _ rfl ⟨rfl, by simp⟩)
  have hcode : .label start :: test ++ .jump .jzero done :: inner ++
      [.jump .goto start, .label done] =
      [] ++ .label start :: (test ++ .jump .jzero done :: inner ++ [.jump .goto start] ++
        [.label done]) := by simp
  rw [hcode]
  exact label hs (nil _ _ _) (hturn.close hd)

end Bodies

end Placed

/-! ### The code of the operators -/

section Operations

variable {outer : List Mark} {highest : Nat} {left right : Operand}

/-- Code with labels of its own, whose numbers are the next so many. -/
theorem Placed.of_numbers {n count : Nat} {code : Code}
    (hnumbers : (code.marks.map Mark.number).Perm (List.range' n count))
    (hlines : ∀ line ∈ code, line.Valid (code.marks ++ outer) highest) :
    Placed outer highest n (n + count) code := by
  refine ⟨by omega, fun m hm => ?_, hnumbers.nodup_iff.mpr List.nodup_range', hlines⟩
  have hmem := hnumbers.mem_iff.mp (List.mem_map.mpr ⟨m, hm, rfl⟩)
  simpa [List.mem_range'_1] using hmem

theorem placed_greaterThan (n : Nat) (hr : ∀ r, right.register? = some r → r ≤ highest) :
    Placed outer highest n (n + 1) (Operation.greaterThan right n).1 := by
  refine .of_numbers (List.Perm.refl [n]) ?_
  simpa [Operation.greaterThan, Code.marks, Line.mark?, Line.valid_sub_iff, Line.valid_label,
    Line.valid_jump_iff, Line.valid_load_iff, register?_immediate, Opcode.isJump] using hr

theorem placed_equal (n : Nat) (hl : ∀ r, left.register? = some r → r ≤ highest)
    (hr : ∀ r, right.register? = some r → r ≤ highest) :
    Placed outer highest n (n + 2) (Operation.equal left right n).1 := by
  refine .of_numbers (List.Perm.refl [n, n + 1]) ?_
  simpa [Operation.equal, Code.marks, Line.mark?, Line.valid_sub_iff, Line.valid_label,
    Line.valid_jump_iff, Line.valid_load_iff, register?_immediate, Opcode.isJump]
    using And.intro hr hl

theorem placed_lessThan (n : Nat) (hl : ∀ r, left.register? = some r → r ≤ highest)
    (hr : ∀ r, right.register? = some r → r ≤ highest) :
    Placed outer highest n (n + 4) (Operation.lessThan left right n).1 := by
  have hswap : ([n + 2, n + 3] ++ [n, n + 1]).Perm (List.range' n 4) := List.perm_append_comm
  refine .of_numbers hswap ?_
  simpa [Operation.lessThan, Operation.equal, Code.marks, Line.mark?, Line.valid_sub_iff,
    Line.valid_label, Line.valid_jump_iff, Line.valid_load_iff, register?_immediate, Opcode.isJump]
    using And.intro hr (And.intro hl (And.intro hr hl))

theorem placed_negation (n : Nat) :
    Placed outer highest n (n + 2) (Operation.negation n).1 := by
  refine .of_numbers (List.Perm.refl [n, n + 1]) ?_
  simp [Operation.negation, Code.marks, Line.mark?, Line.valid_label, Line.valid_jump_iff,
    Line.valid_load_iff, register?_immediate, Opcode.isJump]

/-- The code of every operator. -/
theorem placed_operation {op : Operator} {n n' : Nat} {code : Code}
    (h : Operation.code op left right n = (code, n'))
    (hl : ∀ r, left.register? = some r → r ≤ highest)
    (hr : ∀ r, right.register? = some r → r ≤ highest) : Placed outer highest n n' code := by
  cases op <;> cases h
  case equal => exact placed_equal n hl hr
  case notEqual => exact (placed_equal n hl hr).append (placed_negation (n + 2))
  case greaterThan => exact placed_greaterThan n hr
  case lessThan => exact placed_lessThan n hl hr
  case greaterThanOrEqual => exact (placed_lessThan n hl hr).append (placed_negation (n + 4))
  case lessThanOrEqual => exact (placed_greaterThan n hr).append (placed_negation (n + 1))
  all_goals exact .single n rfl ((Line.valid_operate_iff rfl (by decide) (by decide)).mpr hr)

end Operations

/-! ### All emitted code -/

section Registers

variable {R R' : Registers} {r : Nat}

theorem Registers.Sound.le_highest (h : R.Sound) {slot : Slot}
    (hs : R.reserved.lookup slot = some r) : r ≤ R.highest :=
  h.counted r (mem_held_of_lookup hs)

theorem le_highest_of_getOrReserve {name : String} {scope : ScopeId} (hs : R.Sound)
    (h : R.getOrReserve name scope = (r, R')) : r ≤ R'.highest :=
  ((Registers.leads_getOrReserve (fun _ => False) h).sound hs).le_highest
    (Registers.get?_getOrReserve h)

theorem le_highest_of_temporary (h : R.temporary = (r, R')) : r ≤ R'.highest := by
  cases h
  exact Nat.le_max_right _ _

theorem highest_freeAll (rs : List Nat) (R : Registers) :
    (rs.foldl Registers.freeTemporary R).highest = R.highest := by
  induction rs generalizing R with
  | nil => rfl
  | cons r rs ih => exact ih (R.freeTemporary r)

theorem Simple.le_highest {e : Expression} {o : Operand} (hs : R.Sound) (h : Simple R e o R') :
    ∀ r, o.register? = some r → r ≤ R'.highest := by
  intro r hr
  cases h with
  | number => cases hr
  | name register =>
    cases hr
    exact le_highest_of_getOrReserve hs register

theorem Moves.placed {outer : List Mark} {scope : ScopeId} {pairs : List (String × Nat)}
    {code : Code} {n : Nat} (h : Moves scope pairs R code R') (hs : R.Sound)
    (hpairs : ∀ pair ∈ pairs, pair.2 ≤ R.highest) : Placed outer R'.highest n n code := by
  induction h with
  | nil => exact .nil _ _ _
  | @cons name staged r rest R R₁ R' code register others ih =>
    have hlead := Registers.leads_getOrReserve (fun _ => False) register
    have hle := (others.leads fun _ => False).highest
    have hstaged := hpairs _ List.mem_cons_self
    have hrest := ih (hlead.sound hs) fun pair hpair =>
      Nat.le_trans (hpairs pair (List.mem_cons_of_mem _ hpair)) hlead.highest
    refine .cons rfl (Line.valid_load_iff.mpr ?_) (.cons rfl (Line.valid_store ?_) hrest)
    · rintro x hx
      cases hx
      exact Nat.le_trans (Nat.le_trans hstaged hlead.highest) hle
    · exact Nat.le_trans (le_highest_of_getOrReserve hs register) hle

end Registers

/-! ### Values that are stored on the way -/

section Stored

variable {outer : List Mark} {highest lo mid hi n n' r : Nat} {R R' : Registers}
  {first second code rest : Code} {op : Operator}

/-- A value is stored in a temporary, and the code goes on. -/
theorem Placed.spill (h : Placed outer R.highest lo mid first) (temporary : R.temporary = (r, R'))
    (hle : R'.highest ≤ highest) (hrest : Placed outer highest mid hi rest) :
    Placed outer highest lo hi (first ++ Code.store r :: rest) := by
  have hlead := (Registers.leads_temporary (fun _ => False) temporary).highest
  have hr := Nat.le_trans (le_highest_of_temporary temporary) hle
  exact (h.raise (Nat.le_trans hlead hle)).append (.cons rfl (Line.valid_store hr) hrest)

/-- A value is stored in the register of a name, and the code goes on. -/
theorem Placed.keep {name : String} {scope : ScopeId} (hs : R.Sound)
    (h : Placed outer R.highest lo mid first) (register : R.getOrReserve name scope = (r, R'))
    (hle : R'.highest ≤ highest) (hrest : Placed outer highest mid hi rest) :
    Placed outer highest lo hi (first ++ Code.store r :: rest) := by
  have hlead := (Registers.leads_getOrReserve (fun _ => False) register).highest
  have hr := Nat.le_trans (le_highest_of_getOrReserve hs register) hle
  exact (h.raise (Nat.le_trans hlead hle)).append (.cons rfl (Line.valid_store hr) hrest)

/-- The address of an element is stored in a temporary, and the code goes on. -/
theorem Placed.address {value : UInt32} (h : Placed outer R.highest lo mid first)
    (temporary : R.temporary = (r, R')) (hle : R'.highest ≤ highest)
    (hrest : Placed outer highest mid hi rest) :
    Placed outer highest lo hi
      (first ++ [.operate .add (.immediate value), Code.store r] ++ rest) := by
  have haddress := h.append (.single mid rfl (Line.valid_add value))
  simpa using haddress.spill temporary hle hrest

/-- An operation whose left operand was spilled. -/
theorem Placed.spilled {right : Operand} (h : Placed outer R.highest lo n first)
    (temporary : R.temporary = (r, R')) (hr : ∀ x, right.register? = some x → x ≤ R.highest)
    (operation : Operation.code op (.register r) right n = (code, n')) :
    Placed outer R'.highest lo n' (first ++ Code.store r :: code) := by
  have hlead := (Registers.leads_temporary (fun _ => False) temporary).highest
  refine h.spill temporary (Nat.le_refl _) (placed_operation operation ?_ ?_)
  · exact fun x hx => Option.some.inj hx ▸ le_highest_of_temporary temporary
  · exact fun x hx => Nat.le_trans (hr x hx) hlead

/-- An operation on two values that were stored. -/
theorem Placed.binary {R₂ R₃ : Registers} {l : Nat} (hfirst : Placed outer R.highest lo mid first)
    (leftTemporary : R.temporary = (l, R₂)) (hle : R₂.highest ≤ R₃.highest)
    (hsecond : Placed outer R₃.highest mid n second) (rightTemporary : R₃.temporary = (r, R'))
    (operation : Operation.code op (.register l) (.register r) n = (code, n')) :
    Placed outer R'.highest lo n' (first ++ Code.store l :: second ++
      Code.store r :: Code.load (.register l) :: code) := by
  have hlead := (Registers.leads_temporary (fun _ => False) rightTemporary).highest
  have hl := Nat.le_trans (Nat.le_trans (le_highest_of_temporary leftTemporary) hle) hlead
  have hr := le_highest_of_temporary rightTemporary
  have hoperands := hfirst.spill leftTemporary hle hsecond
  refine hoperands.spill rightTemporary (Nat.le_refl _) (.cons rfl (Line.valid_load_iff.mpr ?_) ?_)
  · exact fun x hx => Option.some.inj hx ▸ hl
  · exact placed_operation operation (fun x hx => Option.some.inj hx ▸ hl)
      (fun x hx => Option.some.inj hx ▸ hr)

/-- The registers of an array are cleared. -/
theorem placed_array {name : String} {scope : ScopeId} {size base : Nat}
    (registers : R.reserveArray? name scope size = some (base, R')) :
    Placed outer R'.highest n n (Code.load (.immediate 0) ::
      (List.range size).map fun offset => Code.store (base + offset)) := by
  obtain ⟨-, hsize, rfl⟩ := Registers.reserveArray_some registers
  refine .cons rfl Line.valid_number (.plain _ (fun line hline => ?_) fun line hline => ?_)
  all_goals obtain ⟨offset, hoffset, rfl⟩ := List.mem_map.mp hline
  · rfl
  · have hlt := List.mem_range.mp hoffset
    refine Line.valid_store ?_
    show _ ≤ max _ _
    omega

/-- Jumps to labels of the surroundings. -/
theorem placed_jumps {α : Type} (l : List α) (mark : α → Mark) (h : ∀ x ∈ l, mark x ∈ outer) :
    Placed outer highest n n (l.map fun x => .jump .goto (mark x)) := by
  refine .plain _ (fun line hline => ?_) fun line hline => ?_
  all_goals obtain ⟨x, hx, rfl⟩ := List.mem_map.mp hline
  · rfl
  · exact ⟨rfl, h x hx⟩

end Stored

/-- The temporaries of staged arguments are counted. -/
theorem Emits.staged_le {t : Tree} {d : Nat} {a : Surroundings} {es : List Expression}
    {temporaries : List Nat} {R R' : Registers} {n n' : Nat} {code : Code}
    (h : Emits t d a (.staged es temporaries) R n code R' n') (hs : R.Sound) :
    ∀ r ∈ temporaries, r ≤ R'.highest := by
  intro r hr
  refine (h.leads.sound hs).counted r (Registers.mem_held_of_temporary ?_)
  rw [h.leads.temporaries]
  exact List.mem_append_left _ (List.mem_reverse.mpr hr)

/-- **Everything that is emitted can be assembled.** -/
theorem Emits.placed {t : Tree} {d : Nat} {a : Surroundings} {task : Task} {R R' : Registers}
    {n n' : Nat} {code : Code} (h : Emits t d a task R n code R' n') (hs : R.Sound) :
    Placed a.marks R'.highest n n' code := by
  induction h with
  | number => exact .single _ rfl (Line.valid_load_iff.mpr fun _ h => nomatch h)
  | name register =>
    refine .single _ rfl (Line.valid_load_iff.mpr fun r hr => ?_)
    cases hr
    exact le_highest_of_getOrReserve hs register
  | element span array address temporary ih =>
    have hr := le_highest_of_temporary temporary
    show Placed _ _ _ _ (_ ++ ([_, _] ++ [_]))
    rw [← List.append_assoc]
    refine (ih hs).address temporary (Nat.le_refl _) (.single _ rfl (Line.valid_load_iff.mpr ?_))
    exact fun x hx => Option.some.inj hx ▸ hr
  | simple span second first operation =>
    have hfirst := first.leads fun _ => False
    have hl := first.le_highest (((second.leads fun _ => False)).sound hs)
    have hr := fun x hx => Nat.le_trans (second.le_highest hs x hx) hfirst.highest
    exact .cons rfl (Line.valid_load_iff.mpr hl) (placed_operation operation hl hr)
  | spilled span second leftCode temporary operation ih =>
    have hr := fun x hx => Nat.le_trans (second.le_highest hs x hx) leftCode.leads.highest
    have hplaced := (ih ((second.leads fun _ => False).sound hs)).spilled temporary hr operation
    exact hplaced
  | binary span leftCode leftTemporary rightCode rightTemporary operation ihl ihr =>
    have hlead := Registers.leads_temporary (fun _ => False) leftTemporary
    have hs₂ := hlead.sound (leftCode.leads.sound hs)
    have hplaced := (ihl hs).binary leftTemporary rightCode.leads.highest (ihr hs₂) rightTemporary
      operation
    exact hplaced
  | @call _ _ _ _ _ _ R₂ _ _ _ parameters _ _ _ _ _ _ _ span fresh function arguments inlined
      iha ihb =>
    have hs₁ := arguments.leads.sound hs
    have hrelease := (leads_releaseParameters (t.declaredNames parameters) parameters R₂).highest
    have hpassing := (iha hs).raise inlined.leads.highest
    refine Placed.raise ?_ hrelease
    rw [List.append_assoc]
    refine hpassing.append (.close rfl (.cons rfl trivial ((ihb hs₁).mono ?_ (Nat.le_refl _))))
    exact fun m hm => List.mem_cons.mpr (.inl (List.mem_singleton.mp hm))
  | direct plain passing ih => exact ih hs
  | staging calls staged moved ih =>
    rw [highest_freeAll]
    refine ((ih hs).raise (moved.leads fun _ => False).highest).append
      (moved.placed (staged.leads.sound hs) fun pair hpair => ?_)
    exact staged.staged_le hs _ (List.of_mem_zip hpair).2
  | stagedNil | passingNil | nil => exact .nil _ _ _
  | stagedCons argument temporary rest iha ihr =>
    have hlead := Registers.leads_temporary (fun _ => False) temporary
    exact (iha hs).spill temporary rest.leads.highest (ihr (hlead.sound (argument.leads.sound hs)))
  | passingCons plain argument register rest iha ihr =>
    have hs₁ := argument.leads.sound hs
    have hlead := Registers.leads_getOrReserve (fun _ => False) register
    exact (iha hs).keep hs₁ register rest.leads.highest (ihr (hlead.sound hs₁))
  | array place span registers => exact placed_array registers
  | assign initial span value register ih =>
    exact (ih hs).keep (value.leads.sound hs) register (Nat.le_refl _) (.nil _ _ _)
  | assignElement initial place span array address temporary value iha ihv =>
    have hlead := Registers.leads_temporary (fun _ => False) temporary
    have hs₂ := hlead.sound (address.leads.sound hs)
    have hr := Nat.le_trans (le_highest_of_temporary temporary) value.leads.highest
    refine Placed.append ((iha hs).address temporary value.leads.highest (ihv hs₂))
      (.single _ rfl ⟨by decide, rfl, ?_⟩)
    exact fun x hx => Option.some.inj hx ▸ hr
  | branch span tested inner iht ihi =>
    exact .branch rfl ((iht hs).raise inner.leads.highest) (ihi (tested.leads.sound hs))
  | branchElse span tested inner otherwise iht ihi iho =>
    have hs₁ := tested.leads.sound hs
    have hle := otherwise.leads.highest
    exact .branchElse rfl rfl ((iht hs).raise (Nat.le_trans inner.leads.highest hle))
      ((ihi hs₁).raise hle) (iho (inner.leads.sound hs₁))
  | loop span tested inner iht ihi =>
    refine .loop rfl rfl ((iht hs).raise inner.leads.highest)
      ((ihi (tested.leads.sound hs)).mono ?_ (Nat.le_refl _))
    intro m hm
    simp only [Surroundings.marks, Option.toList_some, List.flatMap_cons, List.flatMap_nil,
      List.append_nil, List.mem_append, List.mem_cons] at hm ⊢
    tauto
  | block inner ih => exact ih hs
  | leave | again =>
    refine placed_jumps _ _ fun x hx => List.mem_append_right _ (List.mem_flatMap.mpr ⟨x, hx, ?_⟩)
    simp
  | give span value ih =>
    exact (ih hs).append (placed_jumps _ _ fun exit hexit => List.mem_append_left _ hexit)
  | evaluate value ih => exact ih hs
  | silent silent others ih => exact ih hs
  | cons first others ihf iho =>
    exact .cons rfl trivial
      (((ihf hs).raise others.leads.highest).append (iho (first.leads.sound hs)))
  | scope inner ih => exact (ih hs).raise (leads_releaseScope t _ _).highest

end RegisterMachine.Structured
