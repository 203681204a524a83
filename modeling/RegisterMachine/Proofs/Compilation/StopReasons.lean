import RegisterMachine.Proofs.Compilation.Placement
import RegisterMachine.Proofs.Compilation.RoundTrip
import RegisterMachine.Proofs.Machine.StaticChecks

/-! # How compiled programs stop

`END` is the last instruction of a compiled program, and no label stands behind it, so the counter
never leaves the program while the machine runs. A register outside the bank is reached through a
pointer only, and pointers come from the elements of arrays.

* `Closed`: a program that cannot be left, with `counter_lt_step`.
* `Settled`: what is promised of a machine that runs a compiled program.
* `built_settled`: every run of every compiled program. -/

namespace RegisterMachine.Machine

open RegisterMachine.Assembly

/-- **A program that cannot be left**: its last instruction halts, and its labels lie before that.
-/
structure Closed (p : Program) : Prop where
  last : ∀ i, p.instructions[p.instructions.size - 1]? = some i → i.opcode = .halt
  nonempty : 0 < p.instructions.size
  labels : ∀ i ∈ p.instructions, ∀ name label place,
    i.argument = some (.reference name (some label) place) → label.address < p.instructions.size

section Effect

variable {bank : Bank} {address target : Nat} {i : Instruction} {reason : StopReason}

theorem effect_halt (h : i.opcode = .halt) : effect bank address i = .halt .halted := by
  rw [effect, h]

/-- A jump leads to the label of its argument. -/
theorem label_of_jump (h : effect bank address i = .jump target) :
    ∃ name label place, i.argument = some (.reference name (some label) place) ∧
      target = label.address := by
  have hjump : jumpEffect address i.argument = .jump target →
      ∃ name label place, i.argument = some (.reference name (some label) place) ∧
        target = label.address := by
    intro h
    unfold jumpEffect at h
    split at h
    · rename_i name label place ha
      cases h
      exact ⟨name, label, place, ha, rfl⟩
    · cases h
    · cases h
  have hcompute : ∀ (op : Opcode) (o : Operand), computeEffect bank op o ≠ .jump target := by
    intro op o
    unfold computeEffect
    split <;> [skip; split] <;> simp
  have hstore : ∀ (missing : Fault) (o : Operand), storeEffect bank missing o ≠ .jump target := by
    intro missing o
    unfold storeEffect
    split <;> [skip; split] <;> simp
  unfold effect at h
  split at h
  · cases h
  -- the three opcodes that jump
  iterate 3
    split at h
    · exact hjump h
    · cases h
  · split at h
    · exact absurd h (hstore _ _)
    · cases h
  all_goals
    split at h
    · exact absurd h (hcompute _ _)
    · cases h

end Effect

section Closed

variable {p : Program} {size : Nat} {m : Interpreter}

/-- **A running machine stays in the program.** -/
theorem counter_lt_step (hp : Closed p) (h : Follows p size m)
    (hlt : m.state ≠ .stopped → m.counter < p.instructions.size)
    (hrun : m.step.1.state ≠ .stopped) : m.step.1.counter < p.instructions.size := by
  obtain ⟨i, hs, hi, hstep⟩ := Interpreter.running_step_cases hrun
  have hcounter := hlt hs
  obtain ⟨hmem, -⟩ := h.current hi
  -- the counter goes on from an instruction that is not the last one
  have hnext : ∀ effect', effect m.bank m.counter i = effect' → effect' ≠ .halt .halted →
      m.counter + 1 < p.instructions.size := by
    intro effect' he hne
    by_contra hend
    have hlast : m.counter = p.instructions.size - 1 := by omega
    rw [Interpreter.current?, h.memory, hlast] at hi
    exact hne (he ▸ effect_halt (hp.last i hi))
  obtain ⟨he, hstep⟩ | ⟨register, value, he, hstep⟩ | ⟨address, he, hstep⟩ := hstep
  · rw [hstep]
    exact hnext _ he (by simp)
  · rw [hstep]
    exact hnext _ he (by simp)
  · rw [hstep]
    obtain ⟨name, label, place, ha, rfl⟩ := label_of_jump he
    exact hp.labels i hmem name label place ha

/-- **The invariant of a run that stays in the program**: what a checked program fulfils, and no
instruction is missing. -/
structure Stays (p : Program) (size : Nat) (m : Interpreter) : Prop extends Follows p size m where
  inside : m.state ≠ .stopped → m.counter < p.instructions.size
  found : m.lastStop ≠ some .endOfProgram

theorem Stays.reason (h : Stays p size m) :
    ∀ reason, m.lastStop = some reason → reason = .halted ∨ reason = .divisionByZero ∨
      ∃ register, reason = .fault (.registerOutOfRange register) := by
  intro reason hr
  rcases h.stop reason hr with rfl | hreason
  · exact absurd hr h.found
  · exact hreason

theorem stays_step {tokens : List Token} {bound : Nat} (hp : Closed p)
    (hchecked : p.Checked tokens bound) (hsize : bound ≤ size) (h : Stays p size m) :
    Stays p size m.step.1 := by
  refine ⟨follows_step hchecked hsize h.toFollows, ?_, ?_⟩
  · exact counter_lt_step hp h.toFollows h.inside
  · intro hend
    obtain ⟨-, hstep⟩ | ⟨hs, hi, hstep⟩ | ⟨i, hs, hi, hstep⟩ := m.step_cases
    · rw [hstep] at hend
      exact h.found hend
    · have hlt := h.inside hs
      rw [Interpreter.current?, h.memory, Array.getElem?_eq_getElem hlt] at hi
      cases hi
    · obtain ⟨-, hstep⟩ | ⟨_, _, -, hstep⟩ | ⟨_, -, hstep⟩ | ⟨reason, he, hstep⟩ := hstep
      · rw [hstep] at hend
        exact h.found hend
      · rw [hstep] at hend
        exact h.found hend
      · rw [hstep] at hend
        exact h.found hend
      · rw [hstep] at hend
        cases hend
        obtain ⟨hmem, -⟩ := h.current hi
        have hcases := effect_of_checked (hchecked.instructions i hmem) (h.size ▸ hsize) m.counter
        rw [he] at hcases
        obtain hn | ⟨_, _, hn⟩ | ⟨_, _, _, -, hn⟩ | ⟨_, hn, hhalts⟩ := hcases
        · cases hn
        · cases hn
        · cases hn
        · cases hn
          cases hhalts

theorem stays_load {n : Nat} {fresh : Interpreter} (hp : Closed p)
    (h : fresh.load p n = .ok m) : Stays p (n + 1) m := by
  refine ⟨follows_load h, ?_, ?_⟩
  · obtain ⟨_, -, rfl⟩ := Success.map_ok h
    exact fun _ => hp.nonempty
  · obtain ⟨_, -, rfl⟩ := Success.map_ok h
    exact fun h => nomatch h

end Closed

end RegisterMachine.Machine

namespace RegisterMachine

open Structured Assembly Machine Success

/-- **Compiled programs cannot be left.** -/
theorem closed_of_assembled {body : Code} {p : Program}
    (h : Assembled (body ++ [.halt]) p) : Closed p := by
  have hlength : p.instructions.size = body.instructions.length + 1 := by
    have hlength := h.instructions.length_eq
    rw [Code.instructions_append, List.length_append, Array.length_toList] at hlength
    exact hlength.symm
  refine ⟨fun i hi => ?_, by omega, fun i hi name label place ha => ?_⟩
  · obtain ⟨-, j, hj, hspells⟩ := h.appearsAt.exists_instruction rfl rfl
    rw [Nat.zero_add] at hj
    rw [hlength, Nat.add_sub_cancel, hj] at hi
    cases hi
    cases hspells
    rfl
  · obtain ⟨line, -, -, hspells⟩ := h.exists_line hi
    cases hspells with
    | operate | halt => cases ha
    | jump op _ _ leads =>
      cases ha
      obtain ⟨l, hl, hmem⟩ := leads
      cases hl
      obtain ⟨before, rest, hcode, haddress⟩ := Code.split_of_mem_labelsFrom hmem
      have hrest : rest ≠ [] := by
        rintro rfl
        have hlast := congrArg List.getLast? hcode
        rw [List.getLast?_concat, List.getLast?_concat] at hlast
        cases hlast
      obtain ⟨others, last, rfl⟩ := (List.eq_nil_or_concat rest).resolve_left hrest
      rw [List.concat_eq_append, ← List.cons_append, ← List.append_assoc] at hcode
      obtain ⟨rfl, -⟩ := List.append_inj' hcode rfl
      rw [haddress, hlength, Code.instructions_append, List.length_append]
      omega

/-- An instruction with a pointer is that of a line with one. -/
theorem exists_pointer {code : Code} {p : Program} (h : Assembled code p) {i : Instruction}
    (hi : i ∈ p.instructions) {index : Nat} {place : Span}
    (ha : i.argument = some (.operand (.pointer index) place)) :
    ∃ line ∈ code, line.IsPointer := by
  obtain ⟨line, hline, -, hspells⟩ := h.exists_line hi
  cases hspells with
  | jump | halt => cases ha
  | operate op o =>
    cases ha
    exact ⟨_, hline, op, index, rfl⟩

/-- **What is promised of a machine** with so many registers that runs a compiled program: until it
stops the counter is that of an instruction; it stops with `END`, with a division by zero, or at a
register outside the bank; in the last case the instruction executed has a pointer, in a register
that was counted, which holds the number of that register; and without elements of arrays there is
no such case. -/
structure Settled (c : Compilation) (p : Program) (registers : Nat) (m : Interpreter) : Prop where
  counter : m.lastStop = none → m.counter < p.instructions.size
  reason : ∀ reason, m.lastStop = some reason → reason = .halted ∨ reason = .divisionByZero ∨
    ∃ register, reason = .fault (.registerOutOfRange register)
  outside : ∀ register, m.lastStop = none →
    m.step.1.lastStop = some (.fault (.registerOutOfRange register)) →
    ∃ i index place value, m.current? = some i ∧
      i.argument = some (.operand (.pointer index) place) ∧
      index ≤ c.emission.registerCount ∧ m.bank.read? index = some value ∧
      value.toNat = register ∧ registers < register
  direct : c.tree.WithoutElements → ∀ reason, m.lastStop = some reason →
    reason = .halted ∨ reason = .divisionByZero

/-- The invariant behind the promise: without elements of arrays, no register outside the bank is
ever reached. -/
structure Direct (p : Program) (size : Nat) (m : Interpreter) : Prop extends Stays p size m where
  bounded : ∀ register, m.lastStop ≠ some (.fault (.registerOutOfRange register))

theorem direct_step {tokens : List Assembly.Token} {p : Program} {bound size : Nat}
    {m : Interpreter}
    (hp : Closed p) (hchecked : p.Checked tokens bound) (hsize : bound ≤ size)
    (hpointer : ∀ i ∈ p.instructions, ∀ index place,
      i.argument ≠ some (.operand (.pointer index) place)) (h : Direct p size m) :
    Direct p size m.step.1 := by
  refine ⟨stays_step hp hchecked hsize h.toStays, fun register hstop => ?_⟩
  by_cases hs : m.state = .stopped
  · rw [Interpreter.step_of_stopped hs] at hstop
    exact h.bounded register hstop
  · obtain ⟨i, index, place, value, hi, ha, -⟩ :=
      step_of_outside hchecked hsize h.toFollows (h.knows.running_iff.mpr hs) hstop
    exact hpointer i (h.current hi).1 index place ha

/-- **How compiled programs stop.** Every source that is built runs as promised on every machine
with enough registers, behind any number of steps. -/
theorem built_settled {source : String} {c : Compilation} {p : Program}
    (h : build source = .ok (c, p)) {registers : Nat}
    (hcount : c.emission.registerCount ≤ registers) (hmax : registers ≤ maxRegisters)
    (fresh : Interpreter) :
    ∃ start, fresh.load p registers = .ok start ∧ ∀ k, Settled c p registers (start.after k) := by
  obtain ⟨hcompile, hassemble, hassembled⟩ := build_ok h
  obtain ⟨hdrafted, hemit⟩ := compile_ok hcompile
  obtain ⟨-, tokens, -, hchecked⟩ := assemble_ok hassemble
  obtain ⟨body, R, n, hemits, hcode, -, -⟩ := emit_ok hemit
  have hclosed : Closed p := by
    rw [hcode] at hassembled
    exact closed_of_assembled hassembled
  have hsize : c.emission.registerCount + 1 ≤ registers + 1 := Nat.succ_le_succ hcount
  obtain ⟨start, hstart⟩ := load_ok hmax p fresh
  have hstays : ∀ k, Stays p (registers + 1) (start.after k) :=
    Interpreter.invariant_after (fun _ => stays_step hclosed hchecked hsize)
      (stays_load hclosed hstart)
  refine ⟨start, hstart, fun k => ⟨fun hrun =>
    (hstays k).inside ((hstays k).knows.running_iff.mp hrun), (hstays k).reason, ?_, fun hw => ?_⟩⟩
  · intro register hrun hstop
    obtain ⟨i, index, place, value, hi, ha, hbound, hv, hr, hout⟩ :=
      step_of_outside hchecked hsize (hstays k).toFollows hrun hstop
    exact ⟨i, index, place, value, hi, ha, Nat.le_of_lt_succ hbound, hv, hr, hout⟩
  · have hpointer : ∀ i ∈ p.instructions, ∀ index place,
        i.argument ≠ some (.operand (.pointer index) place) := by
      intro i hi index place ha
      obtain ⟨line, hline, hisPointer⟩ := exists_pointer hassembled hi ha
      rw [hcode] at hline
      rcases List.mem_append.mp hline with hline | hline
      · exact hemits.no_pointer hw trivial line hline hisPointer
      · obtain ⟨op, index, rfl⟩ := hisPointer
        cases List.mem_singleton.mp hline
    have hdirect : Direct p (registers + 1) (start.after k) :=
      Interpreter.invariant_after (fun _ => direct_step hclosed hchecked hsize hpointer)
        ⟨stays_load hclosed hstart, fun _ => by
          obtain ⟨_, -, rfl⟩ := map_ok hstart
          exact fun h => nomatch h⟩ k
    intro reason hr
    rcases hdirect.reason reason hr with hreason | hreason | ⟨register, rfl⟩
    · exact .inl hreason
    · exact .inr hreason
    · exact absurd hr (hdirect.bounded register)

theorem build_countdown : ∃ c p, build countdown = .ok (c, p) ∧ c.tree = countdownTree ∧
    c.emission.registerCount = 1 := by
  obtain ⟨c, hc, htree, hcount⟩ := compile_countdown
  obtain ⟨p, hp⟩ := exists_build hc (hcount ▸ by decide)
  exact ⟨c, p, hp, htree, hcount⟩

theorem countdown_settled : ∃ c p, build countdown = .ok (c, p) ∧ c.emission.registerCount ≤ 3 ∧
    3 ≤ maxRegisters ∧ ∃ start, Interpreter.load {} p 3 = .ok start ∧
      ∀ k, Settled c p 3 (start.after k) := by
  obtain ⟨c, p, hbuild, -, hcount⟩ := build_countdown
  have hle : c.emission.registerCount ≤ 3 := by omega
  have hmax : 3 ≤ maxRegisters := by decide
  exact ⟨c, p, hbuild, hle, hmax, built_settled hbuild hle hmax {}⟩

end RegisterMachine
