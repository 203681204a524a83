import RegisterMachine.Proofs.Compilation.Execution
import RegisterMachine.Proofs.Compilation.StopReasons
import RegisterMachine.Proofs.Structured.Fuel
import RegisterMachine.Proofs.Structured.Simulation

/-! # Compiled programs do what their sources mean

The machine that has loaded a compiled program ends as the program does: with `END`, and then the
registers in the table of symbols hold what the bindings of the root hold; with a division by zero;
or not at all.

* `Symbol.Shows`: the registers of a symbol hold the contents of a binding.
* `root_answers`: the code of the root does what the program means.
* `built_faithful`: the theorem. -/

namespace RegisterMachine.Structured

open RegisterMachine.Assembly RegisterMachine.Machine

/-- **The registers of a symbol hold this contents.** -/
def Symbol.Shows (y : Symbol) (bank : Bank) : Cell → Prop
  | .scalar v => y.width = 1 ∧ bank.read? y.register = some v
  | .array values => y.width = values.length ∧
    ∀ i < values.length, bank.read? (y.register + i) = values[i]?

/-- The place of a binding stands in the table of symbols. -/
theorem Place.Reserved.exists_symbol {p : Place} {b : Binding} {R : Registers} {bank : Bank}
    {c : Cell} (h : p.Reserved R b) (hs : R.Sound) (hshows : p.Shows bank c) :
    ∃ y ∈ R.symbols, y.name = b.name ∧ y.scope = b.scope ∧ y.Shows bank c := by
  cases p with
  | scalar r =>
    refine ⟨⟨b.name, b.scope, r, 1⟩, hs.recorded _ _ r (mem_of_lookup h), rfl, rfl, ?_⟩
    cases c with
    | scalar v => exact ⟨rfl, hshows⟩
    | array values => cases hshows
  | array base size =>
    refine ⟨⟨b.name, b.scope, base, size⟩, h.2.1, rfl, rfl, ?_⟩
    cases c with
    | scalar v => cases hshows
    | array values =>
      obtain ⟨hsize, hread⟩ := hshows
      exact ⟨hsize.symm, fun i hi => hread i (hsize ▸ hi)⟩

/-- **The code of the root does what the program means.** -/
theorem root_answers {t : Tree} {e : Emission} (ht : Drafted [] t) (h : t.emit = .ok e)
    (hmax : e.registerCount ≤ maxRegisters) {least fuel : Nat}
    (hfuel : least ≤ fuel - t.emissionDepth) :
    Answers e.code least ⟨e.code, Bank.zero e.registerCount⟩
      (statementsRun t (scopeRun t fuel) fuel rootScope (t.scope rootScope).statements.toList
        Store.empty)
      fun y s => y.1 = .next → s.code = [.halt] ∧ ∀ b c, y.2 b = some c → b.scope = rootScope ∧
        ∃ symbol ∈ e.symbols, symbol.name = b.name ∧ symbol.scope = b.scope ∧
          symbol.Shows s.bank c := by
  obtain ⟨body, R, n, hemits, hcode, hsymbols, hcount⟩ := emit_ok h
  have hapart := (hemits.apart ht.separate).inside
  have hbound : ∀ scope, (Task.inside t scope).Bound := fun scope i e span hs => ht.bound hs
  generalize hdepth : t.emissionDepth = depth at hemits hfuel
  cases hemits with
  | @scope d _ _ _ R₁ _ _ _ inner =>
    have hrelease := leads_releaseScope t rootScope R₁
    have hsize : (Bank.zero e.registerCount).size = e.registerCount + 1 := Bank.size_zero _
    have hmax' : e.registerCount + 1 ≤ maxRegisters + 1 := Nat.succ_le_succ hmax
    have ready : Ready t e.code (e.registerCount + 1) [rootScope] Layout.empty
        (.inside t rootScope) {} R₁ body [.halt] :=
      { apart := hapart
        home := fun s hs => Option.some.inj hs ▸ List.mem_cons_self
        bound := hbound rootScope
        known := fun _ _ hb => nomatch hb
        lays := fun _ _ hb => nomatch hb
        sound := Registers.sound_empty
        fits := Nat.lt_succ_of_le (hcount ▸ hrelease.highest)
        placed := hcode ▸ List.suffix_rfl }
    have hinside : least ≤ fuel - d := by omega
    have holds := holds_empty (Bank.zero e.registerCount)
    rw [hsize] at holds
    have hanswers := inner.simulated ht.separate hbound hmax' [rootScope] Layout.empty [.halt] fuel
      Store.empty (Bank.zero e.registerCount) ready hinside holds {}
      ⟨fun _ _ hloop => (nomatch hloop), fun _ hexit => nomatch hexit⟩
    rw [← hcode] at hanswers
    refine hanswers.imp fun y s hdone hnext => ?_
    obtain ⟨signal, σ⟩ := y
    obtain rfl : signal = .next := hnext
    obtain ⟨L, ⟨⟨hcode', hholds, -⟩, -⟩, hsame, hlays⟩ := hdone trivial
    refine ⟨hcode', fun b c hc => ?_⟩
    obtain ⟨p, hp, hshows⟩ := hholds.cell b c hc
    have hsound₁ := inner.leads.sound Registers.sound_empty
    obtain ⟨symbol, hsymbol, hname, hscope, hshows'⟩ :=
      (hlays rfl b p hp).exists_symbol hsound₁ hshows
    refine ⟨?_, symbol, ?_, hname, hscope, hshows'⟩
    · by_contra hb
      rw [hsame b hb] at hp
      cases hp
    · rw [hsymbols]
      exact Array.mem_toList_iff.mpr (hrelease.symbols symbol hsymbol)

end RegisterMachine.Structured

namespace RegisterMachine

open Structured Assembly Machine Success

/-- **A machine does what a compiled program means.** The program means one thing: with whatever
fuel it comes to an end, the end is the same. If the program ends, the machine stops with `END`, and
each binding that is left is one of the root and stands in the table of symbols, with its contents
in its registers. If the program divides by zero, so does the machine; and if no fuel is enough for
the program, the machine never stops. -/
structure Faithful (c : Compilation) (start : Interpreter) : Prop where
  meaning : ∀ fuel fuel', c.tree.run fuel ≠ .error .unfinished →
    c.tree.run fuel' ≠ .error .unfinished → c.tree.run fuel = c.tree.run fuel'
  ends : ∀ fuel σ, c.tree.run fuel = .ok σ → ∃ k, (start.after k).lastStop = some .halted ∧
    ∀ b cell, σ b = some cell → b.scope = rootScope ∧
      ∃ symbol ∈ c.emission.symbols, symbol.name = b.name ∧ symbol.scope = b.scope ∧
        symbol.Shows (start.after k).bank cell
  divides : ∀ fuel, c.tree.run fuel = .error .divided →
    ∃ k, (start.after k).lastStop = some .divisionByZero
  continues : (∀ fuel, c.tree.run fuel = .error .unfinished) → ∀ k, (start.after k).lastStop = none

/-- **Compiled programs do what their sources mean.** Every source that is built can be loaded into
a machine with as many registers as it needs, and the machine does what the program means. -/
theorem built_faithful {source : String} {c : Compilation} {p : Program}
    (h : build source = .ok (c, p)) (fresh : Interpreter) :
    ∃ start, fresh.load p c.emission.registerCount = .ok start ∧ Faithful c start := by
  obtain ⟨hcompile, hassemble, hassembled⟩ := build_ok h
  obtain ⟨hdrafted, hemit⟩ := compile_ok hcompile
  obtain ⟨-, -, -, hsound⟩ := emit_sound hdrafted.clean hemit
  have hnodup : c.emission.code.marks.Nodup := hsound.nodup.of_map _
  have hmax := (assemble_ok hassemble).1
  obtain ⟨start, hstart⟩ := load_ok hmax p fresh
  have hat : At c.emission.code p ⟨c.emission.code, Bank.zero c.emission.registerCount⟩ start :=
    .of_load hstart
  refine ⟨start, hstart, ⟨fun _ _ => c.tree.run_unique, fun fuel σ hrun => ?_, fun fuel hrun => ?_,
    fun hrun k => ?_⟩⟩
  · have hanswers := root_answers hdrafted hemit hmax (Nat.zero_le (fuel - c.tree.emissionDepth))
    unfold Tree.run at hrun
    split at hrun <;> rename_i hroot
    · cases hrun
      rw [hroot] at hanswers
      obtain ⟨k, s, hruns, hdone⟩ := hanswers
      obtain ⟨hcode, hbindings⟩ := hdone rfl
      obtain ⟨code, bank⟩ := s
      obtain rfl : code = [.halt] := hcode
      obtain ⟨hstop, hbank⟩ := (hruns.executes hassembled hnodup hat).halts hassembled
      refine ⟨k + 1, hstop, ?_⟩
      rw [Interpreter.after_succ, hbank]
      exact hbindings
    · cases hrun
    · cases hrun
  · have hanswers := root_answers hdrafted hemit hmax (Nat.zero_le (fuel - c.tree.emissionDepth))
    unfold Tree.run at hrun
    split at hrun <;> rename_i hroot
    · cases hrun
    · cases hrun
    · cases hrun
      rw [hroot] at hanswers
      obtain ⟨k, s, hruns, hdivides⟩ := hanswers
      exact ⟨k + 1, (hruns.executes hassembled hnodup hat).divides hassembled hdivides⟩
  · have hfuel : k ≤ k + c.tree.emissionDepth - c.tree.emissionDepth := by omega
    have hanswers := root_answers hdrafted hemit hmax hfuel
    have hrun := hrun (k + c.tree.emissionDepth)
    unfold Tree.run at hrun
    split at hrun <;> rename_i hroot
    · cases hrun
    · cases hrun
    · cases hrun
      rw [hroot] at hanswers
      obtain ⟨j, s, hruns, hle⟩ := hanswers
      obtain ⟨i, rfl⟩ := Nat.exists_eq_add_of_le hle
      have hrunning := Interpreter.running_of_after (hruns.executes hassembled hnodup hat).running
      exact ((Interpreter.knows_load hstart).after k).running_iff.mpr hrunning

theorem run_countdown : ∃ σ, countdownTree.run 5 = .ok σ ∧
    σ ⟨"a", rootScope⟩ = some (.scalar 1) := by
  have hrun : (countdownTree.run 5).toOption.map (· ⟨"a", rootScope⟩) =
      some (some (.scalar 1)) := by
    decide +kernel
  obtain ⟨σ, hσ, ha⟩ := Option.map_eq_some_iff.mp hrun
  exact ⟨σ, ok_of_toOption hσ, ha⟩

/-- The machine counts down to 1. -/
theorem countdown_faithful : ∃ c p start k, build countdown = .ok (c, p) ∧
    Interpreter.load {} p c.emission.registerCount = .ok start ∧
    (start.after k).lastStop = some .halted ∧
    ∃ symbol ∈ c.emission.symbols, symbol.name = "a" ∧ symbol.scope = rootScope ∧
      symbol.Shows (start.after k).bank (.scalar 1) := by
  obtain ⟨c, p, hbuild, htree, -⟩ := build_countdown
  obtain ⟨start, hstart, faithful⟩ := built_faithful hbuild {}
  obtain ⟨σ, hrun, ha⟩ := run_countdown
  obtain ⟨k, hstop, hbindings⟩ := faithful.ends 5 σ (htree ▸ hrun)
  obtain ⟨-, symbol, hsymbol, hname, hscope, hshows⟩ := hbindings _ _ ha
  exact ⟨c, p, start, k, hbuild, hstart, hstop, symbol, hsymbol, hname, hscope, hshows⟩

end RegisterMachine
