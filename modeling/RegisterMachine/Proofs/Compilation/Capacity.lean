import RegisterMachine.Proofs.Compilation.RoundTrip
import RegisterMachine.Proofs.Structured.Capacity

/-! # What compiles, and what fits in a machine

A source is compiled whether or not its registers fit in a machine, unless it is an array that does
not fit. So a source that is compiled is built exactly if it needs no more registers than a machine
can have; otherwise it is refused as a whole, by the number of its registers and without a place.

* `Fitting`: what the number of registers decides, with `compiled_fitting` for every source.
* `compiled_beyond_machine`: a source that is compiled and does not fit. -/

namespace RegisterMachine

open Structured Machine Success

/-- No program is assembled for more registers than a machine can have. -/
theorem assemble_of_too_many {source : String} {registers : Nat} (h : maxRegisters < registers) :
    assemble source registers = .error (.settings (.registerCount registers)) := by
  rw [assemble, checkCount, if_pos h]
  rfl

/-- **What the number of its registers decides** about a source that is compiled: it is built if and
only if they are no more than a machine can have, and if they are more it is refused for their
number and nothing else. The arrays always lie in the machine, so it is never an array that is too
much. -/
structure Fitting (source : String) (c : Compilation) : Prop where
  built_iff : (∃ p, build source = .ok (c, p)) ↔ c.emission.registerCount ≤ maxRegisters
  refused : maxRegisters < c.emission.registerCount →
    build source = .error (.settings (.registerCount c.emission.registerCount))
  arrays : ∀ y ∈ c.emission.symbols, y.width ≠ 1 → y.register + y.width ≤ maxRegisters + 1

/-- **What compiles is built exactly if it fits.** -/
theorem compiled_fitting {source : String} {c : Compilation} (h : compile source = .ok c) :
    Fitting source c := by
  obtain ⟨hdrafted, hemit⟩ := compile_ok h
  have hrefused : maxRegisters < c.emission.registerCount →
      build source = .error (.settings (.registerCount c.emission.registerCount)) := by
    intro hmany
    rw [build_of_compile h, assemble_of_too_many hmany]
    rfl
  refine ⟨⟨fun ⟨p, hp⟩ => ?_, fun hfits => ?_⟩, hrefused, ?_⟩
  · by_contra hmany
    rw [hrefused (Nat.lt_of_not_le hmany)] at hp
    cases hp
  · exact exists_build h hfits
  · obtain ⟨body, R, n, hemits, -, hsymbols, -⟩ := emit_ok hemit
    intro y hy hwidth
    rw [hsymbols] at hy
    exact hemits.arraysFit (fun _ h => absurd h (Array.not_mem_empty _)) y
      (Array.mem_toList_iff.mp hy) hwidth

theorem countdown_fitting : ∃ c, compile countdown = .ok c ∧ Fitting countdown c ∧
    ∃ p, build countdown = .ok (c, p) := by
  obtain ⟨c, hc, -, hcount⟩ := compile_countdown
  have fitting := compiled_fitting hc
  exact ⟨c, hc, fitting, fitting.built_iff.mpr (hcount ▸ by decide)⟩

/-! ### A source that does not fit -/

/-- An array that fills the machine, and one scalar more. -/
def overfull : String := "int a = new int[65536]; int b = 1;"

def overfullTokens : List Token :=
  [⟨.keyword .int, .none, ⟨1, 1, 3⟩, "int"⟩, ⟨.identifier, .name "a", ⟨1, 5, 1⟩, "a"⟩,
    ⟨.assign, .none, ⟨1, 7, 1⟩, "="⟩, ⟨.keyword .new, .none, ⟨1, 9, 3⟩, "new"⟩,
    ⟨.keyword .int, .none, ⟨1, 13, 3⟩, "int"⟩, ⟨.leftBracket, .none, ⟨1, 16, 1⟩, "["⟩,
    ⟨.number, .number 65536, ⟨1, 17, 5⟩, "65536"⟩, ⟨.rightBracket, .none, ⟨1, 22, 1⟩, "]"⟩,
    ⟨.semicolon, .none, ⟨1, 23, 1⟩, ";"⟩, ⟨.keyword .int, .none, ⟨1, 25, 3⟩, "int"⟩,
    ⟨.identifier, .name "b", ⟨1, 29, 1⟩, "b"⟩, ⟨.assign, .none, ⟨1, 31, 1⟩, "="⟩,
    ⟨.number, .number 1, ⟨1, 33, 1⟩, "1"⟩, ⟨.semicolon, .none, ⟨1, 34, 1⟩, ";"⟩]

theorem tokenize_overfull : tokenize overfull = .ok overfullTokens :=
  ok_of_toOption (by decide +kernel)

theorem analyze_overfull : analyze overfull = .ok (arrayThenScalar maxRegisters) := by
  rw [analyze, tokenize_overfull]
  cbv

/-- It is compiled, needs more registers than a machine can have, and is not built. -/
theorem compiled_beyond_machine : ∃ c, compile overfull = .ok c ∧
    maxRegisters < c.emission.registerCount ∧ ∀ p, build overfull ≠ .ok (c, p) := by
  obtain ⟨e, he, hcount⟩ := emit_arrayThenScalar (show 0 < maxRegisters by decide) (Nat.le_refl _)
  have hcompile := compile_of_emit analyze_overfull he
  refine ⟨_, hcompile, hcount, fun p hp => ?_⟩
  rw [build_of_compile hcompile, assemble_of_too_many hcount] at hp
  cases hp

end RegisterMachine
