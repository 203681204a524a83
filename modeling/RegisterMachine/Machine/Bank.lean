/-! # The register bank

Register 0 is the accumulator, the general registers follow it. Every register has a name and holds
a 32-bit word.

* `Bank.zero`: a bank of zeros, under the usual names.
* `Bank.write`: one register changed; `read?_write` says which, and `names_write` that it keeps its
  name. -/

namespace RegisterMachine.Machine

/-- The largest number of general registers of a machine. -/
def maxRegisters : Nat := 65536

structure Register where
  name : String
  value : UInt32
deriving DecidableEq, Repr

/-- A register, shown with its name. -/
def Register.text (r : Register) : String := s!"{r.name}: {r.value.toNat}"

structure Bank where
  cells : Array Register
deriving DecidableEq, Repr

namespace Bank

/-- The accumulator and `general` further registers, all zero. -/
def zero (general : Nat) : Bank :=
  ⟨(⟨"Acc", 0⟩ :: (List.range general).map fun k => ⟨s!"R{k + 1}", 0⟩).toArray⟩

/-- The number of registers with the accumulator. -/
def size (b : Bank) : Nat := b.cells.size

def read? (b : Bank) (register : Nat) : Option UInt32 := b.cells[register]?.map Register.value

def accumulator (b : Bank) : UInt32 := (b.read? 0).getD 0

/-- The bank with one register changed; a register outside the bank changes nothing. -/
def write (b : Bank) (register : Nat) (value : UInt32) : Bank :=
  ⟨b.cells.modify register fun cell => { cell with value }⟩

/-- The names of all registers in order. -/
def names (b : Bank) : List String := b.cells.toList.map Register.name

/-- The name of one register, as far as there is one. -/
def name (b : Bank) (register : Nat) : String := (b.cells[register]?.map Register.name).getD "?"

/-- All registers in order, shown with their names. -/
def texts (b : Bank) : List String := b.cells.toList.map Register.text

@[simp] theorem size_zero (general : Nat) : (zero general).size = general + 1 := by
  simp [zero, size]

@[simp] theorem size_write (b : Bank) (register : Nat) (value : UInt32) :
    (b.write register value).size = b.size := by
  simp [write, size]

theorem read?_zero (general register : Nat) :
    (zero general).read? register = if register ≤ general then some 0 else none := by
  cases register with
  | zero => rfl
  | succ k =>
    rw [zero, read?, List.getElem?_toArray, List.getElem?_cons_succ, List.getElem?_map,
      Option.map_map]
    by_cases hk : k + 1 ≤ general
    · rw [List.getElem?_range hk, if_pos hk]
      rfl
    · rw [List.getElem?_eq_none (by simpa [Nat.lt_succ_iff] using hk), if_neg hk]
      rfl

theorem read?_write (b : Bank) (register other : Nat) (value : UInt32) :
    (b.write register value).read? other =
      if register = other ∧ register < b.size then some value else b.read? other := by
  simp only [write, read?, size, Array.getElem?_modify]
  by_cases hother : register = other
  · subst hother
    by_cases hlt : register < b.cells.size
    · simp [hlt]
    · simp [hlt]
  · simp [hother]

theorem names_zero (general : Nat) :
    (zero general).names = "Acc" :: (List.range general).map fun k => s!"R{k + 1}" := by
  simp [zero, names]

/-- A register keeps its name. -/
@[simp] theorem names_write (b : Bank) (register : Nat) (value : UInt32) :
    (b.write register value).names = b.names := by
  refine List.ext_getElem? fun other => ?_
  simp only [write, names, List.getElem?_map, Array.getElem?_toList, Array.getElem?_modify]
  split
  · rw [Option.map_map]
    rfl
  · rfl

end Bank

end RegisterMachine.Machine
