import RegisterMachine.Machine.Bank
import RegisterMachine.Structured.Tree

/-! # Reserving registers

While code is emitted, registers are held by bindings (a scalar, or one element of an array) and by
temporaries. A new register is always the one above all that are held, so the registers of an array
lie next to each other, and what is handed out depends only on the order of the reservations.

* `getOrReserve`, `reserveArray?`, `temporary`: hand out registers.
* `release`, `releaseArray`, `freeTemporary`: give them back.
* `highest`: the highest register ever handed out. -/

namespace RegisterMachine.Structured

/-- What a register is reserved for: a scalar, or an element of an array. -/
structure Slot where
  name : String
  scope : ScopeId
  element : Option Nat
deriving DecidableEq, Repr

/-- **The key of a slot**, under which its register is kept. -/
def Slot.key : Slot → String
  | ⟨name, scope, none⟩ => s!"{name}@{scope}"
  | ⟨name, scope, some i⟩ => s!"{name}@{scope}[{i}]"

/-- A binding made while code was emitted. -/
structure Symbol where
  name : String
  scope : ScopeId
  /-- The first register. -/
  register : Nat
  /-- The number of registers: one for a scalar, the size of an array. -/
  width : Nat
deriving DecidableEq, Repr

structure Registers where
  /-- The latest reservation comes first. -/
  reserved : List (Slot × Nat) := []
  /-- The latest temporary comes first. -/
  temporaries : List Nat := []
  symbols : Array Symbol := #[]
  highest : Nat := 0
deriving Repr

namespace Registers

/-- **The registers under their keys.** Different slots have different keys, so the slots themselves
are looked up. -/
def table (r : Registers) : List (String × Nat) :=
  r.reserved.map fun entry => (entry.1.key, entry.2)

/-- The registers that are held. -/
def held (r : Registers) : List Nat := r.reserved.map (·.2) ++ r.temporaries

/-- The register above all that are held. -/
def nextFree (r : Registers) : Nat :=
  r.temporaries.foldl max (r.reserved.foldl (fun m entry => max m entry.2) 0) + 1

/-- The register of a scalar. -/
def get? (r : Registers) (name : String) (scope : ScopeId) : Option Nat :=
  r.reserved.lookup ⟨name, scope, none⟩

/-- The first register of an array. -/
def arrayBase? (r : Registers) (name : String) (scope : ScopeId) : Option Nat :=
  r.reserved.lookup ⟨name, scope, some 0⟩

/-- **The register of a scalar**, reserved if it has none. -/
def getOrReserve (r : Registers) (name : String) (scope : ScopeId) : Nat × Registers :=
  match r.get? name scope with
  | some register => (register, r)
  | none =>
    let register := r.nextFree
    (register,
      { r with
        reserved := (⟨name, scope, none⟩, register) :: r.reserved
        symbols := r.symbols.push ⟨name, scope, register, 1⟩
        highest := max r.highest register })

/-- The reservations of an array, the last element first. -/
def elementSlots (name : String) (scope : ScopeId) (base size : Nat) : List (Slot × Nat) :=
  ((List.range size).map fun i => (⟨name, scope, some i⟩, base + i)).reverse

/-- **Registers for an array**, and the first of them; nothing if they do not fit. -/
def reserveArray? (r : Registers) (name : String) (scope : ScopeId) (size : Nat) :
    Option (Nat × Registers) :=
  let base := r.nextFree
  if size = 0 ∨ Machine.maxRegisters < base + size - 1 then none
  else some (base,
    { r with
      reserved := elementSlots name scope base size ++ r.reserved
      symbols := r.symbols.push ⟨name, scope, base, size⟩
      highest := max r.highest (base + size - 1) })

/-- The register of a scalar is given back. -/
def release (r : Registers) (name : String) (scope : ScopeId) : Registers :=
  { r with reserved := r.reserved.filter (·.1 != ⟨name, scope, none⟩) }

/-- A slot belongs to one of the first elements of an array. -/
def isElement (name : String) (scope : ScopeId) (size : Nat) (slot : Slot) : Bool :=
  match slot.element with
  | some i => i < size && slot.scope == scope && slot.name == name
  | none => false

/-- The registers of an array are given back. -/
def releaseArray (r : Registers) (name : String) (scope : ScopeId) (size : Nat) : Registers :=
  { r with reserved := r.reserved.filter fun entry => !isElement name scope size entry.1 }

/-- **A register for an intermediate result.** -/
def temporary (r : Registers) : Nat × Registers :=
  let register := r.nextFree
  (register,
    { r with
      temporaries := register :: r.temporaries
      highest := max r.highest register })

/-- A temporary is given back. -/
def freeTemporary (r : Registers) (register : Nat) : Registers :=
  { r with temporaries := r.temporaries.erase register }

end Registers

end RegisterMachine.Structured
