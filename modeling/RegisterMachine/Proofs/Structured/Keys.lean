import Mathlib.Data.List.TakeWhile
import RegisterMachine.Proofs.Structured.Reservation
import RegisterMachine.Proofs.Structured.Spelling

/-! # Registers under their keys

A slot has a text for its key: its name, behind `@` its scope, and for an element the index in
brackets. A name may be any text and hold these characters itself. The key tells the slot all the
same, since no `@` stands behind the one in front of the scope; so registers can be kept under the
keys alone.

* `Slot.key_injective`: different slots have different keys.
* `lookup_table`, `nodup_keys_iff`: the registers under their keys are those of the slots. -/

namespace RegisterMachine.Structured

/-- What is written of the element. -/
def elementText : Option Nat → List Char
  | none => []
  | some i => '[' :: (Nat.toDigits 10 i ++ [']'])

theorem Slot.toList_key (slot : Slot) : slot.key.toList =
    slot.name.toList ++ '@' :: (Nat.toDigits 10 slot.scope ++ elementText slot.element) := by
  obtain ⟨name, scope, _ | i⟩ := slot <;> simp [Slot.key, elementText, toString]

theorem elementText_injective {e e' : Option Nat} (h : elementText e = elementText e') :
    e = e' := by
  cases e with
  | none => cases e' <;> simp [elementText] at h ⊢
  | some i =>
    cases e' with
    | none => simp [elementText] at h
    | some i' =>
      have hdigits : Nat.toDigits 10 i = Nat.toDigits 10 i' := by simpa [elementText] using h
      rw [toDigits_injective hdigits]

/-- The scope ends where the element is written. -/
theorem takeWhile_scope (scope : Nat) (e : Option Nat) :
    (Nat.toDigits 10 scope ++ elementText e).takeWhile Char.isDigit = Nat.toDigits 10 scope := by
  have hdigits : ∀ c ∈ Nat.toDigits 10 scope, c.isDigit = true :=
    fun _ hc => Assembly.isDigit_of_mem_digits hc
  cases e with
  | none => rw [elementText, List.append_nil, List.takeWhile_eq_self_iff.mpr hdigits]
  | some i => exact (Assembly.takeWhile_append_stop hdigits (by decide) _).1

/-- No `@` stands behind the one in front of the scope. -/
theorem not_mem_scope (scope : Nat) (e : Option Nat) :
    '@' ∉ Nat.toDigits 10 scope ++ elementText e := by
  have hdigits : ∀ n, '@' ∉ Nat.toDigits 10 n := fun n hmem =>
    absurd (Assembly.isDigit_of_mem_digits hmem) (by decide)
  cases e <;> simp [elementText, hdigits]

/-- A text falls into one part before the last `a` and one behind. -/
theorem append_cons_inj_of_last {α : Type} {a : α} {l l' r r' : List α} (hr : a ∉ r) (hr' : a ∉ r')
    (h : l ++ a :: r = l' ++ a :: r') : l = l' ∧ r = r' := by
  obtain ⟨c, rfl, hc⟩ | ⟨c, rfl, hc⟩ := List.append_eq_append_iff.mp h
  · cases c with
    | nil => exact ⟨(List.append_nil l).symm, (List.cons.inj hc).2⟩
    | cons b c =>
      obtain ⟨-, rfl⟩ := List.cons.inj hc
      exact absurd (List.mem_append_right c List.mem_cons_self) hr
  · cases c with
    | nil => exact ⟨List.append_nil l', (List.cons.inj hc).2.symm⟩
    | cons b c =>
      obtain ⟨-, rfl⟩ := List.cons.inj hc
      exact absurd (List.mem_append_right c List.mem_cons_self) hr'

/-- **Different slots have different keys**, whatever characters their names hold. -/
theorem Slot.key_injective : Function.Injective Slot.key := by
  intro slot slot' h
  have htext := congrArg String.toList h
  rw [toList_key, toList_key] at htext
  obtain ⟨hname, hplace⟩ := append_cons_inj_of_last (not_mem_scope _ _) (not_mem_scope _ _) htext
  have hscope : Nat.toDigits 10 slot.scope = Nat.toDigits 10 slot'.scope := by
    rw [← takeWhile_scope slot.scope slot.element, hplace, takeWhile_scope]
  rw [hscope] at hplace
  have helement := elementText_injective (List.append_cancel_left hplace)
  obtain ⟨name, scope, element⟩ := slot
  obtain ⟨name', scope', element'⟩ := slot'
  obtain rfl : name = name' := String.toList_inj.mp hname
  obtain rfl : scope = scope' := toDigits_injective hscope
  obtain rfl : element = element' := helement
  rfl

namespace Registers

/-- Every slot has the register that stands under its key. -/
theorem lookup_table (R : Registers) (slot : Slot) :
    R.table.lookup slot.key = R.reserved.lookup slot := by
  unfold table
  induction R.reserved with
  | nil => rfl
  | cons entry l ih =>
    obtain ⟨slot', r⟩ := entry
    rw [List.map_cons, List.lookup_cons, List.lookup_cons, ih]
    congr 1
    exact Bool.eq_iff_iff.mpr (by simp [Slot.key_injective.eq_iff])

/-- There are as many keys as slots. -/
theorem nodup_keys_iff {R : Registers} :
    (R.table.map (·.1)).Nodup ↔ (R.reserved.map (·.1)).Nodup := by
  have hkeys : R.table.map (·.1) = (R.reserved.map (·.1)).map Slot.key := by
    simp only [table, List.map_map]
    rfl
  rw [hkeys, List.nodup_map_iff Slot.key_injective]

end Registers

end RegisterMachine.Structured
