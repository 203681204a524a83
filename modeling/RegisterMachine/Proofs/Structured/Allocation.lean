import Mathlib.Algebra.Group.Nat.Defs
import Mathlib.Data.List.Induction
import RegisterMachine.Proofs.Structured.Discipline
import RegisterMachine.Proofs.Structured.Keys

/-! # Registers under any row of requests

Whoever asks for registers and gives them back, in whatever order and under whatever names, gets
registers that nobody else holds, and keeps them. All that is asked of him is to give back an array,
as long as it was reserved, before he reserves it anew.

* `Request`, `Registers.perform`: the operations; `Performs`: all that one of them can do.
* `Tidy`: rows of requests in which no array is reserved twice.
* `Registers.InOrder`, `Serves`: what holds at every moment, and of every request.
* `Managed`, `requests_managed`: all of it for every tidy row. -/

namespace RegisterMachine.Structured

/-- **An operation on the registers.** -/
inductive Request
  | getOrReserve (name : String) (scope : ScopeId)
  | reserveArray (name : String) (scope : ScopeId) (size : Nat)
  | release (name : String) (scope : ScopeId)
  | releaseArray (name : String) (scope : ScopeId) (size : Nat)
  | temporary
  | freeTemporary (register : Nat)
deriving DecidableEq

/-- The operation gives back the register of a slot. -/
def Request.Releases (slot : Slot) : Request → Prop
  | release name scope => slot = ⟨name, scope, none⟩
  | releaseArray name scope size => ∃ i < size, slot = ⟨name, scope, some i⟩
  | _ => False

namespace Registers

/-- **An operation, performed**: the register that is handed out, and the registers behind it. An
array that is refused leaves them as they were. -/
def perform (R : Registers) : Request → Option Nat × Registers
  | .getOrReserve name scope =>
    let (r, R') := R.getOrReserve name scope
    (some r, R')
  | .reserveArray name scope size =>
    match R.reserveArray? name scope size with
    | some (base, R') => (some base, R')
    | none => (none, R)
  | .release name scope => (none, R.release name scope)
  | .releaseArray name scope size => (none, R.releaseArray name scope size)
  | .temporary =>
    let (r, R') := R.temporary
    (some r, R')
  | .freeTemporary r => (none, R.freeTemporary r)

/-- **The registers behind a row of requests**, of which none is held in the beginning. -/
def ofRequests (history : List Request) : Registers := history.foldl (fun R q => (R.perform q).2) {}

theorem ofRequests_concat (history : List Request) (q : Request) :
    ofRequests (history ++ [q]) = ((ofRequests history).perform q).2 := by
  rw [ofRequests, List.foldl_append]
  rfl

end Registers

open Registers

/-! ### One request -/

/-- **All that an operation can do**, with its answer. -/
inductive Performs (R : Registers) : Request → Option Nat → Registers → Prop
  | scalar {name scope r R'} (register : R.getOrReserve name scope = (r, R')) :
    Performs R (.getOrReserve name scope) (some r) R'
  | array {name scope size base R'}
    (registers : R.reserveArray? name scope size = some (base, R')) :
    Performs R (.reserveArray name scope size) (some base) R'
  | refused {name scope size} (refused : R.reserveArray? name scope size = none) :
    Performs R (.reserveArray name scope size) none R
  | release (name : String) (scope : ScopeId) :
    Performs R (.release name scope) none (R.release name scope)
  | releaseArray (name : String) (scope : ScopeId) (size : Nat) :
    Performs R (.releaseArray name scope size) none (R.releaseArray name scope size)
  | temporary {r R'} (register : R.temporary = (r, R')) : Performs R .temporary (some r) R'
  | free (r : Nat) : Performs R (.freeTemporary r) none (R.freeTemporary r)

theorem performs (R : Registers) (q : Request) :
    Performs R q (R.perform q).1 (R.perform q).2 := by
  cases q with
  | getOrReserve name scope => exact .scalar rfl
  | reserveArray name scope size =>
    cases h : R.reserveArray? name scope size with
    | none =>
      rw [perform, h]
      exact .refused h
    | some answer =>
      rw [perform, h]
      exact .array h
  | release name scope => exact .release name scope
  | releaseArray name scope size => exact .releaseArray name scope size
  | temporary => exact .temporary rfl
  | freeTemporary r => exact .free r

/-- An array that is granted has no registers yet. -/
def Request.Fresh (R : Registers) (q : Request) (answer : Option Nat) : Prop :=
  ∀ name scope size, q = .reserveArray name scope size → answer.isSome = true →
    ∀ i r, (⟨name, scope, some i⟩, r) ∉ R.reserved

section Performs

variable {R R' : Registers} {q : Request} {answer : Option Nat}

theorem Performs.sound (h : Performs R q answer R') (hs : R.Sound) : R'.Sound := by
  cases h with
  | scalar register => exact (leads_getOrReserve (fun _ => False) register).sound hs
  | array registers => exact (leads_reserveArray registers).sound hs
  | refused => exact hs
  | release name scope => exact (leads_release R name scope).sound hs
  | releaseArray name scope size => exact (leads_releaseArray R name scope size).sound hs
  | temporary register => exact (leads_temporary (fun _ => False) register).sound hs
  | free r => exact hs.free r

/-- **A slot keeps its register** until it is given back. -/
theorem Performs.keeps {slot : Slot} {r : Nat} (h : Performs R q answer R')
    (fresh : q.Fresh R answer) (hslot : R.reserved.lookup slot = some r) (hno : ¬ q.Releases slot) :
    R'.reserved.lookup slot = some r := by
  cases h with
  | scalar register => exact (leads_getOrReserve (fun _ => False) register).keeps slot r id hslot
  | @array name scope size base _ registers =>
    refine (leads_reserveArray registers).keeps slot r ?_ hslot
    obtain ⟨name', scope', element⟩ := slot
    rintro ⟨rfl, rfl, helement⟩
    obtain ⟨i, rfl⟩ := Option.ne_none_iff_exists'.mp helement
    exact fresh _ _ size rfl rfl i r (mem_of_lookup hslot)
  | refused => exact hslot
  | release name scope =>
    have hkept : (slot != ⟨name, scope, none⟩) = true := bne_iff_ne.mpr hno
    exact (lookup_filter_of_true (q := (· != ⟨name, scope, none⟩)) hkept).trans hslot
  | releaseArray name scope size =>
    have hkept : (!isElement name scope size slot) = true := by
      rw [Bool.not_eq_true', Bool.eq_false_iff]
      exact fun helement => hno (isElement_iff.mp helement)
    exact (lookup_filter_of_true (q := (!isElement name scope size ·)) hkept).trans hslot
  | temporary register => exact (leads_temporary (fun _ => False) register).keeps slot r id hslot
  | free => exact hslot

/-- A slot that is given back has no register. -/
theorem Performs.gone {slot : Slot} (h : Performs R q answer R') (hq : q.Releases slot) :
    R'.reserved.lookup slot = none := by
  cases h with
  | release name scope =>
    have hgone : (slot != ⟨name, scope, none⟩) = false := bne_eq_false_iff_eq.mpr hq
    exact lookup_filter_of_false (q := (· != (⟨name, scope, none⟩ : Slot))) hgone
  | releaseArray name scope size =>
    have hgone : (!isElement name scope size slot) = false := by
      rw [Bool.not_eq_false']
      exact isElement_iff.mpr hq
    exact lookup_filter_of_false (q := (!isElement name scope size ·)) hgone
  | scalar | array | refused | temporary | free => cases hq

theorem Performs.nodup (h : Performs R q answer R') (fresh : q.Fresh R answer)
    (hslots : (R.reserved.map (·.1)).Nodup) : (R'.reserved.map (·.1)).Nodup := by
  cases h with
  | scalar register => exact nodup_scalar register hslots
  | array registers => exact nodup_array registers hslots (fresh _ _ _ rfl rfl)
  | refused => exact hslots
  | release | releaseArray => exact hslots.sublist (List.filter_sublist.map _)
  | temporary register =>
    cases register
    exact hslots
  | free => exact hslots

/-- What is held at the end of an operation was held before, or was asked for. -/
theorem Performs.element {name : String} {scope : ScopeId} {i r : Nat} (h : Performs R q answer R')
    (hentry : (⟨name, scope, some i⟩, r) ∈ R'.reserved) :
    (∃ size, q = .reserveArray name scope size ∧ answer.isSome = true ∧ i < size) ∨
      (⟨name, scope, some i⟩, r) ∈ R.reserved ∧ ¬ q.Releases ⟨name, scope, some i⟩ := by
  cases h with
  | scalar register =>
    refine .inr ⟨?_, id⟩
    obtain ⟨-, rfl⟩ | ⟨-, rfl, rfl⟩ := getOrReserve_cases register
    · exact hentry
    · obtain hnew | hold := List.mem_cons.mp hentry
      · cases hnew
      · exact hold
  | @array name' scope' size base _ registers =>
    obtain ⟨-, -, rfl⟩ := reserveArray_some registers
    obtain hnew | hold := List.mem_append.mp hentry
    · obtain ⟨j, hj, hslot, -⟩ := mem_elementSlots.mp hnew
      cases hslot
      exact .inl ⟨size, rfl, rfl, hj⟩
    · exact .inr ⟨hold, id⟩
  | refused => exact .inr ⟨hentry, id⟩
  | release name' scope' =>
    obtain ⟨hold, -⟩ := List.mem_filter.mp hentry
    exact .inr ⟨hold, fun hslot => nomatch hslot⟩
  | releaseArray name' scope' size =>
    obtain ⟨hold, hkept⟩ := List.mem_filter.mp hentry
    refine .inr ⟨hold, fun hreleased => ?_⟩
    rw [isElement_iff.mpr hreleased] at hkept
    cases hkept
  | temporary register =>
    cases register
    exact .inr ⟨hentry, id⟩
  | free => exact .inr ⟨hentry, id⟩

/-! ### How high the registers go -/

theorem Performs.highest (h : Performs R q answer R') : R.highest ≤ R'.highest := by
  cases h with
  | scalar register => exact (leads_getOrReserve (fun _ => False) register).highest
  | array registers => exact (leads_reserveArray registers).highest
  | temporary register => exact (leads_temporary (fun _ => False) register).highest
  | refused | release | releaseArray | free => exact Nat.le_refl _

/-- An operation goes one register higher at most, but for arrays, which lie in the machine. -/
theorem Performs.highest_le (h : Performs R q answer R') (hs : R.Sound) :
    R'.highest ≤ max (R.highest + 1) Machine.maxRegisters := by
  have hnext := nextFree_le_iff.mpr hs.counted
  cases h with
  | scalar register =>
    obtain ⟨-, rfl⟩ | ⟨-, rfl, rfl⟩ := getOrReserve_cases register
    · omega
    · show max R.highest R.nextFree ≤ _
      omega
  | array registers =>
    have hle := reserveArray_le registers
    obtain ⟨-, -, rfl⟩ := reserveArray_some registers
    show max R.highest _ ≤ _
    omega
  | temporary register =>
    cases register
    show max R.highest R.nextFree ≤ _
    omega
  | refused => omega
  | release | releaseArray | free =>
    show R.highest ≤ _
    omega

end Performs

/-- **What an operation answers for**, given the registers in front of it and behind it. -/
structure Serves (R : Registers) (q : Request) (answer : Option Nat) (R' : Registers) : Prop where
  highest : R.highest ≤ R'.highest
  keeps : ∀ (slot : Slot) r, R.table.lookup slot.key = some r → ¬ q.Releases slot →
    R'.table.lookup slot.key = some r
  gone : ∀ slot : Slot, q.Releases slot → R'.table.lookup slot.key = none
  /-- The register that is answered for a scalar stands under its key. -/
  scalar : ∀ name scope, q = .getOrReserve name scope →
    ∃ r, answer = some r ∧ R'.table.lookup (Slot.key ⟨name, scope, none⟩) = some r
  /-- The elements of an array stand one behind the other, above all that was in use, and lie in the
  machine. -/
  array : ∀ name scope size base, q = .reserveArray name scope size → answer = some base →
    (∀ r ∈ R.held, r < base) ∧ ∀ i < size, base + i ≤ Machine.maxRegisters ∧
      R'.table.lookup (Slot.key ⟨name, scope, some i⟩) = some (base + i)
  refused : ∀ name scope size, q = .reserveArray name scope size → answer = none → R' = R

theorem Performs.serves {R R' : Registers} {q : Request} {answer : Option Nat}
    (h : Performs R q answer R') (fresh : q.Fresh R answer) : Serves R q answer R' where
  highest := h.highest
  keeps slot r hslot hno := by
    rw [lookup_table] at hslot ⊢
    exact h.keeps fresh hslot hno
  gone slot hq := by
    rw [lookup_table]
    exact h.gone hq
  scalar name scope hq := by
    subst hq
    cases h with
    | scalar register => exact ⟨_, rfl, (lookup_table _ _).trans (get?_getOrReserve register)⟩
  array name scope size base hq hanswer := by
    subst hq hanswer
    cases h with
    | array registers =>
      have hle := reserveArray_le registers
      refine ⟨fun r hr => ?_, fun i hi => ⟨by omega, ?_⟩⟩
      · rw [(reserveArray_some registers).1]
        exact lt_nextFree hr
      · rw [lookup_table]
        exact lookup_element registers hi
  refused name scope size hq hanswer := by
    subst hq hanswer
    cases h with
    | refused => rfl

/-! ### Rows of requests -/

/-- The operation is granted a register behind these. -/
def Granted (before : List Request) (q : Request) : Prop :=
  ((ofRequests before).perform q).1.isSome = true

/-- **No array is reserved twice**: between two reservations that are granted it is given back, with
the size that it has. -/
def Tidy (history : List Request) : Prop :=
  ∀ before between after name scope size size',
    history = before ++ .reserveArray name scope size ::
      (between ++ .reserveArray name scope size' :: after) →
    Granted before (.reserveArray name scope size) →
    Granted (before ++ .reserveArray name scope size :: between) (.reserveArray name scope size') →
    .releaseArray name scope size ∈ between

theorem Tidy.left {history after : List Request} (h : Tidy (history ++ after)) :
    Tidy history := by
  intro before between rest name scope size size' hhistory
  refine h before between (rest ++ after) name scope size size' ?_
  rw [hhistory]
  simp

/-- **An element that is held** belongs to an array that was granted, and was not given back with
its own size since. -/
theorem exists_reservation {name : String} {scope : ScopeId} {i r : Nat} {history : List Request}
    (hentry : (⟨name, scope, some i⟩, r) ∈ (ofRequests history).reserved) :
    ∃ before between size, history = before ++ .reserveArray name scope size :: between ∧
      Granted before (.reserveArray name scope size) ∧ i < size ∧
        .releaseArray name scope size ∉ between := by
  induction history using List.reverseRecOn with
  | nil => cases hentry
  | append_singleton history q ih =>
    rw [ofRequests_concat] at hentry
    obtain ⟨size, rfl, hanswer, hi⟩ | ⟨hold, hkept⟩ := (performs _ q).element hentry
    · exact ⟨history, [], size, rfl, hanswer, hi, List.not_mem_nil⟩
    · obtain ⟨before, between, size, rfl, hgranted, hi, hnot⟩ := ih hold
      refine ⟨before, between ++ [q], size, by simp, hgranted, hi, fun hmem => ?_⟩
      obtain hmem | hmem := List.mem_append.mp hmem
      · exact hnot hmem
      · cases List.mem_singleton.mp hmem
        exact hkept ⟨i, hi, rfl⟩

/-- In a tidy row, an array that is granted has no registers yet. -/
theorem Tidy.fresh {history : List Request} {q : Request} (h : Tidy (history ++ [q])) :
    q.Fresh (ofRequests history) ((ofRequests history).perform q).1 := by
  rintro name scope size' rfl hgranted i r hentry
  obtain ⟨before, between, size, rfl, hbefore, -, hnot⟩ := exists_reservation hentry
  exact hnot (h before between [] name scope size size' (by simp) hbefore hgranted)

/-- **The registers at any moment.** -/
structure Registers.InOrder (R : Registers) : Prop where
  /-- Nothing has two registers. -/
  keys : (R.table.map (·.1)).Nodup
  /-- No register is in use twice, by bindings or as a temporary. -/
  apart : R.held.Nodup
  bounds : ∀ r ∈ R.held, 1 ≤ r ∧ r ≤ R.highest

theorem Tidy.sound {history : List Request} (h : Tidy history) :
    (ofRequests history).Sound ∧ ((ofRequests history).reserved.map (·.1)).Nodup ∧
      (ofRequests history).highest ≤ Machine.maxRegisters + history.length := by
  induction history using List.reverseRecOn with
  | nil => exact ⟨sound_empty, List.nodup_nil, Nat.zero_le _⟩
  | append_singleton history q ih =>
    obtain ⟨hsound, hslots, hhighest⟩ := ih h.left
    have hperforms := performs (ofRequests history) q
    rw [ofRequests_concat]
    refine ⟨hperforms.sound hsound, hperforms.nodup h.fresh hslots, ?_⟩
    have hle := hperforms.highest_le hsound
    rw [List.length_append, List.length_singleton]
    omega

theorem Tidy.inOrder {history : List Request} (h : Tidy history) :
    (ofRequests history).InOrder := by
  obtain ⟨hsound, hslots, -⟩ := h.sound
  exact ⟨nodup_keys_iff.mpr hslots, hsound.nodup,
    fun r hr => ⟨hsound.positive r hr, hsound.counted r hr⟩⟩

theorem highest_mono (before after : List Request) :
    (ofRequests before).highest ≤ (ofRequests (before ++ after)).highest := by
  induction after using List.reverseRecOn with
  | nil => rw [List.append_nil]
  | append_singleton after q ih =>
    rw [← List.append_assoc, ofRequests_concat]
    exact Nat.le_trans ih (performs _ q).highest

theorem Tidy.keeps {before after : List Request} (h : Tidy (before ++ after)) {slot : Slot}
    {r : Nat} (hslot : (ofRequests before).table.lookup slot.key = some r)
    (hno : ∀ q ∈ after, ¬ q.Releases slot) :
    (ofRequests (before ++ after)).table.lookup slot.key = some r := by
  induction after using List.reverseRecOn with
  | nil => rwa [List.append_nil]
  | append_singleton after q ih =>
    rw [← List.append_assoc] at h ⊢
    rw [ofRequests_concat]
    have hbefore := ih h.left fun q hq => hno q (List.mem_append_left _ hq)
    exact ((performs _ q).serves h.fresh).keeps slot r hbefore
      (hno q (List.mem_append_right _ (List.mem_singleton_self q)))

/-- **What holds at a moment**, given the requests until then and those to come. -/
structure Managed (before after : List Request) : Prop where
  order : (ofRequests before).InOrder
  /-- The numbers of registers are words. -/
  words : (ofRequests before).highest < 2 ^ 32
  highest : (ofRequests before).highest ≤ (ofRequests (before ++ after)).highest
  /-- What is not given back keeps its register. -/
  keeps : ∀ (slot : Slot) r, (ofRequests before).table.lookup slot.key = some r →
    (∀ q ∈ after, ¬ q.Releases slot) →
    (ofRequests (before ++ after)).table.lookup slot.key = some r
  /-- The request that comes next is served. -/
  serves : ∀ q rest, after = q :: rest → Serves (ofRequests before) q
    ((ofRequests before).perform q).1 ((ofRequests before).perform q).2

/-- **Registers are managed**, whatever is asked for under whatever names, as long as no array is
reserved twice: no two slots share a key, no two holders a register, and what is held is kept. -/
theorem requests_managed {before after : List Request} (tidy : Tidy (before ++ after))
    (short : (before ++ after).length < 2 ^ 31) :
    Function.Injective Slot.key ∧ Managed before after := by
  refine ⟨Slot.key_injective, tidy.left.inOrder, ?_, highest_mono before after,
    fun slot r hslot hno => tidy.keeps hslot hno, ?_⟩
  · obtain ⟨-, -, hhighest⟩ := tidy.left.sound
    have hmax : Machine.maxRegisters = 65536 := rfl
    rw [List.length_append] at short
    omega
  · rintro q rest rfl
    have hnext : before ++ q :: rest = before ++ [q] ++ rest := by simp
    rw [hnext] at tidy
    exact (performs _ q).serves tidy.left.fresh

/-- An array, and names that look like the keys of its elements. -/
def lookalikes : List Request :=
  [.reserveArray "a" 0 2, .getOrReserve "a@0[1]" 0, .temporary, .getOrReserve "a" 0]

/-- The array grows, above what was reserved in the meantime. -/
theorem lookalikes_managed :
    let growing : List Request := [.releaseArray "a" 0 2, .reserveArray "a" 0 3]
    Tidy (lookalikes ++ growing) ∧ (lookalikes ++ growing).length < 2 ^ 31 ∧
      (ofRequests lookalikes).table =
        [("a@0", 5), ("a@0[1]@0", 3), ("a@0[1]", 2), ("a@0[0]", 1)] ∧
      (ofRequests (lookalikes ++ growing)).highest = 8 ∧
      Function.Injective Slot.key ∧ Managed lookalikes growing := by
  intro growing
  have tidy : Tidy (lookalikes ++ growing) := by
    intro before between after name scope size size' h _ _
    simp only [lookalikes, growing, List.cons_append, List.nil_append, List.cons_eq_append_iff,
      List.cons.injEq, Request.reserveArray.injEq, reduceCtorEq, false_and, and_false,
      List.append_eq_nil_iff, List.nil_eq, exists_const, or_self, or_false] at h
    obtain ⟨rfl, ⟨rfl, rfl, rfl⟩, hbetween⟩ := h
    have hsecond : between = [.getOrReserve "a@0[1]" 0, .temporary, .getOrReserve "a" 0,
        .releaseArray "a" 0 2] ∧ size' = 3 ∧ after = [] := by
      simpa [List.cons_eq_append_iff] using hbetween.symm
    rw [hsecond.1]
    decide
  exact ⟨tidy, by decide, by decide, by decide, requests_managed tidy (by decide)⟩

end RegisterMachine.Structured
