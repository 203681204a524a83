import Mathlib.Data.List.Nodup
import RegisterMachine.Structured.Emission.Registers

/-! # Registers that are held belong to one holder

No register is handed out while it is held, so different slots have different registers, and none of
them is a temporary. What one part of a program does to the registers is a step `Leads`: it may
change the slots that it touches, leaves some temporaries behind, and keeps everything else.

* `Registers.Sound`: the invariant.
* `Leads`: a step, with its composition (`trans`) and the way in which a temporary is given back
  (`free`).
* `leads_getOrReserve`, `leads_reserveArray`, `leads_temporary`, `leads_release`: the steps. -/

namespace RegisterMachine.Structured

/-! ### Looking up in a row of entries -/

section Lookup

variable {α β : Type} [BEq α] [LawfulBEq α] {l : List (α × β)} {k : α} {v : β}

theorem mem_of_lookup (h : l.lookup k = some v) : (k, v) ∈ l := by
  obtain ⟨l₁, l₂, rfl, -⟩ := List.lookup_eq_some_iff.mp h
  exact List.mem_append_right _ List.mem_cons_self

theorem lookup_of_mem (h : (k, v) ∈ l) (unique : ∀ w, (k, w) ∈ l → w = v) :
    l.lookup k = some v := by
  have hsome : (l.lookup k).isSome = true := List.lookup_isSome_iff.mpr ⟨(k, v), h, by simp⟩
  obtain ⟨w, hw⟩ := Option.isSome_iff_exists.mp hsome
  rw [hw, unique w (mem_of_lookup hw)]

theorem lookup_filter_of_true {q : α → Bool} (hq : q k = true) :
    (l.filter fun entry => q entry.1).lookup k = l.lookup k := by
  induction l with
  | nil => rfl
  | cons entry l ih =>
    obtain ⟨k', v'⟩ := entry
    by_cases hk : k = k'
    · subst hk
      rw [List.filter_cons_of_pos (by exact hq)]
      simp
    · have hne : (k == k') = false := by simpa using hk
      rw [List.filter_cons]
      split <;> simp [List.lookup_cons, hne, ih]

theorem lookup_filter_of_false {q : α → Bool} (hq : q k = false) :
    (l.filter fun entry => q entry.1).lookup k = none := by
  rw [List.lookup_eq_none_iff]
  intro entry hentry
  obtain ⟨-, hkept⟩ := List.mem_filter.mp hentry
  refine bne_iff_ne.mpr ?_
  rintro rfl
  rw [hq] at hkept
  cases hkept

end Lookup

namespace Registers

/-- **No register has two holders**, and every register that is held was counted. Scalars stand in
the table of symbols with their registers. -/
structure Sound (R : Registers) : Prop where
  nodup : R.held.Nodup
  positive : ∀ r ∈ R.held, 1 ≤ r
  counted : ∀ r ∈ R.held, r ≤ R.highest
  recorded : ∀ name scope r,
    (⟨name, scope, none⟩, r) ∈ R.reserved → ⟨name, scope, r, 1⟩ ∈ R.symbols

theorem sound_empty : Sound {} :=
  ⟨List.nodup_nil, (fun _ h => nomatch h), (fun _ h => nomatch h), (fun _ _ _ h => nomatch h)⟩

section Sound

variable {R : Registers} {slot slot' : Slot} {r : Nat}

theorem mem_held_of_lookup (h : R.reserved.lookup slot = some r) : r ∈ R.held :=
  List.mem_append_left _ (List.mem_map.mpr ⟨_, mem_of_lookup h, rfl⟩)

theorem mem_held_of_temporary (h : r ∈ R.temporaries) : r ∈ R.held := List.mem_append_right _ h

/-- Two slots with one register are one slot. -/
theorem Sound.slot_eq (h : R.Sound) (h₁ : R.reserved.lookup slot = some r)
    (h₂ : R.reserved.lookup slot' = some r) : slot = slot' := by
  have hnodup : (R.reserved.map (·.2)).Nodup := (List.nodup_append.mp h.nodup).1
  have hpair := List.inj_on_of_nodup_map hnodup (mem_of_lookup h₁) (mem_of_lookup h₂) rfl
  exact congrArg Prod.fst hpair

/-- The register of a slot is no temporary. -/
theorem Sound.not_temporary (h : R.Sound) (hs : R.reserved.lookup slot = some r) :
    r ∉ R.temporaries := by
  intro ht
  have hr : r ∈ R.reserved.map (·.2) := List.mem_map.mpr ⟨_, mem_of_lookup hs, rfl⟩
  exact (List.nodup_append.mp h.nodup).2.2 r hr r ht rfl

theorem Sound.free (h : R.Sound) (r : Nat) : (R.freeTemporary r).Sound := by
  obtain ⟨nodup, positive, counted, recorded⟩ := h
  have hsub : (R.freeTemporary r).held.Sublist R.held :=
    (List.Sublist.refl _).append List.erase_sublist
  exact ⟨nodup.sublist hsub, fun x hx => positive x (hsub.subset hx),
    fun x hx => counted x (hsub.subset hx), recorded⟩

theorem Sound.pos (h : R.Sound) (hs : R.reserved.lookup slot = some r) : 1 ≤ r :=
  h.positive r (mem_held_of_lookup hs)

end Sound

/-! ### The register above all that are held -/

theorem foldl_max_le_iff {l : List Nat} {m bound : Nat} :
    l.foldl max m ≤ bound ↔ m ≤ bound ∧ ∀ r ∈ l, r ≤ bound := by
  induction l generalizing m with
  | nil => simp
  | cons a l ih => rw [List.foldl_cons, ih, Nat.max_le, List.forall_mem_cons, and_assoc]

theorem nextFree_le_iff {R : Registers} {bound : Nat} :
    R.nextFree ≤ bound + 1 ↔ ∀ r ∈ R.held, r ≤ bound := by
  have hreserved : R.reserved.foldl (fun m entry => max m entry.2) 0 =
      (R.reserved.map (·.2)).foldl max 0 := List.foldl_map.symm
  rw [nextFree, hreserved, Nat.add_le_add_iff_right, foldl_max_le_iff, foldl_max_le_iff, held,
    List.forall_mem_append]
  simp

theorem lt_nextFree {R : Registers} {r : Nat} (h : r ∈ R.held) : r < R.nextFree :=
  Nat.lt_succ_of_le (nextFree_le_iff.mp (Nat.le_refl R.nextFree) r h)

theorem nextFree_not_mem (R : Registers) : R.nextFree ∉ R.held :=
  fun h => Nat.lt_irrefl _ (lt_nextFree h)

theorem nextFree_pos (R : Registers) : 1 ≤ R.nextFree := Nat.succ_pos _

end Registers

/-! ### Steps -/

/-- **What a part of a program does to the registers**: it may change the slots that it touches, and
leaves these temporaries behind. -/
structure Leads (touched : Slot → Prop) (added : List Nat) (R R' : Registers) : Prop where
  sound : R.Sound → R'.Sound
  highest : R.highest ≤ R'.highest
  temporaries : R'.temporaries = added ++ R.temporaries
  keeps : ∀ slot r, ¬ touched slot → R.reserved.lookup slot = some r →
    R'.reserved.lookup slot = some r
  symbols : ∀ y ∈ R.symbols, y ∈ R'.symbols

namespace Leads

variable {touched touched' : Slot → Prop} {added added' : List Nat} {R R₁ R' : Registers}

theorem refl (touched : Slot → Prop) (R : Registers) : Leads touched [] R R :=
  ⟨id, Nat.le_refl _, rfl, fun _ _ _ h => h, fun _ h => h⟩

theorem trans (h : Leads touched added R R₁) (h' : Leads touched added' R₁ R') :
    Leads touched (added' ++ added) R R' where
  sound hs := h'.sound (h.sound hs)
  highest := Nat.le_trans h.highest h'.highest
  temporaries := by rw [h'.temporaries, h.temporaries, List.append_assoc]
  keeps slot r ht hl := h'.keeps slot r ht (h.keeps slot r ht hl)
  symbols y hy := h'.symbols y (h.symbols y hy)

theorem mono (h : Leads touched added R R') (ht : ∀ slot, touched slot → touched' slot) :
    Leads touched' added R R' :=
  { h with keeps := fun slot r hn hl => h.keeps slot r (fun hs => hn (ht slot hs)) hl }

/-- The latest temporary is given back. -/
theorem free {r : Nat} (h : Leads touched (r :: added) R R') :
    Leads touched added R (R'.freeTemporary r) where
  sound hs := (h.sound hs).free r
  highest := h.highest
  temporaries := by
    show R'.temporaries.erase r = added ++ R.temporaries
    rw [h.temporaries, List.cons_append, List.erase_cons_head]
  keeps := h.keeps
  symbols := h.symbols

/-- All temporaries are given back, the latest first. -/
theorem freeAll {rs : List Nat} (h : Leads touched rs R R') :
    Leads touched [] R (rs.foldl Registers.freeTemporary R') := by
  induction rs generalizing R' with
  | nil => exact h
  | cons r rs ih => exact ih h.free

end Leads

namespace Registers

/-! ### The steps of single registers -/

section Steps

variable {R R' : Registers} {name : String} {scope : ScopeId} {r : Nat}

/-- A register is reserved for a slot that has none. -/
theorem sound_reserve {slot : Slot} {y : Symbol} (h : R.Sound)
    (hy : slot.element = none → y = ⟨slot.name, slot.scope, R.nextFree, 1⟩) :
    Sound { R with
      reserved := (slot, R.nextFree) :: R.reserved
      symbols := R.symbols.push y
      highest := max R.highest R.nextFree } where
  nodup := List.nodup_cons.mpr ⟨R.nextFree_not_mem, h.nodup⟩
  positive x hx := by
    rcases List.mem_cons.mp hx with rfl | hx
    · exact R.nextFree_pos
    · exact h.positive x hx
  counted x hx := by
    rcases List.mem_cons.mp hx with rfl | hx
    · exact Nat.le_max_right _ _
    · exact Nat.le_trans (h.counted x hx) (Nat.le_max_left _ _)
  recorded name scope x hx := by
    rcases List.mem_cons.mp hx with hx | hx
    · cases hx
      rw [hy rfl]
      exact Array.mem_push_self
    · exact Array.mem_push_of_mem _ (h.recorded name scope x hx)

theorem getOrReserve_cases (h : R.getOrReserve name scope = (r, R')) :
    (R.get? name scope = some r ∧ R' = R) ∨
    (R.get? name scope = none ∧ r = R.nextFree ∧ R' = { R with
      reserved := (⟨name, scope, none⟩, r) :: R.reserved
      symbols := R.symbols.push ⟨name, scope, r, 1⟩
      highest := max R.highest r }) := by
  unfold getOrReserve at h
  split at h
  · rename_i hget
    cases h
    exact .inl ⟨hget, rfl⟩
  · rename_i hget
    cases h
    exact .inr ⟨hget, rfl, rfl⟩

theorem leads_getOrReserve (touched : Slot → Prop) (h : R.getOrReserve name scope = (r, R')) :
    Leads touched [] R R' := by
  obtain ⟨-, rfl⟩ | ⟨hnone, rfl, rfl⟩ := getOrReserve_cases h
  · exact Leads.refl touched R'
  · refine ⟨fun hs => sound_reserve hs fun _ => rfl, Nat.le_max_left _ _, rfl, ?_, ?_⟩
    · intro slot r _ hl
      have hne : slot ≠ ⟨name, scope, none⟩ := by
        rintro rfl
        rw [get?, hl] at hnone
        cases hnone
      rw [List.lookup_cons, beq_false_of_ne hne]
      exact hl
    · exact fun y hy => Array.mem_push_of_mem _ hy

/-- The scalar has the register that is handed out. -/
theorem get?_getOrReserve (h : R.getOrReserve name scope = (r, R')) :
    R'.get? name scope = some r := by
  obtain ⟨hget, rfl⟩ | ⟨-, rfl, rfl⟩ := getOrReserve_cases h
  · exact hget
  · exact List.lookup_cons_self

theorem leads_temporary (touched : Slot → Prop) (h : R.temporary = (r, R')) :
    Leads touched [r] R R' := by
  cases h
  refine ⟨fun hs => ⟨?_, ?_, ?_, hs.recorded⟩, Nat.le_max_left _ _, rfl,
    fun _ _ _ hl => hl, fun _ hy => hy⟩
  · have hperm : (R.reserved.map (·.2) ++ R.nextFree :: R.temporaries).Perm
        (R.nextFree :: R.held) := List.perm_middle
    exact hperm.nodup_iff.mpr (List.nodup_cons.mpr ⟨R.nextFree_not_mem, hs.nodup⟩)
  · intro x hx
    rcases List.mem_cons.mp (List.perm_middle.mem_iff.mp hx) with rfl | hx
    · exact R.nextFree_pos
    · exact hs.positive x hx
  · intro x hx
    rcases List.mem_cons.mp (List.perm_middle.mem_iff.mp hx) with rfl | hx
    · exact Nat.le_max_right _ _
    · exact Nat.le_trans (hs.counted x hx) (Nat.le_max_left _ _)

/-- A new temporary is held by nobody else. -/
theorem temporary_fresh (h : R.temporary = (r, R')) : r ∉ R.held ∧ 1 ≤ r := by
  cases h
  exact ⟨R.nextFree_not_mem, R.nextFree_pos⟩

/-! ### Giving registers back -/

/-- The slots that are not kept are given back. -/
theorem leads_filter {touched : Slot → Prop} (keep : Slot → Bool)
    (ht : ∀ slot, keep slot = false → touched slot) (R : Registers) :
    Leads touched [] R { R with reserved := R.reserved.filter fun entry => keep entry.1 } := by
  refine ⟨fun hs => ?_, Nat.le_refl _, rfl, ?_, fun _ hy => hy⟩
  · have hsub : (R.reserved.filter fun entry => keep entry.1).Sublist R.reserved :=
      List.filter_sublist
    have hheld := (hsub.map (·.2)).append (List.Sublist.refl R.temporaries)
    exact ⟨hs.nodup.sublist hheld, fun x hx => hs.positive x (hheld.subset hx),
      fun x hx => hs.counted x (hheld.subset hx),
      fun name scope x hx => hs.recorded name scope x (hsub.subset hx)⟩
  · intro slot r hn hl
    have hkeep : keep slot = true := by
      by_contra hk
      exact hn (ht slot (by simpa using hk))
    exact (lookup_filter_of_true hkeep).trans hl

theorem leads_release (R : Registers) (name : String) (scope : ScopeId) :
    Leads (fun slot => slot.scope = scope) [] R (R.release name scope) := by
  refine leads_filter (· != ⟨name, scope, none⟩) (fun slot hk => ?_) R
  rw [bne_eq_false_iff_eq.mp hk]

theorem isElement_iff {size : Nat} {slot : Slot} :
    isElement name scope size slot = true ↔ ∃ i < size, slot = ⟨name, scope, some i⟩ := by
  obtain ⟨name', scope', _ | i⟩ := slot
  · simp [isElement]
  · simp only [isElement, Bool.and_eq_true, decide_eq_true_eq, beq_iff_eq, Slot.mk.injEq,
      Option.some.injEq]
    constructor
    · rintro ⟨⟨hi, rfl⟩, rfl⟩
      exact ⟨i, hi, rfl, rfl, rfl⟩
    · rintro ⟨_, hi, rfl, rfl, rfl⟩
      exact ⟨⟨hi, rfl⟩, rfl⟩

theorem leads_releaseArray (R : Registers) (name : String) (scope : ScopeId) (size : Nat) :
    Leads (fun slot => slot.scope = scope) [] R (R.releaseArray name scope size) := by
  refine leads_filter (!isElement name scope size ·) (fun slot hk => ?_) R
  obtain ⟨i, -, hslot⟩ := isElement_iff.mp (by simpa using hk)
  exact congrArg Slot.scope hslot

theorem leads_foldl {α : Type} {touched : Slot → Prop} {f : Registers → α → Registers}
    (hf : ∀ R a, Leads touched [] R (f R a)) (l : List α) (R : Registers) :
    Leads touched [] R (l.foldl f R) := by
  induction l generalizing R with
  | nil => exact Leads.refl touched R
  | cons a l ih => exact (hf R a).trans (ih (f R a))

/-! ### The registers of an array -/

theorem mem_elementSlots {base size x : Nat} {slot : Slot} :
    (slot, x) ∈ elementSlots name scope base size ↔
      ∃ i < size, slot = ⟨name, scope, some i⟩ ∧ x = base + i := by
  simp only [elementSlots, List.mem_reverse, List.mem_map, List.mem_range, Prod.mk.injEq]
  exact ⟨fun ⟨i, hi, h₁, h₂⟩ => ⟨i, hi, h₁.symm, h₂.symm⟩,
    fun ⟨i, hi, h₁, h₂⟩ => ⟨i, hi, h₁.symm, h₂.symm⟩⟩

theorem reserveArray_some {size base : Nat}
    (h : R.reserveArray? name scope size = some (base, R')) :
    base = R.nextFree ∧ 0 < size ∧ R' = { R with
      reserved := elementSlots name scope base size ++ R.reserved
      symbols := R.symbols.push ⟨name, scope, base, size⟩
      highest := max R.highest (base + size - 1) } := by
  unfold reserveArray? at h
  dsimp only at h
  split at h
  · cases h
  · rename_i hfit
    cases h
    exact ⟨rfl, by omega, rfl⟩

theorem lookup_element {size base i : Nat}
    (h : R.reserveArray? name scope size = some (base, R')) (hi : i < size) :
    R'.reserved.lookup ⟨name, scope, some i⟩ = some (base + i) := by
  obtain ⟨-, -, rfl⟩ := reserveArray_some h
  have hfirst : (elementSlots name scope base size).lookup ⟨name, scope, some i⟩ =
      some (base + i) := by
    refine lookup_of_mem (mem_elementSlots.mpr ⟨i, hi, rfl, rfl⟩) fun x hx => ?_
    obtain ⟨j, -, hslot, rfl⟩ := mem_elementSlots.mp hx
    cases hslot
    rfl
  show List.lookup _ (elementSlots name scope base size ++ R.reserved) = _
  rw [List.lookup_append, hfirst]
  rfl

theorem leads_reserveArray {size base : Nat}
    (h : R.reserveArray? name scope size = some (base, R')) :
    Leads (fun slot => slot.name = name ∧ slot.scope = scope ∧ slot.element ≠ none) [] R R' := by
  obtain ⟨hbase, hsize, rfl⟩ := reserveArray_some h
  refine ⟨fun hs => ⟨?_, ?_, ?_, ?_⟩, Nat.le_max_left _ _, rfl, ?_, ?_⟩
  · have hregs : (elementSlots name scope base size).map (·.2) =
        ((List.range size).map (base + ·)).reverse := by
      simp only [elementSlots, List.map_reverse, List.map_map]
      rfl
    show ((elementSlots name scope base size ++ R.reserved).map (·.2) ++ R.temporaries).Nodup
    rw [List.map_append, List.append_assoc, hregs, List.nodup_append]
    refine ⟨?_, hs.nodup, ?_⟩
    · rw [List.nodup_reverse]
      exact List.nodup_range.map fun a b hab => Nat.add_left_cancel hab
    · intro a ha b hb hab
      have hlt := lt_nextFree (R := R) hb
      simp only [List.mem_reverse, List.mem_map] at ha
      obtain ⟨i, -, rfl⟩ := ha
      omega
  · intro x hx
    simp only [held, List.map_append, List.append_assoc, List.mem_append, List.mem_map] at hx
    rcases hx with ⟨⟨slot, y⟩, hmem, rfl⟩ | hx
    · obtain ⟨i, -, -, rfl⟩ := mem_elementSlots.mp hmem
      have := R.nextFree_pos
      show 1 ≤ base + i
      omega
    · exact hs.positive x (by simpa [held] using hx)
  · intro x hx
    simp only [held, List.map_append, List.append_assoc, List.mem_append, List.mem_map] at hx
    show x ≤ max R.highest (base + size - 1)
    rcases hx with ⟨⟨slot, y⟩, hmem, rfl⟩ | hx
    · obtain ⟨i, hi, -, rfl⟩ := mem_elementSlots.mp hmem
      show base + i ≤ _
      omega
    · have := hs.counted x (by simpa [held] using hx)
      omega
  · intro name' scope' x hx
    rcases List.mem_append.mp hx with hx | hx
    · obtain ⟨i, -, hslot, -⟩ := mem_elementSlots.mp hx
      cases hslot
    · exact Array.mem_push_of_mem _ (hs.recorded name' scope' x hx)
  · intro slot r hn hl
    have hnone : (elementSlots name scope base size).lookup slot = none := by
      by_contra hsome
      obtain ⟨x, hx⟩ := Option.ne_none_iff_exists'.mp hsome
      obtain ⟨i, -, rfl, -⟩ := mem_elementSlots.mp (mem_of_lookup hx)
      exact hn ⟨rfl, rfl, Option.some_ne_none i⟩
    show List.lookup _ (elementSlots name scope base size ++ R.reserved) = _
    rw [List.lookup_append, hnone]
    exact hl
  · exact fun y hy => Array.mem_push_of_mem _ hy

end Steps

end Registers

end RegisterMachine.Structured
