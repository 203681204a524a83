import RegisterMachine.Proofs.Structured.Holding
import RegisterMachine.Proofs.Structured.Running

/-! # Where the bindings are

While a program runs, a layout says in which registers the bindings are that have been declared.
They are among those that are reserved at this place of the code, where others may be reserved as
well: a name can have a register before it is declared.

* `Lays R L`: the registers of the layout are reserved.
* `Holds size L σ bank`: the bank holds the store in these registers. `Holds.set`, `Holds.erase` and
  `Holds.bind` follow changes of the store; registers outside of the layout may change as they like.
* `Passed`: values are in the registers of parameters.
* `Kept`: registers that hold intermediate values. -/

namespace RegisterMachine.Structured

open RegisterMachine.Machine

/-! ### Places and layouts -/

/-- Where a binding has its contents. -/
inductive Place
  | scalar (register : Nat)
  | array (base size : Nat)

namespace Place

/-- The register belongs to the place. -/
def Has : Place → Nat → Prop
  | scalar r, x => x = r
  | array base size, x => base ≤ x ∧ x < base + size

/-- The bank has this contents in the place. -/
def Shows (bank : Bank) : Place → Cell → Prop
  | scalar r, .scalar v => bank.read? r = some v
  | array base size, .array values =>
    values.length = size ∧ ∀ i < size, bank.read? (base + i) = values[i]?
  | _, _ => False

/-- **The place is reserved for the binding.** -/
def Reserved (R : Registers) (b : Binding) : Place → Prop
  | scalar r => R.get? b.name b.scope = some r
  | array base size => 0 < size ∧ ⟨b.name, b.scope, base, size⟩ ∈ R.symbols ∧
    ∀ i < size, R.reserved.lookup ⟨b.name, b.scope, some i⟩ = some (base + i)

variable {p : Place} {b : Binding} {c : Cell} {R R' : Registers} {bank bank' : Bank} {x : Nat}

theorem Shows.congr (h : p.Shows bank c) (hread : ∀ x, p.Has x → bank'.read? x = bank.read? x) :
    p.Shows bank' c := by
  cases p with
  | scalar r =>
    cases c with
    | scalar v => exact (hread r rfl).trans h
    | array values => cases h
  | array base size =>
    cases c with
    | scalar v => cases h
    | array values =>
      exact ⟨h.1, fun i hi => (hread _ ⟨by omega, by omega⟩).trans (h.2 i hi)⟩

/-- A register of the place is that of a slot of the binding. -/
theorem Reserved.exists_slot (h : p.Reserved R b) (hx : p.Has x) :
    ∃ element, R.reserved.lookup ⟨b.name, b.scope, element⟩ = some x := by
  cases p with
  | scalar r =>
    cases hx
    exact ⟨none, h⟩
  | array base size =>
    obtain ⟨hle, hlt⟩ := hx
    refine ⟨some (x - base), ?_⟩
    rw [h.2.2 (x - base) (by omega)]
    congr 1
    omega

theorem Reserved.leads {touched : Slot → Prop} {added : List Nat} (h : p.Reserved R b)
    (hleads : Leads touched added R R') (hnot : ∀ element, ¬ touched ⟨b.name, b.scope, element⟩) :
    p.Reserved R' b := by
  cases p with
  | scalar r => exact hleads.keeps _ r (hnot none) h
  | array base size =>
    exact ⟨h.1, hleads.symbols _ h.2.1, fun i hi => hleads.keeps _ _ (hnot _) (h.2.2 i hi)⟩

end Place

/-- **Where the bindings are.** -/
abbrev Layout := Binding → Option Place

namespace Layout

def empty : Layout := fun _ => none

/-- The layout with another place of one binding. -/
def set (L : Layout) (b : Binding) (p : Place) : Layout := fun b' => if b' = b then some p else L b'

/-- The layout with the parameters of a scope, wherever these have registers. -/
def enter (L : Layout) (R : Registers) (parameters : ScopeId) : Layout := fun b =>
  if b.scope = parameters then (R.get? b.name parameters).map .scalar else L b

theorem set_self (L : Layout) (b : Binding) (p : Place) : L.set b p b = some p := if_pos rfl

theorem set_of_ne {L : Layout} {b b' : Binding} (p : Place) (h : b' ≠ b) : L.set b p b' = L b' :=
  if_neg h

/-- A binding that has this place already. -/
theorem set_eq_self {L : Layout} {b : Binding} {p : Place} (h : L b = some p) : L.set b p = L := by
  funext b'
  by_cases hb : b' = b
  · rw [hb, set_self, h]
  · exact set_of_ne p hb

end Layout

/-- **The places are reserved** for their bindings. -/
def Lays (R : Registers) (L : Layout) : Prop := ∀ b p, L b = some p → p.Reserved R b

/-- Only bindings of these scopes have places. -/
def Known (active : List ScopeId) (L : Layout) : Prop := ∀ b p, L b = some p → b.scope ∈ active

/-- The register belongs to no binding. -/
def Avoids (L : Layout) (x : Nat) : Prop := ∀ b p, L b = some p → ¬ p.Has x

section Lays

variable {R R' : Registers} {L : Layout} {b : Binding} {p : Place} {x : Nat}
  {active : List ScopeId}

theorem Known.mono {active' : List ScopeId} (h : Known active L)
    (hsub : ∀ s ∈ active, s ∈ active') : Known active' L :=
  fun b p hb => hsub b.scope (h b p hb)

theorem Known.enter {parameters : ScopeId} (h : Known active L) :
    Known (parameters :: active) (L.enter R parameters) := by
  intro b p hb
  by_cases hscope : b.scope = parameters
  · exact List.mem_cons.mpr (.inl hscope)
  · rw [Layout.enter, if_neg hscope] at hb
    exact List.mem_cons_of_mem _ (h b p hb)

theorem Lays.held (h : Lays R L) (hb : L b = some p) (hx : p.Has x) : x ∈ R.held := by
  obtain ⟨element, hslot⟩ := (h b p hb).exists_slot hx
  exact Registers.mem_held_of_lookup hslot

theorem Lays.avoids (h : Lays R L) (hx : x ∉ R.held) : Avoids L x :=
  fun _ _ hb hhas => hx (h.held hb hhas)

/-- No binding is in the accumulator. -/
theorem Lays.avoids_zero (h : Lays R L) (hs : R.Sound) : Avoids L 0 :=
  h.avoids fun hzero => nomatch hs.positive 0 hzero

theorem Lays.avoids_temporary (h : Lays R L) (hs : R.Sound) (hx : x ∈ R.temporaries) :
    Avoids L x := by
  intro b p hb hhas
  obtain ⟨element, hslot⟩ := (h b p hb).exists_slot hhas
  exact hs.not_temporary hslot hx

/-- A register that is reserved belongs to no other binding. -/
theorem Lays.eq_of_lookup {slot : Slot} (h : Lays R L) (hs : R.Sound)
    (hslot : R.reserved.lookup slot = some x) (hb : L b = some p) (hx : p.Has x) :
    b = ⟨slot.name, slot.scope⟩ := by
  obtain ⟨element, hslot'⟩ := (h b p hb).exists_slot hx
  obtain rfl := hs.slot_eq hslot hslot'
  rfl

/-- Different bindings have different registers. -/
theorem Lays.eq_of_has {b' : Binding} {p' : Place} (h : Lays R L) (hs : R.Sound)
    (hb : L b = some p) (hx : p.Has x) (hb' : L b' = some p') (hx' : p'.Has x) : b = b' := by
  obtain ⟨element, hslot⟩ := (h b' p' hb').exists_slot hx'
  exact h.eq_of_lookup hs hslot hb hx

/-- A step that touches no slot of the layout. -/
theorem Lays.leads {touched : Slot → Prop} {added : List Nat} (h : Lays R L)
    (hleads : Leads touched added R R')
    (hnot : ∀ b p element, L b = some p → ¬ touched ⟨b.name, b.scope, element⟩) : Lays R' L :=
  fun b p hb => (h b p hb).leads hleads fun element => hnot b p element hb

/-- A step that touches nothing. -/
theorem Lays.grow {added : List Nat} (h : Lays R L) (hleads : Leads (fun _ => False) added R R') :
    Lays R' L := h.leads hleads fun _ _ _ _ hfalse => hfalse

/-- **A part that leaves the active scopes alone** leaves the layout. -/
theorem Lays.emits {t : Tree} {d : Nat} {a : Surroundings} {task : Task} {n n' : Nat} {code : Code}
    (h : Lays R L) (known : Known active L) (apart : Apart t active task)
    (home : task.home? = none) (hemits : Emits t d a task R n code R' n') : Lays R' L := by
  refine h.leads hemits.leads fun b p element hb hchanges => ?_
  rcases hchanges with htouches | hhome
  · exact apart.away b.scope htouches (known b p hb)
  · rw [home] at hhome
    cases hhome

/-- A binding has a new place, in a step that touches no slot of another. -/
theorem Lays.set {touched : Slot → Prop} {added : List Nat} (h : Lays R L)
    (hleads : Leads touched added R R')
    (htouched : ∀ slot, touched slot → slot.name = b.name ∧ slot.scope = b.scope)
    (hp : p.Reserved R' b) : Lays R' (L.set b p) := by
  intro b' p' hb'
  by_cases hb : b' = b
  · rw [hb, Layout.set_self] at hb'
    cases hb'
    rwa [hb]
  · rw [Layout.set_of_ne p hb] at hb'
    refine (h b' p' hb').leads hleads fun element ht => hb ?_
    obtain ⟨hname, hscope⟩ := htouched _ ht
    cases b'
    cases b
    simp_all

theorem Lays.enter (h : Lays R L) (parameters : ScopeId) : Lays R (L.enter R parameters) := by
  intro b p hb
  by_cases hscope : b.scope = parameters
  · rw [Layout.enter, if_pos hscope, Option.map_eq_some_iff] at hb
    obtain ⟨r, hr, rfl⟩ := hb
    rw [← hscope] at hr
    exact hr
  · rw [Layout.enter, if_neg hscope] at hb
    exact h b p hb

end Lays

/-! ### The store in the bank -/

/-- **The bank holds the store.** -/
structure Holds (size : Nat) (L : Layout) (σ : Store) (bank : Bank) : Prop where
  size : bank.size = size
  cell : ∀ b c, σ b = some c → ∃ p, L b = some p ∧ p.Shows bank c

section Holds

variable {size x r : Nat} {L L' : Layout} {σ : Store} {bank bank' : Bank} {b : Binding} {p : Place}
  {c : Cell} {v : UInt32} {R : Registers}

theorem holds_empty (bank : Bank) : Holds bank.size Layout.empty Store.empty bank :=
  ⟨rfl, fun _ _ h => nomatch h⟩

theorem Holds.write (h : Holds size L σ bank) (hx : Avoids L x) (v : UInt32) :
    Holds size L σ (bank.write x v) := by
  refine ⟨(Bank.size_write bank x v).trans h.size, fun b c hc => ?_⟩
  obtain ⟨p, hp, hshows⟩ := h.cell b c hc
  refine ⟨p, hp, hshows.congr fun y hy => Bank.read?_write_of_ne v ?_⟩
  rintro rfl
  exact hx b p hp hy

/-- The register of a scalar that is declared. -/
theorem Holds.scalar (h : Holds size L σ bank) (hl : Lays R L) (hb : σ b = some (.scalar v)) :
    ∃ r, L b = some (.scalar r) ∧ R.get? b.name b.scope = some r ∧ bank.read? r = some v := by
  obtain ⟨p, hp, hshows⟩ := h.cell b _ hb
  cases p with
  | scalar r => exact ⟨r, hp, hl b _ hp, hshows⟩
  | array => cases hshows

/-- The registers of an array that is declared. -/
theorem Holds.array {values : List UInt32} (h : Holds size L σ bank) (hl : Lays R L)
    (hb : σ b = some (.array values)) :
    ∃ base, L b = some (.array base values.length) ∧ R.arrayBase? b.name b.scope = some base ∧
      ∀ i < values.length, base + i ∈ R.held ∧ bank.read? (base + i) = values[i]? := by
  obtain ⟨p, hp, hshows⟩ := h.cell b _ hb
  cases p with
  | scalar => cases hshows
  | array base size =>
    obtain ⟨rfl, hread⟩ := hshows
    obtain ⟨hpos, -, hslots⟩ := hl b _ hp
    exact ⟨base, hp, hslots 0 hpos, fun i hi =>
      ⟨Registers.mem_held_of_lookup (hslots i hi), hread i hi⟩⟩

/-- **One binding changes**, and the registers of the others stay. -/
theorem Holds.set (h : Holds size L σ bank) (hsize : bank'.size = size)
    (others : ∀ b' p' x, b' ≠ b → L b' = some p' → p'.Has x → bank'.read? x = bank.read? x)
    (hc : p.Shows bank' c) : Holds size (L.set b p) (σ.set b c) bank' := by
  refine ⟨hsize, fun b' c' hc' => ?_⟩
  by_cases hb : b' = b
  · rw [Store.set, if_pos hb] at hc'
    cases hc'
    exact ⟨p, hb ▸ Layout.set_self L b p, hc⟩
  · rw [Store.set, if_neg hb] at hc'
    obtain ⟨p', hp', hshows⟩ := h.cell b' c' hc'
    exact ⟨p', (Layout.set_of_ne p hb).trans hp',
      hshows.congr fun x hx => others b' p' x hb hp' hx⟩

/-- A scalar is stored in its register. -/
theorem Holds.store (h : Holds size L σ bank) (hl : Lays R L) (hs : R.Sound)
    (hr : R.get? b.name b.scope = some r) (hsize : r < size) (v : UInt32) :
    Holds size (L.set b (.scalar r)) (σ.set b (.scalar v)) (bank.write r v) := by
  refine h.set ((Bank.size_write bank r v).trans h.size) (fun b' p' x hne hp' hx => ?_) ?_
  · refine Bank.read?_write_of_ne v ?_
    rintro rfl
    exact hne (hl.eq_of_lookup hs hr hp' hx)
  · exact Bank.read?_write_self v (h.size ▸ hsize)

/-- An element is stored in its register. -/
theorem Holds.storeElement {values : List UInt32} {base i : Nat} (h : Holds size L σ bank)
    (hl : Lays R L) (hs : R.Sound) (hb : L b = some (.array base values.length))
    (hσ : σ b = some (.array values)) (hi : i < values.length) (hsize : base + i < size)
    (v : UInt32) :
    Holds size L (σ.set b (.array (values.set i v))) (bank.write (base + i) v) := by
  obtain ⟨p, hp, hshows⟩ := h.cell b _ hσ
  obtain rfl := Option.some.inj (hb.symm.trans hp)
  have hset := h.set (b := b) (p := .array base values.length) (c := .array (values.set i v))
    ((Bank.size_write bank (base + i) v).trans h.size) (fun b' p' x hne hp' hx => ?_) ?_
  · rwa [Layout.set_eq_self hb] at hset
  · refine Bank.read?_write_of_ne v ?_
    rintro rfl
    exact hne (hl.eq_of_has hs hp' hx hb ⟨by omega, by omega⟩)
  · refine ⟨List.length_set, fun j hj => ?_⟩
    by_cases hij : i = j
    · subst hij
      rw [Bank.read?_write_self v (h.size ▸ hsize), List.getElem?_set_self hj]
    · rw [Bank.read?_write_of_ne v (by omega), List.getElem?_set_ne hij]
      exact hshows.2 j hj

/-- **The bindings of a scope end.** -/
theorem Holds.erase {s : ScopeId} (h : Holds size L' σ bank)
    (hsame : ∀ b, b.scope ≠ s → L' b = L b) : Holds size L (σ.erase s) bank := by
  refine ⟨h.size, fun b c hc => ?_⟩
  by_cases hs : b.scope = s
  · rw [Store.erase, if_pos hs] at hc
    cases hc
  · rw [Store.erase, if_neg hs] at hc
    obtain ⟨p, hp, hshows⟩ := h.cell b c hc
    exact ⟨p, (hsame b hs).symm.trans hp, hshows⟩

end Holds

/-! ### Parameters -/

namespace Store

variable {parameters : ScopeId} {b : Binding}

/-- Other bindings stay. -/
theorem bind_of_ne (h : b.scope ≠ parameters) : ∀ (names : List String) (values : List UInt32)
    (σ : Store), σ.bind parameters names values b = σ b
  | [], _, _ | _ :: _, [], _ => rfl
  | name :: names, value :: values, σ => by
    rw [bind, bind_of_ne h names values]
    refine if_neg fun hb => h ?_
    rw [hb]

/-- What a parameter is bound to depends on nothing else. -/
theorem bind_congr {τ : Store} : ∀ (names : List String) (values : List UInt32) (σ : Store),
    σ b = τ b → σ.bind parameters names values b = τ.bind parameters names values b
  | [], _, _, h | _ :: _, [], _, h => h
  | name :: names, value :: values, σ, h => by
    rw [bind, bind]
    refine bind_congr names values _ ?_
    unfold set
    rw [h]

end Store

/-- **Values are in the registers of parameters.** -/
def Passed (parameters : ScopeId) (R : Registers) (τ : Store) (bank : Bank) : Prop :=
  ∀ b c, τ b = some c → b.scope = parameters ∧
    ∃ v r, c = .scalar v ∧ R.get? b.name b.scope = some r ∧ bank.read? r = some v

section Passed

variable {parameters : ScopeId} {R R' : Registers} {τ : Store} {bank bank' : Bank}

theorem passed_empty (parameters : ScopeId) (R : Registers) (bank : Bank) :
    Passed parameters R Store.empty bank := fun _ _ h => nomatch h

/-- The registers of the parameters stay. -/
theorem Passed.keep (h : Passed parameters R τ bank)
    (hkeep : ∀ slot r, R.reserved.lookup slot = some r →
      R'.reserved.lookup slot = some r ∧ bank'.read? r = bank.read? r) :
    Passed parameters R' τ bank' := by
  intro b c hc
  obtain ⟨hscope, v, r, rfl, hr, hv⟩ := h b c hc
  obtain ⟨hr', hread⟩ := hkeep _ r hr
  exact ⟨hscope, v, r, rfl, hr', hread.trans hv⟩

/-- The next parameter is stored in its register. -/
theorem Passed.store {name : String} {r : Nat} (h : Passed parameters R τ bank) (hs : R.Sound)
    (register : R.getOrReserve name parameters = (r, R')) (hsize : r < bank.size) (v : UInt32) :
    Passed parameters R' (τ.set ⟨name, parameters⟩ (.scalar v)) (bank.write r v) := by
  have hr := Registers.get?_getOrReserve register
  have hleads := Registers.leads_getOrReserve (fun _ => False) register
  intro b c hc
  by_cases hb : b = ⟨name, parameters⟩
  · subst hb
    rw [Store.set, if_pos rfl] at hc
    cases hc
    exact ⟨rfl, v, r, rfl, hr, Bank.read?_write_self v hsize⟩
  · rw [Store.set, if_neg hb] at hc
    obtain ⟨hscope, w, x, rfl, hx, hw⟩ := h b c hc
    have hx' := hleads.keeps _ x id hx
    refine ⟨hscope, w, x, rfl, hx', (Bank.read?_write_of_ne v ?_).trans hw⟩
    rintro rfl
    have hslot := (hleads.sound hs).slot_eq hx' hr
    cases b
    cases hslot
    exact hb rfl

/-- **The parameters are bound to the values that were passed.** -/
theorem Holds.bind {size : Nat} {L : Layout} {σ : Store} {names : List String}
    {values : List UInt32} (h : Holds size L σ bank)
    (hpassed : Passed parameters R (Store.empty.bind parameters names values) bank) :
    Holds size (L.enter R parameters) ((σ.erase parameters).bind parameters names values) bank := by
  refine ⟨h.size, fun b c hc => ?_⟩
  by_cases hscope : b.scope = parameters
  · have hempty : σ.erase parameters b = Store.empty b := if_pos hscope
    rw [Store.bind_congr names values _ hempty] at hc
    obtain ⟨-, v, r, rfl, hr, hv⟩ := hpassed b c hc
    rw [hscope] at hr
    refine ⟨.scalar r, ?_, hv⟩
    rw [Layout.enter, if_pos hscope, hr]
    rfl
  · rw [Store.bind_of_ne hscope, Store.erase, if_neg hscope] at hc
    obtain ⟨p, hp, hshows⟩ := h.cell b c hc
    exact ⟨p, (if_neg hscope).trans hp, hshows⟩

end Passed

/-! ### Intermediate values -/

/-- A register that is left alone: a temporary, and where no function is called any register of a
slot. -/
def Spared (plain : Prop) (R : Registers) (x : Nat) : Prop :=
  x ∈ R.temporaries ∨ plain ∧ ∃ slot, R.reserved.lookup slot = some x

/-- **The registers that are spared have the same contents.** -/
def Kept (plain : Prop) (R : Registers) (bank bank' : Bank) : Prop :=
  ∀ x, Spared plain R x → bank'.read? x = bank.read? x

section Kept

variable {plain plain' : Prop} {R R₁ : Registers} {bank bank₁ bank₂ : Bank} {x : Nat}

theorem Spared.mono (h : Spared plain R x) (hp : plain → plain') : Spared plain' R x :=
  h.imp id fun hslot => ⟨hp hslot.1, hslot.2⟩

theorem Spared.held (h : Spared plain R x) : x ∈ R.held := by
  rcases h with h | ⟨-, slot, h⟩
  · exact Registers.mem_held_of_temporary h
  · exact Registers.mem_held_of_lookup h

/-- What is spared here is spared after a step, if that touches nothing when no function is
called. -/
theorem Spared.leads {touched : Slot → Prop} {added : List Nat} (h : Spared plain R x)
    (hleads : Leads touched added R R₁) (hplain : plain → plain' ∧ ∀ slot, ¬ touched slot) :
    Spared plain' R₁ x := by
  rcases h with h | ⟨hp, slot, h⟩
  · rw [Spared, hleads.temporaries]
    exact .inl (List.mem_append_right _ h)
  · exact .inr ⟨(hplain hp).1, slot, hleads.keeps slot x ((hplain hp).2 slot) h⟩

theorem Kept.refl (plain : Prop) (R : Registers) (bank : Bank) : Kept plain R bank bank :=
  fun _ _ => rfl

theorem Kept.trans (h : Kept plain R bank bank₁) (h' : Kept plain' R₁ bank₁ bank₂)
    (hspared : ∀ x, Spared plain R x → Spared plain' R₁ x) : Kept plain R bank bank₂ :=
  fun x hx => (h' x (hspared x hx)).trans (h x hx)

theorem Kept.write (h : Kept plain R bank bank₁) (hx : ¬ Spared plain R x) (v : UInt32) :
    Kept plain R bank (bank₁.write x v) := by
  intro y hy
  refine (Bank.read?_write_of_ne v ?_).trans (h y hy)
  rintro rfl
  exact hx hy

theorem not_spared_zero (hs : R.Sound) : ¬ Spared plain R 0 :=
  fun h => nomatch hs.positive 0 h.held

end Kept

end RegisterMachine.Structured
