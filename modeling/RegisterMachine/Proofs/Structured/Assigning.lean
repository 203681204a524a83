import RegisterMachine.Proofs.Structured.Evaluation

/-! # Assignments are made by their code

A declaration gives its binding a place in the layout, a new one or the one it has; an assignment
writes the registers of a place. No other binding is there, and no intermediate value.

* `zeros_answers`: the registers of a new array are set to zero.
* `simulated_array`, `simulated_assign`, `simulated_assignElement`: the cases. -/

namespace RegisterMachine.Structured

open RegisterMachine.Assembly RegisterMachine.Machine

section Rules

variable {t : Tree} {whole : Code} {least : Nat} {enter : ScopeId → Eval Signal} {s : Point}
  {α : Type} {σ : Store} {e : Expression}

/-- The value of an expression that has to have one. -/
theorem Answers.value {f : UInt32 → Eval α} {done : α × Store → Point → Prop}
    (h : Answers whole least s
      ((result t enter e >>= fun y => Eval.needed y >>= f) σ) done) :
    Answers whole least s ((Structured.value t enter e >>= f) σ) done := by
  rw [Structured.value, bind_assoc]
  exact h

/-- The value of an expression is in the accumulator behind its code. -/
theorem Simulated.value {size d fuel : Nat} {a : Surroundings} {active : List ScopeId} {L : Layout}
    {R R' : Registers} {code rest : Code} {bank : Bank} {f : UInt32 → Eval α}
    {done : α × Store → Point → Prop}
    (ih : Simulated t whole size d a (.expression e) R code R')
    (ready : Ready t whole size active L (.expression e) R R' code rest)
    (hfuel : least ≤ fuel - d) (holds : Holds size L σ bank)
    (h : ∀ v σ₁ bank₁, Arrived size L False R bank rest σ₁ ⟨rest, bank₁⟩ → bank₁.accumulator = v →
      Answers whole least ⟨rest, bank₁⟩ (f v σ₁) done) :
    Answers whole least ⟨code ++ rest, bank⟩
      ((Structured.value t (scopeRun t fuel) e >>= f) σ) done := by
  refine .value (.needed (ih active L rest fuel σ bank ready hfuel holds) ?_)
  rintro v σ₁ ⟨_, bank₁⟩ ⟨arrived, hacc⟩
  obtain rfl := arrived.code
  exact h v σ₁ bank₁ (arrived.weaken False.elim) (hacc v rfl)

end Rules

section Assignments

variable {t : Tree} {whole : Code} {least size d : Nat} {a : Surroundings} {scope : ScopeId}
  {R R₁ R₂ R₃ R' : Registers} {n n₁ n₂ r base : Nat} {code other : Code} {i : Identifier}
  {e index : Expression}

/-- **Registers are set to zero**, the others stay. -/
theorem zeros_answers {rest : Code} {α : Type} {x : Except Interruption α}
    {done : α → Point → Prop} : ∀ (offsets : List Nat) {bank : Bank}, bank.accumulator = 0 →
      (∀ offset ∈ offsets, 1 ≤ base + offset ∧ base + offset < bank.size) →
      (∀ bank', bank'.size = bank.size →
        (∀ offset ∈ offsets, bank'.read? (base + offset) = some 0) →
        (∀ y, (∀ offset ∈ offsets, base + offset ≠ y) → bank'.read? y = bank.read? y) →
        Answers whole least ⟨rest, bank'⟩ x done) →
      Answers whole least
        ⟨(offsets.map fun offset => Code.store (base + offset)) ++ rest, bank⟩ x done
  | [], bank, _, _, h => h bank rfl (fun _ hnone => nomatch hnone) fun _ _ => rfl
  | offset :: offsets, bank, hacc, hin, h => by
    obtain ⟨hone, hsize⟩ := hin offset List.mem_cons_self
    refine .store hsize ?_
    rw [hacc]
    refine zeros_answers offsets ((Bank.accumulator_write_of_pos 0 hone).trans hacc)
      (fun o ho => ?_) fun bank' hsize' hzero hkeep => h bank' ?_ (fun o ho => ?_) fun y hy => ?_
    · rw [Bank.size_write]
      exact hin o (List.mem_cons_of_mem offset ho)
    · rw [hsize', Bank.size_write]
    · by_cases hmem : ∃ o' ∈ offsets, base + o' = base + o
      · obtain ⟨o', ho', heq⟩ := hmem
        exact heq ▸ hzero o' ho'
      · have hkept := hkeep (base + o) fun o' ho' heq => hmem ⟨o', ho', heq⟩
        rcases List.mem_cons.mp ho with rfl | ho
        · exact hkept.trans (Bank.read?_write_self 0 hsize)
        · exact absurd ⟨o, ho, rfl⟩ hmem
    · rw [hkeep y fun o ho => hy o (List.mem_cons_of_mem offset ho)]
      exact Bank.read?_write_of_ne 0 (hy offset List.mem_cons_self)

theorem simulated_array {type : ValueType} (place span : Span)
    (registers : R.reserveArray? i.name scope type.width = some (base, R')) :
    Simulated t whole size d a
      (.statement scope (.assign (.name i) (.new type place) true span)) R
      (Code.load (.immediate 0) ::
        (List.range type.width).map fun offset => Code.store (base + offset)) R' := by
  intro active L rest fuel σ bank least ready _ holds T _
  obtain ⟨hbase, hpos, heq⟩ := Registers.reserveArray_some registers
  have hone := R.nextFree_pos
  have hhighest : base + type.width - 1 < size := by
    have hfits := ready.fits
    rw [heq] at hfits
    exact Nat.lt_of_le_of_lt (Nat.le_max_right _ _) hfits
  have hsize : 0 < bank.size := holds.size.symm ▸ Nat.zero_lt_of_lt ready.fits
  have hzero : Reads bank (.immediate 0) 0 := rfl
  refine hzero.load ?_
  refine zeros_answers _ (Bank.accumulator_write 0 hsize) (fun offset ho => ?_) ?_
  · have hlt := List.mem_range.mp ho
    rw [Bank.size_write, holds.size]
    omega
  intro bank' hsize' hzeros hkeep
  -- whatever is held is below the array
  have hread : ∀ x ∈ R.held, bank'.read? x = bank.read? x := by
    intro x hx
    have hlt := Registers.lt_nextFree hx
    have hxpos := ready.sound.positive x hx
    rw [hkeep x fun offset _ => by omega, Bank.read?_write_of_ne 0 (by omega)]
  refine .ok fun _ => ⟨L.set ⟨i.name, scope⟩ (.array base type.width), ⟨⟨rfl, ?_, ?_⟩, ?_⟩, ?_, ?_⟩
  · refine holds.set ?_ (fun b' p' x _ hp' hx => hread x (ready.lays.held hp' hx)) ?_
    · rw [hsize', Bank.size_write, holds.size]
    · refine ⟨List.length_replicate, fun k hk => ?_⟩
      rw [hzeros k (List.mem_range.mpr hk), List.getElem?_replicate, if_pos hk]
  · exact fun x hx => hread x hx.held
  · exact fun v hv => nomatch hv
  · intro b hb
    refine Layout.set_of_ne _ ?_
    rintro rfl
    exact hb rfl
  · intro _
    refine ready.lays.set (Registers.leads_reserveArray registers)
      (fun slot hslot => ⟨hslot.1, hslot.2.1⟩) ⟨hpos, ?_, fun k hk => ?_⟩
    · rw [heq]
      exact Array.mem_push_self
    · exact Registers.lookup_element registers hk

/-- **A scalar is given the value in the accumulator**: a new one of this scope, or one that has its
place already. -/
theorem Arrived.assign {L : Layout} {rest rest' : Code} {σ : Store}
    {bank bank₁ : Bank} {default b : ScopeId} {T : Targets}
    (h : Arrived size L False R bank rest' σ ⟨rest', bank₁⟩) (lays : Lays R₁ L) (sound : R₁.Sound)
    (hfits : R'.highest < size)
    (register : R₁.getOrReserve i.name (i.binding.getD default) = (r, R'))
    (hb : i.binding = some b) (hown : b = scope ∨ L ⟨i.name, b⟩ = some (.scalar r))
    (hspared : ∀ x, Spared False R x → Spared False R₁ x) (v : UInt32) :
    ∃ L', Left size L' T R bank rest (.next, σ.set ⟨i.name, b⟩ (.scalar v))
        ⟨rest, bank₁.write r v⟩ ∧
      (∀ b, b.scope ≠ scope → L' b = L b) ∧ Lays R' L' := by
  rw [hb, Option.getD_some] at register
  have hleads := Registers.leads_getOrReserve (fun _ => False) register
  have hget := Registers.get?_getOrReserve register
  have hsound' := hleads.sound sound
  have hsize : r < size := Nat.lt_of_le_of_lt (le_highest_of_getOrReserve sound register) hfits
  have hfree : ¬ Spared False R r := fun hr => by
    rcases (hspared r hr).grow hleads with hr | hfalse
    · exact hsound'.not_temporary hget hr
    · exact hfalse.1
  refine ⟨L.set ⟨i.name, b⟩ (.scalar r), ⟨⟨rfl, ?_, h.kept.write hfree v⟩, by simp⟩,
    fun b' hb' => ?_, ?_⟩
  · exact h.holds.store (lays.grow hleads) hsound' hget hsize v
  · rcases hown with rfl | hown
    · refine Layout.set_of_ne _ ?_
      rintro rfl
      exact hb' rfl
    · rw [Layout.set_eq_self hown]
  · exact lays.set hleads (fun _ hfalse => hfalse.elim) hget

theorem simulated_assign (initial : Bool) (span : Span)
    (value : Emits t d a (.expression e) R n code R₁ n₁)
    (register : R₁.getOrReserve i.name (i.binding.getD scope) = (r, R'))
    (ih : Simulated t whole size d a (.expression e) R code R₁) :
    Simulated t whole size d a (.statement scope (.assign (.name i) e initial span)) R
      (code ++ [Code.store r]) R' := by
  intro active L rest fuel σ bank least ready hfuel holds T _
  have hleads := Registers.leads_getOrReserve (fun _ => False) register
  have hsound₁ := value.leads.sound ready.sound
  have readyValue := ready.part (.value scope i e initial span) trivial ready.lays ready.sound
    (Nat.lt_of_le_of_lt hleads.highest ready.fits) (List.append_assoc .. ▸ ready.placed)
  have lays₁ := readyValue.lays_behind value
  have hsize : r < size :=
    Nat.lt_of_le_of_lt (le_highest_of_getOrReserve hsound₁ register) ready.fits
  have hspared : ∀ x, Spared False R x → Spared False R₁ x :=
    fun x hx => hx.expression value False.elim
  rw [List.append_assoc]
  cases initial with
  | true =>
    have hnew : ∀ type place, e ≠ .new type place := by
      rintro type place rfl
      cases value
    have hb : i.binding = some scope := ready.bound i e span rfl
    show Answers _ _ _ (statementRun t (scopeRun t fuel) fuel scope _ σ) _
    rw [statementRun_declare fuel scope i span hnew]
    refine ih.value readyValue hfuel holds fun v σ₁ bank₁ arrived₁ hacc => ?_
    refine .store (by rwa [arrived₁.holds.size]) (.ok fun _ => ?_)
    obtain ⟨L', hleft, hsame, hlays⟩ :=
      arrived₁.assign lays₁ hsound₁ ready.fits register hb (.inl rfl) hspared v
    rw [hacc]
    exact ⟨L', hleft, hsame, fun _ => hlays⟩
  | false =>
    show Answers _ _ _ (statementRun t (scopeRun t fuel) fuel scope _ σ) _
    rw [statementRun_assign fuel scope i span]
    refine ih.value readyValue hfuel holds fun v σ₁ bank₁ arrived₁ hacc => ?_
    refine .assignScalar fun b w hb hσ => ?_
    obtain ⟨-, hL, -, -⟩ := arrived₁.holds.named lays₁ hb hσ register
    refine .store (by rwa [arrived₁.holds.size]) (.ok fun _ => ?_)
    obtain ⟨L', hleft, hsame, hlays⟩ :=
      arrived₁.assign lays₁ hsound₁ ready.fits register hb (.inr hL) hspared v
    rw [hacc]
    exact ⟨L', hleft, hsame, fun _ => hlays⟩

theorem simulated_assignElement (initial : Bool) (place span : Span)
    (hmax : size ≤ maxRegisters + 1) (array : i.binding.bind (R.arrayBase? i.name) = some base)
    (address : Emits t d a (.expression index) R n code R₁ n₁) (temporary : R₁.temporary = (r, R₂))
    (value : Emits t d a (.expression e) R₂ n₁ other R₃ n₂)
    (iha : Simulated t whole size d a (.expression index) R code R₁)
    (ihv : Simulated t whole size d a (.expression e) R₂ other R₃) :
    Simulated t whole size d a
      (.statement scope (.assign (.element i index place) e initial span)) R
      (code ++ [.operate .add (.immediate (.ofNat base)), Code.store r] ++ other ++
        [.operate .store (.pointer r)])
      (R₃.freeTemporary r) := by
  intro active L rest fuel σ bank least ready hfuel holds T _
  have placed : code ++ .operate .add (.immediate (.ofNat base)) :: Code.store r ::
      (other ++ .operate .store (.pointer r) :: rest) <:+ whole := by
    simpa using ready.placed
  have hleads := Registers.leads_temporary (fun _ => False) temporary
  have hfits₃ : R₃.highest < size := ready.fits
  have hfits₂ : R₂.highest < size := Nat.lt_of_le_of_lt value.leads.highest hfits₃
  have hfits₁ : R₁.highest < size := Nat.lt_of_le_of_lt hleads.highest hfits₂
  have hfits₀ : R.highest < size := Nat.lt_of_le_of_lt address.leads.highest hfits₁
  have readyIndex := ready.part (.place scope i index e initial place span) trivial ready.lays
    ready.sound hfits₁ placed
  have lays₂ := (readyIndex.lays_behind address).grow hleads
  have readyValue := ready.part (.content scope i index e initial place span) trivial lays₂
    (hleads.sound (address.leads.sound ready.sound)) hfits₃ (behind [_, _] (behind code placed))
  have lays₃ : Lays (R₃.freeTemporary r) L := readyValue.lays_behind value
  show Answers _ _ _ (statementRun t (scopeRun t fuel) fuel scope _ σ) _
  rw [statementRun_assignElement fuel scope i index initial place span]
  simp only [List.append_assoc, List.cons_append, List.nil_append]
  refine .value (iha.address address temporary readyIndex hfits₂ hfuel holds ?_)
  intro k σ₁ bank₁ arrived₁ hr
  refine ihv.value readyValue hfuel arrived₁.holds fun v σ₂ bank₂ arrived₂ hacc => ?_
  refine .assignElement fun b values hb hσ hk => ?_
  -- the address is still in its temporary
  have hkept : Spared False R₂ r := by
    rw [Spared, hleads.temporaries]
    exact .inl List.mem_cons_self
  have hread := (arrived₂.kept r hkept).trans hr
  obtain ⟨hL, hlt, haddress, -⟩ :=
    arrived₂.holds.element ready.lays ready.sound hfits₀ hmax array hb hσ hk
  have hsize : (k + UInt32.ofNat base).toNat < bank₂.size := by
    rw [haddress, arrived₂.holds.size]
    exact hlt
  refine .storePointer hread hsize (.ok fun _ => ?_)
  rw [haddress, hacc]
  have hfree : ¬ Spared False R (base + k.toNat) := by
    rintro (htemporary | hfalse)
    · exact ready.lays.avoids_temporary ready.sound htemporary _ _ hL ⟨by omega, by omega⟩
    · exact hfalse.1
  have arrived : Arrived size L False R bank _ σ₂ ⟨_, bank₂⟩ :=
    ((Arrived.start rest False R holds).trans arrived₁ fun x hx => hx.mono False.elim).trans
      arrived₂ fun x hx => (hx.expression address False.elim).grow hleads
  refine ⟨L, ⟨⟨rfl, ?_, arrived.kept.write hfree v⟩, by simp⟩, fun _ _ => rfl,
    fun _ => lays₃⟩
  exact arrived₂.holds.storeElement ready.lays ready.sound hL hσ hk hlt v

end Assignments

end RegisterMachine.Structured
