import RegisterMachine.Proofs.Structured.Evaluation

/-! # Arguments are passed and functions are called by their code

The values of arguments come to the registers of the parameters, either straight or by way of
temporaries; then the body of the function runs where the parameters are active too, and a `return`
in it jumps behind it.

* `simulated_stagedCons`, `simulated_passingCons`: rows of arguments.
* `moves_answers`: staged values go to the parameters.
* `simulated_call`: the call. -/

namespace RegisterMachine.Structured

open RegisterMachine.Assembly RegisterMachine.Machine

section Arguments

variable {t : Tree} {whole : Code} {least size d : Nat} {a : Surroundings} {scope : ScopeId}
  {R R₁ R₂ R' : Registers} {n n₁ n' r : Nat} {code others : Code} {e : Expression}
  {es : List Expression} {name : String} {names : List String} {temporaries : List Nat}

theorem simulated_stagedNil : Simulated t whole size d a (.staged [] []) R [] R := by
  intro active L rest fuel σ bank least ready _ holds
  exact .ok ⟨.start rest False R holds, .nil⟩

theorem simulated_stagedCons (argument : Emits t d a (.expression e) R n code R₁ n₁)
    (temporary : R₁.temporary = (r, R₂))
    (hrest : Emits t d a (.staged es temporaries) R₂ n₁ others R' n')
    (ih : Simulated t whole size d a (.expression e) R code R₁)
    (ihr : Simulated t whole size d a (.staged es temporaries) R₂ others R') :
    Simulated t whole size d a (.staged (e :: es) (r :: temporaries)) R
      (code ++ Code.store r :: others) R' := by
  intro active L rest fuel σ bank least ready hfuel holds
  have placed : code ++ Code.store r :: (others ++ rest) <:+ whole := by simpa using ready.placed
  have hleads := Registers.leads_temporary (fun _ => False) temporary
  have hfits : R₂.highest < size := Nat.lt_of_le_of_lt hrest.leads.highest ready.fits
  have readyHead := ready.part (.stagedHead e es (r :: temporaries)) trivial ready.lays ready.sound
    (Nat.lt_of_le_of_lt hleads.highest hfits) placed
  have readyTail := ready.part (.stagedTail e es (r :: temporaries) temporaries) trivial
    ((readyHead.lays_behind argument).grow hleads)
    (hleads.sound (argument.leads.sound ready.sound)) ready.fits (behind [_] (behind code placed))
  show Answers _ _ _ (results t (scopeRun t fuel) (e :: es) σ) _
  rw [results, List.append_assoc]
  refine ih.stage argument temporary readyHead hfits hfuel holds ?_
  rintro v σ₁ bank₁ arrived₁ - hv
  refine (ihr active L rest fuel σ₁ bank₁ readyTail hfuel arrived₁.holds).bind ?_
  rintro values σ₂ e' ⟨arrived₂, hvalues⟩
  have hkept : Spared False R₂ r := by
    rw [Spared, hleads.temporaries]
    exact .inl List.mem_cons_self
  refine .ok ⟨?_, .cons ((arrived₂.kept r hkept).trans hv.2) hvalues⟩
  exact ((Arrived.start rest False R holds).trans arrived₁ fun x hx => hx.mono False.elim).trans
    arrived₂ fun x hx => (hx.expression argument False.elim).grow hleads

theorem simulated_passingNil (none : names = [] ∨ es = []) :
    Simulated t whole size d a (.passing scope names es) R [] R := by
  intro active L rest fuel σ bank least ready _ holds hlength _ τ hpassed
  have hnames : names = [] ∧ es = [] := by
    rcases none with rfl | rfl
    · exact ⟨rfl, List.eq_nil_of_length_eq_zero hlength.symm⟩
    · exact ⟨List.eq_nil_of_length_eq_zero hlength, rfl⟩
  obtain ⟨rfl, rfl⟩ := hnames
  exact .ok ⟨.start rest False R holds, hpassed⟩

/-- The register of a parameter belongs to nothing that is laid out, and is no temporary. -/
theorem Lays.parameter {active : List ScopeId} {L : Layout} (h : Lays R L) (sound : R.Sound)
    (known : Known active L) (haway : scope ∉ active)
    (register : R.getOrReserve name scope = (r, R')) : Avoids L r ∧ r ∉ R.temporaries := by
  have hleads := Registers.leads_getOrReserve (fun _ => False) register
  have hslot := Registers.get?_getOrReserve register
  refine ⟨fun b p hb hhas => haway ?_, fun hr => ?_⟩
  · have heq := (h.grow hleads).eq_of_lookup (hleads.sound sound) hslot hb hhas
    have hscope : b.scope = scope := congrArg Binding.scope heq
    exact hscope ▸ known b p hb
  · refine (hleads.sound sound).not_temporary hslot ?_
    rw [hleads.temporaries]
    exact hr

theorem simulated_passingCons (plain : e.hasCall = false)
    (argument : Emits t d a (.expression e) R n code R₁ n₁)
    (register : R₁.getOrReserve name scope = (r, R₂))
    (hrest : Emits t d a (.passing scope names es) R₂ n₁ others R' n')
    (ih : Simulated t whole size d a (.expression e) R code R₁)
    (ihr : Simulated t whole size d a (.passing scope names es) R₂ others R') :
    Simulated t whole size d a (.passing scope (name :: names) (e :: es)) R
      (code ++ Code.store r :: others) R' := by
  intro active L rest fuel σ bank least ready hfuel holds hlength haway τ hpassed
  have placed : code ++ Code.store r :: (others ++ rest) <:+ whole := by simpa using ready.placed
  have hleads := Registers.leads_getOrReserve (fun _ => False) register
  have hfits : R₂.highest < size := Nat.lt_of_le_of_lt hrest.leads.highest ready.fits
  have hsound₁ := argument.leads.sound ready.sound
  have readyHead := ready.part (.passingHead scope (name :: names) e es plain) trivial ready.lays
    ready.sound (Nat.lt_of_le_of_lt hleads.highest hfits) placed
  have lays₁ := readyHead.lays_behind argument
  have readyTail := ready.part (.passingTail scope (name :: names) names e es) trivial
    (lays₁.grow hleads) (hleads.sound hsound₁) ready.fits (behind [_] (behind code placed))
  show Answers _ _ _ (results t (scopeRun t fuel) (e :: es) σ) _
  rw [results, List.append_assoc]
  refine .needed (ih active L _ fuel σ bank readyHead hfuel holds) ?_
  rintro v σ₁ ⟨_, bank₁⟩ ⟨arrived₁, hacc⟩
  obtain rfl := arrived₁.code
  obtain rfl : bank₁.accumulator = v := hacc v rfl
  have hsize : r < bank₁.size := by
    rw [arrived₁.holds.size]
    exact Nat.lt_of_le_of_lt (le_highest_of_getOrReserve hsound₁ register) hfits
  refine .store hsize ?_
  -- the register of the parameter is written
  obtain ⟨havoids, hfresh⟩ := lays₁.parameter hsound₁ ready.known haway register
  have hspared : ∀ x, Spared False R x → Spared False R₁ x :=
    fun x hx => hx.expression argument False.elim
  have arrived₂ := ((Arrived.start rest False R holds).trans arrived₁
    fun x hx => hx.mono False.elim).write havoids
      (fun hr => (hspared r hr).elim hfresh fun hfalse => hfalse.1) bank₁.accumulator rest
  have hpassed₁ : Passed scope R₁ τ bank₁ := hpassed.keep fun slot x hx =>
    ⟨argument.leads.keeps slot x (not_changes_of_plain plain slot) hx,
      arrived₁.kept x (.inr ⟨plain, slot, hx⟩)⟩
  have hpassed₂ := hpassed₁.store hsound₁ register hsize bank₁.accumulator
  refine (ihr active L rest fuel σ₁ _ readyTail hfuel arrived₂.holds (Nat.succ.inj hlength) haway _
    hpassed₂).bind ?_
  rintro values σ₂ e' ⟨arrived₃, hvalues⟩
  exact .ok ⟨arrived₂.trans arrived₃ fun x hx => (hspared x hx).grow hleads, hvalues⟩

theorem simulated_direct (ih : Simulated t whole size d a (.passing scope names es) R code R') :
    Simulated t whole size d a (.arguments scope names es) R code R' := by
  intro active L rest fuel σ bank least ready hfuel holds hlength haway
  exact ih active L rest fuel σ bank
    (ready.part (.passing scope names es) trivial ready.lays ready.sound ready.fits ready.placed)
    hfuel holds hlength haway _ (passed_empty scope R bank)

section Moves

variable {active : List ScopeId} {L : Layout} {rest : Code} {σ : Store} {α : Type}
  {x : Except Interruption α} {done : α → Point → Prop} {bank : Bank} {τ : Store}

/-- One staged value is moved to its parameter. -/
theorem move_answers {staged : Nat} {v : UInt32} (known : Known active L) (haway : scope ∉ active)
    (lays : Lays R L) (sound : R.Sound) (hfits : R₁.highest < size) (holds : Holds size L σ bank)
    (register : R.getOrReserve name scope = (r, R₁)) (hstaged : staged ∈ R.temporaries)
    (hv : bank.read? staged = some v) (hpassed : Passed scope R τ bank)
    (h : ∀ bank', Arrived size L False R bank rest σ ⟨rest, bank'⟩ →
      Passed scope R₁ (τ.set ⟨name, scope⟩ (.scalar v)) bank' →
      Answers whole least ⟨rest, bank'⟩ x done) :
    Answers whole least ⟨Code.load (.register staged) :: Code.store r :: rest, bank⟩ x done := by
  have hread : Reads bank (.register staged) v :=
    ⟨sound.positive staged (Registers.mem_held_of_temporary hstaged), hv⟩
  have hpos : 0 < bank.size := holds.size.symm ▸ Nat.zero_lt_of_lt hfits
  have hsize : r < (bank.write 0 v).size := by
    rw [Bank.size_write, holds.size]
    exact Nat.lt_of_le_of_lt (le_highest_of_getOrReserve sound register) hfits
  refine hread.load (.store hsize ?_)
  rw [Bank.accumulator_write v hpos]
  obtain ⟨havoids, hfresh⟩ := lays.parameter sound known haway register
  have hpassed₁ : Passed scope R τ (bank.write 0 v) := hpassed.keep fun slot x hx =>
    ⟨hx, Bank.read?_write_of_ne v (Nat.ne_of_lt (sound.pos hx))⟩
  refine h _ ?_ (hpassed₁.store sound register hsize v)
  exact ((Arrived.start rest False R holds).accumulate lays sound v rest).write havoids
    (fun hr => hr.elim hfresh fun hfalse => hfalse.1) v rest

/-- **Staged values are moved to the parameters.** -/
theorem moves_answers (known : Known active L) (haway : scope ∉ active) :
    ∀ (names : List String) (temporaries : List Nat) (values : List UInt32) {R R' : Registers}
      {code : Code} {bank : Bank} {τ : Store}, Moves scope (names.zip temporaries) R code R' →
      Lays R L → R.Sound → R'.highest < size → Holds size L σ bank →
      (∀ r ∈ temporaries, r ∈ R.temporaries) →
      List.Forall₂ (fun r v => bank.read? r = some v) temporaries values → Passed scope R τ bank →
      (∀ bank', Arrived size L False R bank rest σ ⟨rest, bank'⟩ →
        Passed scope R' (τ.bind scope names values) bank' →
        Answers whole least ⟨rest, bank'⟩ x done) →
      Answers whole least ⟨code ++ rest, bank⟩ x done := by
  intro names
  induction names with
  | nil =>
    intro temporaries values R R' code bank τ hmoves _ _ _ holds _ _ hpassed h
    cases hmoves
    exact h bank (.start rest False R holds) hpassed
  | cons name names ih =>
    intro temporaries values R R' code bank τ hmoves lays sound hfits holds htemporaries hvalues
      hpassed h
    cases hvalues with
    | nil =>
      cases hmoves
      exact h bank (.start rest False R holds) hpassed
    | @cons staged v temporaries values hv hvalues =>
      cases hmoves with
      | @cons _ _ r _ _ R₁ _ code register others =>
        have hleads := Registers.leads_getOrReserve (fun _ => False) register
        have hfits₁ : R₁.highest < size :=
          Nat.lt_of_le_of_lt (others.leads fun _ => False).highest hfits
        have htail : ∀ x ∈ temporaries, x ∈ R.temporaries :=
          fun x hx => htemporaries x (List.mem_cons_of_mem staged hx)
        refine move_answers known haway lays sound hfits₁ holds register
          (htemporaries staged List.mem_cons_self) hv hpassed fun bank₁ arrived₁ hpassed₁ => ?_
        have hvalues₁ := Success.forall₂_imp_of_mem hvalues fun x w hx hw =>
          (arrived₁.kept x (.inl (htail x hx))).trans hw
        exact ih temporaries values others (lays.grow hleads) (hleads.sound sound) hfits
          arrived₁.holds (fun x hx => hleads.temporaries ▸ htail x hx) hvalues₁ hpassed₁
          fun bank₂ arrived₂ hpassed₂ =>
            h bank₂ (arrived₁.trans arrived₂ fun x hx => hx.grow hleads) hpassed₂

end Moves

/-- Giving temporaries back leaves the slots. -/
theorem reserved_freeAll (rs : List Nat) (R : Registers) :
    (rs.foldl Registers.freeTemporary R).reserved = R.reserved := by
  induction rs generalizing R with
  | nil => rfl
  | cons r rs ih => exact ih (R.freeTemporary r)

theorem simulated_staging {moves : Code}
    (staged : Emits t d a (.staged es temporaries) R n code R₁ n₁)
    (moved : Moves scope (names.zip temporaries) R₁ moves R₂)
    (ih : Simulated t whole size d a (.staged es temporaries) R code R₁) :
    Simulated t whole size d a (.arguments scope names es) R (code ++ moves)
      (temporaries.reverse.foldl Registers.freeTemporary R₂) := by
  intro active L rest fuel σ bank least ready hfuel holds _ haway
  have hfits : R₂.highest < size := highest_freeAll temporaries.reverse R₂ ▸ ready.fits
  have hleads := moved.leads fun _ => False
  have readyStaged := ready.part (.staged scope names es temporaries) trivial ready.lays ready.sound
    (Nat.lt_of_le_of_lt hleads.highest hfits) (List.append_assoc .. ▸ ready.placed)
  have lays₁ := ready.lays.emits ready.known readyStaged.apart rfl staged
  have htemporaries : ∀ r ∈ temporaries, r ∈ R₁.temporaries := by
    intro r hr
    rw [staged.leads.temporaries]
    exact List.mem_append_left _ (List.mem_reverse.mpr hr)
  rw [List.append_assoc]
  refine (ih active L (moves ++ rest) fuel σ bank readyStaged hfuel holds).followed ?_
  rintro ⟨values, σ₁⟩ ⟨_, bank₁⟩ ⟨arrived₁, hvalues⟩
  obtain rfl := arrived₁.code
  refine moves_answers ready.known haway names temporaries values moved lays₁
    (staged.leads.sound ready.sound) hfits arrived₁.holds htemporaries hvalues
    (passed_empty scope R₁ bank₁) fun bank₂ arrived₂ hpassed => .ok ⟨?_, ?_⟩
  · refine arrived₁.trans arrived₂ fun x hx => ?_
    exact hx.leads staged.leads False.elim
  · refine hpassed.keep fun slot x hx => ⟨?_, rfl⟩
    rw [reserved_freeAll]
    exact hx

end Arguments

/-! ### Calls -/

section Calls

variable {t : Tree} {whole : Code} {least size d : Nat} {a : Surroundings} {R R₁ R₂ R' : Registers}
  {n n₁ n₂ : Nat} {passing inner : Code} {parameters body : ScopeId} {i f : Identifier}
  {es : List Expression} {callee : StatementId} {returns : Option ValueType} {place : Span}

theorem callable?_eq
    (function : t.statement? callee = some (.function f parameters body returns place))
    (given : Nat) : t.callable? (some callee) given =
      if (t.declaredNames parameters).length = given then some (parameters, body) else none := by
  rw [Tree.callable?, Option.bind_some, function]

/-- The parameters are bound, and the body runs. -/
theorem invoke_eq (enter : ScopeId → Eval Signal) (values : List UInt32) (σ : Store) :
    invoke t enter parameters body values σ =
      (enter body >>= fun signal => modify (·.erase parameters) >>= fun _ =>
        match signal with
        | .next => pure none
        | .returned value => pure (some value)
        | .leave | .again => Eval.stuck)
        ((σ.erase parameters).bind parameters (t.declaredNames parameters) values) := rfl

/-- The body of a function that is called is ready, with the parameters where they were passed. -/
theorem Ready.called {active : List ScopeId} {L : Layout} {code rest rest' : Code} {e : Expression}
    (ready : Ready t whole size active L (.expression e) R R' code rest) (separate : t.Separate)
    (hcallee : callee ∈ e.callees) (hfunction : t.Function callee parameters body)
    (lays : Lays R₁ L) (sound : R₁.Sound) (fits : R₂.highest < size)
    (placed : inner ++ rest' <:+ whole) :
    Ready t whole size (parameters :: active) (L.enter R₁ parameters) (.scope body) R₁ R₂ inner
      rest' where
  apart := ready.apart.body separate hcallee hfunction
  home := by simp [Task.home?]
  bound := trivial
  known := ready.known.enter
  lays := lays.enter parameters
  sound := sound
  fits := fits
  placed := placed

/-- Behind the body of a function its parameters end. -/
theorem Arrived.returned {L : Layout} {plain : Prop} {names : List String}
    {code rest rest₁ rest₂ : Code} {σ σ' : Store} {bank : Bank} {e e' : Point}
    (h : Arrived size L False R bank rest₁ σ e)
    (h' : Arrived size (L.enter R₁ parameters) False R₁ e.bank rest₂ σ' e')
    (arguments : Emits t d a (.arguments parameters names es) R n code R₁ n₁) (hplain : ¬ plain) :
    Arrived size L plain R bank rest (σ'.erase parameters) ⟨rest, e'.bank⟩ := by
  have behind := h.trans h' fun x hx => hx.leads arguments.leads False.elim
  have ended := behind.erase (s := parameters) (L := L) fun b hb => if_neg hb
  exact (ended.weaken hplain).moved rest

/-- **A call runs the body of the function** behind the code that passes the arguments. -/
theorem simulated_call (separate : t.Separate) (span : Span)
    (function : t.statement? callee = some (.function f parameters body returns place))
    (arguments :
      Emits t d a (.arguments parameters (t.declaredNames parameters) es) R n passing R₁ n₁)
    (inlined : Emits t d ⟨none, some ⟨.returned, n₁⟩, callee :: a.inlining⟩ (.scope body)
      R₁ (n₁ + 1) inner R₂ n₂)
    (iha : Simulated t whole size d a
      (.arguments parameters (t.declaredNames parameters) es) R passing R₁)
    (ihb : Simulated t whole size d ⟨none, some ⟨.returned, n₁⟩, callee :: a.inlining⟩
      (.scope body) R₁ inner R₂) :
    Simulated t whole size d a (.expression (.call i es (some callee) span)) R
      (passing ++ .comment ("inline " ++ i.name) :: inner ++ [.label ⟨.returned, n₁⟩])
      ((t.declaredNames parameters).foldl (fun R name => R.release name parameters) R₂) := by
  intro active L rest fuel σ bank least ready hfuel holds
  have placed : passing ++ .comment ("inline " ++ i.name) :: (inner ++
      .label ⟨.returned, n₁⟩ :: rest) <:+ whole := by
    simpa using ready.placed
  have placedBody : inner ++ .label ⟨.returned, n₁⟩ :: rest <:+ whole :=
    behind [_] (behind passing placed)
  have hfunction : t.Function callee parameters body := ⟨f, returns, place, function⟩
  have hcallee : callee ∈ (Expression.call i es (some callee) span).callees :=
    List.mem_append_right _ (List.mem_singleton_self callee)
  have haway : parameters ∉ active :=
    ready.apart.away parameters (.inr ⟨callee, body, .inl hcallee, hfunction⟩)
  have hfits₂ : R₂.highest < size := Nat.lt_of_le_of_lt
    (leads_releaseParameters (t.declaredNames parameters) parameters R₂).highest ready.fits
  have hfits₁ : R₁.highest < size := Nat.lt_of_le_of_lt inlined.leads.highest hfits₂
  have readyArguments := ready.part
    (.arguments parameters (t.declaredNames parameters) i es (some callee) span) trivial
    ready.lays ready.sound hfits₁ placed
  have lays₁ := ready.lays.emits ready.known readyArguments.apart rfl arguments
  have sound₁ := arguments.leads.sound ready.sound
  have readyBody := ready.called separate hcallee hfunction lays₁ sound₁ hfits₂ placedBody
  have aims : Targets.Aims { give := rest } whole
      ⟨none, some ⟨.returned, n₁⟩, callee :: a.inlining⟩ := by
    refine ⟨by simp, fun m hm => ?_⟩
    cases hm
    exact behind inner placedBody
  show Answers _ _ _ (result t (scopeRun t fuel) (.call i es (some callee) span) σ) _
  rw [result, callable?_eq function]
  by_cases hlength : (t.declaredNames parameters).length = es.length
  · rw [if_pos hlength]
    simp only [List.append_assoc, List.cons_append, List.nil_append]
    refine (iha active L _ fuel σ bank readyArguments hfuel holds hlength haway).bind ?_
    rintro values σ₁ ⟨_, bank₁⟩ ⟨arrived₁, hpassed⟩
    obtain rfl := arrived₁.code
    rw [invoke_eq]
    refine .comment _ ?_
    refine (ihb _ _ _ fuel _ bank₁ readyBody hfuel (arrived₁.holds.bind hpassed) _ aims).bind ?_
    rintro signal σ₂ ⟨_, bank₂⟩ hdone
    have hcall : ¬ (Expression.call i es (some callee) span).hasCall = false := Bool.noConfusion
    cases signal with
    | next =>
      obtain ⟨arrived₂, -⟩ := hdone trivial
      have ended : Arrived size L _ R bank rest _ ⟨rest, bank₂⟩ :=
        arrived₁.returned arrived₂ arguments hcall
      obtain rfl := arrived₂.code
      exact .label _ (.ok ⟨ended, by simp⟩)
    | returned v =>
      obtain ⟨arrived₂, hacc⟩ := hdone rfl
      have ended : Arrived size L _ R bank rest _ ⟨rest, bank₂⟩ :=
        arrived₁.returned arrived₂ arguments hcall
      obtain rfl := arrived₂.code
      refine .ok ⟨ended, fun w hw => hacc w ?_⟩
      cases hw
      rfl
    | leave | again => exact trivial
  · rw [if_neg hlength]
    exact trivial

end Calls

end RegisterMachine.Structured
