import RegisterMachine.Proofs.Structured.Assigning
import RegisterMachine.Proofs.Structured.Calling

/-! # Statements are run by their code

The cases of jumps, branches, loops, rows of statements and scopes, and with them the induction on
derivations. A scope runs in a layout and ends in the same one, for the places of its own names are
given up with it; so a loop can run its body again and again in one layout. Each turn takes an
instruction at least, which is why a loop that does not end keeps the machine running.

* `simulated_branch`, `simulated_loop`, `simulated_cons`, `simulated_scope`: the cases.
* `Emits.simulated`: all code does what its part of the tree means. -/

namespace RegisterMachine.Structured

open RegisterMachine.Assembly RegisterMachine.Machine

/-! ### Behind a statement -/

section Behind

variable {whole rest rest' : Code} {least size : Nat} {a : Surroundings} {L : Layout} {T : Targets}
  {R R₁ : Registers} {bank : Bank} {σ : Store} {s e : Point} {y : Signal × Store}
  {x : Except Interruption (Signal × Store)}

theorem Left.trans {L₀ : Layout} {plain : Prop} {code : Code}
    (h : Arrived size L₀ plain R bank code σ s)
    (h' : Left size L T R₁ s.bank rest y e) (hspared : ∀ x, Spared False R x → Spared False R₁ x) :
    Left size L T R bank rest y e where
  arrived := ⟨h'.arrived.code, h'.arrived.holds, fun x hx =>
    (h'.arrived.kept x (hspared x hx)).trans (h.kept x (hx.mono False.elim))⟩
  value := h'.value

/-- Where code goes on to other code without an instruction that matters, it leaves there. -/
theorem Answers.onward (h : Answers whole least s x fun y e =>
      y.1.Handled a → Left size L T R bank rest y e)
    (hgo : ∀ {bank : Bank} {y} {done : Signal × Store → Point → Prop},
      Answers whole least ⟨rest', bank⟩ (.ok y) done →
      Answers whole least ⟨rest, bank⟩ (.ok y) done) :
    Answers whole least s x fun y e => y.1.Handled a → Left size L T R bank rest' y e := by
  refine h.followed ?_
  rintro ⟨signal, σ⟩ ⟨_, bank₁⟩ hdone
  cases signal with
  | next =>
    obtain ⟨⟨rfl, holds, kept⟩, value⟩ := hdone trivial
    exact hgo (.ok fun _ => ⟨⟨rfl, holds, kept⟩, value⟩)
  | leave | again | returned v =>
    refine .ok fun hhandled => ?_
    obtain ⟨⟨hcode, holds, kept⟩, value⟩ := hdone hhandled
    exact ⟨⟨hcode, holds, kept⟩, value⟩

end Behind

section Statements

variable {t : Tree} {whole : Code} {least size d : Nat} {a : Surroundings} {scope body : ScopeId}
  {R R₁ R₂ R' : Registers} {n n₁ n₂ n' : Nat} {code test first second : Code} {e : Expression}

/-- **A jump out of the code**, if there is a label to jump to. -/
theorem jump_answers {L : Layout} {T : Targets} {rest rest' : Code} {σ : Store} {bank bank₁ : Bank}
    {marks : Option Mark} {signal : Signal} (hsignal : signal ≠ .next)
    (hmarks : signal.Handled a → ∃ m, marks = some m ∧ .label m :: T.behind rest signal <:+ whole)
    (arrived : Arrived size L False R bank rest' σ ⟨rest', bank₁⟩)
    (hvalue : ∀ v, signal = .returned v → bank₁.accumulator = v) :
    Answers whole least ⟨marks.toList.map (.jump .goto) ++ rest, bank₁⟩ (.ok (signal, σ))
      fun y e => y.1.Handled a → ∃ L', Left size L' T R bank rest y e ∧
        (∀ b, b.scope ≠ scope → L' b = L b) ∧ (y.1 = .next → Lays R' L') := by
  by_cases hhandled : signal.Handled a
  · obtain ⟨m, rfl, hleads⟩ := hmarks hhandled
    refine .goto hleads (.ok fun _ => ⟨L, ⟨arrived.moved _, hvalue⟩, ?_, ?_⟩)
    · exact fun _ _ => rfl
    · exact fun hnext => absurd hnext hsignal
  · exact .ok fun h => absurd h hhandled

/-- **A jump to one of the labels of a loop**, if there is a loop around. -/
theorem simulated_jump {s : Statement} {signal : Signal} {side : Mark × Mark → Mark}
    (hsignal : signal = .leave ∨ signal = .again)
    (hrun : ∀ fuel σ, statementRun t (scopeRun t fuel) fuel scope s σ = .ok (signal, σ))
    (hside : ∀ T : Targets, T.Aims whole a → ∀ rest l, a.loop = some l →
      .label (side l) :: T.behind rest signal <:+ whole) :
    Simulated t whole size d a (.statement scope s) R
      (a.loop.toList.map fun l => .jump .goto (side l)) R := by
  intro active L rest fuel σ bank least ready _ holds T aims
  have hcode : (a.loop.toList.map fun l => Line.jump .goto (side l)) =
      (a.loop.map side).toList.map (.jump .goto) := by
    cases a.loop <;> rfl
  have hhandled : signal.Handled a → a.loop.isSome := by
    rcases hsignal with rfl | rfl <;> exact id
  show Answers _ _ _ (statementRun t (scopeRun t fuel) fuel scope s σ) _
  rw [hcode, hrun]
  refine jump_answers ?_ (fun handled => ?_) (.start rest False R holds) fun v hv => ?_
  · rcases hsignal with rfl | rfl <;> nofun
  · obtain ⟨l, hloop⟩ := Option.isSome_iff_exists.mp (hhandled handled)
    exact ⟨side l, by rw [hloop]; rfl, hside T aims rest l hloop⟩
  · rcases hsignal with rfl | rfl <;> cases hv

theorem simulated_leave (span : Span) :
    Simulated t whole size d a (.statement scope (.leave span)) R
      (a.loop.toList.map fun (_, done) => .jump .goto done) R :=
  simulated_jump (.inl rfl) (fun _ _ => rfl)
    fun _ aims _ (start, done) hloop => (aims.loop start done hloop).2

theorem simulated_again (span : Span) :
    Simulated t whole size d a (.statement scope (.again span)) R
      (a.loop.toList.map fun (start, _) => .jump .goto start) R :=
  simulated_jump (.inr rfl) (fun _ _ => rfl)
    fun _ aims _ (start, done) hloop => (aims.loop start done hloop).1

theorem simulated_give (span : Span) (ih : Simulated t whole size d a (.expression e) R code R') :
    Simulated t whole size d a (.statement scope (.give e span)) R
      (code ++ a.exit.toList.map (.jump .goto)) R' := by
  intro active L rest fuel σ bank least ready hfuel holds T aims
  have readyValue := ready.part (.give scope e span) trivial ready.lays ready.sound ready.fits
    (List.append_assoc .. ▸ ready.placed)
  show Answers _ _ _ (statementRun t (scopeRun t fuel) fuel scope (.give e span) σ) _
  rw [List.append_assoc]
  refine ih.value readyValue hfuel holds fun v σ₁ bank₁ arrived hacc => ?_
  refine jump_answers (fun h => nomatch h) (fun hhandled => ?_) arrived fun w hw => ?_
  · obtain ⟨exit, hexit⟩ := Option.isSome_iff_exists.mp hhandled
    exact ⟨exit, hexit, aims.exit exit hexit⟩
  · cases hw
    exact hacc

theorem simulated_evaluate (hemits : Emits t d a (.expression e) R n code R' n')
    (ih : Simulated t whole size d a (.expression e) R code R') :
    Simulated t whole size d a (.statement scope (.evaluate e)) R code R' := by
  intro active L rest fuel σ bank least ready hfuel holds T _
  have readyValue := ready.part (.evaluate scope e) trivial ready.lays ready.sound ready.fits
    ready.placed
  refine (ih active L rest fuel σ bank readyValue hfuel holds).bind ?_
  rintro y σ₁ e' ⟨arrived, -⟩
  refine .ok fun _ => ⟨L, ⟨arrived.weaken False.elim, fun v hv => nomatch hv⟩, ?_, ?_⟩
  · exact fun _ _ => rfl
  · exact fun _ => readyValue.lays_behind hemits

/-! ### Branches -/

/-- A scope that is run by a statement leaves the layout. -/
theorem Answers.enclosed {L : Layout} {T : Targets} {rest rest' : Code} {σ : Store}
    {bank bank₁ : Bank} {x : Except Interruption (Signal × Store)}
    (h : Answers whole least ⟨rest', bank₁⟩ x fun y e =>
      y.1.Handled a → Left size L T R₁ bank₁ rest y e)
    (arrived : Arrived size L False R bank rest' σ ⟨rest', bank₁⟩)
    (hspared : ∀ x, Spared False R x → Spared False R₁ x) (lays : Lays R' L) :
    Answers whole least ⟨rest', bank₁⟩ x fun y e => y.1.Handled a →
      ∃ L', Left size L' T R bank rest y e ∧ (∀ b, b.scope ≠ scope → L' b = L b) ∧
        (y.1 = .next → Lays R' L') :=
  h.imp fun _ _ hdone hhandled =>
    ⟨L, .trans arrived (hdone hhandled) hspared, fun _ _ => rfl, fun _ => lays⟩

theorem simulated_branch (span : Span)
    (tested : Emits t d a (.expression e) R n test R₁ n₁)
    (inner : Emits t d a (.scope body) R₁ (n₁ + 1) first R' n')
    (iht : Simulated t whole size d a (.expression e) R test R₁)
    (ihi : Simulated t whole size d a (.scope body) R₁ first R') :
    Simulated t whole size d a (.statement scope (.branch e body none span)) R
      (test ++ .jump .jzero ⟨.ifEnd, n₁⟩ :: first ++ [.label ⟨.ifEnd, n₁⟩]) R' := by
  intro active L rest fuel σ bank least ready hfuel holds T aims
  have placed : test ++ .jump .jzero ⟨.ifEnd, n₁⟩ :: (first ++ .label ⟨.ifEnd, n₁⟩ :: rest) <:+
      whole := by
    simpa using ready.placed
  have placed₁ := behind [_] (behind test placed)
  have readyTest := ready.part (.test scope e body none span) trivial ready.lays ready.sound
    (Nat.lt_of_le_of_lt inner.leads.highest ready.fits) placed
  have lays₁ := readyTest.lays_behind tested
  have readyBody := ready.part (.body scope e body none span) trivial lays₁
    (tested.leads.sound ready.sound) ready.fits placed₁
  have lays' : Lays R' L := lays₁.emits ready.known readyBody.apart rfl inner
  show Answers _ _ _ (statementRun t (scopeRun t fuel) fuel scope (.branch e body none span) σ) _
  simp only [List.append_assoc, List.cons_append, List.nil_append]
  refine iht.value readyTest hfuel holds fun v σ₁ bank₁ arrived₁ hacc => ?_
  by_cases hv : v = 0
  · rw [if_pos hv]
    refine .jump rfl (by rw [hacc, hv]; rfl) (behind first placed₁) (.ok fun _ => ?_)
    exact ⟨L, ⟨arrived₁.moved rest, fun w hw => nomatch hw⟩, fun _ _ => rfl,
      fun _ => lays'⟩
  · rw [if_neg hv]
    refine .pass rfl (by rw [hacc]; exact beq_false_of_ne hv) ?_
    have hbody := (ihi active L _ fuel σ₁ bank₁ readyBody hfuel arrived₁.holds T aims).onward
      fun h => .label _ h
    exact hbody.enclosed (arrived₁.moved _)
      (fun x hx => hx.expression tested False.elim) lays'

theorem simulated_branchElse {other : ScopeId} (span : Span)
    (tested : Emits t d a (.expression e) R n test R₁ n₁)
    (inner : Emits t d a (.scope body) R₁ (n₁ + 2) first R₂ n₂)
    (otherwise : Emits t d a (.scope other) R₂ n₂ second R' n')
    (iht : Simulated t whole size d a (.expression e) R test R₁)
    (ihi : Simulated t whole size d a (.scope body) R₁ first R₂)
    (iho : Simulated t whole size d a (.scope other) R₂ second R') :
    Simulated t whole size d a (.statement scope (.branch e body (some other) span)) R
      (test ++ .jump .jzero ⟨.ifElse, n₁ + 1⟩ :: first ++ .jump .goto ⟨.ifEnd, n₁⟩ ::
        .label ⟨.ifElse, n₁ + 1⟩ :: second ++ [.label ⟨.ifEnd, n₁⟩]) R' := by
  intro active L rest fuel σ bank least ready hfuel holds T aims
  have placed : test ++ .jump .jzero ⟨.ifElse, n₁ + 1⟩ :: (first ++ .jump .goto ⟨.ifEnd, n₁⟩ ::
      .label ⟨.ifElse, n₁ + 1⟩ :: (second ++ .label ⟨.ifEnd, n₁⟩ :: rest)) <:+ whole := by
    simpa using ready.placed
  have placed₁ := behind [_] (behind test placed)
  have hfailed := behind [_] (behind first placed₁)
  have placed₂ := behind [_] hfailed
  have hfits₂ : R₂.highest < size := Nat.lt_of_le_of_lt otherwise.leads.highest ready.fits
  have readyTest := ready.part (.test scope e body (some other) span) trivial ready.lays ready.sound
    (Nat.lt_of_le_of_lt inner.leads.highest hfits₂) placed
  have lays₁ := readyTest.lays_behind tested
  have hsound₁ := tested.leads.sound ready.sound
  have readyBody := ready.part (.body scope e body (some other) span) trivial lays₁ hsound₁ hfits₂
    placed₁
  have lays₂ : Lays R₂ L := lays₁.emits ready.known readyBody.apart rfl inner
  have readyOther := ready.part (.otherwise scope e body other span) trivial lays₂
    (inner.leads.sound hsound₁) ready.fits placed₂
  have lays' : Lays R' L := lays₂.emits ready.known readyOther.apart rfl otherwise
  have hspared : ∀ x, Spared False R x → Spared False R₁ x :=
    fun x hx => hx.expression tested False.elim
  show Answers _ _ _ (statementRun t (scopeRun t fuel) fuel scope (.branch e body _ span) σ) _
  simp only [List.append_assoc, List.cons_append, List.nil_append]
  refine iht.value readyTest hfuel holds fun v σ₁ bank₁ arrived₁ hacc => ?_
  by_cases hv : v = 0
  · rw [if_pos hv]
    refine .jump rfl (by rw [hacc, hv]; rfl) hfailed ?_
    have hother := (iho active L _ fuel σ₁ bank₁ readyOther hfuel arrived₁.holds T aims).onward
      fun h => .label _ h
    exact hother.enclosed (arrived₁.moved _)
      (fun x hx => (hspared x hx).leads inner.leads False.elim) lays'
  · rw [if_neg hv]
    refine .pass rfl (by rw [hacc]; exact beq_false_of_ne hv) ?_
    have hbody := (ihi active L _ fuel σ₁ bank₁ readyBody hfuel arrived₁.holds T aims).onward
      fun h => .goto (behind second placed₂) h
    exact hbody.enclosed (arrived₁.moved _) hspared lays'

theorem simulated_block (inner : Emits t d a (.scope body) R n code R' n')
    (ih : Simulated t whole size d a (.scope body) R code R') :
    Simulated t whole size d a (.statement scope (.block body)) R code R' := by
  intro active L rest fuel σ bank least ready hfuel holds T aims
  have readyBody := ready.part (.block scope body) trivial ready.lays ready.sound ready.fits
    ready.placed
  exact .enclosed (ih active L rest fuel σ bank readyBody hfuel holds T aims)
    (.start _ False R holds) (fun _ hx => hx)
    (ready.lays.emits ready.known readyBody.apart rfl inner)

/-! ### Loops -/

/-- A turn of a loop. -/
theorem loop_succ (question : Eval UInt32) (body : Eval Signal) (turns : Nat) :
    Eval.loop question body (turns + 1) = (question >>= fun v =>
      if v = 0 then pure .next
      else body >>= fun signal =>
        match signal with
        | .next | .again => Eval.loop question body turns
        | .leave => pure .next
        | .returned value => pure (.returned value)) := rfl

/-- **The turns of a loop**, from behind its first label. Each turn takes an instruction at
least. -/
theorem loop_answers {least fuel : Nat} {active : List ScopeId} {L : Layout} {rest turn : Code}
    {T : Targets} {bank : Bank} {start done : Mark}
    (hturn : turn = test ++ .jump .jzero done :: (code ++ .jump .goto start :: .label done :: rest))
    (hstart : .label start :: turn <:+ whole)
    (readyTest : Ready t whole size active L (.expression e) R R₁ test
      (.jump .jzero done :: (code ++ .jump .goto start :: .label done :: rest)))
    (readyBody : Ready t whole size active L (.scope body) R₁ R' code
      (.jump .goto start :: .label done :: rest))
    (tested : Emits t d a (.expression e) R n test R₁ n₁)
    (iht : Simulated t whole size d a (.expression e) R test R₁)
    (ihi : Simulated t whole size d { a with loop := some (start, done) } (.scope body) R₁ code R')
    (hfuel : least ≤ fuel - d) (aims : T.Aims whole a) :
    ∀ (turns : Nat) {σ : Store} {bank₁ : Bank}, Arrived size L False R bank turn σ ⟨turn, bank₁⟩ →
      Answers whole (min least turns) ⟨turn, bank₁⟩
        (Eval.loop (value t (scopeRun t fuel) e) (scopeRun t fuel body) turns σ)
        fun y e => y.1.Handled a → Left size L T R bank rest y e
  | 0, σ, bank₁, _ => .unfinished (Nat.min_le_right least 0)
  | turns + 1, σ, bank₁, arrived => by
    have hdone : .label done :: rest <:+ whole := behind [_] (behind code readyBody.placed)
    have aims' : Targets.Aims { T with leave := rest, again := turn } whole
        { a with loop := some (start, done) } := by
      refine ⟨fun start' done' h => ?_, aims.exit⟩
      cases h
      exact ⟨hstart, hdone⟩
    have hspared : ∀ x, Spared False R x → Spared False R₁ x :=
      fun x hx => hx.expression tested False.elim
    have again : ∀ {σ bank₁}, Arrived size L False R bank turn σ ⟨turn, bank₁⟩ → _ :=
      loop_answers hturn hstart readyTest readyBody tested iht ihi hfuel aims turns
    rw [loop_succ, hturn]
    refine iht.value readyTest (Nat.le_trans (Nat.min_le_left _ _) hfuel) arrived.holds ?_
    intro v σ₁ bank₂ arrived₁ hacc
    have arrived₂ := arrived.trans arrived₁ fun _ hx => hx
    by_cases hv : v = 0
    · rw [if_pos hv]
      refine .jump rfl (by rw [hacc, hv]; rfl) hdone (.ok fun _ => ?_)
      exact ⟨arrived₂.moved rest, fun w hw => nomatch hw⟩
    · rw [if_neg hv]
      have hcount : min least (turns + 1) ≤ min least turns + 1 := by omega
      refine (Answers.pass_counted rfl (by rw [hacc]; exact beq_false_of_ne hv) ?_).mono hcount
        fun _ _ h => h
      refine (ihi active L _ fuel σ₁ bank₂ readyBody
        (Nat.le_trans (Nat.min_le_left least turns) hfuel) arrived₂.holds _ aims').bind ?_
      rintro signal σ₂ ⟨_, bank₃⟩ hbody
      have left := fun hhandled => Left.trans arrived₂ (hbody hhandled) hspared
      cases signal with
      | next =>
        obtain ⟨⟨rfl, holds, kept⟩, -⟩ := left trivial
        exact .goto hstart (again ⟨rfl, holds, kept⟩)
      | again =>
        obtain ⟨⟨rfl, holds, kept⟩, -⟩ := left rfl
        exact again ⟨rfl, holds, kept⟩
      | leave =>
        obtain ⟨⟨rfl, holds, kept⟩, -⟩ := left rfl
        exact .ok fun _ => ⟨⟨rfl, holds, kept⟩, fun w hw => nomatch hw⟩
      | returned w =>
        refine .ok fun hhandled => ?_
        obtain ⟨⟨rfl, holds, kept⟩, hvalue⟩ := left hhandled
        exact ⟨⟨rfl, holds, kept⟩, hvalue⟩

theorem simulated_loop (span : Span)
    (tested : Emits t d a (.expression e) R (n + 2) test R₁ n₁)
    (inner : Emits t d { a with loop := some (⟨.whileStart, n⟩, ⟨.whileEnd, n + 1⟩) }
      (.scope body) R₁ n₁ code R' n')
    (iht : Simulated t whole size d a (.expression e) R test R₁)
    (ihi : Simulated t whole size d { a with loop := some (⟨.whileStart, n⟩, ⟨.whileEnd, n + 1⟩) }
      (.scope body) R₁ code R') :
    Simulated t whole size d a (.statement scope (.loop e body span)) R
      (.label ⟨.whileStart, n⟩ :: test ++ .jump .jzero ⟨.whileEnd, n + 1⟩ :: code ++
        [.jump .goto ⟨.whileStart, n⟩, .label ⟨.whileEnd, n + 1⟩]) R' := by
  intro active L rest fuel σ bank least ready hfuel holds T aims
  have placed : .label ⟨.whileStart, n⟩ :: (test ++ .jump .jzero ⟨.whileEnd, n + 1⟩ ::
      (code ++ .jump .goto ⟨.whileStart, n⟩ :: .label ⟨.whileEnd, n + 1⟩ :: rest)) <:+ whole := by
    simpa using ready.placed
  have placed₁ := behind [_] placed
  have readyTest := ready.part (.loopTest scope e body span) trivial ready.lays ready.sound
    (Nat.lt_of_le_of_lt inner.leads.highest ready.fits) placed₁
  have lays₁ := readyTest.lays_behind tested
  have readyBody := ready.part (.loopBody scope e body span) trivial lays₁
    (tested.leads.sound ready.sound) ready.fits (behind [_] (behind test placed₁))
  have lays' : Lays R' L := lays₁.emits ready.known readyBody.apart rfl inner
  show Answers _ _ _ (Eval.loop (value t (scopeRun t fuel) e) (scopeRun t fuel body) fuel σ) _
  simp only [List.append_assoc, List.cons_append, List.nil_append]
  refine .label _ ?_
  have hturns := loop_answers rfl placed readyTest readyBody tested iht ihi hfuel aims fuel
    (.start _ False R holds)
  rw [Nat.min_eq_left (Nat.le_trans hfuel (Nat.sub_le fuel d))] at hturns
  exact .enclosed hturns (.start _ False R holds) (fun _ hx => hx) lays'

/-! ### Rows of statements and scopes -/

theorem simulated_nil : Simulated t whole size d a (.statements scope []) R [] R := by
  intro active L rest fuel σ bank least ready _ holds T _
  exact .ok fun _ => ⟨L, ⟨.start rest False R holds, fun v hv => nomatch hv⟩, fun _ _ => rfl,
    fun _ => ready.lays⟩

/-- The statements behind one that goes on. -/
theorem statementsRun_cons (enter : ScopeId → Eval Signal) (turns : Nat) (s : Statement)
    (l : List Statement) :
    statementsRun t enter turns scope (s :: l) =
      (statementRun t enter turns scope s >>= fun signal =>
        match signal with
        | .next => statementsRun t enter turns scope l
        | signal => pure signal) := rfl

theorem simulated_silent {l : List Statement} {s : Statement} (silent : s.isSilent = true)
    (ih : Simulated t whole size d a (.statements scope l) R code R') :
    Simulated t whole size d a (.statements scope (s :: l)) R code R' := by
  intro active L rest fuel σ bank least ready hfuel holds T aims
  have readyRest := ready.part (.tail scope s l)
    (fun i e span hmem => ready.bound i e span (List.mem_cons_of_mem s hmem)) ready.lays ready.sound
    ready.fits ready.placed
  have hrun : statementsRun t (scopeRun t fuel) fuel scope (s :: l) σ =
      statementsRun t (scopeRun t fuel) fuel scope l σ := by
    cases s with
    | function | parameter => rfl
    | _ => cases silent
  show Answers _ _ _ (statementsRun t (scopeRun t fuel) fuel scope (s :: l) σ) _
  rw [hrun]
  exact ih active L rest fuel σ bank readyRest hfuel holds T aims

/-- The scopes of a layout stay known when a statement of one of them declares a name. -/
theorem Known.same {active : List ScopeId} {L L' : Layout} (h : Known active L)
    (hscope : scope ∈ active) (hsame : ∀ b, b.scope ≠ scope → L' b = L b) : Known active L' := by
  intro b p hb
  by_cases hs : b.scope = scope
  · exact hs ▸ hscope
  · exact h b p (hsame b hs ▸ hb)

theorem simulated_cons {l : List Statement} {s : Statement}
    (head : Emits t d a (.statement scope s) R n first R₁ n₁)
    (others : Emits t d a (.statements scope l) R₁ n₁ second R' n')
    (ihf : Simulated t whole size d a (.statement scope s) R first R₁)
    (iho : Simulated t whole size d a (.statements scope l) R₁ second R') :
    Simulated t whole size d a (.statements scope (s :: l)) R
      (.comment s.summary :: first ++ second) R' := by
  intro active L rest fuel σ bank least ready hfuel holds T aims
  have placed : .comment s.summary :: (first ++ (second ++ rest)) <:+ whole := by
    simpa using ready.placed
  have placed₁ := behind [_] placed
  have hscope : scope ∈ active := ready.home scope rfl
  have readyHead := ready.part (.head scope s l)
    (fun i e span hs => ready.bound i e span (hs ▸ List.mem_cons_self)) ready.lays ready.sound
    (Nat.lt_of_le_of_lt others.leads.highest ready.fits) placed₁
  show Answers _ _ _ (statementsRun t (scopeRun t fuel) fuel scope (s :: l) σ) _
  rw [statementsRun_cons]
  simp only [List.append_assoc, List.cons_append]
  refine .comment _ ((ihf active L _ fuel σ bank readyHead hfuel holds T aims).bind ?_)
  rintro signal σ₁ ⟨_, bank₁⟩ hdone
  cases signal with
  | next =>
    obtain ⟨L₁, ⟨⟨rfl, holds₁, kept₁⟩, -⟩, hsame₁, hlays₁⟩ := hdone trivial
    have readyRest : Ready t whole size active L₁ (.statements scope l) R₁ R' second rest :=
      { apart := ready.apart.part (.tail scope s l)
        home := ready.home
        bound := fun i e span hmem => ready.bound i e span (List.mem_cons_of_mem s hmem)
        known := ready.known.same hscope hsame₁
        lays := hlays₁ rfl
        sound := head.leads.sound ready.sound
        fits := ready.fits
        placed := behind first placed₁ }
    refine (iho active L₁ rest fuel σ₁ bank₁ readyRest hfuel holds₁ T aims).imp ?_
    intro y e hrest hhandled
    obtain ⟨L₂, hleft, hsame₂, hlays₂⟩ := hrest hhandled
    have arrived₁ : Arrived size L₁ False R bank _ σ₁ ⟨_, bank₁⟩ := ⟨rfl, holds₁, kept₁⟩
    exact ⟨L₂, .trans arrived₁ hleft fun x hx => hx.leads head.leads False.elim,
      fun b hb => (hsame₂ b hb).trans (hsame₁ b hb), hlays₂⟩
  | leave | again | returned v =>
    refine .ok fun hhandled => ?_
    obtain ⟨L₁, ⟨⟨hcode, holds₁, kept₁⟩, hvalue⟩, hsame₁, -⟩ := hdone hhandled
    exact ⟨L₁, ⟨⟨hcode, holds₁, kept₁⟩, hvalue⟩, hsame₁, fun hnext => nomatch hnext⟩

/-- The statements of a scope, whose bindings end with it. -/
theorem scopeRun_succ (fuel : Nat) (σ : Store) :
    scopeRun t (fuel + 1) scope σ =
      (statementsRun t (scopeRun t fuel) fuel scope (t.scope scope).statements.toList >>=
        fun signal =>
        modify (·.erase scope) >>= fun _ => pure signal) (σ.erase scope) := rfl

theorem simulated_scope (hbound : (Task.inside t scope).Bound)
    (ih : Simulated t whole size d a (.inside t scope) R code R₁) :
    Simulated t whole size (d + 1) a (.scope scope) R code (t.release scope R₁) := by
  intro active L rest fuel σ bank least ready hfuel holds T aims
  cases fuel with
  | zero => exact .unfinished (by omega)
  | succ fuel =>
    have readyInside : Ready t whole size (scope :: active) L (.inside t scope) R R₁ code rest :=
      { apart := ready.apart.inside
        home := fun s hs => Option.some.inj hs ▸ List.mem_cons_self
        bound := hbound
        known := ready.known.mono fun s hs => List.mem_cons_of_mem scope hs
        lays := ready.lays
        sound := ready.sound
        fits := Nat.lt_of_le_of_lt (leads_releaseScope t scope R₁).highest ready.fits
        placed := ready.placed }
    show Answers _ _ _ (scopeRun t (fuel + 1) scope σ) _
    rw [scopeRun_succ]
    have herased := holds.erase (s := scope) fun _ _ => rfl
    refine (ih _ L rest fuel _ bank readyInside (by omega) herased T aims).bind ?_
    rintro signal σ₁ e hdone
    refine .ok fun hhandled => ?_
    obtain ⟨L', ⟨arrived, hvalue⟩, hsame, -⟩ := hdone hhandled
    exact ⟨arrived.erase hsame, hvalue⟩

end Statements

/-- **All code does what its part of the tree means.** -/
theorem Emits.simulated {t : Tree} {whole : Code} {size d : Nat} {a : Surroundings} {task : Task}
    {R R' : Registers} {n n' : Nat} {code : Code} (separate : t.Separate)
    (hbound : ∀ scope, (Task.inside t scope).Bound) (hmax : size ≤ maxRegisters + 1)
    (h : Emits t d a task R n code R' n') : Simulated t whole size d a task R code R' := by
  induction h with
  | number value span => exact simulated_number value span
  | name register => exact simulated_name register
  | element span array address temporary ih =>
    exact simulated_element span hmax array address temporary ih
  | simple span second first operation => exact simulated_simple span second first operation
  | spilled span second leftCode temporary operation ih =>
    exact simulated_spilled span second leftCode temporary operation ih
  | binary span leftCode leftTemporary rightCode rightTemporary operation ihl ihr =>
    exact simulated_binary span leftCode leftTemporary rightCode rightTemporary operation ihl ihr
  | call span fresh function arguments inlined iha ihb =>
    exact simulated_call separate span function arguments inlined iha ihb
  | direct plain passing ih => exact simulated_direct ih
  | staging calls staged moved ih => exact simulated_staging staged moved ih
  | stagedNil => exact simulated_stagedNil
  | stagedCons argument temporary rest iha ihr =>
    exact simulated_stagedCons argument temporary rest iha ihr
  | passingNil none => exact simulated_passingNil none
  | passingCons plain argument register rest iha ihr =>
    exact simulated_passingCons plain argument register rest iha ihr
  | array place span registers => exact simulated_array place span registers
  | assign initial span value register ih => exact simulated_assign initial span value register ih
  | assignElement initial place span array address temporary value iha ihv =>
    exact simulated_assignElement initial place span hmax array address temporary value iha ihv
  | branch span tested inner iht ihi => exact simulated_branch span tested inner iht ihi
  | branchElse span tested inner otherwise iht ihi iho =>
    exact simulated_branchElse span tested inner otherwise iht ihi iho
  | loop span tested inner iht ihi => exact simulated_loop span tested inner iht ihi
  | block inner ih => exact simulated_block inner ih
  | leave span => exact simulated_leave span
  | again span => exact simulated_again span
  | give span value ih => exact simulated_give span ih
  | evaluate value ih => exact simulated_evaluate value ih
  | nil => exact simulated_nil
  | silent silent others ih => exact simulated_silent silent ih
  | cons first others ihf iho => exact simulated_cons first others ihf iho
  | @scope _ _ _ _ _ _ _ scope inner ih => exact simulated_scope (hbound scope) ih

end RegisterMachine.Structured
