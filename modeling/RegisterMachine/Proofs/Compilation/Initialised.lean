import RegisterMachine.Proofs.Compilation.Execution
import RegisterMachine.Proofs.Compilation.StopReasons
import RegisterMachine.Proofs.Structured.Guarding

/-! # Compiled programs read what they stored

A machine that runs guarded code reads no register, by its name in an operand, before it stored into
it. The code of a program is guarded if the program reads no name before its declaration. Otherwise
the name has its register from where it is read, and nothing was stored there.

* `Interpreter.Reads`, `Interpreter.Stores`: the registers that the next step reads, or stores into.
* `Watched`: the invariant of a run, with `watched_step` and `watched_after`.
* `Initialised`, `built_initialised`: every run of every compiled program that is prepared.
* `early_reads`: a program that is not, and reads a register that was never stored. -/

namespace RegisterMachine.Machine

open RegisterMachine.Assembly

namespace Interpreter

/-- **The next step reads this register**, by its name in the operand. -/
def Reads (m : Interpreter) (r : Nat) : Prop :=
  m.state ≠ .stopped ∧ ∃ i, m.current? = some i ∧ i.reads? = some r

/-- **The next step is a `STORE` into this register**, by its name or through a pointer. -/
def Stores (m : Interpreter) (r : Nat) : Prop :=
  m.state ≠ .stopped ∧ ∃ i v, m.current? = some i ∧ i.opcode = .store ∧
    effect m.bank m.counter i = .write r v

end Interpreter

/-- **No step reads a register before another one stored into it.** -/
def Initialised (start : Interpreter) : Prop :=
  ∀ k r, (start.after k).Reads r → ∃ j < k, (start.after j).Stores r

/-- A `STORE` that names a register writes it, or halts the machine. -/
theorem write_of_stores {op : Opcode} {o : Operand} {r : Nat} (h : op.stores? o = some r)
    (bank : Bank) (address : Nat) (place span : Span) :
    op = .store ∧ ((∃ v, effect bank address ⟨op, some (.operand o place), span⟩ = .write r v) ∨
      ∃ reason, effect bank address ⟨op, some (.operand o place), span⟩ = .halt reason) := by
  unfold Opcode.stores? at h
  split at h
  · cases h
    refine ⟨rfl, ?_⟩
    show (∃ v, storeEffect bank (.missingArgument address) (.register r) = .write r v) ∨
      ∃ reason, storeEffect bank (.missingArgument address) (.register r) = .halt reason
    by_cases hr : r < bank.size
    · exact .inl ⟨bank.accumulator, if_pos hr⟩
    · exact .inr ⟨_, if_neg hr⟩
  · cases h

end RegisterMachine.Machine

namespace RegisterMachine.Structured

open RegisterMachine.Assembly RegisterMachine.Machine

section Watched

variable {whole rest : Code} {p : Program} {need : Nat → Set Nat} {S T W : Set Nat}
  {m : Interpreter} {bank : Bank} {line : Line} {i : Instruction}

/-- **A running machine is in guarded code**, and all that has to be stored there is in `W`. -/
def Watched (whole : Code) (p : Program) (need : Nat → Set Nat) (W : Set Nat) (m : Interpreter) :
    Prop :=
  m.state ≠ .stopped → ∃ rest S T, At whole p ⟨rest, m.bank⟩ m ∧ Guarded need S rest T ∧ S ⊆ W

/-- The next step reads what the line reads. -/
theorem At.reads {code : Code} {op : Opcode} {o : Operand} {r : Nat}
    (h : At whole p ⟨.operate op o :: code, bank⟩ m) (hp : Assembled whole p)
    (hr : op.reads? o = some r) : m.Reads r := by
  obtain ⟨i, hi, hspells⟩ := h.current hp rfl
  cases hspells
  exact ⟨h.running, _, hi, hr⟩

/-- Behind the code there is no instruction. -/
theorem At.ended (h : At whole p ⟨[], bank⟩ m) (hp : Assembled whole p) : m.current? = none := by
  obtain ⟨before, hwhole, hcounter⟩ := h.counter
  have hlength : whole.instructions.length = p.instructions.size := by
    rw [← Array.length_toList, hp.instructions.length_eq]
  rw [List.append_nil] at hwhole
  subst hwhole
  rw [Interpreter.current?, h.memory, hcounter, hlength]
  exact Array.getElem?_eq_none (Nat.le_refl _)

/-- **The next instruction is that of a line of the guarded code.** -/
theorem At.exists_line (hp : Assembled whole p) (hi : m.current? = some i) :
    ∀ {rest : Code} {S : Set Nat}, At whole p ⟨rest, bank⟩ m → Guarded need S rest T → S ⊆ W →
      ∃ line rest' S', line.isInstruction = true ∧ At whole p ⟨line :: rest', bank⟩ m ∧
        Guarded need S' (line :: rest') T ∧ S' ⊆ W
  | [], S, hat, _, _ => by
    rw [hat.ended hp] at hi
    cases hi
  | .comment text :: rest, S, hat, h, hS => exists_line hp hi (hat.skip rfl) h hS
  | .label mark :: rest, S, hat, h, hS =>
    exists_line hp hi (hat.skip rfl) h.2 (h.1.trans hS)
  | .operate op o :: rest, S, hat, h, hS => ⟨_, _, S, rfl, hat, h, hS⟩
  | .jump op mark :: rest, S, hat, h, hS => ⟨_, _, S, rfl, hat, h, hS⟩
  | .halt :: rest, S, hat, h, hS => ⟨_, _, S, rfl, hat, h, hS⟩

/-- **One step** stays in the guarded code, and what it stores has been stored. -/
theorem watched_step (hp : Assembled whole p) (hwhole : Guarded need ∅ whole T)
    (h : Watched whole p need W m) : Watched whole p need (W ∪ {r | m.Stores r}) m.step.1 := by
  intro hrun
  obtain ⟨i, hs, hi, hstep⟩ := Interpreter.running_step_cases hrun
  obtain ⟨rest, S, T', hat, hguarded, hS⟩ := h hs
  obtain ⟨line, rest', S', hline, hat', hguarded', hS'⟩ := hat.exists_line hp hi hguarded hS
  obtain ⟨i', hi', hspells⟩ := hat'.current hp hline
  obtain rfl : i = i' := Option.some.inj (hi.symm.trans hi')
  have hgrows : S' ⊆ W ∪ {r | m.Stores r} := hS'.trans Set.subset_union_left
  -- what has been stored behind the line, unless it jumps
  have hbehind : (∀ reason, effect m.bank m.counter i ≠ .halt reason) →
      ∃ S'' T'', Guarded need S'' rest' T'' ∧ S'' ⊆ W ∪ {r | m.Stores r} := by
    intro hhalt
    cases hspells with
    | operate op o place span =>
      refine ⟨_, _, hguarded'.2, fun r hr => ?_⟩
      rcases hr with hr | hr
      · obtain ⟨hop, ⟨v, hv⟩ | ⟨reason, hreason⟩⟩ := write_of_stores hr m.bank m.counter
          place span
        · exact .inr ⟨hs, _, v, hi, hop, hv⟩
        · exact absurd hreason (hhalt reason)
      · exact hgrows hr
    | jump op place span leads => exact ⟨_, _, hguarded'.2, hgrows⟩
    | halt span => exact ⟨_, _, hguarded', hgrows⟩
  obtain ⟨he, hstep⟩ | ⟨register, value, he, hstep⟩ | ⟨address, he, hstep⟩ := hstep
  · obtain ⟨S'', T'', hcode, hsub⟩ := hbehind (by simp [he])
    rw [hstep]
    exact ⟨rest', S'', T'', hat'.behind hline rfl nofun rfl rfl, hcode, hsub⟩
  · obtain ⟨S'', T'', hcode, hsub⟩ := hbehind (by simp [he])
    rw [hstep]
    exact ⟨rest', S'', T'', hat'.behind hline rfl nofun rfl rfl, hcode, hsub⟩
  · obtain ⟨name, label, place, ha, rfl⟩ := label_of_jump he
    cases hspells with
    | operate | halt => cases ha
    | @jump op mark _ place span leads =>
      obtain ⟨l, hl, hlabel⟩ := leads
      cases ha
      cases hl
      obtain ⟨before, target, hsplit, haddress⟩ := Code.split_of_mem_labelsFrom hlabel
      have hlabel : At whole p ⟨.label mark :: target, m.step.1.bank⟩ m.step.1 := by
        rw [hstep]
        exact ⟨hat.memory, nofun, rfl, before, hsplit, haddress.trans (Nat.zero_add _)⟩
      refine ⟨target, need mark.number, T, hlabel.skip rfl, ?_, hguarded'.1.trans hgrows⟩
      exact (hsplit ▸ hwhole).at_label

/-- **A run** stays in the guarded code, and all that has to be stored has been stored by one of its
steps. -/
theorem watched_after (hp : Assembled whole p) (hwhole : Guarded need ∅ whole T)
    {start : Interpreter} (h : Watched whole p need ∅ start) (k : Nat) :
    Watched whole p need {r | ∃ j < k, (start.after j).Stores r} (start.after k) := by
  induction k with
  | zero =>
    intro hrun
    obtain ⟨rest, S, T', hat, hguarded, hS⟩ := h hrun
    exact ⟨rest, S, T', hat, hguarded, hS.trans (Set.empty_subset _)⟩
  | succ k ih =>
    intro hrun
    obtain ⟨rest, S, T', hat, hguarded, hS⟩ := watched_step hp hwhole ih hrun
    refine ⟨rest, S, T', hat, hguarded, fun r hr => ?_⟩
    rcases hS hr with ⟨j, hj, hstores⟩ | hstores
    · exact ⟨j, Nat.lt_succ_of_lt hj, hstores⟩
    · exact ⟨k, Nat.lt_succ_self k, hstores⟩

/-- What the next step reads has been stored. -/
theorem Watched.reads (h : Watched whole p need W m) (hp : Assembled whole p) {r : Nat}
    (hr : m.Reads r) : r ∈ W := by
  obtain ⟨hs, i, hi, hreads⟩ := hr
  obtain ⟨rest, S, T, hat, hguarded, hS⟩ := h hs
  obtain ⟨line, rest', S', hline, hat', hguarded', hS'⟩ := hat.exists_line hp hi hguarded hS
  obtain ⟨i', hi', hspells⟩ := hat'.current hp hline
  obtain rfl : i = i' := Option.some.inj (hi.symm.trans hi')
  cases hspells with
  | operate op o place span => exact hS' (hguarded'.1 r hreads)
  | jump | halt => cases hreads

end Watched

/-- **The code of a program that reads no name before its declaration is guarded**, and nothing has
been stored where it starts. -/
theorem emit_guarded {t : Tree} {e : Emission} (ht : Drafted [] t) (h : t.emit = .ok e)
    (prepared : t.Prepared) : ∃ need T, Guarded need ∅ e.code T := by
  obtain ⟨code, R, n, hemits, hcode, -, -⟩ := emit_ok h
  have hbound : ∀ scope, (Task.inside t scope).Bound := fun scope i e span hs => ht.bound hs
  have primed : Primed t t.emissionDepth [] [] ∅ (.scope rootScope) {} :=
    { apart := hemits.apart ht.separate
      home := fun _ hs => nomatch hs
      bound := trivial
      within := fun _ hb => nomatch hb
      prepared := prepared
      backed := ⟨fun _ hb => (nomatch hb), fun _ hr => (nomatch hr)⟩ }
  obtain ⟨T, hguardable, -⟩ := hemits.secured ht.separate hbound [] [] ∅ primed
  obtain ⟨need, hneed⟩ := hguardable.needs
  refine ⟨need, T, ?_⟩
  rw [hcode]
  exact (hneed need (fun _ _ _ => rfl) fun _ hm => nomatch hm).append (guarded_nil need T)

end RegisterMachine.Structured

namespace RegisterMachine

open Structured Assembly Machine Success

/-- **Compiled programs that are prepared read only what they stored**, in a machine that has just
been loaded, whatever it was before and however many registers it has. -/
theorem built_initialised {source : String} {c : Compilation} {p : Program}
    (h : build source = .ok (c, p)) (prepared : c.tree.Prepared) {fresh start : Interpreter}
    {registers : Nat} (hstart : fresh.load p registers = .ok start) : Initialised start := by
  obtain ⟨hcompile, -, hassembled⟩ := build_ok h
  obtain ⟨hdrafted, hemit⟩ := compile_ok hcompile
  obtain ⟨need, T, hguarded⟩ := emit_guarded hdrafted hemit prepared
  have hat : At c.emission.code p ⟨c.emission.code, Bank.zero registers⟩ start := .of_load hstart
  have hwatched : Watched c.emission.code p need ∅ start := fun _ =>
    ⟨c.emission.code, ∅, T, hat.bank ▸ hat, hguarded, subset_rfl⟩
  intro k r hr
  exact (watched_after hassembled hguarded hwatched k).reads hassembled hr

/-! ### A function that reads a scalar which is declared outside -/

/-- The scalar is declared in front of the call. -/
def late : String := "int x = 1; int y = f(); fn f() -> int \x7b return x; \x7d"

/-- The scalar is declared behind the call, and still in front of the function. -/
def early : String := "int y = f(); int x = 1; fn f() -> int \x7b return x; \x7d"

def functionTokens : List Structured.Token :=
  [⟨.keyword .fn, .none, ⟨1, 25, 2⟩, "fn"⟩, ⟨.identifier, .name "f", ⟨1, 28, 1⟩, "f"⟩,
    ⟨.leftParen, .none, ⟨1, 29, 1⟩, "("⟩, ⟨.rightParen, .none, ⟨1, 30, 1⟩, ")"⟩,
    ⟨.arrow, .none, ⟨1, 32, 2⟩, "->"⟩, ⟨.keyword .int, .none, ⟨1, 35, 3⟩, "int"⟩,
    ⟨.leftBrace, .none, ⟨1, 39, 1⟩, "\x7b"⟩, ⟨.keyword .return, .none, ⟨1, 41, 6⟩, "return"⟩,
    ⟨.identifier, .name "x", ⟨1, 48, 1⟩, "x"⟩, ⟨.semicolon, .none, ⟨1, 49, 1⟩, ";"⟩,
    ⟨.rightBrace, .none, ⟨1, 51, 1⟩, "\x7d"⟩]

def lateTokens : List Structured.Token :=
  [⟨.keyword .int, .none, ⟨1, 1, 3⟩, "int"⟩, ⟨.identifier, .name "x", ⟨1, 5, 1⟩, "x"⟩,
    ⟨.assign, .none, ⟨1, 7, 1⟩, "="⟩, ⟨.number, .number 1, ⟨1, 9, 1⟩, "1"⟩,
    ⟨.semicolon, .none, ⟨1, 10, 1⟩, ";"⟩, ⟨.keyword .int, .none, ⟨1, 12, 3⟩, "int"⟩,
    ⟨.identifier, .name "y", ⟨1, 16, 1⟩, "y"⟩, ⟨.assign, .none, ⟨1, 18, 1⟩, "="⟩,
    ⟨.identifier, .name "f", ⟨1, 20, 1⟩, "f"⟩, ⟨.leftParen, .none, ⟨1, 21, 1⟩, "("⟩,
    ⟨.rightParen, .none, ⟨1, 22, 1⟩, ")"⟩, ⟨.semicolon, .none, ⟨1, 23, 1⟩, ";"⟩] ++ functionTokens

def earlyTokens : List Structured.Token :=
  [⟨.keyword .int, .none, ⟨1, 1, 3⟩, "int"⟩, ⟨.identifier, .name "y", ⟨1, 5, 1⟩, "y"⟩,
    ⟨.assign, .none, ⟨1, 7, 1⟩, "="⟩, ⟨.identifier, .name "f", ⟨1, 9, 1⟩, "f"⟩,
    ⟨.leftParen, .none, ⟨1, 10, 1⟩, "("⟩, ⟨.rightParen, .none, ⟨1, 11, 1⟩, ")"⟩,
    ⟨.semicolon, .none, ⟨1, 12, 1⟩, ";"⟩, ⟨.keyword .int, .none, ⟨1, 14, 3⟩, "int"⟩,
    ⟨.identifier, .name "x", ⟨1, 18, 1⟩, "x"⟩, ⟨.assign, .none, ⟨1, 20, 1⟩, "="⟩,
    ⟨.number, .number 1, ⟨1, 22, 1⟩, "1"⟩, ⟨.semicolon, .none, ⟨1, 23, 1⟩, ";"⟩] ++ functionTokens

theorem tokenize_late : Structured.tokenize late = .ok lateTokens :=
  ok_of_toOption (by decide +kernel)

theorem tokenize_early : Structured.tokenize early = .ok earlyTokens :=
  ok_of_toOption (by decide +kernel)

/-- Two statements in front of the function. -/
def functionTree (first second : Statement) : Tree :=
  ⟨#[⟨[], #[first, second,
      .function ⟨"f", some .int, some rootScope, ⟨1, 28, 1⟩⟩ 1 2 (some .int) ⟨1, 25, 4⟩]⟩,
    ⟨[rootScope], #[]⟩,
    ⟨[1], #[.give (.name ⟨"x", some .int, some rootScope, ⟨1, 48, 1⟩⟩) ⟨1, 41, 8⟩]⟩]⟩

def lateTree : Tree := functionTree
  (.assign (.name ⟨"x", some .int, some rootScope, ⟨1, 5, 1⟩⟩) (.number 1 ⟨1, 9, 1⟩) true
    ⟨1, 1, 10⟩)
  (.assign (.name ⟨"y", some .int, some rootScope, ⟨1, 16, 1⟩⟩)
    (.call ⟨"f", none, none, ⟨1, 20, 1⟩⟩ [] (some ⟨rootScope, 2⟩) ⟨1, 20, 3⟩) true ⟨1, 12, 12⟩)

def earlyTree : Tree := functionTree
  (.assign (.name ⟨"y", some .int, some rootScope, ⟨1, 5, 1⟩⟩)
    (.call ⟨"f", none, none, ⟨1, 9, 1⟩⟩ [] (some ⟨rootScope, 2⟩) ⟨1, 9, 3⟩) true ⟨1, 1, 12⟩)
  (.assign (.name ⟨"x", some .int, some rootScope, ⟨1, 18, 1⟩⟩) (.number 1 ⟨1, 22, 1⟩) true
    ⟨1, 14, 10⟩)

theorem analyze_late : analyze late = .ok lateTree := by
  rw [analyze, tokenize_late]
  cbv

theorem analyze_early : analyze early = .ok earlyTree := by
  rw [analyze, tokenize_early]
  cbv

theorem compile_late : ∃ c, compile late = .ok c ∧ c.tree.Prepared ∧
    c.emission.registerCount = 2 ∧ ∃ others, c.emission.code =
      .comment "declare x = 1" :: Code.load (.immediate 1) :: Code.store 1 ::
        .comment "declare y = f()" :: .comment "inline f" :: .comment "return x" ::
        Code.load (.register 1) :: others := by
  have hemission : lateTree.emit.toOption.map (fun e => (e.registerCount, e.code.take 7)) =
      some (2, [.comment "declare x = 1", Code.load (.immediate 1), Code.store 1,
        .comment "declare y = f()", .comment "inline f", .comment "return x",
        Code.load (.register 1)]) := by
    decide +kernel
  obtain ⟨e, he, hfacts⟩ := Option.map_eq_some_iff.mp hemission
  obtain ⟨hcount, hcode⟩ := Prod.mk.inj hfacts
  refine ⟨_, compile_of_emit analyze_late (ok_of_toOption he), ?_, hcount, e.code.drop 7, ?_⟩
  · show lateTree.Prepared
    decide +kernel
  · exact (List.take_append_drop 7 e.code).symm.trans (congrArg (· ++ _) hcode)

theorem compile_early : ∃ c, compile early = .ok c ∧ c.emission.registerCount = 2 ∧
    ∃ others, c.emission.code = .comment "declare y = f()" :: .comment "inline f" ::
      .comment "return x" :: Code.load (.register 1) :: others := by
  have hemission : earlyTree.emit.toOption.map (fun e => (e.registerCount, e.code.take 4)) =
      some (2, [.comment "declare y = f()", .comment "inline f", .comment "return x",
        Code.load (.register 1)]) := by
    decide +kernel
  obtain ⟨e, he, hfacts⟩ := Option.map_eq_some_iff.mp hemission
  obtain ⟨hcount, hcode⟩ := Prod.mk.inj hfacts
  refine ⟨_, compile_of_emit analyze_early (ok_of_toOption he), hcount, e.code.drop 4, ?_⟩
  exact (List.take_append_drop 4 e.code).symm.trans (congrArg (· ++ _) hcode)

/-- The function reads the scalar in the third step, and a step before stored it. -/
theorem late_initialised : ∃ c p start, build late = .ok (c, p) ∧ c.tree.Prepared ∧
    Interpreter.load {} p 2 = .ok start ∧ (start.after 2).Reads 1 ∧
    ∃ j < 2, (start.after j).Stores 1 := by
  obtain ⟨c, hc, hprepared, hcount, others, hcode⟩ := compile_late
  obtain ⟨p, hbuild⟩ := exists_build hc (hcount ▸ by decide)
  obtain ⟨start, hstart⟩ := load_ok (show 2 ≤ maxRegisters by decide) p {}
  obtain ⟨hcompile, -, hassembled⟩ := build_ok hbuild
  obtain ⟨hdrafted, hemit⟩ := compile_ok hcompile
  obtain ⟨-, -, -, hsound⟩ := emit_sound hdrafted.clean hemit
  have hat : At c.emission.code p ⟨c.emission.code, Bank.zero 2⟩ start := .of_load hstart
  rw [hcode] at hassembled hsound hat
  have hreads : (start.after 2).Reads 1 := by
    refine At.reads (r := 1) (Runs.executes hassembled (hsound.nodup.of_map _)
      (e := ⟨Code.load (.register 1) :: others, ((Bank.zero 2).write 0 1).write 1 1⟩) ?_ hat)
      hassembled rfl
    exact .comment _ (.write rfl (.write rfl (.comment _ (.comment _ (.comment _ (.refl _))))))
  exact ⟨c, p, start, hbuild, hprepared, hstart, hreads,
    built_initialised hbuild hprepared hstart 2 1 hreads⟩

/-- **A program that reads what was not stored.** The function reads the scalar in the first
step. -/
theorem early_reads : ∃ c p start, build early = .ok (c, p) ∧
    Interpreter.load {} p c.emission.registerCount = .ok start ∧ start.Reads 1 ∧
    ¬ Initialised start := by
  obtain ⟨c, hc, hcount, others, hcode⟩ := compile_early
  have hfits : c.emission.registerCount ≤ maxRegisters := hcount ▸ by decide
  obtain ⟨p, hbuild⟩ := exists_build hc hfits
  obtain ⟨start, hstart⟩ := load_ok hfits p {}
  obtain ⟨-, -, hassembled⟩ := build_ok hbuild
  have hat : At c.emission.code p ⟨c.emission.code, Bank.zero c.emission.registerCount⟩ start :=
    .of_load hstart
  have hreads : start.Reads 1 := by
    rw [hcode] at hassembled hat
    exact (((hat.skip rfl).skip rfl).skip rfl).reads hassembled rfl
  refine ⟨c, p, start, hbuild, hstart, hreads, fun initialised => ?_⟩
  obtain ⟨j, hj, -⟩ := initialised 0 1 hreads
  exact absurd hj (Nat.not_lt_zero j)

end RegisterMachine
