import RegisterMachine.Assembly.Program.Listing
import RegisterMachine.Proofs.Assembly.Checked

/-! # The entries of a program

A program is built entry by entry, and an entry is a label or an instruction. The tokens of a source
are groups that spell entries; a listing has a line for each of them, in the same order.

* `Entry`, `Program.extend`: entries, and the program that they make.
* `Groups`: the entries that tokens spell; `parseFrom_groups`: reading finds them.
* `Program.unplaced`: a program without its places in the source, which no check depends on.
* `listingLines_extend`: the listing of what entries make. -/

namespace RegisterMachine.Assembly

open RegisterMachine.Success

/-! ### Entries -/

/-- **A label, or an instruction.** -/
inductive Entry
  | label (name : String) (span : Span)
  | instruction (i : Instruction)

/-- The program with one more entry. -/
def Program.push (p : Program) : Entry → Program
  | .label name span => p.pushLabel name span
  | .instruction i => p.pushInstruction i

/-- **The program with more entries.** -/
def Program.extend (p : Program) (es : List Entry) : Program := es.foldl push p

section Extended

variable {p : Program} {es : List Entry}

theorem mem_instructions_extend {i : Instruction} : i ∈ (p.extend es).instructions ↔
    i ∈ p.instructions ∨ .instruction i ∈ es := by
  induction es generalizing p with
  | nil => simp [Program.extend]
  | cons e es ih =>
    refine (ih (p := p.push e)).trans ?_
    cases e with
    | label name span => simp [Program.push, Program.pushLabel]
    | instruction j => simp [Program.push, Program.pushInstruction, or_assoc]

theorem exists_label_extend {name : String} : (∃ l ∈ (p.extend es).labels, l.name = name) ↔
    (∃ l ∈ p.labels, l.name = name) ∨ ∃ span, .label name span ∈ es := by
  induction es generalizing p with
  | nil => simp [Program.extend]
  | cons e es ih =>
    refine (ih (p := p.push e)).trans ?_
    cases e with
    | label other span =>
      have hpush : (∃ l ∈ (p.pushLabel other span).labels, l.name = name) ↔
          (∃ l ∈ p.labels, l.name = name) ∨ other = name := by
        simp [Program.pushLabel, or_and_right, exists_or]
      have hcons : (∃ span', Entry.label name span' ∈ Entry.label other span :: es) ↔
          other = name ∨ ∃ span', .label name span' ∈ es := by
        simp [exists_or, eq_comm]
      rw [Program.push, hpush, hcons, or_assoc]
    | instruction j => simp [Program.push, Program.pushInstruction]

end Extended

/-! ### Reading -/

/-- **The tokens, group by group, spell these entries.** -/
inductive Groups : List Token → List Entry → Prop
  | nil : Groups [] []
  | label {ts es} {t : Token} (kind : t.kind = .label) (rest : Groups ts es) :
    Groups (t :: ts) (.label t.name t.span :: es)
  | halt {ts es} {t : Token} (kind : t.kind = .opcode) (value : t.value = .opcode .halt)
    (rest : Groups ts es) : Groups (t :: ts) (.instruction ⟨.halt, none, t.span⟩ :: es)
  | operation {ts es} {t a : Token} {op : Opcode} {argument : Argument} (kind : t.kind = .opcode)
    (value : t.value = .opcode op) (hop : op ≠ .halt) (spells : argument? a = some argument)
    (accepts : op.accepts argument = true) (rest : Groups ts es) :
    Groups (t :: a :: ts) (.instruction ⟨op, some argument, t.span⟩ :: es)

/-- An opcode other than `END` is read with the token behind it. -/
theorem readInstruction_spells {op : Opcode} {span : Span} {a : Token} {i : Instruction}
    (h : readInstruction op span a = .ok i) : ∃ argument, argument? a = some argument ∧
      op.accepts argument = true ∧ i = ⟨op, some argument, span⟩ := by
  unfold readInstruction at h
  split at h
  · rename_i argument hargument
    split at h
    · rename_i haccepts
      cases h
      exact ⟨argument, hargument, haccepts, rfl⟩
    · cases h
  · cases h

/-- **Whatever is read is a row of groups.** -/
theorem parseFrom_groups (program : Program) (tokens : List Token) {p : Program}
    (h : parseFrom program tokens = .ok p) : ∃ es, Groups tokens es ∧ p = program.extend es := by
  fun_induction parseFrom program tokens with
  | case1 program =>
    cases h
    exact ⟨[], .nil, rfl⟩
  | case2 program t rest hkind ih =>
    obtain ⟨es, hes, rfl⟩ := ih h
    exact ⟨_, .label hkind hes, rfl⟩
  | case3 program t rest hkind hvalue ih =>
    obtain ⟨es, hes, rfl⟩ := ih h
    exact ⟨_, .halt hkind hvalue hes, rfl⟩
  | case6 program t hkind op hop hvalue a rest i hread ih =>
    obtain ⟨argument, hspells, haccepts, rfl⟩ := readInstruction_spells hread
    obtain ⟨es, hes, rfl⟩ := ih h
    exact ⟨_, .operation hkind hvalue hop hspells haccepts hes, rfl⟩
  | case4 | case5 | case7 | case8 => cases h

section Read

variable (program : Program) {t a : Token} (rest : List Token)

theorem parseFrom_label (hkind : t.kind = .label) :
    parseFrom program (t :: rest) = parseFrom (program.pushLabel t.name t.span) rest := by
  rw [parseFrom, hkind]

theorem parseFrom_halt (hkind : t.kind = .opcode) (hvalue : t.value = .opcode .halt) :
    parseFrom program (t :: rest) =
      parseFrom (program.pushInstruction ⟨.halt, none, t.span⟩) rest := by
  rw [parseFrom, hkind, hvalue]

theorem parseFrom_opcode {op : Opcode} {argument : Argument} (hkind : t.kind = .opcode)
    (hvalue : t.value = .opcode op) (hop : op ≠ .halt) (ha : argument? a = some argument)
    (haccepts : op.accepts argument = true) :
    parseFrom program (t :: a :: rest) =
      parseFrom (program.pushInstruction ⟨op, some argument, t.span⟩) rest := by
  have hread : readInstruction op t.span a = .ok ⟨op, some argument, t.span⟩ := by
    simp [readInstruction, ha, haccepts]
  rw [parseFrom, hkind, hvalue]
  cases op <;> first | exact absurd rfl hop | simp only [hread]

/-- A token that spells no argument is refused behind an opcode. -/
theorem parseFrom_refused {op : Opcode} (hkind : t.kind = .opcode) (hvalue : t.value = .opcode op)
    (hop : op ≠ .halt) (ha : argument? a = none) :
    ∃ e, parseFrom program (t :: a :: rest) = .error e := by
  have hread : readInstruction op t.span a = .error (.invalidArgument op a.raw a.span) := by
    simp [readInstruction, ha]
  rw [parseFrom, hkind, hvalue]
  cases op <;> first | exact absurd rfl hop | (simp only [hread]; exact ⟨_, rfl⟩)

end Read

/-! ### Places -/

/-- Without its place in the source. -/
def Label.unplaced (l : Label) : Label := { l with span := {} }

def Argument.unplaced : Argument → Argument
  | operand o _ => operand o {}
  | reference name target _ => reference name (target.map Label.unplaced) {}

def Instruction.unplaced (i : Instruction) : Instruction :=
  { i with argument := i.argument.map Argument.unplaced, span := {} }

def Entry.unplaced : Entry → Entry
  | label name _ => label name {}
  | instruction i => instruction i.unplaced

/-- **A program without its places in the source.** -/
def Program.unplaced (p : Program) : Program :=
  ⟨p.instructions.map Instruction.unplaced, p.labels.map Label.unplaced⟩

namespace Program

variable {p q : Program}

theorem unplaced_push (p : Program) (e : Entry) :
    (p.push e).unplaced = p.unplaced.push e.unplaced := by
  cases e with
  | label name span => simp [push, pushLabel, unplaced, Entry.unplaced, Label.unplaced]
  | instruction i => simp [push, pushInstruction, unplaced, Entry.unplaced]

theorem unplaced_extend (p : Program) (es : List Entry) :
    (p.extend es).unplaced = p.unplaced.extend (es.map Entry.unplaced) := by
  induction es generalizing p with
  | nil => rfl
  | cons e es ih =>
    refine (ih (p.push e)).trans ?_
    rw [unplaced_push]
    rfl

theorem label?_unplaced (p : Program) (name : String) :
    p.unplaced.label? name = (p.label? name).map Label.unplaced :=
  Array.find?_map

theorem resolve_instruction_unplaced (p : Program) (i : Instruction) :
    (i.unplaced.resolve p.unplaced).toOption = (i.resolve p).toOption.map Instruction.unplaced := by
  obtain ⟨op, _ | ⟨o, place⟩ | ⟨name, target, place⟩, span⟩ := i
  · rfl
  · rfl
  · simp only [Instruction.unplaced, Option.map_some, Argument.unplaced, Instruction.resolve,
      label?_unplaced]
    cases p.label? name <;> rfl

/-- **Labels are found by their names**, wherever they stand. -/
theorem resolve_unplaced (p : Program) :
    p.unplaced.resolve.toOption = p.resolve.toOption.map unplaced := by
  have hrow := toOption_mapM (Instruction.resolve p) (Instruction.resolve p.unplaced)
    Instruction.unplaced Instruction.unplaced (l := p.instructions.toList)
    fun i _ => resolve_instruction_unplaced p i
  have hlist : p.unplaced.instructions.toList = p.instructions.toList.map Instruction.unplaced :=
    Array.toList_map
  rw [resolve, resolve, toOption_map, toOption_map, toOption_arrayMapM, toOption_arrayMapM, hlist,
    hrow]
  cases (p.instructions.toList.mapM (Instruction.resolve p)).toOption with
  | none => rfl
  | some is => simp [unplaced]

theorem register?_unplaced (a : Argument) : a.unplaced.register? = a.register? := by
  cases a <;> rfl

theorem checkBounds_unplaced (p : Program) (bank : Nat) :
    p.unplaced.checkBounds bank = .ok () ↔ p.checkBounds bank = .ok () := by
  rw [checkBounds_ok_iff, checkBounds_ok_iff]
  refine ⟨fun h i hi a ha r hr => ?_, fun h i hi a ha r hr => ?_⟩
  · refine h i.unplaced (Array.mem_map_of_mem hi) a.unplaced ?_ r ?_
    · rw [Instruction.unplaced, ha]
      rfl
    · rw [register?_unplaced, hr]
  · obtain ⟨j, hj, rfl⟩ := Array.mem_map.mp hi
    obtain ⟨b, hb, rfl⟩ := Option.map_eq_some_iff.mp ha
    exact h j hj b hb r ((register?_unplaced b).symm.trans hr)

/-- **The checks do not depend on places.** What they make of programs that differ in their places
differs in its places. -/
theorem checked_of_unplaced {p' : Program} {bank : Nat} (heq : p'.unplaced = p.unplaced)
    (hresolve : p.resolve = .ok q) (hbounds : q.checkBounds bank = .ok ()) :
    ∃ q', p'.resolve = .ok q' ∧ q'.unplaced = q.unplaced ∧ q'.checkBounds bank = .ok () := by
  have hresolved : p'.resolve.toOption.map unplaced = some q.unplaced := by
    rw [← resolve_unplaced, heq, resolve_unplaced, hresolve]
    rfl
  obtain ⟨q', hq', hsame⟩ := Option.map_eq_some_iff.mp hresolved
  refine ⟨q', ok_of_toOption hq', hsame, (checkBounds_unplaced q' bank).mp ?_⟩
  rw [hsame]
  exact (checkBounds_unplaced q bank).mpr hbounds

end Program

/-! ### Listings -/

/-- The line of an entry. -/
def Entry.line : Entry → String
  | label name _ => s!"{name}:"
  | instruction i => i.text

section Lines

variable {labels : List Label} {here here' : Nat → Bool} {p q : Program}

theorem labelLines_congr (h : ∀ l ∈ labels, here l.address = here' l.address) :
    labelLines labels here = labelLines labels here' := by
  rw [labelLines, labelLines, List.filter_congr h]

theorem labelLines_push (l : Label) : labelLines (labels ++ [l]) here =
    labelLines labels here ++ if here l.address then [s!"{l.name}:"] else [] := by
  rw [labelLines, List.filter_append, List.map_append, labelLines]
  cases h : here l.address <;> simp [h]

/-- Every label stands in the program, or just behind it. -/
def Program.Marked (p : Program) : Prop := ∀ l ∈ p.labels, l.address ≤ p.instructions.size

theorem Program.Marked.push (h : p.Marked) (e : Entry) : (p.push e).Marked := by
  intro l hl
  cases e with
  | label name span =>
    obtain hl | rfl := Array.mem_push.mp hl
    · exact h l hl
    · exact Nat.le_refl _
  | instruction i =>
    have hsize : (p.push (.instruction i)).instructions.size = p.instructions.size + 1 :=
      Array.size_push _
    rw [hsize]
    exact Nat.le_succ_of_le (h l hl)

/-- **A new entry is the last line.** -/
theorem listingLines_push (h : p.Marked) (e : Entry) :
    (p.push e).listingLines false = p.listingLines false ++ [e.line] := by
  cases e with
  | label name span =>
    have hbefore : ∀ entry ∈ p.instructions.toList.zipIdx,
        instructionLines (p.labels.toList ++ [⟨name, p.instructions.size, span⟩]) false entry.2
          entry.1 = instructionLines p.labels.toList false entry.2 entry.1 := by
      intro entry hentry
      have hlt : entry.2 < p.instructions.size := by
        simpa using (List.mem_zipIdx hentry).2.1
      rw [instructionLines, instructionLines, labelLines_push,
        if_neg (by simpa using Nat.ne_of_gt hlt), List.append_nil]
    simp only [Program.listingLines, Program.push, Program.pushLabel, Array.toList_push]
    rw [List.flatMap_congr hbefore, labelLines_push, if_pos (by simp), List.append_assoc]
    rfl
  | instruction i =>
    have hlast : labelLines p.labels.toList (p.instructions.size + 1 ≤ ·) = [] := by
      rw [labelLines, List.filter_eq_nil_iff.mpr, List.map_nil]
      intro l hl
      have := h l (Array.mem_toList_iff.mp hl)
      simp only [decide_eq_true_eq]
      omega
    have hmarked : labelLines p.labels.toList (· == p.instructions.size) =
        labelLines p.labels.toList (p.instructions.size ≤ ·) := by
      refine labelLines_congr fun l hl => ?_
      have := h l (Array.mem_toList_iff.mp hl)
      rw [Bool.eq_iff_iff, beq_iff_eq, decide_eq_true_eq]
      omega
    simp only [Program.listingLines, Program.push, Program.pushInstruction, Array.toList_push,
      Array.size_push, hlast, List.append_nil, List.zipIdx_append, List.flatMap_append,
      List.zipIdx_cons, List.zipIdx_nil, List.flatMap_cons, List.flatMap_nil, instructionLines,
      Array.length_toList, Nat.zero_add, hmarked, Bool.false_eq_true, if_false,
      List.append_assoc, Entry.line]

/-- **The listing of what entries make** has their lines in order. -/
theorem listingLines_extend (es : List Entry) (h : p.Marked) :
    (p.extend es).listingLines false = p.listingLines false ++ es.map Entry.line := by
  induction es generalizing p with
  | nil => exact (List.append_nil _).symm
  | cons e es ih =>
    refine (ih (h.push e)).trans ?_
    rw [listingLines_push h, List.append_assoc, List.singleton_append, List.map_cons]

/-- A label that is found does not change the text of the reference. -/
theorem text_resolve {i j : Instruction} (h : i.resolve p = .ok j) : j.text = i.text := by
  obtain ⟨hop, ⟨rfl, -⟩ | ⟨name, target, label, span, hi, -, hj⟩⟩ := instruction_resolve_ok h
  · rfl
  · rw [Instruction.text, Instruction.text, hi, hj, hop]
    rfl

theorem flatMap_zipIdx_congr {R : Instruction → Instruction → Prop} {is js : List Instruction}
    {f : Instruction × Nat → List String} (h : List.Forall₂ R is js)
    (hf : ∀ i j n, R i j → f (j, n) = f (i, n)) (n : Nat) :
    (js.zipIdx n).flatMap f = (is.zipIdx n).flatMap f := by
  induction h generalizing n with
  | nil => rfl
  | @cons i j is js hij _ ih =>
    rw [List.zipIdx_cons, List.zipIdx_cons, List.flatMap_cons, List.flatMap_cons, ih (n + 1),
      hf i j n hij]

/-- **A resolved program is listed like before.** -/
theorem listingLines_resolve (h : p.resolve = .ok q) (addresses : Bool) :
    q.listingLines addresses = p.listingLines addresses := by
  obtain ⟨hlabels, hinstructions⟩ := resolve_ok h
  have hsize : q.instructions.size = p.instructions.size := by
    simpa using hinstructions.length_eq.symm
  rw [Program.listingLines, Program.listingLines, hlabels, hsize,
    flatMap_zipIdx_congr hinstructions]
  intro i j n hij
  simp only [instructionLines, addressed, text_resolve hij]

end Lines

end RegisterMachine.Assembly
