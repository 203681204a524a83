import RegisterMachine.Proofs.Structured.Lexical

/-! # Every tree that is read has a derivation

What the parser reads of tokens whose names are names may stand where it was read, so a tree that is
built of such tokens is derived by the rules that write it.

* `Parses.readable`, `Forms.plain`, `Builds.draws`: the parts of a tree.
* `parse_draws`: whole trees. -/

namespace RegisterMachine.Structured

open RegisterMachine.Success

namespace Parser

/-! ### Expressions and statements without bodies -/

section Single

variable {used : List Token} {t : Tree} {scope : ScopeId} {around : Surroundings}

theorem Uses.isName (hw : Worded used) {i : Identifier} (h : Uses (· ∈ used) t scope i) :
    IsName i.name := by
  obtain ⟨name, binding, declaration, hname, hkind, -, rfl⟩ := h
  exact hw name hname hkind

theorem allReadable_of_forall {es : List Expression} (h : ∀ e ∈ es, e.Readable t scope) :
    Expression.AllReadable t scope es := by
  induction es with
  | nil => trivial
  | cons e es ih =>
    exact ⟨h e List.mem_cons_self, ih fun e he => h e (List.mem_cons_of_mem _ he)⟩

/-- **An expression may stand where it was parsed.** -/
theorem Parses.readable (bound : t.Bound) (hw : Worded used) {e : Expression}
    (h : Parses (· ∈ used) t scope e) : e.Readable t scope := by
  induction h with
  | number => trivial
  | name use scalar => exact ⟨Uses.isName hw use, Uses.sees bound use, scalar⟩
  | binary _ _ _ ih ih' => exact ih.binary ih'
  | element use array _ _ ih => exact ⟨Uses.isName hw use, Uses.sees bound use, array, ih⟩
  | call word kind _ _ ih => exact ⟨hw _ word kind, rfl, rfl, rfl, allReadable_of_forall ih⟩

theorem Declares.declarable (hw : Worded used) {i : Identifier}
    (h : Declares (· ∈ used) t scope i) : Declarable t scope i := by
  obtain ⟨⟨name, hname, hkind, hraw, -⟩, hfresh, hbound⟩ := h
  exact ⟨hraw ▸ hw name hname hkind, hfresh, hbound⟩

theorem Forms.plain (bound : t.Bound) (hw : Worded used) {s : Statement}
    (h : Forms (· ∈ used) t scope around s) : Plain t scope around s := by
  cases h with
  | array declares type scalar positive fits =>
    exact .array _ _ (declares.declarable hw) type scalar positive fits
  | declare declares scalar value =>
    exact .declare _ (declares.declarable hw) scalar (value.readable bound hw)
  | assign target value => exact .assign _ (target.readable bound hw) (value.readable bound hw)
  | assignElement target value =>
    exact .assignElement _ _ (target.readable bound hw) (value.readable bound hw)
  | leave inLoop => exact .leave _ inLoop
  | again inLoop => exact .again _ inLoop
  | evaluate value => exact .evaluate _ (value.readable bound hw)

theorem IsCondition.condition (bound : t.Bound) (hw : Worded used) {e : Expression}
    (h : IsCondition (· ∈ used) t scope e) : Condition t scope e :=
  ⟨h.value.readable bound hw, h.comparison⟩

theorem BuildsParameters.draws (hw : Worded used) {t' : Tree} {ps : List Identifier}
    (h : BuildsParameters (· ∈ used) scope t ps t') : DrawsParameters scope t ps t' := by
  induction h with
  | nil t => exact .nil t
  | cons declares scalar _ ih => exact .cons (declares.declarable hw) scalar ih

end Single

/-! ### Derivations -/

/-- **What is built of names is derived.** -/
theorem Builds.draws {d d' : Draft} {scope : ScopeId} {around : Surroundings} {l : List Statement}
    {used : List Token} (h : Builds d scope around l used d') :
    Worded used → scope < d.tree.scopes.size → d.tree.Lexical →
      ∃ written, Draws d scope around l written d' := by
  induction h with
  | nil d scope around => exact fun _ _ _ => ⟨[], .nil d scope around⟩
  | cons first _ ih ih' =>
    intro hw hscope ht
    obtain ⟨written, hfirst⟩ := ih hw.left hscope ht
    obtain ⟨written', hrest⟩ := ih' hw.right (Nat.lt_of_lt_of_le hscope first.grown.size)
      (first.lexical hscope ht)
    exact ⟨_, .cons hfirst hrest⟩
  | plain statement => exact fun hw _ ht => ⟨_, .plain (statement.plain ht.bound hw)⟩
  | give inFunction statement =>
    intro hw _ ht
    obtain ⟨e, span, rfl, value, -⟩ := statement
    exact ⟨_, .give span inFunction (value.readable ht.bound hw)⟩
  | block opened _ ih =>
    intro hw hscope ht
    cases opened
    obtain ⟨written, hbody⟩ := ih hw (by simp) (ht.addScope hscope)
    exact ⟨_, .block rfl hbody⟩
  | loop condition _ opened _ ih =>
    intro hw hscope ht
    cases opened
    obtain ⟨written, hbody⟩ := ih hw.right (by simp) (ht.addScope hscope)
    exact ⟨_, .loop _ (condition.condition ht.bound hw.left) rfl hbody⟩
  | branch condition _ opened _ ih =>
    intro hw hscope ht
    cases opened
    obtain ⟨written, hbody⟩ := ih hw.right (by simp) (ht.addScope hscope)
    exact ⟨_, .branch _ (condition.condition ht.bound hw.left) rfl hbody⟩
  | branchElse condition _ opened body opened' _ ih ih' =>
    intro hw hscope ht
    have hmiddle := Nat.lt_of_lt_of_le hscope (body.grown.opened opened).size
    cases opened
    cases opened'
    have hbodies := hw.right
    have hinner := body.lexical (by simp) (ht.addScope hscope)
    obtain ⟨written, hbody⟩ := ih hbodies.left (by simp) (ht.addScope hscope)
    obtain ⟨written', hother⟩ := ih' hbodies.right (by simp) (hinner.addScope hmiddle)
    exact ⟨_, .branchElse _ (condition.condition ht.bound hw.left) rfl hbody rfl hother⟩
  | function titles _ opened parameters opened' _ returns ih =>
    intro hw hscope ht
    cases opened
    cases opened'
    obtain ⟨⟨name, hname, hkind, hraw, -⟩, hfresh, hbound, hscalar⟩ := titles
    have hparameters := parameters.lexical (ht.addScope hscope)
    have hsize := Nat.lt_of_lt_of_le (Nat.lt_succ_self _)
      (Nat.le_trans (Nat.le_of_eq size_addScope.symm) parameters.grown.size)
    obtain ⟨written, hbody⟩ := ih hw.right (by simp) (hparameters.addScope hsize)
    exact ⟨_, .function _ (hraw ▸ hw.left name hname hkind) hfresh hbound hscalar rfl
      (parameters.draws hw.left) rfl hbody returns⟩

/-- **Every tree that is read has a derivation.** -/
theorem parse_draws {tokens : List Token} {t : Tree} (hw : Worded tokens)
    (h : parse tokens = .ok t) :
    ∃ l written d, Draws {} rootScope {} l written d ∧ d.tree = t := by
  obtain ⟨l, used, d, hused, hbuilds, htree⟩ := (parse_outcome tokens).ok h
  obtain ⟨written, hdraws⟩ :=
    hbuilds.draws (fun t ht => hw t (hused.subset ht)) (by decide) lexical_empty
  exact ⟨l, written, d, hdraws, htree⟩

end Parser

end RegisterMachine.Structured
