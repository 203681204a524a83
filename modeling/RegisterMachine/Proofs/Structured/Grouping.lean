import RegisterMachine.Proofs.Structured.Printing

/-! # How operators group

An expression can be written with parentheses only where the strength of its operators and their
grouping from the left would say something else. It is read as the same expression again.

* `Expression.short`: the text with the parentheses that are needed.
* `short_written`: it spells tokens as which the expression may be written.
* `short_initial_reads`: it is read again behind the `=` of a declaration. -/

namespace RegisterMachine.Structured

open RegisterMachine.Success

/-! ### Texts with the parentheses that are needed -/

namespace Expression

mutual

/-- **An expression with only the parentheses that it needs** where an operand without them has to
bind at least so strongly. A right operand has to bind more strongly than the operator. -/
def short (n : Nat) : Expression → String
  | name i => i.name
  | number value _ => toString value.toNat
  | binary op left right _ =>
    let operation :=
      left.short op.strength ++ " " ++ op.symbol ++ " " ++ right.short (op.strength + 1)
    if n ≤ op.strength then operation else "(" ++ operation ++ ")"
  | element i index _ => i.name ++ "[" ++ index.short 0 ++ "]"
  | new type _ => "new " ++ type.text
  | call i arguments _ _ => i.name ++ "(" ++ ", ".intercalate (shorts arguments) ++ ")"

def shorts : List Expression → List String
  | [] => []
  | e :: rest => e.short 0 :: shorts rest

end

end Expression

section Texts

variable {t : Tree} {scope : ScopeId}

/-- A text in parentheses. -/
theorem Spells.parens {text : String} {tokens : List Token} (h : Spells text tokens) :
    Spells ("(" ++ text ++ ")") (.leftParen :: (tokens ++ [.rightParen])) :=
  ((closed_leftParen.append_spells h).append closed_rightParen rfl rfl).spells

mutual

/-- **The text spells tokens as which the expression may be written.** -/
theorem short_written : ∀ (e : Expression), e.Readable t scope → ∀ n,
    ∃ tokens, Spells (e.short n) tokens ∧ Written n e tokens
  | .name i, h, n => ⟨_, spells_name h.1, .name n i⟩
  | .number value span, _, n => ⟨_, spells_number value, .number n value span⟩
  | .binary op left right span, h, n => by
    obtain ⟨tokens, hleft, hwritten⟩ := short_written left h.1 op.strength
    obtain ⟨tokens', hright, hwritten'⟩ := short_written right h.2 (op.strength + 1)
    have hoperator := (hleft.space.append_spells (spells_operator op)).space
    have hoperation : Spells
        (left.short op.strength ++ " " ++ op.symbol ++ " " ++ right.short (op.strength + 1))
        (tokens ++ .operator op :: tokens') := by
      simpa using hoperator.append_spells hright
    rw [Expression.short]
    split
    · rename_i hstrong
      exact ⟨_, hoperation, .binary hstrong hwritten hwritten'⟩
    · exact ⟨_, hoperation.parens, .parens n (.binary (Nat.zero_le _) hwritten hwritten')⟩
  | .element i index span, h, n => by
    obtain ⟨tokens, hindex, hwritten⟩ := short_written index h.2.2.2 0
    have hname := (spells_name h.1).append closed_leftBracket rfl rfl
    have helement := (hname.append_spells hindex).append closed_rightBracket rfl rfl
    refine ⟨_, ?_, .element n hwritten⟩
    simpa [Expression.short] using helement.spells
  | .new type span, h, n => h.elim
  | .call i es resolved span, h, n => by
    obtain ⟨tokens, hes, hwritten⟩ := shorts_written es h.2.2.2.2
    have hname := (spells_name h.1).append closed_leftParen rfl rfl
    have hcall := (hname.append_spells hes).append closed_rightParen rfl rfl
    refine ⟨_, ?_, .call n hwritten⟩
    simpa [Expression.short] using hcall.spells

/-- Arguments with commas between them. -/
theorem shorts_written : ∀ (es : List Expression), Expression.AllReadable t scope es →
    ∃ tokens, Spells (", ".intercalate (Expression.shorts es)) tokens ∧ WrittenAll es tokens
  | [], _ => ⟨[], closed_empty.spells, .nil⟩
  | [e], h => by
    obtain ⟨tokens, he, hwritten⟩ := short_written e h.1 0
    exact ⟨tokens, by simpa [Expression.shorts] using he, .last hwritten⟩
  | e :: following :: es, h => by
    obtain ⟨tokens, he, hwritten⟩ := short_written e h.1 0
    obtain ⟨others, hes, hwritten'⟩ := shorts_written (following :: es) h.2
    have hcomma := (he.append closed_comma rfl rfl).space
    refine ⟨_, ?_, .cons hwritten hwritten'⟩
    simpa [Expression.shorts, String.intercalate_cons_cons, String.append_assoc] using
      hcomma.append_spells hes

end

end Texts

/-! ### Declarations -/

/-- A declaration with the text of its initial value. -/
def Identifier.declaredAs (i : Identifier) (value : String) : String :=
  declaredType i.type ++ " " ++ i.name ++ " = " ++ value ++ ";\n"

section Declarations

variable {t : Tree} {i : Identifier} {e : Expression} {written : List Token} {value : String}

/-- What a declaration with this initial value may be written with. -/
def Identifier.declaredTokens (i : Identifier) (written : List Token) : List Token :=
  .keyword (declaredKeyword i.type) :: .named i.name :: .assign :: (written ++ [.semicolon])

theorem closed_declared (hname : IsName i.name) (hscalar : IsScalar i.type)
    (hvalue : Spells value written) : Closed (i.declaredAs value) (i.declaredTokens written) := by
  have htype := spells_type hscalar
  rw [← declaredType_of_isScalar hscalar] at htype
  have hassigned := htype.space.append (closed_assigned (spells_name hname) hvalue)
  simpa [Identifier.declaredAs, Identifier.declaredTokens, String.append_assoc] using hassigned

/-- The statement is the declaration, if it is so but for places. -/
theorem assign_of_view {s : Statement} {span : Span}
    (h : s.view .unplaced = (Statement.assign (.name i) e true span).view .unplaced) :
    ∃ place e' span', s = .assign (.name { i with span := place }) e' true span' ∧
      e'.view .unplaced = e.view .unplaced := by
  cases s with
  | assign target e' initial span' =>
    cases target <;> cases initial
    case name.true i' =>
      obtain ⟨name, type, binding, place⟩ := i
      obtain ⟨name', type', binding', place'⟩ := i'
      obtain ⟨hname, hview, -, -⟩ := Statement.assign.inj h
      cases hname
      exact ⟨place', e', span', rfl, hview⟩
    case element.true =>
      cases (Statement.assign.inj h).1
    all_goals cases (Statement.assign.inj h).2.2.1
  | _ => cases h

namespace Parser

/-- **A declaration is read again** in front of whatever stands behind it. -/
theorem statement_declared {d : Draft} {scope : ScopeId} (stop : Span) (around : Surroundings)
    (hat : (d.site scope stop).At t scope) (hi : Declarable t scope i)
    (hscalar : IsScalar i.type) (he : e.Readable t scope) (hwritten : Written 0 e written)
    {tokens rest : List Token} (h : Begins tokens (i.declaredTokens written) rest) :
    ∃ s r, statement stop d scope around tokens = .ok (d.push scope s, r) ∧ r.1 = rest ∧
      s.view .unplaced = (Statement.assign (.name i) e true {}).view .unplaced := by
  obtain ⟨u, tokens, rfl, hu, h⟩ := h.cons
  have hkind : u.kind = .keyword (declaredKeyword i.type) := bare_kind hu
  exact statement_declaration (keyword_of_isScalar hscalar) hkind
    (declaration_reads hat hi hscalar hkind he hwritten h)

end Parser

/-- **A declaration goes on with a program.** -/
theorem Parser.Draws.reread_declared {d : Draft} {l : List Statement} {before : List Token}
    (h : Draws {} rootScope {} l before d) (hi : Declarable d.tree rootScope i)
    (hscalar : IsScalar i.type) (he : e.Readable d.tree rootScope) (hwritten : Written 0 e written)
    (hvalue : Spells value written) :
    ∃ tokens t, tokenize (d.tree.text ++ i.declaredAs value) = .ok tokens ∧ parse tokens = .ok t ∧
      t.Same (d.tree.push rootScope (.assign (.name i) e true {})) := by
  obtain ⟨tokens, htokens, hbare⟩ :=
    (h.text_closed.append (closed_declared hi.name hscalar hvalue)).tokenize
  have hbegins : Begins tokens (before ++ i.declaredTokens written) [] :=
    ⟨tokens, (List.append_nil _).symm, hbare⟩
  obtain ⟨middle, hbefore, hdeclared⟩ := hbegins.append
  have hnoElse : NoElse middle := by
    obtain ⟨u, middle, rfl, hu, -⟩ := hdeclared.cons
    refine .cons ?_
    rw [bare_kind hu]
    rcases hscalar with htype | htype | htype <;> rw [htype] <;> decide
  obtain ⟨d', hlike, hcontinues⟩ :=
    h.reads (endOfTokens tokens) ⟨rfl, rfl⟩ hbefore hnoElse
  obtain ⟨s, r, hstatement, hr, hview⟩ := statement_declared (endOfTokens tokens) {}
    (hlike.site _) hi hscalar he hwritten hdeclared
  obtain ⟨r₁, hlast, hr₁⟩ := continues_of_statement ⟨r, hstatement, hr⟩ false _ (.all [])
    (by rw [statements]; rfl)
  obtain ⟨r₂, hstatements, -⟩ := hcontinues false _ r₁ hlast
  exact ⟨tokens, _, htokens, by rw [parse, hstatements]; rfl, (hlike.push hview).tree⟩

/-- **Operators group by their strength, and from the left.** A declaration whose initial value is
written with only the parentheses that this leaves is read with the same initial value, wherever it
stands; and so is a program that goes on with it. -/
theorem short_initial_reads {d : Parser.Draft} {scope : ScopeId}
    (hi : Declarable d.tree scope i) (hscalar : IsScalar i.type) (he : e.Readable d.tree scope) :
    ∃ tokens, tokenize (i.declaredAs (e.short 0)) = .ok tokens ∧
      (∀ stop around rest, ∃ place e' span r,
        Parser.statement stop d scope around (tokens ++ rest) =
            .ok (d.push scope (.assign (.name { i with span := place }) e' true span), r) ∧
          r.1 = rest ∧ e'.view .unplaced = e.view .unplaced) ∧
      ∀ {source found}, scope = rootScope → tokenize source = .ok found →
        Parser.parse found = .ok d.tree →
          ∃ tokens t, tokenize (d.tree.text ++ i.declaredAs (e.short 0)) = .ok tokens ∧
            Parser.parse tokens = .ok t ∧
            t.Same (d.tree.push rootScope (.assign (.name i) e true {})) := by
  obtain ⟨written, hvalue, hwritten⟩ := short_written e he 0
  obtain ⟨tokens, htokens, hbare⟩ := (closed_declared hi.name hscalar hvalue).tokenize
  refine ⟨tokens, htokens, fun stop around rest => ?_, ?_⟩
  · obtain ⟨s, r, hstatement, hr, hview⟩ := Parser.statement_declared stop around ⟨rfl, rfl⟩
      hi hscalar he hwritten ⟨tokens, rfl, hbare⟩
    obtain ⟨place, e', span, rfl, hsame⟩ := assign_of_view hview
    exact ⟨place, e', span, r, hstatement, hr, hsame⟩
  · rintro source found rfl hfound hparse
    obtain ⟨l, before, d', hdraws, htree⟩ := Parser.parse_draws (tokenize_worded hfound) hparse
    rw [← htree] at hi he ⊢
    exact hdraws.reread_declared hi hscalar he hwritten hvalue

end Declarations

/-- A scalar and an array. -/
def scalarAndArray : String := "int x = 1; int b = new int[3];"

def scalarAndArrayTokens : List Token :=
  [⟨.keyword .int, .none, ⟨1, 1, 3⟩, "int"⟩, ⟨.identifier, .name "x", ⟨1, 5, 1⟩, "x"⟩,
    ⟨.assign, .none, ⟨1, 7, 1⟩, "="⟩, ⟨.number, .number 1, ⟨1, 9, 1⟩, "1"⟩,
    ⟨.semicolon, .none, ⟨1, 10, 1⟩, ";"⟩, ⟨.keyword .int, .none, ⟨1, 12, 3⟩, "int"⟩,
    ⟨.identifier, .name "b", ⟨1, 16, 1⟩, "b"⟩, ⟨.assign, .none, ⟨1, 18, 1⟩, "="⟩,
    ⟨.keyword .new, .none, ⟨1, 20, 3⟩, "new"⟩, ⟨.keyword .int, .none, ⟨1, 24, 3⟩, "int"⟩,
    ⟨.leftBracket, .none, ⟨1, 27, 1⟩, "["⟩, ⟨.number, .number 3, ⟨1, 28, 1⟩, "3"⟩,
    ⟨.rightBracket, .none, ⟨1, 29, 1⟩, "]"⟩, ⟨.semicolon, .none, ⟨1, 30, 1⟩, ";"⟩]

/-- A difference that is subtracted from a name, and all of it multiplied. -/
def differences : Expression :=
  let x : Expression := .name ⟨"x", some .int, some rootScope, {}⟩
  let number (value : UInt32) : Expression := .number value {}
  let element : Expression := .element ⟨"b", some (.array .int 3), some rootScope, {}⟩
    (.binary .add x (number 1) {}) {}
  let quotient : Expression := .binary .divide (.binary .divide x (number 2) {}) (number 3) {}
  .binary .equal
    (.binary .multiply (.binary .subtract x (.binary .subtract element (number 2) {}) {})
      (.call ⟨"f", none, none, {}⟩ [quotient, number 4] none {}) {}) x {}

/-- Parentheses stand around both differences, and around neither the quotients nor the product. -/
theorem differences_initial_reads : ∃ found t tokens t',
    tokenize scalarAndArray = .ok found ∧ Parser.parse found = .ok t ∧
    differences.Readable t rootScope ∧
    tokenize (t.text ++ "int y = (x - (b[x + 1] - 2)) * f(x / 2 / 3, 4) == x;\n") = .ok tokens ∧
    Parser.parse tokens = .ok t' ∧
    t'.Same (t.push rootScope
      (.assign (.name ⟨"y", some .int, some rootScope, {}⟩) differences true {})) := by
  have hfound : tokenize scalarAndArray = .ok scalarAndArrayTokens :=
    ok_of_toOption (by decide +kernel)
  have hparse : (Parser.parse scalarAndArrayTokens).toOption.map (fun t =>
      (t.declaration? rootScope "x", t.declaration? rootScope "b",
        (t.scope rootScope).statements.any fun s => s.declared?.any (·.name == "y"))) =
      some (some (rootScope, ⟨"x", some .int, some rootScope, ⟨1, 5, 1⟩⟩),
        some (rootScope, ⟨"b", some (.array .int 3), some rootScope, ⟨1, 16, 1⟩⟩), false) := by
    decide_cbv
  obtain ⟨t, ht, hfacts⟩ := Option.map_eq_some_iff.mp hparse
  obtain ⟨hx, hrest⟩ := Prod.mk.inj hfacts
  obtain ⟨hb, hfresh⟩ := Prod.mk.inj hrest
  have hname : ∀ c ∈ ['x', 'b', 'f', 'y'], IsName (String.ofList [c]) := by
    intro c hc
    simp only [List.mem_cons, List.not_mem_nil, or_false] at hc
    rcases hc with rfl | rfl | rfl | rfl <;>
      exact ⟨⟨_, [], rfl, by decide, by decide, by decide, List.forall_mem_nil _⟩,
        by decide +kernel⟩
  have hscalar : (Expression.name ⟨"x", some .int, some rootScope, {}⟩).Readable t rootScope :=
    ⟨hname 'x' (by decide), ⟨rootScope, _, hx, rfl, rfl⟩, rfl⟩
  have hreadable : differences.Readable t rootScope :=
    ⟨⟨⟨hscalar, ⟨hname 'b' (by decide), ⟨rootScope, _, hb, rfl, rfl⟩, rfl, hscalar, trivial⟩,
        trivial⟩,
      hname 'f' (by decide), rfl, rfl, rfl, ⟨⟨hscalar, trivial⟩, trivial⟩, trivial, trivial⟩,
      hscalar⟩
  have hdeclarable : Declarable t rootScope ⟨"y", some .int, some rootScope, {}⟩ :=
    ⟨hname 'y' (by decide), hfresh, rfl⟩
  have htext : Identifier.declaredAs ⟨"y", some .int, some rootScope, {}⟩ (differences.short 0) =
      "int y = (x - (b[x + 1] - 2)) * f(x / 2 / 3, 4) == x;\n" := by
    decide +kernel
  obtain ⟨-, -, -, hprogram⟩ := short_initial_reads (d := ⟨t, false⟩) hdeclarable (.inr (.inl rfl))
    hreadable
  obtain ⟨tokens, t', htokens, ht', hsame⟩ := hprogram rfl hfound (ok_of_toOption ht)
  rw [htext] at htokens
  exact ⟨_, t, tokens, t', hfound, ok_of_toOption ht, hreadable, htokens, ht', hsame⟩

end RegisterMachine.Structured
