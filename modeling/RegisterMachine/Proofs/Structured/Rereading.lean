import RegisterMachine.Proofs.Structured.Drawn
import RegisterMachine.Proofs.Structured.Grammar

/-! # Expressions that are written are read again

From the tokens as which an expression may be written the parser reads the same expression, places
apart. A class of precedence is read from the left: what was read is the first operand of whatever
operators of the class stand behind it.

* `Begins`: a row of tokens begins with given tokens.
* `Leads`: an expression, and the operators behind it.
* `leads_of_written`: all expressions, by the rules that write them.
* `expression_reads`: expressions in front of whatever ends them. -/

namespace RegisterMachine.Structured

open RegisterMachine.Success

/-! ### Rows of tokens -/

/-- **The tokens begin with `written`**, places apart, and go on with `rest`. -/
def Begins (tokens written rest : List Token) : Prop :=
  ∃ us, tokens = us ++ rest ∧ us.map Token.bare = written

namespace Begins

variable {tokens written more rest : List Token} {t : Token}

theorem nil (h : Begins tokens [] rest) : tokens = rest := by
  obtain ⟨us, rfl, hus⟩ := h
  rw [List.map_eq_nil_iff.mp hus, List.nil_append]

theorem cons (h : Begins tokens (t :: written) rest) :
    ∃ u tokens', tokens = u :: tokens' ∧ u.bare = t ∧ Begins tokens' written rest := by
  obtain ⟨us, rfl, hus⟩ := h
  obtain ⟨u, us, rfl, hu, hus⟩ := List.map_eq_cons_iff.mp hus
  exact ⟨u, us ++ rest, rfl, hu, us, rfl, hus⟩

theorem append (h : Begins tokens (written ++ more) rest) :
    ∃ middle, Begins tokens written middle ∧ Begins middle more rest := by
  obtain ⟨us, rfl, hus⟩ := h
  obtain ⟨vs, ws, rfl, hvs, hws⟩ := List.map_eq_append_iff.mp hus
  exact ⟨ws ++ rest, ⟨vs, List.append_assoc .., hvs⟩, ws, rfl, hws⟩

end Begins

/-! ### Names -/

/-- **The trees are equal** but for places. -/
def Tree.Same (t t' : Tree) : Prop := t.view .unplaced = t'.view .unplaced

/-- The tree of a site, but for places, and its scope. -/
structure Site.At (site : Site) (t : Tree) (scope : ScopeId) : Prop where
  tree : site.tree.Same t
  scope : site.scope = scope

section Names

variable {site : Site} {t t' : Tree} {scope : ScopeId} {u : Token} {i : Identifier}

/-- A name that the scope sees is read again with its type and its binding. -/
theorem Site.At.use (hat : site.At t scope) (hsees : t.Sees scope i) (hraw : u.raw = i.name) :
    site.use u = .ok { i with span := u.span } := by
  obtain ⟨binding, declaration, hdeclaration, hbinding, hi⟩ := hsees
  have hview : (site.tree.view .unplaced).declaration? scope i.name =
      (t.view .unplaced).declaration? scope i.name := by rw [hat.tree]
  rw [Tree.declaration?_view, Tree.declaration?_view, hdeclaration, Option.map_some,
    Option.map_eq_some_iff] at hview
  obtain ⟨⟨binding', declaration'⟩, hdeclaration', heq⟩ := hview
  obtain ⟨rfl, hsame⟩ := Prod.mk.inj heq
  have htype : declaration'.type = i.type := by
    have htypes := congrArg Identifier.type hsame
    rw [hi] at htypes
    exact htypes
  rw [Site.use, hat.scope, hraw, hdeclaration']
  cases i
  cases hbinding
  cases htype
  rfl

theorem Site.At.scalar (hat : site.At t scope) (h : (Expression.name i).Readable t scope)
    (hraw : u.raw = i.name) : site.scalar u = .ok { i with span := u.span } := by
  obtain ⟨-, hsees, hscalar⟩ := h
  have hnot : namesArray { i with span := u.span } = false := hscalar
  rw [Site.scalar, hat.use hsees hraw]
  simp only [hnot, Bool.false_eq_true, if_false]

theorem Site.At.array (hat : site.At t scope) (hsees : t.Sees scope i)
    (harray : namesArray i = true) (hraw : u.raw = i.name) :
    site.array u = .ok { i with span := u.span } := by
  have hnames : namesArray { i with span := u.span } = true := harray
  rw [Site.array, hat.use hsees hraw]
  simp only [hnames, if_true]

theorem expect_run {stop : Span} {kind : TokenKind} {code : ErrorCode} {expected : String}
    {rest : List Token} (h : u.kind = kind) :
    expect stop kind code expected (u :: rest) = .ok (u, .tail u rest) := if_pos h

theorem next_run {stop : Span} {expected : String} {rest : List Token} :
    next stop expected (u :: rest) = .ok (u, .tail u rest) := rfl

theorem bare_kind {t : Token} (h : u.bare = t) : u.kind = t.kind := h ▸ rfl

theorem bare_raw {t : Token} (h : u.bare = t) : u.raw = t.raw := h ▸ rfl

theorem bare_number {t : Token} (h : u.bare = t) : u.number? = t.number? := h ▸ rfl

end Names

namespace Parser

/-! ### Expressions -/

/-- The reader answers with this expression, places apart, and with what is behind it. -/
def ReadsAs {tokens : List Token} (result : Except Error (Expression × Shorter tokens))
    (e : Expression) (rest : List Token) : Prop :=
  ∃ e' r, result = .ok (e', r) ∧ r.1 = rest ∧ e'.view .unplaced = e.view .unplaced

/-- No operator of this class or a tighter one stands in front. -/
def Stops (tier : Precedence) (rest : List Token) : Prop :=
  ∀ u us op, rest = u :: us → u.kind = .binary op → tier.rank < op.precedence.rank

/-- No bracket stands in front that would go on with a name. -/
def Alone (rest : List Token) : Prop :=
  ∀ u us, rest = u :: us → u.kind ≠ .leftParen ∧ u.kind ≠ .leftBracket

/-- No operator stands in front either. -/
structure Ends (rest : List Token) : Prop where
  operator : ∀ u us op, rest = u :: us → u.kind ≠ .binary op
  alone : Alone rest

section Expressions

variable {site : Site} {t : Tree} {scope : ScopeId} {tokens rest : List Token}
  {tier : Precedence} {e left right : Expression}

theorem Ends.stops (h : Ends rest) (tier : Precedence) : Stops tier rest :=
  fun u us op hrest hkind => absurd hkind (h.operator u us op hrest)

theorem Alone.of_kind {u : Token} (hcall : u.kind ≠ .leftParen) (helement : u.kind ≠ .leftBracket) :
    Alone (u :: rest) := by
  intro v us hrest
  obtain ⟨rfl, -⟩ := List.cons.inj hrest
  exact ⟨hcall, helement⟩

/-- A bracket that closes, a comma or a semicolon ends an expression. -/
theorem Ends.of_bare {u v : Token} (hu : u.bare = v)
    (hv : v ∈ [Token.rightParen, .rightBracket, .comma, .semicolon]) : Ends (u :: rest) := by
  have hkind : u.kind = .rightParen ∨ u.kind = .rightBracket ∨ u.kind = .comma ∨
      u.kind = .semicolon := by
    rw [bare_kind hu]
    simp only [List.mem_cons, List.not_mem_nil, or_false] at hv
    rcases hv with rfl | rfl | rfl | rfl <;> simp [Token.rightParen, Token.rightBracket,
      Token.comma, Token.semicolon, Token.symbol]
  refine ⟨fun w us op hrest hw => ?_, Alone.of_kind ?_ ?_⟩
  · obtain ⟨rfl, -⟩ := List.cons.inj hrest
    rw [hw] at hkind
    simp at hkind
  all_goals
    intro hw
    rw [hw] at hkind
    simp at hkind

theorem operations_stop (h : Stops tier rest) :
    operations site tier left rest = .ok (left, .all rest) := by
  unfold operations
  split
  · rename_i op value span raw us
    have hlt := h _ us op rfl rfl
    rw [if_neg]
    rintro rfl
    exact Nat.lt_irrefl _ hlt
  · rfl

/-- From the next tighter class to a class. -/
theorem level_above (htier : tier ≠ .term) (h : ReadsAs (level site tier.above tokens) e rest)
    (hstops : Stops tier rest) : ReadsAs (level site tier tokens) e rest := by
  obtain ⟨e', ⟨rest, hrest⟩, hlevel, rfl, hview⟩ := h
  rw [level, dif_neg htier, bind_run hlevel]
  dsimp only
  rw [bind_run (operations_stop hstops)]
  exact ⟨e', _, rfl, rfl, hview⟩

theorem rank_above_succ (htier : tier ≠ .term) : tier.above.rank + 1 = tier.rank := by
  cases tier <;> first | exact absurd rfl htier | rfl

theorem rank_above_le (tier : Precedence) : tier.above.rank ≤ tier.rank := by
  cases tier <;> decide

theorem rank_injective {tier tier' : Precedence} (h : tier.rank = tier'.rank) : tier = tier' := by
  cases tier <;> cases tier' <;> first | rfl | cases h

theorem Stops.mono {tier' : Precedence} (h : Stops tier rest) (hrank : tier'.rank ≤ tier.rank) :
    Stops tier' rest :=
  fun u us op hrest hkind => Nat.lt_of_le_of_lt hrank (h u us op hrest hkind)

/-- From a class to a looser one. -/
theorem level_climb {tier₀ : Precedence} (h : ReadsAs (level site tier₀ tokens) e rest) :
    ∀ (rank : Nat) (tier : Precedence), tier.rank = rank → tier₀.rank ≤ rank → Stops tier rest →
      ReadsAs (level site tier tokens) e rest := by
  intro rank
  induction rank with
  | zero =>
    intro tier htier hle _
    rwa [rank_injective (htier.trans (Nat.le_zero.mp hle).symm)]
  | succ rank ih =>
    intro tier htier hle hstops
    obtain heq | hlt := Nat.eq_or_lt_of_le hle
    · rwa [rank_injective (htier.trans heq.symm)]
    · have hterm : tier ≠ .term := by
        rintro rfl
        cases htier
      have habove : tier.above.rank = rank := by
        have := rank_above_succ hterm
        omega
      exact level_above hterm (ih tier.above habove (Nat.le_of_lt_succ hlt)
        (hstops.mono (rank_above_le tier))) hstops

/-! ### The first operand of a class -/

/-- **The expression is read as the first operand of a class**: whatever the operators behind it
make of it is what is read of the class. -/
def Leads (site : Site) (tier : Precedence) (tokens : List Token) (e : Expression)
    (rest : List Token) : Prop :=
  ∃ e', e'.view .unplaced = e.view .unplaced ∧ ∀ x (r : AtMost rest),
    operations site tier e' rest = .ok (x, r) →
      ∃ r' : Shorter tokens, level site tier tokens = .ok (x, r') ∧ r'.1 = r.1

/-- The expression is all that is read, if no operator of the class stands behind it. -/
theorem Leads.reads (h : Leads site tier tokens e rest) (hstops : Stops tier rest) :
    ReadsAs (level site tier tokens) e rest := by
  obtain ⟨e', hview, hleads⟩ := h
  obtain ⟨r, hlevel, hr⟩ := hleads e' _ (operations_stop hstops)
  exact ⟨e', r, hlevel, hr, hview⟩

theorem Leads.of_above (htier : tier ≠ .term) (h : ReadsAs (level site tier.above tokens) e rest) :
    Leads site tier tokens e rest := by
  obtain ⟨e', ⟨rest, hrest⟩, hlevel, rfl, hview⟩ := h
  refine ⟨e', hview, fun x r hoperations => ?_⟩
  rw [level, dif_neg htier, bind_run hlevel]
  dsimp only
  rw [bind_run hoperations]
  exact ⟨_, rfl, rfl⟩

/-- A term is the first operand of every class. -/
theorem Leads.of_term (h : ReadsAs (term site tokens) e rest) (hstops : Stops tier.above rest) :
    Leads site tier tokens e rest := by
  have hlevel : ReadsAs (level site .term tokens) e rest := by
    rwa [level, dif_pos rfl]
  by_cases htier : tier = .term
  · subst htier
    obtain ⟨e', r', hlevel, rfl, hview⟩ := hlevel
    refine ⟨e', hview, fun x r hoperations => ?_⟩
    have hstop : operations site .term e' r'.1 = .ok (e', .all r'.1) := operations_stop hstops
    rw [hstop] at hoperations
    cases hoperations
    exact ⟨r', hlevel, rfl⟩
  · exact .of_above htier (level_climb hlevel _ tier.above rfl (Nat.zero_le _) hstops)

/-- **An operation is the first operand of its class** if its left operand is. -/
theorem Leads.operation {op : Operator} (span : Span) {middle : List Token} {u : Token}
    (hleft : Leads site op.precedence tokens left (u :: middle)) (hu : u.kind = .binary op)
    (hright : ReadsAs (level site op.precedence.above middle) right rest) :
    Leads site op.precedence tokens (.binary op left right span) rest := by
  obtain ⟨left', hleftView, hleads⟩ := hleft
  obtain ⟨right', ⟨rest, hrest⟩, hlevel, rfl, hrightView⟩ := hright
  obtain ⟨kind, value, place, raw⟩ := u
  cases hu
  refine ⟨.binary op left' right' (left'.span.upTo right'.span), ?_, fun x r hoperations => ?_⟩
  · simp only [Expression.view, hleftView, hrightView]
  · have hmore : ∃ r' : AtMost (⟨.binary op, value, place, raw⟩ :: middle),
        operations site op.precedence left' (⟨.binary op, value, place, raw⟩ :: middle) =
          .ok (x, r') ∧ r'.1 = r.1 := by
      rw [operations, if_pos rfl, bind_run hlevel]
      dsimp only
      rw [bind_run hoperations]
      exact ⟨_, rfl, rfl⟩
    obtain ⟨r₁, hmore, hr₁⟩ := hmore
    obtain ⟨r₂, hlevel, hr₂⟩ := hleads x r₁ hmore
    exact ⟨r₂, hlevel, hr₂.trans hr₁⟩

/-- An expression of a class is the first operand of every looser one. -/
theorem Leads.loosen {tier' : Precedence} (h : Leads site tier tokens e rest)
    (hrank : tier.rank ≤ tier'.rank) (hstops : Stops tier'.above rest) :
    Leads site tier' tokens e rest := by
  obtain heq | hlt := Nat.eq_or_lt_of_le hrank
  · rwa [← rank_injective heq]
  · have hterm : tier' ≠ .term := by
      rintro rfl
      cases hlt
    have hle : tier.rank ≤ tier'.above.rank := by
      have := rank_above_succ hterm
      omega
    exact .of_above hterm (level_climb (h.reads (hstops.mono hle)) _ _ rfl hle hstops)

theorem precedence_ne_term (op : Operator) : op.precedence ≠ .term := by
  cases op <;> decide

/-- The classes of precedence are the operators of equal strength. -/
theorem rank_precedence (op : Operator) : op.precedence.rank + op.strength = 3 := by
  cases op <;> rfl

/-! ### Terms -/

theorem term_number {u : Token} {value : UInt32} (span : Span) (hkind : u.kind = .number)
    (hvalue : u.number? = some value) :
    ReadsAs (term site (u :: rest)) (.number value span) rest := by
  rw [term]
  simp only [hkind, hvalue]
  exact ⟨_, _, rfl, rfl, rfl⟩

theorem term_name (hat : site.At t scope) {u : Token} {i : Identifier}
    (hreadable : (Expression.name i).Readable t scope) (hkind : u.kind = .identifier)
    (hname : u.raw = i.name) (halone : Alone rest) :
    ReadsAs (term site (u :: rest)) (.name i) rest := by
  rw [term]
  simp only [hkind]
  split
  · rename_i hparen
    obtain ⟨v, hv, hvkind⟩ := Option.map_eq_some_iff.mp hparen
    obtain ⟨us, rfl⟩ := List.head?_eq_some_iff.mp hv
    exact absurd hvkind (halone v us rfl).1
  · rename_i hbracket
    obtain ⟨v, hv, hvkind⟩ := Option.map_eq_some_iff.mp hbracket
    obtain ⟨us, rfl⟩ := List.head?_eq_some_iff.mp hv
    exact absurd hvkind (halone v us rfl).2
  · rw [bind_run (hat.scalar hreadable hname)]
    exact ⟨_, _, rfl, rfl, rfl⟩

/-- An expression in parentheses. -/
theorem term_parens {u v : Token} {middle : List Token} (hopen : u.kind = .leftParen)
    (h : ReadsAs (level site .test tokens) e (v :: middle)) (hclose : v.kind = .rightParen) :
    ReadsAs (term site (u :: tokens)) e middle := by
  obtain ⟨e', ⟨_, hlt⟩, hlevel, rfl, hview⟩ := h
  rw [term]
  simp only [hopen]
  rw [bind_run hlevel]
  dsimp only
  rw [bind_run (expect_run hclose)]
  exact ⟨e', _, rfl, rfl, hview⟩

/-- An element of an array, behind its name, once its index is read. -/
theorem element_reads (hat : site.At t scope) {name : Token} {i : Identifier} {index : Expression}
    {span : Span} {written : List Token}
    (hreadable : (Expression.element i index span).Readable t scope) (hname : name.raw = i.name)
    (hindex : ∀ {tokens rest}, Begins tokens written rest → Ends rest →
      ReadsAs (level site .test tokens) index rest)
    (h : Begins tokens (.leftBracket :: (written ++ [.rightBracket])) rest) :
    ∃ index' span' r, element site name tokens =
      .ok ({ i with span := name.span }, index', span', r) ∧ r.1 = rest ∧
      index'.view .unplaced = index.view .unplaced := by
  obtain ⟨-, hsees, harray, -⟩ := hreadable
  obtain ⟨u, tokens, rfl, hu, h⟩ := h.cons
  obtain ⟨middle, hmiddle, h⟩ := h.append
  obtain ⟨v, middle, rfl, hv, h⟩ := h.cons
  cases h.nil
  have hopen : u.kind = .leftBracket := bare_kind hu
  have hclose : v.kind = .rightBracket := bare_kind hv
  obtain ⟨index', ⟨_, hlt⟩, hlevel, rfl, hview⟩ := hindex hmiddle (.of_bare hv (by simp))
  rw [element, bind_run (hat.array hsees harray hname), bind_run (expect_run hopen)]
  dsimp only [Shorter.tail]
  rw [bind_run hlevel]
  dsimp only
  rw [bind_run (expect_run hclose)]
  exact ⟨index', _, _, rfl, rfl, hview⟩

/-- The same as a term. -/
theorem term_element {u v : Token} {i : Identifier} {index : Expression} (span : Span)
    (hkind : u.kind = .identifier) (hbracket : v.kind = .leftBracket)
    (h : ∃ index' span' r, element site u (v :: tokens) =
      .ok ({ i with span := u.span }, index', span', r) ∧ r.1 = rest ∧
      index'.view .unplaced = index.view .unplaced) :
    ReadsAs (term site (u :: v :: tokens)) (.element i index span) rest := by
  obtain ⟨index', span', ⟨_, hlt⟩, helement, rfl, hview⟩ := h
  rw [term]
  simp only [hkind, List.head?_cons, Option.map_some, hbracket]
  rw [bind_run helement]
  refine ⟨_, _, rfl, rfl, ?_⟩
  simp only [Expression.view, hview]
  rfl

/-- The reader of arguments answers with these, places apart, and with what is behind them. -/
def ReadsAll {tokens : List Token}
    (result : Except Error (List Expression × Token × Shorter tokens)) (es : List Expression)
    (rest : List Token) : Prop :=
  ∃ es' close r, result = .ok (es', close, r) ∧ r.1 = rest ∧
    Expression.viewAll .unplaced es' = Expression.viewAll .unplaced es

/-- A call, behind its name, once its arguments are read. -/
theorem call_reads {name : Token} {i : Identifier} {es : List Expression} (span : Span)
    {written : List Token} (hreadable : (Expression.call i es none span).Readable t scope)
    (hname : name.raw = i.name)
    (hes : ∀ {tokens}, Begins tokens (written ++ [.rightParen]) rest →
      ReadsAll (arguments site tokens) es rest)
    (h : Begins tokens (.leftParen :: (written ++ [.rightParen])) rest) :
    ReadsAs (call site name tokens) (.call i es none span) rest := by
  obtain ⟨-, htype, hbinding, -, -⟩ := hreadable
  obtain ⟨u, tokens, rfl, hu, h⟩ := h.cons
  have hopen : u.kind = .leftParen := bare_kind hu
  obtain ⟨es', close, ⟨_, hlt⟩, harguments, rfl, hview⟩ := hes h
  rw [call, bind_run (expect_run hopen)]
  dsimp only [Shorter.tail]
  rw [bind_run harguments]
  refine ⟨_, _, rfl, rfl, ?_⟩
  simp only [Expression.view, hview]
  cases i
  cases htype
  cases hbinding
  cases hname
  rfl

/-- The same as a term. -/
theorem term_call {u v : Token} (hkind : u.kind = .identifier) (hparen : v.kind = .leftParen)
    (h : ReadsAs (call site u (v :: tokens)) e rest) :
    ReadsAs (term site (u :: v :: tokens)) e rest := by
  obtain ⟨e', ⟨_, hlt⟩, hcall, rfl, hview⟩ := h
  rw [term]
  simp only [hkind, List.head?_cons, Option.map_some, hparen]
  rw [bind_run hcall]
  exact ⟨e', _, rfl, rfl, hview⟩

/-- Arguments, through the parenthesis behind them. There may be none. -/
theorem arguments_run {es : List Expression} {written : List Token}
    (hwritten : WrittenAll es written)
    (h : Begins tokens (written ++ [.rightParen]) rest)
    (hes : es ≠ [] → ReadsAll (argumentsFrom site tokens) es rest) :
    ReadsAll (arguments site tokens) es rest := by
  by_cases hne : es = []
  · subst hne
    cases hwritten
    obtain ⟨u, tokens, rfl, hu, h⟩ := h.cons
    cases h.nil
    have hclose : u.kind = .rightParen := bare_kind hu
    rw [arguments, if_pos hclose]
    exact ⟨[], u, _, rfl, rfl, rfl⟩
  · obtain ⟨v, vs, rfl, hv⟩ := hwritten.head hne
    obtain ⟨u, tokens, rfl, hu, -⟩ := h.cons
    have hkind : ¬ u.kind = .rightParen := by
      rw [bare_kind hu]
      rcases hv with hv | hv | hv <;> rw [hv] <;> decide
    rw [arguments, if_neg hkind]
    exact hes hne

/-- The last argument. -/
theorem argumentsFrom_last {u : Token} (h : ReadsAs (level site .test tokens) e (u :: rest))
    (hclose : u.kind = .rightParen) : ReadsAll (argumentsFrom site tokens) [e] rest := by
  obtain ⟨e', ⟨_, hlt⟩, hlevel, rfl, hview⟩ := h
  rw [argumentsFrom, bind_run hlevel]
  dsimp only
  rw [bind_run next_run]
  simp only [hclose]
  refine ⟨[e'], u, _, rfl, rfl, ?_⟩
  simp only [Expression.viewAll, hview]

/-- An argument and those behind the comma. -/
theorem argumentsFrom_cons {u : Token} {middle : List Token} {es : List Expression}
    (h : ReadsAs (level site .test tokens) e (u :: middle)) (hcomma : u.kind = .comma)
    (hes : ReadsAll (argumentsFrom site middle) es rest) :
    ReadsAll (argumentsFrom site tokens) (e :: es) rest := by
  obtain ⟨e', ⟨_, hlt⟩, hlevel, rfl, hview⟩ := h
  obtain ⟨es', close, ⟨_, hlt'⟩, hothers, rfl, hviews⟩ := hes
  rw [argumentsFrom, bind_run hlevel]
  dsimp only
  rw [bind_run next_run]
  simp only [hcomma, Shorter.tail]
  rw [bind_run hothers]
  refine ⟨e' :: es', close, _, rfl, rfl, ?_⟩
  rw [Expression.viewAll, Expression.viewAll, hview, hviews]

/-! ### All expressions -/

mutual

/-- **An expression is read again as it was written**, as the first operand of a class that its
operators belong to or bind more strongly than. -/
theorem leads_of_written (hat : site.At t scope) :
    ∀ {n : Nat} {e : Expression} {written : List Token}, Written n e written →
      e.Readable t scope → ∀ {tokens rest : List Token} (tier : Precedence),
      Begins tokens written rest → Alone rest → 3 ≤ tier.rank + n → Stops tier.above rest →
        Leads site tier tokens e rest
  | _, _, _, .name _ i, hreadable, tokens, rest, tier, h, halone, _, hstops => by
    obtain ⟨u, tokens, rfl, hu, h⟩ := h.cons
    cases h.nil
    exact .of_term (term_name hat hreadable (bare_kind hu) (bare_raw hu) halone) hstops
  | _, _, _, .number _ value span, _, tokens, rest, tier, h, _, _, hstops => by
    obtain ⟨u, tokens, rfl, hu, h⟩ := h.cons
    cases h.nil
    exact .of_term (term_number span (bare_kind hu) (bare_number hu)) hstops
  | _, _, _, @Written.element _ _ _ span _ inside, hreadable, tokens, rest, tier, h, _, _,
      hstops => by
    obtain ⟨u, tokens, rfl, hu, h⟩ := h.cons
    obtain ⟨v, vs, rfl, hv, -⟩ := h.cons
    refine .of_term (term_element span (bare_kind hu) (bare_kind hv)
      (element_reads hat hreadable (bare_raw hu) (fun hindex hends => ?_) h)) hstops
    exact (leads_of_written hat inside hreadable.2.2.2 .test hindex hends.alone (by decide)
      (hends.stops _)).reads (hends.stops _)
  | _, _, _, @Written.call _ _ _ _ span _ inside, hreadable, tokens, rest, tier, h, _, _,
      hstops => by
    obtain ⟨u, tokens, rfl, hu, h⟩ := h.cons
    obtain ⟨v, vs, rfl, hv, -⟩ := h.cons
    obtain ⟨hname, htype, hbinding, rfl, hall⟩ := hreadable
    exact .of_term (term_call (bare_kind hu) (bare_kind hv) (call_reads span
      ⟨hname, htype, hbinding, rfl, hall⟩ (bare_raw hu)
      (fun h => arguments_run inside h fun hne => argumentsFrom_reads hat inside hne hall h) h))
      hstops
  | _, _, _, @Written.binary _ op _ _ span _ _ strong first second, hreadable, tokens, rest, tier,
      h, halone, hrank, hstops => by
    obtain ⟨middle, hleft, h⟩ := h.append
    obtain ⟨u, middle, rfl, hu, hright⟩ := h.cons
    have hoperator : u.kind = .binary op := bare_kind hu
    have hclass := rank_precedence op
    have habove := rank_above_succ (precedence_ne_term op)
    have htier : op.precedence.rank ≤ tier.rank := by omega
    -- the operators of the class that the operation stands in bind less strongly than its own
    have hstops' : Stops op.precedence.above rest := hstops.mono (by
      by_cases hterm : tier = .term
      · rw [hterm] at htier
        have := Nat.le_zero.mp htier
        omega
      · have := rank_above_succ hterm
        omega)
    have halone' : Alone (u :: middle) := .of_kind (by rw [hoperator]; nofun)
      (by rw [hoperator]; nofun)
    have hbehind : Stops op.precedence.above (u :: middle) := by
      intro v us op' heq hkind
      cases heq
      rw [hoperator] at hkind
      cases hkind
      omega
    have hfirst :=
      leads_of_written hat first hreadable.1 op.precedence hleft halone' (by omega) hbehind
    have hsecond := leads_of_written hat second hreadable.2 op.precedence.above hright
      halone (by omega) (hstops'.mono (rank_above_le _))
    exact (Leads.operation span hfirst hoperator (hsecond.reads hstops')).loosen htier hstops
  | _, _, _, .parens _ inside, hreadable, tokens, rest, tier, h, _, _, hstops => by
    obtain ⟨u, tokens, rfl, hu, h⟩ := h.cons
    obtain ⟨middle, hinside, h⟩ := h.append
    obtain ⟨v, middle, rfl, hv, h⟩ := h.cons
    cases h.nil
    have hends : Ends (v :: rest) := .of_bare hv (by simp)
    have hlevel := (leads_of_written hat inside hreadable .test hinside hends.alone (by decide)
      (hends.stops _)).reads (hends.stops _)
    exact .of_term (term_parens (bare_kind hu) hlevel (bare_kind hv)) hstops

/-- Arguments, through the parenthesis behind them. -/
theorem argumentsFrom_reads (hat : site.At t scope) : ∀ {es : List Expression}
    {written : List Token}, WrittenAll es written → es ≠ [] → Expression.AllReadable t scope es →
      ∀ {tokens rest : List Token}, Begins tokens (written ++ [.rightParen]) rest →
        ReadsAll (argumentsFrom site tokens) es rest
  | _, _, .nil, hne, _, _, _, _ => absurd rfl hne
  | _, _, .last argument, _, hall, tokens, rest, h => by
    obtain ⟨middle, he, h⟩ := h.append
    obtain ⟨u, middle, rfl, hu, h⟩ := h.cons
    cases h.nil
    have hends : Ends (u :: rest) := .of_bare hu (by simp)
    have hlevel := (leads_of_written hat argument hall.1 .test he hends.alone (by decide)
      (hends.stops _)).reads (hends.stops _)
    exact argumentsFrom_last hlevel (bare_kind hu)
  | _, _, .cons argument others, _, hall, tokens, rest, h => by
    rw [List.append_assoc] at h
    obtain ⟨middle, he, h⟩ := h.append
    obtain ⟨u, middle, rfl, hu, h⟩ := h.cons
    have hends : Ends (u :: middle) := .of_bare hu (by simp)
    have hlevel := (leads_of_written hat argument hall.1 .test he hends.alone (by decide)
      (hends.stops _)).reads (hends.stops _)
    exact argumentsFrom_cons hlevel (bare_kind hu)
      (argumentsFrom_reads hat others (List.cons_ne_nil _ _) hall.2 h)

end

/-- **An expression is read again** in front of whatever ends it. -/
theorem expression_reads (hat : site.At t scope) (he : e.Readable t scope) {written : List Token}
    (hwritten : Written 0 e written) (h : Begins tokens written rest) (hends : Ends rest) :
    ReadsAs (expression site tokens) e rest :=
  (leads_of_written hat hwritten he .test h hends.alone (by decide)
    (hends.stops _)).reads (hends.stops _)

theorem arguments_reads (hat : site.At t scope) {es : List Expression}
    (hall : Expression.AllReadable t scope es) {written : List Token}
    (hwritten : WrittenAll es written) (h : Begins tokens (written ++ [.rightParen]) rest) :
    ReadsAll (arguments site tokens) es rest :=
  arguments_run hwritten h fun hne => argumentsFrom_reads hat hwritten hne hall h

end Expressions

end Parser

end RegisterMachine.Structured
