import RegisterMachine.Proofs.Structured.Drawing

/-! # Expressions and single statements that are parsed

The parser takes tokens from the front. Either it answers with a part of the tree, which is made of
the tokens that it has taken, or with an error, which is about the tokens or about the end of the
code. Both are shown at once, by induction on the number of tokens, and for every row of tokens,
whatever their lexemes and places.

* `Spanned`: the places that are made of the places of tokens.
* `Blamed`: the errors of the parser.
* `Parses`, `expression_outcome`: expressions.
* `Forms`, `declaration_outcome`, `assignment_outcome`: statements without bodies. -/

namespace RegisterMachine.Structured

open RegisterMachine.Success

/-! ### Places and errors -/

/-- **A place made of the places of tokens**: that of a token, or from one such place to another. -/
inductive Spanned (T : Token → Prop) : Span → Prop
  | token {t : Token} (token : T t) : Spanned T t.span
  | upTo {s s' : Span} (first : Spanned T s) (last : Spanned T s') : Spanned T (s.upTo s')

theorem Spanned.mono {T T' : Token → Prop} (h : ∀ t, T t → T' t) {s : Span} (hs : Spanned T s) :
    Spanned T' s := by
  induction hs with
  | token ht => exact .token (h _ ht)
  | upTo _ _ ih ih' => exact .upTo ih ih'

/-- **An error of the parser** is about tokens or about the end of the code, and it is not about a
character. -/
structure Blamed (T : Token → Prop) (stop : Span) (e : Error) : Prop where
  code : e.code ≠ .unexpectedCharacter
  place : e.span = stop ∨ Spanned T e.span

section Single

variable {T : Token → Prop} {stop : Span} {site : Site} {tokens : List Token}

/-- An error about a place that is made of the places of tokens. -/
theorem blamed {α : Type} {P : α → Prop} {code : ErrorCode} {detail : String} {s : Span}
    (hs : Spanned T s) (hcode : code ≠ .unexpectedCharacter) :
    Outcome (Blamed T stop) P (.error ⟨code, detail, s⟩) :=
  ⟨hcode, .inr hs⟩

theorem blamed_endOfCode (expected : String) : Blamed T stop (endOfCode stop expected) :=
  ⟨nofun, .inl rfl⟩

/-! ### Single tokens -/

/-- All these tokens have the property. -/
abbrev All (T : Token → Prop) (tokens : List Token) : Prop := ∀ t ∈ tokens, T t

theorem All.head {t : Token} {rest : List Token} (h : All T (t :: rest)) : T t :=
  h t List.mem_cons_self

theorem All.tail {t : Token} {rest : List Token} (h : All T (t :: rest)) : All T rest :=
  fun u hu => h u (List.mem_cons_of_mem t hu)

theorem All.left {used rest : List Token} (h : All T (used ++ rest)) : All T used :=
  fun u hu => h u (List.mem_append_left rest hu)

theorem All.right {used rest : List Token} (h : All T (used ++ rest)) : All T rest :=
  fun u hu => h u (List.mem_append_right used hu)

/-- The tokens that were taken from the front have the property `Q`. -/
def Takes {α : Type} (tokens : List Token) (Q : List Token → α → Prop) (a : α)
    (rest : List Token) : Prop :=
  ∃ used, tokens = used ++ rest ∧ Q used a

theorem Takes.all {α : Type} {Q : List Token → α → Prop} {a : α} {rest : List Token}
    (h : Takes tokens Q a rest) (hT : All T tokens) : All T rest := by
  obtain ⟨used, rfl, -⟩ := h
  exact hT.right

/-- A token is taken. -/
abbrev TakesToken (tokens : List Token) (t : Token) (rest : List Token) : Prop :=
  Takes tokens (fun used t => t ∈ used) t rest

theorem takesToken_cons (t : Token) (rest : List Token) : TakesToken (t :: rest) t rest :=
  ⟨[t], rfl, List.mem_singleton_self t⟩

theorem TakesToken.head {t : Token} {rest : List Token} (h : TakesToken tokens t rest)
    (hT : All T tokens) : T t := by
  obtain ⟨used, rfl, ht⟩ := h
  exact hT.left t ht

theorem next_outcome (hT : All T tokens) (expected : String) :
    Outcome (Blamed T stop) (fun r => TakesToken tokens r.1 r.2.1) (next stop expected tokens) := by
  cases tokens with
  | nil => exact blamed_endOfCode expected
  | cons t rest => exact takesToken_cons t rest

theorem expect_outcome (hT : All T tokens) (kind : TokenKind) {code : ErrorCode}
    (hcode : code ≠ .unexpectedCharacter) (expected : String) :
    Outcome (Blamed T stop) (fun r => TakesToken tokens r.1 r.2.1 ∧ r.1.kind = kind)
      (expect stop kind code expected tokens) := by
  cases tokens with
  | nil => exact blamed_endOfCode expected
  | cons t rest =>
    rw [expect]
    split
    · rename_i hkind
      exact ⟨takesToken_cons t rest, hkind⟩
    · exact blamed (.token hT.head) hcode

/-- **The use of a name**: from a token, and bound to the declaration that the scope sees. -/
def Uses (T : Token → Prop) (t : Tree) (scope : ScopeId) (i : Identifier) : Prop :=
  ∃ name binding declaration, T name ∧ name.kind = .identifier ∧
    t.declaration? scope name.raw = some (binding, declaration) ∧
    i = ⟨name.raw, declaration.type, some binding, name.span⟩

theorem use_outcome {name : Token} (hname : T name) (hkind : name.kind = .identifier) :
    Outcome (Blamed T stop) (fun i => Uses (· = name) site.tree site.scope i ∧ i.span = name.span)
      (site.use name) := by
  unfold Site.use
  split
  · rename_i binding declaration hdeclaration
    exact ⟨⟨name, binding, declaration, rfl, hkind, hdeclaration, rfl⟩, rfl⟩
  · exact blamed (.token hname) (by decide)

theorem scalar_outcome {name : Token} (hname : T name) (hkind : name.kind = .identifier) :
    Outcome (Blamed T stop)
      (fun i => Uses (· = name) site.tree site.scope i ∧ Site.namesArray i = false)
      (site.scalar name) := by
  have huse : Outcome (Blamed T stop) _ (site.use name) := use_outcome hname hkind
  unfold Site.scalar
  split
  · rename_i e he
    exact huse.error he
  · rename_i i hi
    obtain ⟨huses, hspan⟩ := huse.ok hi
    split
    · rw [hspan]
      exact blamed (.token hname) (by decide)
    · rename_i hscalar
      exact ⟨huses, Bool.eq_false_iff.mpr hscalar⟩

theorem array_outcome {name : Token} (hname : T name) (hkind : name.kind = .identifier) :
    Outcome (Blamed T stop)
      (fun i => Uses (· = name) site.tree site.scope i ∧ Site.namesArray i = true)
      (site.array name) := by
  have huse : Outcome (Blamed T stop) _ (site.use name) := use_outcome hname hkind
  unfold Site.array
  split
  · rename_i e he
    exact huse.error he
  · rename_i i hi
    obtain ⟨huses, hspan⟩ := huse.ok hi
    split
    · rename_i harray
      exact ⟨huses, harray⟩
    · rw [hspan]
      exact blamed (.token hname) (by decide)

theorem checkFresh_outcome {t : Tree} {scope : ScopeId} {name : Token} (hname : T name) :
    Outcome (Blamed T stop) (fun _ => t.Fresh scope name.raw) (checkFresh t scope name) := by
  unfold checkFresh
  split
  · exact blamed (.token hname) (by decide)
  · rename_i hfresh
    exact Bool.eq_false_iff.mpr hfresh

end Single

namespace Parser

/-! ### Expressions -/

/-- **An expression that is parsed** in a scope from tokens with the property `T`. -/
inductive Parses (T : Token → Prop) (t : Tree) (scope : ScopeId) : Expression → Prop
  | number (value : UInt32) {token : Token} (place : T token) :
    Parses T t scope (.number value token.span)
  | name {i : Identifier} (use : Uses T t scope i) (scalar : Site.namesArray i = false) :
    Parses T t scope (.name i)
  | binary (op : Operator) {left right : Expression} (first : Parses T t scope left)
    (second : Parses T t scope right) :
    Parses T t scope (.binary op left right (left.span.upTo right.span))
  | element {i : Identifier} {index : Expression} {close : Token} (use : Uses T t scope i)
    (array : Site.namesArray i = true) (inner : Parses T t scope index) (closes : T close) :
    Parses T t scope (.element i index (i.span.upTo close.span))
  | call {name close : Token} {arguments : List Expression} (word : T name)
    (kind : name.kind = .identifier) (each : ∀ e ∈ arguments, Parses T t scope e)
    (closes : T close) :
    Parses T t scope (.call { name := name.raw, span := name.span } arguments none
      (name.span.upTo close.span))

section Expressions

variable {T : Token → Prop} {t : Tree} {scope : ScopeId} {e : Expression}

theorem Uses.mono {T' : Token → Prop} (h : ∀ t, T t → T' t) {i : Identifier}
    (hi : Uses T t scope i) : Uses T' t scope i := by
  obtain ⟨name, binding, declaration, hname, hrest⟩ := hi
  exact ⟨name, binding, declaration, h name hname, hrest⟩

theorem Uses.spanned {i : Identifier} (hi : Uses T t scope i) : Spanned T i.span := by
  obtain ⟨name, binding, declaration, hname, -, -, rfl⟩ := hi
  exact .token hname

theorem Parses.mono {T' : Token → Prop} (h : ∀ t, T t → T' t) (he : Parses T t scope e) :
    Parses T' t scope e := by
  induction he with
  | number value place => exact .number value (h _ place)
  | name use scalar => exact .name (Uses.mono h use) scalar
  | binary op _ _ ih ih' => exact .binary op ih ih'
  | element use array _ closes ih => exact .element (Uses.mono h use) array ih (h _ closes)
  | call word kind _ closes ih => exact .call (h _ word) kind ih (h _ closes)

theorem Parses.spanned (he : Parses T t scope e) : Spanned T e.span := by
  induction he with
  | number value place => exact .token place
  | name use => exact Uses.spanned use
  | binary _ _ _ ih ih' => exact ih.upTo ih'
  | element use _ _ closes => exact (Uses.spanned use).upTo (.token closes)
  | call word _ _ closes => exact (Spanned.token word).upTo (.token closes)

/-- **The names of an expression** are used in the scope. -/
theorem Parses.uses (he : Parses T t scope e) : ∀ j ∈ e.names, Uses T t scope j := by
  induction he with
  | number => exact fun _ hj => nomatch hj
  | name use => exact fun j hj => List.mem_singleton.mp hj ▸ use
  | binary _ _ _ ih ih' =>
    intro j hj
    rcases List.mem_append.mp hj with hj | hj
    · exact ih j hj
    · exact ih' j hj
  | element use _ _ _ ih =>
    intro j hj
    rcases List.mem_cons.mp hj with rfl | hj
    · exact use
    · exact ih j hj
  | call _ _ _ _ ih =>
    intro j hj
    obtain ⟨e, he, hj⟩ := Expression.mem_namesOf.mp hj
    exact ih e he j hj

end Expressions

section Readers

variable {T : Token → Prop} {site : Site} {n : Nat}

/-- An expression that is made of the tokens that were taken. -/
abbrev Site.Made (site : Site) (used : List Token) (e : Expression) : Prop :=
  Parses (· ∈ used) site.tree site.scope e

/-- **An expression or an error is read.** -/
def ReadsExpression (T : Token → Prop) (site : Site) (tokens : List Token)
    (result : Except Error (Expression × Shorter tokens)) : Prop :=
  Outcome (Blamed T site.stop) (fun r => Takes tokens (Site.Made site) r.1 r.2.1) result

/-- Expressions of every class are read from fewer than `n` tokens. -/
def ReadsLevels (T : Token → Prop) (site : Site) (n : Nat) : Prop :=
  ∀ tier tokens, tokens.length < n → All T tokens →
    ReadsExpression T site tokens (level site tier tokens)

theorem operations_outcome (ih : ReadsLevels T site n) (tier : Precedence) :
    ∀ (m : Nat) (left : Expression) (before tokens : List Token), tokens.length ≤ m → m ≤ n →
      All T tokens → Site.Made site before left →
      Outcome (Blamed T site.stop)
        (fun r => Takes tokens (fun used => Site.Made site (before ++ used)) r.1 r.2.1)
        (operations site tier left tokens) := by
  intro m
  induction m using Nat.strong_induction_on with
  | _ m ihm =>
    intro left before tokens hm hle hT hleft
    have hnone : Takes tokens (fun used => Site.Made site (before ++ used)) left tokens :=
      ⟨[], rfl, hleft.mono fun t ht => List.mem_append_left _ ht⟩
    unfold operations
    split
    · rename_i op value span raw tokens
      have hlt : tokens.length < m := hm
      split
      · refine (ih _ _ (by omega) hT.tail).bind ?_
        rintro ⟨right, rest₁, hrest₁⟩ hright
        have hT₁ : All T rest₁ := hright.all hT.tail
        obtain ⟨used₁, htokens₁, hright⟩ := hright
        have hbinary : Site.Made site (before ++ ⟨.binary op, value, span, raw⟩ :: used₁)
            (.binary op left right (left.span.upTo right.span)) :=
          .binary op (hleft.mono fun t ht => by simp [ht]) (hright.mono fun t ht => by simp [ht])
        refine (ihm rest₁.length (by omega) _ _ rest₁ (Nat.le_refl _) (by omega) hT₁
          hbinary).bind ?_
        rintro ⟨result, rest₂, hrest₂⟩ ⟨used₂, htokens₂, hresult⟩
        refine ⟨⟨.binary op, value, span, raw⟩ :: used₁ ++ used₂, ?_, ?_⟩
        · simp [htokens₁, htokens₂]
        · rwa [List.append_assoc] at hresult
      · exact hnone
    · exact hnone

theorem argumentsFrom_outcome (ih : ReadsLevels T site n) :
    ∀ (m : Nat) (tokens : List Token), tokens.length ≤ m → m < n → All T tokens →
      Outcome (Blamed T site.stop)
        (fun r => Takes tokens (fun used es => (∀ e ∈ es, Site.Made site used e) ∧ r.2.1 ∈ used)
          r.1 r.2.2.1)
        (argumentsFrom site tokens) := by
  intro m
  induction m using Nat.strong_induction_on with
  | _ m ihm =>
    intro tokens hm hlt hT
    unfold argumentsFrom
    refine (ih _ _ (by omega) hT).bind ?_
    rintro ⟨first, rest₁, hrest₁⟩ hfirst
    have hT₁ : All T rest₁ := hfirst.all hT
    refine (next_outcome hT₁ _).bind ?_
    rintro ⟨separator, rest₂, hrest₂⟩ hseparator
    have hT₂ : All T rest₂ := hseparator.all hT₁
    have hplace : T separator := hseparator.head hT₁
    obtain ⟨used₁, htokens₁, hfirst⟩ := hfirst
    obtain ⟨used₂, htokens₂, hseparator⟩ := hseparator
    dsimp only at htokens₁ htokens₂ hseparator hfirst ⊢
    split
    · refine (ihm rest₂.length (by omega) rest₂ (Nat.le_refl _) (by omega) hT₂).bind ?_
      rintro ⟨others, close, rest₃, hrest₃⟩ ⟨used₃, htokens₃, hothers, hclose⟩
      refine ⟨used₁ ++ used₂ ++ used₃, ?_, ?_, ?_⟩
      · simp [htokens₁, htokens₂, htokens₃]
      · refine List.forall_mem_cons.mpr ⟨hfirst.mono fun t ht => by simp [ht], fun e he => ?_⟩
        exact (hothers e he).mono fun t ht => by simp [ht]
      · exact List.mem_append_right _ hclose
    · refine ⟨used₁ ++ used₂, ?_, ?_, ?_⟩
      · simp [htokens₁, htokens₂]
      · exact List.forall_mem_singleton.mpr (hfirst.mono fun t ht => by simp [ht])
      · exact List.mem_append_right _ hseparator
    · exact blamed (.token hplace) (by decide)

theorem arguments_outcome (ih : ReadsLevels T site n) {tokens : List Token}
    (hlt : tokens.length < n) (hT : All T tokens) :
    Outcome (Blamed T site.stop)
      (fun r => Takes tokens (fun used es => (∀ e ∈ es, Site.Made site used e) ∧ r.2.1 ∈ used)
        r.1 r.2.2.1)
      (arguments site tokens) := by
  unfold arguments
  split
  · exact argumentsFrom_outcome ih _ _ (Nat.le_refl _) hlt hT
  · rename_i t tokens
    split
    · exact ⟨[t], rfl, List.forall_mem_nil _, List.mem_singleton_self t⟩
    · exact argumentsFrom_outcome ih _ _ (Nat.le_refl _) hlt hT

/-- A call, behind its name. -/
theorem call_outcome (ih : ReadsLevels T site n) {name : Token} (hkind : name.kind = .identifier)
    {tokens : List Token} (hle : tokens.length ≤ n) (hT : All T tokens) :
    Outcome (Blamed T site.stop)
      (fun r => (∃ i es span, r.1 = .call i es none span) ∧
        Takes tokens (fun used => Site.Made site (name :: used)) r.1 r.2.1)
      (call site name tokens) := by
  unfold call
  refine (expect_outcome hT _ (by decide) _).bind ?_
  rintro ⟨paren, rest₁, hrest₁⟩ ⟨hparen, -⟩
  have hT₁ : All T rest₁ := hparen.all hT
  refine (arguments_outcome ih (by omega) hT₁).bind ?_
  rintro ⟨es, close, rest₂, hrest₂⟩ ⟨used₂, htokens₂, hes, hclose⟩
  obtain ⟨used₁, htokens₁, -⟩ := hparen
  refine ⟨⟨_, _, _, rfl⟩, used₁ ++ used₂, ?_, ?_⟩
  · simp [htokens₁, htokens₂]
  · exact .call List.mem_cons_self hkind (fun e he => (hes e he).mono fun t ht => by simp [ht])
      (List.mem_cons_of_mem _ (List.mem_append_right _ hclose))

/-- An element of an array, behind its name. -/
theorem element_outcome (ih : ReadsLevels T site n) {name : Token} (hname : T name)
    (hkind : name.kind = .identifier) {tokens : List Token} (hle : tokens.length ≤ n)
    (hT : All T tokens) :
    Outcome (Blamed T site.stop)
      (fun r => Takes tokens (fun used => Site.Made site (name :: used))
        (.element r.1 r.2.1 r.2.2.1) r.2.2.2.1)
      (element site name tokens) := by
  unfold element
  refine (array_outcome hname hkind).bind ?_
  rintro i ⟨huses, harray⟩
  refine (expect_outcome hT _ (by decide) _).bind ?_
  rintro ⟨bracket, rest₁, hrest₁⟩ ⟨hbracket, -⟩
  have hT₁ : All T rest₁ := hbracket.all hT
  refine (ih _ _ (by omega) hT₁).bind ?_
  rintro ⟨index, rest₂, hrest₂⟩ hindex
  have hT₂ : All T rest₂ := hindex.all hT₁
  refine (expect_outcome hT₂ _ (by decide) _).bind ?_
  rintro ⟨close, rest₃, hrest₃⟩ ⟨hclose, -⟩
  obtain ⟨used₁, htokens₁, -⟩ := hbracket
  obtain ⟨used₂, htokens₂, hindex⟩ := hindex
  obtain ⟨used₃, htokens₃, hclose⟩ := hclose
  refine ⟨used₁ ++ used₂ ++ used₃, ?_, ?_⟩
  · simp [htokens₁, htokens₂, htokens₃]
  · exact .element (Uses.mono (fun t ht => by simp [ht]) huses) harray
      (hindex.mono fun t ht => by simp [ht]) (by simp [hclose])

theorem term_outcome (ih : ReadsLevels T site n) {tokens : List Token} (hle : tokens.length ≤ n)
    (hT : All T tokens) : ReadsExpression T site tokens (term site tokens) := by
  unfold term
  split
  · exact blamed_endOfCode _
  · rename_i t tokens
    have hlt : tokens.length < n := hle
    split
    · exact ⟨[t], rfl, .number _ (List.mem_singleton_self t)⟩
    · rename_i hkind
      split
      · refine (call_outcome ih hkind (Nat.le_of_lt hlt) hT.tail).bind ?_
        rintro ⟨result, rest₁, hrest₁⟩ ⟨-, used₁, htokens₁, hresult⟩
        exact ⟨t :: used₁, congrArg (t :: ·) htokens₁, hresult⟩
      · refine (element_outcome ih hT.head hkind (Nat.le_of_lt hlt) hT.tail).bind ?_
        rintro ⟨i, index, span, rest₁, hrest₁⟩ ⟨used₁, htokens₁, hresult⟩
        exact ⟨t :: used₁, congrArg (t :: ·) htokens₁, hresult⟩
      · refine (scalar_outcome hT.head hkind).bind ?_
        rintro i ⟨huses, hscalar⟩
        exact ⟨[t], rfl, .name (Uses.mono (fun _ => List.mem_singleton.mpr) huses) hscalar⟩
    · refine (ih _ _ hlt hT.tail).bind ?_
      rintro ⟨inner, rest₁, hrest₁⟩ hinner
      have hT₁ : All T rest₁ := hinner.all hT.tail
      refine (expect_outcome hT₁ _ (by decide) _).bind ?_
      rintro ⟨close, rest₂, hrest₂⟩ ⟨hclose, -⟩
      obtain ⟨used₁, htokens₁, hinner⟩ := hinner
      obtain ⟨used₂, htokens₂, -⟩ := hclose
      refine ⟨t :: used₁ ++ used₂, ?_, hinner.mono fun u hu => by simp [hu]⟩
      simp [htokens₁, htokens₂]
    · exact blamed (.token hT.head) (by decide)
    · exact blamed (.token hT.head) (by decide)

/-- One class, and the tighter ones before it. -/
theorem level_outcome_of (ih : ReadsLevels T site n) {tokens : List Token}
    (hle : tokens.length ≤ n) (hT : All T tokens) :
    ∀ (rank : Nat) (tier : Precedence), tier.rank = rank →
      ReadsExpression T site tokens (level site tier tokens) := by
  intro rank
  induction rank using Nat.strong_induction_on with
  | _ rank ihr =>
    intro tier htier
    unfold level
    split
    · exact term_outcome ih hle hT
    · rename_i hterm
      have hrank := Precedence.rank_above hterm
      refine (ihr _ (htier ▸ hrank) tier.above rfl).bind ?_
      rintro ⟨left, rest₁, hrest₁⟩ hleft
      have hT₁ : All T rest₁ := hleft.all hT
      obtain ⟨used₁, htokens₁, hleft⟩ := hleft
      refine (operations_outcome ih tier _ _ used₁ rest₁ (Nat.le_refl _) (by omega) hT₁
        hleft).bind ?_
      rintro ⟨result, rest₂, hrest₂⟩ ⟨used₂, htokens₂, hresult⟩
      refine ⟨used₁ ++ used₂, ?_, hresult⟩
      simp [htokens₁, htokens₂]

theorem level_outcome : ∀ n, ReadsLevels T site n := by
  intro n
  induction n with
  | zero => exact fun _ _ h => absurd h (Nat.not_lt_zero _)
  | succ n ih =>
    exact fun tier tokens hlt hT => level_outcome_of ih (Nat.le_of_lt_succ hlt) hT _ tier rfl

/-- **An expression is read, or an error.** -/
theorem expression_outcome {tokens : List Token} (hT : All T tokens) :
    ReadsExpression T site tokens (expression site tokens) :=
  level_outcome (tokens.length + 1) .test tokens (Nat.lt_succ_self _) hT

end Readers

/-! ### Statements without bodies -/

/-- **A name that is declared**: its place is that of a token. -/
structure Declares (T : Token → Prop) (t : Tree) (scope : ScopeId) (i : Identifier) : Prop where
  word : ∃ name, T name ∧ name.kind = .identifier ∧ i.name = name.raw ∧ i.span = name.span
  fresh : t.Fresh scope i.name
  bound : i.binding = some scope

/-- **A statement without bodies that is parsed** in a scope, if it is no `return`. -/
inductive Forms (T : Token → Prop) (t : Tree) (scope : ScopeId) (around : Surroundings) :
    Statement → Prop
  | array {i : Identifier} {element : ValueType} {size : Nat} {place span : Span}
    (declares : Declares T t scope i) (type : i.type = some (.array element size))
    (scalar : element = .int ∨ element = .bool) (positive : 0 < size)
    (fits : size ≤ Machine.maxRegisters) (value : Spanned T place) (whole : Spanned T span) :
    Forms T t scope around (.assign (.name i) (.new (.array element size) place) true span)
  | declare {i : Identifier} {e : Expression} {span : Span} (declares : Declares T t scope i)
    (scalar : IsScalar i.type) (value : Parses T t scope e) (whole : Spanned T span) :
    Forms T t scope around (.assign (.name i) e true span)
  | assign {i : Identifier} {e : Expression} {span : Span} (target : Parses T t scope (.name i))
    (value : Parses T t scope e) (whole : Spanned T span) :
    Forms T t scope around (.assign (.name i) e false span)
  | assignElement {i : Identifier} {index e : Expression} {place span : Span}
    (target : Parses T t scope (.element i index place)) (value : Parses T t scope e)
    (whole : Spanned T span) :
    Forms T t scope around (.assign (.element i index place) e false span)
  | leave {span : Span} (inLoop : around.inLoop = true) (whole : Spanned T span) :
    Forms T t scope around (.leave span)
  | again {span : Span} (inLoop : around.inLoop = true) (whole : Spanned T span) :
    Forms T t scope around (.again span)
  | evaluate {i : Identifier} {arguments : List Expression} {span : Span}
    (value : Parses T t scope (.call i arguments none span)) :
    Forms T t scope around (.evaluate (.call i arguments none span))

section Single

variable {T T' : Token → Prop} {t : Tree} {scope : ScopeId} {around : Surroundings} {site : Site}
  {tokens : List Token}

theorem Declares.mono (h : ∀ t, T t → T' t) {i : Identifier} (hi : Declares T t scope i) :
    Declares T' t scope i := by
  obtain ⟨⟨name, hname, hword⟩, hfresh, hbound⟩ := hi
  exact ⟨⟨name, h name hname, hword⟩, hfresh, hbound⟩

theorem Forms.mono (h : ∀ t, T t → T' t) {s : Statement} (hs : Forms T t scope around s) :
    Forms T' t scope around s := by
  cases hs with
  | array declares type scalar positive fits value whole =>
    exact .array (declares.mono h) type scalar positive fits (value.mono h) (whole.mono h)
  | declare declares scalar value whole =>
    exact .declare (declares.mono h) scalar (value.mono h) (whole.mono h)
  | assign target value whole => exact .assign (target.mono h) (value.mono h) (whole.mono h)
  | assignElement target value whole =>
    exact .assignElement (target.mono h) (value.mono h) (whole.mono h)
  | leave inLoop whole => exact .leave inLoop (whole.mono h)
  | again inLoop whole => exact .again inLoop (whole.mono h)
  | evaluate value => exact .evaluate (value.mono h)

/-- **The names of a statement** are used in the scope. -/
theorem Forms.uses {s : Statement} (hs : Forms T t scope around s) :
    ∀ j ∈ s.names, Uses T t scope j := by
  intro j hj
  cases hs with
  | array | leave | again => nomatch hj
  | declare _ _ value => exact value.uses j hj
  | assign target value =>
    exact (List.mem_append.mp hj).elim (target.uses j) (value.uses j)
  | assignElement target value =>
    rw [Statement.names, ← List.cons_append] at hj
    exact (List.mem_append.mp hj).elim (target.uses j) (value.uses j)
  | evaluate value => exact value.uses j hj

theorem Forms.declares {s : Statement} (hs : Forms T t scope around s) {i : Identifier}
    (hi : s.declared? = some i) : Declares T t scope i := by
  cases hs with
  | array declares | declare declares =>
    cases hi
    exact declares
  | _ => cases hi

theorem arraySize_outcome {stop : Span} {size : Token} (hsize : T size) :
    Outcome (Blamed T stop) (fun count => 0 < count ∧ count ≤ Machine.maxRegisters)
      (arraySize size) := by
  unfold arraySize
  split
  · split
    · exact blamed (.token hsize) (by decide)
    · split
      · exact blamed (.token hsize) (by decide)
      · exact ⟨by omega, by omega⟩
  · exact blamed (.token hsize) (by decide)

/-- The array of an initial value. -/
def IsArray (T : Token → Prop) (type : ValueType) (place : Span) : Prop :=
  ∃ element size, type = .array element size ∧ (element = .int ∨ element = .bool) ∧ 0 < size ∧
    size ≤ Machine.maxRegisters ∧ Spanned T place

theorem initialization_outcome {keyword : Token} (hT : All T tokens) :
    Outcome (Blamed T site.stop)
      (fun r => Takes tokens (fun used => IsArray (· ∈ keyword :: used) r.1) r.2.1 r.2.2.1)
      (initialization site keyword tokens) := by
  unfold initialization
  refine (next_outcome hT _).bind ?_
  rintro ⟨type, rest₁⟩ htype
  have hT₁ : All T rest₁.1 := htype.all hT
  have hplace : T type := htype.head hT
  obtain ⟨used₁, htokens₁, -⟩ := htype
  dsimp only at htokens₁ ⊢
  split
  iterate 2
    refine (expect_outcome hT₁ _ (by decide) _).bind ?_
    rintro ⟨bracket, rest₂⟩ ⟨hbracket, -⟩
    have hT₂ : All T rest₂.1 := hbracket.all hT₁
    refine (next_outcome hT₂ _).bind ?_
    rintro ⟨size, rest₃⟩ hsize
    have hT₃ : All T rest₃.1 := hsize.all hT₂
    refine (arraySize_outcome (hsize.head hT₂)).bind ?_
    rintro count ⟨hpositive, hfits⟩
    refine (expect_outcome hT₃ _ (by decide) _).bind ?_
    rintro ⟨close, rest₄⟩ ⟨hclose, -⟩
    obtain ⟨used₂, htokens₂, -⟩ := hbracket
    obtain ⟨used₃, htokens₃, -⟩ := hsize
    obtain ⟨used₄, htokens₄, hclose⟩ := hclose
    refine ⟨used₁ ++ used₂ ++ used₃ ++ used₄, ?_, _, count, rfl, ?_, hpositive, hfits, ?_⟩
    · simp [htokens₁, htokens₂, htokens₃, htokens₄]
    · split <;> simp
    · exact (Spanned.token List.mem_cons_self).upTo (.token (by simp [hclose]))
  · exact blamed (.token hplace) (by decide)

theorem checkElement_outcome {stop span : Span} {declared : Option ValueType} {type : ValueType}
    (hspan : Spanned T span) :
    Outcome (Blamed T stop) (fun _ => True) (checkElement declared type span) := by
  unfold checkElement
  split
  · split
    · trivial
    · exact blamed hspan (by decide)
  · trivial

/-- The initial value of a declaration, and the type of its name. -/
def Initial (site : Site) (declared : Option ValueType) (used : List Token)
    (value : Option ValueType × Expression) : Prop :=
  (∃ type place, value = (some type, .new type place) ∧ IsArray (· ∈ used) type place) ∨
    (value.1 = declared ∧ Site.Made site used value.2)

theorem initialValue_outcome {declared : Option ValueType} (hT : All T tokens) :
    Outcome (Blamed T site.stop)
      (fun r => Takes tokens (Initial site declared) (r.1, r.2.1) r.2.2.1)
      (initialValue site declared tokens) := by
  unfold initialValue
  split
  · exact blamed_endOfCode _
  · rename_i t tokens
    split
    · refine (initialization_outcome hT.tail).bind ?_
      rintro ⟨type, place, rest₁⟩ ⟨used₁, htokens₁, harray⟩
      have hspanned : Spanned T place := by
        obtain ⟨element, size, -, -, -, -, hplace⟩ := harray
        refine hplace.mono fun u hu => ?_
        rcases List.mem_cons.mp hu with rfl | hu
        · exact hT.head
        · exact hT.tail u (htokens₁ ▸ List.mem_append_left _ hu)
      refine (checkElement_outcome hspanned).bind fun _ _ => ?_
      exact ⟨t :: used₁, congrArg (t :: ·) htokens₁, .inl ⟨type, place, rfl, harray⟩⟩
    · refine (expression_outcome hT).bind ?_
      rintro ⟨value, rest₁⟩ ⟨used₁, htokens₁, hvalue⟩
      exact ⟨used₁, htokens₁, .inr ⟨rfl, hvalue⟩⟩

theorem isScalar_ofKeyword (k : Keyword) : IsScalar (ValueType.ofKeyword? k) := by
  cases k <;> simp [IsScalar, ValueType.ofKeyword?]

/-- A statement that is made of a token and those that were taken behind it. -/
abbrev Site.Forms (site : Site) (around : Surroundings) (first : Token) (used : List Token)
    (s : Statement) : Prop :=
  Parser.Forms (· ∈ first :: used) site.tree site.scope around s

theorem declaration_outcome (around : Surroundings) (type : Token) (hT : All T tokens) :
    Outcome (Blamed T site.stop)
      (fun r => Takes tokens (Site.Forms site around type) r.1 r.2.1)
      (declaration site type tokens) := by
  unfold declaration
  refine (expect_outcome hT _ (by decide) _).bind ?_
  rintro ⟨name, rest₁⟩ ⟨hname, hkind⟩
  have hT₁ : All T rest₁.1 := hname.all hT
  refine (checkFresh_outcome (hname.head hT)).bind fun _ hfresh => ?_
  refine (expect_outcome hT₁ _ (by decide) _).bind ?_
  rintro ⟨equals, rest₂⟩ ⟨hequals, -⟩
  have hT₂ : All T rest₂.1 := hequals.all hT₁
  refine (initialValue_outcome hT₂).bind ?_
  rintro ⟨valueType, value, rest₃⟩ hvalue
  have hT₃ : All T rest₃.1 := hvalue.all hT₂
  refine (expect_outcome hT₃ _ (by decide) _).bind ?_
  rintro ⟨close, rest₄⟩ ⟨hclose, -⟩
  obtain ⟨used₁, htokens₁, hname⟩ := hname
  obtain ⟨used₂, htokens₂, -⟩ := hequals
  obtain ⟨used₃, htokens₃, hvalue⟩ := hvalue
  obtain ⟨used₄, htokens₄, hclose⟩ := hclose
  refine ⟨used₁ ++ used₂ ++ used₃ ++ used₄, ?_, ?_⟩
  · simp [htokens₁, htokens₂, htokens₃, htokens₄]
  · have hmore : ∀ u ∈ used₃, u ∈ type :: (used₁ ++ used₂ ++ used₃ ++ used₄) := fun u hu => by
      simp [hu]
    have hdeclares : Declares (· ∈ type :: (used₁ ++ used₂ ++ used₃ ++ used₄)) site.tree site.scope
        ⟨name.raw, valueType, some site.scope, name.span⟩ :=
      ⟨⟨name, by simp [hname], hkind, rfl, rfl⟩, hfresh, rfl⟩
    have hwhole : Spanned (· ∈ type :: (used₁ ++ used₂ ++ used₃ ++ used₄))
        (type.span.upTo close.span) :=
      (Spanned.token List.mem_cons_self).upTo (.token (by simp [hclose]))
    obtain ⟨arrayType, place, heq, element, size, rfl, hscalar, hpositive, hfits, hplace⟩ |
      ⟨rfl, hvalue⟩ := hvalue
    · cases heq
      exact .array hdeclares rfl hscalar hpositive hfits (hplace.mono hmore) hwhole
    · refine .declare hdeclares ?_ (hvalue.mono hmore) hwhole
      dsimp only
      split
      · exact isScalar_ofKeyword _
      · exact .inl rfl

/-- `x op= e`, from the parts that were parsed. -/
theorem Forms.combined {target : Identifier} {right : Expression} {span : Span} (op : Operator)
    (htarget : Parses T t scope (.name target)) (hright : Parses T t scope right)
    (hspan : Spanned T span) : Forms T t scope around (combined target op right span) :=
  .assign htarget (.binary op htarget hright) hspan

/-- A scalar that is given the value behind an operator, in one of two forms. -/
theorem assigned_outcome (around : Surroundings) (t : Token) {name : Token} (hname : T name)
    (hkind : name.kind = .identifier) {make : Identifier → Expression → Span → Statement}
    (hmake : ∀ {T : Token → Prop} {i : Identifier} {e : Expression} {span : Span},
      Parses T site.tree site.scope (.name i) → Parses T site.tree site.scope e → Spanned T span →
        Forms T site.tree site.scope around (make i e span)) (hT : All T tokens) :
    Outcome (Blamed T site.stop)
      (fun r => Takes (t :: tokens) (Site.Forms site around name) r.1 r.2.1) (do
        let target ← site.scalar name
        let (value, rest₁) ← expression site tokens
        let (close, rest₂) ← expectSemicolon site.stop rest₁
        return (make target value (name.span.upTo close.span), (rest₁.trans rest₂).behind t)) := by
  refine (scalar_outcome hname hkind).bind ?_
  rintro target ⟨huses, hscalar⟩
  refine (expression_outcome hT).bind ?_
  rintro ⟨value, rest₁⟩ hvalue
  have hT₁ : All T rest₁.1 := hvalue.all hT
  refine (expect_outcome hT₁ _ (by decide) _).bind ?_
  rintro ⟨close, rest₂⟩ ⟨⟨used₂, htokens₂, hclose⟩, -⟩
  obtain ⟨used₁, htokens₁, hvalue⟩ := hvalue
  refine ⟨t :: used₁ ++ used₂, ?_, hmake (.name (Uses.mono ?_ huses) hscalar) ?_ ?_⟩
  · simp [htokens₁, htokens₂]
  · exact fun u hu => by simp [hu]
  · exact hvalue.mono fun u hu => by simp [hu]
  · exact (Spanned.token List.mem_cons_self).upTo (.token (by simp [hclose]))

theorem assignment_outcome (around : Surroundings) {name : Token} (hname : T name)
    (hkind : name.kind = .identifier) (hT : All T tokens) :
    Outcome (Blamed T site.stop)
      (fun r => Takes tokens (Site.Forms site around name) r.1 r.2.1)
      (assignment site name tokens) := by
  unfold assignment
  split
  · exact blamed_endOfCode _
  · rename_i t tokens
    have ih : ReadsLevels T site (t :: tokens).length := level_outcome _
    split
    · refine (call_outcome ih hkind (Nat.le_refl _) hT).bind ?_
      rintro ⟨value, rest₁⟩ ⟨⟨i, es, span, rfl⟩, hvalue⟩
      have hT₁ : All T rest₁.1 := hvalue.all hT
      refine (expect_outcome hT₁ _ (by decide) _).bind ?_
      rintro ⟨close, rest₂⟩ ⟨⟨used₂, htokens₂, -⟩, -⟩
      obtain ⟨used₁, htokens₁, hvalue⟩ := hvalue
      refine ⟨used₁ ++ used₂, ?_, .evaluate (hvalue.mono fun u hu => by simp at hu ⊢; tauto)⟩
      simp [htokens₁, htokens₂]
    · refine (element_outcome ih hname hkind (Nat.le_refl _) hT).bind ?_
      rintro ⟨i, index, place, rest₁⟩ htarget
      have hT₁ : All T rest₁.1 := htarget.all hT
      refine (expect_outcome hT₁ _ (by decide) _).bind ?_
      rintro ⟨equals, rest₂⟩ ⟨hequals, -⟩
      have hT₂ : All T rest₂.1 := hequals.all hT₁
      refine (expression_outcome hT₂).bind ?_
      rintro ⟨value, rest₃⟩ hvalue
      have hT₃ : All T rest₃.1 := hvalue.all hT₂
      refine (expect_outcome hT₃ _ (by decide) _).bind ?_
      rintro ⟨close, rest₄⟩ ⟨⟨used₄, htokens₄, hclose⟩, -⟩
      obtain ⟨used₁, htokens₁, htarget⟩ := htarget
      obtain ⟨used₂, htokens₂, -⟩ := hequals
      obtain ⟨used₃, htokens₃, hvalue⟩ := hvalue
      refine ⟨used₁ ++ used₂ ++ used₃ ++ used₄, ?_, .assignElement ?_ ?_ ?_⟩
      · simp [htokens₁, htokens₂, htokens₃, htokens₄]
      · exact htarget.mono fun u hu => by simp at hu ⊢; tauto
      · exact hvalue.mono fun u hu => by simp [hu]
      · exact (Spanned.token List.mem_cons_self).upTo (.token (by simp [hclose]))
    · exact assigned_outcome around t hname hkind .assign hT.tail
    · exact assigned_outcome around t hname hkind (.combined _) hT.tail
    · refine (scalar_outcome hname hkind).bind ?_
      rintro target ⟨huses, hscalar⟩
      refine (expect_outcome hT.tail _ (by decide) _).bind ?_
      rintro ⟨close, rest₁⟩ ⟨⟨used₁, htokens₁, hclose⟩, -⟩
      refine ⟨t :: used₁, ?_, .combined _ (.name (Uses.mono ?_ huses) hscalar) (.number 1 ?_) ?_⟩
      · simp [htokens₁]
      · exact fun u hu => by simp [hu]
      · simp
      · exact (Spanned.token List.mem_cons_self).upTo (.token (by simp [hclose]))
    · exact blamed (.token hT.head) (by decide)

/-- **A condition that is parsed** in a scope. -/
structure IsCondition (T : Token → Prop) (t : Tree) (scope : ScopeId) (e : Expression) : Prop where
  value : Parses T t scope e
  comparison : isComparison e = true

theorem condition_outcome {missing : ErrorCode} (hmissing : missing ≠ .unexpectedCharacter)
    {expected : String} (hT : All T tokens) :
    Outcome (Blamed T site.stop)
      (fun r => Takes tokens (fun used => IsCondition (· ∈ used) site.tree site.scope) r.1 r.2.1)
      (condition site missing expected tokens) := by
  unfold condition
  refine (expect_outcome hT _ hmissing _).bind ?_
  rintro ⟨paren, rest₁⟩ ⟨hparen, -⟩
  have hT₁ : All T rest₁.1 := hparen.all hT
  refine (expression_outcome hT₁).bind ?_
  rintro ⟨value, rest₂⟩ hvalue
  have hT₂ : All T rest₂.1 := hvalue.all hT₁
  refine (expect_outcome hT₂ _ (by decide) _).bind ?_
  rintro ⟨close, rest₃⟩ ⟨⟨used₃, htokens₃, -⟩, -⟩
  obtain ⟨used₁, htokens₁, -⟩ := hparen
  obtain ⟨used₂, htokens₂, hvalue⟩ := hvalue
  dsimp only at hvalue ⊢
  split
  · rename_i hcomparison
    refine ⟨used₁ ++ used₂ ++ used₃, ?_, hvalue.mono fun u hu => by simp [hu], hcomparison⟩
    simp [htokens₁, htokens₂, htokens₃]
  · refine blamed (hvalue.spanned.mono fun u hu => hT₁ u ?_) (by decide)
    exact htokens₂ ▸ List.mem_append_left _ hu

theorem keywordStatement_outcome {stop : Span} {s : Statement} (hT : All T tokens) :
    Outcome (Blamed T stop) (fun r => Takes tokens (fun _ s' => s' = s) r.1 r.2.1)
      (keywordStatement stop s tokens) := by
  unfold keywordStatement
  refine (expect_outcome hT _ (by decide) _).bind ?_
  rintro ⟨close, rest⟩ ⟨⟨used, htokens, -⟩, -⟩
  exact ⟨used, htokens, rfl⟩

/-- A `return` that is parsed in a scope. -/
def Gives (T : Token → Prop) (t : Tree) (scope : ScopeId) (s : Statement) : Prop :=
  ∃ e span, s = .give e span ∧ Parses T t scope e ∧ Spanned T span

theorem returned_outcome (keyword : Token) (hT : All T tokens) :
    Outcome (Blamed T site.stop)
      (fun r => Takes tokens (fun used => Gives (· ∈ keyword :: used) site.tree site.scope)
        r.1 r.2.1)
      (returned site keyword tokens) := by
  unfold returned
  refine (expression_outcome hT).bind ?_
  rintro ⟨value, rest₁⟩ hvalue
  have hT₁ : All T rest₁.1 := hvalue.all hT
  refine (expect_outcome hT₁ _ (by decide) _).bind ?_
  rintro ⟨close, rest₂⟩ ⟨⟨used₂, htokens₂, -⟩, -⟩
  obtain ⟨used₁, htokens₁, hvalue⟩ := hvalue
  have hmade : Parses (· ∈ keyword :: (used₁ ++ used₂)) site.tree site.scope value :=
    hvalue.mono fun u hu => by simp [hu]
  refine ⟨used₁ ++ used₂, ?_, _, _, rfl, hmade,
    (Spanned.token List.mem_cons_self).upTo hmade.spanned⟩
  simp [htokens₁, htokens₂]

end Single

end Parser

end RegisterMachine.Structured
