import RegisterMachine.Proofs.Structured.Parsing

/-! # Trees that are built

The parser of statements puts each statement into its scope as soon as it is read. What it does to a
draft is built up by one rule for every form of statement, for every row of tokens.

* `Builds`: what statements do to a draft, and the tokens that they are made of.
* `parse_outcome`: whole trees, or errors. -/

namespace RegisterMachine.Structured

open RegisterMachine.Success

namespace Parser

/-! ### What is built -/

/-- **Parameters are put into their scope.** -/
inductive BuildsParameters (T : Token → Prop) (scope : ScopeId) :
    Tree → List Identifier → Tree → Prop
  | nil (t : Tree) : BuildsParameters T scope t [] t
  | cons {t t' : Tree} {i : Identifier} {rest : List Identifier} (declares : Declares T t scope i)
    (scalar : IsScalar i.type)
    (others : BuildsParameters T scope (t.push scope (.parameter i)) rest t') :
    BuildsParameters T scope t (i :: rest) t'

/-- The name of a function that is declared. -/
structure Titles (T : Token → Prop) (t : Tree) (scope : ScopeId) (i : Identifier) : Prop where
  word : ∃ name, T name ∧ name.kind = .identifier ∧ i.name = name.raw ∧ i.span = name.span
  fresh : t.FreshFunction scope i.name
  bound : i.binding = some scope
  scalar : IsScalar i.type

/-- **What statements do to a draft**: the statements, the tokens that they are made of in the order
of the statements, and the draft behind them. -/
inductive Builds :
    Draft → ScopeId → Surroundings → List Statement → List Token → Draft → Prop
  | nil (d : Draft) (scope : ScopeId) (around : Surroundings) (used : List Token) :
    Builds d scope around [] used d
  | cons {d d₁ d' : Draft} {scope around s l used used'} (first : Builds d scope around [s] used d₁)
    (rest : Builds d₁ scope around l used' d') : Builds d scope around (s :: l) (used ++ used') d'
  | plain {d : Draft} {scope around s used} (statement : Forms (· ∈ used) d.tree scope around s) :
    Builds d scope around [s] used (d.push scope s)
  | give {d : Draft} {scope around s used} (inFunction : around.inFunction = true)
    (statement : Gives (· ∈ used) d.tree scope s) :
    Builds d scope around [s] used { d.push scope s with returned := true }
  | block {d d₁ d' : Draft} {scope around inner l used} (opened : d.openScope scope = (d₁, inner))
    (body : Builds d₁ inner around l used d') :
    Builds d scope around [.block inner] used (d'.push scope (.block inner))
  | loop {d d₁ d' : Draft} {scope around e inner span l head used}
    (condition : IsCondition (· ∈ head) d.tree scope e) (whole : Spanned (· ∈ head) span)
    (opened : d.openScope scope = (d₁, inner))
    (body : Builds d₁ inner { around with inLoop := true } l used d') :
    Builds d scope around [.loop e inner span] (head ++ used) (d'.push scope (.loop e inner span))
  | branch {d d₁ d' : Draft} {scope around e inner span l head used}
    (condition : IsCondition (· ∈ head) d.tree scope e) (whole : Spanned (· ∈ head) span)
    (opened : d.openScope scope = (d₁, inner)) (body : Builds d₁ inner around l used d') :
    Builds d scope around [.branch e inner none span] (head ++ used)
      (d'.push scope (.branch e inner none span))
  | branchElse {d d₁ d₂ d₃ d' : Draft} {scope around e inner other span l l' head used used'}
    (condition : IsCondition (· ∈ head) d.tree scope e) (whole : Spanned (· ∈ head) span)
    (opened : d.openScope scope = (d₁, inner)) (body : Builds d₁ inner around l used d₂)
    (opened' : d₂.openScope scope = (d₃, other)) (otherwise : Builds d₃ other around l' used' d') :
    Builds d scope around [.branch e inner (some other) span] (head ++ (used ++ used'))
      (d'.push scope (.branch e inner (some other) span))
  | function {d inside : Draft} {t₁ t₂ t₃ : Tree}
    {scope around i arguments inner ps span l head used}
    (titles : Titles (· ∈ head) d.tree scope i) (whole : Spanned (· ∈ head) span)
    (opened : d.tree.addScope [scope] = (t₁, arguments))
    (parameters : BuildsParameters (· ∈ head) arguments t₁ ps t₂)
    (opened' : t₂.addScope [arguments] = (t₃, inner))
    (body : Builds ⟨t₃, false⟩ inner { inFunction := true } l used inside)
    (returns : inside.returned = true → i.type ≠ none) :
    Builds d scope around [.function i arguments inner i.type span] (head ++ used)
      ({ d with tree := inside.tree }.push scope (.function i arguments inner i.type span))

section Wider

variable {T T' : Token → Prop} {t t' : Tree} {scope : ScopeId}

theorem BuildsParameters.mono (h : ∀ t, T t → T' t) {ps : List Identifier}
    (hps : BuildsParameters T scope t ps t') : BuildsParameters T' scope t ps t' := by
  induction hps with
  | nil t => exact .nil t
  | cons declares scalar _ ih => exact .cons (declares.mono h) scalar ih

theorem Titles.mono (h : ∀ t, T t → T' t) {i : Identifier} (hi : Titles T t scope i) :
    Titles T' t scope i := by
  obtain ⟨⟨name, hname, hword⟩, hfresh, hbound, hscalar⟩ := hi
  exact ⟨⟨name, h name hname, hword⟩, hfresh, hbound, hscalar⟩

theorem IsCondition.mono (h : ∀ t, T t → T' t) {e : Expression} (he : IsCondition T t scope e) :
    IsCondition T' t scope e :=
  ⟨he.value.mono h, he.comparison⟩

theorem Gives.mono (h : ∀ t, T t → T' t) {s : Statement} (hs : Gives T t scope s) :
    Gives T' t scope s := by
  obtain ⟨e, span, rfl, he, hspan⟩ := hs
  exact ⟨e, span, rfl, he.mono h, hspan.mono h⟩

/-- Tokens in front of statements go with the first of them. -/
theorem Builds.behind (before : List Token) {d d' : Draft} {around : Surroundings}
    {l : List Statement} {used : List Token} (h : Builds d scope around l used d') :
    Builds d scope around l (before ++ used) d' := by
  have hmore : ∀ {used : List Token} (t : Token), t ∈ used → t ∈ before ++ used := fun _ ht =>
    List.mem_append_right _ ht
  induction h with
  | nil d scope around used => exact .nil d scope around _
  | cons _ rest ih _ =>
    rw [← List.append_assoc]
    exact .cons ih rest
  | plain statement => exact .plain (statement.mono hmore)
  | give inFunction statement => exact .give inFunction (statement.mono hmore)
  | block opened _ ih => exact .block opened ih
  | loop condition whole opened body =>
    rw [← List.append_assoc]
    exact .loop (condition.mono hmore) (whole.mono hmore) opened body
  | branch condition whole opened body =>
    rw [← List.append_assoc]
    exact .branch (condition.mono hmore) (whole.mono hmore) opened body
  | branchElse condition whole opened body opened' otherwise =>
    rw [← List.append_assoc]
    exact .branchElse (condition.mono hmore) (whole.mono hmore) opened body opened' otherwise
  | function titles whole opened parameters opened' body returns =>
    rw [← List.append_assoc]
    exact .function (titles.mono hmore) (whole.mono hmore) opened (parameters.mono hmore) opened'
      body returns

end Wider

/-! ### What becomes of the scopes -/

theorem BuildsParameters.grown {T : Token → Prop} {scope : ScopeId} {t t' : Tree}
    {ps : List Identifier} (h : BuildsParameters T scope t ps t') :
    Grown t t' scope (ps.map .parameter) := by
  induction h with
  | nil t => exact Grown.refl t scope
  | cons _ _ _ ih => exact (Grown.push _ scope _).trans ih

/-- **What becomes of the scopes** when statements are put into one. -/
theorem Builds.grown {d d' : Draft} {scope : ScopeId} {around : Surroundings} {l : List Statement}
    {used : List Token} (h : Builds d scope around l used d') : Grown d.tree d'.tree scope l := by
  induction h with
  | nil d scope => exact Grown.refl d.tree scope
  | cons _ _ ih ih' => exact ih.trans ih'
  | plain | give => exact Grown.push _ _ _
  | block opened _ ih | loop _ _ opened _ ih | branch _ _ opened _ ih =>
    exact (ih.opened opened).trans (Grown.push _ _ _)
  | branchElse _ _ opened _ opened' _ ih ih' =>
    exact ((ih.opened opened).trans (ih'.opened opened')).trans (Grown.push _ _ _)
  | function _ _ opened parameters opened' _ _ ih =>
    obtain ⟨rfl, rfl⟩ := addScope_ok opened
    obtain ⟨rfl, rfl⟩ := addScope_ok opened'
    exact ((parameters.grown.inside _).trans (ih.inside _)).trans (Grown.push _ _ _)

/-! ### What becomes of the statements -/

/-- **A statement that is made** in a scope of a tree, from tokens with the property `T`. -/
inductive Made (T : Token → Prop) (t : Tree) (scope : ScopeId) : Statement → Prop
  | plain {around : Surroundings} {s : Statement} (forms : Forms T t scope around s) :
    Made T t scope s
  | give {s : Statement} (gives : Gives T t scope s) : Made T t scope s
  | block (inner : ScopeId) : Made T t scope (.block inner)
  | loop {e : Expression} {inner : ScopeId} {span : Span} (condition : IsCondition T t scope e)
    (whole : Spanned T span) : Made T t scope (.loop e inner span)
  | branch {e : Expression} {inner : ScopeId} {other : Option ScopeId} {span : Span}
    (condition : IsCondition T t scope e) (whole : Spanned T span) :
    Made T t scope (.branch e inner other span)
  | function {i : Identifier} {arguments inner : ScopeId} {span : Span}
    (titles : Titles T t scope i) (whole : Spanned T span) :
    Made T t scope (.function i arguments inner i.type span)
  | parameter {i : Identifier} (declares : Declares T t scope i) (scalar : IsScalar i.type) :
    Made T t scope (.parameter i)

/-- The statements of `t` that the tree `base` does not have are made of tokens. -/
def NewMade (base : Tree) (T : Token → Prop) (t : Tree) : Prop :=
  ∀ id s, t.statement? id = some s →
    base.statement? id = some s ∨ ∃ t₀, Made T t₀ id.scope s

section Made

variable {T : Token → Prop} {base t t₀ : Tree} {scope : ScopeId} {s : Statement}

theorem NewMade.refl (t : Tree) : NewMade t T t := fun _ _ => .inl

theorem NewMade.push (h : NewMade base T t) (hs : Made T t₀ scope s) :
    NewMade base T (t.push scope s) := by
  intro id s' hs'
  rcases Drafted.statement?_push hs' with hs' | ⟨rfl, rfl⟩
  · exact h id s' hs'
  · exact .inr ⟨t₀, hs⟩

theorem NewMade.addScope (h : NewMade base T t) (shared : List ScopeId) :
    NewMade base T (t.addScope shared).1 := by
  intro id s hs
  rw [Drafted.statement?_addScope] at hs
  exact h id s hs

theorem BuildsParameters.made {t' : Tree} {ps : List Identifier}
    (hps : BuildsParameters T scope t ps t') (h : NewMade base T t) : NewMade base T t' := by
  induction hps with
  | nil => exact h
  | cons declares scalar _ ih => exact ih (h.push (.parameter declares scalar))

/-- **Every new statement is made** of the tokens. -/
theorem Builds.made {d d' : Draft} {around : Surroundings} {l : List Statement} {used : List Token}
    (h : Builds d scope around l used d') :
    All T used → NewMade base T d.tree → NewMade base T d'.tree := by
  induction h with
  | nil => exact fun _ hd => hd
  | cons _ _ ih ih' => exact fun hT hd => ih' hT.right (ih hT.left hd)
  | plain statement => exact fun hT hd => hd.push (.plain (statement.mono hT))
  | give _ statement => exact fun hT hd => hd.push (.give (statement.mono hT))
  | block opened _ ih =>
    intro hT hd
    cases opened
    exact (ih hT (hd.addScope _)).push (@Made.block T base _ _)
  | loop condition whole opened _ ih =>
    intro hT hd
    cases opened
    exact (ih hT.right (hd.addScope _)).push
      (.loop (condition.mono hT.left) (whole.mono hT.left))
  | branch condition whole opened _ ih =>
    intro hT hd
    cases opened
    exact (ih hT.right (hd.addScope _)).push
      (.branch (condition.mono hT.left) (whole.mono hT.left))
  | branchElse condition whole opened _ opened' _ ih ih' =>
    intro hT hd
    cases opened
    cases opened'
    have hbody := ih hT.right.left (hd.addScope _)
    exact (ih' hT.right.right (hbody.addScope _)).push
      (.branch (condition.mono hT.left) (whole.mono hT.left))
  | function titles whole opened parameters opened' _ _ ih =>
    intro hT hd
    cases opened
    cases opened'
    have hheader := (parameters.mono hT.left).made (hd.addScope _)
    exact (ih hT.right (hheader.addScope _)).push
      (.function (titles.mono hT.left) (whole.mono hT.left))

end Made

/-! ### What the parser builds -/

section Bodies

variable {T : Token → Prop} {stop : Span} {n : Nat}

/-- **A statement or an error is read** from fewer than `n` tokens. -/
def ReadsStatements (T : Token → Prop) (stop : Span) (n : Nat) : Prop :=
  ∀ d scope around tokens, tokens.length < n → All T tokens →
    Outcome (Blamed T stop)
      (fun r => Takes tokens (fun used d' => ∃ s, Builds d scope around [s] used d') r.1 r.2.1)
      (statement stop d scope around tokens)

theorem statements_outcome (ih : ReadsStatements T stop n) :
    ∀ (m : Nat) d scope around braced tokens, tokens.length ≤ m → m < n → All T tokens →
      Outcome (Blamed T stop)
        (fun r => Takes tokens (fun used d' => ∃ l, Builds d scope around l used d') r.1 r.2.1)
        (statements stop d scope around braced tokens) := by
  intro m
  induction m using Nat.strong_induction_on with
  | _ m ihm =>
    intro d scope around braced tokens hm hlt hT
    unfold statements
    split
    · split
      · exact blamed_endOfCode _
      · exact ⟨[], rfl, [], .nil d scope around []⟩
    · rename_i t tokens
      split
      · split
        · exact ⟨[t], rfl, [], .nil d scope around [t]⟩
        · exact blamed (.token hT.head) (by decide)
      · refine (ih d scope around _ (by omega) hT).bind ?_
        rintro ⟨d₁, rest₁, hrest₁⟩ hfirst
        have hT₁ : All T rest₁ := hfirst.all hT
        obtain ⟨used₁, htokens₁, s, hs⟩ := hfirst
        have hless : rest₁.length < m := by
          simp only [List.length_cons] at hm hrest₁
          omega
        refine (ihm rest₁.length hless d₁ scope around braced rest₁ (Nat.le_refl _) (by omega)
          hT₁).bind ?_
        rintro ⟨d₂, rest₂, hrest₂⟩ ⟨used₂, htokens₂, l, hl⟩
        refine ⟨used₁ ++ used₂, ?_, s :: l, .cons hs hl⟩
        simp [htokens₁, htokens₂]

/-- Statements in a new scope. -/
def BuildsBody (d : Draft) (scope : ScopeId) (around : Surroundings) (inner : ScopeId)
    (used : List Token) (d' : Draft) : Prop :=
  ∃ d₁ l, d.openScope scope = (d₁, inner) ∧ Builds d₁ inner around l used d'

theorem body_outcome (ih : ReadsStatements T stop n) {d : Draft} {scope : ScopeId}
    {around : Surroundings} {tokens : List Token} (hlt : tokens.length < n) (hT : All T tokens) :
    Outcome (Blamed T stop)
      (fun r => Takes tokens (BuildsBody d scope around r.2.1) r.1 r.2.2.1)
      (body stop d scope around tokens) := by
  unfold body
  split
  · exact blamed_endOfCode _
  · rename_i t tokens
    rw [openScope_eq]
    dsimp only
    split
    · have hless : tokens.length < n := Nat.lt_of_succ_lt hlt
      refine (statements_outcome ih _ _ _ _ _ _ (Nat.le_refl _) hless hT.tail).bind ?_
      rintro ⟨d₁, rest₁, hrest₁⟩ ⟨used₁, htokens₁, l, hl⟩
      exact ⟨t :: used₁, congrArg (t :: ·) htokens₁, _, l, rfl, hl.behind [t]⟩
    · refine (ih _ _ _ _ hlt hT).bind ?_
      rintro ⟨d₁, rest₁, hrest₁⟩ ⟨used₁, htokens₁, s, hs⟩
      exact ⟨used₁, htokens₁, _, [s], rfl, hs⟩

theorem otherwise_outcome (ih : ReadsStatements T stop n) {d : Draft} {scope : ScopeId}
    {around : Surroundings} {tokens : List Token} (hlt : tokens.length < n) (hT : All T tokens) :
    Outcome (Blamed T stop)
      (fun r => Takes tokens (fun used d' => (r.2.1 = none ∧ used = [] ∧ d' = d) ∨
        ∃ inner, r.2.1 = some inner ∧ BuildsBody d scope around inner used d') r.1 r.2.2.1)
      (otherwise stop d scope around tokens) := by
  unfold otherwise
  split
  · exact ⟨[], rfl, .inl ⟨rfl, rfl, rfl⟩⟩
  · rename_i t tokens
    split
    · refine (body_outcome ih (Nat.lt_of_succ_lt hlt) hT.tail).bind ?_
      rintro ⟨d₁, inner, rest₁, hrest₁⟩ ⟨used₁, htokens₁, d₂, l, hopened, hl⟩
      refine ⟨t :: used₁, congrArg (t :: ·) htokens₁, .inr ⟨inner, rfl, d₂, l, hopened, ?_⟩⟩
      exact hl.behind [t]
    · exact ⟨[], rfl, .inl ⟨rfl, rfl, rfl⟩⟩

theorem parameterType_outcome {keyword : Token} (hkeyword : T keyword) :
    Outcome (Blamed T stop) IsScalar (parameterType keyword) := by
  unfold parameterType
  split
  · exact .inl rfl
  · exact .inr (.inl rfl)
  · exact .inr (.inr rfl)
  · exact blamed (.token hkeyword) (by decide)

theorem parametersFrom_outcome {scope : ScopeId} :
    ∀ (m : Nat) (tree : Tree) (tokens : List Token), tokens.length ≤ m → All T tokens →
      Outcome (Blamed T stop)
        (fun r => Takes tokens
          (fun used tree' => ∃ ps, BuildsParameters (· ∈ used) scope tree ps tree') r.1 r.2.1)
        (parametersFrom stop tree scope tokens) := by
  intro m
  induction m using Nat.strong_induction_on with
  | _ m ih =>
    intro tree tokens hm hT
    unfold parametersFrom
    refine (next_outcome hT _).bind ?_
    rintro ⟨keyword, rest₁, hrest₁⟩ hkeyword
    have hT₁ : All T rest₁ := hkeyword.all hT
    refine (parameterType_outcome (hkeyword.head hT)).bind fun type htype => ?_
    refine (expect_outcome hT₁ _ (by decide) _).bind ?_
    rintro ⟨name, rest₂, hrest₂⟩ ⟨hname, hkind⟩
    have hT₂ : All T rest₂ := hname.all hT₁
    refine (checkFresh_outcome (hname.head hT₁)).bind fun _ hfresh => ?_
    refine (next_outcome hT₂ _).bind ?_
    rintro ⟨separator, rest₃, hrest₃⟩ hseparator
    have hT₃ : All T rest₃ := hseparator.all hT₂
    have hplace : T separator := hseparator.head hT₂
    obtain ⟨used₁, htokens₁, -⟩ := hkeyword
    obtain ⟨used₂, htokens₂, hname⟩ := hname
    obtain ⟨used₃, htokens₃, -⟩ := hseparator
    dsimp only at htokens₁ htokens₂ htokens₃ hname ⊢
    have hdeclares : ∀ used : List Token, name ∈ used →
        Declares (· ∈ used) tree scope ⟨name.raw, type, some scope, name.span⟩ := fun used hused =>
      ⟨⟨name, hused, hkind, rfl, rfl⟩, hfresh, rfl⟩
    split
    · refine (ih rest₃.length (by omega) _ rest₃ (Nat.le_refl _) hT₃).bind ?_
      rintro ⟨tree', rest₄, hrest₄⟩ ⟨used₄, htokens₄, ps, hps⟩
      refine ⟨used₁ ++ used₂ ++ used₃ ++ used₄, ?_, _ :: ps, .cons (hdeclares _ ?_) htype ?_⟩
      · simp [htokens₁, htokens₂, htokens₃, htokens₄]
      · simp [hname]
      · exact hps.mono fun u hu => by simp [hu]
    · refine ⟨used₁ ++ used₂ ++ used₃, ?_, [_], .cons (hdeclares _ ?_) htype (.nil _)⟩
      · simp [htokens₁, htokens₂, htokens₃]
      · simp [hname]
    · exact blamed (.token hplace) (by decide)

theorem parameters_outcome {scope : ScopeId} {tree : Tree} {tokens : List Token}
    (hT : All T tokens) :
    Outcome (Blamed T stop)
      (fun r => Takes tokens
        (fun used tree' => ∃ ps, BuildsParameters (· ∈ used) scope tree ps tree') r.1 r.2.1)
      (parameters stop tree scope tokens) := by
  unfold parameters
  split
  · exact parametersFrom_outcome _ _ _ (Nat.le_refl _) hT
  · rename_i t tokens
    split
    · exact ⟨[t], rfl, [], .nil tree⟩
    · exact parametersFrom_outcome _ _ _ (Nat.le_refl _) hT

theorem returnType_outcome {tokens : List Token} (hT : All T tokens) :
    Outcome (Blamed T stop) (fun r => Takes tokens (fun _ type => IsScalar type) r.1 r.2.1)
      (returnType stop tokens) := by
  unfold returnType
  split
  · exact ⟨[], rfl, .inl rfl⟩
  · rename_i t tokens
    split
    · refine (next_outcome hT.tail _).bind ?_
      rintro ⟨type, rest₁⟩ htype
      have hplace : T type := htype.head hT.tail
      obtain ⟨used₁, htokens₁, -⟩ := htype
      dsimp only
      split
      · exact ⟨t :: used₁, congrArg (t :: ·) htokens₁, .inr (.inl rfl)⟩
      · exact ⟨t :: used₁, congrArg (t :: ·) htokens₁, .inr (.inr rfl)⟩
      · exact blamed (.token hplace) (by decide)
    · exact ⟨[], rfl, .inl rfl⟩

theorem checkFreshFunction_outcome {t : Tree} {scope : ScopeId} {name : Token} (hname : T name) :
    Outcome (Blamed T stop) (fun _ => t.FreshFunction scope name.raw)
      (checkFreshFunction t scope name) := by
  unfold checkFreshFunction
  split
  · exact blamed (.token hname) (by decide)
  · rename_i hfresh
    exact Bool.eq_false_iff.mpr hfresh

theorem function_outcome (around : Surroundings) (ih : ReadsStatements T stop n) {d : Draft}
    {scope : ScopeId} {keyword : Token} {tokens : List Token} (hlt : tokens.length < n)
    (hT : All T tokens) :
    Outcome (Blamed T stop)
      (fun r => Takes tokens (fun used d' =>
        Builds d scope around [r.2.1] (keyword :: used) (d'.push scope r.2.1)) r.1 r.2.2.1)
      (function stop d scope keyword tokens) := by
  unfold function
  refine (expect_outcome hT _ (by decide) _).bind ?_
  rintro ⟨name, rest₁, hrest₁⟩ ⟨hname, hkind⟩
  have hT₁ : All T rest₁ := hname.all hT
  have hplace : T name := hname.head hT
  refine (checkFreshFunction_outcome hplace).bind fun _ hfresh => ?_
  refine (expect_outcome hT₁ _ (by decide) _).bind ?_
  rintro ⟨paren, rest₂, hrest₂⟩ ⟨hparen, -⟩
  have hT₂ : All T rest₂ := hparen.all hT₁
  refine (parameters_outcome hT₂).bind ?_
  rintro ⟨tree₁, rest₃, hrest₃⟩ hparameters
  have hT₃ : All T rest₃ := hparameters.all hT₂
  refine (returnType_outcome hT₃).bind ?_
  rintro ⟨returns, rest₄, hrest₄⟩ hreturns
  have hT₄ : All T rest₄ := hreturns.all hT₃
  refine (expect_outcome hT₄ _ (by decide) _).bind ?_
  rintro ⟨brace, rest₅, hrest₅⟩ ⟨hbrace, -⟩
  have hT₅ : All T rest₅ := hbrace.all hT₄
  refine (statements_outcome ih rest₅.length _ _ _ _ rest₅ (Nat.le_refl _) (by omega) hT₅).bind ?_
  rintro ⟨inside, rest₆, hrest₆⟩ ⟨used₆, htokens₆, l, hl⟩
  obtain ⟨used₁, htokens₁, hname⟩ := hname
  obtain ⟨used₂, htokens₂, -⟩ := hparen
  obtain ⟨used₃, htokens₃, ps, hps⟩ := hparameters
  obtain ⟨used₄, htokens₄, hscalar⟩ := hreturns
  obtain ⟨used₅, htokens₅, -⟩ := hbrace
  dsimp only
  split
  · exact blamed (.token hplace) (by decide)
  · rename_i hreturned
    refine ⟨used₁ ++ used₂ ++ used₃ ++ used₄ ++ used₅ ++ used₆, ?_, ?_⟩
    · simp [htokens₁, htokens₂, htokens₃, htokens₄, htokens₅, htokens₆]
    · have htitles : Titles (· ∈ keyword :: (used₁ ++ used₂ ++ used₃ ++ used₄ ++ used₅))
          d.tree scope ⟨name.raw, returns, some scope, name.span⟩ :=
        ⟨⟨name, by simp [hname], hkind, rfl, rfl⟩, hfresh, rfl, hscalar⟩
      refine .function htitles ?_ rfl (hps.mono ?_) rfl hl ?_
      · exact (Spanned.token List.mem_cons_self).upTo (.token (by simp [hname]))
      · exact fun u hu => by simp [hu]
      · intro hgives hnone
        simp_all

/-- A statement is read from `n` tokens, once one can be read from fewer. -/
theorem statement_outcome_of (ih : ReadsStatements T stop n) {d : Draft} {scope : ScopeId}
    {around : Surroundings} {tokens : List Token} (hle : tokens.length ≤ n) (hT : All T tokens) :
    Outcome (Blamed T stop)
      (fun r => Takes tokens (fun used d' => ∃ s, Builds d scope around [s] used d') r.1 r.2.1)
      (statement stop d scope around tokens) := by
  unfold statement
  split
  · exact blamed_endOfCode _
  · rename_i t tokens
    have hlt : tokens.length < n := hle
    split
    -- a declaration, by each of its three keywords
    iterate 3
      refine (declaration_outcome around t hT.tail).bind ?_
      rintro ⟨s, rest₁, hrest₁⟩ ⟨used₁, htokens₁, hs⟩
      exact ⟨t :: used₁, congrArg (t :: ·) htokens₁, s, .plain hs⟩
    · rename_i hkind
      refine (assignment_outcome around hT.head hkind hT.tail).bind ?_
      rintro ⟨s, rest₁, hrest₁⟩ ⟨used₁, htokens₁, hs⟩
      exact ⟨t :: used₁, congrArg (t :: ·) htokens₁, s, .plain hs⟩
    · refine (condition_outcome (by decide) hT.tail).bind ?_
      rintro ⟨value, rest₁, hrest₁⟩ hvalue
      have hT₁ : All T rest₁ := hvalue.all hT.tail
      refine (body_outcome ih (Nat.lt_trans hrest₁ hlt) hT₁).bind ?_
      rintro ⟨d₁, inner, rest₂, hrest₂⟩ hbody
      have hT₂ : All T rest₂ := hbody.all hT₁
      refine (otherwise_outcome ih (by omega) hT₂).bind ?_
      rintro ⟨d₂, other, rest₃, hrest₃⟩ ⟨used₃, htokens₃, hother⟩
      obtain ⟨used₁, htokens₁, hvalue⟩ := hvalue
      obtain ⟨used₂, htokens₂, d₃, l, hopened, hl⟩ := hbody
      have hcondition : IsCondition (· ∈ t :: used₁) d.tree scope value :=
        hvalue.mono fun u hu => List.mem_cons_of_mem _ hu
      have hwhole : Spanned (· ∈ t :: used₁) (t.span.upTo value.span) :=
        (Spanned.token List.mem_cons_self).upTo hcondition.value.spanned
      refine ⟨(t :: used₁) ++ (used₂ ++ used₃), by simp [htokens₁, htokens₂, htokens₃],
        .branch value inner other (t.span.upTo value.span), ?_⟩
      obtain ⟨rfl, rfl, rfl⟩ | ⟨other', rfl, d₄, l', hopened', hl'⟩ := hother
      · rw [List.append_nil]
        exact .branch hcondition hwhole hopened hl
      · exact .branchElse hcondition hwhole hopened hl hopened' hl'
    · refine (condition_outcome (by decide) hT.tail).bind ?_
      rintro ⟨value, rest₁, hrest₁⟩ hvalue
      have hT₁ : All T rest₁ := hvalue.all hT.tail
      refine (body_outcome ih (Nat.lt_trans hrest₁ hlt) hT₁).bind ?_
      rintro ⟨d₁, inner, rest₂, hrest₂⟩ ⟨used₂, htokens₂, d₃, l, hopened, hl⟩
      obtain ⟨used₁, htokens₁, hvalue⟩ := hvalue
      have hcondition : IsCondition (· ∈ t :: used₁) d.tree scope value :=
        hvalue.mono fun u hu => List.mem_cons_of_mem _ hu
      refine ⟨(t :: used₁) ++ used₂, ?_, _, .loop hcondition ?_ hopened hl⟩
      · simp [htokens₁, htokens₂]
      · exact (Spanned.token List.mem_cons_self).upTo hcondition.value.spanned
    · split
      · rename_i hloop
        refine (keywordStatement_outcome hT.tail).bind ?_
        rintro ⟨s, rest₁, hrest₁⟩ ⟨used₁, htokens₁, rfl⟩
        refine ⟨t :: used₁, congrArg (t :: ·) htokens₁, _, .plain (.leave hloop ?_)⟩
        exact .token List.mem_cons_self
      · exact blamed (.token hT.head) (by decide)
    · split
      · rename_i hloop
        refine (keywordStatement_outcome hT.tail).bind ?_
        rintro ⟨s, rest₁, hrest₁⟩ ⟨used₁, htokens₁, rfl⟩
        refine ⟨t :: used₁, congrArg (t :: ·) htokens₁, _, .plain (.again hloop ?_)⟩
        exact .token List.mem_cons_self
      · exact blamed (.token hT.head) (by decide)
    · refine (function_outcome around ih hlt hT.tail).bind ?_
      rintro ⟨d₁, s, rest₁, hrest₁⟩ ⟨used₁, htokens₁, hs⟩
      exact ⟨t :: used₁, congrArg (t :: ·) htokens₁, s, hs⟩
    · split
      · rename_i hfunction
        refine (returned_outcome t hT.tail).bind ?_
        rintro ⟨s, rest₁, hrest₁⟩ ⟨used₁, htokens₁, hs⟩
        exact ⟨t :: used₁, congrArg (t :: ·) htokens₁, s, .give hfunction hs⟩
      · exact blamed (.token hT.head) (by decide)
    · rw [openScope_eq]
      refine (statements_outcome ih _ _ _ _ _ _ (Nat.le_refl _) hlt hT.tail).bind ?_
      rintro ⟨d₁, rest₁, hrest₁⟩ ⟨used₁, htokens₁, l, hl⟩
      exact ⟨t :: used₁, congrArg (t :: ·) htokens₁, _, .block rfl (hl.behind [t])⟩
    · exact blamed (.token hT.head) (by decide)

theorem statement_outcome (stop : Span) : ∀ n, ReadsStatements T stop n := by
  intro n
  induction n with
  | zero => exact fun _ _ _ _ h => absurd h (Nat.not_lt_zero _)
  | succ n ih =>
    exact fun d scope around tokens hlt hT =>
      statement_outcome_of ih (Nat.le_of_lt_succ hlt) hT

/-- **A tree is built from the tokens, or an error is about them.** -/
theorem parse_outcome (tokens : List Token) :
    Outcome (Blamed (· ∈ tokens) (endOfTokens tokens))
      (fun t => ∃ l used d, used <+: tokens ∧ Builds {} rootScope {} l used d ∧ d.tree = t)
      (parse tokens) := by
  have hstatements := statements_outcome
    (statement_outcome (endOfTokens tokens) (tokens.length + 1)) _ {} rootScope {} false tokens
    (Nat.le_refl _) (Nat.lt_succ_self _) fun _ ht => ht
  refine hstatements.map ?_
  rintro ⟨d, rest⟩ ⟨used, htokens, l, hl⟩
  exact ⟨l, used, d, ⟨rest.1, htokens.symm⟩, hl, rfl⟩

/-- **Every statement of a tree that is read** is made of the tokens. -/
theorem parse_made {tokens : List Token} {t : Tree} (h : parse tokens = .ok t) {id : StatementId}
    {s : Statement} (hs : t.statement? id = some s) : ∃ t₀, Made (· ∈ tokens) t₀ id.scope s := by
  obtain ⟨l, used, d, hused, hbuilds, rfl⟩ := (parse_outcome tokens).ok h
  have hmade : NewMade {} (· ∈ tokens) d.tree :=
    hbuilds.made (fun t ht => hused.subset ht) (NewMade.refl {})
  refine (hmade id s hs).resolve_left fun hnone => ?_
  rw [Drafted.statement?_empty] at hnone
  cases hnone

end Bodies

end Parser

end RegisterMachine.Structured
