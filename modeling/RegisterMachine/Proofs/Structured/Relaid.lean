import RegisterMachine.Proofs.Structured.Binding
import RegisterMachine.Proofs.Structured.Redrawing

/-! # Places do not matter to the parser

The parser goes by the kinds of the tokens and takes names and numbers from them. Their places it
only hands on. So from tokens that differ in nothing but their places it builds trees that differ in
nothing else, or refuses both with the same words.

* `Token.Same`: tokens that are the same but for their places.
* `expression_alike`: expressions.
* `declaration_alike`, `assignment_alike`, `returned_alike`: statements without bodies.
* `statement_alike`: all statements, given fuel.
* `parse_alike`: whole trees. -/

namespace RegisterMachine.Structured

open RegisterMachine.Success

/-! ### What is the same but for places -/

/-- **The tokens are the same** but for their places. -/
structure Token.Same (t t' : Token) : Prop where
  kind : t.kind = t'.kind
  value : t.value = t'.value
  raw : t.raw = t'.raw

/-- Rows of tokens that are the same. -/
abbrev SameTokens : List Token → List Token → Prop := List.Forall₂ Token.Same

/-- The names have the same type and the same binding. -/
def Identifier.Same (i i' : Identifier) : Prop := i.withType i.type = i'.withType i'.type

abbrev Expression.Same (e e' : Expression) : Prop := e.view .unplaced = e'.view .unplaced

section Single

variable {stop stop' : Span} {site site' : Site} {t t' : Token} {tokens tokens' : List Token}

theorem Identifier.Same.name {i i' : Identifier} (h : i.Same i') : i.name = i'.name :=
  (Identifier.mk.inj (show i.withType i.type = i'.withType i'.type from h)).1

theorem Identifier.Same.type {i i' : Identifier} (h : i.Same i') : i.type = i'.type :=
  (Identifier.mk.inj (show i.withType i.type = i'.withType i'.type from h)).2.1

/-- An answer, and what is left. -/
abbrev SameStep {α β : Type} (R : α → β → Prop) {tokens tokens' : List Token}
    (r : α × Shorter tokens) (r' : β × Shorter tokens') : Prop :=
  R r.1 r'.1 ∧ SameTokens r.2.1 r'.2.1

theorem endOfCode_same (expected : String) :
    (endOfCode stop expected).Same (endOfCode stop' expected) := ⟨rfl, rfl⟩

theorem next_alike (h : SameTokens tokens tokens') (expected : String) :
    Alike Error.Same (SameStep Token.Same) (next stop expected tokens)
      (next stop' expected tokens') := by
  cases h with
  | nil => exact endOfCode_same expected
  | cons ht hrest => exact ⟨ht, hrest⟩

theorem expect_alike (h : SameTokens tokens tokens') (kind : TokenKind) (code : ErrorCode)
    (expected : String) : Alike Error.Same (SameStep Token.Same)
      (expect stop kind code expected tokens) (expect stop' kind code expected tokens') := by
  cases h with
  | nil => exact endOfCode_same expected
  | cons ht hrest =>
    rw [expect, expect, ht.kind, ht.raw]
    split
    · exact ⟨ht, hrest⟩
    · exact ⟨rfl, rfl⟩

theorem use_alike (hat : site.At site'.tree site'.scope) (ht : t.Same t') :
    Alike Error.Same Identifier.Same (site.use t) (site'.use t') := by
  have hview : (site.tree.view .unplaced).declaration? site'.scope t'.raw =
      (site'.tree.view .unplaced).declaration? site'.scope t'.raw := by rw [hat.tree]
  rw [Tree.declaration?_view, Tree.declaration?_view] at hview
  rw [Site.use, Site.use, hat.scope, ht.raw]
  cases hfound : site.tree.declaration? site'.scope t'.raw with
  | none =>
    rw [hfound, Option.map_none, eq_comm, Option.map_eq_none_iff] at hview
    rw [hview]
    exact ⟨rfl, rfl⟩
  | some found =>
    rw [hfound, Option.map_some, eq_comm, Option.map_eq_some_iff] at hview
    obtain ⟨found', hfound', heq⟩ := hview
    obtain ⟨hbinding, hdeclaration⟩ := Prod.mk.inj heq
    have htype := Identifier.Same.type hdeclaration
    rw [hfound']
    show Identifier.Same _ _
    rw [Identifier.Same, htype, hbinding]
    rfl

theorem namesArray_of_same {i i' : Identifier} (h : i.Same i') :
    Site.namesArray i = Site.namesArray i' := by
  rw [Site.namesArray, Site.namesArray, h.type]

theorem scalar_alike (hat : site.At site'.tree site'.scope) (ht : t.Same t') :
    Alike Error.Same Identifier.Same (site.scalar t) (site'.scalar t') := by
  unfold Site.scalar
  obtain ⟨e, e', he, he', hsame⟩ | ⟨i, i', hi, hi', hsame⟩ := (use_alike hat ht).cases
  · rw [he, he']
    exact hsame
  · rw [hi, hi']
    dsimp only
    rw [namesArray_of_same hsame, hsame.name]
    split
    · exact ⟨rfl, rfl⟩
    · exact hsame

theorem array_alike (hat : site.At site'.tree site'.scope) (ht : t.Same t') :
    Alike Error.Same Identifier.Same (site.array t) (site'.array t') := by
  unfold Site.array
  obtain ⟨e, e', he, he', hsame⟩ | ⟨i, i', hi, hi', hsame⟩ := (use_alike hat ht).cases
  · rw [he, he']
    exact hsame
  · rw [hi, hi']
    dsimp only
    rw [namesArray_of_same hsame, hsame.name]
    split
    · exact hsame
    · exact ⟨rfl, rfl⟩

theorem checkFresh_alike {tree tree' : Tree} (h : tree.Same tree') (scope : ScopeId)
    (ht : t.Same t') : Alike Error.Same (fun _ _ => True) (checkFresh tree scope t)
      (checkFresh tree' scope t') := by
  by_cases hfresh : tree'.Fresh scope t'.raw
  · rw [checkFresh_run (ht.raw ▸ h.fresh hfresh), checkFresh_run hfresh]
    trivial
  · have hstale : ¬ tree.Fresh scope t.raw := fun h' => hfresh (ht.raw ▸ Tree.Same.fresh h.symm h')
    rw [checkFresh, checkFresh, if_pos ((Bool.not_eq_false _).mp hstale),
      if_pos ((Bool.not_eq_false _).mp hfresh), ht.raw]
    exact ⟨rfl, rfl⟩

end Single

namespace Parser

/-! ### Expressions -/

section Expressions

theorem name_same {i i' : Identifier} (hi : i.Same i') :
    (Expression.name i).Same (.name i') :=
  congrArg Expression.name (show i.withType i.type = i'.withType i'.type from hi)

theorem binary_same (op : Operator) {left left' right right' : Expression} {span span' : Span}
    (hleft : left.Same left') (hright : right.Same right') :
    (Expression.binary op left right span).Same (.binary op left' right' span') := by
  rw [Expression.Same, Expression.view, Expression.view, hleft, hright]

theorem element_same {i i' : Identifier} {index index' : Expression} {span span' : Span}
    (hi : i.Same i') (hindex : index.Same index') :
    (Expression.element i index span).Same (.element i' index' span') := by
  have hname : i.withType (View.unplaced.used i) = i'.withType (View.unplaced.used i') := hi
  rw [Expression.Same, Expression.view, Expression.view, hname, hindex]

/-- Rows of expressions that are the same. -/
abbrev SameExpressions : List Expression → List Expression → Prop := List.Forall₂ Expression.Same

theorem call_same {name name' : Token} (hname : name.Same name') {es es' : List Expression}
    (hes : SameExpressions es es') {span span' : Span} :
    (Expression.call { name := name.raw, span := name.span } es none span).Same
      (.call { name := name'.raw, span := name'.span } es' none span') := by
  have hall : Expression.viewAll .unplaced es = Expression.viewAll .unplaced es' := by
    induction hes with
    | nil => rfl
    | cons he _ ih => rw [Expression.viewAll, Expression.viewAll, he, ih]
  rw [Expression.Same, Expression.view, Expression.view, hall, hname.raw]
  rfl

variable {site site' : Site} {n : Nat} {tokens tokens' : List Token}

/-- **An expression is read alike.** -/
def ReadsAlike (tokens tokens' : List Token) (result : Except Error (Expression × Shorter tokens))
    (result' : Except Error (Expression × Shorter tokens')) : Prop :=
  Alike Error.Same (SameStep Expression.Same) result result'

/-- Expressions of every class are read alike from fewer than `n` tokens. -/
def LevelsAlike (site site' : Site) (n : Nat) : Prop :=
  ∀ tier tokens tokens', tokens.length < n → SameTokens tokens tokens' →
    ReadsAlike tokens tokens' (level site tier tokens) (level site' tier tokens')

theorem operations_alike (ih : LevelsAlike site site' n) (tier : Precedence) :
    ∀ (m : Nat) (left left' : Expression) (tokens tokens' : List Token), tokens.length ≤ m → m ≤ n →
      SameTokens tokens tokens' → left.Same left' →
      Alike Error.Same (fun r r' => r.1.Same r'.1 ∧ SameTokens r.2.1 r'.2.1)
        (operations site tier left tokens) (operations site' tier left' tokens') := by
  intro m
  induction m using Nat.strong_induction_on with
  | _ m ihm =>
    intro left left' tokens tokens' hm hle h hleft
    cases h with
    | nil =>
      unfold operations
      exact ⟨hleft, .nil⟩
    | @cons t t' rest rest' ht hrest =>
      have hnone : SameTokens (t :: rest) (t' :: rest') := .cons ht hrest
      obtain ⟨kind, value, span, raw⟩ := t
      obtain ⟨kind', value', span', raw'⟩ := t'
      obtain ⟨rfl, rfl, rfl⟩ := ht
      have hlt : rest.length < m := hm
      unfold operations
      cases kind with
      | binary op =>
        dsimp only
        split
        · refine (ih _ _ _ (by omega) hrest).bind ?_
          rintro ⟨right, rest₁, hrest₁⟩ ⟨right', rest₁', hrest₁'⟩ ⟨hright, hsame₁⟩
          have hbinary : (Expression.binary op left right (left.span.upTo right.span)).Same
              (.binary op left' right' (left'.span.upTo right'.span)) :=
            binary_same op hleft hright
          have hlater := ihm rest₁.length (by omega) _ _ rest₁ rest₁' (Nat.le_refl _) (by omega)
            hsame₁ hbinary
          exact hlater.bind fun r r' hr => hr
        · exact ⟨hleft, hnone⟩
      | _ => exact ⟨hleft, hnone⟩

theorem argumentsFrom_alike (ih : LevelsAlike site site' n) :
    ∀ (m : Nat) (tokens tokens' : List Token), tokens.length ≤ m → m < n →
      SameTokens tokens tokens' →
      Alike Error.Same (fun r r' => SameExpressions r.1 r'.1 ∧ SameTokens r.2.2.1 r'.2.2.1)
        (argumentsFrom site tokens) (argumentsFrom site' tokens') := by
  intro m
  induction m using Nat.strong_induction_on with
  | _ m ihm =>
    intro tokens tokens' hm hlt h
    unfold argumentsFrom
    refine (ih _ _ _ (by omega) h).bind ?_
    rintro ⟨first, rest₁, hrest₁⟩ ⟨first', rest₁', hrest₁'⟩ ⟨hfirst, hsame₁⟩
    refine (next_alike hsame₁ _).bind ?_
    rintro ⟨separator, rest₂, hrest₂⟩ ⟨separator', rest₂', hrest₂'⟩ ⟨hseparator, hsame₂⟩
    dsimp only at hfirst hrest₂ hseparator hsame₂ ⊢
    rw [hseparator.kind, hseparator.raw]
    split
    · refine (ihm rest₂.length (by omega) _ _ (Nat.le_refl _) (by omega) hsame₂).bind ?_
      rintro ⟨others, close, rest₃, hrest₃⟩ ⟨others', close', rest₃', hrest₃'⟩ ⟨hothers, hsame₃⟩
      exact ⟨.cons hfirst hothers, hsame₃⟩
    · exact ⟨.cons hfirst .nil, hsame₂⟩
    · exact ⟨rfl, rfl⟩

theorem arguments_alike (ih : LevelsAlike site site' n) (hlt : tokens.length < n)
    (h : SameTokens tokens tokens') :
    Alike Error.Same (fun r r' => SameExpressions r.1 r'.1 ∧ SameTokens r.2.2.1 r'.2.2.1)
      (arguments site tokens) (arguments site' tokens') := by
  have hfrom := argumentsFrom_alike ih _ _ _ (Nat.le_refl _) hlt h
  unfold arguments
  cases h with
  | nil => exact hfrom
  | cons ht hrest =>
    dsimp only
    rw [ht.kind]
    split
    · exact ⟨.nil, hrest⟩
    · exact hfrom

theorem call_alike (ih : LevelsAlike site site' n) {name name' : Token} (hname : name.Same name')
    (hle : tokens.length ≤ n) (h : SameTokens tokens tokens') :
    ReadsAlike tokens tokens' (call site name tokens) (call site' name' tokens') := by
  unfold call
  refine (expect_alike h _ _ _).bind ?_
  rintro ⟨paren, rest₁, hrest₁⟩ ⟨paren', rest₁', hrest₁'⟩ ⟨-, hsame₁⟩
  refine (arguments_alike ih (show rest₁.length < n by omega) hsame₁).bind ?_
  rintro ⟨es, close, rest₂, hrest₂⟩ ⟨es', close', rest₂', hrest₂'⟩ ⟨hes, hsame₂⟩
  exact ⟨call_same hname hes, hsame₂⟩

/-- An element of an array is read alike. -/
def ElementsAlike (tokens tokens' : List Token)
    (result : Except Error (Identifier × Expression × Span × Shorter tokens))
    (result' : Except Error (Identifier × Expression × Span × Shorter tokens')) : Prop :=
  Alike Error.Same (fun r r' => r.1.Same r'.1 ∧ r.2.1.Same r'.2.1 ∧
    SameTokens r.2.2.2.1 r'.2.2.2.1) result result'

theorem element_alike (hat : site.At site'.tree site'.scope) (ih : LevelsAlike site site' n)
    {name name' : Token} (hname : name.Same name') (hle : tokens.length ≤ n)
    (h : SameTokens tokens tokens') :
    ElementsAlike tokens tokens' (element site name tokens) (element site' name' tokens') := by
  unfold element
  refine (array_alike hat hname).bind fun i i' hi => ?_
  refine (expect_alike h _ _ _).bind ?_
  rintro ⟨bracket, rest₁, hrest₁⟩ ⟨bracket', rest₁', hrest₁'⟩ ⟨-, hsame₁⟩
  refine (ih _ rest₁ _ (by omega) hsame₁).bind ?_
  rintro ⟨index, rest₂, hrest₂⟩ ⟨index', rest₂', hrest₂'⟩ ⟨hindex, hsame₂⟩
  refine (expect_alike hsame₂ _ _ _).bind ?_
  rintro ⟨close, rest₃, hrest₃⟩ ⟨close', rest₃', hrest₃'⟩ ⟨-, hsame₃⟩
  exact ⟨hi, hindex, hsame₃⟩

theorem head_kind (h : SameTokens tokens tokens') :
    tokens.head?.map Token.kind = tokens'.head?.map Token.kind := by
  cases h with
  | nil => rfl
  | cons ht _ => exact congrArg some ht.kind

theorem term_alike (hat : site.At site'.tree site'.scope) (ih : LevelsAlike site site' n)
    (hle : tokens.length ≤ n) (h : SameTokens tokens tokens') :
    ReadsAlike tokens tokens' (term site tokens) (term site' tokens') := by
  unfold term
  cases h with
  | nil => exact endOfCode_same _
  | @cons t t' rest rest' ht hrest =>
    have hlt : rest.length < n := hle
    dsimp only
    rw [ht.kind, ht.raw]
    split
    · refine ⟨?_, hrest⟩
      rw [Token.number?, Token.number?, ht.value]
      rfl
    · rw [head_kind hrest]
      split
      · refine (call_alike ih ht (Nat.le_of_lt hlt) hrest).bind ?_
        rintro ⟨result, rest₁, hrest₁⟩ ⟨result', rest₁', hrest₁'⟩ ⟨hresult, hsame₁⟩
        exact ⟨hresult, hsame₁⟩
      · refine (element_alike hat ih ht (Nat.le_of_lt hlt) hrest).bind ?_
        rintro ⟨i, index, span, rest₁⟩ ⟨i', index', span', rest₁'⟩ ⟨hi, hindex, hsame⟩
        exact ⟨element_same hi hindex, hsame⟩
      · refine (scalar_alike hat ht).bind fun i i' hi => ?_
        exact ⟨name_same hi, hrest⟩
    · refine (ih _ _ _ hlt hrest).bind ?_
      rintro ⟨inner, rest₁, hrest₁⟩ ⟨inner', rest₁', hrest₁'⟩ ⟨hinner, hsame₁⟩
      refine (expect_alike hsame₁ _ _ _).bind ?_
      rintro ⟨close, rest₂, hrest₂⟩ ⟨close', rest₂', hrest₂'⟩ ⟨-, hsame₂⟩
      exact ⟨hinner, hsame₂⟩
    · exact ⟨rfl, rfl⟩
    · exact ⟨rfl, rfl⟩

theorem level_alike_of (hat : site.At site'.tree site'.scope) (ih : LevelsAlike site site' n)
    (hle : tokens.length ≤ n) (h : SameTokens tokens tokens') :
    ∀ (rank : Nat) (tier : Precedence), tier.rank = rank →
      ReadsAlike tokens tokens' (level site tier tokens) (level site' tier tokens') := by
  intro rank
  induction rank using Nat.strong_induction_on with
  | _ rank ihr =>
    intro tier htier
    unfold level
    split
    · exact term_alike hat ih hle h
    · rename_i hterm
      have hrank := Precedence.rank_above hterm
      refine (ihr _ (htier ▸ hrank) tier.above rfl).bind ?_
      rintro ⟨left, rest₁, hrest₁⟩ ⟨left', rest₁', hrest₁'⟩ ⟨hleft, hsame₁⟩
      have hrest := operations_alike ih tier _ left left' rest₁ rest₁' (Nat.le_refl _) (by omega)
        hsame₁ hleft
      refine hrest.bind ?_
      rintro ⟨result, rest₂, hrest₂⟩ ⟨result', rest₂', hrest₂'⟩ ⟨hresult, hsame₂⟩
      exact ⟨hresult, hsame₂⟩

theorem level_alike (hat : site.At site'.tree site'.scope) : ∀ n, LevelsAlike site site' n := by
  intro n
  induction n with
  | zero => exact fun _ _ _ h => absurd h (Nat.not_lt_zero _)
  | succ n ih =>
    exact fun tier tokens tokens' hlt h =>
      level_alike_of hat ih (Nat.le_of_lt_succ hlt) h _ tier rfl

/-- **An expression is read alike.** -/
theorem expression_alike (hat : site.At site'.tree site'.scope) (h : SameTokens tokens tokens') :
    ReadsAlike tokens tokens' (expression site tokens) (expression site' tokens') :=
  level_alike hat (tokens.length + 1) .test _ _ (Nat.lt_succ_self _) h

end Expressions

/-! ### Statements without bodies -/

section Single

variable {site site' : Site} {stop stop' : Span} {tokens tokens' : List Token} {t t' : Token}

abbrev Statement.Same (s s' : Statement) : Prop := s.view .unplaced = s'.view .unplaced

/-- **A statement is read alike.** -/
def StatementAlike (tokens tokens' : List Token)
    (result : Except Error (Statement × Shorter tokens))
    (result' : Except Error (Statement × Shorter tokens')) : Prop :=
  Alike Error.Same (SameStep Statement.Same) result result'

theorem assign_same {i i' : Identifier} (hi : i.Same i') {e e' : Expression} (he : e.Same e')
    (initial : Bool) {span span' : Span} :
    Statement.Same (.assign (.name i) e initial span) (.assign (.name i') e' initial span') := by
  have hname : i.withType (View.unplaced.declared i) = i'.withType (View.unplaced.declared i') := hi
  have hused : i.withType (View.unplaced.used i) = i'.withType (View.unplaced.used i') := hi
  cases initial with
  | true => rw [Statement.Same, Statement.view, Statement.view, hname, he]
  | false =>
    rw [Statement.Same, Statement.view, Statement.view, Target.view, Target.view, hused, he]

theorem arraySize_alike (h : t.Same t') :
    Alike Error.Same (fun size size' => size = size') (arraySize t) (arraySize t') := by
  rw [arraySize, arraySize, Token.number?, Token.number?, h.value]
  split
  · split
    · exact ⟨rfl, rfl⟩
    · split
      · exact ⟨rfl, rfl⟩
      · rfl
  · exact ⟨rfl, rfl⟩

theorem initialization_alike {keyword keyword' : Token}
    (h : SameTokens tokens tokens') :
    Alike Error.Same (fun r r' => r.1 = r'.1 ∧ SameTokens r.2.2.1 r'.2.2.1)
      (initialization site keyword tokens) (initialization site' keyword' tokens') := by
  unfold initialization
  refine (next_alike h _).bind ?_
  rintro ⟨type, rest₁⟩ ⟨type', rest₁'⟩ ⟨htype, hsame₁⟩
  dsimp only at htype hsame₁ ⊢
  rw [htype.kind, htype.raw]
  split
  iterate 2
    refine (expect_alike hsame₁ _ _ _).bind ?_
    rintro ⟨bracket, rest₂⟩ ⟨bracket', rest₂'⟩ ⟨-, hsame₂⟩
    refine (next_alike hsame₂ _).bind ?_
    rintro ⟨size, rest₃⟩ ⟨size', rest₃'⟩ ⟨hsize, hsame₃⟩
    refine (arraySize_alike hsize).bind ?_
    rintro count _ rfl
    refine (expect_alike hsame₃ _ _ _).bind ?_
    rintro ⟨close, rest₄⟩ ⟨close', rest₄'⟩ ⟨-, hsame₄⟩
    exact ⟨rfl, hsame₄⟩
  · exact ⟨rfl, rfl⟩

theorem checkElement_alike (declared : Option ValueType) (type : ValueType) {span span' : Span} :
    Alike Error.Same (fun _ _ => True) (checkElement declared type span)
      (checkElement declared type span') := by
  unfold checkElement
  split
  · split
    · trivial
    · exact ⟨rfl, rfl⟩
  · trivial

theorem initialValue_alike (hat : site.At site'.tree site'.scope) (declared : Option ValueType)
    (h : SameTokens tokens tokens') :
    Alike Error.Same (fun r r' => r.1 = r'.1 ∧ r.2.1.Same r'.2.1 ∧ SameTokens r.2.2.1 r'.2.2.1)
      (initialValue site declared tokens) (initialValue site' declared tokens') := by
  unfold initialValue
  cases h with
  | nil => exact endOfCode_same _
  | cons ht hrest =>
    dsimp only
    rw [ht.kind]
    split
    · refine (initialization_alike hrest).bind ?_
      rintro ⟨type, span, rest₁⟩ ⟨type', span', rest₁'⟩ ⟨htype, hsame₁⟩
      dsimp only at htype
      subst htype
      refine (checkElement_alike declared type).bind fun _ _ _ => ?_
      exact ⟨rfl, rfl, hsame₁⟩
    · refine (expression_alike hat (.cons ht hrest)).bind ?_
      rintro ⟨value, rest₁⟩ ⟨value', rest₁'⟩ ⟨hvalue, hsame₁⟩
      exact ⟨rfl, hvalue, hsame₁⟩

theorem expectSemicolon_alike (h : SameTokens tokens tokens') :
    Alike Error.Same (SameStep Token.Same) (expectSemicolon stop tokens)
      (expectSemicolon stop' tokens') :=
  expect_alike h _ _ _

theorem declaration_alike (hat : site.At site'.tree site'.scope) {type type' : Token}
    (htype : type.Same type') (h : SameTokens tokens tokens') :
    StatementAlike tokens tokens' (declaration site type tokens)
      (declaration site' type' tokens') := by
  unfold declaration
  rw [htype.kind]
  refine (expect_alike h _ _ _).bind ?_
  rintro ⟨name, rest₁⟩ ⟨name', rest₁'⟩ ⟨hname, hsame₁⟩
  have hfresh := checkFresh_alike hat.tree site'.scope hname
  rw [← hat.scope] at hfresh ⊢
  refine hfresh.bind fun _ _ _ => ?_
  refine (expect_alike hsame₁ _ _ _).bind ?_
  rintro ⟨equals, rest₂⟩ ⟨equals', rest₂'⟩ ⟨-, hsame₂⟩
  refine (initialValue_alike hat _ hsame₂).bind ?_
  rintro ⟨valueType, value, rest₃⟩ ⟨valueType', value', rest₃'⟩ ⟨hvalueType, hvalue, hsame₃⟩
  refine (expectSemicolon_alike hsame₃).bind ?_
  rintro ⟨close, rest₄⟩ ⟨close', rest₄'⟩ ⟨-, hsame₄⟩
  refine ⟨assign_same ?_ hvalue true, hsame₄⟩
  dsimp only at hname hvalueType ⊢
  rw [Identifier.Same, hname.raw, hvalueType]
  rfl

theorem combined_same {i i' : Identifier} (hi : i.Same i') (op : Operator) {e e' : Expression}
    (he : e.Same e') {span span' : Span} :
    Statement.Same (combined i op e span) (combined i' op e' span') :=
  assign_same hi (binary_same op (name_same hi) he) false

/-- A scalar that is given the value behind an operator, in one of two forms. -/
theorem assigned_alike (make : Identifier → Expression → Span → Statement)
    (hat : site.At site'.tree site'.scope) {name name' : Token} (hname : name.Same name')
    (hmake : ∀ {i i' : Identifier} {e e' : Expression} {span span' : Span}, i.Same i' →
      e.Same e' → Statement.Same (make i e span) (make i' e' span')) {t t' : Token}
    (h : SameTokens tokens tokens') :
    StatementAlike (t :: tokens) (t' :: tokens')
      (do
        let target ← site.scalar name
        let (value, rest₁) ← expression site tokens
        let (close, rest₂) ← expectSemicolon site.stop rest₁
        return (make target value (name.span.upTo close.span), (rest₁.trans rest₂).behind t))
      (do
        let target ← site'.scalar name'
        let (value, rest₁) ← expression site' tokens'
        let (close, rest₂) ← expectSemicolon site'.stop rest₁
        return (make target value (name'.span.upTo close.span),
          (rest₁.trans rest₂).behind t')) := by
  refine (scalar_alike hat hname).bind fun target target' htarget => ?_
  refine (expression_alike hat h).bind ?_
  rintro ⟨value, rest₁⟩ ⟨value', rest₁'⟩ ⟨hvalue, hsame₁⟩
  refine (expectSemicolon_alike hsame₁).bind ?_
  rintro ⟨close, rest₂⟩ ⟨close', rest₂'⟩ ⟨-, hsame₂⟩
  exact ⟨hmake htarget hvalue, hsame₂⟩

theorem assignment_alike (hat : site.At site'.tree site'.scope) {name name' : Token}
    (hname : name.Same name') (h : SameTokens tokens tokens') :
    StatementAlike tokens tokens' (assignment site name tokens)
      (assignment site' name' tokens') := by
  unfold assignment
  cases h with
  | nil => exact endOfCode_same _
  | @cons t t' rest rest' ht hrest =>
    have hall : SameTokens (t :: rest) (t' :: rest') := .cons ht hrest
    have ih : LevelsAlike site site' (t :: rest).length := level_alike hat _
    dsimp only
    rw [ht.kind, ht.raw]
    split
    · refine (call_alike ih hname (Nat.le_refl _) hall).bind ?_
      rintro ⟨value, rest₁⟩ ⟨value', rest₁'⟩ ⟨hvalue, hsame₁⟩
      refine (expectSemicolon_alike hsame₁).bind ?_
      rintro ⟨close, rest₂⟩ ⟨close', rest₂'⟩ ⟨-, hsame₂⟩
      exact ⟨congrArg Statement.evaluate hvalue, hsame₂⟩
    · refine (element_alike hat ih hname (Nat.le_refl _) hall).bind ?_
      rintro ⟨i, index, place, rest₁⟩ ⟨i', index', place', rest₁'⟩ ⟨hi, hindex, hsame₁⟩
      refine (expect_alike hsame₁ _ _ _).bind ?_
      rintro ⟨equals, rest₂⟩ ⟨equals', rest₂'⟩ ⟨-, hsame₂⟩
      refine (expression_alike hat hsame₂).bind ?_
      rintro ⟨value, rest₃⟩ ⟨value', rest₃'⟩ ⟨hvalue, hsame₃⟩
      refine (expectSemicolon_alike hsame₃).bind ?_
      rintro ⟨close, rest₄⟩ ⟨close', rest₄'⟩ ⟨-, hsame₄⟩
      refine ⟨?_, hsame₄⟩
      have hused : i.withType (View.unplaced.used i) = i'.withType (View.unplaced.used i') := hi
      dsimp only at hindex hvalue ⊢
      rw [Statement.Same, Statement.view, Statement.view, Target.view, Target.view, hused, hindex,
        hvalue]
    · exact assigned_alike (fun i e span => .assign (.name i) e false span) hat hname
        (fun hi he => assign_same hi he false) hrest
    · exact assigned_alike (fun i e span => combined i _ e span) hat hname
        (fun hi he => combined_same hi _ he) hrest
    · refine (scalar_alike hat hname).bind fun target target' htarget => ?_
      refine (expectSemicolon_alike hrest).bind ?_
      rintro ⟨close, rest₁⟩ ⟨close', rest₁'⟩ ⟨-, hsame₁⟩
      have hone : (Expression.number 1 t.span).Same (.number 1 t'.span) := rfl
      exact ⟨combined_same htarget _ hone, hsame₁⟩
    · exact ⟨rfl, rfl⟩

theorem text_same {e e' : Expression} (h : e.Same e') : e.text = e'.text := by
  rw [← Expression.text_view (v := .unplaced) e, h, Expression.text_view]

theorem isComparison_same {e e' : Expression} (h : e.Same e') :
    isComparison e = isComparison e' := by
  rw [← isComparison_view (v := .unplaced) e, h, isComparison_view]

theorem condition_alike (hat : site.At site'.tree site'.scope) (missing : ErrorCode)
    (expected : String) (h : SameTokens tokens tokens') :
    ReadsAlike tokens tokens' (condition site missing expected tokens)
      (condition site' missing expected tokens') := by
  unfold condition
  refine (expect_alike h _ _ _).bind ?_
  rintro ⟨paren, rest₁⟩ ⟨paren', rest₁'⟩ ⟨-, hsame₁⟩
  refine (expression_alike hat hsame₁).bind ?_
  rintro ⟨value, rest₂⟩ ⟨value', rest₂'⟩ ⟨hvalue, hsame₂⟩
  refine (expect_alike hsame₂ _ _ _).bind ?_
  rintro ⟨close, rest₃⟩ ⟨close', rest₃'⟩ ⟨-, hsame₃⟩
  dsimp only at hvalue ⊢
  rw [isComparison_same hvalue, text_same hvalue]
  split
  · exact ⟨hvalue, hsame₃⟩
  · exact ⟨rfl, rfl⟩

theorem keywordStatement_alike {s s' : Statement} (hs : Statement.Same s s')
    (h : SameTokens tokens tokens') :
    StatementAlike tokens tokens' (keywordStatement stop s tokens)
      (keywordStatement stop' s' tokens') := by
  unfold keywordStatement
  refine (expectSemicolon_alike h).bind ?_
  rintro ⟨close, rest⟩ ⟨close', rest'⟩ ⟨-, hsame⟩
  exact ⟨hs, hsame⟩

theorem returned_alike (hat : site.At site'.tree site'.scope) {keyword keyword' : Token}
    (h : SameTokens tokens tokens') :
    StatementAlike tokens tokens' (returned site keyword tokens)
      (returned site' keyword' tokens') := by
  unfold returned
  refine (expression_alike hat h).bind ?_
  rintro ⟨value, rest₁⟩ ⟨value', rest₁'⟩ ⟨hvalue, hsame₁⟩
  refine (expectSemicolon_alike hsame₁).bind ?_
  rintro ⟨close, rest₂⟩ ⟨close', rest₂'⟩ ⟨-, hsame₂⟩
  refine ⟨?_, hsame₂⟩
  dsimp only at hvalue ⊢
  rw [Statement.Same, Statement.view, Statement.view, hvalue]

end Single

/-! ### Statements with bodies -/

section Bodies

variable {stop stop' : Span} {n : Nat} {d d' : Draft} {scope : ScopeId} {around : Surroundings}
  {tokens tokens' : List Token}

/-- **Statements are put into drafts alike.** -/
def DraftAlike (tokens tokens' : List Token) (result : Except Error (Draft × Shorter tokens))
    (result' : Except Error (Draft × Shorter tokens')) : Prop :=
  Alike Error.Same (SameStep Draft.Like) result result'

/-- A statement is put into a draft alike from fewer than `n` tokens. -/
def StatementsAlike (stop stop' : Span) (n : Nat) : Prop :=
  ∀ d d' scope around tokens tokens', tokens.length < n → d.Like d' → SameTokens tokens tokens' →
    DraftAlike tokens tokens' (statement stop d scope around tokens)
      (statement stop' d' scope around tokens')

theorem statements_alike (ih : StatementsAlike stop stop' n) :
    ∀ (m : Nat) d d' scope around braced tokens tokens', tokens.length ≤ m → m < n → d.Like d' →
      SameTokens tokens tokens' →
      Alike Error.Same (fun r r' => r.1.Like r'.1 ∧ SameTokens r.2.1 r'.2.1)
        (statements stop d scope around braced tokens)
        (statements stop' d' scope around braced tokens') := by
  intro m
  induction m using Nat.strong_induction_on with
  | _ m ihm =>
    intro d d' scope around braced tokens tokens' hm hlt hlike h
    unfold statements
    cases h with
    | nil =>
      dsimp only
      split
      · exact endOfCode_same _
      · exact ⟨hlike, .nil⟩
    | @cons t t' rest rest' ht hrest =>
      dsimp only
      rw [ht.kind]
      split
      · split
        · exact ⟨hlike, hrest⟩
        · exact ⟨rfl, rfl⟩
      · refine (ih d d' scope around _ _ (by omega) hlike (.cons ht hrest)).bind ?_
        rintro ⟨d₁, rest₁, hrest₁⟩ ⟨d₁', rest₁', hrest₁'⟩ ⟨hlike₁, hsame₁⟩
        have hless : rest₁.length < m := Nat.lt_of_lt_of_le hrest₁ hm
        refine (ihm rest₁.length hless d₁ d₁' scope around braced rest₁ _ (Nat.le_refl _) (by omega)
          hlike₁ hsame₁).bind ?_
        rintro ⟨d₂, rest₂, hrest₂⟩ ⟨d₂', rest₂', hrest₂'⟩ ⟨hlike₂, hsame₂⟩
        exact ⟨hlike₂, hsame₂⟩

theorem body_alike (ih : StatementsAlike stop stop' n) (hlt : tokens.length < n) (hlike : d.Like d')
    (h : SameTokens tokens tokens') :
    Alike Error.Same (fun r r' => r.1.Like r'.1 ∧ r.2.1 = r'.2.1 ∧ SameTokens r.2.2.1 r'.2.2.1)
      (body stop d scope around tokens) (body stop' d' scope around tokens') := by
  unfold body
  cases h with
  | nil => exact endOfCode_same _
  | @cons t t' rest rest' ht hrest =>
    dsimp only
    cases hopened' : d'.openScope scope with
    | mk d₁' inner =>
      obtain ⟨d₁, hopened, hlike₁⟩ := hlike.openScope hopened'
      rw [hopened, ht.kind]
      dsimp only
      split
      · have hless : rest.length < n := Nat.lt_of_succ_lt hlt
        refine (statements_alike ih _ _ _ _ _ _ _ _ (Nat.le_refl _) hless hlike₁ hrest).bind ?_
        rintro ⟨d₂, rest₁, hrest₁⟩ ⟨d₂', rest₁', hrest₁'⟩ ⟨hlike₂, hsame₁⟩
        exact ⟨hlike₂, rfl, hsame₁⟩
      · refine (ih _ _ _ _ _ _ hlt hlike₁ (.cons ht hrest)).bind ?_
        rintro ⟨d₂, rest₁, hrest₁⟩ ⟨d₂', rest₁', hrest₁'⟩ ⟨hlike₂, hsame₁⟩
        exact ⟨hlike₂, rfl, hsame₁⟩

theorem otherwise_alike (ih : StatementsAlike stop stop' n) (hlt : tokens.length < n)
    (hlike : d.Like d') (h : SameTokens tokens tokens') :
    Alike Error.Same (fun r r' => r.1.Like r'.1 ∧ r.2.1 = r'.2.1 ∧ SameTokens r.2.2.1 r'.2.2.1)
      (otherwise stop d scope around tokens) (otherwise stop' d' scope around tokens') := by
  unfold otherwise
  cases h with
  | nil => exact ⟨hlike, rfl, .nil⟩
  | @cons t t' rest rest' ht hrest =>
    dsimp only
    rw [ht.kind]
    split
    · refine (body_alike ih (Nat.lt_of_succ_lt hlt) hlike hrest).bind ?_
      rintro ⟨d₁, inner, rest₁, hrest₁⟩ ⟨d₁', inner', rest₁', hrest₁'⟩ ⟨hlike₁, hinner, hsame₁⟩
      exact ⟨hlike₁, congrArg some hinner, hsame₁⟩
    · exact ⟨hlike, rfl, .cons ht hrest⟩

theorem parameterType_alike {t t' : Token} (h : t.Same t') :
    Alike Error.Same (fun type type' => type = type') (parameterType t) (parameterType t') := by
  rw [parameterType, parameterType, h.kind, h.raw]
  split
  · rfl
  · rfl
  · rfl
  · exact ⟨rfl, rfl⟩

theorem parametersFrom_alike {scope : ScopeId} :
    ∀ (m : Nat) (tree tree' : Tree) (tokens tokens' : List Token), tokens.length ≤ m →
      tree.Same tree' → SameTokens tokens tokens' →
      Alike Error.Same (SameStep Tree.Same) (parametersFrom stop tree scope tokens)
        (parametersFrom stop' tree' scope tokens') := by
  intro m
  induction m using Nat.strong_induction_on with
  | _ m ih =>
    intro tree tree' tokens tokens' hm htree h
    unfold parametersFrom
    refine (next_alike h _).bind ?_
    rintro ⟨keyword, rest₁, hrest₁⟩ ⟨keyword', rest₁', hrest₁'⟩ ⟨hkeyword, hsame₁⟩
    refine (parameterType_alike hkeyword).bind ?_
    rintro type _ rfl
    refine (expect_alike hsame₁ _ _ _).bind ?_
    rintro ⟨name, rest₂, hrest₂⟩ ⟨name', rest₂', hrest₂'⟩ ⟨hname, hsame₂⟩
    refine (checkFresh_alike htree scope hname).bind fun _ _ _ => ?_
    refine (next_alike hsame₂ _).bind ?_
    rintro ⟨separator, rest₃, hrest₃⟩ ⟨separator', rest₃', hrest₃'⟩ ⟨hseparator, hsame₃⟩
    dsimp only at hrest₂ hrest₃ hname hseparator ⊢
    have hparameter : Statement.Same (.parameter ⟨name.raw, type, some scope, name.span⟩)
        (.parameter ⟨name'.raw, type, some scope, name'.span⟩) := by
      rw [hname.raw]
      rfl
    rw [hseparator.kind, hseparator.raw]
    split
    · refine (ih rest₃.length (by omega) _ _ rest₃ _ (Nat.le_refl _) (htree.push hparameter)
        hsame₃).bind ?_
      rintro ⟨tree₁, rest₄, hrest₄⟩ ⟨tree₁', rest₄', hrest₄'⟩ ⟨htree₁, hsame₄⟩
      exact ⟨htree₁, hsame₄⟩
    · exact ⟨htree.push hparameter, hsame₃⟩
    · exact ⟨rfl, rfl⟩

theorem parameters_alike {scope : ScopeId} {tree tree' : Tree} (htree : tree.Same tree')
    (h : SameTokens tokens tokens') :
    Alike Error.Same (SameStep Tree.Same) (parameters stop tree scope tokens)
      (parameters stop' tree' scope tokens') := by
  have hfrom : Alike Error.Same (SameStep Tree.Same) (parametersFrom stop tree scope tokens)
      (parametersFrom stop' tree' scope tokens') :=
    parametersFrom_alike _ _ _ _ _ (Nat.le_refl _) htree h
  unfold parameters
  cases h with
  | nil => exact hfrom
  | cons ht hrest =>
    dsimp only
    rw [ht.kind]
    split
    · exact ⟨htree, hrest⟩
    · exact hfrom

theorem returnType_alike (h : SameTokens tokens tokens') :
    Alike Error.Same (fun r r' => r.1 = r'.1 ∧ SameTokens r.2.1 r'.2.1) (returnType stop tokens)
      (returnType stop' tokens') := by
  unfold returnType
  cases h with
  | nil => exact ⟨rfl, .nil⟩
  | cons ht hrest =>
    dsimp only
    rw [ht.kind]
    split
    · refine (next_alike hrest _).bind ?_
      rintro ⟨type, rest₁⟩ ⟨type', rest₁'⟩ ⟨htype, hsame₁⟩
      dsimp only at htype ⊢
      rw [htype.kind, htype.raw]
      split
      · exact ⟨rfl, hsame₁⟩
      · exact ⟨rfl, hsame₁⟩
      · exact ⟨rfl, rfl⟩
    · exact ⟨rfl, .cons ht hrest⟩

theorem checkFreshFunction_alike {tree tree' : Tree} (h : tree.Same tree') (scope : ScopeId)
    {t t' : Token} (ht : t.Same t') : Alike Error.Same (fun _ _ => True)
      (checkFreshFunction tree scope t) (checkFreshFunction tree' scope t') := by
  rw [checkFreshFunction, checkFreshFunction, ht.raw]
  by_cases hfresh : tree'.FreshFunction scope t'.raw
  · rw [if_neg (Bool.eq_false_iff.mp (h.freshFunction hfresh)),
      if_neg (Bool.eq_false_iff.mp hfresh)]
    trivial
  · have hstale : ¬ tree.FreshFunction scope t'.raw :=
      fun h' => hfresh (Tree.Same.freshFunction h.symm h')
    rw [if_pos (eq_true_of_ne_false hstale), if_pos (eq_true_of_ne_false hfresh)]
    exact ⟨rfl, rfl⟩

/-- A scope that is opened in both trees. -/
theorem addScope_same {tree tree' tree₁' : Tree} (h : tree.Same tree') {shared : List ScopeId}
    {inner : ScopeId} (hopened : tree'.addScope shared = (tree₁', inner)) :
    ∃ tree₁, tree.addScope shared = (tree₁, inner) ∧ tree₁.Same tree₁' := by
  obtain ⟨rfl, rfl⟩ := addScope_ok hopened
  exact ⟨_, congrArg (Prod.mk _) h.size, h.addScope shared⟩

theorem function_alike (ih : StatementsAlike stop stop' n) {keyword keyword' : Token}
    (hlt : tokens.length < n) (hlike : d.Like d') (h : SameTokens tokens tokens') :
    Alike Error.Same (fun r r' => r.1.Like r'.1 ∧ Statement.Same r.2.1 r'.2.1 ∧
        SameTokens r.2.2.1 r'.2.2.1)
      (function stop d scope keyword tokens) (function stop' d' scope keyword' tokens') := by
  unfold function
  refine (expect_alike h _ _ _).bind ?_
  rintro ⟨name, rest₁, hrest₁⟩ ⟨name', rest₁', hrest₁'⟩ ⟨hname, hsame₁⟩
  refine (checkFreshFunction_alike hlike.tree scope hname).bind fun _ _ _ => ?_
  refine (expect_alike hsame₁ _ _ _).bind ?_
  rintro ⟨paren, rest₂, hrest₂⟩ ⟨paren', rest₂', hrest₂'⟩ ⟨-, hsame₂⟩
  cases hopened' : d'.tree.addScope [scope] with
  | mk tree₁' arguments =>
    obtain ⟨tree₁, hopened, htree₁⟩ := addScope_same hlike.tree hopened'
    rw [hopened]
    dsimp only
    refine (parameters_alike htree₁ hsame₂).bind ?_
    rintro ⟨tree₂, rest₃, hrest₃⟩ ⟨tree₂', rest₃', hrest₃'⟩ ⟨htree₂, hsame₃⟩
    refine (returnType_alike hsame₃).bind ?_
    rintro ⟨returns, rest₄, hrest₄⟩ ⟨returns', rest₄', hrest₄'⟩ ⟨hreturns, hsame₄⟩
    refine (expect_alike hsame₄ _ _ _).bind ?_
    rintro ⟨brace, rest₅, hrest₅⟩ ⟨brace', rest₅', hrest₅'⟩ ⟨-, hsame₅⟩
    dsimp only at htree₂ hreturns hsame₅ hname hrest₂ hrest₃ hrest₄ hrest₅ ⊢
    subst hreturns
    cases hinner' : tree₂'.addScope [arguments] with
    | mk tree₃' inner =>
      obtain ⟨tree₃, hinner, htree₃⟩ := addScope_same htree₂ hinner'
      rw [hinner]
      dsimp only
      have hlike₃ : Draft.Like ⟨tree₃, false⟩ ⟨tree₃', false⟩ := ⟨htree₃, rfl⟩
      refine (statements_alike ih rest₅.length _ _ _ _ _ rest₅ _ (Nat.le_refl _) (by omega) hlike₃
        hsame₅).bind ?_
      rintro ⟨inside, rest₆, hrest₆⟩ ⟨inside', rest₆', hrest₆'⟩ ⟨hinside, hsame₆⟩
      dsimp only at hinside ⊢
      rw [hinside.returned, hname.raw]
      split
      · exact ⟨rfl, rfl⟩
      · exact ⟨⟨hinside.tree, hlike.returned⟩, rfl, hsame₆⟩

/-- A statement is put into a draft alike, once one with fewer tokens is. -/
theorem statement_alike_of (ih : StatementsAlike stop stop' n) (hle : tokens.length ≤ n)
    (hlike : d.Like d') (h : SameTokens tokens tokens') :
    DraftAlike tokens tokens' (statement stop d scope around tokens)
      (statement stop' d' scope around tokens') := by
  have hat : (d.site scope stop).At (d'.site scope stop').tree (d'.site scope stop').scope :=
    hlike.site stop
  unfold statement
  cases h with
  | nil => exact endOfCode_same _
  | @cons t t' rest rest' ht hrest =>
    have hlt : rest.length < n := hle
    dsimp only
    rw [ht.kind, ht.raw]
    split
    -- a declaration, by each of its three keywords
    iterate 3
      refine (declaration_alike hat ht hrest).bind ?_
      rintro ⟨s, rest₁, hrest₁⟩ ⟨s', rest₁', hrest₁'⟩ ⟨hs, hsame₁⟩
      exact ⟨hlike.push hs, hsame₁⟩
    · refine (assignment_alike hat ht hrest).bind ?_
      rintro ⟨s, rest₁, hrest₁⟩ ⟨s', rest₁', hrest₁'⟩ ⟨hs, hsame₁⟩
      exact ⟨hlike.push hs, hsame₁⟩
    · refine (condition_alike hat _ _ hrest).bind ?_
      rintro ⟨value, rest₁, hrest₁⟩ ⟨value', rest₁', hrest₁'⟩ ⟨hvalue, hsame₁⟩
      refine (body_alike ih (Nat.lt_trans hrest₁ hlt) hlike hsame₁).bind ?_
      rintro ⟨d₁, inner, rest₂, hrest₂⟩ ⟨d₁', inner', rest₂', hrest₂'⟩ ⟨hlike₁, hinner, hsame₂⟩
      refine (otherwise_alike ih (show rest₂.length < n by omega) hlike₁ hsame₂).bind ?_
      rintro ⟨d₂, other, rest₃, hrest₃⟩ ⟨d₂', other', rest₃', hrest₃'⟩ ⟨hlike₂, hother, hsame₃⟩
      dsimp only at hinner hother hvalue
      subst hinner
      subst hother
      refine ⟨hlike₂.push ?_, hsame₃⟩
      rw [Statement.view, Statement.view, hvalue]
    · refine (condition_alike hat _ _ hrest).bind ?_
      rintro ⟨value, rest₁, hrest₁⟩ ⟨value', rest₁', hrest₁'⟩ ⟨hvalue, hsame₁⟩
      refine (body_alike ih (Nat.lt_trans hrest₁ hlt) hlike hsame₁).bind ?_
      rintro ⟨d₁, inner, rest₂, hrest₂⟩ ⟨d₁', inner', rest₂', hrest₂'⟩ ⟨hlike₁, hinner, hsame₂⟩
      dsimp only at hinner hvalue
      subst hinner
      refine ⟨hlike₁.push ?_, hsame₂⟩
      rw [Statement.view, Statement.view, hvalue]
    · split
      · have hleave : Statement.Same (.leave t.span) (.leave t'.span) := rfl
        refine (keywordStatement_alike hleave hrest).bind ?_
        rintro ⟨s, rest₁, hrest₁⟩ ⟨s', rest₁', hrest₁'⟩ ⟨hs, hsame₁⟩
        exact ⟨hlike.push hs, hsame₁⟩
      · exact ⟨rfl, rfl⟩
    · split
      · have hagain : Statement.Same (.again t.span) (.again t'.span) := rfl
        refine (keywordStatement_alike hagain hrest).bind ?_
        rintro ⟨s, rest₁, hrest₁⟩ ⟨s', rest₁', hrest₁'⟩ ⟨hs, hsame₁⟩
        exact ⟨hlike.push hs, hsame₁⟩
      · exact ⟨rfl, rfl⟩
    · refine (function_alike ih hlt hlike hrest).bind ?_
      rintro ⟨d₁, s, rest₁, hrest₁⟩ ⟨d₁', s', rest₁', hrest₁'⟩ ⟨hlike₁, hs, hsame₁⟩
      exact ⟨hlike₁.push hs, hsame₁⟩
    · split
      · refine (returned_alike hat hrest).bind ?_
        rintro ⟨s, rest₁, hrest₁⟩ ⟨s', rest₁', hrest₁'⟩ ⟨hs, hsame₁⟩
        exact ⟨⟨(hlike.push hs).tree, rfl⟩, hsame₁⟩
      · exact ⟨rfl, rfl⟩
    · cases hopened' : d'.openScope scope with
      | mk d₁' inner =>
        obtain ⟨d₁, hopened, hlike₁⟩ := hlike.openScope hopened'
        rw [hopened]
        dsimp only
        refine (statements_alike ih _ _ _ _ _ _ _ _ (Nat.le_refl _) hlt hlike₁ hrest).bind ?_
        rintro ⟨d₂, rest₁, hrest₁⟩ ⟨d₂', rest₁', hrest₁'⟩ ⟨hlike₂, hsame₁⟩
        exact ⟨hlike₂.push rfl, hsame₁⟩
    · exact ⟨rfl, rfl⟩

theorem statement_alike : ∀ n, StatementsAlike stop stop' n := by
  intro n
  induction n with
  | zero => exact fun _ _ _ _ _ _ h => absurd h (Nat.not_lt_zero _)
  | succ n ih =>
    exact fun d d' scope around tokens tokens' hlt hlike h =>
      statement_alike_of ih (Nat.le_of_lt_succ hlt) hlike h

end Bodies

/-- **Tokens that are the same but for their places** are parsed to trees that are the same but for
places, or refused with the same words. -/
theorem parse_alike {tokens tokens' : List Token} (h : SameTokens tokens tokens') :
    Alike Error.Same Tree.Same (parse tokens) (parse tokens') := by
  have hlike : Draft.Like {} {} := ⟨rfl, rfl⟩
  refine (statements_alike (statement_alike (tokens.length + 1)) _ _ _ _ _ _ _ _ (Nat.le_refl _)
    (Nat.lt_succ_self _) hlike h).map ?_
  exact fun r r' hr => hr.1.tree

end Parser

end RegisterMachine.Structured
