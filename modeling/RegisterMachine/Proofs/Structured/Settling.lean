import RegisterMachine.Proofs.Structured.Inferring
import RegisterMachine.Proofs.Structured.Lexical
import RegisterMachine.Proofs.Structured.Retyping

/-! # The types that are filled in

Every name has one type in the end, that of its declaration. A statement is typed when all names
that it uses have their final types already, so the types that are found are those that would be
found in the final tree, and filling in types once more changes nothing.

* `Tree.finalType`: the type that a name has in the end.
* `Lexical.finished`: the types of declarations.
* `Lexical.inferTypes_settled`: under the final types there is nothing to fill in.
* `Lexical.view_settled`: the tree with its types filled in has the final types. -/

namespace RegisterMachine.Structured

/-! ### Final types -/

/-- The type, if it is that of a scalar. -/
def scalarType : Option ValueType → Option ValueType
  | some (.array _ _) => none
  | type => type

theorem isScalar_scalarType (type : Option ValueType) : IsScalar (scalarType type) := by
  rcases type with _ | _ | _ | _
  exacts [.inl rfl, .inr (.inl rfl), .inr (.inr rfl), .inl rfl]

theorem scalarType_of_isScalar {type : Option ValueType} (h : IsScalar type) :
    scalarType type = type := by
  rcases h with rfl | rfl | rfl <;> rfl

theorem isScalar_of_namesArray {j : Identifier} (h : Site.namesArray j = false) :
    IsScalar j.type := by
  rw [Site.namesArray] at h
  rcases hj : j.type with _ | _ | _ | _
  · exact .inl rfl
  · exact .inr (.inl rfl)
  · exact .inr (.inr rfl)
  · rw [hj] at h
    cases h

/-- The type of the declaration that a name is bound to. -/
def Tree.declaredType (t : Tree) (j : Identifier) : Option ValueType :=
  (j.binding.bind fun scope => t.declaration? scope j.name).bind fun declaration =>
    declaration.2.type

/-- **The type that a name has in the end**, if the tree has its types filled in. -/
def Tree.finalType (t : Tree) (j : Identifier) : Option ValueType :=
  if Site.namesArray j then j.type else scalarType (t.declaredType j)

theorem Tree.retypes_finalType (t : Tree) : Retypes t.finalType where
  one _ _ := rfl
  array j hj := by rw [finalType, if_pos hj]
  scalar j hj := by
    rw [finalType, if_neg (Bool.eq_false_iff.mp hj)]
    exact isScalar_scalarType _

/-! ### Declarations -/

namespace Tree.Lexical

variable {t p : Tree} {id : StatementId} {s : Statement} {i j : Identifier}

/-- A declaration is found where it stands, also when types are filled in. -/
theorem declaration?_eq (h : t.Lexical) (hview : p.view .untyped = t.view .untyped)
    (hs : p.statement? id = some s) (hi : s.declared? = some i) :
    p.declaration? id.scope i.name = some (id.scope, i) := by
  refine declaration?_own hs hi fun id' s' i' hs' hscope hi' hname => ?_
  exact h.unique_of_view hview.symm hs hs' hscope hi hi' hname

/-- The final type of a name, by its declaration in the final tree. -/
theorem finalType_eq (h : t.Lexical) (hview : p.view .untyped = t.view .untyped)
    (hs : p.statement? id = some s) {type : Option ValueType}
    (hi : s.declared? = some { i with type }) (hbinding : i.binding = some id.scope)
    (harray : Site.namesArray i = true → type = i.type)
    (hscalar : Site.namesArray i = false → IsScalar type) : p.finalType i = type := by
  have hdeclaration := h.declaration?_eq hview hs hi
  cases hi : Site.namesArray i with
  | true => rw [Tree.finalType, if_pos hi, harray hi]
  | false =>
    have htype : p.declaredType i = type := by
      rw [Tree.declaredType, hbinding, Option.bind_some]
      exact congrArg (·.bind fun declaration => declaration.2.type) hdeclaration
    rw [Tree.finalType, if_neg (Bool.eq_false_iff.mp hi), htype,
      scalarType_of_isScalar (hscalar hi)]

end Tree.Lexical

/-! ### The order of typing -/

section Single

variable {t : Tree} {i : Identifier} {e : Expression} {span : Span}

theorem inferStatement_some {type : ValueType} (h : i.type = some type) :
    t.inferStatement (.assign (.name i) e true span) = .assign (.name i) e true span := by
  rw [Tree.inferStatement, h]

theorem inferStatement_none (h : i.type = none) :
    t.inferStatement (.assign (.name i) e true span) =
      .assign (.name { i with type := t.typeOf? e }) e true span := by
  rw [Tree.inferStatement, h]

end Single

theorem StatementId.before_induction {P : StatementId → Prop}
    (h : ∀ id, (∀ id' : StatementId, id'.Before id → P id') → P id) (id : StatementId) : P id := by
  obtain ⟨scope, index⟩ := id
  induction scope using Nat.strong_induction_on generalizing index with
  | _ scope ihscope =>
    induction index using Nat.strong_induction_on with
    | _ index ihindex =>
      refine h _ fun ⟨scope', index'⟩ hbefore => ?_
      rcases hbefore with hlt | ⟨heq, hlt⟩
      · exact ihscope scope' hlt index'
      · cases heq
        exact ihindex index' hlt

/-- **The declaration is final**: it has the final type of its name, and still its own type if it
had one. -/
def Tree.Finished (t : Tree) (id : StatementId) : Prop :=
  ∀ s i, t.statement? id = some s → s.declared? = some i →
    ∃ s', t.inferTypes.statement? id = some s' ∧
      s'.declared? = some { i with type := t.inferTypes.finalType i } ∧
      (i.type ≠ none → t.inferTypes.finalType i = i.type)

/-- **A tree in which a statement is typed**: earlier statements are final. -/
structure Tree.Midway (t : Tree) (id : StatementId) (p : Tree) : Prop where
  earlier : ∀ id' : StatementId, id'.Before id → p.statement? id' = t.inferTypes.statement? id'
  like : p.view .untyped = t.view .untyped

namespace Tree.Midway

variable {t p : Tree} {id : StatementId} {e : Expression} {j : Identifier}

/-- A name that is declared before has its final type. -/
theorem declaration (hmid : t.Midway id p) (h : t.Lexical)
    (hfinished : ∀ id' : StatementId, id'.Before id → t.Finished id')
    (hj : t.DeclaredBefore id j) :
    ∃ scope i, j.binding = some scope ∧ p.declaration? scope j.name = some (scope, i) ∧
      i.type = t.inferTypes.finalType j ∧
      (j.type ≠ none → t.inferTypes.finalType j = j.type) := by
  obtain ⟨id', s, i, hs, hbefore, hbinding, hi, hsame⟩ := hj
  obtain ⟨s', hs', hi', hkept⟩ := hfinished id' hbefore s i hs hi
  have hone : t.inferTypes.finalType i = t.inferTypes.finalType j := by
    rw [hsame]
    exact t.inferTypes.retypes_finalType.one j _
  have hname : i.name = j.name := by rw [hsame]
  have htype : i.type = j.type := by rw [hsame]
  rw [← hmid.earlier id' hbefore] at hs'
  have hdeclaration := h.declaration?_eq hmid.like hs' hi'
  rw [← hname, ← hone, ← htype]
  exact ⟨id'.scope, _, hbinding, hdeclaration, rfl, hkept⟩

/-- **The type of a name is final** when its statement is typed. -/
theorem typeOfName (hmid : t.Midway id p) (h : t.Lexical)
    (hfinished : ∀ id' : StatementId, id'.Before id → t.Finished id')
    (hj : t.DeclaredBefore id j) : p.typeOfName? j = t.inferTypes.finalType j := by
  obtain ⟨scope, i, hbinding, hdeclaration, htype, hkept⟩ := hmid.declaration h hfinished hj
  rw [Tree.typeOfName?, hbinding]
  cases hj : j.type with
  | some type => exact (hj ▸ hkept (by simp [hj])).symm
  | none =>
    show (p.declaration? scope j.name).bind _ = _
    rw [hdeclaration]
    exact htype

theorem returnType (hmid : t.Midway id p) (callee : StatementId) :
    p.returnType? callee = t.returnType? callee := by
  rw [← Tree.returnType?_view (v := .untyped), hmid.like, Tree.returnType?_view]

/-- **The type of an initial value is that of a scalar.** -/
theorem isScalar (hmid : t.Midway id p) (h : t.Lexical)
    (hfinished : ∀ id' : StatementId, id'.Before id → t.Finished id')
    (hnames : ∀ j ∈ e.names, t.DeclaredBefore id j) (he : e.IsValue) : IsScalar (p.typeOf? e) := by
  cases e with
  | name j =>
    have hj := hmid.typeOfName h hfinished (hnames j (List.mem_singleton_self j))
    rw [Tree.typeOf?, hj]
    exact t.inferTypes.retypes_finalType.scalar j he
  | number => exact .inr (.inl rfl)
  | binary op left right span =>
    rw [Tree.typeOf?, ValueType.ofOperator]
    split
    exacts [.inr (.inr rfl), .inr (.inl rfl)]
  | element j index span =>
    have hdeclared := hnames j List.mem_cons_self
    rw [Tree.typeOf?, hmid.typeOfName h hfinished hdeclared,
      t.inferTypes.retypes_finalType.array j he]
    obtain ⟨id', s, i, hs, -, -, hi, hsame⟩ := hdeclared
    have htype : i.type = j.type := by rw [hsame]
    have harray : ¬ IsScalar i.type := fun hscalar => by
      rw [htype] at hscalar
      rw [Expression.IsValue, namesArray_of_isScalar hscalar] at he
      cases he
    have htyped := h.typed id' s hs
    cases s with
    | assign target value initial span =>
      cases target <;> cases initial <;> try cases hi
      rcases htyped with ⟨element, size, helement, hscalar⟩ | ⟨hscalar, -⟩
      · rw [← htype, helement]
        exact hscalar
      · exact absurd hscalar harray
    | parameter =>
      cases hi
      exact absurd htyped harray
    | _ => cases hi
  | new => exact he.elim
  | call i es resolved span =>
    cases resolved with
    | none => exact .inl rfl
    | some callee =>
      show IsScalar (p.returnType? callee)
      rw [hmid.returnType, Tree.returnType?]
      split
      · rename_i hs
        exact h.typed callee _ hs
      · exact .inl rfl

end Tree.Midway

namespace Tree.Lexical

variable {t : Tree}

/-- **The types of all declarations are final** in the end. -/
theorem finished (h : t.Lexical) (id : StatementId) : t.Finished id := by
  induction id using StatementId.before_induction with
  | h id ih =>
    intro s i hs hi
    obtain ⟨p, hfinal, hearlier, hlike⟩ := inferTypes_at hs
    have hmid : t.Midway id p := ⟨hearlier, hlike⟩
    have hbinding := h.bound id s i hs hi
    have htyped := h.typed id s hs
    -- it is enough to know the type that the statement is given, and that it is one of its kind
    have hknown : ∀ type, (p.inferStatement s).declared? = some { i with type } →
        (Site.namesArray i = true → type = i.type) →
        (Site.namesArray i = false → IsScalar type) → (i.type ≠ none → type = i.type) →
        ∃ s', t.inferTypes.statement? id = some s' ∧
          s'.declared? = some { i with type := t.inferTypes.finalType i } ∧
          (i.type ≠ none → t.inferTypes.finalType i = i.type) := by
      intro type htype harray hscalar hkept
      have heq := h.finalType_eq view_inferTypes hfinal htype hbinding harray hscalar
      exact ⟨_, hfinal, heq ▸ htype, heq ▸ hkept⟩
    cases s with
    | parameter i' =>
      cases hi
      exact hknown i.type rfl (fun _ => rfl) (fun _ => htyped) fun _ => rfl
    | assign target e initial span =>
      cases target <;> cases initial <;> try cases hi
      rcases Option.eq_none_or_eq_some i.type with hown | ⟨type, hown⟩
      · have hscalar : IsScalar (p.typeOf? e) := by
          refine hmid.isScalar h ih (h.used id _ hs) ?_
          rcases htyped with ⟨element, size, harray, -⟩ | ⟨-, hvalue⟩
          · rw [hown] at harray
            cases harray
          · exact hvalue
        refine hknown (p.typeOf? e) (by rw [inferStatement_none hown]; rfl) (fun harray => ?_)
          (fun _ => hscalar) fun hsome => absurd hown hsome
        rw [Site.namesArray, hown] at harray
        cases harray
      · exact hknown i.type (by rw [inferStatement_some hown]; rfl) (fun _ => rfl)
          isScalar_of_namesArray fun _ => rfl
    | _ => cases hi

/-- A statement is typed in a tree in which all names that it uses are final. -/
theorem exists_midway (h : t.Lexical) {id : StatementId} {s : Statement}
    (hs : t.statement? id = some s) :
    ∃ p, t.Midway id p ∧ t.inferTypes.statement? id = some (p.inferStatement s) ∧
      (∀ j ∈ s.names, p.typeOfName? j = t.inferTypes.finalType j) ∧
      ∀ i, s.declared? = some i →
        (p.inferStatement s).declared? = some { i with type := t.inferTypes.finalType i } ∧
          (i.type ≠ none → t.inferTypes.finalType i = i.type) := by
  obtain ⟨p, hfinal, hearlier, hlike⟩ := inferTypes_at hs
  have hmid : t.Midway id p := ⟨hearlier, hlike⟩
  refine ⟨p, hmid, hfinal, fun j hj => ?_, fun i hi => ?_⟩
  · exact hmid.typeOfName h (fun id' _ => h.finished id') (h.used id s hs j hj)
  · obtain ⟨s', hs', hrest⟩ := h.finished id s i hs hi
    rw [hfinal] at hs'
    cases hs'
    exact hrest

end Tree.Lexical

/-! ### Under the final types -/

section Settled

variable {t p : Tree} {id : StatementId} {s : Statement} {j : Identifier} {e : Expression}

/-- The tree with all names typed as in the end. -/
def Tree.settled (t : Tree) : Tree := t.view (.typed t.inferTypes.finalType)

theorem Tree.Lexical.typeOfName_settled (h : t.Lexical) (hj : t.DeclaredBefore id j) :
    t.settled.typeOfName? (j.withType (t.inferTypes.finalType j)) = t.inferTypes.finalType j := by
  obtain ⟨id', s, i, hs, hbefore, hbinding, hi, hsame⟩ := hj
  have hone : t.inferTypes.finalType i = t.inferTypes.finalType j := by
    rw [hsame]
    exact t.inferTypes.retypes_finalType.one j _
  have hname : i.name = j.name := by rw [hsame]
  have hdeclaration := h.declaration?_eq (p := t) rfl hs hi
  rw [Tree.typeOfName?, Identifier.withType_type, Identifier.withType_binding, hbinding]
  cases htype : t.inferTypes.finalType j with
  | some type => rfl
  | none =>
    show (t.settled.declaration? id'.scope j.name).bind _ = _
    rw [Tree.settled, Tree.declaration?_view, ← hname, hdeclaration]
    exact hone.trans htype

/-- **The types that are found are those of the final tree.** -/
theorem Tree.Lexical.typeOf_settled (h : t.Lexical) (hmid : t.Midway id p)
    (htypes : ∀ j ∈ e.names, p.typeOfName? j = t.inferTypes.finalType j)
    (hnames : ∀ j ∈ e.names, t.DeclaredBefore id j) :
    t.settled.typeOf? (e.view (.typed t.inferTypes.finalType)) = p.typeOf? e := by
  cases e with
  | name j =>
    have hj := List.mem_singleton_self j
    exact (h.typeOfName_settled (hnames j hj)).trans (htypes j hj).symm
  | element j index span =>
    have hj : j ∈ (Expression.element j index span).names := List.mem_cons_self
    exact congrArg (·.map ValueType.element)
      ((h.typeOfName_settled (hnames j hj)).trans (htypes j hj).symm)
  | call i es resolved span =>
    cases resolved with
    | none => rfl
    | some callee => exact (Tree.returnType?_view callee).trans (hmid.returnType callee).symm
  | number | binary | new => rfl

/-- **Under the final types there is nothing to fill in.** -/
theorem Tree.Lexical.inferTypes_settled (h : t.Lexical) : t.settled.inferTypes = t.settled := by
  refine inferTypes_eq_self fun id s' hs' => ?_
  rw [settled, statement?_view] at hs'
  obtain ⟨s, hs, rfl⟩ := Option.map_eq_some_iff.mp hs'
  obtain ⟨p, hmid, -, htypes, hdeclared⟩ := h.exists_midway hs
  have hnames := h.used id s hs
  cases s with
  | assign target e initial span =>
    cases target <;> cases initial <;> try rfl
    rename_i i
    have htype := h.typeOf_settled hmid htypes hnames
    obtain ⟨hi, hkept⟩ := hdeclared i rfl
    rcases Option.eq_none_or_eq_some (t.inferTypes.finalType i) with hfinal | ⟨type, hfinal⟩
    · have hown : i.type = none := by
        by_contra hsome
        exact hsome ((hkept hsome).symm.trans hfinal)
      rw [inferStatement_none hown] at hi
      have hsame := congrArg Identifier.type (Option.some.inj hi)
      show t.settled.inferStatement (.assign (.name (i.withType _)) (e.view _) true {}) = _
      rw [inferStatement_none hfinal, htype]
      exact congrArg (fun type => Statement.assign (.name (i.withType type)) _ true {}) hsame
    · exact inferStatement_some hfinal
  | give e span =>
    cases e <;> try rfl
    rename_i j
    have htype := h.typeOfName_settled (hnames j (List.mem_singleton_self j))
    exact congrArg (fun type => Statement.give (.name (j.withType type)) {}) htype
  | _ => rfl

/-- **The types that are filled in are the final ones**, but for some names that are used. -/
theorem Tree.Lexical.view_settled (h : t.Lexical) :
    t.inferTypes.view .unused = t.settled.view .unused := by
  have huntyped := t.view_inferTypes
  rw [settled, view_view]
  refine view_ext ?_ (fun scope => ?_) fun id => ?_
  · rw [← size_view (v := .untyped), huntyped, size_view]
  · have hscope := congrArg (fun t : Tree => (t.scope scope).shared) huntyped
    simpa only [scope_view, Scope.view] using hscope
  · cases hs : t.statement? id with
    | none =>
      cases hs' : t.inferTypes.statement? id with
      | none => rfl
      | some s' =>
        obtain ⟨s, hs₀, -⟩ := statement?_of_view huntyped.symm hs'
        rw [hs] at hs₀
        cases hs₀
    | some s =>
      obtain ⟨p, -, hfinal, -, hdeclared⟩ := h.exists_midway hs
      rw [hfinal, Option.map_some, Option.map_some]
      congr 1
      have hcongr : ∀ e : Expression, e.view .unused =
          e.view (View.unused.after (.typed t.inferTypes.finalType)) :=
        Expression.view_congr rfl rfl
      have hplain : s.declared? = none → s.view .unused =
          s.view (View.unused.after (.typed t.inferTypes.finalType)) := by
        intro hnone
        refine Statement.view_congr ?_ ?_ fun i hi => ?_
        · rfl
        · rfl
        · rw [hnone] at hi
          cases hi
      cases s with
      | assign target e initial span =>
        cases target <;> cases initial
        case name.true i =>
          obtain ⟨hi, hkept⟩ := hdeclared i rfl
          rcases Option.eq_none_or_eq_some i.type with hown | ⟨type, hown⟩
          · rw [inferStatement_none hown] at hi ⊢
            have hsame := congrArg Identifier.type (Option.some.inj hi)
            rw [Statement.view, Statement.view, hcongr e]
            exact congrArg (fun type => Statement.assign (.name (i.withType type)) _ true {}) hsame
          · rw [inferStatement_some hown, Statement.view, Statement.view, hcongr e]
            have hsame := hkept (by simp [hown])
            exact congrArg (fun type => Statement.assign (.name (i.withType type)) _ true {})
              hsame.symm
        all_goals exact hplain rfl
      | parameter i =>
        obtain ⟨hi, -⟩ := hdeclared i rfl
        have hsame := congrArg Identifier.type (Option.some.inj hi)
        exact congrArg (fun type => Statement.parameter (i.withType type)) hsame
      | give e span =>
        cases e
        case name j => rfl
        all_goals exact hplain rfl
      | _ => exact hplain rfl

end Settled

end RegisterMachine.Structured
