import RegisterMachine.Proofs.Structured.Arranged
import RegisterMachine.Proofs.Structured.Reservation
import RegisterMachine.Proofs.Structured.Settling

/-! # Slots and declarations

A scalar that is declared has one slot, an array one for each element. When the names of a scope are
given up, just the slots of its declarations are given back. So nothing of the scope stays behind if
all slots that are held belong to declarations. In the tree of a source, a name is used as it is
declared, with an index or without, and so it has the slot in which it is held.

* `Slot.Of`, `Tree.HasSlot`: the slots of declarations.
* `mem_release`: what is given back.
* `Expression.scalars`, `Statement.scalars`: the names that are used without an index.
* `Tree.Housed`: what is used is declared that way.
* `analyze_housed`: the tree of every source. -/

namespace RegisterMachine.Structured

open RegisterMachine.Success

/-! ### The slots of declarations -/

/-- **The slots of a name** that is declared in this scope. -/
inductive Slot.Of (i : Identifier) (scope : ScopeId) : Slot → Prop
  | scalar (plain : Site.namesArray i = false) : Of i scope ⟨i.name, scope, none⟩
  | element {element : ValueType} {size k : Nat} (array : i.type = some (.array element size))
    (lt : k < size) : Of i scope ⟨i.name, scope, some k⟩

/-- **The slot belongs to a declaration.** -/
def Tree.HasSlot (t : Tree) (slot : Slot) : Prop :=
  ∃ id s i, t.statement? id = some s ∧ s.declared? = some i ∧ slot.Of i id.scope

section Release

variable {t : Tree} {R : Registers} {scope : ScopeId} {i : Identifier} {entry : Slot × Nat}

/-- A statement is among those of its scope. -/
theorem Tree.mem_statements {id : StatementId} {s : Statement} (hs : t.statement? id = some s) :
    s ∈ (t.scope id.scope).statements.toList := by
  rw [statement?_eq] at hs
  exact Array.mem_toList_iff.mpr (Array.mem_of_getElem? hs)

theorem Slot.Of.scope_eq {slot : Slot} (h : slot.Of i scope) : slot.scope = scope := by
  cases h <;> rfl

/-- **A name that is given up** leaves its slots and no others. -/
theorem mem_releaseName : entry ∈ (Emit.releaseName scope R i).reserved ↔
    entry ∈ R.reserved ∧ ¬ entry.1.Of i scope := by
  obtain ⟨⟨name, place, element⟩, r⟩ := entry
  unfold Emit.releaseName
  split
  · rename_i type size hi
    have hof : Slot.Of i scope ⟨name, place, element⟩ ↔
        Registers.isElement i.name scope size ⟨name, place, element⟩ = true := by
      rw [Registers.isElement_iff]
      constructor
      · rintro (plain | ⟨array, lt⟩)
        · simp [Site.namesArray, hi, ValueType.isArray] at plain
        · rw [hi] at array
          cases array
          exact ⟨_, lt, rfl⟩
      · rintro ⟨k, lt, heq⟩
        rw [heq]
        exact .element hi lt
    simp [Registers.releaseArray, hof]
  · rename_i hplain
    have hscalar : Site.namesArray i = false := by
      rcases hi : i.type with _ | _ | _ | ⟨type, size⟩
      all_goals simp_all [Site.namesArray, ValueType.isArray]
    have hof : Slot.Of i scope ⟨name, place, element⟩ ↔
        (⟨name, place, element⟩ : Slot) = ⟨i.name, scope, none⟩ := by
      constructor
      · rintro (_ | ⟨array, -⟩)
        · rfl
        · exact absurd array (hplain _ _)
      · intro heq
        rw [heq]
        exact .scalar hscalar
    simp [Registers.release, hof]

theorem mem_foldl_releaseName {l : List Identifier} :
    entry ∈ (l.foldl (Emit.releaseName scope) R).reserved ↔
      entry ∈ R.reserved ∧ ∀ i ∈ l, ¬ entry.1.Of i scope := by
  induction l generalizing R with
  | nil => simp
  | cons i l ih => rw [List.foldl_cons, ih, mem_releaseName, List.forall_mem_cons, and_assoc]

/-- **When the names of a scope are given up**, the slots of its declarations are given back, and no
others. -/
theorem mem_release : entry ∈ (t.release scope R).reserved ↔
    entry ∈ R.reserved ∧ ¬ (entry.1.scope = scope ∧ t.HasSlot entry.1) := by
  rw [Tree.release, mem_foldl_releaseName]
  refine and_congr_right fun _ => ⟨?_, fun h i hi hof => h ⟨hof.scope_eq, ?_⟩⟩
  · rintro h ⟨rfl, id, s, i, hs, hi, hof⟩
    have hscope := hof.scope_eq
    refine h i (List.mem_filterMap.mpr ⟨s, ?_, hi⟩) (hscope ▸ hof)
    rw [hscope]
    exact Tree.mem_statements hs
  · obtain ⟨s, hs, hdeclared⟩ := List.mem_filterMap.mp hi
    obtain ⟨index, hplace⟩ := exists_place hs
    exact ⟨_, s, i, hplace, hdeclared, hof⟩

end Release

/-! ### Names without an index -/

namespace Expression

mutual

/-- **The names that an expression uses without an index.** -/
def scalars : Expression → List Identifier
  | .name i => [i]
  | .number _ _ | .new _ _ => []
  | .binary _ left right _ => left.scalars ++ right.scalars
  | .element _ index _ => index.scalars
  | .call _ arguments _ _ => scalarsOf arguments

def scalarsOf : List Expression → List Identifier
  | [] => []
  | e :: rest => e.scalars ++ scalarsOf rest

end

theorem mem_scalarsOf {j : Identifier} {es : List Expression} :
    j ∈ scalarsOf es ↔ ∃ e ∈ es, j ∈ e.scalars := by
  induction es with
  | nil => simp [scalarsOf]
  | cons e es ih => simp [scalarsOf, ih]

end Expression

/-- The names that a statement uses without an index, and the scalar that it declares. -/
def Statement.scalars : Statement → List Identifier
  | assign (.name _) (.new _ _) true _ => []
  | assign (.name i) e _ _ => i :: e.scalars
  | assign (.element _ index _) e _ _ => index.scalars ++ e.scalars
  | branch e _ _ _ | loop e _ _ | give e _ | evaluate e => e.scalars
  | block _ | leave _ | again _ | function _ _ _ _ _ | parameter _ => []

section Scalars

variable {v : View} {s s' : Statement} {j : Identifier}

mutual

theorem Expression.scalars_view : ∀ e : Expression,
    (e.view v).scalars = e.scalars.map fun j => j.withType (v.used j)
  | .name _ | .number _ _ | .new _ _ => rfl
  | .binary _ left right _ => by
    rw [view, scalars, scalars, List.map_append, scalars_view left, scalars_view right]
  | .element _ index _ => by rw [view, scalars, scalars, scalars_view index]
  | .call _ es _ _ => by rw [view, scalars, scalars, scalarsOf_viewAll es]

theorem Expression.scalarsOf_viewAll : ∀ es : List Expression,
    scalarsOf (viewAll v es) = (scalarsOf es).map fun j => j.withType (v.used j)
  | [] => rfl
  | e :: es => by
    rw [viewAll, scalarsOf, scalarsOf, List.map_append, scalars_view e, scalarsOf_viewAll es]

end

/-- A statement uses the same names under a view, but for their types. -/
theorem Statement.scalars_bare (s : Statement) :
    (s.view .bare).scalars = s.scalars.map fun j => j.withType none := by
  cases s with
  | assign target e initial span =>
    cases target with
    | name i =>
      cases initial <;> cases e <;>
        simp [view, Target.view, Expression.view, scalars, Expression.scalars, View.bare,
          Expression.scalars_view, Expression.scalarsOf_viewAll]
    | element i index place =>
      cases initial <;>
        simp [view, Target.view, scalars, View.bare, Expression.scalars_view]
  | branch e | loop e | give e | evaluate e =>
    rw [view, scalars, scalars, Expression.scalars_view]
    rfl
  | block | leave | again | function | parameter => rfl

theorem Statement.mem_scalars_of_view (h : s.view .bare = s'.view .bare) (hj : j ∈ s'.scalars) :
    ∃ j' ∈ s.scalars, j'.name = j.name ∧ j'.binding = j.binding := by
  have hsame := congrArg Statement.scalars h
  rw [scalars_bare, scalars_bare] at hsame
  obtain ⟨j', hj', heq⟩ := List.mem_map.mp (hsame ▸ List.mem_map_of_mem hj)
  have hname := congrArg Identifier.name heq
  have hbinding := congrArg Identifier.binding heq
  exact ⟨j', hj', hname, hbinding⟩

mutual

theorem Expression.mem_names_of_scalars : ∀ (e : Expression), j ∈ e.scalars → j ∈ e.names
  | .name _, h => h
  | .number _ _, h | .new _ _, h => h
  | .binary _ left right _, h => by
    rw [names]
    rcases List.mem_append.mp h with h | h
    · exact List.mem_append_left _ (mem_names_of_scalars left h)
    · exact List.mem_append_right _ (mem_names_of_scalars right h)
  | .element _ index _, h => List.mem_cons_of_mem _ (mem_names_of_scalars index h)
  | .call _ es _ _, h => mem_namesOf_of_scalars es h

theorem Expression.mem_namesOf_of_scalars : ∀ (es : List Expression),
    j ∈ scalarsOf es → j ∈ namesOf es
  | [], h => h
  | e :: es, h => by
    rw [namesOf]
    rcases List.mem_append.mp h with h | h
    · exact List.mem_append_left _ (mem_names_of_scalars e h)
    · exact List.mem_append_right _ (mem_namesOf_of_scalars es h)

end

mutual

theorem Expression.Indexed.scalar : ∀ (e : Expression), e.Indexed → j ∈ e.scalars →
    Site.namesArray j = false
  | .name _, h, hj => List.mem_singleton.mp hj ▸ h
  | .binary _ left right _, h, hj => by
    rcases List.mem_append.mp hj with hj | hj
    · exact scalar left h.1 hj
    · exact scalar right h.2 hj
  | .element _ index _, h, hj => scalar index h.2 hj
  | .call _ es _ _, h, hj => allScalar es h hj

theorem Expression.Indexed.allScalar : ∀ (es : List Expression), Expression.AllIndexed es →
    j ∈ scalarsOf es → Site.namesArray j = false
  | e :: es, h, hj => by
    rcases List.mem_append.mp hj with hj | hj
    · exact scalar e h.1 hj
    · exact allScalar es h.2 hj

end

theorem Statement.scalars_assign {i : Identifier} {e : Expression} {initial : Bool} {span : Span}
    (value : ∀ type place, e ≠ .new type place) :
    (Statement.assign (.name i) e initial span).scalars = i :: e.scalars := by
  cases e with
  | new type place => exact absurd rfl (value type place)
  | _ => rfl

theorem Expression.Indexed.not_new {e : Expression} (h : e.Indexed) (type : ValueType)
    (place : Span) : e ≠ .new type place := by
  rintro rfl
  exact h

/-- **A name without an index** is no array; the statement uses it or declares it. -/
theorem Statement.Regular.scalar (h : s.Regular) (hj : j ∈ s.scalars) :
    Site.namesArray j = false ∧ (s.declared? = some j ∨ j ∈ s.names) := by
  have huse : ∀ {e : Expression}, e.Indexed → j ∈ e.scalars →
      Site.namesArray j = false ∧ j ∈ e.names := fun he hj =>
    ⟨Expression.Indexed.scalar _ he hj, Expression.mem_names_of_scalars _ hj⟩
  cases s with
  | assign target e initial span =>
    cases target with
    | name i =>
      cases initial with
      | true =>
        rcases h with ⟨element, size, place, rfl, -⟩ | ⟨hi, he⟩
        · cases hj
        · rw [scalars_assign he.not_new] at hj
          rcases List.mem_cons.mp hj with rfl | hj
          · exact ⟨hi, .inl rfl⟩
          · exact (huse he hj).imp_right .inr
      | false =>
        obtain ⟨hi, he⟩ := h
        rw [scalars_assign he.not_new] at hj
        rcases List.mem_cons.mp hj with rfl | hj
        · exact ⟨hi, .inr List.mem_cons_self⟩
        · exact (huse he hj).imp_right fun hj => .inr (List.mem_cons_of_mem _ hj)
    | element i index place =>
      obtain ⟨rfl, ⟨-, hindex⟩, he⟩ := h
      rcases List.mem_append.mp hj with hj | hj
      · refine (huse hindex hj).imp_right fun hj => .inr ?_
        exact List.mem_cons_of_mem _ (List.mem_append_left _ hj)
      · refine (huse he hj).imp_right fun hj => .inr ?_
        exact List.mem_cons_of_mem _ (List.mem_append_right _ hj)
  | branch | loop => exact (huse h.2 hj).imp_right .inr
  | give | evaluate => exact (huse h hj).imp_right .inr
  | block | leave | again | function | parameter => cases hj

end Scalars

/-! ### Trees in which names have their slots -/

/-- **Names are used as they are declared**: one without an index is bound to a scope around it that
declares a scalar of this name. -/
structure Tree.Housed (t : Tree) : Prop where
  scalars : ∀ id s, t.statement? id = some s → ∀ j ∈ s.scalars,
    ∃ x, j.binding = some x ∧ t.Within id.scope x ∧ t.HasSlot ⟨j.name, x, none⟩
  arrays : ∀ id i type place span,
    t.statement? id = some (.assign (.name i) (.new type place) true span) →
      ∃ element, i.type = some (.array element type.width)
  parameters : ∀ id i, t.statement? id = some (.parameter i) → Site.namesArray i = false
  /-- A scope declares a name once. -/
  distinct : ∀ id id' s s' i i', t.statement? id = some s → t.statement? id' = some s' →
    id'.scope = id.scope → s.declared? = some i → s'.declared? = some i' → i'.name = i.name →
      id' = id

section Housed

variable {tokens : List Token} {read bound : Tree} {id : StatementId} {s : Statement}
  {i : Identifier}

/-- **Whether a declaration is of an array** is known when it is read. -/
theorem declared_kept (hread : Parser.parse tokens = .ok read) (hbound : read.bindCalls = .ok bound)
    (hs : read.statement? id = some s) (hi : s.declared? = some i) :
    ∃ s' i', bound.inferTypes.statement? id = some s' ∧ s'.declared? = some i' ∧
      i'.name = i.name ∧ Site.namesArray i' = Site.namesArray i ∧
      (Site.namesArray i = true → i'.type = i.type) := by
  have hview : read.view .unbound = bound.view .unbound :=
    (Tree.view_bindCalls (fun _ => rfl) hbound).symm
  obtain ⟨s₁, hs₁, hlike⟩ := Tree.statement?_of_view hview.symm hs
  obtain ⟨i₁, hi₁, hsame⟩ := Statement.declared?_of_view hlike hi
  have hname := congrArg Identifier.name hsame
  have htype := congrArg Identifier.type hsame
  rw [Identifier.withType_name, Identifier.withType_name] at hname
  rw [Identifier.withType_type, Identifier.withType_type] at htype
  change i₁.type = i.type at htype
  have harray : Site.namesArray i₁ = Site.namesArray i := by rw [Site.namesArray, htype]; rfl
  have lexical : bound.Lexical := (Parser.parse_lexical hread).of_view hview
  obtain ⟨s', hs', hi', -⟩ := lexical.finished id s₁ i₁ hs₁ hi₁
  have retypes := bound.inferTypes.retypes_finalType
  refine ⟨s', _, hs', hi', hname, (retypes.namesArray_withType i₁).trans harray, fun hi => ?_⟩
  exact (retypes.array i₁ (harray.trans hi)).trans htype

theorem Statement.array_of_view {type : ValueType} {place span : Span}
    (h : s.view .bare = (Statement.assign (.name i) (.new type place) true span).view .bare) :
    ∃ i₀ place₀ span₀, s = .assign (.name i₀) (.new type place₀) true span₀ := by
  cases s with
  | assign target e initial span₀ =>
    cases target <;> cases initial <;> cases e <;>
      simp only [view, Target.view, Expression.view, assign.injEq, Target.name.injEq,
        Expression.new.injEq, and_true, reduceCtorEq, and_false, false_and] at h
    rename_i i₀ _ place₀
    exact ⟨i₀, place₀, span₀, by rw [h.2]⟩
  | _ => cases h

theorem Statement.parameter_of_view (h : s.view .bare = (Statement.parameter i).view .bare) :
    ∃ i₀, s = .parameter i₀ := by
  cases s with
  | parameter i₀ => exact ⟨i₀, rfl⟩
  | assign target => cases target <;> cases ‹Bool› <;> cases h
  | _ => cases h

/-- **In the tree of every source** names are used as they are declared. -/
theorem analyze_housed {source : String} {t : Tree} (h : analyze source = .ok t) : t.Housed := by
  obtain ⟨tokens, -, h⟩ := bind_ok h
  obtain ⟨read, hread, h⟩ := bind_ok h
  obtain ⟨bound, hbound, h⟩ := bind_ok h
  cases pure_ok h
  have wellFormed := Parser.parse_wellFormed hread
  have hbare := Tree.bare_inferTypes hbound
  have hslot : ∀ {id s i}, read.statement? id = some s → s.declared? = some i →
      Site.namesArray i = false → bound.inferTypes.HasSlot ⟨i.name, id.scope, none⟩ := by
    intro id s i hs hi hscalar
    obtain ⟨s', i', hs', hi', hname, hkept, -⟩ := declared_kept hread hbound hs hi
    exact ⟨id, s', i', hs', hi', hname ▸ .scalar (hkept.trans hscalar)⟩
  refine ⟨fun id s hs j hj => ?_, fun id i type place span hs => ?_, fun id i hs => ?_,
    fun _ _ _ _ _ _ => (Parser.parse_lexical hread).unique_of_view hbare⟩
  · obtain ⟨s₀, hs₀, hlike⟩ := Tree.statement?_of_view hbare hs
    obtain ⟨j₀, hj₀, hname, hbinding⟩ := Statement.mem_scalars_of_view hlike hj
    rw [← hname, ← hbinding]
    obtain ⟨hscalar, hdeclared | hused⟩ := (wellFormed.regular id s₀ hs₀).scalar hj₀
    · have hown := (Parser.parse_lexical hread).bound id s₀ j₀ hs₀ hdeclared
      exact ⟨id.scope, hown, .refl _ _, hslot hs₀ hdeclared hscalar⟩
    · obtain ⟨id', s', i, hs', hi, hbound', hsame, htype⟩ := wellFormed.types id s₀ hs₀ j₀ hused
      have hbinds := Parser.parse_bindsAround hread id s₀ hs₀ _ (List.mem_map_of_mem hused)
      obtain ⟨x, hx, hwithin⟩ := hbinds
      cases hbound'.symm.trans hx
      have hplain : Site.namesArray i = false := by
        rw [Site.namesArray, htype]
        exact hscalar
      refine ⟨id'.scope, hx, hwithin.congr fun x => ?_, hsame ▸ hslot hs' hi hplain⟩
      exact (Tree.shared_of_view hbare x).symm
  · obtain ⟨s₀, hs₀, hlike⟩ := Tree.statement?_of_view hbare hs
    obtain ⟨i₀, place₀, span₀, rfl⟩ := Statement.array_of_view hlike
    rcases wellFormed.regular id _ hs₀ with ⟨element, size, _, hnew, htype, -⟩ | ⟨-, hvalue⟩
    · cases hnew
      obtain ⟨s', i', hs', hi', -, -, hkept⟩ := declared_kept hread hbound hs₀ rfl
      cases hs.symm.trans hs'
      cases hi'
      exact ⟨element, (hkept (by rw [Site.namesArray, htype]; rfl)).trans htype⟩
    · exact hvalue.elim
  · obtain ⟨s₀, hs₀, hlike⟩ := Tree.statement?_of_view hbare hs
    obtain ⟨i₀, rfl⟩ := Statement.parameter_of_view hlike
    obtain ⟨s', i', hs', hi', -, hkept, -⟩ := declared_kept hread hbound hs₀ rfl
    cases hs.symm.trans hs'
    cases hi'
    exact hkept.trans (wellFormed.regular id _ hs₀)

end Housed

end RegisterMachine.Structured
