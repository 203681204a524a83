import RegisterMachine.Proofs.Structured.Relaid

/-! # Lexical scoping

A name is bound while the statements around it are still being read, by a search of the tree as it
is then. The finished tree would often give another answer: a declaration that was read later, in a
nearer scope, was not there yet. So the order of the tokens comes in. Here the tokens have their
places on different lines, one after the other, and the lines say what stands before what.

* `Tree.Nearest`: the nearest scope with a property.
* `Tree.Precedes`: a declaration that is complete before a use.
* `Tree.Scoped`: every use is bound to the nearest such declaration, with `Scoped.push` and
  `Scoped.addScope`.
* `Builds.scoped`: it holds of every tree that is built from tokens in order.
* `parse_scoped`: every tree that is read is such a tree, but for its places. -/

namespace RegisterMachine.Structured

open RegisterMachine.Success

/-! ### The nearest scope -/

/-- **The nearest scope with a property**, from a scope on along the scopes that are shared. -/
inductive Tree.Nearest (t : Tree) (P : ScopeId → Prop) : ScopeId → ScopeId → Prop
  | here {x : ScopeId} (has : P x) : Nearest t P x x
  | outward {x y z : ScopeId} (lacks : ¬ P x) (shares : (t.scope x).shared = [y])
    (further : Nearest t P y z) : Nearest t P x z

/-- The statement declares the name. -/
def Tree.Declares (t : Tree) (id : StatementId) (i : Identifier) : Prop :=
  ∃ s, t.statement? id = some s ∧ s.declared? = some i

/-- No scope shares more than one other. -/
def Tree.Single (t : Tree) : Prop := ∀ x, (t.scope x).shared.length ≤ 1

/-- Whatever a scope shares in this tree, it shares in the other. -/
def Tree.Shares (t t' : Tree) : Prop :=
  ∀ x y, (t.scope x).shared = [y] → (t'.scope x).shared = [y]

theorem Tree.Shares.refl (t : Tree) : t.Shares t := fun _ _ h => h

section Nearest

variable {t t' : Tree} {P P' : ScopeId → Prop} {x z : ScopeId}

theorem Tree.Nearest.congr (h : t.Nearest P x z) (hshares : t.Shares t') (hP : ∀ x, P x ↔ P' x) :
    t'.Nearest P' x z := by
  induction h with
  | here has => exact .here ((hP _).mp has)
  | outward lacks shares _ ih =>
    exact .outward (fun h => lacks ((hP _).mpr h)) (hshares _ _ shares) ih

/-- **A search along the shared scopes** comes to the nearest scope with an answer. -/
theorem searchTo_nearest {α : Type} {find : Statement → Option α} (single : t.Single)
    {place : StatementId} {a : α} {depth : Nat} {x : ScopeId}
    (h : t.searchTo find depth x = some (place, a)) :
    t.Nearest (fun x => ∃ id s a, t.statement? id = some s ∧ id.scope = x ∧ find s = some a) x
      place.scope := by
  induction depth generalizing x with
  | zero => cases h
  | succ depth ih =>
    have hfound := searchTo_ok h
    rw [Tree.searchTo] at h
    split at h
    · cases h
    · rename_i scope hscope
      split at h
      · rename_i hit hfirst
        cases h
        obtain ⟨⟨s', index⟩, -, hs'⟩ := List.exists_of_findSome?_eq_some hfirst
        obtain ⟨found, -, heq⟩ := Option.map_eq_some_iff.mp hs'
        cases heq
        obtain ⟨s, hs, hfind, -⟩ := hfound
        exact .here ⟨_, s, _, hs, rfl, hfind⟩
      · rename_i hnone
        obtain ⟨y, hy, hnext⟩ := List.exists_of_findSome?_eq_some h
        have hshared : (t.scope x).shared = scope.shared := by
          rw [Tree.scope, Array.getD_eq_getD_getElem?, hscope]
          rfl
        refine .outward ?_ ?_ (ih hnext)
        · rintro ⟨id, s, a, hs, rfl, hfind⟩
          rw [Tree.statement?, hscope, Option.bind_some] at hs
          have hmem : (s, id.index) ∈ scope.statements.toList.zipIdx := by
            rw [List.mk_mem_zipIdx_iff_getElem?, Array.getElem?_toList]
            exact hs
          have hno := List.findSome?_eq_none_iff.mp hnone _ hmem
          simp [hfind] at hno
        · rw [hshared]
          have hone : scope.shared.length = 1 :=
            Nat.le_antisymm (hshared ▸ single x) (List.length_pos_of_mem hy)
          obtain ⟨y', hall⟩ := List.length_eq_one_iff.mp hone
          rw [hall] at hy ⊢
          rw [List.mem_singleton.mp hy]

/-- **The declaration that a scope sees** is in the nearest scope that declares the name. -/
theorem declaration?_nearest (single : t.Single) {name : String} {i : Identifier}
    (h : t.declaration? x name = some (z, i)) :
    t.Nearest (fun x => ∃ id i, t.Declares id i ∧ id.scope = x ∧ i.name = name) x z ∧
      ∃ id, t.Declares id i ∧ id.scope = z ∧ i.name = name := by
  obtain ⟨id, s, hs, hscope, hdeclared, hname, -⟩ := declaration?_ok h
  refine ⟨?_, id, ⟨s, hs, hdeclared⟩, hscope, hname⟩
  obtain ⟨⟨place, i'⟩, hsearch, heq⟩ := Option.map_eq_some_iff.mp h
  cases heq
  refine (searchTo_nearest single hsearch).congr (Tree.Shares.refl t) fun x => ?_
  constructor
  · rintro ⟨id, s, i, hs, hx, hfind⟩
    obtain ⟨hdeclared, hname⟩ := Option.filter_eq_some_iff.mp hfind
    exact ⟨id, i, ⟨s, hs, hdeclared⟩, hx, beq_iff_eq.mp hname⟩
  · rintro ⟨id, i, ⟨s, hs, hdeclared⟩, hx, hname⟩
    exact ⟨id, s, i, hs, hx, Option.filter_eq_some_iff.mpr ⟨hdeclared, beq_iff_eq.mpr hname⟩⟩

end Nearest

/-! ### What stands before what -/

/-- The statement declares or uses the name. -/
def Statement.Names (s : Statement) (i : Identifier) : Prop := s.declared? = some i ∨ i ∈ s.names

/-- **A declaration of the name that is complete before its use**: a statement declares the name
and all names in this statement stand on earlier lines, those of its initial value too. -/
def Tree.Precedes (t : Tree) (j : Identifier) (id : StatementId) (i : Identifier) : Prop :=
  ∃ s, t.statement? id = some s ∧ s.declared? = some i ∧ i.name = j.name ∧
    ∀ k, s.Names k → k.span.line < j.span.line

/-- A declaration in the scope precedes the use. -/
def Tree.DeclaresBefore (t : Tree) (j : Identifier) (x : ScopeId) : Prop :=
  ∃ id i, t.Precedes j id i ∧ id.scope = x

/-- **The use of a name is bound to the nearest declaration that precedes it**, and has its type. -/
def Tree.BindsNearest (t : Tree) (scope : ScopeId) (j : Identifier) : Prop :=
  ∃ id i, t.Precedes j id i ∧ j.binding = some id.scope ∧ j.type = i.type ∧
    t.Nearest (t.DeclaresBefore j) scope id.scope

/-- **Every use is bound to the nearest declaration that precedes it.** -/
structure Tree.Scoped (t : Tree) : Prop where
  single : t.Single
  nearest : ∀ id s, t.statement? id = some s → ∀ j ∈ s.names, t.BindsNearest id.scope j

/-- The names in the tree stand before the tokens. -/
def Tree.Before (t : Tree) (tokens : List Token) : Prop :=
  ∀ id s, t.statement? id = some s → ∀ i, s.Names i → ∀ u ∈ tokens, i.span.line < u.span.line

/-- **Tokens in order**, each on a line of its own. -/
def InOrder (tokens : List Token) : Prop := tokens.Pairwise fun u u' => u.span.line < u'.span.line

section Order

variable {t t' : Tree} {id : StatementId} {j : Identifier} {scope : ScopeId} {s : Statement}

theorem Tree.BindsNearest.congr (h : t.BindsNearest scope j) (hshares : t.Shares t')
    (hsame : ∀ id i, t.Precedes j id i ↔ t'.Precedes j id i) : t'.BindsNearest scope j := by
  obtain ⟨id, i, hprecedes, hbinding, htype, hnearest⟩ := h
  refine ⟨id, i, (hsame id i).mp hprecedes, hbinding, htype, hnearest.congr hshares fun x => ?_⟩
  simp only [DeclaresBefore, hsame]

theorem Tree.Precedes.grows {id : StatementId} {i : Identifier} (h : t.Precedes j id i)
    (hgrows : t.Grows t') : t'.Precedes j id i := by
  obtain ⟨s, hs, hrest⟩ := h
  exact ⟨s, hgrows id s hs, hrest⟩

theorem Tree.Shares.push (t : Tree) (scope : ScopeId) (s : Statement) :
    t.Shares (t.push scope s) := by
  intro x y h
  rw [Parser.shared_push]
  exact h

theorem Tree.Shares.trans {t₁ : Tree} (h : t.Shares t₁) (h' : t₁.Shares t') : t.Shares t' :=
  fun x y hx => h' x y (h x y hx)

/-- A scope that shares another is one of the tree. -/
theorem Parser.Grown.shares {l : List Statement} (h : Grown t t' scope l) : t.Shares t' := by
  intro x y hx
  have hlt : x < t.scopes.size := by
    by_contra hge
    have hnone : t.scopes[x]? = none := Array.getElem?_eq_none (Nat.le_of_not_lt hge)
    rw [Tree.scope, Array.getD_eq_getD_getElem?, hnone] at hx
    cases hx
  rw [h.shared hlt]
  exact hx

theorem Tree.Shares.addScope (t : Tree) (shared : List ScopeId) :
    t.Shares (t.addScope shared).1 :=
  ((Parser.Grown.refl (t.addScope shared).1 t.scopes.size).inside t.scopes.size).shares

/-- **The use of a name is bound** when the statement of the use is put into its scope. Since the
name was looked up, in the tree `t₀`, the tree has got only declarations that stand behind it. -/
theorem Parser.Uses.bindsNearest {t₀ : Tree} {T : Token → Prop} (huse : Uses T t₀ scope j)
    (single : t₀.Single) (hj : j ∈ s.names) (hshares : t₀.Shares t) (hgrows : t₀.Grows t)
    (hearlier : ∀ id s i u, t₀.statement? id = some s → s.Names i → T u →
      i.span.line < u.span.line)
    (hlater : ∀ id s i u, t.statement? id = some s → s.declared? = some i → T u →
      t₀.statement? id = some s ∨ u.span.line < i.span.line) :
    (t.push scope s).BindsNearest scope j := by
  obtain ⟨name, binding, declaration, hname, -, hdeclaration, rfl⟩ := huse
  obtain ⟨hnearest, id, ⟨s₀, hs₀, hdeclared⟩, rfl, hraw⟩ := declaration?_nearest single hdeclaration
  have hpush := hgrows.trans (Grown.push t scope s).grows
  have hprecedes : ∀ {id s' i}, t₀.statement? id = some s' → s'.declared? = some i →
      i.name = name.raw → (t.push scope s).Precedes
        ⟨name.raw, declaration.type, some id.scope, name.span⟩ id i := fun {id s' i} hs' hi hi' =>
    ⟨s', hpush _ _ hs', hi, hi', fun k hk => hearlier _ _ _ _ hs' hk hname⟩
  refine ⟨id, declaration, hprecedes hs₀ hdeclared hraw, rfl, rfl, ?_⟩
  refine hnearest.congr (hshares.trans (.push t scope s)) fun x => ?_
  constructor
  · rintro ⟨id', i, ⟨s', hs', hi⟩, hx, hi'⟩
    exact ⟨id', i, hprecedes hs' hi hi', hx⟩
  · rintro ⟨id', i, ⟨s', hs', hi, hi', hbefore⟩, hx⟩
    refine ⟨id', i, ?_, hx, hi'⟩
    rcases Drafted.statement?_push hs' with hold | ⟨-, rfl⟩
    · refine ⟨s', (hlater id' s' i name hold hi hname).resolve_right ?_, hi⟩
      exact Nat.lt_asymm (hbefore i (.inl hi))
    · exact absurd (hbefore _ (.inr hj)) (Nat.lt_irrefl _)

namespace Tree.Scoped

/-- A new scope. -/
theorem addScope (h : t.Scoped) (scope : ScopeId) : (t.addScope [scope]).1.Scoped where
  single x := by
    rcases Nat.lt_trichotomy x t.scopes.size with hx | rfl | hx
    · rw [Parser.scope_addScope_of_lt hx]
      exact h.single x
    · rw [Parser.scope_addScope_self]
      exact Nat.le_refl _
    · have hnone : (t.addScope [scope]).1.scopes[x]? = none :=
        Array.getElem?_eq_none (by rw [Parser.size_addScope]; exact hx)
      rw [Tree.scope, Array.getD_eq_getD_getElem?, hnone]
      exact Nat.zero_le _
  nearest id s hs j hj := by
    rw [Drafted.statement?_addScope] at hs
    refine (h.nearest id s hs j hj).congr (.addScope t [scope]) fun id' i => ?_
    simp only [Precedes, Drafted.statement?_addScope]

/-- **A statement is put into a scope.** The name that it declares stands behind the names that are
used in the tree. -/
theorem push (h : t.Scoped) (hused : ∀ j ∈ s.names, (t.push scope s).BindsNearest scope j)
    (hdeclared : ∀ i, s.declared? = some i → ∀ id s' j, t.statement? id = some s' → j ∈ s'.names →
      j.span.line < i.span.line) : (t.push scope s).Scoped where
  single x := by
    rw [Parser.shared_push]
    exact h.single x
  nearest id s' hs' j hj := by
    rcases Drafted.statement?_push hs' with hold | ⟨rfl, rfl⟩
    · refine (h.nearest id s' hold j hj).congr (.push t scope s) fun id' i => ?_
      refine ⟨fun hi => hi.grows (Parser.Grown.push t scope s).grows, ?_⟩
      rintro ⟨s₁, hs₁, hi, hname, hbefore⟩
      rcases Drafted.statement?_push hs₁ with hs₁ | ⟨-, rfl⟩
      · exact ⟨s₁, hs₁, hi, hname, hbefore⟩
      · exact absurd (hbefore i (.inl hi)) (Nat.lt_asymm (hdeclared i hi id s' j hold hj))
    · exact hused j hj

end Tree.Scoped

namespace Tree.Before

variable {tokens later : List Token}

theorem addScope (h : t.Before tokens) (shared : List ScopeId) :
    (t.addScope shared).1.Before tokens := by
  intro id s hs
  rw [Drafted.statement?_addScope] at hs
  exact h id s hs

theorem left (h : t.Before (tokens ++ later)) : t.Before tokens :=
  fun id s hs i hi u hu => h id s hs i hi u (List.mem_append_left _ hu)

theorem right (h : t.Before (tokens ++ later)) : t.Before later :=
  fun id s hs i hi u hu => h id s hs i hi u (List.mem_append_right _ hu)

end Tree.Before

end Order

namespace Parser

/-! ### Statements from tokens in order -/

section Statements

variable {T : Token → Prop} {base t t₀ : Tree} {scope : ScopeId} {s : Statement} {i : Identifier}
  {used later : List Token}

/-- **Every name comes from a token.** -/
theorem Made.word (hs : Made T t scope s) (hi : s.Names i) :
    ∃ name, T name ∧ name.kind = .identifier ∧ i.name = name.raw ∧ i.span = name.span := by
  have huses : ∀ {j}, Uses T t scope j →
      ∃ name, T name ∧ name.kind = .identifier ∧ j.name = name.raw ∧ j.span = name.span := by
    rintro j ⟨name, binding, declaration, hname, hkind, -, rfl⟩
    exact ⟨name, hname, hkind, rfl, rfl⟩
  cases hs with
  | plain forms =>
    rcases hi with hi | hi
    · exact (forms.declares hi).word
    · exact huses (forms.uses i hi)
  | give gives =>
    obtain ⟨e, span, rfl, value, -⟩ := gives
    exact huses (value.uses i (hi.resolve_left nofun))
  | loop condition | branch condition =>
    exact huses (condition.value.uses i (hi.resolve_left nofun))
  | block | function => exact hi.elim nofun nofun
  | parameter declares =>
    rcases hi with hi | hi
    · cases hi
      exact declares.word
    · cases hi

theorem NewMade.names (h : NewMade base (· ∈ used) t) {id : StatementId}
    (hs : t.statement? id = some s) (hi : s.Names i) :
    base.statement? id = some s ∨ ∃ u ∈ used, i.span = u.span := by
  rcases h id s hs with hold | ⟨t₀, hmade⟩
  · exact .inl hold
  · obtain ⟨name, hname, -, -, hspan⟩ := hmade.word hi
    exact .inr ⟨name, hname, hspan⟩

/-- What is made of tokens stands before those that follow them. -/
theorem NewMade.before (h : NewMade base (· ∈ used) t) (hbase : base.Before later)
    (horder : InOrder (used ++ later)) : t.Before later := by
  intro id s hs i hi u hu
  rcases h.names hs hi with hold | ⟨u', hu', hspan⟩
  · exact hbase id s hold i hi u hu
  · rw [hspan]
    exact (List.pairwise_append.mp horder).2.2 u' hu' u hu

/-- What is made of tokens stands behind those in front of them. -/
theorem NewMade.behind {head : List Token} (h : NewMade base (· ∈ used) t)
    (horder : InOrder (head ++ used)) (id : StatementId) (s : Statement) (i : Identifier)
    (u : Token) (hs : t.statement? id = some s) (hi : s.declared? = some i) (hu : u ∈ head) :
    base.statement? id = some s ∨ u.span.line < i.span.line := by
  refine (h.names hs (.inl hi)).imp_right fun ⟨u', hu', hspan⟩ => ?_
  rw [hspan]
  exact (List.pairwise_append.mp horder).2.2 u hu u' hu'

/-- A statement without bodies is put into its scope as soon as it is read. -/
theorem Made.scoped (hs : Made (· ∈ used) t scope s)
    (huses : ∀ j ∈ s.names, Uses (· ∈ used) t scope j) (h : t.Scoped) (hbefore : t.Before used) :
    (t.push scope s).Scoped := by
  refine h.push (fun j hj => ?_) fun i hi id s' j hs' hj => ?_
  · exact Uses.bindsNearest (huses j hj) h.single hj (.refl t) (fun _ _ hs => hs)
      (fun id s i u hs hi hu => hbefore id s hs i hi u hu) fun _ _ _ _ hs _ _ => .inl hs
  · obtain ⟨name, hname, -, -, hspan⟩ := hs.word (.inl hi)
    rw [hspan]
    exact hbefore id s' hs' j (.inr hj) name hname

/-- A statement with a condition is put into its scope when its bodies were read. -/
theorem IsCondition.scoped {e : Expression} {head : List Token}
    (he : IsCondition (· ∈ head) base scope e) (hnames : s.names = e.names)
    (hdeclared : s.declared? = none) (hbase : base.Scoped) (hbefore : base.Before head)
    (hgrown : Grown base t scope []) (hmade : NewMade base (· ∈ used) t)
    (horder : InOrder (head ++ used)) (h : t.Scoped) : (t.push scope s).Scoped := by
  refine h.push (fun j hj => ?_) fun i hi => absurd hi (by rw [hdeclared]; nofun)
  exact Uses.bindsNearest (he.value.uses j (hnames ▸ hj)) hbase.single hj hgrown.shares hgrown.grows
    (fun id s i u hs hi hu => hbefore id s hs i hi u hu) (hmade.behind horder)

/-- A statement that names nothing. -/
theorem scoped_pushBare (hnames : s.names = []) (hdeclared : s.declared? = none) (h : t.Scoped) :
    (t.push scope s).Scoped :=
  h.push (fun j hj => absurd hj (by rw [hnames]; nofun))
    fun i hi => absurd hi (by rw [hdeclared]; nofun)

theorem BuildsParameters.scoped {t' : Tree} {ps : List Identifier}
    (hps : BuildsParameters T scope t ps t') (h : t.Scoped)
    (hbefore : ∀ id s j u, t.statement? id = some s → j ∈ s.names → T u →
      j.span.line < u.span.line) : t'.Scoped := by
  induction hps with
  | nil => exact h
  | cons declares _ _ ih =>
    refine ih (h.push (fun _ hj => nomatch hj) fun i hi id s' j hs' hj => ?_)
      fun id s j u hs hj => ?_
    · cases hi
      obtain ⟨name, hname, -, -, hspan⟩ := declares.word
      rw [hspan]
      exact hbefore id s' j name hs' hj hname
    · rcases Drafted.statement?_push hs with hs | ⟨-, rfl⟩
      · exact hbefore id s j u hs hj
      · cases hj

/-- **Every use in a tree that is built from tokens in order** is bound to the nearest declaration
that precedes it. -/
theorem Builds.scoped {d d' : Draft} {around : Surroundings} {l : List Statement}
    (hl : Builds d scope around l used d') :
    InOrder used → d.tree.Before used → d.tree.Scoped → d'.tree.Scoped := by
  induction hl with
  | nil => exact fun _ _ h => h
  | cons first rest ih ih' =>
    intro horder hbefore h
    obtain ⟨hfirst, hrest, -⟩ := List.pairwise_append.mp horder
    have hmade := first.made (fun _ hu => hu) (NewMade.refl _)
    exact ih' hrest (hmade.before hbefore.right horder) (ih hfirst hbefore.left h)
  | plain statement =>
    exact fun _ hbefore h => (Made.plain statement).scoped statement.uses h hbefore
  | give _ statement =>
    intro _ hbefore h
    refine (Made.give statement).scoped ?_ h hbefore
    obtain ⟨e, span, rfl, value, -⟩ := statement
    exact value.uses
  | block opened _ ih =>
    intro horder hbefore h
    cases opened
    exact scoped_pushBare rfl rfl (ih horder (hbefore.addScope _) (h.addScope _))
  | loop condition _ opened body ih | branch condition _ opened body ih =>
    intro horder hbefore h
    have hgrown := body.grown.opened opened
    obtain ⟨-, hused, -⟩ := List.pairwise_append.mp horder
    cases opened
    have hmade := body.made (fun _ hu => hu) ((NewMade.refl _).addScope _)
    have hinner := ih hused (hbefore.right.addScope _) (h.addScope _)
    exact condition.scoped rfl rfl h hbefore.left hgrown hmade horder hinner
  | branchElse condition _ opened body opened' otherwise ih ih' =>
    intro horder hbefore h
    have hgrown := (body.grown.opened opened).trans (otherwise.grown.opened opened')
    obtain ⟨-, hboth, -⟩ := List.pairwise_append.mp horder
    obtain ⟨hused, hused', -⟩ := List.pairwise_append.mp hboth
    cases opened
    cases opened'
    -- the body stands before the tokens of the other one, and both behind the condition
    have hbody := body.made (fun _ hu => hu) ((NewMade.refl _).addScope _)
    have hmade := otherwise.made (fun _ hu => List.mem_append_right _ hu)
      ((body.made (fun _ hu => List.mem_append_left _ hu) ((NewMade.refl _).addScope _)).addScope _)
    have hinner := ih hused (hbefore.right.left.addScope _) (h.addScope _)
    have hother := ih' hused' ((hbody.before hbefore.right.right hboth).addScope _)
      (hinner.addScope _)
    exact condition.scoped rfl rfl h hbefore.left hgrown hmade horder hother
  | function titles _ opened parameters opened' body _ ih =>
    intro horder hbefore h
    obtain ⟨-, hused, -⟩ := List.pairwise_append.mp horder
    cases opened
    cases opened'
    have hheader := parameters.scoped (h.addScope _) fun id s j u hs hj hu =>
      hbefore.left.addScope _ id s hs j (.inr hj) u hu
    have hmade := parameters.made ((NewMade.refl _).addScope _)
    have hlater := hmade.before hbefore.right horder
    exact scoped_pushBare rfl rfl (ih hused (hlater.addScope _) (hheader.addScope _))

end Statements

/-! ### Whole trees -/

/-- **The tokens one below the other**: the line of a token is its index. -/
def spread (tokens : List Token) : List Token :=
  tokens.zipIdx.map fun (u, k) => { u with span := { line := k } }

theorem getElem?_spread (tokens : List Token) (k : Nat) :
    (spread tokens)[k]? = tokens[k]?.map fun u => { u with span := { line := k } } := by
  rw [spread, List.getElem?_map, List.getElem?_zipIdx, Option.map_map]
  simp [Function.comp_def]

theorem same_spread (tokens : List Token) : SameTokens tokens (spread tokens) := by
  rw [SameTokens, spread, List.forall₂_map_right_iff]
  refine List.forall₂_iff_get.mpr ⟨List.length_zipIdx.symm, fun k _ _ => ?_⟩
  simpa using ⟨rfl, rfl, rfl⟩

theorem inOrder_spread (tokens : List Token) : InOrder (spread tokens) := by
  rw [InOrder, List.pairwise_iff_getElem]
  intro k k' hk hk' hlt
  simpa [spread] using hlt

theorem exists_of_mem_spread {tokens : List Token} {u : Token} (hu : u ∈ spread tokens) :
    ∃ u', tokens[u.span.line]? = some u' ∧ u'.kind = u.kind ∧ u'.raw = u.raw := by
  obtain ⟨k, hk⟩ := List.getElem?_of_mem hu
  obtain ⟨u', hu', rfl⟩ := Option.map_eq_some_iff.mp (getElem?_spread tokens k ▸ hk)
  exact ⟨u', hu', rfl, rfl⟩

theorem scoped_empty : ({} : Tree).Scoped where
  single x := by
    cases x <;> exact Nat.zero_le 1
  nearest id s hs := absurd hs (by rw [Drafted.statement?_empty]; nofun)

/-- **In a tree of tokens in order** every use is bound to the nearest declaration before it. -/
theorem parse_nearest {tokens : List Token} {t : Tree} (h : parse tokens = .ok t)
    (horder : InOrder tokens) : t.Scoped := by
  obtain ⟨l, used, d, ⟨later, rfl⟩, hbuilds, rfl⟩ := (parse_outcome tokens).ok h
  have hbefore : ({} : Tree).Before used :=
    fun id s hs => absurd hs (by rw [Drafted.statement?_empty]; nofun)
  exact hbuilds.scoped (List.pairwise_append.mp horder).1 hbefore scoped_empty

/-- **Variables are bound lexically.** In a tree that is read, whatever the places of its tokens, a
use is bound to the nearest scope with a declaration of the name that is complete before the use.
This scope has no other declaration of the name, and the use has its type. The tree that is looked
at is the same but for places: in it, the line of a name is the index of its token. -/
theorem parse_scoped {tokens : List Token} {tree : Tree} (h : parse tokens = .ok tree) :
    ∃ t, parse (spread tokens) = .ok t ∧ t.view .unplaced = tree.view .unplaced ∧
      ∀ id s, t.statement? id = some s →
        (∀ i, s.Names i → ∃ u, tokens[i.span.line]? = some u ∧ u.kind = .identifier ∧
          u.raw = i.name) ∧
        ∀ j ∈ s.names, ∃ id' i, id' ≠ id ∧ t.Precedes j id' i ∧ j.binding = some id'.scope ∧
          j.type = i.type ∧ t.Nearest (t.DeclaresBefore j) id.scope id'.scope ∧
          ∀ id'' i'', t.Declares id'' i'' → id''.scope = id'.scope → i''.name = j.name →
            id'' = id' := by
  obtain ⟨t, ht, hsame⟩ := (parse_alike (same_spread tokens)).ok h
  refine ⟨t, ht, hsame.symm, fun id s hs => ⟨fun i hi => ?_, fun j hj => ?_⟩⟩
  · obtain ⟨t₀, hmade⟩ := parse_made ht hs
    obtain ⟨u, hu, hkind, hname, hspan⟩ := hmade.word hi
    obtain ⟨u', hu', hkind', hraw⟩ := exists_of_mem_spread hu
    exact ⟨u', hspan ▸ hu', hkind'.trans hkind, hraw.trans hname.symm⟩
  · obtain ⟨id', i, hprecedes, hbinding, htype, hnearest⟩ :=
      (parse_nearest ht (inOrder_spread tokens)).nearest id s hs j hj
    obtain ⟨s', hs', hi, hname, hbefore⟩ := hprecedes
    refine ⟨id', i, ?_, ⟨s', hs', hi, hname, hbefore⟩, hbinding, htype, hnearest, ?_⟩
    · rintro rfl
      cases hs.symm.trans hs'
      exact absurd (hbefore j (.inr hj)) (Nat.lt_irrefl _)
    · rintro id'' i'' ⟨s'', hs'', hi''⟩ hscope hname''
      exact (parse_lexical ht).unique id' id'' s' s'' i i'' hs' hs'' hscope hi hi''
        (hname''.trans hname.symm)

/-- The tokens of `int x = 1; { x = 2; int x = x; x = 3; }`. -/
def shadowTokens : List Token :=
  [.keyword .int, .named "x", .assign, .numbered 1, .semicolon, .leftBrace, .named "x", .assign,
    .numbered 2, .semicolon, .keyword .int, .named "x", .assign, .named "x", .semicolon,
    .named "x", .assign, .numbered 3, .semicolon, .rightBrace]

/-- In the block, a use before the declaration and the one in its initial value are bound to the
declaration outside. -/
theorem shadow_scoped : ∃ tree, parse shadowTokens = .ok tree ∧
    (tree.scope 1).statements.toList.map (fun s => s.names.map (·.binding)) =
      [[some 0], [some 0], [some 1]] ∧
    ∃ t, parse (spread shadowTokens) = .ok t ∧ t.view .unplaced = tree.view .unplaced ∧
      ∀ id s, t.statement? id = some s → ∀ j ∈ s.names, ∃ id' i, id' ≠ id ∧ t.Precedes j id' i ∧
        j.binding = some id'.scope ∧ t.Nearest (t.DeclaresBefore j) id.scope id'.scope := by
  have hbindings : (parse shadowTokens).toOption.map
      (fun t => (t.scope 1).statements.toList.map fun s => s.names.map (·.binding)) =
        some [[some 0], [some 0], [some 1]] := by decide_cbv
  obtain ⟨tree, htree, hbindings⟩ := Option.map_eq_some_iff.mp hbindings
  obtain ⟨t, ht, hview, hscoped⟩ := parse_scoped (ok_of_toOption htree)
  refine ⟨tree, ok_of_toOption htree, hbindings, t, ht, hview, fun id s hs j hj => ?_⟩
  obtain ⟨id', i, hother, hprecedes, hbinding, -, hnearest, -⟩ := (hscoped id s hs).2 j hj
  exact ⟨id', i, hother, hprecedes, hbinding, hnearest⟩

end Parser

end RegisterMachine.Structured
