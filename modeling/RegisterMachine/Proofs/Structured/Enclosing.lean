import RegisterMachine.Proofs.Structured.Scoping
import RegisterMachine.Proofs.Structured.WellFormed

/-! # The scopes around a scope

A search starts in a scope and goes through the scopes around it. It finds something in the nearest
scope that has it, and if it finds nothing, none of them has it.

* `Tree.Within`: a scope is in itself, and in the scopes around it.
* `Tree.HasFunction`, `function?_ok`, `function?_none`: the search for a function, both ways.
* `Tree.Signed`: parameters have scopes of their own, and these have no other statements.
* `Tree.BindsAround`: names are bound to scopes around them.
* `parse_signed`, `parse_bindsAround`: every tree that is read. -/

namespace RegisterMachine.Structured

open RegisterMachine.Success

/-! ### Scopes around a scope -/

/-- **The first scope is within the second**: they are the same, or the second is around it. -/
def Tree.Within (t : Tree) (x y : ScopeId) : Prop :=
  Relation.ReflTransGen (fun x y => y ∈ (t.scope x).shared) x y

section Within

variable {t t' : Tree} {P : ScopeId → Prop} {x y z : ScopeId}

theorem Tree.Within.refl (t : Tree) (x : ScopeId) : t.Within x x := Relation.ReflTransGen.refl

theorem Tree.Within.cons (hy : y ∈ (t.scope x).shared) (h : t.Within y z) : t.Within x z :=
  Relation.ReflTransGen.head hy h

/-- A scope is within itself, and within those that the scopes it shares are in. -/
theorem Tree.Within.cases (h : t.Within x z) :
    z = x ∨ ∃ y ∈ (t.scope x).shared, t.Within y z := by
  rcases Relation.ReflTransGen.cases_head h with rfl | ⟨y, hy, hyz⟩
  · exact .inl rfl
  · exact .inr ⟨y, hy, hyz⟩

theorem Tree.Within.congr (h : t.Within x y)
    (hshared : ∀ x, (t'.scope x).shared = (t.scope x).shared) : t'.Within x y := by
  induction h with
  | refl => exact .refl t' x
  | tail _ hy ih =>
    rw [← hshared] at hy
    exact Relation.ReflTransGen.tail ih hy

theorem Tree.Nearest.within (h : t.Nearest P x z) : t.Within x z := by
  induction h with
  | here => exact .refl t _
  | outward _ shares _ ih => exact ih.cons (by rw [shares]; exact List.mem_singleton_self _)

theorem Tree.Nearest.has (h : t.Nearest P x z) : P z := by
  induction h with
  | here has => exact has
  | outward _ _ _ ih => exact ih

/-- There is one nearest scope. -/
theorem Tree.Nearest.unique (h : t.Nearest P x y) (h' : t.Nearest P x z) : y = z := by
  induction h with
  | here has =>
    cases h' with
    | here => rfl
    | outward lacks => exact absurd has lacks
  | outward lacks shares _ ih =>
    cases h' with
    | here has => exact absurd has lacks
    | outward _ shares' further' =>
      cases shares.symm.trans shares'
      exact ih further'

theorem Tree.scope_of_size_le (h : t.scopes.size ≤ x) : t.scope x = {} := by
  rw [scope, Array.getD_eq_getD_getElem?, Array.getElem?_eq_none h]
  rfl

end Within

/-! ### Searches -/

section Search

variable {t : Tree} {α : Type} {find : Statement → Option α} {x y : ScopeId}

/-- A search that is deep enough and finds nothing has looked at all scopes around. -/
theorem searchTo_none (inward : t.Inward) {depth : Nat} (hdepth : x < depth)
    (h : t.searchTo find depth x = none) (hxy : t.Within x y) {id : StatementId} {s : Statement}
    (hs : t.statement? id = some s) (hid : id.scope = y) : find s = none := by
  induction depth generalizing x with
  | zero => exact absurd hdepth (Nat.not_lt_zero x)
  | succ depth ih =>
    rw [Tree.searchTo] at h
    split at h
    · -- outside the row of scopes there is no statement, and nothing is around
      rename_i hnone
      have hempty : t.scope x = {} := t.scope_of_size_le (Array.getElem?_eq_none_iff.mp hnone)
      rcases hxy.cases with rfl | ⟨z, hz, -⟩
      · rw [Tree.statement?_eq, hid, hempty] at hs
        cases hs
      · rw [hempty] at hz
        cases hz
    · rename_i scope hscope
      have hx : t.scope x = scope := by
        rw [Tree.scope, Array.getD_eq_getD_getElem?, hscope]
        rfl
      split at h
      · cases h
      · rename_i hown
        rcases hxy.cases with rfl | ⟨z, hz, hzy⟩
        · have hmem : (s, id.index) ∈ scope.statements.toList.zipIdx := by
            rw [List.mk_mem_zipIdx_iff_getElem?, Array.getElem?_toList, ← hx, ← hid,
              ← Tree.statement?_eq]
            exact hs
          have hno := List.findSome?_eq_none_iff.mp hown _ hmem
          simpa using hno
        · have hlt : z < x := inward x z hz
          have hnone := List.findSome?_eq_none_iff.mp h z (hx ▸ hz)
          exact ih (Nat.lt_of_lt_of_le hlt (Nat.le_of_lt_succ hdepth)) hnone hzy

/-- **A search that finds nothing** has looked at all scopes around. -/
theorem search_none (inward : t.Inward) (h : t.search x find = none) (hxy : t.Within x y)
    {id : StatementId} {s : Statement} (hs : t.statement? id = some s) (hid : id.scope = y) :
    find s = none := by
  by_cases hx : x < t.scopes.size
  · exact searchTo_none inward hx h hxy hs hid
  · have hempty : t.scope x = {} := t.scope_of_size_le (Nat.le_of_not_lt hx)
    rcases hxy.cases with rfl | ⟨z, hz, -⟩
    · rw [Tree.statement?_eq, hid, hempty] at hs
      cases hs
    · rw [hempty] at hz
      cases hz

/-- **The scope declares a function** of this name. -/
def Tree.HasFunction (t : Tree) (name : String) (x : ScopeId) : Prop :=
  ∃ id s, t.statement? id = some s ∧ id.scope = x ∧ s.declaresFunction name = true

variable {name : String} {id : StatementId}

/-- **The function that a scope sees** is in the nearest scope that declares one of the name. -/
theorem function?_ok (single : t.Single) (h : t.function? x name = some id) :
    t.Nearest (t.HasFunction name) x id.scope ∧
      ∃ s, t.statement? id = some s ∧ s.declaresFunction name = true := by
  obtain ⟨⟨place, u⟩, hsearch, rfl⟩ := Option.map_eq_some_iff.mp h
  have hfound : ∀ {s : Statement} {a : Unit},
      (if s.declaresFunction name then some () else none) = some a ↔
        s.declaresFunction name = true := by
    intro s a
    split <;> simp_all
  obtain ⟨s, hs, hfind, -⟩ := searchTo_ok hsearch
  refine ⟨?_, s, hs, hfound.mp hfind⟩
  refine (searchTo_nearest single hsearch).congr (Tree.Shares.refl t) fun x => ?_
  constructor
  · rintro ⟨id, s, a, hs, hx, hfind⟩
    exact ⟨id, s, hs, hx, hfound.mp hfind⟩
  · rintro ⟨id, s, hs, hx, hdeclares⟩
    exact ⟨id, s, (), hs, hx, hfound.mpr hdeclares⟩

/-- If no function is found, no scope around declares one of the name. -/
theorem function?_none (inward : t.Inward) (h : t.function? x name = none) (hxy : t.Within x y) :
    ¬ t.HasFunction name y := by
  rintro ⟨id, s, hs, hid, hdeclares⟩
  have hno := search_none inward (Option.map_eq_none_iff.mp h) hxy hs hid
  simp [hdeclares] at hno

end Search

/-! ### Well-formed trees -/

namespace Tree.WellFormed

variable {t : Tree}

theorem single (h : t.WellFormed) : t.Single := by
  intro x
  by_cases hx : x < t.scopes.size
  · by_cases hroot : x = rootScope
    · rw [hroot, h.root.2]
      exact Nat.zero_le 1
    · obtain ⟨id, s, outer, -, -, hshared, -⟩ := h.parent x hx hroot
      rw [hshared]
      exact Nat.le_refl 1
  · rw [t.scope_of_size_le (Nat.le_of_not_lt hx)]
    exact Nat.zero_le 1

theorem inward (h : t.WellFormed) : t.Inward := by
  intro x y hy
  by_cases hx : x < t.scopes.size
  · by_cases hroot : x = rootScope
    · rw [hroot, h.root.2] at hy
      cases hy
    · obtain ⟨id, s, outer, -, -, hshared, hlt⟩ := h.parent x hx hroot
      rw [hshared] at hy
      rw [List.mem_singleton.mp hy]
      exact hlt
  · rw [t.scope_of_size_le (Nat.le_of_not_lt hx)] at hy
    cases hy

end Tree.WellFormed

/-! ### Parameters -/

/-- The scope of the parameters of a function that is declared. -/
def Statement.signature? : Statement → Option ScopeId
  | function _ parameters _ _ _ => some parameters
  | _ => none

/-- **The scopes of parameters have no other statements.** -/
def Tree.Signed (t : Tree) : Prop :=
  ∀ id parameters body, t.Function id parameters body →
    ∀ s ∈ (t.scope parameters).statements.toList, ∃ i, s = .parameter i

section Signed

variable {t t' : Tree} {pending : List ScopeId} {scope : ScopeId} {s : Statement}

theorem Tree.Function.opened {id : StatementId} {parameters body : ScopeId}
    (h : t.Function id parameters body) :
    ∃ s, t.statement? id = some s ∧ parameters ∈ s.opened := by
  obtain ⟨i, returns, span, hs⟩ := h
  exact ⟨_, hs, by simp [Statement.opened]⟩

theorem Tree.Signed.of_view {v : View} (h : t.Signed) (hview : t.view v = t'.view v) :
    t'.Signed := by
  rintro id parameters body ⟨i, returns, span, hs⟩ s' hs'
  obtain ⟨s₀, hs₀, hlike⟩ := Tree.statement?_of_view hview hs
  have hf : t.Function id parameters body := by
    cases s₀ with
    | function i₀ parameters₀ body₀ returns₀ span₀ =>
      obtain ⟨-, rfl, rfl, -⟩ := Statement.function.inj hlike
      exact ⟨i₀, returns₀, span₀, hs₀⟩
    | assign target e initial span => cases target <;> cases initial <;> cases hlike
    | _ => cases hlike
  have hstatements := congrArg (fun t : Tree => (t.scope parameters).statements.toList) hview
  simp only [Tree.statements_view] at hstatements
  obtain ⟨s, hs, hsame⟩ := List.mem_map.mp (hstatements ▸ List.mem_map_of_mem hs')
  obtain ⟨i, rfl⟩ := h id parameters body hf s hs
  cases s' with
  | parameter i' => exact ⟨i', rfl⟩
  | assign target e initial span => cases target <;> cases initial <;> cases hsame
  | _ => cases hsame

theorem Tree.Signed.addScope (h : t.Signed) (owned : Owned pending t) (shared : List ScopeId) :
    (t.addScope shared).1.Signed := by
  rintro id parameters body ⟨i, returns, span, hs⟩
  rw [Drafted.statement?_addScope] at hs
  have hf : t.Function id parameters body := ⟨i, returns, span, hs⟩
  obtain ⟨s, hs, hopened⟩ := hf.opened
  rw [Parser.scope_addScope_of_lt (owned.range id s hs _ hopened).2]
  exact h id parameters body hf

/-- **A statement is put into a scope** that is not one of parameters: its parameters, if it has
any, are there already. -/
theorem Tree.Signed.push (h : t.Signed) (owned : Owned (s.opened ++ pending) t)
    (hscope : scope = rootScope ∨ scope ∈ pending)
    (hown : ∀ parameters ∈ s.signature?,
      ∀ s' ∈ (t.scope parameters).statements.toList, ∃ i, s' = .parameter i) :
    (t.push scope s).Signed := by
  rintro id parameters body ⟨i, returns, span, hs⟩
  have hother : parameters ≠ scope := by
    rintro rfl
    obtain ⟨s', hs', hopened⟩ :=
      Tree.Function.opened (t := t.push parameters s) ⟨i, returns, span, hs⟩
    have hafter : Owned pending (t.push parameters s) := owned.push
    rcases hscope with hroot | hpending
    · exact (hafter.range id s' hs' _ hopened).1 hroot
    · exact hafter.waiting _ hpending id s' hs' hopened
  rw [Parser.scope_push_of_ne hother]
  rcases Drafted.statement?_push hs with hold | ⟨-, rfl⟩
  · exact h id parameters body ⟨i, returns, span, hold⟩
  · exact hown parameters rfl

/-- A statement that declares no function. -/
theorem Tree.Signed.pushOther (h : t.Signed) (owned : Owned (s.opened ++ pending) t)
    (hscope : scope = rootScope ∨ scope ∈ pending) (hother : s.signature? = none) :
    (t.push scope s).Signed := by
  refine h.push owned hscope fun parameters hparameters => ?_
  rw [hother] at hparameters
  cases hparameters

end Signed

namespace Parser

theorem BuildsParameters.signed {T : Token → Prop} {scope : ScopeId} {t t' : Tree}
    {ps : List Identifier} {pending : List ScopeId} (hps : BuildsParameters T scope t ps t')
    (owned : Owned pending t) (hscope : scope ∈ pending) (h : t.Signed) : t'.Signed := by
  induction hps with
  | nil => exact h
  | cons _ _ _ ih =>
    exact ih (Owned.push (s := .parameter _) owned) (h.pushOther owned (.inr hscope) rfl)

/-- **The scopes of parameters stay their own** while statements are put into another scope. -/
theorem Builds.signed {d d' : Draft} {scope : ScopeId} {around : Surroundings}
    {l : List Statement} {used : List Token} (h : Builds d scope around l used d') :
    ∀ {pending : List ScopeId}, scope < d.tree.scopes.size → Formed pending d.tree →
      (scope = rootScope ∨ scope ∈ pending) → d.tree.Signed → d'.tree.Signed := by
  induction h with
  | nil => exact fun _ _ _ hd => hd
  | cons first _ ih ih' =>
    intro pending hlt hformed hscope hd
    exact ih' (Nat.lt_of_lt_of_le hlt first.grown.size) (first.formed hlt hformed) hscope
      (ih hlt hformed hscope hd)
  | plain statement =>
    intro pending hlt hformed hscope hd
    have hown : Owned pending _ := hformed.owned
    cases statement <;> exact hd.pushOther hown hscope rfl
  | give _ statement =>
    intro pending hlt hformed hscope hd
    obtain ⟨e, span, rfl, -⟩ := statement
    exact hd.pushOther (show Owned ([] ++ pending) _ from hformed.owned) hscope rfl
  | block opened body ih | loop _ _ opened body ih | branch _ _ opened body ih =>
    intro pending hlt hformed hscope hd
    cases opened
    have hinner := bodyFormed hformed hlt body.grown body.formed
    refine Tree.Signed.pushOther ?_ hinner.formed.owned hscope rfl
    exact ih (by simp) (hformed.addScope hlt) (.inr List.mem_cons_self)
      (hd.addScope hformed.owned _)
  | branchElse _ _ opened body opened' otherwise ih ih' =>
    intro pending hlt hformed hscope hd
    cases opened
    cases opened'
    have hinner := bodyFormed hformed hlt body.grown body.formed
    have hother := bodyFormed hinner.formed hinner.scope_lt otherwise.grown otherwise.formed
    refine Tree.Signed.pushOther ?_ hother.formed.owned hscope rfl
    refine ih' (by simp) (hinner.formed.addScope hinner.scope_lt) (.inr List.mem_cons_self) ?_
    refine Tree.Signed.addScope ?_ hinner.formed.owned _
    exact ih (by simp) (hformed.addScope hlt) (.inr List.mem_cons_self)
      (hd.addScope hformed.owned _)
  | @function d _ _ _ _ scope _ _ _ _ _ _ _ _ _ titles _ opened parameters opened' body _ ih =>
    intro pending hlt hformed hscope hd
    obtain ⟨rfl, rfl⟩ := addScope_ok opened
    obtain ⟨rfl, rfl⟩ := addScope_ok opened'
    have hheader := bodyFormed hformed hlt parameters.grown fun hlt h => parameters.formed hlt h
    have hinner := bodyFormed hheader.formed hheader.inner_lt body.grown body.formed
    have hsigned := parameters.signed (hformed.addScope hlt).owned List.mem_cons_self
      (hd.addScope hformed.owned _)
    refine Tree.Signed.push ?_ hinner.formed.owned hscope ?_
    · exact ih (by simp) (hheader.formed.addScope hheader.inner_lt) (.inr List.mem_cons_self)
        (hsigned.addScope hheader.formed.owned _)
    · rintro _ ⟨⟩ s' hs'
      -- the body leaves the scope of the parameters as it is
      have hkept := (body.grown.inside scope).keeps d.tree.scopes.size hheader.inner_lt
        (Nat.ne_of_gt hlt)
      rw [hkept, parameters.grown.own_new] at hs'
      obtain ⟨i', -, rfl⟩ := List.mem_map.mp hs'
      exact ⟨i', rfl⟩

/-- **In every tree that is read**, parameters are alone in their scopes. -/
theorem parse_signed {tokens : List Token} {t : Tree} (h : parse tokens = .ok t) : t.Signed := by
  obtain ⟨l, used, d, -, hbuilds, rfl⟩ := (parse_outcome tokens).ok h
  refine hbuilds.signed (by decide) Formed.empty (.inl rfl) ?_
  rintro id parameters body ⟨i, returns, span, hs⟩
  rw [Drafted.statement?_empty] at hs
  cases hs

end Parser

/-! ### The scopes that names are bound to -/

/-- **Names are bound to scopes around them.** -/
def Tree.BindsAround (t : Tree) : Prop :=
  ∀ id s, t.statement? id = some s → ∀ binding ∈ s.names.map Identifier.binding,
    ∃ y, binding = some y ∧ t.Within id.scope y

theorem Statement.bindings_view {v : View} (s : Statement) :
    (s.view v).names.map Identifier.binding = s.names.map Identifier.binding := by
  have hsame : ∀ names : List Identifier,
      (names.map fun j => j.withType (v.used j)).map Identifier.binding =
        names.map Identifier.binding := by
    intro names
    rw [List.map_map]
    rfl
  cases s with
  | assign target e initial span =>
    cases target <;> cases initial <;>
      simp only [view, Target.view, names, Expression.names_view, List.map_cons, List.map_append,
        hsame, Identifier.withType_binding]
  | branch e | loop e | give e | evaluate e =>
    rw [view, names, names, Expression.names_view, hsame]
  | block | leave | again | function | parameter => rfl

theorem Tree.shared_of_view {v : View} {t t' : Tree} (h : t.view v = t'.view v) (x : ScopeId) :
    (t.scope x).shared = (t'.scope x).shared := by
  have hscope := congrArg (fun t : Tree => (t.scope x).shared) h
  simpa only [scope_view, Scope.view] using hscope

theorem Tree.BindsAround.of_view {v : View} {t t' : Tree} (h : t.BindsAround)
    (hview : t.view v = t'.view v) : t'.BindsAround := by
  intro id s' hs' binding hbinding
  obtain ⟨s, hs, hlike⟩ := Tree.statement?_of_view hview hs'
  rw [← Statement.bindings_view (v := v), ← hlike, Statement.bindings_view] at hbinding
  obtain ⟨y, hy, hwithin⟩ := h id s hs binding hbinding
  exact ⟨y, hy, hwithin.congr fun x => (Tree.shared_of_view hview x).symm⟩

/-- **In every tree that is read**, names are bound to scopes around them. -/
theorem Parser.parse_bindsAround {tokens : List Token} {t : Tree} (h : parse tokens = .ok t) :
    t.BindsAround := by
  obtain ⟨t', ht', hview⟩ := (parse_alike (same_spread tokens)).ok h
  have hspread : t'.BindsAround := by
    intro id s hs binding hbinding
    obtain ⟨j, hj, rfl⟩ := List.mem_map.mp hbinding
    obtain ⟨id', i, -, hbound, -, hnearest⟩ :=
      (parse_nearest ht' (inOrder_spread tokens)).nearest id s hs j hj
    exact ⟨id'.scope, hbound, hnearest.within⟩
  exact hspread.of_view hview.symm

end RegisterMachine.Structured
