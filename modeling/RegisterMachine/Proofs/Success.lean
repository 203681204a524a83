import Mathlib.Data.List.Forall2

/-! # Computations that succeeded

What a computation that can fail did when it succeeded: each of its steps succeeded, and the results
were passed on. The lemmas take computations apart from the front, so that a proof about a reader or
an emitter names its intermediate results and never opens the monad.

`Outcome` speaks of both ends of a computation: what holds of its answer, and what of its error.
`Alike` does so of two computations together. -/

namespace RegisterMachine.Success

variable {ε ε' α β σ : Type}

/-! ### Answers and errors -/

/-- **What a computation comes to**: an answer with the property `P`, or an error with the property
`E`. -/
def Outcome (E : ε → Prop) (P : α → Prop) : Except ε α → Prop
  | .ok a => P a
  | .error e => E e

section Outcome

variable {E : ε → Prop} {P : α → Prop} {R : β → Prop} {x : Except ε α} {f : α → Except ε β}

theorem Outcome.bind (h : Outcome E P x) (hf : ∀ a, P a → Outcome E R (f a)) :
    Outcome E R (x >>= f) := by
  cases x with
  | error e => exact h
  | ok a => exact hf a h

theorem Outcome.mapError {f : ε → ε'} {E' : ε' → Prop} (h : Outcome E P x)
    (hE : ∀ e, E e → E' (f e)) : Outcome E' P (x.mapError f) := by
  cases x with
  | error e => exact hE e h
  | ok a => exact h

theorem Outcome.map {g : α → β} (h : Outcome E P x) (hPR : ∀ a, P a → R (g a)) :
    Outcome E R (x.map g) := by
  cases x with
  | error e => exact h
  | ok a => exact hPR a h

theorem Outcome.ok {a : α} (h : Outcome E P x) (ha : x = .ok a) : P a := by
  rw [ha] at h
  exact h

theorem Outcome.error {e : ε} (h : Outcome E P x) (he : x = .error e) : E e := by
  rw [he] at h
  exact h

theorem Outcome.mapM {f : α → Except ε β} {l : List α} (h : ∀ a ∈ l, Outcome E R (f a)) :
    Outcome E (∀ b ∈ ·, R b) (l.mapM f) := by
  induction l with
  | nil =>
    rw [List.mapM_nil]
    exact List.forall_mem_nil _
  | cons a l ih =>
    rw [List.mapM_cons]
    refine Outcome.bind (h a List.mem_cons_self) fun b hb => ?_
    refine Outcome.bind (ih fun a ha => h a (List.mem_cons_of_mem _ ha)) fun bs hbs => ?_
    exact List.forall_mem_cons.mpr ⟨hb, hbs⟩

end Outcome

/-- **Two computations come to the same**: to answers in the relation `R`, or to errors in the
relation `E`. -/
def Alike {ε' β : Type} (E : ε → ε' → Prop) (R : α → β → Prop) : Except ε α → Except ε' β → Prop
  | .ok a, .ok b => R a b
  | .error e, .error e' => E e e'
  | _, _ => False

section Alike

variable {α' β' : Type} {E : ε → ε' → Prop} {R : α → α' → Prop} {S : β → β' → Prop}
  {x : Except ε α} {y : Except ε' α'} {f : α → Except ε β} {g : α' → Except ε' β'}

theorem Alike.cases (h : Alike E R x y) : (∃ e e', x = .error e ∧ y = .error e' ∧ E e e') ∨
    ∃ a b, x = .ok a ∧ y = .ok b ∧ R a b := by
  cases x with
  | error e =>
    cases y with
    | error e' => exact .inl ⟨e, e', rfl, rfl, h⟩
    | ok b => exact h.elim
  | ok a =>
    cases y with
    | error e' => exact h.elim
    | ok b => exact .inr ⟨a, b, rfl, rfl, h⟩

theorem Alike.bind (h : Alike E R x y) (hf : ∀ a b, R a b → Alike E S (f a) (g b)) :
    Alike E S (x >>= f) (y >>= g) := by
  obtain ⟨e, e', rfl, rfl, he⟩ | ⟨a, b, rfl, rfl, hab⟩ := h.cases
  · exact he
  · exact hf a b hab

theorem Alike.map {f : α → β} {g : α' → β'} (h : Alike E R x y)
    (hf : ∀ a b, R a b → S (f a) (g b)) : Alike E S (x.map f) (y.map g) := by
  obtain ⟨e, e', rfl, rfl, he⟩ | ⟨a, b, rfl, rfl, hab⟩ := h.cases
  · exact he
  · exact hf a b hab

theorem Alike.mapError {δ δ' : Type} {D : δ → δ' → Prop} {f : ε → δ} {g : ε' → δ'}
    (h : Alike E R x y) (hE : ∀ e e', E e e' → D (f e) (g e')) :
    Alike D R (x.mapError f) (y.mapError g) := by
  obtain ⟨e, e', rfl, rfl, he⟩ | ⟨a, b, rfl, rfl, hab⟩ := h.cases
  · exact hE e e' he
  · exact hab

theorem Alike.refl {E : ε → ε → Prop} (hE : ∀ e, E e e) (x : Except ε α) : Alike E Eq x x := by
  cases x with
  | error e => exact hE e
  | ok a => rfl

/-- Computations that become the same by changes of their answers and errors. -/
theorem alike_of_map {γ δ : Type} {x : Except ε α} {y : Except ε α'} {f : α → γ} {g : α' → γ}
    {k : ε → δ} (h : (x.map f).mapError k = (y.map g).mapError k) :
    Alike (fun e e' => k e = k e') (fun a b => f a = g b) x y := by
  cases x with
  | error e =>
    cases y with
    | error e' => exact Except.error.inj h
    | ok b => cases h
  | ok a =>
    cases y with
    | error e' => cases h
    | ok b => exact Except.ok.inj h

theorem Alike.ok {a : α} (h : Alike E R x y) (ha : x = .ok a) : ∃ b, y = .ok b ∧ R a b := by
  obtain ⟨e, e', he, -⟩ | ⟨a', b, ha', hb, hab⟩ := h.cases
  · cases ha.symm.trans he
  · cases ha.symm.trans ha'
    exact ⟨b, hb, hab⟩

/-- Two computations are compared by a third. -/
theorem Alike.join {ε'' α'' : Type} {E' : ε'' → ε' → Prop} {R' : α'' → α' → Prop}
    {D : ε → ε'' → Prop} {T : α → α'' → Prop} {z : Except ε'' α''} (h : Alike E R x y)
    (h' : Alike E' R' z y) (hE : ∀ e d e', E e e' → E' d e' → D e d)
    (hR : ∀ a c b, R a b → R' c b → T a c) : Alike D T x z := by
  obtain ⟨e, e', rfl, rfl, he⟩ | ⟨a, b, rfl, rfl, hab⟩ := h.cases
  · cases z with
    | error d => exact hE e d e' he h'
    | ok c => exact h'.elim
  · cases z with
    | error d => exact h'.elim
    | ok c => exact hR a c b hab h'

theorem Alike.toOption {k : α → α'} (h : Alike E (fun a b => k a = b) x y) :
    y.toOption = x.toOption.map k := by
  obtain ⟨e, e', rfl, rfl, -⟩ | ⟨a, b, rfl, rfl, rfl⟩ := h.cases <;> rfl

/-- Rows of computations that come to the same, step by step. -/
theorem Alike.mapM {k : α → α'} {m : β → β'} {l : List α}
    (h : ∀ a ∈ l, Alike E (fun b b' => m b = b') (f a) (g (k a))) :
    Alike E (fun bs bs' => bs.map m = bs') (l.mapM f) ((l.map k).mapM g) := by
  induction l with
  | nil =>
    rw [List.map_nil, List.mapM_nil, List.mapM_nil]
    exact rfl
  | cons a l ih =>
    rw [List.map_cons, List.mapM_cons, List.mapM_cons]
    refine Alike.bind (h a List.mem_cons_self) fun b b' hb => ?_
    refine Alike.bind (ih fun a ha => h a (List.mem_cons_of_mem _ ha)) fun bs bs' hbs => ?_
    exact congr (congrArg List.cons hb) hbs

theorem Alike.arrayMapM {k : α → α'} {m : β → β'} {xs : Array α}
    (h : ∀ a ∈ xs.toList, Alike E (fun b b' => m b = b') (f a) (g (k a))) :
    Alike E (fun bs bs' => bs.map m = bs') (xs.mapM f) ((xs.map k).mapM g) := by
  rw [Array.mapM_eq_mapM_toList, Array.mapM_eq_mapM_toList, Array.toList_map]
  refine (Alike.mapM h).map fun bs bs' hbs => ?_
  rw [← hbs, List.map_toArray]

end Alike

/-! ### Computations that succeed -/

theorem bind_ok {x : Except ε α} {f : α → Except ε β} {b : β} (h : (x >>= f) = .ok b) :
    ∃ a, x = .ok a ∧ f a = .ok b := by
  cases x with
  | error e => cases h
  | ok a => exact ⟨a, rfl, h⟩

/-- Putting a computation together again: a first step that succeeded is left behind. -/
theorem bind_run {x : Except ε α} {f : α → Except ε β} {a : α} (h : x = .ok a) :
    (x >>= f) = f a := by
  rw [h]
  rfl

theorem pure_ok {a b : α} (h : (pure a : Except ε α) = .ok b) : a = b := by cases h; rfl

theorem map_ok {x : Except ε α} {f : α → β} {b : β} (h : x.map f = .ok b) :
    ∃ a, x = .ok a ∧ f a = b := by
  cases x with
  | error e => cases h
  | ok a => exact ⟨a, rfl, Except.ok.inj h⟩

theorem mapError_ok {x : Except ε α} {f : ε → ε'} {a : α} (h : x.mapError f = .ok a) :
    x = .ok a := by
  cases x with
  | error e => cases h
  | ok b => exact congrArg Except.ok (Except.ok.inj h)

theorem ok_of_toOption {x : Except ε α} {a : α} (h : x.toOption = some a) : x = .ok a := by
  cases x with
  | error e => cases h
  | ok b => exact congrArg Except.ok (Option.some.inj h)

/-- What a computation answers, without its errors. -/
theorem toOption_bind (x : Except ε α) (f : α → Except ε β) :
    (x >>= f).toOption = x.toOption.bind fun a => (f a).toOption := by
  cases x <;> rfl

theorem toOption_map (x : Except ε α) (f : α → β) : (x.map f).toOption = x.toOption.map f := by
  cases x <;> rfl

theorem toOption_arrayMapM (f : α → Except ε β) (xs : Array α) :
    (xs.mapM f).toOption = (xs.toList.mapM f).toOption.map List.toArray := by
  rw [Array.mapM_eq_mapM_toList]
  exact toOption_map _ _

/-- Rows of computations that answer alike, step by step. -/
theorem toOption_mapM {α' β' : Type} (f : α → Except ε β) (f' : α' → Except ε β') (g : α → α')
    (k : β → β') : ∀ {l : List α}, (∀ a ∈ l, (f' (g a)).toOption = (f a).toOption.map k) →
      ((l.map g).mapM f').toOption = (l.mapM f).toOption.map (List.map k)
  | [], _ => by
    rw [List.map_nil, List.mapM_nil, List.mapM_nil]
    rfl
  | a :: l, h => by
    rw [List.map_cons, List.mapM_cons, List.mapM_cons, toOption_bind, toOption_bind,
      h a List.mem_cons_self]
    cases (f a).toOption with
    | none => rfl
    | some b =>
      simp only [Option.map_some, Option.bind_some, toOption_bind,
        toOption_mapM f f' g k fun b hb => h b (List.mem_cons_of_mem _ hb)]
      cases (l.mapM f).toOption <;> rfl

theorem mapM_ok {f : α → Except ε β} :
    ∀ {l : List α} {l' : List β}, l.mapM f = .ok l' → List.Forall₂ (fun a b => f a = .ok b) l l'
  | [], l', h => by
    rw [List.mapM_nil] at h
    rw [← pure_ok h]
    exact .nil
  | a :: l, l', h => by
    rw [List.mapM_cons] at h
    obtain ⟨b, hb, h⟩ := bind_ok h
    obtain ⟨bs, hbs, h⟩ := bind_ok h
    rw [← pure_ok h]
    exact .cons hb (mapM_ok hbs)

/-- **A row of computations fails** just as its first step that fails. -/
theorem mapM_error_iff {f : α → Except ε β} {e : ε} {l : List α} : l.mapM f = .error e ↔
    ∃ before a after, l = before ++ a :: after ∧ (∀ b ∈ before, ∃ c, f b = .ok c) ∧
      f a = .error e := by
  induction l with
  | nil => simp [pure, Except.pure]
  | cons a l ih =>
    rw [List.mapM_cons]
    cases ha : f a with
    | error e' =>
      refine ⟨fun h => ⟨[], a, l, rfl, nofun, ?_⟩, ?_⟩
      · cases h
        exact ha
      rintro ⟨before, b, after, hl, hbefore, hb⟩
      cases before with
      | nil =>
        obtain ⟨rfl, -⟩ := List.cons.inj hl
        cases ha.symm.trans hb
        rfl
      | cons c before =>
        obtain ⟨rfl, -⟩ := List.cons.inj hl
        obtain ⟨d, hd⟩ := hbefore _ List.mem_cons_self
        cases ha.symm.trans hd
    | ok c =>
      have hrest : (Except.ok c >>= fun c => l.mapM f >>= fun cs => pure (c :: cs)) = .error e ↔
          l.mapM f = .error e := by
        cases hl : l.mapM f <;> simp [bind, Except.bind, pure, Except.pure]
      rw [hrest, ih]
      constructor
      · rintro ⟨before, b, after, rfl, hbefore, hb⟩
        exact ⟨a :: before, b, after, rfl, List.forall_mem_cons.mpr ⟨⟨c, ha⟩, hbefore⟩, hb⟩
      · rintro ⟨before, b, after, hl, hbefore, hb⟩
        cases before with
        | nil =>
          obtain ⟨rfl, -⟩ := List.cons.inj hl
          cases ha.symm.trans hb
        | cons d before =>
          obtain ⟨rfl, rfl⟩ := List.cons.inj hl
          exact ⟨before, b, after, rfl, (List.forall_mem_cons.mp hbefore).2, hb⟩

/-- What is kept by each step of a row is kept by the row. -/
theorem map_of_mapM {γ : Type} {f : α → Except ε β} {k : β → γ} {k' : α → γ} {l : List α}
    {l' : List β} (h : l.mapM f = .ok l') (hk : ∀ a b, f a = .ok b → k b = k' a) :
    l'.map k = l.map k' := by
  have hall := mapM_ok h
  clear h
  induction hall with
  | nil => rfl
  | cons hab _ ih => rw [List.map_cons, List.map_cons, hk _ _ hab, ih]

/-- A row of computations each of which succeeds. -/
theorem mapM_of_forall₂ {f : α → Except ε β} {γ : Type} {R : γ → β → Prop} {cs : List γ}
    {l : List α} (h : List.Forall₂ (fun c a => ∃ b, f a = .ok b ∧ R c b) cs l) :
    ∃ l', l.mapM f = .ok l' ∧ List.Forall₂ R cs l' := by
  induction h with
  | nil => exact ⟨[], rfl, .nil⟩
  | @cons c a cs l hab _ ih =>
    obtain ⟨b, hb, hR⟩ := hab
    obtain ⟨l', hl', hall⟩ := ih
    refine ⟨b :: l', ?_, .cons hR hall⟩
    rw [List.mapM_cons, hb, hl']
    rfl

theorem forall₂_imp_of_mem {R S : α → β → Prop} {l : List α} {l' : List β}
    (h : List.Forall₂ R l l') (hRS : ∀ a b, a ∈ l → R a b → S a b) : List.Forall₂ S l l' := by
  induction h with
  | nil => exact .nil
  | cons hab _ ih =>
    exact .cons (hRS _ _ List.mem_cons_self hab)
      (ih fun a b ha hR => hRS a b (List.mem_cons_of_mem _ ha) hR)

theorem exists_of_mem_left {R : α → β → Prop} {l : List α} {l' : List β}
    (h : List.Forall₂ R l l') {a : α} (ha : a ∈ l) : ∃ b ∈ l', R a b := by
  induction h with
  | nil => cases ha
  | @cons c b l l' hcb _ ih =>
    rcases List.mem_cons.mp ha with rfl | ha
    · exact ⟨b, List.mem_cons_self, hcb⟩
    · obtain ⟨d, hd, had⟩ := ih ha
      exact ⟨d, List.mem_cons_of_mem _ hd, had⟩

/-- Each result of a row of computations comes from one of them. -/
theorem exists_of_mem_right {R : α → β → Prop} {l : List α} {l' : List β}
    (h : List.Forall₂ R l l') {b : β} (hb : b ∈ l') : ∃ a ∈ l, R a b := by
  induction h with
  | nil => cases hb
  | @cons a c l l' hac _ ih =>
    rcases List.mem_cons.mp hb with rfl | hb
    · exact ⟨a, List.mem_cons_self, hac⟩
    · obtain ⟨d, hd, hdb⟩ := ih hb
      exact ⟨d, List.mem_cons_of_mem _ hd, hdb⟩

/-- The same by their places. -/
theorem exists_of_getElem?_left {R : α → β → Prop} {l : List α} {l' : List β}
    (h : List.Forall₂ R l l') {i : Nat} {a : α} (ha : l[i]? = some a) :
    ∃ b, l'[i]? = some b ∧ R a b := by
  induction h generalizing i with
  | nil => cases ha
  | @cons c b l l' hcb _ ih =>
    cases i with
    | zero =>
      cases ha
      exact ⟨b, rfl, hcb⟩
    | succ i =>
      rw [List.getElem?_cons_succ] at ha ⊢
      exact ih ha

theorem exists_of_getElem?_right {R : α → β → Prop} {l : List α} {l' : List β}
    (h : List.Forall₂ R l l') {i : Nat} {b : β} (hb : l'[i]? = some b) :
    ∃ a, l[i]? = some a ∧ R a b :=
  exists_of_getElem?_left (R := flip R) h.flip hb

/-- Taking apart a computation with a state: the state behind the first step is that in front of the
second. -/
theorem state_bind_ok {x : StateT σ (Except ε) α} {f : α → StateT σ (Except ε) β} {s s' : σ} {b : β}
    (h : (x >>= f) s = .ok (b, s')) : ∃ a s₁, x s = .ok (a, s₁) ∧ f a s₁ = .ok (b, s') := by
  obtain ⟨⟨a, s₁⟩, ha, h⟩ := bind_ok (x := x s) (f := fun p => f p.1 p.2) h
  exact ⟨a, s₁, ha, h⟩

/-- The same for a computation with a state. -/
theorem state_bind_run {x : StateT σ (Except ε) α} {f : α → StateT σ (Except ε) β} {s s₁ : σ}
    {a : α} (h : x s = .ok (a, s₁)) : (x >>= f) s = f a s₁ := by
  show (x s >>= fun p => f p.1 p.2) = f a s₁
  rw [h]
  rfl

theorem state_pure_ok {s s' : σ} {a b : α} (h : (pure a : StateT σ (Except ε) α) s = .ok (b, s')) :
    a = b ∧ s = s' := by
  cases h; exact ⟨rfl, rfl⟩

end RegisterMachine.Success
