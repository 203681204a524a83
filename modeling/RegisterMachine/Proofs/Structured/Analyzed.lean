import RegisterMachine.Proofs.Structured.Binding
import RegisterMachine.Proofs.Structured.Drawn
import RegisterMachine.Proofs.Structured.Indifference
import RegisterMachine.Proofs.Structured.Inferring
import RegisterMachine.Toolchain

/-! # Trees of sources

Binding the calls and filling in the types change neither the scopes that statements are given nor
the text of statements, so what reading establishes holds of the trees that are compiled.

* `Draws.drafted`: what holds of every tree that is read.
* `analyze_ok`: the tree of a source is the one that was read, but for calls and types.
* `Drafted.of_view`, `analyze_drafted`: what holds of the tree of every source, with
  `Drafted.separate` and `Drafted.clean` as consequences. -/

namespace RegisterMachine.Structured

open RegisterMachine.Success

/-! ### Trees that are read -/

section Drawn

variable {t : Tree} {scope : ScopeId} {pending : List ScopeId}

mutual

/-- The text of an expression is on one line. -/
theorem Expression.Readable.clean : ∀ {e : Expression}, e.Readable t scope → Clean e.text
  | .name _, h => h.1.word.clean
  | .number _ _, _ => clean_number _
  | .binary _ _ _ _, h => clean_binary (Readable.clean h.1) (Readable.clean h.2)
  | .element _ _ _, h => clean_element h.1.word.clean (Readable.clean h.2.2.2)
  | .new _ _, h => h.elim
  | .call _ _ _ _, h => clean_call.mpr ⟨h.1.word.clean, AllReadable.clean h.2.2.2.2⟩

theorem Expression.AllReadable.clean : ∀ {es : List Expression}, AllReadable t scope es →
    ∀ e ∈ es, Clean e.text
  | [], _, _, he => nomatch he
  | _ :: _, h, _, he => by
    rcases List.mem_cons.mp he with heq | he
    · exact heq ▸ Readable.clean h.1
    · exact AllReadable.clean h.2 _ he

end

namespace Parser

/-- The comment of a declaration or of an assignment is on one line. -/
theorem clean_assign {target : Target} {e : Expression} {initial : Bool} {span : Span}
    (ht : Clean target.text) (he : Clean e.text) :
    Clean (Statement.assign target e initial span).summary := by
  have hdeclare : Clean "declare " ∧ Clean "" ∧ Clean " = " := by simp [Clean]
  simp only [Statement.summary, clean_append]
  refine ⟨⟨⟨?_, ht⟩, hdeclare.2.2⟩, he⟩
  cases initial
  · exact hdeclare.2.1
  · exact hdeclare.1

/-- **A statement without bodies** opens no scope. -/
theorem Plain.single {around : Surroundings} {s : Statement} (h : Plain t scope around s) :
    s.Single scope := by
  cases h with
  | @array i element size place span declarable =>
    have hnew : Clean (Expression.new (.array element size) place).text := by
      rw [Expression.text, clean_append]
      exact ⟨by simp [Clean], clean_type _⟩
    refine ⟨⟨clean_assign declarable.name.word.clean hnew, ?_⟩, rfl⟩
    rintro i e span h
    cases h
    exact declarable.bound
  | declare span declarable scalar readable =>
    refine ⟨⟨clean_assign declarable.name.word.clean readable.clean, ?_⟩, rfl⟩
    rintro i e span h
    cases h
    exact declarable.bound
  | assign span target readable =>
    exact ⟨⟨clean_assign target.1.word.clean readable.clean, by simp⟩, rfl⟩
  | assignElement place span target readable =>
    exact ⟨⟨clean_assign target.clean readable.clean, by simp⟩, rfl⟩
  | leave | again => exact ⟨⟨by simp [Clean, Statement.summary], by simp⟩, rfl⟩
  | evaluate span readable => exact ⟨⟨readable.clean, by simp⟩, rfl⟩

theorem DrawsParameters.drafted {t' : Tree} {ps : List Identifier}
    (h : DrawsParameters scope t ps t') (ht : Drafted pending t) : Drafted pending t' := by
  induction h with
  | nil => exact ht
  | cons declarable scalar others ih =>
    have hclean : Clean ("argument " ++ _) :=
      clean_append.mpr ⟨by simp [Clean], declarable.name.word.clean⟩
    exact ih (ht.single ⟨⟨hclean, by simp⟩, rfl⟩)

/-- **The invariant is kept** while statements are put into scopes. A scope that is opened is
pending until its statement is there. -/
theorem Draws.drafted {d d' : Draft} {around : Surroundings} {l : List Statement}
    {tokens : List Token} (h : Draws d scope around l tokens d') :
    ∀ {pending : List ScopeId}, Drafted pending d.tree → Drafted pending d'.tree := by
  induction h with
  | nil => exact id
  | cons first rest ih ih' => exact fun hd => ih' (ih hd)
  | plain statement => exact fun hd => hd.single statement.single
  | give span inFunction readable =>
    exact fun hd => hd.single
      ⟨⟨clean_append.mpr ⟨by simp [Clean], readable.clean⟩, by simp⟩, rfl⟩
  | block opened body ih =>
    intro pending hd
    cases opened
    exact (ih (hd.addScope [_])).push ⟨by simp [Clean, Statement.summary], by simp⟩
  | loop span condition opened body ih | branch span condition opened body ih =>
    intro pending hd
    cases opened
    exact (ih (hd.addScope [_])).push
      ⟨clean_append.mpr ⟨by simp [Clean], condition.readable.clean⟩, by simp⟩
  | branchElse span condition opened body opened' otherwise ih ih' =>
    intro pending hd
    cases opened
    cases opened'
    exact (ih' ((ih (hd.addScope [_])).addScope [_])).push
      ⟨clean_append.mpr ⟨by simp [Clean], condition.readable.clean⟩, by simp⟩
  | function span name fresh bound scalar opened parameters opened' body returns ih =>
    intro pending hd
    obtain ⟨rfl, rfl⟩ := addScope_ok opened
    obtain ⟨rfl, rfl⟩ := addScope_ok opened'
    exact (ih ((parameters.drafted (hd.addScope [_])).addScope [_])).push
      ⟨clean_append.mpr ⟨by simp [Clean], name.word.clean⟩, by simp⟩

end Parser

end Drawn

/-! ### Trees that are the same but for calls and types -/

section Bare

variable {t t' : Tree} {s s' : Statement}

@[simp] theorem Statement.opened_view {v : View} (s : Statement) :
    (s.view v).opened = s.opened := by
  cases s with
  | assign target e initial span => cases target <;> cases initial <;> rfl
  | _ => rfl

theorem Statement.Proper.of_view {scope : ScopeId} (h : s.Proper scope)
    (hview : s.view .bare = s'.view .bare) : s'.Proper scope where
  clean := by
    have hsummary := congrArg Statement.summary hview
    rw [summary_view, summary_view] at hsummary
    exact hsummary ▸ h.clean
  bound := by
    rintro i' e' span' rfl
    cases s with
    | assign target e initial span =>
      cases target <;> cases initial <;> simp only [view, Target.view] at hview
      case name.true i =>
        obtain ⟨htarget, -⟩ := Statement.assign.inj hview
        have hbinding := congrArg Identifier.binding (Target.name.inj htarget)
        exact hbinding ▸ h.bound i e span rfl
      all_goals simp at hview
    | _ => cases hview

/-- **What reading establishes does not depend on calls and types.** -/
theorem Drafted.of_view {pending : List ScopeId} (h : Drafted pending t)
    (hview : t.view .bare = t'.view .bare) : Drafted pending t' := by
  have hsize : t.scopes.size = t'.scopes.size := by
    have hsize := congrArg (fun t : Tree => t.scopes.size) hview
    simpa only [Tree.size_view] using hsize
  have halike : ∀ id s', t'.statement? id = some s' →
      ∃ s, t.statement? id = some s ∧ s.opened = s'.opened ∧
        (s.Proper id.scope → s'.Proper id.scope) := by
    intro id s' hs'
    obtain ⟨s, hs, hlike⟩ := Tree.statement?_of_view hview hs'
    have hopened := congrArg Statement.opened hlike
    rw [Statement.opened_view, Statement.opened_view] at hopened
    exact ⟨s, hs, hopened, fun proper => proper.of_view hlike⟩
  obtain ⟨nonempty, pending_nodup, pending_range, waiting, nodup, range, once, proper⟩ := h
  refine ⟨hsize ▸ nonempty, pending_nodup, hsize ▸ pending_range, ?_, ?_, ?_, ?_, ?_⟩
  · intro x hx id s' hs'
    obtain ⟨s, hs, hopened, -⟩ := halike id s' hs'
    exact hopened ▸ waiting x hx id s hs
  · intro id s' hs'
    obtain ⟨s, hs, hopened, -⟩ := halike id s' hs'
    exact hopened ▸ nodup id s hs
  · intro id s' hs'
    obtain ⟨s, hs, hopened, -⟩ := halike id s' hs'
    exact hsize ▸ hopened ▸ range id s hs
  · intro id id' s₁' s₂' x h₁ h₂ hx₁ hx₂
    obtain ⟨s₁, hs₁, hopened₁, -⟩ := halike id s₁' h₁
    obtain ⟨s₂, hs₂, hopened₂, -⟩ := halike id' s₂' h₂
    exact once id id' s₁ s₂ x hs₁ hs₂ (hopened₁ ▸ hx₁) (hopened₂ ▸ hx₂)
  · intro id s' hs'
    obtain ⟨s, hs, -, hproper⟩ := halike id s' hs'
    exact hproper (proper id s hs)

end Bare

/-! ### All trees -/

/-- **Calls are bound and types filled in**, and nothing else is changed. -/
theorem Tree.bare_inferTypes {read bound : Tree} (h : read.bindCalls = .ok bound) :
    read.view .bare = bound.inferTypes.view .bare := by
  have htypes := congrArg (Tree.view .bare) bound.view_inferTypes
  rw [Tree.view_view, Tree.view_view] at htypes
  calc read.view .bare = bound.view .bare := (Tree.view_bindCalls (fun _ => rfl) h).symm
    _ = bound.inferTypes.view .bare := htypes.symm

/-- **The tree of a source** is the one that was read, but for calls and types. -/
theorem analyze_ok {source : String} {t : Tree} (h : analyze source = .ok t) :
    ∃ tokens read, tokenize source = .ok tokens ∧ Parser.parse tokens = .ok read ∧
      read.view .bare = t.view .bare := by
  obtain ⟨tokens, htokens, h⟩ := bind_ok h
  obtain ⟨read, hread, h⟩ := bind_ok h
  obtain ⟨bound, hbound, h⟩ := bind_ok h
  cases pure_ok h
  exact ⟨tokens, read, htokens, hread, Tree.bare_inferTypes hbound⟩

/-- **What holds of the tree of every source.** -/
theorem analyze_drafted {source : String} {t : Tree} (h : analyze source = .ok t) :
    Drafted [] t := by
  obtain ⟨tokens, read, htokens, hread, hview⟩ := analyze_ok h
  obtain ⟨l, written, d, hdraws, rfl⟩ := Parser.parse_draws (tokenize_worded htokens) hread
  exact (hdraws.drafted Drafted.empty).of_view hview

/-- A statement of a scope has a place. -/
theorem exists_place {t : Tree} {scope : ScopeId} {s : Statement}
    (h : s ∈ (t.scope scope).statements.toList) :
    ∃ index, t.statement? ⟨scope, index⟩ = some s := by
  obtain ⟨index, hindex⟩ := List.mem_iff_getElem?.mp h
  cases hscope : t.scopes[scope]? with
  | none =>
    rw [Tree.scope, Array.getD_eq_getD_getElem?, hscope] at hindex
    cases hindex
  | some x =>
    rw [Tree.scope, Array.getD_eq_getD_getElem?, hscope] at hindex
    refine ⟨index, ?_⟩
    rw [Tree.statement?, hscope]
    simpa using hindex

namespace Drafted

variable {pending : List ScopeId} {t : Tree}

theorem clean (h : Drafted pending t) : t.Clean := by
  intro scope s hs
  obtain ⟨index, hplace⟩ := exists_place hs
  exact (h.proper _ s hplace).clean

theorem bound (h : Drafted pending t) {scope : ScopeId} {i : Identifier} {e : Expression}
    {span : Span} (hs : .assign (.name i) e true span ∈ (t.scope scope).statements.toList) :
    i.binding = some scope := by
  obtain ⟨index, hplace⟩ := exists_place hs
  exact (h.proper _ _ hplace).bound i e span rfl

/-- A function is given its parameters and its body. -/
theorem opened_function {id : StatementId} {parameters body : ScopeId}
    (hf : t.Function id parameters body) :
    ∃ s, t.statement? id = some s ∧ s.opened = [body, parameters] ∧ s.bodies = [] := by
  obtain ⟨f, returns, place, hf⟩ := hf
  exact ⟨_, hf, rfl, rfl⟩

theorem bodies_subset (s : Statement) : ∀ x ∈ s.bodies, x ∈ s.opened := by
  intro x hx
  cases s <;> simp [Statement.bodies, Statement.opened] at hx ⊢
  case branch condition body otherwise span =>
    rcases hx with hx | hx
    · exact .inr hx
    · exact .inl hx
  all_goals exact hx

/-- **Each function has parameters of its own.** -/
theorem separate (h : Drafted pending t) : t.Separate where
  unique := by
    intro id id' parameters body body' hf hf'
    obtain ⟨s, hs, hopened, -⟩ := opened_function hf
    obtain ⟨s', hs', hopened', -⟩ := opened_function hf'
    exact h.once id id' s s' parameters hs hs' (by simp [hopened]) (by simp [hopened'])
  not_entered := by
    intro id parameters body a hf henters
    obtain ⟨s, hs, hopened, hbodies⟩ := opened_function hf
    have hmem : parameters ∈ s.opened := by simp [hopened]
    rcases henters with hb | ⟨id', -, parameters', hf'⟩
    · obtain ⟨s', hs', hb⟩ := List.mem_flatMap.mp hb
      obtain ⟨index, hplace⟩ := exists_place hs'
      have hid := h.once _ _ s s' _ hs hplace hmem (bodies_subset s' _ hb)
      rw [← hid, hs] at hplace
      cases hplace
      rw [hbodies] at hb
      cases hb
    · obtain ⟨s', hs', hopened', -⟩ := opened_function hf'
      have hid := h.once _ _ s s' _ hs hs' hmem (by simp [hopened'])
      rw [← hid, hs] at hs'
      cases hs'
      rw [hopened] at hopened'
      cases hopened'
      have hnodup := h.nodup id s hs
      rw [hopened] at hnodup
      simp at hnodup
  not_root := by
    intro id parameters body hf
    obtain ⟨s, hs, hopened, -⟩ := opened_function hf
    exact (h.range id s hs parameters (by simp [hopened])).1

end Drafted

end RegisterMachine.Structured
