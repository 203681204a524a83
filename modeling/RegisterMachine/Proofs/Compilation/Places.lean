import RegisterMachine.Proofs.Compilation.RoundTrip
import RegisterMachine.Proofs.Structured.Indifference
import RegisterMachine.Proofs.Structured.Inferring
import RegisterMachine.Proofs.Structured.Printing
import RegisterMachine.Proofs.Structured.Recursion

/-! # Places do not matter to the compiler

The places of tokens are kept in the tree and told in errors. No pass goes by them: parsing, binding
calls, filling in types and emitting come to the same for tokens that differ in nothing else.

* `bindCalls_same`, `inferTypes_same`, `emit_same`: the passes behind the parser, one by one.
* `Tree.Compiles`: what is made of two trees is the same.
* `passes_alike`: the passes, one behind the other. -/

namespace RegisterMachine.Structured

open RegisterMachine.Success

section Passes

variable {t t' : Tree}

theorem Error.Same.join {e e' d : Error} (h : e.Same d) (h' : e'.Same d) : e.Same e' :=
  ⟨h.code.trans h'.code.symm, h.detail.trans h'.detail.symm⟩

theorem Refusal.Same.join {r r' d : Refusal} (h : r.Same d) (h' : r'.Same d) : r.Same r' := by
  cases r <;> cases r' <;> cases d <;> first | exact Error.Same.join h h' | trivial

/-- **Calls are bound** to the same functions, or refused with the same words. -/
theorem bindCalls_same (h : t.Same t') : Alike Error.Same Tree.Same t.bindCalls t'.bindCalls := by
  have hview := Tree.bindCalls_alike (v := .unplaced) (fun _ => rfl) t
  rw [show t.view .unplaced = t'.view .unplaced from h] at hview
  exact hview.join (Tree.bindCalls_alike (fun _ => rfl) t') (fun _ _ _ => Error.Same.join)
    fun _ _ _ hb hb' => hb.trans hb'.symm

/-- **The same types** are filled in. -/
theorem inferTypes_same (h : t.Same t') : t.inferTypes.Same t'.inferTypes := by
  show t.inferTypes.view .unplaced = t'.inferTypes.view .unplaced
  rw [← Tree.inferTypes_unplaced, ← Tree.inferTypes_unplaced,
    show t.view .unplaced = t'.view .unplaced from h]

/-- **The same code** is emitted, or refused with the same words. -/
theorem emit_same (h : t.Same t') : Alike Refusal.Same Eq t.emit t'.emit := by
  have hunused : t.view .unused = t'.view .unused := by
    have hviews := congrArg (Tree.view .unused) (show t.view .unplaced = t'.view .unplaced from h)
    rwa [Tree.view_view, Tree.view_view] at hviews
  have hview := emit_alike t
  rw [hunused] at hview
  exact hview.join (emit_alike t') (fun _ _ _ => Refusal.Same.join)
    fun _ _ _ he he' => he.trans he'.symm

end Passes

/-- The refusals are errors that are the same but for their places. -/
def Refusal.SameError (r r' : Refusal) : Prop := ∃ e e', r = .error e ∧ r' = .error e' ∧ e.Same e'

/-- **What is made of two trees**, once their calls are bound, is the same: the text of the tree
with its types, and the code with its symbols and the number of its registers, or the error of the
emitter but for its place. -/
def Tree.SameCompilation (t t' : Tree) : Prop :=
  t.inferTypes.text = t'.inferTypes.text ∧
    Alike Refusal.SameError Eq t.inferTypes.emit t'.inferTypes.emit

/-- **Places do not matter.** Of tokens that are the same but for their places, both rows or none
are parsed, and then of both or none the calls are bound. What is made of the trees is the same, and
a pass that refuses the ones refuses the others with the same words. -/
theorem passes_alike {tokens tokens' : List Token} (h : SameTokens tokens tokens') :
    Alike Error.Same
      (fun t t' : Tree => Alike Error.Same Tree.SameCompilation t.bindCalls t'.bindCalls)
      (Parser.parse tokens) (Parser.parse tokens') := by
  obtain ⟨e, e', hread, hread', he⟩ | ⟨t, t', hread, hread', ht⟩ := (Parser.parse_alike h).cases
  · rw [hread, hread']
    exact he
  rw [hread, hread']
  obtain ⟨e, e', hbound, hbound', he⟩ | ⟨b, b', hbound, hbound', hb⟩ := (bindCalls_same ht).cases
  · show Alike _ _ t.bindCalls t'.bindCalls
    rw [hbound, hbound']
    exact he
  show Alike _ _ t.bindCalls t'.bindCalls
  rw [hbound, hbound']
  have hinferred := inferTypes_same hb
  refine ⟨Tree.text_of_view rfl hinferred, ?_⟩
  obtain ⟨r, r', hr, hr', hsame⟩ | ⟨emission, _, hemit, hemit', rfl⟩ := (emit_same hinferred).cases
  · rw [hr, hr']
    -- emitting comes to an end, so that what is refused is an error
    cases r with
    | endless => exact ((arranged_of_stages hread hbound).blames hr).elim
    | error e =>
      cases r' with
      | endless => exact hsame.elim
      | error e' => exact ⟨e, e', rfl, rfl, hsame⟩
  · rw [hemit, hemit']
    rfl

/-- The tokens of a source, and one below the other. -/
theorem countdown_passes_alike : tokenize countdown = .ok countdownTokens ∧
    SameTokens countdownTokens (Parser.spread countdownTokens) ∧
    Alike Error.Same
      (fun t t' : Tree => Alike Error.Same Tree.SameCompilation t.bindCalls t'.bindCalls)
      (Parser.parse countdownTokens) (Parser.parse (Parser.spread countdownTokens)) :=
  ⟨tokenize_countdown, Parser.same_spread _, passes_alike (Parser.same_spread _)⟩

end RegisterMachine.Structured
