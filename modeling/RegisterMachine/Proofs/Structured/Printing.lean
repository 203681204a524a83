import RegisterMachine.Proofs.Structured.Drawn
import RegisterMachine.Proofs.Structured.Redrawing
import RegisterMachine.Proofs.Structured.Writing

/-! # Printing and reading

The text of a tree is a source of the same tree, places apart. Every tree that is read has a
derivation (`parse_draws`); the text spells the tokens of the derivation (`Draws.text_closed`), and
from these the same statements are read (`Draws.reads`).

* `Closed.tokenize`: from texts to rows of tokens.
* `Draws.reread`: from a derivation back to the tree. -/

namespace RegisterMachine.Structured

open RegisterMachine.Success

variable {text : String} {tokens written : List Token} {t t' : Tree}

/-- A closed text is tokenized. -/
theorem Closed.tokenize (h : Closed text written) :
    ∃ tokens, tokenize text = .ok tokens ∧ tokens.map Token.bare = written := by
  obtain ⟨more, place, hscan, hmore⟩ := h #[] {} [] trivial
  rw [List.append_nil, scan] at hscan
  refine ⟨more, ?_, hmore⟩
  rw [Structured.tokenize, hscan]
  simp [Except.map]

/-- **Trees are written alike** if a view that keeps the types of declarations shows no
difference. -/
theorem Tree.text_of_view {v : View} (hv : v.declared = Identifier.type)
    (h : t.view v = t'.view v) : t.text = t'.text := by
  have hkeeps : ∀ statements, v.Keeps statements := fun _ _ _ i _ => congrFun hv i
  rw [← Tree.text_view (t := t) fun _ => hkeeps _, h, Tree.text_view fun _ => hkeeps _]

/-- **A tree with a derivation is read again** from its text. -/
theorem Parser.Draws.reread {d : Draft} {l : List Statement}
    (h : Draws {} rootScope {} l written d) :
    ∃ tokens t, Structured.tokenize d.tree.text = .ok tokens ∧ parse tokens = .ok t ∧
      t.Same d.tree := by
  obtain ⟨tokens, htokens, hbare⟩ := h.text_closed.tokenize
  have hbegins : Begins tokens written [] := ⟨tokens, (List.append_nil _).symm, hbare⟩
  obtain ⟨e, hlike, hcontinues⟩ := h.reads (endOfTokens tokens) ⟨rfl, rfl⟩ hbegins
    fun _ _ hrest => nomatch hrest
  obtain ⟨r, hstatements, -⟩ := hcontinues false e (.all []) (by rw [statements]; rfl)
  exact ⟨tokens, e.tree, htokens, by rw [parse, hstatements]; rfl, hlike.tree⟩

end RegisterMachine.Structured
