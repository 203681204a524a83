import RegisterMachine.Proofs.Compilation.RoundTrip
import RegisterMachine.Proofs.Structured.Binding
import RegisterMachine.Proofs.Structured.Indifference
import RegisterMachine.Proofs.Structured.Printing
import RegisterMachine.Proofs.Structured.Settling

/-! # Sources that were printed

The text of a tree is again a source. It has other places, and braces and parentheses of its own,
and neither the parser nor the compiler sees a difference.

* `printed_parses`: it is read as the same tree.
* `analyze_text`: it is analyzed to the same tree, also with types filled in.
* `printed_compiles`: it is compiled to the same assembly. -/

namespace RegisterMachine

open RegisterMachine.Structured RegisterMachine.Success

/-! ### The tree -/

/-- **Printing a tree and reading it back is the identity**, places apart. -/
theorem printed_parses {source : String} {tokens : List Token} {t : Tree}
    (htokens : tokenize source = .ok tokens) (htree : Parser.parse tokens = .ok t) :
    ∃ tokens' t', tokenize t.text = .ok tokens' ∧ Parser.parse tokens' = .ok t' ∧
      t'.view .unplaced = t.view .unplaced ∧ t'.text = t.text := by
  obtain ⟨l, written, d, hdraws, rfl⟩ := Parser.parse_draws (tokenize_worded htokens) htree
  obtain ⟨tokens', t', htokens', htree', hsame⟩ := hdraws.reread
  exact ⟨tokens', t', htokens', htree', hsame, Tree.text_of_view rfl hsame⟩

theorem countdown_parses : ∃ t, tokenize countdown = .ok countdownTokens ∧
    Parser.parse countdownTokens = .ok t ∧ t.scopes.size = 2 ∧
    ∃ tokens' t', tokenize t.text = .ok tokens' ∧ Parser.parse tokens' = .ok t' ∧
      t'.view .unplaced = t.view .unplaced := by
  have hsize : (Parser.parse countdownTokens).toOption.map (fun t => t.scopes.size) = some 2 := by
    decide_cbv
  obtain ⟨t, ht, hsize⟩ := Option.map_eq_some_iff.mp hsize
  have htree := ok_of_toOption ht
  obtain ⟨tokens', t', htokens', htree', hview, -⟩ := printed_parses tokenize_countdown htree
  exact ⟨t, tokenize_countdown, htree, hsize, tokens', t', htokens', htree', hview⟩

/-! ### The assembly -/

theorem dropsCalls_unbound : View.unbound.DropsCalls := fun _ => rfl

/-- **The text of an analyzed tree is analyzed to that tree**, but for places and the types of some
names that are used. -/
theorem analyze_text {source : String} {t : Tree} (h : analyze source = .ok t) :
    ∃ t', analyze t.text = .ok t' ∧ t'.view .unused = t.view .unused := by
  obtain ⟨tokens, htokens, h⟩ := bind_ok h
  obtain ⟨read, hread, h⟩ := bind_ok h
  obtain ⟨bound, hbound, h⟩ := bind_ok h
  cases pure_ok h
  obtain ⟨l, written, d, hdraws, rfl⟩ := Parser.parse_draws (tokenize_worded htokens) hread
  have hlexical : bound.Lexical :=
    (Parser.parse_lexical hread).of_view (Tree.view_bindCalls dropsCalls_unbound hbound).symm
  -- the text is that of the tree with all names typed as in the end, and so it is read as that tree
  have hsettled : bound.inferTypes.text =
      (d.view (.typed bound.inferTypes.finalType)).tree.text := by
    rw [Tree.text_of_view rfl hlexical.view_settled]
    refine Tree.text_of_view (v := .unbound) rfl ?_
    rw [Tree.settled, Parser.Draft.view, Tree.view_view, Tree.view_view]
    exact Tree.view_bindCalls (fun _ => rfl) hbound
  obtain ⟨written', hdraws'⟩ := hdraws.view bound.inferTypes.retypes_finalType
  rw [Parser.Draft.view_empty] at hdraws'
  obtain ⟨tokens', read', htokens', hread', hsame⟩ := hdraws'.reread
  -- its calls are bound to the same functions
  have hbound' : read'.bindCalls.toOption.map (Tree.view .unplaced) = some bound.settled := by
    have hview : read'.view .unplaced = d.tree.view (.typed bound.inferTypes.finalType) :=
      hsame.trans (Tree.view_view _)
    rw [← Tree.bindCalls_view fun _ => rfl, hview, Tree.bindCalls_view fun _ => rfl, hbound]
    rfl
  obtain ⟨bound', hbound', hview⟩ := Option.map_eq_some_iff.mp hbound'
  -- and no types are left to be filled in
  have hinferred : bound'.inferTypes.view .unplaced = bound.settled := by
    rw [← Tree.inferTypes_unplaced, hview, hlexical.inferTypes_settled]
  refine ⟨bound'.inferTypes, ?_, ?_⟩
  · rw [analyze, hsettled, bind_run htokens', bind_run hread', bind_run (ok_of_toOption hbound')]
    rfl
  · have hunused := Tree.view_view (v := .unused) (w := .unplaced) bound'.inferTypes
    rw [hinferred] at hunused
    exact hunused.symm.trans hlexical.view_settled.symm

/-- **The text of a compiled tree is compiled to the same assembly.** -/
theorem printed_compiles {source : String} {c : Compilation} (h : compile source = .ok c) :
    ∃ c', compile c.tree.text = .ok c' ∧ c'.tree.text = c.tree.text ∧
      c'.emission = c.emission := by
  obtain ⟨tree, htree, h⟩ := bind_ok h
  obtain ⟨emission, hemission, h⟩ := bind_ok h
  cases pure_ok h
  obtain ⟨tree', htree', hview⟩ := analyze_text (mapError_ok htree)
  have hemission' : tree'.emit = .ok emission := by
    refine ok_of_toOption ?_
    rw [← emit_unused, hview, emit_unused, mapError_ok hemission]
    rfl
  exact ⟨⟨tree', emission⟩, compile_of_emit htree' hemission', Tree.text_of_view rfl hview, rfl⟩

theorem countdown_compiles_again : ∃ c c', compile countdown = .ok c ∧
    c.emission.registerCount = 1 ∧ compile c.tree.text = .ok c' ∧ c'.tree.text = c.tree.text ∧
    c'.emission = c.emission := by
  obtain ⟨c, hc, -, hcount⟩ := compile_countdown
  obtain ⟨c', hc', htext, hemission⟩ := printed_compiles hc
  exact ⟨c, c', hc, hcount, hc', htext, hemission⟩

end RegisterMachine
