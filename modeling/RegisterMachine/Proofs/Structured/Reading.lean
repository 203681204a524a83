import Mathlib.Data.List.TakeWhile
import RegisterMachine.Proofs.Assembly.Scanning
import RegisterMachine.Proofs.Structured.Contents
import RegisterMachine.Structured.Token.Lexer
import RegisterMachine.Structured.Tree.Parser.Program

/-! # Names that are read

A name in a source is a word that is no keyword, so it has no line break in it. An expression is
written with names, digits and symbols, so its text is on one line if its parts are.

* `IsName`: a word that is no keyword; `tokenize_worded`: the names of every source.
* `clean_binary`, `clean_element`: texts on one line. -/

namespace RegisterMachine.Structured

open RegisterMachine.Success RegisterMachine.Text

/-! ### Words -/

/-- **A word**, as the lexer reads it. -/
def IsWord (word : String) : Prop :=
  ∃ c cs, word.toList = c :: cs ∧ isBlank c = false ∧ c.isDigit = false ∧ opensWord c = true ∧
    ∀ x ∈ cs, inWord x = true

/-- **A name**: a word that is no keyword. -/
structure IsName (name : String) : Prop where
  word : IsWord name
  free : Keyword.ofText? name = none

theorem isWord_keyword (k : Keyword) : IsWord k.text := by
  cases k <;>
    exact ⟨_, _, rfl, by decide, by decide, by decide, List.all_eq_true.mp (by decide)⟩

theorem clean_of_inWord {word : List Char} (h : ∀ c ∈ word, inWord c = true) :
    Clean (String.ofList word) := by
  intro c hc
  rw [String.toList_ofList] at hc
  have hword := h c hc
  constructor <;>
    · rintro rfl
      exact absurd hword (by decide)

theorem IsWord.clean {word : String} (h : IsWord word) : Clean word := by
  obtain ⟨c, cs, hword, -, -, hopens, hin⟩ := h
  rw [← String.ofList_toList (s := word), hword]
  refine clean_of_inWord fun d hd => ?_
  rcases List.mem_cons.mp hd with rfl | hd
  · exact inWord_of_opensWord hopens
  · exact hin d hd

/-! ### The names of a source -/

/-- A kind of tokens that is written with digits or letters. -/
def TokenKind.isWritten : TokenKind → Bool
  | .number | .identifier | .keyword _ => true
  | _ => false

theorem isWritten_ofDouble? {c d : Char} {kind : TokenKind}
    (h : TokenKind.ofDouble? c d = some kind) : kind.isWritten = false := by
  unfold TokenKind.ofDouble? at h
  dsimp only at h
  split at h
  · cases h
    rfl
  · split at h
    · cases h
      rfl
    · split at h
      · cases h
        rfl
      · obtain ⟨op, -, rfl⟩ := Option.map_eq_some_iff.mp h
        rfl

theorem isWritten_ofSingle? {c : Char} {kind : TokenKind} (h : TokenKind.ofSingle? c = some kind) :
    kind.isWritten = false := by
  unfold TokenKind.ofSingle? at h
  split at h
  all_goals first
    | cases h
      rfl
    | obtain ⟨op, -, rfl⟩ := Option.map_eq_some_iff.mp h
      rfl

theorem readSymbol_isWritten {start : Cursor} {c : Char} {text : List Char} {t : Token}
    {rest : Shorter (c :: text)} (h : readSymbol start c text = .ok (t, rest)) :
    t.kind.isWritten = false := by
  unfold readSymbol at h
  split at h
  · rename_i lexeme hdouble
    cases h
    cases text with
    | nil => cases hdouble
    | cons d text =>
      obtain ⟨kind, hkind, hlexeme⟩ := Option.map_eq_some_iff.mp hdouble
      cases hlexeme
      exact isWritten_ofDouble? hkind
  · split at h
    · rename_i kind hkind
      cases h
      exact isWritten_ofSingle? hkind
    · cases h

/-- **The names among the tokens** are names. -/
def Worded (tokens : List Token) : Prop := ∀ t ∈ tokens, t.kind = .identifier → IsName t.raw

theorem Worded.left {used rest : List Token} (h : Worded (used ++ rest)) : Worded used :=
  fun t ht => h t (List.mem_append_left _ ht)

theorem Worded.right {used rest : List Token} (h : Worded (used ++ rest)) : Worded rest :=
  fun t ht => h t (List.mem_append_right _ ht)

theorem wordToken_isName {start : Cursor} {word : List Char} (hword : IsWord (String.ofList word))
    (hkind : (wordToken start word).kind = .identifier) : IsName (wordToken start word).raw := by
  unfold wordToken at hkind ⊢
  dsimp only at hkind ⊢
  split at hkind
  · cases hkind
  · rename_i hfree
    exact ⟨hword, hfree⟩

theorem readLexeme_isName {start : Cursor} {c : Char} {text : List Char} {t : Token}
    {rest : Shorter (c :: text)} (hblank : isBlank c = false)
    (h : readLexeme start c text = .ok (t, rest)) (hkind : t.kind = .identifier) :
    IsName t.raw := by
  unfold readLexeme at h
  split at h
  · unfold readNumber at h
    dsimp only at h
    split at h
    · cases h
      cases hkind
    · cases h
  · rename_i hdigit
    split at h
    · rename_i hopens
      cases h
      refine wordToken_isName ⟨c, text.takeWhile inWord, String.toList_ofList, hblank,
        Bool.eq_false_iff.mpr hdigit, hopens, fun d hd => List.mem_takeWhile_imp hd⟩ hkind
    · have hsymbol := readSymbol_isWritten h
      rw [hkind] at hsymbol
      cases hsymbol

theorem scan_worded (found : Array Token) (place : Cursor) (text : List Char) :
    ∀ {tokens : Array Token}, scan found place text = .ok tokens → Worded found.toList →
      Worded tokens.toList := by
  fun_induction scan found place text with
  | case1 found place =>
    intro tokens h hfound
    cases h
    exact hfound
  | case2 _ _ _ _ _ ih => exact ih
  | case3 _ _ _ _ _ _ ih => exact ih
  | case4 => intro tokens h; cases h
  | case5 found place c text hblank _ token rest _ hread ih =>
    intro tokens h hfound
    refine ih h fun t ht hkind => ?_
    rw [Array.toList_push] at ht
    rcases List.mem_append.mp ht with ht | ht
    · exact hfound t ht hkind
    · rw [List.mem_singleton.mp ht] at hkind ⊢
      exact readLexeme_isName (Bool.eq_false_iff.mpr hblank) hread hkind

/-- **The names of a source are names.** -/
theorem tokenize_worded {source : String} {tokens : List Token}
    (h : tokenize source = .ok tokens) : Worded tokens := by
  obtain ⟨found, hfound, rfl⟩ := map_ok h
  exact scan_worded _ _ _ hfound fun _ ht => nomatch ht

/-! ### Texts on one line -/

theorem clean_symbol (op : Operator) : Clean op.symbol := by
  cases op <;> simp [Clean, Operator.symbol]

theorem clean_number (n : Nat) : Clean (toString n) := by
  intro c hc
  have hdigit : c.isDigit = true :=
    Assembly.isDigit_of_mem_digits (n := n) (by simpa [toString] using hc)
  constructor <;>
    · rintro rfl
      exact absurd hdigit (by decide)

theorem clean_type : ∀ (type : ValueType), Clean type.text
  | .int => by simp [Clean, ValueType.text]
  | .bool => by simp [Clean, ValueType.text]
  | .array element size => by
    have htext : (ValueType.array element size).text =
        element.text ++ "[" ++ toString size ++ "]" := by
      simp [ValueType.text, toString]
    rw [htext, clean_append, clean_append, clean_append]
    exact ⟨⟨⟨clean_type element, by simp [Clean]⟩, clean_number size⟩, by simp [Clean]⟩

theorem clean_element {i : Identifier} {index : Expression} {span : Span} (hi : Clean i.name)
    (h : Clean index.text) : Clean (Expression.element i index span).text := by
  simp only [Expression.text, clean_append]
  exact ⟨⟨⟨hi, by simp [Clean]⟩, h⟩, by simp [Clean]⟩

theorem clean_binary {op : Operator} {left right : Expression} {span : Span} (hl : Clean left.text)
    (hr : Clean right.text) : Clean (Expression.binary op left right span).text := by
  have hblank : Clean "(" ∧ Clean " " ∧ Clean ")" := by simp [Clean]
  simp only [Expression.text, clean_append]
  exact ⟨⟨⟨⟨⟨⟨hblank.1, hl⟩, hblank.2.1⟩, clean_symbol op⟩, hblank.2.1⟩, hr⟩, hblank.2.2⟩

end RegisterMachine.Structured
