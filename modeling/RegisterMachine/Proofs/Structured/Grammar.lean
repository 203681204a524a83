import RegisterMachine.Proofs.Structured.Drawing

/-! # How expressions may be written

Products bind their operands more strongly than sums, and sums more strongly than comparisons;
operators of equal strength are grouped from the left. So a left operand may stand without
parentheses if its operator binds at least as strongly as the one behind it, and a right operand
only if it binds more strongly. Parentheses may stand where they are not needed.

* `Operator.strength`: how strongly an operator binds.
* `Written`: an expression as an operand, with the parentheses that it needs and any others.
* `Readable.written`: with parentheses around every operation, an expression may stand anywhere. -/

namespace RegisterMachine.Structured

/-- **How strongly an operator binds its operands.** -/
def Operator.strength : Operator → Nat
  | multiply | divide => 2
  | add | subtract => 1
  | equal | notEqual | greaterThan | lessThan | greaterThanOrEqual | lessThanOrEqual => 0

mutual

/-- **The expression may be written with these tokens** where an operand without parentheses has to
bind at least so strongly. -/
inductive Written : Nat → Expression → List Token → Prop
  | name (n : Nat) (i : Identifier) : Written n (.name i) [.named i.name]
  | number (n : Nat) (value : UInt32) (span : Span) :
    Written n (.number value span) [.numbered value]
  | element (n : Nat) {i : Identifier} {index : Expression} {span : Span} {tokens : List Token}
    (inside : Written 0 index tokens) :
    Written n (.element i index span) (.named i.name :: .leftBracket :: (tokens ++ [.rightBracket]))
  | call (n : Nat) {i : Identifier} {es : List Expression} {resolved : Option StatementId}
    {span : Span} {tokens : List Token} (inside : WrittenAll es tokens) :
    Written n (.call i es resolved span)
      (.named i.name :: .leftParen :: (tokens ++ [.rightParen]))
  | binary {n : Nat} {op : Operator} {left right : Expression} {span : Span}
    {tokens tokens' : List Token} (strong : n ≤ op.strength)
    (first : Written op.strength left tokens) (second : Written (op.strength + 1) right tokens') :
    Written n (.binary op left right span) (tokens ++ .operator op :: tokens')
  | parens (n : Nat) {e : Expression} {tokens : List Token} (inside : Written 0 e tokens) :
    Written n e (.leftParen :: (tokens ++ [.rightParen]))

/-- Arguments, with commas between them. -/
inductive WrittenAll : List Expression → List Token → Prop
  | nil : WrittenAll [] []
  | last {e : Expression} {tokens : List Token} (argument : Written 0 e tokens) :
    WrittenAll [e] tokens
  | cons {e next : Expression} {es : List Expression} {tokens others : List Token}
    (argument : Written 0 e tokens) (rest : WrittenAll (next :: es) others) :
    WrittenAll (e :: next :: es) (tokens ++ .comma :: others)

end

section Grammar

variable {t : Tree} {scope : ScopeId}

/-- **The first token of an expression** is a name, a number or a parenthesis. -/
theorem Written.head : ∀ {n : Nat} {e : Expression} {tokens : List Token}, Written n e tokens →
    ∃ u us, tokens = u :: us ∧
      (u.kind = .identifier ∨ u.kind = .number ∨ u.kind = .leftParen)
  | _, _, _, .name _ _ | _, _, _, .element _ _ | _, _, _, .call _ _ => ⟨_, _, rfl, .inl rfl⟩
  | _, _, _, .number _ _ _ => ⟨_, _, rfl, .inr (.inl rfl)⟩
  | _, _, _, .parens _ _ => ⟨_, _, rfl, .inr (.inr rfl)⟩
  | _, _, _, .binary _ first _ => by
    obtain ⟨u, us, rfl, hu⟩ := Written.head first
    exact ⟨u, _, List.cons_append, hu⟩

theorem WrittenAll.head {es : List Expression} {tokens : List Token} (h : WrittenAll es tokens)
    (hne : es ≠ []) : ∃ u us, tokens = u :: us ∧
      (u.kind = .identifier ∨ u.kind = .number ∨ u.kind = .leftParen) := by
  cases h with
  | nil => exact absurd rfl hne
  | last argument => exact argument.head
  | cons argument others =>
    obtain ⟨u, us, rfl, hu⟩ := argument.head
    exact ⟨u, _, List.cons_append, hu⟩

theorem Expression.tokens_binary (op : Operator) (left right : Expression) (span : Span) :
    (Expression.binary op left right span).tokens =
      .leftParen :: ((left.tokens ++ .operator op :: right.tokens) ++ [.rightParen]) := by
  rw [Expression.tokens, List.append_assoc, List.cons_append]

mutual

/-- **With parentheses around every operation** an expression may stand anywhere. -/
theorem Expression.Readable.written : ∀ {e : Expression}, e.Readable t scope →
    ∀ n, Written n e e.tokens
  | .name i, _ => fun n => .name n i
  | .number value span, _ => fun n => .number n value span
  | .binary op left right span, h => fun n => by
    rw [Expression.tokens_binary]
    exact .parens n (.binary (Nat.zero_le _) (Expression.Readable.written h.1 _)
      (Expression.Readable.written h.2 _))
  | .element i index span, h => fun n => .element n (Expression.Readable.written h.2.2.2 0)
  | .new type span, h => h.elim
  | .call i es resolved span, h => fun n => .call n (Expression.AllReadable.written h.2.2.2.2)

theorem Expression.AllReadable.written : ∀ {es : List Expression},
    Expression.AllReadable t scope es → WrittenAll es (Expression.argumentTokens es)
  | [], _ => .nil
  | [_], h => .last (Expression.Readable.written h.1 0)
  | _ :: _ :: _, h =>
    .cons (Expression.Readable.written h.1 0) (Expression.AllReadable.written h.2)

end

end Grammar

end RegisterMachine.Structured
