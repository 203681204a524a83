import RegisterMachine.Proofs.Assembly.Scanning
import RegisterMachine.Proofs.Structured.Reading

/-! # Text that is read as given tokens

A text spells a row of tokens if they are what is scanned of it, places apart, whatever stands
behind it. A word, a number or an operator would go on if the wrong character followed, so such a
text spells its token only in front of a character that parts lexemes.

* `Closed`, `Spells`: texts and their tokens, in front of anything or of a part.
* `Closed.append`, `Closed.spells`, `Spells.closed`: texts one behind the other. -/

namespace RegisterMachine.Structured

open RegisterMachine.Success RegisterMachine.Text

/-! ### Tokens without their places -/

namespace Token

/-- The token without its place. -/
def bare (t : Token) : Token := { t with span := {} }

def named (name : String) : Token := ⟨.identifier, .name name, {}, name⟩

def numbered (value : UInt32) : Token := ⟨.number, .number value, {}, toString value.toNat⟩

def keyword (k : Keyword) : Token := ⟨.keyword k, .none, {}, k.text⟩

def symbol (kind : TokenKind) (text : String) : Token := ⟨kind, .none, {}, text⟩

def operator (op : Operator) : Token := symbol (.binary op) op.symbol

def assign : Token := symbol .assign "="

def arrow : Token := symbol .arrow "->"

def leftParen : Token := symbol .leftParen "("

def rightParen : Token := symbol .rightParen ")"

def leftBrace : Token := symbol .leftBrace "\x7b"

def rightBrace : Token := symbol .rightBrace "\x7d"

def leftBracket : Token := symbol .leftBracket "["

def rightBracket : Token := symbol .rightBracket "]"

def semicolon : Token := symbol .semicolon ";"

def comma : Token := symbol .comma ","

end Token

/-! ### Texts and their tokens -/

/-- A character that parts lexemes: none goes on with it. -/
def isPart (c : Char) : Bool := " ()[],;".toList.contains c

/-- **The text is read as these tokens**, if what stands behind it is as `behind` says. -/
def Scanned (behind : List Char → Prop) (text : String) (tokens : List Token) : Prop :=
  ∀ found place rest, behind rest → ∃ (more : List Token) (place' : Cursor),
    scan found place (text.toList ++ rest) = scan (found ++ more.toArray) place' rest ∧
      more.map Token.bare = tokens

/-- The text is read as these tokens, whatever stands behind it. -/
def Closed : String → List Token → Prop := Scanned fun _ => True

/-- The text is read as these tokens, if a part stands behind it. -/
def Spells : String → List Token → Prop := Scanned fun rest => ∃ c cs, rest = c :: cs ∧ isPart c

section Composition

variable {text text' : String} {tokens tokens' : List Token} {behind behind' : List Char → Prop}

theorem Scanned.append (h : Scanned behind text tokens) (h' : Scanned behind' text' tokens')
    (hbehind : ∀ rest, behind' rest → behind (text'.toList ++ rest)) :
    Scanned behind' (text ++ text') (tokens ++ tokens') := by
  intro found place rest hrest
  obtain ⟨more, place₁, hscan, hmore⟩ := h found place (text'.toList ++ rest) (hbehind rest hrest)
  obtain ⟨more', place₂, hscan', hmore'⟩ := h' (found ++ more.toArray) place₁ rest hrest
  refine ⟨more ++ more', place₂, ?_, by rw [List.map_append, hmore, hmore']⟩
  rw [String.toList_append, List.append_assoc, hscan, hscan', Array.append_assoc]
  simp

theorem closed_empty : Closed "" [] := fun _ place _ _ => ⟨[], place, by simp, rfl⟩

theorem Closed.append (h : Closed text tokens) (h' : Closed text' tokens') :
    Closed (text ++ text') (tokens ++ tokens') :=
  Scanned.append h h' fun _ _ => trivial

/-- A text that goes on to a part. -/
theorem Closed.append_spells (h : Closed text tokens) (h' : Spells text' tokens') :
    Spells (text ++ text') (tokens ++ tokens') :=
  Scanned.append h h' fun _ _ => trivial

/-- A text that starts with a part closes the one before it. -/
theorem Spells.append {c : Char} {cs : List Char} (h : Spells text tokens)
    (h' : Closed text' tokens') (htext : text'.toList = c :: cs) (hc : isPart c = true) :
    Closed (text ++ text') (tokens ++ tokens') :=
  Scanned.append h h' fun rest _ => ⟨c, cs ++ rest, by rw [htext, List.cons_append], hc⟩

theorem Closed.spells (h : Closed text tokens) : Spells text tokens :=
  fun found place rest _ => h found place rest trivial

end Composition

/-! ### Single lexemes -/

section Lexemes

variable {found : Array Token} {place : Cursor} {c d : Char} {rest : List Char}

theorem scan_read {token : Token} {text : List Char} {tail : Shorter (c :: text)}
    (hblank : isBlank c = false) (hcomment : opensComment (c :: text) = false)
    (hread : readLexeme place c text = .ok (token, tail)) :
    scan found place (c :: text) =
      scan (found.push token) (place.skip token.span.length) tail.1 := by
  rw [scan, if_neg (by simp [hblank]), if_neg (by simp [hcomment]), hread]

theorem closed_blank (h : isBlank c = true) : Closed (String.ofList [c]) [] := by
  intro found place rest _
  refine ⟨[], place.next c, ?_, rfl⟩
  rw [String.toList_ofList, List.cons_append, List.nil_append, scan, if_pos h]
  simp

theorem closed_indent (level : Nat) : Closed (Tree.indent level) [] := by
  have hblanks : ∀ n, Closed (String.ofList (List.replicate n ' ')) [] := by
    intro n
    induction n with
    | zero => exact closed_empty
    | succ n ih =>
      rw [List.replicate_succ, ← List.singleton_append, String.ofList_append]
      exact (closed_blank (by decide)).append ih
  exact hblanks _

theorem isPart_cases (h : isPart c = true) :
    c = ' ' ∨ c = '(' ∨ c = ')' ∨ c = '[' ∨ c = ']' ∨ c = ',' ∨ c = ';' := by
  have hmem : c ∈ " ()[],;".toList := List.contains_iff_mem.mp h
  simpa using hmem

theorem inWord_of_isPart (h : isPart c = true) : inWord c = false := by
  rcases isPart_cases h with rfl | rfl | rfl | rfl | rfl | rfl | rfl <;> decide

theorem isDigit_of_isPart (h : isPart c = true) : c.isDigit = false := by
  rcases isPart_cases h with rfl | rfl | rfl | rfl | rfl | rfl | rfl <;> decide

theorem ne_slash_of_isPart (h : isPart c = true) : c ≠ '/' := by
  rcases isPart_cases h with rfl | rfl | rfl | rfl | rfl | rfl | rfl <;> decide

/-- A word in front of a part. -/
theorem spells_word {word : String} (h : IsWord word) :
    Spells word [(wordToken {} word.toList).bare] := by
  obtain ⟨c, cs, hword, hblank, hdigit, hopens, hin⟩ := h
  rintro found place _ ⟨d, rest, rfl, hd⟩
  obtain ⟨htake, hdrop⟩ := Assembly.takeWhile_append_stop hin (inWord_of_isPart hd) rest
  have hslash : c ≠ '/' := by
    rintro rfl
    exact absurd hopens (by decide)
  have hread : readLexeme place c (cs ++ d :: rest) =
      .ok (wordToken place (c :: cs), .skip inWord c (cs ++ d :: rest)) := by
    rw [readLexeme, hdigit, if_neg (by decide), if_pos hopens, readWord, htake]
  rw [hword, List.cons_append, scan_read hblank (opensComment_of_ne hslash _) hread]
  refine ⟨[wordToken place (c :: cs)], _, by rw [Shorter.skip_val, hdrop]; rfl, ?_⟩
  rw [List.map_singleton]
  unfold wordToken
  dsimp only
  split <;> rfl

theorem spells_name {name : String} (h : IsName name) : Spells name [.named name] := by
  have hspells := spells_word h.word
  unfold wordToken at hspells
  simp only [String.ofList_toList, h.free] at hspells
  exact hspells

theorem spells_keyword (k : Keyword) : Spells k.text [.keyword k] := by
  have hspells := spells_word (isWord_keyword k)
  unfold wordToken at hspells
  simp only [String.ofList_toList, Keyword.ofText?_text] at hspells
  exact hspells

theorem spells_number (value : UInt32) : Spells (toString value.toNat) [.numbered value] := by
  rintro found place _ ⟨d, rest, rfl, hd⟩
  have hdigits : ∀ x ∈ Nat.toDigits 10 value.toNat, x.isDigit = true :=
    fun x hx => Assembly.isDigit_of_mem_digits hx
  have htext : (toString value.toNat).toList = Nat.toDigits 10 value.toNat := by
    simp [toString]
  cases hnumber : Nat.toDigits 10 value.toNat with
  | nil => exact absurd hnumber Nat.toDigits_ne_nil
  | cons c cs =>
    rw [hnumber] at hdigits
    have hc := hdigits c List.mem_cons_self
    have hrange := Assembly.toNat_of_isDigit hc
    have hslash : c ≠ '/' := by
      rintro rfl
      exact absurd hc (by decide)
    obtain ⟨htake, hdrop⟩ := Assembly.takeWhile_append_stop
      (fun x hx => hdigits x (List.mem_cons_of_mem _ hx)) (isDigit_of_isPart hd) rest
    have hword : Decimal.word? (c :: cs) = some value := by
      rw [← hnumber, Assembly.word?_toDigits value.toNat_lt, UInt32.ofNat_toNat]
    have hread : readLexeme place c (cs ++ d :: rest) =
        .ok (⟨.number, .number value, place.span (c :: cs).length, String.ofList (c :: cs)⟩,
          .skip Char.isDigit c (cs ++ d :: rest)) := by
      rw [readLexeme, if_pos hc, readNumber, htake]
      simp only [hword]
    rw [htext, hnumber, List.cons_append, scan_read
      (Assembly.isBlank_of_toNat (by omega) (by omega)) (opensComment_of_ne hslash _) hread]
    refine ⟨[_], _, by rw [Shorter.skip_val, hdrop]; rfl, ?_⟩
    rw [List.map_singleton, Token.bare, Token.numbered, ← hnumber, ← htext, String.ofList_toList]

/-! ### Symbols -/

/-- Few characters stand in symbols of two. -/
theorem ofDouble?_chars {kind : TokenKind} (h : TokenKind.ofDouble? c d = some kind) :
    c ∈ "=!<>+-*/".toList ∧ d ∈ "=>+-".toList := by
  have hpair : ∀ {text : String}, String.ofList [c, d] = text → text.toList = [c, d] := by
    rintro _ rfl
    exact String.toList_ofList
  unfold TokenKind.ofDouble? at h
  dsimp only at h
  split at h
  · rename_i harrow
    have hchars := hpair harrow
    simp only [String.reduceToList, List.cons.injEq, and_true] at hchars
    obtain ⟨rfl, rfl⟩ := hchars
    decide
  · split at h
    · rename_i op hop
      have hfind : Operator.all.find? (·.symbol == String.ofList [c, d]) = some op := hop
      have hsymbol := List.find?_some hfind
      have hchars := hpair (beq_iff_eq.mp hsymbol).symm
      cases op <;> simp [Operator.symbol] at hchars
      all_goals
        obtain ⟨rfl, rfl⟩ := hchars
        decide
    · split at h
      · rename_i op hop
        unfold Operator.ofSelfAssignment? at hop
        split at hop
        any_goals cases hop
        all_goals
          rename_i heq
          have hchars := hpair heq
          simp only [String.reduceToList, List.cons.injEq, and_true] at hchars
          obtain ⟨rfl, rfl⟩ := hchars
          decide
      · obtain ⟨op, hop, -⟩ := Option.map_eq_some_iff.mp h
        unfold Operator.ofIncrement? at hop
        split at hop
        any_goals cases hop
        all_goals
          rename_i heq
          have hchars := hpair heq
          simp only [String.reduceToList, List.cons.injEq, and_true] at hchars
          obtain ⟨rfl, rfl⟩ := hchars
          decide

theorem not_mem_of_isPart (h : isPart c = true) : c ∉ "=>+-".toList := by
  rcases isPart_cases h with rfl | rfl | rfl | rfl | rfl | rfl | rfl <;> decide

/-- A symbol of one character, if it is not the first of two. -/
theorem scan_single {kind : TokenKind} (hkind : TokenKind.ofSingle? c = some kind)
    (hblank : isBlank c = false) (hdigit : c.isDigit = false) (hopens : opensWord c = false)
    (hcomment : opensComment (c :: rest) = false)
    (hdouble : ∀ d cs, rest = d :: cs → TokenKind.ofDouble? c d = none) :
    ∃ (more : List Token) (place' : Cursor), scan found place (c :: rest) =
      scan (found ++ more.toArray) place' rest ∧
        more.map Token.bare = [.symbol kind (String.ofList [c])] := by
  have hnone : readDouble? place c rest = none := by
    cases rest with
    | nil => rfl
    | cons d cs => rw [readDouble?, hdouble d cs rfl, Option.map_none]
  have hread : readLexeme place c rest = .ok (symbolToken place kind [c], .tail c rest) := by
    rw [readLexeme, hdigit, if_neg (by decide), hopens, if_neg (by decide), readSymbol, hnone,
      hkind]
  rw [scan_read hblank hcomment hread]
  exact ⟨[symbolToken place kind [c]], _, rfl, rfl⟩

/-- A bracket, a comma or a semicolon is never the first of two. -/
theorem closed_symbol {kind : TokenKind} (hkind : TokenKind.ofSingle? c = some kind)
    (hblank : isBlank c = false) (hdigit : c.isDigit = false) (hopens : opensWord c = false)
    (hdouble : c ∉ "=!<>+-*/".toList) :
    Closed (String.ofList [c]) [.symbol kind (String.ofList [c])] := by
  intro found place rest _
  have hslash : c ≠ '/' := by
    rintro rfl
    exact hdouble (by decide)
  rw [String.toList_ofList, List.cons_append, List.nil_append]
  refine scan_single hkind hblank hdigit hopens (opensComment_of_ne hslash _)
    fun d cs _ => ?_
  rw [Option.eq_none_iff_forall_ne_some]
  exact fun kind h => hdouble (ofDouble?_chars h).1

/-- Another symbol of one character in front of a part. -/
theorem spells_single {kind : TokenKind} (hkind : TokenKind.ofSingle? c = some kind)
    (hblank : isBlank c = false) (hdigit : c.isDigit = false) (hopens : opensWord c = false) :
    Spells (String.ofList [c]) [.symbol kind (String.ofList [c])] := by
  rintro found place _ ⟨d, rest, rfl, hd⟩
  rw [String.toList_ofList, List.cons_append, List.nil_append]
  refine scan_single hkind hblank hdigit hopens ?_ fun d' cs h => ?_
  · unfold opensComment
    split
    · rename_i heq
      cases heq
      exact absurd rfl (ne_slash_of_isPart hd)
    · rfl
  · cases h
    rw [Option.eq_none_iff_forall_ne_some]
    exact fun kind h => not_mem_of_isPart hd (ofDouble?_chars h).2

/-- A symbol of two characters. -/
theorem closed_double {kind : TokenKind} (hkind : TokenKind.ofDouble? c d = some kind)
    (hblank : isBlank c = false) (hdigit : c.isDigit = false) (hopens : opensWord c = false)
    (hcomment : d ≠ '/') :
    Closed (String.ofList [c, d]) [.symbol kind (String.ofList [c, d])] := by
  intro found place rest _
  have hread : readLexeme place c (d :: rest) =
      .ok (symbolToken place kind [c, d], (Shorter.tail d rest).behind c) := by
    rw [readLexeme, hdigit, if_neg (by decide), hopens, if_neg (by decide), readSymbol, readDouble?,
      hkind, Option.map_some]
  have hslash : opensComment (c :: d :: rest) = false := by
    unfold opensComment
    split
    · rename_i heq
      cases heq
      exact absurd rfl hcomment
    · rfl
  rw [String.toList_ofList]
  show ∃ (more : List Token) (place' : Cursor), scan found place (c :: d :: rest) = _ ∧ _
  rw [scan_read hblank hslash hread]
  exact ⟨[symbolToken place kind [c, d]], _, rfl, rfl⟩

end Lexemes

end RegisterMachine.Structured
