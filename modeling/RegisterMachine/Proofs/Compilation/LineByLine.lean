import RegisterMachine.Proofs.Assembly.Lexing
import RegisterMachine.Proofs.Structured.Lexing

/-! # Reading line by line

Nothing that was read of a line is remembered on the next one. So two texts, one below the other,
come to what each of them comes to alone, the second one further down.

* `tokenize_below`: both languages, with the trailing line break and the end of a source. -/

namespace RegisterMachine

open RegisterMachine.Success RegisterMachine.Text

/-- The text of two texts, one below the other. -/
theorem toList_below (s t : String) : (s ++ "\n" ++ t).toList = s.toList ++ '\n' :: t.toList := by
  simp

namespace Assembly

theorem tokenize_joined (s t : String) : tokenize (s ++ "\n" ++ t) =
    reader.joined (s.toList.count '\n' + 1) (tokenize s) (tokenize t) := by
  have hscans := tokenize_scans (s ++ "\n" ++ t)
  rw [toList_below] at hscans
  exact hscans.unique ((tokenize_scans s).joined lawful (tokenize_scans t))

/-- **A source does not end unexpectedly**: the end of the text ends a lexeme like a blank. -/
theorem read_ne_unexpectedEnd {start : Cursor} {c : Char} {text : List Char} {span : Span} :
    reader.read start c text ≠ .error (.unexpectedEnd span) := by
  have hstray : ∀ {place : Cursor} {rest : List Char}, endsLexeme rest ≠ true →
      strayCharacter place rest ≠ .unexpectedEnd span := by
    intro place rest hends
    cases rest with
    | nil => exact absurd rfl hends
    | cons d rest => exact nofun
  intro h
  obtain hc | ⟨hc, ⟨kind, hkind⟩ | hkind⟩ := read_cases c
  · rw [read_word hc] at h
    obtain ⟨rest, hcolon⟩ | hcolon := colon_cases (text.dropWhile inWord)
    · rw [hcolon] at h
      cases h
    · rw [wordEnd_of_ne hcolon] at h
      split at h
      · cases h
      · rename_i hends
        exact hstray hends (Except.error.inj h)
  · rw [read_number hc hkind, numberEnd] at h
    split at h
    · dsimp only [numberToken] at h
      generalize (if c.isDigit then c :: text.takeWhile Char.isDigit else
        text.takeWhile Char.isDigit) = number at h
      split at h
      · cases h
      · split at h <;> cases h
    · rename_i hends
      exact hstray hends (Except.error.inj h)
  · rw [read_other hc hkind] at h
    cases h

end Assembly

theorem Structured.tokenize_joined (s t : String) : Structured.tokenize (s ++ "\n" ++ t) =
    Structured.reader.joined (s.toList.count '\n' + 1) (Structured.tokenize s)
      (Structured.tokenize t) := by
  have hscans := Structured.tokenize_scans (s ++ "\n" ++ t)
  rw [toList_below] at hscans
  exact hscans.unique
    ((Structured.tokenize_scans s).joined Structured.lawful (Structured.tokenize_scans t))

/-- **Reading is line by line.** If nothing is wrong with what stands above, the tokens of what
stands below come behind it, or else its error, as many lines further down as there are line breaks
above. So a line break at the end of a source changes nothing, and the end itself is never
unexpected. -/
theorem tokenize_below (s t : String) :
    Assembly.tokenize (s ++ "\n" ++ t) = Assembly.reader.joined (s.toList.count '\n' + 1)
      (Assembly.tokenize s) (Assembly.tokenize t) ∧
    Structured.tokenize (s ++ "\n" ++ t) = Structured.reader.joined (s.toList.count '\n' + 1)
      (Structured.tokenize s) (Structured.tokenize t) ∧
    Assembly.tokenize (s ++ "\n") = Assembly.tokenize s ∧
    Structured.tokenize (s ++ "\n") = Structured.tokenize s ∧
    ∀ span, Assembly.tokenize s ≠ .error (.unexpectedEnd span) := by
  refine ⟨Assembly.tokenize_joined s t, Structured.tokenize_joined s t, ?_, ?_, fun span h => ?_⟩
  · have hscans := Assembly.tokenize_scans (s ++ "\n")
    rw [String.toList_append] at hscans
    exact hscans.unique ((Assembly.tokenize_scans s).break Assembly.lawful)
  · have hscans := Structured.tokenize_scans (s ++ "\n")
    rw [String.toList_append] at hscans
    exact hscans.unique ((Structured.tokenize_scans s).break Structured.lawful)
  · have houtcome := (Assembly.tokenize_scans s).outcome Assembly.lawful (Cursor.At.start _)
    obtain ⟨start, c, text, hread⟩ := houtcome.error h
    exact Assembly.read_ne_unexpectedEnd hread

end RegisterMachine
