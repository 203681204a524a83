import RegisterMachine.Assembly.Token.Coverage
import RegisterMachine.Proofs.Assembly.Lexing

/-! # Nothing is lost of an assembly source

The tokens of a source stand at their places, and between them there are blanks and comments only.
What the tokens cover is cut out of lines that have lost their carriage return. That takes nothing
from a lexeme, for there is no carriage return in it.

* `lines_getD`: a line as it is cut, with or without a carriage return behind it.
* `Lossless.coveredBy`: a span covers its lexeme.
* `tokenize_lossless`: the source, what is covered of it, and its lexemes in a row. -/

namespace RegisterMachine.Assembly

open RegisterMachine.Success RegisterMachine.Text

/-- The token without its place. -/
def Token.bare (t : Token) : Token := { t with span := {} }

section Coverage

variable {text line front lexeme : List Char} {row start length : Nat} {pieces : List Piece}

/-- **A line as it is cut** is the line, or the line without the carriage return at its end. -/
theorem lines_getD (h : (linesOf text)[row]? = some line) : (lines text).getD row [] = line ∨
    ∃ front, line = front ++ ['\r'] ∧ (lines text).getD row [] = front := by
  have hne : linesOf text ≠ [] := List.splitOn_ne_nil '\n' text
  obtain ⟨above, last, hlines⟩ : ∃ above last, linesOf text = above ++ [last] :=
    ⟨_, _, (List.dropLast_append_getLast hne).symm⟩
  have hcut : lines text = above.map (fun line => if line.getLast? = some '\r' then line.dropLast
      else line) ++ (if last = [] then [] else [last]) := by
    rw [lines, ← linesOf, hlines]
    cases last <;> simp
  rw [hlines] at h
  rw [hcut]
  by_cases hrow : row < above.length
  · rw [List.getElem?_append_left hrow] at h
    rw [List.getD_eq_getElem?_getD, List.getElem?_append_left (by rwa [List.length_map]),
      List.getElem?_map, h, Option.map_some, Option.getD_some]
    split
    · rename_i hreturn
      exact .inr ⟨line.dropLast, (List.dropLast_append_getLast? _ hreturn).symm, rfl⟩
    · exact .inl rfl
  · rw [List.getElem?_append_right (Nat.not_lt.mp hrow)] at h
    obtain ⟨hlast, heq⟩ := List.getElem?_eq_some_iff.mp h
    have hzero : row - above.length = 0 := by
      rw [List.length_singleton] at hlast
      omega
    rw [hzero] at h
    cases h
    rw [List.getD_eq_getElem?_getD, List.getElem?_append_right (by rw [List.length_map]; omega),
      List.length_map, hzero]
    left
    split <;> simp [*]

/-- What is cut out of a line has nothing of the carriage return, if it has none itself. -/
theorem take_drop_front (h : (((front ++ ['\r']).drop start).take length) = lexeme)
    (hlexeme : '\r' ∉ lexeme) : (front.drop start).take length = lexeme := by
  rw [List.drop_append, List.take_append] at h
  cases hreturn : (['\r'].drop (start - front.length)).take
      (length - (front.drop start).length) with
  | nil => rwa [hreturn, List.append_nil] at h
  | cons c rest =>
    have hc : c = '\r' := by
      have hmem : c ∈ (['\r'].drop (start - front.length)).take
          (length - (front.drop start).length) := by
        rw [hreturn]
        exact List.mem_cons_self
      exact List.mem_singleton.mp (List.mem_of_mem_drop (List.mem_of_mem_take hmem))
    refine absurd ?_ hlexeme
    rw [← h, hreturn, hc]
    exact List.mem_append_right _ List.mem_cons_self

theorem significant_solid {c : Char} (h : c ∈ significant text) : isBlank c = false := by
  obtain ⟨line, -, hc⟩ := List.mem_flatMap.mp h
  simpa using (List.mem_filter.mp hc).2

/-- **A span covers its lexeme.** -/
theorem coveredBy_spells {s : Span} (h : s.Spells text lexeme) (hlexeme : '\r' ∉ lexeme) :
    coveredBy (lines text) s = lexeme := by
  obtain ⟨-, line, hline, hrow, hcolumn, hspelled⟩ := h
  rw [coveredBy, if_neg (by omega)]
  obtain hsame | ⟨front, rfl, hfront⟩ := lines_getD hrow
  · rw [hsame]
    exact hspelled
  · rw [hfront]
    exact take_drop_front hspelled hlexeme

/-- What the spans of lexemes cover, if nothing is lost. -/
theorem covered_lossless (h : Lossless text pieces) :
    (pieces.flatMap fun x => coveredBy (lines text) x.1) = significant text := by
  rw [← h.kept]
  refine List.flatMap_congr fun x hx => coveredBy_spells (h.spelled x hx).2 fun hreturn => ?_
  have hmem : '\r' ∈ significant text := by
    rw [← h.kept]
    exact List.mem_flatMap.mpr ⟨x, hx, hreturn⟩
  exact absurd (significant_solid hmem) (by decide)

end Coverage

/-- **Nothing is lost of a source.** Each lexeme stands at its place, one behind the other, with
nothing else between them than blanks and comments. What the tokens cover is the source without its
comments and blanks, which is the row of lexemes; and these, with a blank between any two of them,
are read as the same tokens. -/
theorem tokenize_lossless {source : String} {tokens : List Token}
    (h : tokenize source = .ok tokens) :
    Lossless source.toList (tokens.map fun t => (t.span, t.raw.toList)) ∧
    covered source tokens = String.ofList (significant source.toList) ∧
    covered source tokens = String.join (tokens.map Token.raw) ∧
    ∃ again, tokenize (" ".intercalate (tokens.map Token.raw)) = .ok again ∧
      again.map Token.bare = tokens.map Token.bare := by
  have hscans := tokenize_scans source
  rw [h] at hscans
  have hlossless := (hscans.laid lawful rfl).lossless
  have hcovered : covered source tokens = String.ofList (significant source.toList) := by
    have hspans := covered_lossless hlossless
    rw [List.flatMap_map] at hspans
    rw [covered, ← hspans]
    rfl
  have hjoined :
      String.join (tokens.map Token.raw) = String.ofList (significant source.toList) := by
    rw [← hlossless.kept, ← String.toList_inj, String.toList_join, String.toList_ofList,
      List.flatMap_map, List.flatMap_map]
    rfl
  refine ⟨hlossless, hcovered, hcovered.trans hjoined.symm, ?_⟩
  obtain ⟨again, hagain, hbare⟩ := hscans.reread lawful
  exact ⟨again, (tokenize_scans _).unique hagain, hbare⟩

/-- A label with its instruction behind it, a comment that begins at a lexeme, and a carriage
return. -/
theorem loop_lossless : ∃ tokens, tokenize "loop:load #1//go\r\n goto loop\r\n" = .ok tokens ∧
    tokens.map Token.raw = ["loop:", "load", "#1", "goto", "loop"] ∧
    Lossless "loop:load #1//go\r\n goto loop\r\n".toList
      (tokens.map fun t => (t.span, t.raw.toList)) ∧
    covered "loop:load #1//go\r\n goto loop\r\n" tokens = "loop:load#1gotoloop" ∧
    ∃ again, tokenize (" ".intercalate (tokens.map Token.raw)) = .ok again ∧
      again.map Token.bare = tokens.map Token.bare := by
  have h : (tokenize "loop:load #1//go\r\n goto loop\r\n").toOption.map (List.map Token.raw) =
      some ["loop:", "load", "#1", "goto", "loop"] := by decide +kernel
  obtain ⟨tokens, htokens, hraw⟩ := Option.map_eq_some_iff.mp h
  obtain ⟨hlossless, -, hcovered, hagain⟩ := tokenize_lossless (ok_of_toOption htokens)
  rw [hraw] at hcovered
  exact ⟨tokens, ok_of_toOption htokens, hraw, hlossless, hcovered.trans (by decide), hagain⟩

end RegisterMachine.Assembly
