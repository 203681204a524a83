import Mathlib.Data.List.Basic
import RegisterMachine.Text.Uppercase
import RegisterMachine.Text.Word

/-! # Words and their capitals

What upper case makes of a word. It changes nothing that is upper case already, and a word still
opens like a word. It need not go on like one: some letters have capitals that are spelled with a
mark, such as the iota with dialytika and tonos, and a mark belongs to no word.

The tables are compared row by row. The kernel evaluates `Nat.ble` and its like at once, so the
checks are written with these.

* `Row.misses`: rows without a common code point.
* `Tables`: what is checked of the tables of capitals.
* `uppercase_uppercase`: upper case is its own upper case.
* `upperChars_letters`, `upperChars_inWord`: the capitals of the characters of a word.
* `isBlank_of_inWord`: there is no blank in a word. -/

namespace RegisterMachine.Text

/-! ### Rows of code points -/

/-- The code points from one to another, or every other one of them. -/
structure Row where
  first : Nat
  last : Nat
  sparse : Bool

namespace Row

variable {r q : Row} {code : Nat}

structure Contains (r : Row) (code : Nat) : Prop where
  first_le : r.first ≤ code
  le_last : code ≤ r.last
  parity : r.sparse = true → code % 2 = r.first % 2

def single (code : Nat) : Row := ⟨code, code, true⟩

theorem contains_single (code : Nat) : (single code).Contains code :=
  ⟨Nat.le_refl code, Nat.le_refl code, fun _ => rfl⟩

/-- **The rows have no code point in common.** -/
def misses (r q : Row) : Bool :=
  Nat.blt r.last q.first || Nat.blt q.last r.first ||
    (r.sparse && q.sparse && Nat.beq ((r.first + q.first) % 2) 1)

theorem not_contains_of_misses (h : r.misses q = true) (hr : r.Contains code) :
    ¬ q.Contains code := by
  rintro ⟨hfirst, hlast, hparity⟩
  obtain ⟨hfirst', hlast', hparity'⟩ := hr
  simp only [misses, Bool.or_eq_true, Bool.and_eq_true, Nat.blt_eq, Nat.beq_eq] at h
  obtain (h | h) | ⟨⟨hr, hq⟩, h⟩ := h
  · omega
  · omega
  · have := hparity hq
    have := hparity' hr
    omega

/-- The code points of a row. -/
def codes (r : Row) : List Nat :=
  (List.range' r.first (r.last + 1 - r.first)).filter fun code =>
    !r.sparse || Nat.beq (code % 2) (r.first % 2)

theorem mem_codes (h : r.Contains code) : code ∈ r.codes := by
  obtain ⟨hfirst, hlast, hparity⟩ := h
  refine List.mem_filter.mpr ⟨List.mem_range'_1.mpr (by omega), ?_⟩
  cases hsparse : r.sparse with
  | false => rfl
  | true => simp [hparity hsparse]

/-- All characters of the row are letters. -/
def isLettered (r : Row) : Bool :=
  letterRanges.any (fun range => Nat.ble range.1 r.first && Nat.ble r.last range.2 &&
    Nat.ble 128 r.first) || r.codes.all fun code => isLetter (.ofNat code)

/-- The numbers of the row are those of characters, and none of them is zero. -/
def isValid (r : Row) : Bool :=
  Nat.blt 0 r.first &&
    (Nat.blt r.last 0xD800 || (Nat.blt 0xDFFF r.first && Nat.blt r.last 0x110000))

theorem toNat_ofNat (h : r.isValid = true) (hr : r.Contains code) :
    (Char.ofNat code).toNat = code := by
  obtain ⟨hfirst, hlast, -⟩ := hr
  simp only [isValid, Bool.or_eq_true, Bool.and_eq_true, Nat.blt_eq] at h
  have hvalid : code.isValidChar := by
    unfold Nat.isValidChar
    omega
  rw [Char.ofNat, dif_pos hvalid]
  rfl

theorem isLetter_of_isLettered (h : r.isLettered = true) (hvalid : r.isValid = true)
    (hr : r.Contains code) : isLetter (Char.ofNat code) = true := by
  obtain h | h := Bool.or_eq_true_iff.mp h
  · obtain ⟨range, hmem, hrange⟩ := List.any_eq_true.mp h
    simp only [Bool.and_eq_true, Nat.ble_eq] at hrange
    obtain ⟨⟨hlow, hhigh⟩, hlarge⟩ := hrange
    have hin : inRanges letterRanges code = true := by
      refine List.any_eq_true.mpr ⟨range, hmem, ?_⟩
      have := hr.first_le
      have := hr.le_last
      simp only [Bool.and_eq_true, decide_eq_true_eq]
      omega
    rw [isLetter, toNat_ofNat hvalid hr, hin, decide_eq_true (Nat.le_trans hlarge hr.first_le)]
    exact Bool.or_true _
  · exact List.all_eq_true.mp h code (mem_codes hr)

end Row

/-! ### Capitals -/

/-- Every other code point of a run at most has a capital, or it is one code point only. -/
def isSparse (run : Nat × Nat × Nat × Int) : Bool :=
  Nat.beq (run.2.2.1 % 2) 0 || Nat.beq run.1 run.2.1

/-- The code points of a run. -/
def lowerRow (run : Nat × Nat × Nat × Int) : Row := ⟨run.1, run.2.1, isSparse run⟩

/-- The capitals of a run. -/
def capitalRow (run : Nat × Nat × Nat × Int) : Row :=
  ⟨(run.1 + run.2.2.2).toNat, (run.2.1 + run.2.2.2).toNat, isSparse run⟩

/-- The code points beyond ASCII that have a capital. -/
def casedRows : List Row := upperRuns.map lowerRow ++ upperSpellings.map fun s => .single s.1

/-- The code points of which capitals are made. -/
def capitalRows : List Row :=
  upperRuns.map capitalRow ++ upperSpellings.flatMap fun s => s.2.map .single

/-- A character beyond ASCII that is no blank. If it belongs to no word either, it may stand nowhere
in a source. -/
def isStray (c : Char) : Bool := 128 ≤ c.toNat && !isBlank c

/-- **What is checked of the tables.** -/
structure Tables : Prop where
  /-- No capital has a capital. -/
  misses : (capitalRows.all fun r => casedRows.all r.misses) = true
  /-- Capitals in ASCII are letters. -/
  isValid : (capitalRows.all fun r =>
    r.isValid && (Nat.ble 128 r.first || (Nat.ble 65 r.first && Nat.ble r.last 90))) = true
  isLettered : ((upperRuns.map capitalRow).all Row.isLettered) = true
  spellings : (upperSpellings.all fun s =>
    (s.2.head?.any fun code => isLetter (.ofNat code)) &&
      s.2.all fun code => isLetter (.ofNat code) || isStray (.ofNat code)) = true
  /-- In ASCII a capital is its own capital, and belongs to words like its letter. -/
  ascii : (List.range 128).all (fun code =>
    let c := Char.ofNat code
    (upperChars c).flatMap upperChars == upperChars c &&
      (upperChars c == [c] || (upperChars c).length == 1 && (upperChars c).all isLetter)) = true
  letters : ∀ code ∈ List.range' 65 26, upperChars (Char.ofNat code) = [Char.ofNat code]

/-- The evaluations stand in one proof: side by side, each would wait for the ones before it. -/
theorem tables : Tables where
  misses := by decide +kernel
  isValid := by decide +kernel
  isLettered := by decide +kernel
  spellings := by decide +kernel
  ascii := by decide
  letters := by decide

section Capitals

variable {c : Char} {code : Nat} {r : Row}

theorem lowerRow_contains {run : Nat × Nat × Nat × Int}
    (h : (run.1 ≤ code && code ≤ run.2.1 && (code - run.1) % run.2.2.1 == 0) = true) :
    (lowerRow run).Contains code := by
  simp only [Bool.and_eq_true, decide_eq_true_eq, beq_iff_eq] at h
  obtain ⟨⟨hfirst, hlast⟩, hstride⟩ := h
  refine ⟨hfirst, hlast, fun hsparse => ?_⟩
  simp only [lowerRow, isSparse, Bool.or_eq_true, Nat.beq_eq] at hsparse ⊢
  obtain heven | hsingle := hsparse
  · have htwo : (code - run.1) % 2 = 0 :=
      Nat.mod_eq_zero_of_dvd (Nat.dvd_trans (Nat.dvd_of_mod_eq_zero heven)
        (Nat.dvd_of_mod_eq_zero hstride))
    omega
  · omega

/-- The capital of a code point in a run. -/
theorem capitalRow_contains {run : Nat × Nat × Nat × Int} (h : (lowerRow run).Contains code)
    (hvalid : (capitalRow run).isValid = true) :
    (capitalRow run).Contains ((code + run.2.2.2).toNat) := by
  obtain ⟨hfirst, hlast, hparity⟩ := h
  have hpos : 0 < (run.1 + run.2.2.2).toNat := by
    simp only [Row.isValid, Bool.and_eq_true, Nat.blt_eq] at hvalid
    exact hvalid.1
  simp only [lowerRow] at hfirst hlast hparity
  refine ⟨?_, ?_, fun hsparse => ?_⟩ <;> simp only [capitalRow]
  · omega
  · omega
  · have := hparity hsparse
    omega

/-- **What the upper case of a character is**, beyond ASCII: itself, the capital of a run, or a
spelling. -/
theorem upperChars_cases (h : 128 ≤ c.toNat) :
    (upperChars c = [c] ∨ ∃ run ∈ upperRuns, ∃ code, (lowerRow run).Contains c.toNat ∧
      code = (c.toNat + run.2.2.2).toNat ∧ upperChars c = [Char.ofNat code]) ∨
    ∃ codes, (c.toNat, codes) ∈ upperSpellings ∧ upperChars c = codes.map Char.ofNat := by
  rw [upperChars, if_neg (Nat.not_lt.mpr h)]
  split
  · rename_i codes hlookup
    obtain ⟨before, after, heq, -⟩ := List.lookup_eq_some_iff.mp hlookup
    exact .inr ⟨codes, by rw [heq]; simp, rfl⟩
  · refine .inl ?_
    unfold upperCode
    split
    · rename_i first last stride distance hfind
      have hin := List.find?_some hfind
      exact .inr ⟨_, List.mem_of_find?_eq_some hfind, _, lowerRow_contains hin, rfl, rfl⟩
    · exact .inl (by rw [Char.ofNat_toNat])

theorem isValid_of_mem (hr : r ∈ capitalRows) : r.isValid = true :=
  (Bool.and_eq_true_iff.mp (List.all_eq_true.mp tables.isValid r hr)).1

theorem capitalRow_mem {run : Nat × Nat × Nat × Int} (h : run ∈ upperRuns) :
    capitalRow run ∈ capitalRows :=
  List.mem_append_left _ (List.mem_map_of_mem h)

theorem spelling_mem {codes : List Nat} {n : Nat} (h : (n, codes) ∈ upperSpellings)
    (hcode : code ∈ codes) : Row.single code ∈ capitalRows :=
  List.mem_append_right _ (List.mem_flatMap.mpr ⟨_, h, List.mem_map_of_mem hcode⟩)

/-- **A capital is its own capital.** -/
theorem upperChars_capital (hr : r ∈ capitalRows) (h : r.Contains code) :
    upperChars (Char.ofNat code) = [Char.ofNat code] := by
  have htoNat : (Char.ofNat code).toNat = code := Row.toNat_ofNat (isValid_of_mem hr) h
  have hmiss : ∀ q ∈ casedRows, ¬ q.Contains code := fun q hq =>
    Row.not_contains_of_misses
      (List.all_eq_true.mp (List.all_eq_true.mp tables.misses r hr) q hq) h
  -- beyond ASCII the row misses every row with capitals, so the tables do not change the code point
  by_cases hlarge : 128 ≤ code
  · obtain (hself | ⟨run, hrun, _, hin, -⟩) | ⟨codes, hcodes, -⟩ :=
      upperChars_cases (htoNat.symm ▸ hlarge)
    · exact hself
    · rw [htoNat] at hin
      exact absurd hin (hmiss _ (List.mem_append_left _ (List.mem_map_of_mem hrun)))
    · rw [htoNat] at hcodes
      exact absurd (Row.contains_single code)
        (hmiss _ (List.mem_append_right _ (List.mem_map_of_mem hcodes)))
  · have hascii := (Bool.and_eq_true_iff.mp (List.all_eq_true.mp tables.isValid r hr)).2
    simp only [Bool.or_eq_true, Bool.and_eq_true, Nat.ble_eq] at hascii
    have hfirst := h.first_le
    have hlast := h.le_last
    exact tables.letters code (List.mem_range'_1.mpr (by omega))

theorem upperChars_upperChars (c : Char) : (upperChars c).flatMap upperChars = upperChars c := by
  have hsingle : ∀ x, upperChars x = [x] → [x].flatMap upperChars = [x] := fun x hx => by
    rw [List.flatMap_singleton, hx]
  by_cases hlarge : 128 ≤ c.toNat
  · obtain (hself | ⟨run, hrun, code, hin, rfl, hcapital⟩) | ⟨codes, hcodes, hspelled⟩ :=
      upperChars_cases hlarge
    · rw [hself, hsingle c hself]
    · have hmem := capitalRow_mem hrun
      rw [hcapital]
      exact hsingle _ (upperChars_capital hmem (capitalRow_contains hin (isValid_of_mem hmem)))
    · rw [hspelled, List.flatMap_map]
      have hfixed : ∀ code ∈ codes, upperChars (Char.ofNat code) = [Char.ofNat code] :=
        fun code hcode =>
          upperChars_capital (spelling_mem hcodes hcode) (Row.contains_single code)
      rw [List.flatMap_congr hfixed]
      exact List.map_eq_flatMap.symm
  · have hascii := List.all_eq_true.mp tables.ascii c.toNat (List.mem_range.mpr (by omega))
    rw [Char.ofNat_toNat] at hascii
    exact eq_of_beq (Bool.and_eq_true_iff.mp hascii).1

/-- **What upper case makes of a character**: nothing, or a letter and whatever is spelled behind
it. -/
theorem upperChars_letters (c : Char) : upperChars c = [c] ∨ ∃ d rest, upperChars c = d :: rest ∧
    isLetter d = true ∧ ∀ x ∈ rest, isLetter x = true ∨ isStray x = true := by
  by_cases hlarge : 128 ≤ c.toNat
  · obtain (hself | ⟨run, hrun, code, hin, rfl, hcapital⟩) | ⟨codes, hcodes, hspelled⟩ :=
      upperChars_cases hlarge
    · exact .inl hself
    · have hvalid := isValid_of_mem (capitalRow_mem hrun)
      have hlettered := List.all_eq_true.mp tables.isLettered _ (List.mem_map_of_mem hrun)
      exact .inr ⟨_, [], hcapital,
        Row.isLetter_of_isLettered hlettered hvalid (capitalRow_contains hin hvalid), nofun⟩
    · have hletters := List.all_eq_true.mp tables.spellings _ hcodes
      obtain ⟨hhead, hall⟩ := Bool.and_eq_true_iff.mp hletters
      cases codes with
      | nil => cases hhead
      | cons code codes =>
        refine .inr ⟨_, codes.map Char.ofNat, hspelled, hhead, fun x hx => ?_⟩
        obtain ⟨code', hcode', rfl⟩ := List.mem_map.mp hx
        exact Bool.or_eq_true_iff.mp
          (List.all_eq_true.mp hall code' (List.mem_cons_of_mem _ hcode'))
  · have hascii := List.all_eq_true.mp tables.ascii c.toNat (List.mem_range.mpr (by omega))
    rw [Char.ofNat_toNat] at hascii
    simp only [Bool.and_eq_true, Bool.or_eq_true, beq_iff_eq] at hascii
    obtain ⟨-, hself | ⟨hlength, hall⟩⟩ := hascii
    · exact .inl hself
    · obtain ⟨d, hd⟩ := List.length_eq_one_iff.mp hlength
      rw [hd] at hall
      exact .inr ⟨d, [], hd, List.all_eq_true.mp hall d List.mem_cons_self, nofun⟩

end Capitals

/-! ### Words -/

/-- **A text that is read as a word.** -/
def isWord (text : String) : Bool :=
  match text.toList with
  | [] => false
  | c :: cs => opensWord c && cs.all inWord

theorem isWord_iff {text : String} : isWord text = true ↔
    ∃ c cs, text.toList = c :: cs ∧ opensWord c = true ∧ ∀ x ∈ cs, inWord x = true := by
  unfold isWord
  cases text.toList with
  | nil => simp
  | cons c cs => simp [and_assoc]

/-- **Upper case is its own upper case.** -/
theorem uppercase_uppercase (s : String) : uppercase (uppercase s) = uppercase s := by
  rw [uppercase, uppercase, String.toList_ofList, List.flatMap_assoc,
    List.flatMap_congr fun c _ => upperChars_upperChars c]

theorem opensWord_of_isLetter {c : Char} (h : isLetter c = true) : opensWord c = true :=
  Bool.or_eq_true_iff.mpr (.inl h)

theorem inWord_of_isLetter {c : Char} (h : isLetter c = true) : inWord c = true :=
  inWord_of_opensWord (opensWord_of_isLetter h)

theorem upperChars_inWord {c : Char} (h : inWord c = true) :
    ∀ x ∈ upperChars c, inWord x = true ∨ isStray x = true := by
  obtain hself | ⟨d, rest, heq, hd, hrest⟩ := upperChars_letters c
  · rw [hself]
    rintro x hx
    rw [List.mem_singleton.mp hx]
    exact .inl h
  · rw [heq]
    rintro x hx
    obtain rfl | hx := List.mem_cons.mp hx
    · exact .inl (inWord_of_isLetter hd)
    · exact (hrest x hx).imp_left inWord_of_isLetter

/-- **A word in capitals opens like a word**, and goes on like one except for marks. -/
theorem uppercase_isWord {word : String} (h : isWord word = true) :
    ∃ c cs, (uppercase word).toList = c :: cs ∧ opensWord c = true ∧
      ∀ x ∈ cs, inWord x = true ∨ isStray x = true := by
  obtain ⟨c, cs, hword, hopens, hin⟩ := isWord_iff.mp h
  have hbehind : ∀ x ∈ cs.flatMap upperChars, inWord x = true ∨ isStray x = true := by
    intro x hx
    obtain ⟨y, hy, hx⟩ := List.mem_flatMap.mp hx
    exact upperChars_inWord (hin y hy) x hx
  rw [uppercase, String.toList_ofList, hword, List.flatMap_cons]
  obtain hself | ⟨d, rest, heq, hd, hrest⟩ := upperChars_letters c
  · rw [hself]
    exact ⟨c, cs.flatMap upperChars, rfl, hopens, hbehind⟩
  · rw [heq]
    refine ⟨d, rest ++ cs.flatMap upperChars, rfl, opensWord_of_isLetter hd, fun x hx => ?_⟩
    obtain hx | hx := List.mem_append.mp hx
    · exact (hrest x hx).imp_left inWord_of_isLetter
    · exact hbehind x hx

/-! ### Blanks -/

/-- The blanks beyond ASCII. -/
def blankRows : List Row :=
  [.single 0x85, .single 0xA0, .single 0x1680, ⟨0x2000, 0x200A, false⟩, .single 0x2028,
    .single 0x2029, .single 0x202F, .single 0x205F, .single 0x3000]

theorem wordRanges_misses : ((letterRanges ++ numeralRanges).all fun range =>
    blankRows.all (Row.misses ⟨range.1, range.2, false⟩)) = true := by
  decide +kernel

theorem inWord_ascii : (List.range 128).all (fun code =>
    !(inWord (.ofNat code) && isBlank (.ofNat code))) = true := by
  decide

theorem blankRows_contains {c : Char} (h : isBlank c = true) (hlarge : 128 ≤ c.toNat) :
    ∃ r ∈ blankRows, r.Contains c.toNat := by
  unfold isBlank at h
  split at h
  case h_15 =>
    simp only [Bool.and_eq_true, decide_eq_true_eq] at h
    exact ⟨⟨0x2000, 0x200A, false⟩, by simp [blankRows], h.1, h.2, nofun⟩
  all_goals
    rename_i heq
    first
      | omega
      | exact ⟨.single c.toNat, by simp [blankRows, heq], Row.contains_single _⟩

/-- Beyond ASCII the tables say which characters stand in words. -/
theorem ranges_of_inWord {c : Char} (h : inWord c = true) (hlarge : 128 ≤ c.toNat) :
    ∃ range ∈ letterRanges ++ numeralRanges, range.1 ≤ c.toNat ∧ c.toNat ≤ range.2 := by
  have halpha : ¬ c.isAlpha = true := by
    intro halpha
    rcases Bool.or_eq_true_iff.mp halpha with hupper | hlower
    · have hle : c.toNat ≤ 90 := (of_decide_eq_true hupper).2
      omega
    · have hle : c.toNat ≤ 122 := of_decide_eq_true (Bool.and_eq_true_iff.mp hlower).2
      omega
  have hdigit : ¬ c.isDigit = true := fun hdigit => by
    have hle : c.toNat ≤ 57 := of_decide_eq_true (Bool.and_eq_true_iff.mp hdigit).2
    omega
  have hline : c ≠ '_' := by
    rintro rfl
    exact absurd hlarge (by decide)
  have hrange : inRanges letterRanges c.toNat = true ∨ inRanges numeralRanges c.toNat = true := by
    simpa [inWord, isLetter, isNumeral, halpha, hdigit, hline, hlarge] using h
  simp only [inRanges, List.any_eq_true, Bool.and_eq_true, decide_eq_true_eq] at hrange
  obtain ⟨range, hmem, hrange⟩ | ⟨range, hmem, hrange⟩ := hrange
  · exact ⟨range, List.mem_append_left _ hmem, hrange⟩
  · exact ⟨range, List.mem_append_right _ hmem, hrange⟩

/-- **There is no blank in a word**, -/
theorem isBlank_of_inWord {c : Char} (h : inWord c = true) : isBlank c = false := by
  rw [Bool.eq_false_iff]
  intro hblank
  by_cases hlarge : 128 ≤ c.toNat
  · obtain ⟨r, hr, hcontains⟩ := blankRows_contains hblank hlarge
    obtain ⟨range, hmem, hfirst, hlast⟩ := ranges_of_inWord h hlarge
    have hmisses := List.all_eq_true.mp (List.all_eq_true.mp wordRanges_misses range hmem) r hr
    exact Row.not_contains_of_misses hmisses ⟨hfirst, hlast, nofun⟩ hcontains
  · have hascii := List.all_eq_true.mp inWord_ascii c.toNat (List.mem_range.mpr (by omega))
    rw [Char.ofNat_toNat, h, hblank] at hascii
    cases hascii

/-- and none in front of it. -/
theorem isBlank_of_opensWord {c : Char} (h : opensWord c = true) : isBlank c = false :=
  isBlank_of_inWord (inWord_of_opensWord h)

section Blanks

variable {c : Char} {word : List Char}

theorem ne_slash_of_isBlank (h : isBlank c = true) : c ≠ '/' := by
  rintro rfl
  exact absurd h (by decide)

theorem inWord_of_isDigit (h : c.isDigit = true) : inWord c = true := by
  simp [inWord, isNumeral_of_isDigit h]

theorem inWord_of_isBlank (h : isBlank c = true) : inWord c = false := by
  rw [Bool.eq_false_iff]
  intro hin
  rw [isBlank_of_inWord hin] at h
  cases h

theorem isDigit_of_isBlank (h : isBlank c = true) : c.isDigit = false := by
  rw [Bool.eq_false_iff]
  intro hdigit
  have hin := inWord_of_isBlank h
  rw [inWord_of_isDigit hdigit] at hin
  cases hin

/-- Behind the first character of a word stand no blanks and no slashes. -/
theorem inner_of_inWord (h : ∀ x ∈ word, inWord x = true) :
    ∀ x ∈ word, isBlank x = false ∧ x ≠ '/' := by
  refine fun x hx => ⟨isBlank_of_inWord (h x hx), ?_⟩
  rintro rfl
  exact absurd (h _ hx) (by decide)

end Blanks

end RegisterMachine.Text
