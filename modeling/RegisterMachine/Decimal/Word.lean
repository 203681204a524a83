/-! # Decimal digits as 32-bit words

The numbers of both languages are written in ASCII digits and must fit in a word.

* `value`: the number that a row of digits spells, leading zeros allowed.
* `word?`: the same as a word, nothing if it does not fit. -/

namespace RegisterMachine.Decimal

/-- The number of words. -/
def wordCount : Nat := 4294967296

/-- The number that a row of digits spells. -/
def value (digits : List Char) : Nat :=
  digits.foldl (fun n d => 10 * n + (d.toNat - '0'.toNat)) 0

/-- **The word that a row of digits spells.** -/
def word? (digits : List Char) : Option UInt32 :=
  if value digits < wordCount then some (UInt32.ofNat (value digits)) else none

theorem toNat_of_word? {digits : List Char} {w : UInt32} (h : word? digits = some w) :
    w.toNat = value digits := by
  unfold word? at h
  split at h
  · rename_i hlt
    cases h
    exact UInt32.toNat_ofNat_of_lt' hlt
  · cases h

theorem word?_eq_none_iff {digits : List Char} :
    word? digits = none ↔ wordCount ≤ value digits := by
  unfold word?; split <;> simp <;> omega

end RegisterMachine.Decimal
