/-! # What is left of a list that is being read

A reader takes a list apart from the front and answers with the rest of it. It reads on only if the
rest is shorter, so the length travels with the rest.

* `Shorter` is a rest behind at least one entry, `AtMost` a rest behind any number of them.
* `Shorter.tail`, `Shorter.skip`, `AtMost.all` are the first steps of a reader.
* `trans` joins two steps, `behind` puts an entry in front. -/

namespace RegisterMachine

/-- **What is left of a list, at least one entry of it read.** -/
abbrev Shorter {α : Type} (all : List α) := { rest : List α // rest.length < all.length }

/-- **What is left of a list.** -/
abbrev AtMost {α : Type} (all : List α) := { rest : List α // rest.length ≤ all.length }

section Lengths

variable {α : Type} {a b c : List α}

theorem length_tail_lt (first : α) (rest : List α) : rest.length < (first :: rest).length :=
  Nat.lt_succ_self _

theorem length_dropWhile_le (p : α → Bool) (l : List α) : (l.dropWhile p).length ≤ l.length :=
  (List.dropWhile_suffix p).length_le

theorem length_dropWhile_lt (p : α → Bool) (first : α) (l : List α) :
    (l.dropWhile p).length < (first :: l).length :=
  Nat.lt_succ_of_le (length_dropWhile_le p l)

theorem length_le_self (l : List α) : l.length ≤ l.length := Nat.le_refl _

theorem length_lt_of_lt_of_lt (h : b.length < a.length) (h' : c.length < b.length) :
    c.length < a.length :=
  Nat.lt_trans h' h

theorem length_le_of_lt (h : b.length < a.length) : b.length ≤ a.length := Nat.le_of_lt h

theorem length_lt_cons (first : α) (h : b.length < a.length) : b.length < (first :: a).length :=
  Nat.lt_succ_of_lt h

end Lengths

namespace Shorter

variable {α : Type} {all : List α}

/-- The list without its first entry. -/
def tail (first : α) (rest : List α) : Shorter (first :: rest) :=
  ⟨rest, length_tail_lt first rest⟩

/-- The list without its first entry and those that follow with the property `p`. -/
def skip (p : α → Bool) (first : α) (rest : List α) : Shorter (first :: rest) :=
  ⟨rest.dropWhile p, length_dropWhile_lt p first rest⟩

/-- A rest of a rest. -/
def trans : (step : Shorter all) → Shorter step.1 → Shorter all
  | ⟨_, h⟩, ⟨rest, h'⟩ => ⟨rest, length_lt_of_lt_of_lt h h'⟩

/-- A rest of the list is a rest of the list with an entry in front. -/
def behind (first : α) : Shorter all → Shorter (first :: all)
  | ⟨rest, h⟩ => ⟨rest, length_lt_cons first h⟩

def toAtMost : Shorter all → AtMost all
  | ⟨rest, h⟩ => ⟨rest, length_le_of_lt h⟩

@[simp] theorem tail_val (first : α) (rest : List α) : (tail first rest).1 = rest := rfl

@[simp] theorem skip_val (p : α → Bool) (first : α) (rest : List α) :
    (skip p first rest).1 = rest.dropWhile p := rfl

@[simp] theorem trans_val (step : Shorter all) (rest : Shorter step.1) :
    (step.trans rest).1 = rest.1 := rfl

@[simp] theorem behind_val (first : α) (rest : Shorter all) : (rest.behind first).1 = rest.1 := rfl

@[simp] theorem toAtMost_val (rest : Shorter all) : rest.toAtMost.1 = rest.1 := rfl

end Shorter

/-- The whole list. -/
def AtMost.all {α : Type} (l : List α) : AtMost l := ⟨l, length_le_self l⟩

@[simp] theorem AtMost.all_val {α : Type} (l : List α) : (all l).1 = l := rfl

end RegisterMachine
