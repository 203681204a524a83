/-! # Paths

A path is a row of names between slashes. Empty names and single points in it say nothing, except
for a point at its start.

* `fileName?`, `extension?`: the last name of a path, and what stands behind its last point.
* `parent?`: the path without its last name; it is shorter (`length_parent?`).
* `ancestors`: a path and all that lead to it, the nearest first. -/

namespace RegisterMachine.Path

/-- The names of a path, in order, with those that say nothing. -/
def parts (path : List Char) : List (List Char) := path.splitOn '/'

/-- The last name of a path, slashes and single points at its end dropped. -/
def fileName? (path : List Char) : Option (List Char) :=
  match ((parts path).filter fun part => part ≠ [] ∧ part ≠ ['.']).getLast? with
  | some ['.', '.'] | none => none
  | some name => some name

/-- What stands behind the last point of a name, unless the name starts with it. -/
def extension? (name : List Char) : Option (List Char) :=
  let reversed := name.reverse
  match reversed.dropWhile (· != '.') with
  | '.' :: _ :: _ => some (reversed.takeWhile (· != '.')).reverse
  | _ => none

/-! ## What leads to a path -/

/-- A path, written backwards, without slashes and single points behind its last name. The root
stays. -/
def trim : List Char → List Char
  | ['/'] => ['/']
  | ['.', '/'] => ['/']
  | '/' :: rest => trim rest
  | '.' :: '/' :: rest => trim rest
  | path => path

theorem length_trim (path : List Char) : (trim path).length ≤ path.length := by
  fun_induction trim path <;> simp_all <;> omega

/-- **The path without its last name**, unless it has none. -/
def parent? (path : List Char) : Option (List Char) :=
  match trim path.reverse with
  | [] | ['/'] => none
  | _ :: rest => some (trim (rest.dropWhile (· != '/'))).reverse

theorem length_parent? {path shorter : List Char} (h : parent? path = some shorter) :
    shorter.length < path.length := by
  have trimmed := length_trim path.reverse
  unfold parent? at h
  split at h
  · cases h
  · cases h
  · rename_i rest _ found
    cases h
    have := length_trim (rest.dropWhile (· != '/'))
    have := (List.dropWhile_sublist (l := rest) (· != '/')).length_le
    simp only [found, List.length_cons, List.length_reverse] at *
    omega

/-- **A path and all that lead to it**, the nearest first. -/
def ancestors (path : List Char) : List (List Char) :=
  match h : parent? path with
  | none => [path]
  | some shorter =>
    have := length_parent? h
    path :: ancestors shorter
termination_by path.length

end RegisterMachine.Path
