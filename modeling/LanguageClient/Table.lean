/-!
Small tables: association lists with at most one entry per key, in the order in which the keys were
first written.
-/

namespace LanguageClient

/-- Entries of a table. -/
abbrev Table (κ α : Type) := List (κ × α)

namespace Table

variable {κ α : Type} [DecidableEq κ]

/-- The value under a key. -/
def get? (key : κ) : Table κ α → Option α
  | [] => none
  | (k, v) :: rest => if k = key then some v else get? key rest

/-- Writes a value: an old key keeps its place, a new one goes to the end. -/
def put (key : κ) (value : α) : Table κ α → Table κ α
  | [] => [(key, value)]
  | (k, v) :: rest => if k = key then (k, value) :: rest else (k, v) :: put key value rest

/-- Removes a key. -/
def erase (key : κ) (t : Table κ α) : Table κ α := t.filter (fun e => e.1 ≠ key)

/-- Changes the value under a key, if there is one. -/
def update (key : κ) (f : α → α) (t : Table κ α) : Table κ α :=
  t.map fun (k, v) => if k = key then (k, f v) else (k, v)

def has (key : κ) (t : Table κ α) : Bool := (get? key t).isSome

end Table

end LanguageClient
