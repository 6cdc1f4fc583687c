/-!
The registry of attached documents: nothing is in it twice, and the order is that of attaching.
-/

namespace LanguageClient

/-- A call that attaches or detaches a member. -/
inductive Registration (α : Type) where
  | attach (x : α)
  | detach (x : α)
  deriving DecidableEq, Repr

/-- What is attached, in the order of attaching. -/
abbrev Registry (α : Type) := List α

namespace Registry

variable {α : Type} [DecidableEq α]

/-- Adds a member, and says whether it is new. -/
def attach (x : α) (r : Registry α) : Bool × Registry α :=
  if x ∈ r then (false, r) else (true, r ++ [x])

/-- Removes a member, and says whether it was there. -/
def detach (x : α) (r : Registry α) : Bool × Registry α :=
  if x ∈ r then (true, List.erase r x) else (false, r)

/-- The registry after a call. -/
def register (r : Registry α) : Registration α → Registry α
  | .attach x => (r.attach x).2
  | .detach x => (r.detach x).2

/-- Removes the members one by one, as they stood before the first was removed. -/
def detachAll (r : Registry α) : List α × Registry α :=
  (r, r.foldl (fun r x => (detach x r).2) r)

end Registry

end LanguageClient
