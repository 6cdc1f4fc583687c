import LanguageClient.Table

/-!
Shared instances: one slot per kind, filled by the first request and kept until it is reset. What a
later request asks for has no effect on an instance that is already there.
-/

namespace LanguageClient

/-- The instance of each kind that has one. -/
abbrev Shared (κ α : Type) := Table κ α

namespace Shared

variable {κ α : Type} [DecidableEq κ]

/-- The instance of a kind, made from the given value if there is none yet. -/
def instance' (kind : κ) (fresh : α) (s : Shared κ α) : α × Shared κ α :=
  match s.get? kind with
  | some there => (there, s)
  | none => (fresh, s.put kind fresh)

/-- Forgets the instance of a kind. -/
def reset (kind : κ) (s : Shared κ α) : Shared κ α := s.erase kind

end Shared

end LanguageClient
