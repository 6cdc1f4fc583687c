import LanguageClient.Text.Split

/-!
The written form of a directory: empty parts and parts that stay where they are do not count. A
leading slash is kept; two leading slashes are kept as two, more count as one.
-/

namespace LanguageClient.Transport

/-- The parts that lead somewhere. -/
def properParts (path : List Char) : List (List Char) :=
  (Text.split '/' path).filter fun part => part ≠ [] ∧ part ≠ ['.']

/-- The slashes at the front that are kept. -/
def pathRoot (path : List Char) : List Char :=
  match (path.takeWhile (· = '/')).length with
  | 0 => []
  | 2 => ['/', '/']
  | _ => ['/']

/-- A directory in its written form. The directory itself is a point. -/
def directory (path : List Char) : List Char :=
  match pathRoot path ++ List.intercalate ['/'] (properParts path) with
  | [] => ['.']
  | shown => shown

end LanguageClient.Transport
