import LanguageClient.Json.Order
import LanguageClient.Text.Alphanumeric
import LanguageClient.Text.Lower

/-!
Which candidates are shown and in which order. A word token keeps the candidates that start with it
in any case; other tokens keep all. The order is, first to last: the sort text starts with the token
as typed; the language's own preference; names without a leading underscore; the sort text itself.
A sort text given by the server is compared as it is, a label that stands in for one is compared in
lower case. What all four do not tell apart stays in the server's order.
-/

namespace LanguageClient

/-- A member that is a text, or else the label; the text it must then be is asked for by an
    operation. -/
def textOrLabel (key : String) (item : Json) : Except Failure Json := do
  let own ← item.get key
  if own.truthy then return own
  item.getOr "label" (.str "")

/-- The text by which a candidate is sorted. -/
def sortText (item : Json) : Except Failure Json := textOrLabel "sortText" item

/-- A token made of word characters only; a line break at its end is allowed. -/
def isWordToken (token : List Char) : Bool :=
  let core := match token.reverse with
    | '\n' :: more => more.reverse
    | _ => token
  !core.isEmpty && core.all Text.isWord

/-- Does the candidate's filter text start with the word, which is in lower case? -/
def matchesWord (word : List Char) (item : Json) : Except Failure Bool := do
  let text ← (← textOrLabel "filterText" item).chars "lower"
  return word.isPrefixOf (Text.lower text)

/-- The items that satisfy a test, or the first failure of the test. -/
def keepIf (test : Json → Except Failure Bool) : List Json → Except Failure (List Json)
  | [] => .ok []
  | x :: xs => do
    let keep ← test x
    let rest ← keepIf test xs
    return if keep then x :: rest else rest

/-- The candidates that a token leaves. -/
def filterItems (items : List Json) (token : List Char) : Except Failure (List Json) :=
  if isWordToken token then keepIf (matchesWord (Text.lower token)) items else .ok items

/-- What decides the place of a candidate, most important first. -/
structure Rank where
  exact : Nat
  preference : Nat
  underscored : Nat
  text : Json

namespace Rank

/-- Do the first three decide nothing? -/
def sameClass (a b : Rank) : Bool :=
  a.exact == b.exact && a.preference == b.preference && a.underscored == b.underscored

/-- Does the first come before the second? Sort texts that have no order decide nothing. -/
def before (a b : Rank) : Bool :=
  if a.exact ≠ b.exact then a.exact < b.exact
  else if a.preference ≠ b.preference then a.preference < b.preference
  else if a.underscored ≠ b.underscored then a.underscored < b.underscored
  else
    match a.text.less b.text with
    | .ok answer => answer
    | .error _ => false

/-- Fails if the sort texts have to decide and have no order. -/
def comparable (a b : Rank) : Except Failure Unit :=
  if a.sameClass b && !a.text.same b.text then do
    let _ ← a.text.less b.text
    return ()
  else .ok ()

/-- Fails if two of the ranks cannot be compared. -/
def allComparable : List Rank → Except Failure Unit
  | [] => .ok ()
  | r :: rest => do
    rest.forM (comparable r)
    allComparable rest

end Rank

/-- The preference of the language: Python shows keyword arguments (`name=`) first. -/
def languagePreference (language : String) (item : Json) : Except Failure Nat :=
  if language = "python" then do
    let label ← (← item.getOr "label" (.str "")).chars "endswith"
    return if label.getLast? = some '=' then 0 else 1
  else .ok 0

/-- Does the label or the sort text start with an underscore? -/
def isUnderscored (item : Json) : Except Failure Bool := do
  let label ← (← item.getOr "label" (.str "")).chars "startswith"
  if label.head? = some '_' then return true
  return (← (← sortText item).chars "startswith").head? = some '_'

/-- Zero if the sort text starts with the token as typed, else one. -/
def exactness (token : List Char) (text : Json) : Except Failure Nat :=
  if token.isEmpty then .ok 1
  else do return if token.isPrefixOf (← text.chars "startswith") then 0 else 1

/-- The text that decides last: a label that stands in for a sort text is in lower case. -/
def rankText (item text : Json) : Except Failure Json := do
  if (← item.get "sortText").truthy then return text
  return .text (Text.lower (← text.chars "lower"))

/-- What decides the place of a candidate. -/
def rank (token : List Char) (language : String) (item : Json) : Except Failure Rank := do
  let text ← sortText item
  let exact ← exactness token text
  let preference ← languagePreference language item
  let underscored ← isUnderscored item
  return ⟨exact, preference, if underscored then 1 else 0, ← rankText item text⟩

/-- The candidates that a token leaves, in the order in which they are shown. -/
def rankItems (items : List Json) (token : List Char) (language : String) :
    Except Failure (List Json) := do
  let kept ← filterItems items token
  let ranked ← kept.mapM fun item => do return (← rank token language item, item)
  Rank.allComparable (ranked.map (·.1))
  return (sortStable (fun a b => a.1.before b.1) ranked).map (·.2)

end LanguageClient
