import LanguageClient.Json.Printer
import LanguageClient.Text.Quoted

/-!
How a JSON value is shown to people in log lines, messages and settings: texts in quotes, truth
values and null by name, a blank after each comma and colon.
-/

namespace LanguageClient.Json

/-- A floating-point number as it is shown. -/
def displayFloat : Binary64 → List Char
  | .nan => "nan".toList
  | .infinite negative => (if negative then ['-'] else []) ++ "inf".toList
  | x => x.render

mutual

/-- A value as it is shown inside another one. -/
def display : Json → List Char
  | .null => "None".toList
  | .bool b => (if b then "True" else "False").toList
  | .int n => renderInt n
  | .float x => displayFloat x
  | .str s => Text.quoted s.toList
  | .arr [] => ['[', ']']
  | .arr (x :: xs) => '[' :: (display x ++ displayItems xs)
  | .obj [] => ['{', '}']
  | .obj ((k, v) :: ms) =>
    '{' :: (Text.quoted k.toList ++ ':' :: ' ' :: (display v ++ displayMembers ms))

def displayItems : List Json → List Char
  | [] => [']']
  | x :: xs => ',' :: ' ' :: (display x ++ displayItems xs)

def displayMembers : Members → List Char
  | [] => ['}']
  | (k, v) :: ms =>
    ',' :: ' ' :: (Text.quoted k.toList ++ ':' :: ' ' :: (display v ++ displayMembers ms))

end

/-- A value inside a sentence: a text stands as it is, all else as it is shown. -/
def shown : Json → String
  | .str s => s
  | v => String.ofList v.display

end LanguageClient.Json
