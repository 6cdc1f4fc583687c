import LanguageClient.Text.Ranges

/-!
White space of every script, and trimming it off both ends of a text.
-/

namespace LanguageClient.Text

/-- Code points that separate words or lines. -/
def blankRanges : Ranges :=
  [(9, 13), (28, 32), (133, 133), (160, 160), (5760, 5760), (8192, 8202), (8232, 8233),
  (8239, 8239), (8287, 8287), (12288, 12288)]

/-- White space, line and paragraph separators included; the zero-width marks are not in it. -/
def isBlank (c : Char) : Bool := blankRanges.has c

/-- Drops the white space at the end. -/
def trimEnd (s : List Char) : List Char := (s.reverse.dropWhile isBlank).reverse

/-- Drops the white space at both ends. -/
def trim (s : List Char) : List Char := trimEnd (s.dropWhile isBlank)

end LanguageClient.Text
