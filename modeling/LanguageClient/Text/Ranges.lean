/-!
Sets of code points written as sorted lists of closed intervals. A character class of the Unicode
standard is such a list, and membership is one walk that stops at the first interval past the
code point.

    [(48, 57), (65, 90), …]      48 ≤ c ≤ 57  or  65 ≤ c ≤ 90  or  …
-/

namespace LanguageClient.Text

/-- Closed intervals of code points, in ascending order and pairwise disjoint. -/
abbrev Ranges := List (Nat × Nat)

/-- Is the code point inside one of the intervals? The walk ends at the first interval that
    starts after it. -/
def Ranges.mem : Ranges → Nat → Bool
  | [], _ => false
  | (lo, hi) :: rest, c => if c < lo then false else if c ≤ hi then true else Ranges.mem rest c

/-- Is the character inside one of the intervals? -/
def Ranges.has (r : Ranges) (c : Char) : Bool := r.mem c.toNat

end LanguageClient.Text
