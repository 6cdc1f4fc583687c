/-!
The parts of a text between separators.
-/

namespace LanguageClient.Text

/-- The parts of a text between the occurrences of a separator. There is always at least one. -/
def split (separator : Char) : List Char → List (List Char)
  | [] => [[]]
  | c :: rest =>
    if c = separator then [] :: split separator rest
    else
      match split separator rest with
      | part :: parts => (c :: part) :: parts
      | [] => [[c]]

/-- The parts joined with the separator give the text back. -/
theorem intercalate_split (separator : Char) (s : List Char) :
    [separator].intercalate (split separator s) = s := by
  induction s with
  | nil => rfl
  | cons c rest ih =>
    unfold split
    have hne : split separator rest ≠ [] := by
      cases rest with
      | nil => simp [split]
      | cons d r => simp only [split]; split <;> (try split) <;> simp
    obtain ⟨part, parts, h⟩ := List.exists_cons_of_ne_nil hne
    rw [h] at ih ⊢
    split
    · subst_vars; simp [List.intercalate_cons_cons]
    · cases parts <;> simp_all [List.intercalate_cons_cons]

end LanguageClient.Text
