import LanguageClient.Proofs.Completion.Members
import LanguageClient.Proofs.Text.Lower

/-!
Which candidates a token leaves. Of candidates that can be read the filter keeps those that pass one
test, in the order in which they came: the token is no word, or the lower case of the filter text
begins with the lower case of the token.
-/

namespace LanguageClient

namespace Candidate

/-- Does a token leave the candidate? -/
def passes (token : List Char) (item : Json) : Bool :=
  !isWordToken token || (Text.lower token).isPrefixOf (Text.lower (filterText item))

theorem matchesWord_eq {item : Json} (h : legible item) (word : List Char) :
    matchesWord word item = .ok (word.isPrefixOf (Text.lower (filterText item))) := by
  have htext := textOrLabel_eq (mayHaveText_filterText h) h
  simp only [matchesWord, htext, bind, Except.bind, Json.chars_text, pure, Except.pure, filterText]

end Candidate

/-- A test that never fails keeps what passes it. -/
theorem keepIf_eq_filter {test : Json → Except Failure Bool} {p : Json → Bool} :
    ∀ {items : List Json}, (∀ item ∈ items, test item = .ok (p item)) →
      keepIf test items = .ok (items.filter p)
  | [], _ => rfl
  | item :: rest, h => by
      obtain ⟨hitem, hrest⟩ := List.forall_mem_cons.mp h
      simp only [keepIf, hitem, keepIf_eq_filter hrest, bind, Except.bind, pure, Except.pure,
        List.filter_cons]

/-- Of candidates that can be read the filter keeps those that the token leaves. -/
theorem filterItems_eq {items : List Json} (h : ∀ item ∈ items, Candidate.legible item)
    (token : List Char) : filterItems items token = .ok (items.filter (Candidate.passes token)) := by
  rw [filterItems]
  split
  · rename_i hword
    rw [keepIf_eq_filter fun item hitem => Candidate.matchesWord_eq (h item hitem) _]
    congr 2
    funext item
    rw [Candidate.passes, hword, Bool.not_true, Bool.false_or]
  · rename_i hword
    have hall : ∀ item ∈ items, Candidate.passes token item := fun item _ => by
      simp [Candidate.passes, hword]
    rw [List.filter_eq_self.mpr hall]

/-- A candidate whose filter text begins with the token is left, unless the token is a word that ends
    in a sigma which stands inside a word of the filter text. -/
theorem Candidate.passes_of_prefix {token rest : List Char} {item : Json}
    (h : filterText item = token ++ rest) :
    passes token item = !(isWordToken token && Text.sigmaTurns [] token rest) := by
  have hbegins := Text.lower_isPrefixOf_iff token rest
  rw [passes, h]
  cases hturns : Text.sigmaTurns [] token rest with
  | false => simp [hbegins.mpr hturns]
  | true =>
    have hnot : ¬ (Text.lower token).isPrefixOf (Text.lower (token ++ rest)) := by
      rw [hbegins, hturns]
      simp
    simp [hnot]

end LanguageClient
