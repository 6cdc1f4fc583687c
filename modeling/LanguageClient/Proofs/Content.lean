import LanguageClient.Content

/-!
Documentation that is empty, and documentation of which nothing is shown. Whether there is anything is asked of the
value as it was sent; what is shown is the text to which it is flattened, with an empty line after each item of a
list. The two agree at every depth: a value is empty exactly if its text is white space and back quotes.

    [ {value: ```}, [ null, x ] ]  ──▶  ``` ␤ ␤ ␤ ␤ x ␤ ␤ ␤ ␤        not empty, because of the x

`isEmptyDocumentation_iff` is the statement.
-/

namespace LanguageClient

/-- Documentation as servers send it: nothing, a text, an object with a text for its value, which is a text
    with a kind or a code sample, or a list of such. -/
inductive IsDocumentation : Json → Prop where
  | null : IsDocumentation .null
  | text (s : String) : IsDocumentation (.str s)
  | object {ms : Members} {s : String} : Members.get? "value" ms = some (.str s) →
      IsDocumentation (.obj ms)
  | list {xs : List Json} : (∀ x ∈ xs, IsDocumentation x) → IsDocumentation (.arr xs)

/-- The text is made of white space and back quotes. -/
def Worthless (s : List Char) : Prop := ∀ c ∈ s, Text.isBlank c = true ∨ c = '\x60'

theorem worthless_append {s t : List Char} : Worthless (s ++ t) ↔ Worthless s ∧ Worthless t :=
  List.forall_mem_append

theorem isEmptyText_iff {s : List Char} : isEmptyText s = true ↔ Worthless s := by
  simp only [isEmptyText, List.all_eq_true, Bool.or_eq_true, beq_iff_eq, Worthless]

/-! ### What is shown -/

/-- An object is shown as its value, which becomes HTML where that is allowed. -/
theorem formatObject_of_value {ms : Members} {s : String} (h : Members.get? "value" ms = some (.str s))
    (allowHtml : Bool) : ∃ t, formatObject allowHtml ms = .ok (.str t) ∧ (allowHtml = false → t = s) := by
  simp only [formatObject, h]
  cases Members.get? "kind" ms <;> cases allowHtml
  · exact ⟨s, rfl, fun _ => rfl⟩
  · exact ⟨_, rfl, fun h => absurd h (by decide)⟩
  · exact ⟨s, by simp, fun _ => rfl⟩
  · rename_i kind
    cases hk : kind.same (.str "markdown")
    · exact ⟨s, by simp [hk], fun h => absurd h (by decide)⟩
    · exact ⟨_, by simp only [hk]; rfl, fun h => absurd h (by decide)⟩

/-- The items of a list are shown if each of them is. -/
theorem formatAll_of_forall {allowHtml : Bool} : ∀ {xs : List Json},
    (∀ x ∈ xs, ∃ s, formatContents allowHtml x = .ok (.str s)) →
    ∃ s, formatAll allowHtml xs = .ok s
  | [], _ => ⟨"", rfl⟩
  | x :: xs, h => by
      obtain ⟨s, hs⟩ := h x (List.mem_cons_self ..)
      obtain ⟨t, ht⟩ := formatAll_of_forall fun y hy => h y (List.mem_cons_of_mem x hy)
      exact ⟨s ++ "\n\n" ++ t, by simp only [formatAll, hs, ht, bind, Except.bind]; rfl⟩

/-- Documentation is shown as a text. -/
theorem IsDocumentation.format {v : Json} (h : IsDocumentation v) (allowHtml : Bool) :
    ∃ s, formatContents allowHtml v = .ok (.str s) := by
  induction h with
  | null => exact ⟨"", rfl⟩
  | text s => exact ⟨s, rfl⟩
  | object hv =>
    obtain ⟨t, ht, _⟩ := formatObject_of_value hv allowHtml
    exact ⟨t, ht⟩
  | list _ ih =>
    obtain ⟨t, ht⟩ := formatAll_of_forall ih
    exact ⟨t, by rw [formatContents, ht]; rfl⟩

/-! ### What is empty -/

/-- An item of a list is followed by an empty line, which is white space. -/
theorem worthless_item {s t : String} :
    Worthless (s ++ "\n\n" ++ t).toList ↔ Worthless s.toList ∧ Worthless t.toList := by
  have hgap : Worthless "\n\n".toList := by
    intro c hc
    obtain rfl : c = '\n' := by simpa using hc
    exact .inl rfl
  simp only [String.toList_append, worthless_append, hgap, and_true]

/-- The items of a list are all empty exactly if nothing is shown of any of them. -/
theorem allEmptyDocumentation_iff : ∀ {xs : List Json} {t : String},
    (∀ x ∈ xs, ∃ s, formatContents false x = .ok (.str s) ∧
      (isEmptyDocumentation x = true ↔ Worthless s.toList)) →
    formatAll false xs = .ok t → (allEmptyDocumentation xs = true ↔ Worthless t.toList)
  | [], t, _, ht => by
      obtain rfl : "" = t := Except.ok.inj ht
      simp [allEmptyDocumentation, Worthless]
  | x :: xs, t, h, ht => by
      obtain ⟨s, hs, hempty⟩ := h x (List.mem_cons_self ..)
      have hrest : ∀ y ∈ xs, ∃ s, formatContents false y = .ok (.str s) ∧
          (isEmptyDocumentation y = true ↔ Worthless s.toList) :=
        fun y hy => h y (List.mem_cons_of_mem x hy)
      obtain ⟨t', ht'⟩ := formatAll_of_forall fun y hy => (hrest y hy).imp fun _ => And.left
      obtain rfl : s ++ "\n\n" ++ t' = t := by
        simp only [formatAll, hs, ht', bind, Except.bind] at ht
        exact Except.ok.inj ht
      rw [allEmptyDocumentation, Bool.and_eq_true, hempty, allEmptyDocumentation_iff hrest ht',
        worthless_item]

/-- Documentation of any depth is shown as a text where there is no HTML, and it counts as empty exactly if
    that text is made of white space and back quotes. -/
theorem isEmptyDocumentation_iff {v : Json} (h : IsDocumentation v) :
    ∃ s : String, formatContents false v = .ok (.str s) ∧
      (isEmptyDocumentation v = true ↔ Worthless s.toList) := by
  induction h with
  | null => exact ⟨"", rfl, by simp [isEmptyDocumentation, Worthless]⟩
  | text s => exact ⟨s, rfl, by rw [isEmptyDocumentation, isEmptyText_iff]⟩
  | @object ms s hv =>
    obtain ⟨t, ht, hplain⟩ := formatObject_of_value hv false
    obtain rfl := hplain rfl
    exact ⟨t, ht, by simp only [isEmptyDocumentation, hv, isEmptyText_iff]⟩
  | @list xs _ ih =>
    obtain ⟨t, ht⟩ := formatAll_of_forall fun x hx => (ih x hx).imp fun _ => And.left
    exact ⟨t, by rw [formatContents, ht]; rfl,
      by rw [isEmptyDocumentation, allEmptyDocumentation_iff ih ht]⟩

/-- An empty code fence and, in a list of their own, a code sample and nothing. Only the sample is worth
    showing, so the documentation is not empty. -/
theorem isEmptyDocumentation_nested :
    let fence : Json := .obj [("kind", .str "markdown"), ("value", .str "```\n```")]
    let sample : Json := .obj [("language", .str "lean"), ("value", .str "x")]
    let v : Json := .arr [fence, .arr [sample, .null]]
    IsDocumentation v ∧ isEmptyDocumentation v = false ∧
      ∃ s : String, formatContents false v = .ok (.str s) ∧ ¬ Worthless s.toList := by
  intro fence sample v
  have hfence : IsDocumentation fence := .object rfl
  have hsample : IsDocumentation sample := .object rfl
  have hpair : IsDocumentation (.arr [sample, .null]) :=
    .list (List.forall_mem_cons.mpr ⟨hsample, List.forall_mem_singleton.mpr .null⟩)
  have hv : IsDocumentation v :=
    .list (List.forall_mem_cons.mpr ⟨hfence, List.forall_mem_singleton.mpr hpair⟩)
  have hempty : isEmptyDocumentation v = false := by decide
  obtain ⟨s, hs, hiff⟩ := isEmptyDocumentation_iff hv
  refine ⟨hv, hempty, s, hs, fun hworthless => ?_⟩
  exact absurd (hiff.mpr hworthless) (by rw [hempty]; decide)

end LanguageClient
