import LanguageClient.Completion.Item

/-!
What is read off a candidate. The code asks for one member at a time and finds out only then whether it
is a text; of a candidate whose names are texts, where it has them, every reading succeeds.

    {label: "Über", sortText: ""}      sort text  Über      filter text  Über      shape  Über

An empty member counts as a missing one, and the label stands in for it.
-/

namespace LanguageClient

namespace Json

/-- Is this an object in which the member is missing or a text? -/
def mayHaveText (key : String) : Json → Bool
  | .obj ms =>
    match Members.get? key ms with
    | none | some (.str _) => true
    | some _ => false
  | _ => false

/-- The text of a member; a missing one counts as empty. -/
def textAt (key : String) (v : Json) : List Char :=
  match v.member? key with
  | some (.str s) => s.toList
  | _ => []

theorem truthy_text (s : List Char) : (text s).truthy = !s.isEmpty := by
  cases s <;> simp [text, truthy, String.ofList_eq_empty_iff]

theorem text_toList (s : String) : text s.toList = .str s := by rw [text, String.ofList_toList]

theorem chars_text (operation : String) (s : List Char) : (text s).chars operation = .ok s := by
  rw [text, chars, String.toList_ofList]

theorem items_text (s : List Char) : (text s).items = .ok (s.map fun c => text [c]) := by
  rw [text, items, String.toList_ofList]

theorem item_text_zero (c : Char) (more : List Char) :
    (text (c :: more)).item (.int 0) = .ok (text [c]) := by
  rw [text, item, number?, String.toList_ofList]
  rfl

/-- A member that may be missing is null or its text. -/
theorem get_of_mayHaveText {key : String} {v : Json} (h : v.mayHaveText key) :
    (v.get key = .ok .null ∧ v.textAt key = []) ∨ v.get key = .ok (text (v.textAt key)) := by
  cases v with
  | obj ms =>
    simp only [mayHaveText] at h
    cases hm : Members.get? key ms with
    | none => exact .inl ⟨by simp [get, hm], by simp [textAt, member?, hm]⟩
    | some w =>
      cases w with
      | str s => exact .inr (by simp [get, textAt, member?, hm, text_toList])
      | _ => simp [hm] at h
  | _ => simp [mayHaveText] at h

theorem getOr_of_mayHaveText {key : String} {v : Json} (h : v.mayHaveText key) :
    v.getOr key (.str "") = .ok (text (v.textAt key)) := by
  cases v with
  | obj ms =>
    simp only [mayHaveText] at h
    cases hm : Members.get? key ms with
    | none => simp [getOr, textAt, member?, hm, text]
    | some w =>
      cases w with
      | str s => simp [getOr, textAt, member?, hm, text_toList]
      | _ => simp [hm] at h
  | _ => simp [mayHaveText] at h

end Json

/-- Readings that succeed one by one succeed together. -/
theorem mapM_eq_ok {α β ε : Type} {f : α → Except ε β} {g : α → β} :
    ∀ {items : List α}, (∀ a ∈ items, f a = .ok (g a)) → items.mapM f = .ok (items.map g)
  | [], _ => rfl
  | a :: rest, h => by
      obtain ⟨ha, hrest⟩ := List.forall_mem_cons.mp h
      simp only [List.mapM_cons, ha, mapM_eq_ok hrest, bind, Except.bind, pure, Except.pure,
        List.map_cons]

namespace Candidate

def label (item : Json) : List Char := item.textAt "label"

/-- The text of a member, or else the label. -/
def textOr (key : String) (item : Json) : List Char :=
  if (item.textAt key).isEmpty then label item else item.textAt key

/-- The text by which a candidate is sorted. -/
def sortText (item : Json) : List Char := textOr "sortText" item

/-- The text by which a candidate is kept or not. -/
def filterText (item : Json) : List Char := textOr "filterText" item

/-- The text that a candidate is to look like: what its own edit inserts, or else its label. -/
def shape (item : Json) : List Char :=
  match ((item.member? "textEdit").map (·.textAt "newText")).getD [] with
  | [] => label item
  | c :: more => c :: more

/-- A candidate whose names are texts, where it has them. -/
def legible (item : Json) : Bool :=
  item.mayHaveText "label" && item.mayHaveText "sortText" && item.mayHaveText "filterText"

/-- A candidate whose label is a text, and also what its own edit inserts, where it has them. -/
def shapely (item : Json) : Bool :=
  item.mayHaveText "label" &&
    match item.member? "textEdit" with
    | none | some .null => true
    | some edit => edit.mayHaveText "newText"

/-- A candidate that can be shown: it has a label, its kind is a number if it has one, and its
    details are members of an object. -/
def presentable (item : Json) : Bool :=
  (item.member? "label").isSome &&
    (match item.member? "kind" with
      | none | some (.int _) => true
      | some _ => false) &&
    match item.member? "labelDetails" with
    | none | some (.obj _) => true
    | some _ => false

section

variable {item : Json}

theorem mayHaveText_label (h : legible item) : item.mayHaveText "label" := by
  simp only [legible, Bool.and_eq_true] at h
  exact h.1.1

theorem mayHaveText_sortText (h : legible item) : item.mayHaveText "sortText" := by
  simp only [legible, Bool.and_eq_true] at h
  exact h.1.2

theorem mayHaveText_filterText (h : legible item) : item.mayHaveText "filterText" := by
  simp only [legible, Bool.and_eq_true] at h
  exact h.2

theorem textOrLabel_eq {key : String} (hkey : item.mayHaveText key) (h : legible item) :
    textOrLabel key item = .ok (.text (textOr key item)) := by
  have hlabel := Json.getOr_of_mayHaveText (mayHaveText_label h)
  rw [textOrLabel, textOr, label]
  rcases Json.get_of_mayHaveText hkey with ⟨hget, hnone⟩ | hget
  · simp only [hget, hnone, bind, Except.bind, Json.truthy, Bool.false_eq_true, if_false, hlabel,
      List.isEmpty_nil, if_true]
  · simp only [hget, bind, Except.bind, Json.truthy_text, hlabel, pure, Except.pure]
    cases item.textAt key <;> simp

theorem sortText_eq (h : legible item) :
    LanguageClient.sortText item = .ok (.text (sortText item)) :=
  textOrLabel_eq (mayHaveText_sortText h) h

/-- The label as it is asked for when nothing is inserted. -/
theorem get_label_orElse (h : item.mayHaveText "label") :
    (do return (← item.get "label").orElse (.str "") : Except Failure Json) =
      .ok (.text (label item)) := by
  rw [label]
  rcases Json.get_of_mayHaveText h with ⟨hget, hnone⟩ | hget
  · simp [hget, hnone, bind, Except.bind, pure, Except.pure, Json.orElse, Json.truthy, Json.text]
  · simp only [hget, bind, Except.bind, pure, Except.pure, Json.orElse, Json.truthy_text]
    cases item.textAt "label" <;> simp [Json.text]

/-- What an edit inserts, where it is missing or not. -/
theorem get_newText {edit : Option Json} (h : (match edit with
      | none | some .null => true
      | some edit => edit.mayHaveText "newText") = true) :
    ∃ v, ((edit.getD .null).orElse (.obj [])).get "newText" = .ok v ∧
      ((v = .null ∧ (edit.map (·.textAt "newText")).getD [] = []) ∨
        v = .text ((edit.map (·.textAt "newText")).getD [])) := by
  have hobj : ∀ ms, (Json.obj ms).orElse (.obj []) = .obj ms := by
    intro ms
    cases ms <;> rfl
  cases edit with
  | none => exact ⟨.null, rfl, .inl ⟨rfl, rfl⟩⟩
  | some edit =>
    cases edit with
    | null => exact ⟨.null, rfl, .inl ⟨rfl, rfl⟩⟩
    | obj ms =>
      rw [Option.getD_some, hobj]
      rcases Json.get_of_mayHaveText h with ⟨hget, hnone⟩ | hget
      · exact ⟨_, hget, .inl ⟨rfl, hnone⟩⟩
      · exact ⟨_, hget, .inr rfl⟩
    | _ => simp [Json.mayHaveText] at h

theorem candidateText_eq (h : shapely item) : candidateText item = .ok (.text (shape item)) := by
  simp only [shapely, Bool.and_eq_true] at h
  obtain ⟨hlabel, hedit⟩ := h
  obtain ⟨ms, rfl⟩ : ∃ ms, item = .obj ms := by
    cases item <;> simp [Json.mayHaveText] at hlabel ⊢
  have hget : (Json.obj ms).get "textEdit" = .ok (((Json.obj ms).member? "textEdit").getD .null) := rfl
  obtain ⟨v, hnew, hv⟩ := get_newText hedit
  have hlabel := get_label_orElse hlabel
  simp only [candidateText, hget, hnew, shape, bind, Except.bind]
  rcases hv with ⟨rfl, hnone⟩ | rfl
  · simp only [hnone, Json.truthy, Bool.false_eq_true, if_false]
    exact hlabel
  · rw [Json.truthy_text]
    cases ((Json.obj ms).member? "textEdit").map (·.textAt "newText") |>.getD [] with
    | nil => exact hlabel
    | cons c more => rfl

end

end Candidate

end LanguageClient
