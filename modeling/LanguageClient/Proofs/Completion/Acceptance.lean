import LanguageClient.Completion.Item
import LanguageClient.Proofs.Edit.Resolution
import LanguageClient.Proofs.Edit.Shift

/-!
Accepting a candidate. What it inserts and the edits that come with it go into one batch; the cursor is
worked out on its own, from the offset where the inserted text goes and the edits that end up to it.

    text      a b        candidate   1 ↦ X   with   0:1 ↦ p,  [0:1, 0:2) ↦ q,  0:1 ↦ s
    batch     a s p X q  cursor      1 + 1 + 1 + 1 = 4, behind the X

`Completion.apply_cursor` says that the two always agree.
-/

namespace LanguageClient

/-! ### Refused changes -/

theorem SentChange.inBounds_sent_eq (length : Nat) (c : Change) :
    c.sent.inBounds length = .ok (c.inBounds length) := by
  simp only [inBounds, Change.sent, Json.atMost_int, Json.nat, bind, Except.bind, pure, Except.pure,
    Change.inBounds]
  by_cases hzero : 0 ≤ c.start
  · by_cases hle : c.start ≤ c.stop <;> simp [hzero, hle]
  · simp [hzero]

/-- Changes of which one lies outside the text are refused. -/
theorem SentChange.checkBounds_sent_of_not {length : Nat} : ∀ {changes : List Change},
    (∃ c ∈ changes, c.inBounds length = false) →
      ∃ why, checkBounds length (changes.map Change.sent) = .error (.invalid why)
  | [], h => by simp at h
  | c :: cs, h => by
      simp only [List.map_cons, checkBounds, bind, Except.bind, inBounds_sent_eq]
      cases hc : c.inBounds length with
      | false => exact ⟨_, rfl⟩
      | true =>
        obtain ⟨c', hmem, hout⟩ := h
        rcases List.mem_cons.mp hmem with rfl | hmem
        · simp [hc] at hout
        · obtain ⟨why, hwhy⟩ := checkBounds_sent_of_not ⟨c', hmem, hout⟩
          exact ⟨why, by simp only [if_true, hwhy]⟩

/-- A desk refuses a batch of which one change lies outside the text. -/
theorem Desk.applyChanges_sent_of_not {d : Desk} {changes : List Change}
    (hr : d.view.rejection = none) (h : ∃ c ∈ changes, c.inBounds d.view.text.length = false) :
    ∃ why, d.applyChanges (changes.map Change.sent) = (.error (.invalid why), d) := by
  obtain ⟨why, hwhy⟩ := SentChange.checkBounds_sent_of_not h
  refine ⟨why, ?_⟩
  simp only [Desk.applyChanges, View.prepare, hr, SentChange.checked, hwhy, bind, Except.bind]

/-- A value of which one member can be asked for is an object, so every other can be asked for. -/
theorem Json.get_of_get {v w : Json} {key : String} (other : String) (h : v.get key = .ok w) :
    v.get other = .ok ((v.member? other).getD .null) := by
  cases v <;> simp_all [get, member?]

/-! ### What a candidate asks for -/

/-- What accepting a candidate asks for: the text that goes in, the range of the document that the
    candidate names for it, if it names one, and the edits that come with it. -/
structure Acceptance where
  insert : List Char
  range : Option (Position × Position)
  extra : List TextEdit

namespace Acceptance

/-- The edits that come with a candidate. -/
def extra? (item : Json) : Option (List TextEdit) := do
  let edits := ((item.member? "additionalTextEdits").getD .null).orElse (.arr [])
  (← edits.arr?).mapM TextEdit.ofJson?

/-- The text of a candidate that names no range. -/
def insert? (item label : Json) : Option (List Char) := do
  let inserted := ((item.member? "insertText").getD .null).orElse label
  return (← inserted.str?).toList

/-- The edit of a candidate's own, if it has one. One with two ranges, one for inserting and one for
    replacing, counts as none. -/
def own? : Json → Option (Option TextEdit)
  | .obj ms =>
    match Members.get? "textEdit" ms with
    | none | some .null => some none
    | some (.obj edit) =>
      if Completion.isPlainEdit (.obj edit) then (TextEdit.ofJson? (.obj edit)).map some
      else some none
    | some _ => none
  | _ => none

/-- What is read off a well formed candidate. -/
def ofCompletion? (c : Completion) : Option Acceptance := do
  let extra ← extra? c.item
  match ← own? c.item with
  | some own => return ⟨own.newText, some (own.start, own.stop), extra⟩
  | none => return ⟨← insert? c.item c.label, none, extra⟩

/-- The change that inserts the text, into a document where the token stands from `start` up to
    `stop`. -/
def main (a : Acceptance) (text : List Char) (start stop : Int) : Change :=
  match a.range with
  | none => ⟨start, stop, a.insert⟩
  | some (from', upTo) => (TextEdit.mk from' upTo a.insert).change ⟨text⟩

theorem main_insert (a : Acceptance) (text : List Char) (start stop : Int) :
    (a.main text start stop).insert = a.insert := by
  unfold main
  split <;> rfl

theorem inBounds_main {a : Acceptance} {text : List Char} {start stop : Int}
    (h : a.range = none → 0 ≤ start ∧ start ≤ stop ∧ stop ≤ text.length) :
    (a.main text start stop).inBounds text.length := by
  unfold main
  split
  · rename_i hnone
    exact Change.inBounds_iff.mpr (h hnone)
  · exact TextEdit.inBounds_change text _

/-- The edit of a candidate's own, as it is asked for. -/
theorem get_of_own? {item : Json} {own : Option TextEdit} (h : own? item = some own) :
    ∃ edit, item.get "textEdit" = .ok edit ∧
      (edit.truthy && Completion.isPlainEdit edit) = own.isSome ∧
      ∀ t, own = some t → TextEdit.ofJson? edit = some t := by
  cases item with
  | obj ms =>
    simp only [own?] at h
    refine ⟨(Members.get? "textEdit" ms).getD .null, rfl, ?_⟩
    split at h
    · rename_i hnone
      obtain rfl := Option.some.inj h
      simp [hnone, Json.truthy]
    · rename_i hnull
      obtain rfl := Option.some.inj h
      simp [hnull, Json.truthy]
    · rename_i edit hedit
      rw [hedit, Option.getD_some]
      by_cases hplain : Completion.isPlainEdit (.obj edit)
      · rw [if_pos hplain, Option.map_eq_some_iff] at h
        obtain ⟨t, ht, rfl⟩ := h
        have hne : edit ≠ [] := by
          rintro rfl
          simp [Completion.isPlainEdit, Json.member?, Members.get?] at hplain
        simp [hplain, ht, Json.truthy, hne]
      · rw [if_neg hplain] at h
        obtain rfl := Option.some.inj h
        simp [hplain]
    · simp at h
  | _ => simp [own?] at h

end Acceptance

/-! ### Accepting -/

namespace Completion

variable {c : Completion} {a : Acceptance}

theorem mainChange_of_ofCompletion? (text : List Char) (start stop : Int)
    (h : Acceptance.ofCompletion? c = some a) :
    c.mainChange ⟨text⟩ (.int start) (.int stop) = .ok (a.main text start stop).sent := by
  simp only [Acceptance.ofCompletion?, bind, Option.bind_eq_some_iff] at h
  obtain ⟨extra, -, own, hown, h⟩ := h
  obtain ⟨edit, hget, hplain, hedit⟩ := Acceptance.get_of_own? hown
  have hinsert := Json.get_of_get "insertText" hget
  simp only [mainChange, hget, hplain, bind, Except.bind]
  cases own with
  | some t =>
    obtain rfl := Option.some.inj h
    rw [Option.isSome_some, if_pos rfl, TextEdit.resolveEdit_of_ofJson? (hedit t rfl)]
    rfl
  | none =>
    simp only [Option.bind_eq_some_iff, Acceptance.insert?, bind, pure, Option.some.injEq] at h
    obtain ⟨inserted, ⟨s, hs, rfl⟩, rfl⟩ := h
    simp only [Option.isSome_none, Bool.false_eq_true, if_false, hinsert, pure, Except.pure,
      Json.eq_str_of_str? hs, Acceptance.main, Change.sent, Json.text, String.ofList_toList]

theorem extraChanges_of_ofCompletion? (text : List Char) (h : Acceptance.ofCompletion? c = some a) :
    c.extraChanges ⟨text⟩ =
      .ok ((descending (TextEdit.changes text a.extra)).map Change.sent) := by
  simp only [Acceptance.ofCompletion?, bind, Option.bind_eq_some_iff] at h
  obtain ⟨extra, hextra, own, hown, h⟩ := h
  obtain ⟨edit, hget, -⟩ := Acceptance.get_of_own? hown
  have hextras := Json.get_of_get "additionalTextEdits" hget
  obtain rfl : a.extra = extra := by
    cases own with
    | some t => rw [← Option.some.inj h]
    | none =>
      simp only [Option.bind_eq_some_iff, pure, Option.some.injEq] at h
      obtain ⟨inserted, -, rfl⟩ := h
      rfl
  simp only [Acceptance.extra?, bind, Option.bind_eq_some_iff] at hextra
  obtain ⟨edits, hedits, htyped⟩ := hextra
  simp only [extraChanges, hextras, bind, Except.bind, Json.eq_arr_of_arr? hedits, Json.items,
    resolveEdits_of_ofJson? htyped]

/-- A batch is sorted alike whether a part of it was sorted before or not. -/
theorem descending_sent_cons_descending (main : Change) (extra : List Change) :
    SentChange.descending (main.sent :: (descending extra).map Change.sent) =
      (descending (main :: extra)).map Change.sent := by
  have hsorted : descending (main :: descending extra) = descending (main :: extra) := by
    simp only [descending, sortStable]
    rw [← descending, ← descending, descending_descending]
  rw [← List.map_cons, SentChange.descending_map_sent, hsorted]

section

variable {d : Desk} {start stop : Json} {main : Change} {extra : List Change}

/-- A batch inside the text is carried out, and the cursor put where it is worked out to be. -/
theorem apply_of_inBounds (hr : d.view.rejection = none)
    (hmain : c.mainChange ⟨d.view.text⟩ start stop = .ok main.sent)
    (hextra : c.extraChanges ⟨d.view.text⟩ = .ok ((descending extra).map Change.sent))
    (hb : ∀ c ∈ main :: extra, c.inBounds d.view.text.length) :
    let cursor := Json.int (shiftOffset main.start extra + main.insert.length)
    c.apply Desk.editor start stop d =
      (.ok true, Desk.editor.select cursor cursor (d.after (descending (main :: extra)))) := by
  have hshift : shiftOffset main.start (descending extra) = shiftOffset main.start extra :=
    shiftOffset_perm main.start (sortStable_perm Change.later extra)
  simp only [apply, Desk.editor, hmain, hextra, descending_sent_cons_descending,
    Desk.applyChanges_sent hr hb, placeCursor, SentChange.mapM_typed_sent, SentChange.typed_sent,
    hshift]

/-- A batch of which one change lies outside the text is refused, and one message is shown. -/
theorem apply_of_not_inBounds (hr : d.view.rejection = none)
    (hmain : c.mainChange ⟨d.view.text⟩ start stop = .ok main.sent)
    (hextra : c.extraChanges ⟨d.view.text⟩ = .ok ((descending extra).map Change.sent))
    (hout : ∃ c ∈ main :: extra, c.inBounds d.view.text.length = false) :
    ∃ said noted, c.apply Desk.editor start stop d =
      (.ok false, (d.record .error noted).showMessage "error" said) := by
  have hout : ∃ c ∈ descending (main :: extra), c.inBounds d.view.text.length = false := by
    obtain ⟨c, hmem, hc⟩ := hout
    exact ⟨c, (sortStable_perm _ _).mem_iff.mpr hmem, hc⟩
  obtain ⟨why, hrefused⟩ := Desk.applyChanges_sent_of_not hr hout
  have hdone : c.apply Desk.editor start stop d =
      (.ok false, (d.record .error ("completion apply failed for " ++ c.quotedLabel ++ ": " ++
        (Failure.invalid why).message)).showMessage "error"
          ("Failed to apply completion: " ++ (Failure.invalid why).message)) := by
    simp only [apply, Desk.editor, hmain, hextra, descending_sent_cons_descending, hrefused,
      Failure.isInvalid, if_true]
  exact ⟨_, _, hdone⟩

end

/-- Accepting a well formed candidate puts what it inserts and the edits that come with it into one
    batch. If the batch lies inside the text and its changes are apart, the cursor stands behind what
    was inserted: in front of that is the text before with the edits that end up to it, behind it the
    text after with all others. If the token's place lies outside the text and is used, one message is
    shown and nothing else happens. -/
theorem apply_cursor {d : Desk} (start stop : Int) (hc : Acceptance.ofCompletion? c = some a)
    (hr : d.view.rejection = none) :
    let text := d.view.text
    let main := a.main text start stop
    let extra := TextEdit.changes text a.extra
    let done := c.apply Desk.editor (.int start) (.int stop) d
    ((a.range = none → 0 ≤ start ∧ start ≤ stop ∧ stop ≤ text.length) →
      (main :: extra).Pairwise Change.Apart → ∃ before after batch,
        applyChanges (text.take main.start.toNat) (extra.filter (·.stop ≤ main.start)) = .ok before ∧
        applyChanges (text.drop main.stop.toNat)
          ((extra.filter (main.start < ·.stop)).map (·.back main.stop.toNat)) = .ok after ∧
        done.1 = .ok true ∧
        done.2.view.text = before ++ a.insert ++ after ∧
        done.2.view.selection =
          (.nat (before ++ a.insert).length, .nat (before ++ a.insert).length) ∧
        done.2.batches = d.batches ++ [(done.2.view.text, batch)] ∧ batch.Perm (main :: extra) ∧
        done.2.view.messages = d.view.messages) ∧
    (a.range = none → ¬ (0 ≤ start ∧ start ≤ stop ∧ stop ≤ text.length) → ∃ said,
      done.1 = .ok false ∧ done.2.view = d.view.addMessage "error" said ∧
        done.2.batches = d.batches) := by
  intro text main extra done
  have hmain := mainChange_of_ofCompletion? text start stop hc
  have hextra := extraChanges_of_ofCompletion? text hc
  refine ⟨fun hin ha => ?_, fun hnone hout => ?_⟩
  · have hb : ∀ c ∈ main :: extra, c.inBounds text.length :=
      List.forall_mem_cons.mpr ⟨Acceptance.inBounds_main hin, TextEdit.inBounds_of_mem_changes _ _⟩
    obtain ⟨before, after, hbefore, hafter, htext, hshift⟩ := splice_around hb ha
    have hcursor : shiftOffset main.start extra + main.insert.length =
        ((before ++ a.insert).length : Int) := by
      rw [← hshift, Acceptance.main_insert, List.length_append, Int.natCast_add]
    have hdone := apply_of_inBounds hr hmain hextra hb
    rw [hcursor] at hdone
    rw [Acceptance.main_insert] at htext
    refine ⟨before, after, descending (main :: extra), hbefore, hafter, ?_⟩
    simp only [done, hdone]
    exact ⟨trivial, htext, rfl, rfl, sortStable_perm _ _, rfl⟩
  · have hmem : main.inBounds text.length = false := by
      rw [← Bool.not_eq_true, Change.inBounds_iff]
      simpa only [main, Acceptance.main, hnone] using hout
    obtain ⟨said, noted, hdone⟩ :=
      apply_of_not_inBounds hr hmain hextra ⟨main, List.mem_cons_self, hmem⟩
    simp only [done, hdone]
    exact ⟨said, trivial, rfl, rfl⟩

/-- An insertion between two other insertions at its offset and a replacement that starts there; put
    behind the end of the text it is refused. -/
theorem apply_cursor_between :
    let edits : List TextEdit :=
      [⟨⟨0, 1⟩, ⟨0, 1⟩, ['p']⟩, ⟨⟨0, 1⟩, ⟨0, 2⟩, ['q']⟩, ⟨⟨0, 1⟩, ⟨0, 1⟩, ['s']⟩]
    let item : Json :=
      .obj [("label", .str "X"), ("additionalTextEdits", .arr (edits.map TextEdit.toJson))]
    let c : Completion := ⟨item, .str "X", .null, .null, false⟩
    let d : Desk := { view := { text := ['a', 'b'] } }
    Acceptance.ofCompletion? c = some ⟨['X'], none, edits⟩ ∧
      ((⟨1, 1, ['X']⟩ : Change) :: TextEdit.changes d.view.text edits).Pairwise Change.Apart ∧
      (c.apply Desk.editor (.int 1) (.int 1) d).2.view.text = ['a', 's', 'p', 'X', 'q'] ∧
      (c.apply Desk.editor (.int 1) (.int 1) d).2.view.selection = (.nat 4, .nat 4) ∧
      (c.apply Desk.editor (.int 3) (.int 3) d).1 = .ok false := by
  intro edits item c d
  have hc : Acceptance.ofCompletion? c = some ⟨['X'], none, edits⟩ := rfl
  have ha : ((⟨1, 1, ['X']⟩ : Change) :: TextEdit.changes d.view.text edits).Pairwise
      Change.Apart := by decide
  obtain ⟨before, after, -, hbefore, hafter, -, htext, hselection, -⟩ :=
    (apply_cursor (d := d) 1 1 hc rfl).1 (fun _ => by decide) ha
  obtain ⟨said, hfalse, -⟩ := (apply_cursor (d := d) 3 3 hc rfl).2 rfl (by decide)
  obtain rfl : ['a', 's', 'p'] = before := Except.ok.inj hbefore
  obtain rfl : ['q'] = after := Except.ok.inj hafter
  exact ⟨hc, ha, htext, hselection, hfalse⟩

end Completion

end LanguageClient
