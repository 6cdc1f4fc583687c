import LanguageClient.Diagnostics

/-!
Edits land whole or not at all, whatever JSON was sent as an edit. Reading it can fail at many
depths, and all of them lie before the one call that changes the text:

    edit ─▶ entries ─▶ edits of the document ─▶ ranges ─▶ one batch ─▶ editor
              │                 │                  │          │           │
           messages          failure            failure    nothing     refusal
              └─────────────────┴────── text and listeners as before ─────┘

An editor is judged by the desk it shows (`Portrays`): it either does with a batch what a desk does,
or refuses it. `applyWorkspaceEdit_whole` says what becomes of that desk.
-/

namespace LanguageClient

namespace Desk

/-- Text and selection are the same, and no listener has been called. -/
structure Still (before after : Desk) : Prop where
  text : after.view.text = before.view.text
  selection : after.view.selection = before.view.selection
  batches : after.batches = before.batches

/-- Exactly one batch was carried out, and the listeners have heard of it. -/
structure Landed (before after : Desk) : Prop where
  batch : ∃ changes, LanguageClient.applyChanges before.view.text changes = .ok after.view.text ∧
    after.batches = before.batches ++ [(after.view.text, changes)]
  selection : after.view.selection = before.view.selection

variable {before between after : Desk}

theorem Still.refl (d : Desk) : Still d d := ⟨rfl, rfl, rfl⟩

theorem Still.trans (h : Still before between) (h' : Still between after) : Still before after :=
  ⟨h'.text.trans h.text, h'.selection.trans h.selection, h'.batches.trans h.batches⟩

theorem Still.landed (h : Still before between) (h' : Landed between after) : Landed before after := by
  obtain ⟨⟨changes, happly, hbatches⟩, hselection⟩ := h'
  rw [h.text] at happly
  rw [h.batches] at hbatches
  exact ⟨⟨changes, happly, hbatches⟩, hselection.trans h.selection⟩

theorem Landed.still (h : Landed before between) (h' : Still between after) : Landed before after := by
  obtain ⟨⟨changes, happly, hbatches⟩, hselection⟩ := h
  refine ⟨⟨changes, ?_, ?_⟩, h'.selection.trans hselection⟩
  · rw [h'.text, happly]
  · rw [h'.batches, h'.text, hbatches]

/-- A batch lands if it is carried out; a failure leaves the desk alone. -/
theorem applyChanges_cases (changes : List SentChange) (d : Desk) :
    ((d.applyChanges changes).1 = .ok () ∧ Landed d (d.applyChanges changes).2) ∨
      ∃ e, d.applyChanges changes = (.error e, d) := by
  unfold applyChanges
  cases hprepare : d.view.prepare changes with
  | error e => exact .inr ⟨e, rfl⟩
  | ok prepared =>
    obtain ⟨typed, text⟩ := prepared
    refine .inl ⟨rfl, ⟨typed, ?_, rfl⟩, rfl⟩
    -- the changes are checked first and spliced last
    simp only [View.prepare, bind, Except.bind, pure, Except.pure] at hprepare
    split at hprepare
    · exact absurd hprepare (by simp)
    · split at hprepare
      · exact absurd hprepare (by simp)
      · split at hprepare
        · exact absurd hprepare (by simp)
        · rename_i happly
          obtain ⟨rfl, rfl⟩ := Prod.mk.inj (Except.ok.inj hprepare)
          exact happly

/-- What the answer says is what has happened: true if one batch landed, else nothing. -/
structure Whole (before : Desk) (answer : Except Failure Bool) (after : Desk) : Prop where
  landed : answer = .ok true → Landed before after
  still : answer ≠ .ok true → Still before after

theorem Whole.of_still {answer : Except Failure Bool} (h : Still before after)
    (hanswer : answer ≠ .ok true) : Whole before answer after :=
  ⟨fun htrue => absurd htrue hanswer, fun _ => h⟩

theorem Still.whole {answer : Except Failure Bool} (h : Still before between)
    (h' : Whole between answer after) : Whole before answer after :=
  ⟨fun htrue => h.landed (h'.landed htrue), fun hfalse => h.trans (h'.still hfalse)⟩

theorem Whole.then_still {answer : Except Failure Bool} (h : Whole before answer between)
    (h' : Still between after) : Whole before answer after :=
  ⟨fun htrue => (h.landed htrue).still h', fun hfalse => (h.still hfalse).trans h'⟩

end Desk

namespace Editor

variable {σ : Type}

/-- An editor whose state shows a desk. A batch is carried out or fails there as on a desk, or is
    refused as making no sense; messages and records touch neither text, selection nor listeners. -/
structure Portrays (ed : Editor σ) (desk : σ → Desk) : Prop where
  text : ∀ s, ed.text s = (desk s).view.text
  batch : ∀ changes s, let done := ed.applyChanges changes s
    (done.1, desk done.2) = (desk s).applyChanges changes ∨
      ∃ e : Failure, e.isInvalid = true ∧ done.1 = .error e ∧ desk done.2 = desk s
  message : ∀ level message s, Desk.Still (desk s) (desk (ed.showMessage level message s))
  record : ∀ level message s, Desk.Still (desk s) (desk (ed.record level message s))

variable {ed : Editor σ} {desk : σ → Desk}

theorem Portrays.applyChanges (h : ed.Portrays desk) (changes : List SentChange) (s : σ) :
    let done := ed.applyChanges changes s
    (done.1 = .ok () ∧ Desk.Landed (desk s) (desk done.2)) ∨
      ∃ e, done.1 = .error e ∧ desk done.2 = desk s := by
  intro done
  rcases h.batch changes s with hdesk | ⟨e, -, herror, hsame⟩
  · have hanswer : done.1 = ((desk s).applyChanges changes).1 := congrArg Prod.fst hdesk
    have hafter : desk done.2 = ((desk s).applyChanges changes).2 := congrArg Prod.snd hdesk
    rcases Desk.applyChanges_cases changes (desk s) with ⟨hok, hlanded⟩ | ⟨e, hfailed⟩
    · exact .inl ⟨hanswer.trans hok, hafter.symm ▸ hlanded⟩
    · rw [hfailed] at hanswer hafter
      exact .inr ⟨e, hanswer, hafter⟩
  · exact .inr ⟨e, herror, hsame⟩

theorem Portrays.showNotices (h : ed.Portrays desk) (notices : List Notice) (s : σ) :
    Desk.Still (desk s) (desk (ed.showNotices notices s)) := by
  induction notices generalizing s with
  | nil => exact .refl _
  | cons n notices ih =>
    exact (h.message n.level n.message s).trans (ih (ed.showMessage n.level n.message s))

theorem Portrays.applyEdits (h : ed.Portrays desk) (edits : List Json) (s : σ) :
    Desk.Whole (desk s) (ed.applyEdits edits s).1 (desk (ed.applyEdits edits s).2) := by
  simp only [Editor.applyEdits]
  split
  · exact .of_still (.refl _) (by simp)
  · exact .of_still (.refl _) (by simp)
  · rename_i changes hresolved _
    have hbatch := h.applyChanges changes s
    split
    · rename_i s' hdone
      rw [hdone] at hbatch
      rcases hbatch with ⟨-, hlanded⟩ | ⟨e, herror, -⟩
      · exact ⟨fun _ => hlanded, fun hne => absurd rfl hne⟩
      · exact absurd herror (by simp)
    · rename_i e s' hdone
      rw [hdone] at hbatch
      rcases hbatch with ⟨hok, -⟩ | ⟨-, -, hsame⟩
      · exact absurd hok (by simp)
      have hstill : Desk.Still (desk s) (desk s') := hsame ▸ .refl _
      split
      -- what is said of a refusal comes after it
      · exact .of_still (hstill.trans ((h.record _ _ _).trans (h.message _ _ _))) (by simp)
      · exact .of_still hstill (by simp)

theorem Portrays.carryOut (h : ed.Portrays desk) (uri : String) (edit : Json) (s : σ) :
    Desk.Whole (desk s) (ed.carryOut uri edit s).1 (desk (ed.carryOut uri edit s).2) := by
  have hsaid := h.showNotices (WorkspaceEdit.plan uri edit).notices s
  simp only [Editor.carryOut]
  split
  · exact .of_still hsaid (by simp)
  · exact .of_still hsaid (by simp)
  · exact hsaid.whole (h.applyEdits _ _)

theorem Portrays.applyWorkspaceEdit (h : ed.Portrays desk) (uri : String) (edit : Json) (s : σ) :
    Desk.Whole (desk s) (ed.applyWorkspaceEdit uri edit s).1
      (desk (ed.applyWorkspaceEdit uri edit s).2) := by
  simp only [Editor.applyWorkspaceEdit]
  have hcarried := (h.record .debug
    "[start] apply_workspace_edit - apply workspace edit to the active document" s).whole
      (h.carryOut uri edit _)
  split
  · rename_i hdone
    rw [hdone] at hcarried
    exact hcarried
  · rename_i hdone
    rw [hdone] at hcarried
    exact hcarried.then_still (h.record _ _ _)

theorem Portrays.apply (h : ed.Portrays desk) (offer : OfferedAction) (uri : String) (s : σ) :
    Desk.Whole (desk s) (offer.apply ed uri s).1 (desk (offer.apply ed uri s).2) := by
  simp only [OfferedAction.apply]
  split
  · exact .of_still (.refl _) (by simp)
  · exact .of_still (.refl _) (by simp)
  · rename_i edit command _ _
    have hedit : Desk.Whole (desk s)
        (if edit.truthy then ed.applyWorkspaceEdit uri edit s else (.ok false, s)).1
        (desk (if edit.truthy then ed.applyWorkspaceEdit uri edit s else (.ok false, s)).2) := by
      split
      · exact h.applyWorkspaceEdit uri edit s
      · exact .of_still (.refl _) (by simp)
    split
    · rename_i hfailed
      rw [hfailed] at hedit
      exact hedit
    · rename_i hanswer
      rw [hanswer] at hedit
      split
      · exact hedit.then_still (h.record _ _ _)
      · exact hedit

/-- Whatever is sent as a workspace edit, on its own or in a code action, and wherever reading it
    fails: if the answer is true, exactly one batch was carried out, and else text and selection are
    as before and no listener has been called. -/
theorem applyWorkspaceEdit_whole (h : ed.Portrays desk) (uri : String) (s : σ) :
    (∀ edit : Json, Desk.Whole (desk s) (ed.applyWorkspaceEdit uri edit s).1
      (desk (ed.applyWorkspaceEdit uri edit s).2)) ∧
    ∀ offer : OfferedAction,
      Desk.Whole (desk s) (offer.apply ed uri s).1 (desk (offer.apply ed uri s).2) :=
  ⟨fun edit => h.applyWorkspaceEdit uri edit s, fun offer => h.apply offer uri s⟩

/-- A desk shows itself. -/
theorem portrays_desk : Desk.editor.Portrays id where
  text _ := rfl
  batch _ _ := .inl rfl
  message _ _ _ := ⟨rfl, rfl, rfl⟩
  record _ _ _ := ⟨rfl, rfl, rfl⟩

/-- Three edits of one batch. If what the third inserts is a number, it fails after the others were
    resolved, and the desk has heard of nothing; if it is a text, all three have landed. -/
theorem applyWorkspaceEdit_whole_third :
    let place (k : Int) : Json := .obj [("line", .int 0), ("character", .int k)]
    let insertion (k : Int) (text : Json) : Json :=
      .obj [("range", .obj [("start", place k), ("end", place k)]), ("newText", text)]
    let edit (text : Json) : Json := .obj [("changes", .obj [("a", .arr
      [insertion 2 (.str "p"), insertion 1 (.str "q"), insertion 0 text])])]
    let desk : Desk := { view := { text := ['x', 'y'] } }
    let failed := Desk.editor.applyWorkspaceEdit "a" (edit (.int 7)) desk
    let landed := (OfferedAction.mk .null (.obj [("edit", edit (.str "r"))])).apply Desk.editor "a" desk
    Desk.editor.Portrays id ∧ failed.1 ≠ .ok true ∧ Desk.Still desk failed.2 ∧
      landed.1 = .ok true ∧ Desk.Landed desk landed.2 := by
  intro place insertion edit desk failed landed
  obtain ⟨hedit, hoffer⟩ := applyWorkspaceEdit_whole portrays_desk "a" desk
  have hfailed : failed.1 ≠ .ok true := by
    have hnone : failed.1.toOption = none := by decide +kernel
    intro hdone
    rw [hdone] at hnone
    cases hnone
  have hlanded : landed.1 = .ok true := by
    have hsome : landed.1.toOption = some true := by decide +kernel
    cases hanswer : landed.1 with
    | error f =>
      rw [hanswer] at hsome
      cases hsome
    | ok done =>
      rw [hanswer] at hsome
      exact congrArg Except.ok (Option.some.inj hsome)
  exact ⟨portrays_desk, hfailed, (hedit (edit (.int 7))).still hfailed, hlanded,
    (hoffer ⟨.null, .obj [("edit", edit (.str "r"))]⟩).landed hlanded⟩

end Editor

end LanguageClient
