import LanguageClient.Proofs.Edit.Resolution

/-!
Workspace edits. A well formed one comes in two forms, of which the list form wins unless it is
empty. Each entry is for one document, or is an operation on files; what is not for the document
shown is passed over with a warning, and all that is for it becomes one batch.

    documentChanges   [ file:///a  e₁ e₂ │ create │ file:///b  e₃ │ file:///a  e₄ ]
    shown: file:///a         e₁ e₂         warning      warning          e₄

`applyWorkspaceEdit_parts` says what becomes of a desk.
-/

namespace LanguageClient

namespace WorkspaceEdit

/-! ### Well formed workspace edits -/

/-- An entry: edits of a document, or an operation on files. -/
inductive Part where
  | group (uri : String) (edits : List TextEdit)
  | operation
  deriving DecidableEq, Repr

/-- The two forms. -/
structure Forms where
  changes : List (String × List TextEdit)
  documentChanges : List Part
  deriving DecidableEq, Repr

/-- A list of edits as it is sent. -/
def editsOf? (v : Json) : Option (List TextEdit) := do
  (← v.arr?).mapM TextEdit.ofJson?

/-- An entry of the list form as it is sent: without a document it is an operation. -/
def Part.ofJson? : Json → Option Part
  | .obj ms =>
    match Members.get? "textDocument" ms with
    | none => some .operation
    | some document => do
      let uri ← (← document.member? "uri").str?
      return .group uri (← editsOf? (← Members.get? "edits" ms))
  | _ => none

/-- An entry of the map form as it is sent. -/
def changeOf? (entry : String × Json) : Option (String × List TextEdit) := do
  return (entry.1, ← editsOf? entry.2)

/-- The map form as it is sent, null if there is none. -/
def changesOf? : Json → Option (List (String × List TextEdit))
  | .null => some []
  | .obj entries => entries.mapM changeOf?
  | _ => none

/-- The list form as it is sent, null if there is none. -/
def documentChangesOf? : Json → Option (List Part)
  | .null => some []
  | .arr entries => entries.mapM Part.ofJson?
  | _ => none

/-- A workspace edit as it is sent, null if there is none. -/
def Forms.ofJson? : Json → Option Forms
  | .null => some ⟨[], []⟩
  | .obj ms => do
    let changes ← changesOf? ((Members.get? "changes" ms).getD .null)
    return ⟨changes, ← documentChangesOf? ((Members.get? "documentChanges" ms).getD .null)⟩
  | _ => none

/-! ### What is asked of the document shown -/

/-- The edits of a document. -/
def Part.own (uri : String) : Part → List TextEdit
  | .group target edits => if target = uri then edits else []
  | .operation => []

/-- What is said about an entry that is passed over. -/
def Part.notice? (uri : String) : Part → Option Notice
  | .group target _ => if target = uri then none else some (foreignDocument (.str target))
  | .operation => some resourceOperation

namespace Forms

/-- The entries of the form that counts. -/
def parts (f : Forms) : List Part :=
  if f.documentChanges = [] then f.changes.map fun entry => .group entry.1 entry.2
  else f.documentChanges

/-- All edits of a document, in order. -/
def own (uri : String) (f : Forms) : List TextEdit := f.parts.flatMap (Part.own uri)

/-- What is said about the entries, in order. -/
def notices (uri : String) (f : Forms) : List Notice :=
  if f.parts = [] then [noChanges] else f.parts.filterMap (Part.notice? uri)

end Forms

/-! ### Reading the entries -/

theorem listed_arr (xs : List Json) : listed (.arr xs) = .ok xs := by
  cases xs <;> rfl

theorem arr_of_editsOf? {v : Json} {ts : List TextEdit} (h : editsOf? v = some ts) :
    ∃ sent, v = .arr sent ∧ sent.mapM TextEdit.ofJson? = some ts := by
  simp only [editsOf?, bind, Option.bind_eq_some_iff] at h
  obtain ⟨sent, hsent, hts⟩ := h
  exact ⟨sent, Json.eq_arr_of_arr? hsent, hts⟩

/-- What is read off an entry is what it contributes. -/
def Reads (uri : String) (entry : Entry) (part : Part) : Prop :=
  match part.notice? uri with
  | some notice => entry = .ok (.inl notice) ∧ part.own uri = []
  | none => ∃ sent, entry = .ok (.inr sent) ∧ sent.mapM TextEdit.ofJson? = some (part.own uri)

theorem reads_mapEntry {uri : String} {entry : String × Json} {change : String × List TextEdit}
    (h : changeOf? entry = some change) :
    Reads uri (mapEntry uri entry) (.group change.1 change.2) := by
  simp only [changeOf?, bind, Option.bind_eq_some_iff, pure, Option.some.injEq] at h
  obtain ⟨ts, hts, rfl⟩ := h
  obtain ⟨sent, hsent, hread⟩ := arr_of_editsOf? hts
  simp only [Reads, Part.notice?, Part.own, mapEntry]
  by_cases heq : entry.1 = uri
  · rw [if_pos heq, if_pos heq]
    refine ⟨sent, ?_, hread⟩
    simp only [heq, hsent, listed_arr, ne_eq, not_true, if_false, bind, Except.bind, pure, Except.pure]
  · rw [if_neg heq, if_neg heq]
    refine ⟨?_, rfl⟩
    rw [if_pos heq]
    rfl

theorem reads_documentEntry {uri : String} {entry : Json} {part : Part}
    (h : Part.ofJson? entry = some part) : Reads uri (documentEntry uri entry) part := by
  cases entry with
  | obj ms =>
    simp only [Part.ofJson?] at h
    split at h
    · rename_i hnone
      obtain rfl := Option.some.inj h
      refine ⟨?_, rfl⟩
      simp only [documentEntry, Json.holds, hnone, Option.isSome_none, bind, Except.bind, Bool.not_false, if_true]
      rfl
    · rename_i document hdocument
      simp only [bind, Option.bind_eq_some_iff, pure, Option.some.injEq] at h
      obtain ⟨sentUri, huri, target, htarget, v, hv, ts, hts, rfl⟩ := h
      obtain ⟨sent, rfl, hread⟩ := arr_of_editsOf? hts
      have hholds : (Json.obj ms).holds "textDocument" = .ok true := by
        rw [Json.holds, hdocument, Option.isSome_some]
      have hrequire : (Json.obj ms).require "textDocument" = .ok document :=
        Json.require_of_member? hdocument
      have hsent : document.require "uri" = .ok (.str target) := by
        rw [Json.require_of_member? huri, Json.eq_str_of_str? htarget]
      have hget : (Json.obj ms).get "edits" = .ok (.arr sent) := by
        rw [Json.get, hv, Option.getD_some]
      have hsame : (Json.str target).same (.str uri) = (target == uri) := by
        simp only [Json.same]
      simp only [Reads, Part.notice?, Part.own, documentEntry, hholds, hrequire, hsent, hget, hsame,
        listed_arr, bind, Except.bind]
      by_cases heq : target = uri
      · rw [if_pos heq, if_pos heq]
        refine ⟨sent, ?_, hread⟩
        simp only [heq, beq_self_eq_true, Bool.not_true, Bool.false_eq_true, if_false, pure, Except.pure]
      · rw [if_neg heq, if_neg heq]
        refine ⟨?_, rfl⟩
        simp only [beq_eq_false_iff_ne.mpr heq, Bool.not_false, Bool.not_true, Bool.false_eq_true,
          if_false, if_true, pure, Except.pure]
  | _ => simp [Part.ofJson?] at h

/-- Entries that are all read: the messages about those that are passed over, and all edits of the
    others. -/
theorem collect_of_reads {uri : String} {entries : List Entry} {parts : List Part}
    (h : List.Forall₂ (Reads uri) entries parts) :
    ∃ sent, collect entries = ⟨parts.filterMap (Part.notice? uri), .ok sent⟩ ∧
      sent.mapM TextEdit.ofJson? = some (parts.flatMap (Part.own uri)) := by
  induction h with
  | nil => exact ⟨[], rfl, rfl⟩
  | @cons entry part entries parts hread _ ih =>
    obtain ⟨sent, hcollect, hsent⟩ := ih
    unfold Reads at hread
    split at hread
    · rename_i notice hnotice
      obtain ⟨rfl, hown⟩ := hread
      refine ⟨sent, ?_, ?_⟩
      · rw [collect, hcollect, List.filterMap_cons_some hnotice]
        rfl
      · rw [List.flatMap_cons, hown, List.nil_append, hsent]
    · rename_i hnotice
      obtain ⟨own, rfl, hown⟩ := hread
      refine ⟨own ++ sent, ?_, ?_⟩
      · rw [collect, hcollect, List.filterMap_cons_none hnotice]
        rfl
      · rw [List.flatMap_cons, List.mapM_append, hown, hsent]
        rfl

/-- The list form is empty, or all its entries are read. -/
theorem reads_documentChanges (uri : String) {v : Json} {parts : List Part}
    (h : documentChangesOf? v = some parts) : (v.truthy = false ∧ parts = []) ∨
      (v.truthy = true ∧ parts ≠ [] ∧ ∃ entries, v.items = .ok entries ∧
        List.Forall₂ (Reads uri) (entries.map (documentEntry uri)) parts) := by
  cases v with
  | null => exact .inl ⟨rfl, (Option.some.inj h).symm⟩
  | arr entries =>
    have hread := forall₂_of_mapM_eq_some h
    cases hread with
    | nil => exact .inl ⟨rfl, rfl⟩
    | @cons entry part entries parts hpart hrest =>
      refine .inr ⟨rfl, List.cons_ne_nil _ _, _, rfl, ?_⟩
      rw [List.forall₂_map_left_iff]
      exact .cons (reads_documentEntry hpart) (hrest.imp fun _ _ => reads_documentEntry)
  | _ => simp [documentChangesOf?] at h

/-- The map form is empty, or all its entries are read. -/
theorem reads_changes (uri : String) {v : Json} {changes : List (String × List TextEdit)}
    (h : changesOf? v = some changes) : (v.truthy = false ∧ changes = []) ∨
      (v.truthy = true ∧ changes ≠ [] ∧ ∃ entries, mapEntries uri v = .ok entries ∧
        List.Forall₂ (Reads uri) entries (changes.map fun entry => .group entry.1 entry.2)) := by
  cases v with
  | null => exact .inl ⟨rfl, (Option.some.inj h).symm⟩
  | obj entries =>
    have hread := forall₂_of_mapM_eq_some h
    cases hread with
    | nil => exact .inl ⟨rfl, rfl⟩
    | @cons entry change entries changes hchange hrest =>
      refine .inr ⟨rfl, List.cons_ne_nil _ _, _, rfl, ?_⟩
      rw [List.forall₂_map_left_iff, List.forall₂_map_right_iff]
      exact .cons (reads_mapEntry hchange) (hrest.imp fun _ _ => reads_mapEntry)
  | _ => simp [changesOf?] at h

/-- A well formed workspace edit is read to its end. -/
theorem plan_of_ofJson? (uri : String) {edit : Json} {forms : Forms}
    (h : Forms.ofJson? edit = some forms) : ∃ sent,
      plan uri edit = ⟨if edit.truthy then forms.notices uri else [noEdit], .ok sent⟩ ∧
        sent.mapM TextEdit.ofJson? = some (forms.own uri) := by
  cases edit with
  | null =>
    obtain rfl : ⟨[], []⟩ = forms := Option.some.inj h
    exact ⟨[], rfl, rfl⟩
  | obj ms =>
    simp only [Forms.ofJson?, bind, Option.bind_eq_some_iff, pure, Option.some.injEq] at h
    obtain ⟨changes, hchanges, documentChanges, hdocumentChanges, rfl⟩ := h
    cases ht : (Json.obj ms).truthy with
    | false =>
      obtain rfl : ms = [] := by simpa [Json.truthy] using ht
      obtain rfl : [] = changes := Option.some.inj hchanges
      obtain rfl : [] = documentChanges := Option.some.inj hdocumentChanges
      exact ⟨[], rfl, rfl⟩
    | true =>
      simp only [plan, ht, Bool.not_true, Bool.false_eq_true, if_false, if_true, Json.get]
      rcases reads_documentChanges uri hdocumentChanges with ⟨hempty, rfl⟩ | ⟨hfull, hne, entries, hitems, hreads⟩
      · rcases reads_changes uri hchanges with ⟨hempty', rfl⟩ | ⟨hfull, hne, entries, hentries, hreads⟩
        · exact ⟨[], by simp [hempty, hempty', Forms.notices, Forms.parts], rfl⟩
        · obtain ⟨sent, hcollect, hsent⟩ := collect_of_reads hreads
          refine ⟨sent, ?_, by simpa [Forms.own, Forms.parts] using hsent⟩
          simp [hempty, hfull, hentries, hcollect, Forms.notices, Forms.parts, hne]
      · obtain ⟨sent, hcollect, hsent⟩ := collect_of_reads hreads
        refine ⟨sent, ?_, by simpa [Forms.own, Forms.parts, hne] using hsent⟩
        simp [hfull, hitems, hcollect, Forms.notices, Forms.parts, hne]
  | _ => simp [Forms.ofJson?] at h

end WorkspaceEdit

/-! ### What becomes of a desk -/

namespace Desk

theorem showNotices_eq : ∀ (notices : List Notice) (d : Desk),
    (editor.showNotices notices d).view = { d.view with
      messages := d.view.messages ++ notices.map fun n => (n.level, n.message) } ∧
    (editor.showNotices notices d).batches = d.batches
  | [], d => by simp [Editor.showNotices]
  | n :: notices, d => by
      obtain ⟨hview, hbatches⟩ := showNotices_eq notices (d.showMessage n.level n.message)
      rw [Editor.showNotices, List.foldl_cons]
      refine ⟨hview.trans ?_, hbatches⟩
      simp [showMessage, View.addMessage]

/-- What is said about a workspace edit. -/
def said (uri : String) (edit : Json) (forms : WorkspaceEdit.Forms) : List Notice :=
  if edit.truthy then forms.notices uri else [WorkspaceEdit.noEdit]

theorem carryOut_eq (uri : String) {d : Desk} {edit : Json} {forms : WorkspaceEdit.Forms}
    (hr : d.view.rejection = none) (hf : WorkspaceEdit.Forms.ofJson? edit = some forms) :
    editor.carryOut uri edit d =
      let told := editor.showNotices (said uri edit forms) d
      if forms.own uri = [] then (.ok false, told)
      else (.ok true, told.after (descending (TextEdit.changes d.view.text (forms.own uri)))) := by
  obtain ⟨sent, hplan, hsent⟩ := WorkspaceEdit.plan_of_ofJson? uri hf
  obtain ⟨hview, -⟩ := showNotices_eq (said uri edit forms) d
  have hrejection : (editor.showNotices (said uri edit forms) d).view.rejection = none := by
    rw [hview, hr]
  have htext : (editor.showNotices (said uri edit forms) d).view.text = d.view.text := by
    rw [hview]
  have hedits := applyEdits_eq hrejection hsent
  rw [htext] at hedits
  simp only [Editor.carryOut, hplan]
  rw [said] at hedits ⊢
  cases sent with
  | nil =>
    have hnone : forms.own uri = [] := (Option.some.inj hsent).symm
    simp only [hnone, if_true]
  | cons edit rest => exact hedits

/-- The desk once everything has been said, and after the batch if there is one; the journal apart. -/
theorem applyWorkspaceEdit_eq (uri : String) {d : Desk} {edit : Json} {forms : WorkspaceEdit.Forms}
    (hr : d.view.rejection = none) (hf : WorkspaceEdit.Forms.ofJson? edit = some forms) :
    ∃ (told : Desk) (journal : Journal), told.batches = d.batches ∧ told.view = { d.view with
        messages := d.view.messages ++ (said uri edit forms).map fun n => (n.level, n.message) } ∧
      editor.applyWorkspaceEdit uri edit d =
        if forms.own uri = [] then (.ok false, { told with journal })
        else (.ok true, { told.after (descending (TextEdit.changes d.view.text (forms.own uri))) with
          journal }) := by
  let begun := d.record .debug
    "[start] apply_workspace_edit - apply workspace edit to the active document"
  have hcarried := carryOut_eq uri (d := begun) hr hf
  obtain ⟨hview, hbatches⟩ := showNotices_eq (said uri edit forms) begun
  refine ⟨editor.showNotices (said uri edit forms) begun, ?_⟩
  simp only [Editor.applyWorkspaceEdit]
  rw [show editor.record .debug _ d = begun from rfl, hcarried]
  by_cases hown : forms.own uri = []
  · simp only [hown, if_true]
    exact ⟨_, hbatches, hview, rfl⟩
  · simp only [hown, if_false]
    exact ⟨_, hbatches, hview, rfl⟩

/-- A well formed workspace edit is applied exactly if it has an edit of the document shown. Then all
    its edits of that document are resolved against the text before and carried out as one batch, in
    order and inside that text; else neither text nor editor hear of it. What is said is one warning
    for each entry passed over, in order, or the one error that there is nothing to apply. -/
theorem applyWorkspaceEdit_parts {d : Desk} (uri : String) {edit : Json} {forms : WorkspaceEdit.Forms}
    (hr : d.view.rejection = none) (hf : WorkspaceEdit.Forms.ofJson? edit = some forms) :
    let done := editor.applyWorkspaceEdit uri edit d
    let own := forms.own uri
    done.1 = .ok (decide (own ≠ [])) ∧
      done.2.view.messages = d.view.messages ++ (said uri edit forms).map (fun n => (n.level, n.message)) ∧
      (own = [] → done.2.view.text = d.view.text ∧ done.2.batches = d.batches) ∧
      (own ≠ [] → ∃ (batch : List Change) (after : List Char),
        LanguageClient.applyChanges d.view.text (TextEdit.changes d.view.text own) = .ok after ∧
        done.2.view.text = after ∧ done.2.batches = d.batches ++ [(after, batch)] ∧
        batch.Perm (TextEdit.changes d.view.text own) ∧
        batch.Pairwise (fun a b => b.start < a.start ∨ (b.start = a.start ∧ b.stop ≤ a.stop)) ∧
        ∀ c ∈ batch, 0 ≤ c.start ∧ c.start ≤ c.stop ∧ c.stop ≤ d.view.text.length) := by
  obtain ⟨told, journal, hbatches, hview, hdone⟩ := applyWorkspaceEdit_eq uri hr hf
  have htext : told.view.text = d.view.text := by rw [hview]
  simp only [hdone]
  by_cases hown : forms.own uri = []
  · simp [hown, hview, hbatches]
  have hin := TextEdit.inBounds_of_mem_changes d.view.text (forms.own uri)
  have hperm := sortStable_perm Change.later (TextEdit.changes d.view.text (forms.own uri))
  simp only [if_neg hown, after, htext, hbatches]
  refine ⟨by simp [hown], by rw [hview], fun h => absurd h hown, fun _ => ?_⟩
  refine ⟨_, _, applyChanges_eq_ok hin, rfl, rfl, hperm, ?_, fun c hc => ?_⟩
  · exact (descending_sorted _).imp fun h => Change.notAfter_iff.mp h
  · exact Change.inBounds_iff.mp (hin c (hperm.mem_iff.mp hc))

/-- Two groups for the document shown, with a file operation and another document between them; one
    range ends outside the document, one starts there. -/
theorem applyWorkspaceEdit_mixed :
    let group (uri : String) (edits : List TextEdit) : Json :=
      .obj [("textDocument", .obj [("uri", .str uri)]), ("edits", .arr (edits.map TextEdit.toJson))]
    let edit : Json := .obj [("changes", .obj [("c", .arr [])]), ("documentChanges", .arr [
      group "a" [⟨⟨0, 1⟩, ⟨9, 9⟩, ['p']⟩], .obj [("kind", .str "create"), ("uri", .str "d")],
      group "b" [], group "a" [⟨⟨-1, 0⟩, ⟨0, 1⟩, ['q']⟩]])]
    let done := editor.applyWorkspaceEdit "a" edit { view := { text := ['x', 'y'] } }
    done.1 = .ok true ∧ done.2.view.text = ['q', 'p', 'y'] ∧ done.2.batches.length = 1 ∧
      done.2.view.messages = [
        ("warning", "File creation, deletion, or renaming operations are not supported yet"),
        ("warning", "Multi-file edits are not supported yet: " ++ (Json.str "b").shown)] := by
  intro group edit
  dsimp only
  have hf : WorkspaceEdit.Forms.ofJson? edit = some ⟨[("c", [])],
      [.group "a" [⟨⟨0, 1⟩, ⟨9, 9⟩, ['p']⟩], .operation, .group "b" [],
        .group "a" [⟨⟨-1, 0⟩, ⟨0, 1⟩, ['q']⟩]]⟩ := by
    simp [edit, group, WorkspaceEdit.Forms.ofJson?, Members.get?, WorkspaceEdit.changesOf?,
      WorkspaceEdit.changeOf?, WorkspaceEdit.editsOf?, Json.arr?, WorkspaceEdit.documentChangesOf?,
      WorkspaceEdit.Part.ofJson?, Json.member?, Json.str?, TextEdit.ofJson?_toJson]
  obtain ⟨happlied, hmessages, -, hbatch⟩ :=
    applyWorkspaceEdit_parts (d := { view := { text := ['x', 'y'] } }) "a" rfl hf
  obtain ⟨batch, after, hafter, htext, hbatches, -⟩ := hbatch (by decide)
  obtain rfl : ['q', 'p', 'y'] = after := Except.ok.inj hafter
  generalize editor.applyWorkspaceEdit "a" edit { view := { text := ['x', 'y'] } } = done at *
  refine ⟨happlied.trans rfl, htext, ?_, hmessages.trans rfl⟩
  rw [hbatches]
  rfl

end Desk

end LanguageClient
