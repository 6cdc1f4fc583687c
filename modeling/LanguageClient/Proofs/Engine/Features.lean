import LanguageClient.Engine.Setup
import LanguageClient.Proofs.Engine.Sync

/-!
Runs of the features as paths of steps: hover, completion, signature help, definition, renaming and
diagnostics. They touch what requests and documents depend on only through requests, through sending
the changes of a document, and through edits of the text shown.
-/

namespace LanguageClient.Engine

variable {c : Config} {st : List Frame} {e e' : Engine} {f : Frame}

/-! ### Editing the text shown -/

/-- Only diagnostics are more than what is shown. -/
theorem agrees_onView (doc : Nat) (f : View → View) (e : Engine)
    (h : ∀ v, (f v).diagnostics = v.diagnostics) : Agrees e (e.onView doc f) := by
  refine agrees_onSession ?_ e fun s => ?_
  · intro s
    rfl
  · simp only [Session.outlook, h]

theorem agrees_showMessage (doc : Nat) (level message : String) (e : Engine) :
    Agrees e (e.showMessage doc level message) :=
  (agrees_onView _ _ _ fun _ => by rfl).trans (agrees_log _ _ _)

theorem session?_onView {doc : Nat} {s : Session} (f : View → View) (h : e.session? doc = some s) :
    (e.onView doc f).session? doc = some { s with view := f s.view } := by
  simp only [session?] at h
  simp [session?, onView, onSession, h]

/-- After the edit itself, typing may only open signature help. -/
theorem path_viewChanged (doc : Nat) (text : List Char) (changes : Option (List Change)) :
    Path (st, (e.scheduleChange doc text changes).2) (st, (e.viewChanged doc text changes).2) := by
  unfold viewChanged
  simp only
  split
  · exact .refl
  · split
    · exact .refl
    · exact .refl
    · exact path_spawnFor rfl

/-- What follows an edit is an edit of the document if anything follows at all. -/
theorem path_runHook {doc : Nat} {s : Session} {hook : EditHook} {text : List Char}
    {changes : List Change} (hs : e.session? doc = some s) (hh : s.hook = hook) :
    Path (st, e) (st, (e.runHook doc hook text changes).2) := by
  unfold runHook
  split
  · exact .refl
  · exact .single (.edit text _ hs (by simp [hh]))
  · exact .head (.edit text (some changes) hs (by simp [hh])) (path_viewChanged doc text _)

theorem path_editView (doc : Nat) (changes : List SentChange) :
    Path (st, e) (st, (e.editView doc changes).2) := by
  unfold editView
  split
  · exact .refl
  · rename_i s hs
    split
    · exact .refl
    · rename_i typed text _
      have hview : (e.onView doc fun v => { v with text }).session? doc
          = some { s with view := { s.view with text } } := session?_onView _ hs
      exact .head (.agree (agrees_onView _ _ _ fun _ => by rfl)) (path_runHook hview rfl)

theorem path_replaceText (doc : Nat) (text : Json) :
    Path (st, e) (st, (e.replaceText doc text).2) := by
  unfold replaceText
  split
  · exact .refl
  · exact path_editView doc _

/-- Whatever an editor does is made of edits and of what shows or records something. -/
theorem path_applyEdits (doc : Nat) (edits : List Json) :
    Path (st, e) (st, ((editor doc).applyEdits edits e).2) := by
  unfold Editor.applyEdits
  split
  · exact .refl
  · exact .refl
  · rename_i changes _ _
    have h : Path (st, e) (st, (e.editView doc changes).2) := path_editView doc changes
    split
    · rename_i h'
      change e.editView doc changes = _ at h'
      rwa [h'] at h
    · rename_i h'
      change e.editView doc changes = _ at h'
      rw [h'] at h
      split
      · exact h.tail (.agree ((agrees_log _ _ _).trans (agrees_showMessage _ _ _ _)))
      · exact h

theorem agrees_showNotices (doc : Nat) : ∀ (notices : List Notice) (e : Engine),
    Agrees e ((editor doc).showNotices notices e)
  | [], e => .refl e
  | n :: ns, e => (agrees_showMessage doc n.level n.message e).trans (agrees_showNotices doc ns _)

theorem path_carryOut (doc : Nat) (uri : String) (edit : Json) :
    Path (st, e) (st, ((editor doc).carryOut uri edit e).2) := by
  unfold Editor.carryOut
  simp only
  split
  · exact .single (.agree (agrees_showNotices doc _ _))
  · exact .single (.agree (agrees_showNotices doc _ _))
  · exact .head (.agree (agrees_showNotices doc _ _)) (path_applyEdits doc _)

theorem path_applyWorkspaceEdit (doc : Nat) (uri : String) (edit : Json) :
    Path (st, e) (st, ((editor doc).applyWorkspaceEdit uri edit e).2) := by
  unfold Editor.applyWorkspaceEdit
  simp only
  have ha : Agrees e ((editor doc).record .debug
      "[start] apply_workspace_edit - apply workspace edit to the active document" e) :=
    agrees_log _ _ _
  have h : Path (st, e) _ := .head (.agree ha) (path_carryOut doc uri edit)
  split
  · rename_i h'
    rwa [h'] at h
  · rename_i h'
    rw [h'] at h
    exact h.tail (.agree (agrees_log _ _ _))

/-! ### Questions about a place -/

/-- Finding out whether an answer is still wanted: either it is, or that it is not has been recorded. -/
theorem isStale_cases (doc : Nat) (feature : Feature) (generation : Nat) (e : Engine) :
    (e.isStale doc feature generation = (false, e) ∧ ¬ Stale doc feature generation e) ∨
    (Stale doc feature generation e ∧ ∃ message, e.isStale doc feature generation =
      (true, (e.log .debug message).note (.dropped doc feature generation))) := by
  unfold isStale
  split
  · rename_i hnone
    refine .inl ⟨rfl, ?_⟩
    rintro ⟨s, hs, _⟩
    rw [hnone] at hs
    cases hs
  · rename_i s hs
    split
    · rename_i h
      simp only [Bool.and_eq_true, decide_eq_true_eq] at h
      exact .inr ⟨⟨s, hs, h⟩, _, rfl⟩
    · rename_i h
      refine .inl ⟨rfl, ?_⟩
      rintro ⟨s', hs', hguard, hne⟩
      obtain rfl : s = s' := Option.some.inj (hs.symm.trans hs')
      exact h (by simp [hguard, hne])

theorem stale_agrees {doc generation : Nat} {feature : Feature} (ha : Agrees e e')
    (h : Stale doc feature generation e) : Stale doc feature generation e' := by
  obtain ⟨s, hs, hguard, hne⟩ := h
  have hmap : (e'.sessions.map Session.outlook)[doc]? = (e.sessions.map Session.outlook)[doc]? := by
    rw [ha.outlooks]
  rw [List.getElem?_map, List.getElem?_map, show e.sessions[doc]? = some s from hs] at hmap
  obtain ⟨s', hs', hsame⟩ := Option.map_eq_some_iff.mp hmap
  simp only [Session.outlook, Prod.mk.injEq] at hsame
  obtain ⟨hgeneration, hg, _⟩ := hsame
  exact ⟨s', hs', hg.trans hguard, by rw [hgeneration]; exact hne⟩

/-- An answer that is no longer wanted is dropped. -/
theorem path_isStale {doc generation : Nat} {feature : Feature} {f : Frame}
    (hf : f.answers? = some (doc, feature, generation)) :
    Path (f :: st, e) (f :: st, (e.isStale doc feature generation).2) := by
  rcases isStale_cases doc feature generation e with ⟨heq, _⟩ | ⟨hstale, message, heq⟩
  · rw [heq]
  · have ha := agrees_log .debug message e
    rw [heq]
    exact .head (.agree ha) (.single (.remark (.dropped hf (stale_agrees ha hstale))))

/-- A client of which something can be asked is ready, and the server has said what it can do. -/
theorem ready_of_available {feature : Feature} {provider : String} {s : Session}
    (h : e.available feature provider s = .ok true) :
    e.client.ready = true ∧ ∃ members, e.client.capabilities = .obj members := by
  unfold available at h
  split at h
  · cases h
  · rename_i hnot
    simp only [Bool.or_eq_true, Bool.not_eq_true', not_or, Bool.not_eq_false] at hnot
    refine ⟨hnot.2, ?_⟩
    simp only [bind, Except.bind, pure, Except.pure] at h
    split at h
    · cases h
    · rename_i v hv
      have hv' : v.truthy = true := Except.ok.inj h
      unfold Client.capability Json.orElse at hv
      split at hv
      · cases hc : e.client.capabilities with
        | obj members => exact ⟨members, rfl⟩
        | _ =>
          rw [hc] at hv
          cases hv
      · obtain rfl : Json.null = v := Except.ok.inj hv
        cases hv'

theorem leads_ifAvailable {doc : Nat} {feature : Feature} {provider : String} {k : Session → Run}
    (h : e.client.ready = true → (∃ members, e.client.capabilities = .obj members) →
      ∀ s, e.session? doc = some s → Leads (st, e) st (k s)) :
    Leads (st, e) st (e.ifAvailable doc feature provider k) := by
  refine leads_withSession .refl fun s hsession => ?_
  split
  · exact leads_fail _
  · exact leads_answer _
  · rename_i hs
    obtain ⟨hr, hc⟩ := ready_of_available hs
    exact h hr hc s hsession

/-- A question of a client that is ready: it is begun, and then waits for the changes of its document to
    be sent. -/
theorem leads_flushFirst {doc : Nat} {s : Session} {feature : Feature} {f : Frame}
    {next : Outcome → Engine → Run} (hs : e.session? doc = some s)
    (hf : f.question? = some (doc, feature, (e.beginGeneration doc feature).1))
    (hr : e.client.ready = true) (hc : ∃ members, e.client.capabilities = .obj members)
    (hn : ∀ o e, Leads (f :: st, e) st (next o e)) :
    Leads (st, e) st (andThen ((e.beginGeneration doc feature).2.flushPending doc) f next) := by
  obtain ⟨members, hc⟩ := hc
  obtain ⟨c', hrefresh, hl⟩ := @refreshes_flushPending (f :: st) (e.beginGeneration doc feature).2 doc
  have hposed : .posed doc feature (e.beginGeneration doc feature).1 ∈
      (e.beginGeneration doc feature).2.history :=
    List.mem_append_right _ (List.mem_singleton_self _)
  have hlate : Step (st, (e.beginGeneration doc feature).2) c' := .late hf hposed hr hc hrefresh
  have hquestion : feature = .diagnostics → Presenting doc st := by
    rintro rfl
    cases f <;> simp [Frame.question?] at hf
  exact .of_path (.head (.pose feature hs hquestion) (.single hlate)) (hl.andThen hn)

/-- A run that does not have to wait. -/
def Finishes (run : Run) : Prop := ∃ e o, run = (e, .done o)

theorem finishes_finish (o : Outcome) (e : Engine) : Finishes (e.finish o) := ⟨e, o, rfl⟩

theorem finishes_withSession {doc : Nat} {k : Session → Run} (h : ∀ s, Finishes (k s)) :
    Finishes (e.withSession doc k) := by
  unfold withSession
  split
  · exact h _
  · exact finishes_finish _ e

theorem finishes_withResult {what : String} {o : Outcome} {k : Json → Run} (h : ∀ v, Finishes (k v)) :
    Finishes (withResult what o e k) := by
  unfold withResult
  split
  · exact h _
  · split
    · exact finishes_finish _ _
    · exact finishes_finish _ e
  · exact finishes_finish _ e

theorem finishes_conclude {α : Type} (wrap : α → Value) (x : Except Failure (Option α)) :
    Finishes (e.conclude wrap x) := by
  unfold conclude
  split <;> exact finishes_finish _ e

/-- Asking a question once the changes of its document have been sent. -/
theorem leads_ask {doc generation : Nat} {feature : Feature} {method : String}
    {params : Document → Members} {f f' : Frame} {next : Outcome → Engine → Run} {o : Outcome}
    (hf : f.question? = some (doc, feature, generation))
    (hf' : f'.answers? = some (doc, feature, generation)) (hm : method ≠ "initialize")
    (hn : ∀ o e, Leads (f' :: st, e) st (next o e)) :
    Leads (f :: st, e) st (ask doc feature generation method params f' next o e) := by
  have hpop : Frame.request? f = none := Frame.request?_of_late (Frame.late_of_question hf)
  unfold ask
  split
  · refine leads_withSession (.single (.pop hpop)) fun s _ => Leads.andThen ?_ hn
    unfold requestFor
    simp only
    split
    · exact leads_request_late hf hf' hm _ _
    · exact .of_step (.remark (.asked hf)) (leads_request_late hf hf' hm _ _)
  · refine Leads.pop hpop (.of_step (.remark (.answered doc feature generation o)) ?_)
    exact leads_finish o

/-- What has come of a question is noted when it ends. -/
theorem leads_endQuestion {doc generation : Nat} {feature : Feature} {run : Run} {f : Frame}
    (hf : f.request? = none) (h : Leads (f :: st, e) (f :: st) run) (hdone : Finishes run) :
    Leads (f :: st, e) st (endQuestion doc feature generation run) := by
  obtain ⟨e', o, rfl⟩ := hdone
  exact .of_path (h.tail (.remark (.answered doc feature generation o))) ((leads_finish o).pop hf)

theorem leads_withResult {what : String} {o : Outcome} {k : Json → Run}
    (h : ∀ v, Leads (st, e) st (k v)) : Leads (st, e) st (withResult what o e k) := by
  unfold withResult
  split
  · exact h _
  · split
    · exact .agree (agrees_log _ _ _) (leads_answer _)
    · exact leads_fail _
  · exact leads_finish _

theorem leads_conclude {α : Type} (wrap : α → Value) (x : Except Failure (Option α)) :
    Leads (st, e) st (e.conclude wrap x) := by
  unfold conclude
  split
  · exact leads_answer _
  · exact leads_answer _
  · exact leads_fail _

theorem leads_questionAnswered {α : Type} {what : String} {doc generation : Nat} {feature : Feature}
    {vain : Json → Bool} {wrap : α → Value}
    {build : Session → Json → Engine → Except Failure (Option α)} {f : Frame} (o : Outcome)
    (hf : f.answers? = some (doc, feature, generation)) :
    Leads (f :: st, e) st (questionAnswered what doc feature generation vain wrap build o e) := by
  unfold questionAnswered
  refine leads_endQuestion (Frame.request?_of_answers hf) (leads_withResult fun v => ?_)
    (finishes_withResult fun v => ?_)
  · refine .of_path (path_isStale hf) ?_
    simp only
    split
    · exact leads_answer _
    · exact leads_withSession .refl fun s _ => leads_conclude _ _
  · simp only
    split
    · exact finishes_finish _ _
    · exact finishes_withSession fun s => finishes_conclude _ _

theorem leads_question {doc : Nat} {feature : Feature} {provider : String} {frame : Nat → Frame}
    {next : Nat → Outcome → Engine → Run}
    (hf : ∀ generation, (frame generation).question? = some (doc, feature, generation))
    (hn : ∀ generation o e, Leads (frame generation :: st, e) st (next generation o e)) :
    Leads (st, e) st (e.question doc feature provider frame next) :=
  leads_ifAvailable fun hr hc _ hs => leads_flushFirst hs (hf _) hr hc (hn _)

theorem leads_hoverAnswered (doc generation : Nat) (pos : Json) (o : Outcome) :
    Leads (.hoverAnswered doc generation pos :: st, e) st (hoverAnswered doc generation pos o e) :=
  leads_questionAnswered o rfl

theorem leads_hoverFlushed (doc generation : Nat) (pos : Json) (o : Outcome) :
    Leads (.hoverFlushed doc generation pos :: st, e) st (hoverFlushed doc generation pos o e) :=
  leads_ask rfl rfl (by decide) fun o _ => leads_hoverAnswered doc generation pos o

theorem leads_hover (doc : Nat) (pos : Json) : Leads (st, e) st (e.hover doc pos) :=
  leads_question (fun _ => rfl) fun _ o _ => leads_hoverFlushed doc _ pos o

theorem leads_completionAnswered (doc generation : Nat) (pos : Json) (o : Outcome) :
    Leads (.completionAnswered doc generation pos :: st, e) st
      (completionAnswered doc generation pos o e) :=
  leads_questionAnswered o rfl

theorem leads_completionFlushed (doc generation : Nat) (pos kind character : Json) (o : Outcome) :
    Leads (.completionFlushed doc generation pos kind character :: st, e) st
      (completionFlushed doc generation pos kind character o e) :=
  leads_ask rfl rfl (by decide) fun o _ => leads_completionAnswered doc generation pos o

theorem leads_completion (doc : Nat) (pos kind character : Json) :
    Leads (st, e) st (e.completion doc pos kind character) :=
  leads_question (fun _ => rfl) fun _ o _ => leads_completionFlushed doc _ pos kind character o

theorem leads_completeAt (doc : Nat) (offset : Json) (explicit : Bool) :
    Leads (st, e) st (e.completeAt doc offset explicit) := by
  unfold completeAt
  split
  · exact leads_fail _
  · exact leads_answer _
  · exact leads_completion doc _ _ _

theorem leads_presentResolved (c : Completion) (answer : Except Failure Json) :
    Leads (st, e) st (e.presentResolved c answer) := by
  unfold presentResolved
  simp only
  split
  · exact .agree (agrees_log _ _ _) (leads_finish _)
  · exact leads_finish _

theorem leads_completionResolved (c : Completion) (o : Outcome) :
    Leads (st, e) st (completionResolved c o e) := by
  unfold completionResolved
  split
  · exact leads_presentResolved c _
  · exact leads_presentResolved c _
  · exact leads_finish _

theorem leads_completionInfo (c : Completion) (resolvable : Bool) :
    Leads (.begin (.completionInfo c resolvable) :: st, e) st (e.completionInfo c resolvable) := by
  cases resolvable with
  | true =>
    refine Leads.andThen (leads_request _ _ _ ?_ fun name h => .resolving c ?_) fun o e =>
      (leads_completionResolved c o).pop rfl
    · exact .head (.pop rfl) (.single (.push rfl))
    · rw [requestMethod_str h]
      decide
  | false => exact (leads_finish _).pop rfl

theorem leads_signatureAnswered (doc generation : Nat) (pos : Json) (o : Outcome) :
    Leads (.signatureAnswered doc generation pos :: st, e) st
      (signatureAnswered doc generation pos o e) :=
  leads_questionAnswered o rfl

theorem leads_signatureFlushed (doc generation : Nat) (pos character : Json) (o : Outcome) :
    Leads (.signatureFlushed doc generation pos character :: st, e) st
      (signatureFlushed doc generation pos character o e) :=
  leads_ask rfl rfl (by decide) fun o _ => leads_signatureAnswered doc generation pos o

theorem leads_signatureHelp (doc : Nat) (pos character : Json) :
    Leads (st, e) st (e.signatureHelp doc pos character) :=
  leads_question (fun _ => rfl) fun _ o _ => leads_signatureFlushed doc _ pos character o

theorem agrees_tellOwner (doc : Nat) (what : String) (v : Value) (e : Engine) :
    Agrees e (e.tellOwner doc what v) := by
  refine agrees_onSession ?_ e ?_
  · intro s
    split <;> rfl
  · intro s
    split <;> rfl

theorem leads_signatureShown (doc : Nat) (o : Outcome) :
    Leads (st, e) st (signatureShown doc o e) := by
  unfold signatureShown
  split
  · refine .of_step (.agree (Agrees.trans (agrees_onSession ?_ e fun _ => by rfl) (agrees_tellOwner _ _ _ _)))
      (leads_answer _)
    intro s
    rfl
  · exact leads_answer _
  · exact leads_finish _

theorem leads_showSignature (doc : Nat) (pos character : Json) :
    Leads (st, e) st (e.showSignature doc pos character) :=
  .then rfl (leads_signatureHelp doc pos character) fun o _ => leads_signatureShown doc o

theorem leads_definitionAnswered (doc : Nat) (o : Outcome) :
    Leads (st, e) st (definitionAnswered doc o e) := by
  refine leads_withResult fun v => ?_
  simp only
  split
  · exact leads_answer _
  · refine leads_withSession .refl fun s _ => ?_
    split
    · exact leads_fail _
    · split
      · exact .agree (agrees_tellOwner _ _ _ _) (leads_answer _)
      · split
        · exact leads_fail _
        · exact .agree ((agrees_onView _ _ _ fun _ => by rfl).trans (agrees_tellOwner _ _ _ _)) (leads_answer _)

theorem leads_definition (doc : Nat) (pos : Json) : Leads (st, e) st (e.definition doc pos) :=
  leads_ifAvailable fun hr _ _ _ =>
    .then rfl (leads_request_ready hr (by decide) _ _) fun o _ => leads_definitionAnswered doc o

/-! ### Renaming -/

theorem agrees_renameAvailable (doc : Nat) (s : Session) (e : Engine) :
    Agrees e (e.renameAvailable doc s).2 := by
  unfold renameAvailable
  split
  · exact .refl e
  · split
    · exact agrees_showMessage _ _ _ _
    · split
      · exact .refl e
      · split
        · exact .refl e
        · exact agrees_showMessage _ _ _ _

theorem ready_of_renameAvailable {doc : Nat} {s : Session}
    (h : (e.renameAvailable doc s).1 = .ok true) : e.client.ready = true := by
  unfold renameAvailable at h
  split at h
  · cases h
  · cases hr : e.client.ready with
    | true => rfl
    | false => simp [hr] at h

theorem leads_ifRenamable {doc : Nat} {otherwise : Value} {k : Session → Run}
    (h : e.client.ready = true → ∀ s, Leads (st, e) st (k s)) :
    Leads (st, e) st (e.ifRenamable doc otherwise k) := by
  refine leads_withSession .refl fun s _ => ?_
  have ha := agrees_renameAvailable doc s e
  split
  · rename_i h'
    rw [h'] at ha
    exact .agree ha (leads_fail _)
  · rename_i h'
    rw [h'] at ha
    exact .agree ha (leads_answer _)
  · rename_i h'
    have havailable : (e.renameAvailable doc s).1 = .ok true := by rw [h']
    exact h (ready_of_renameAvailable havailable) s

theorem leads_concludeRename (doc : Nat) (b : Buffer) (pos result : Json) :
    Leads (st, e) st (e.concludeRename doc b pos result) := by
  unfold concludeRename
  split
  · exact leads_fail _
  · split
    · exact .agree (agrees_showMessage _ _ _ _) (leads_answer _)
    · split
      · exact leads_fail _
      · exact .agree (agrees_showMessage _ _ _ _) (leads_answer _)
      · exact leads_answer _

theorem leads_renamePrepared (doc : Nat) (pos : Json) (b : Buffer) (o : Outcome) :
    Leads (st, e) st (renamePrepared doc pos b o e) := by
  unfold renamePrepared
  split
  · exact leads_concludeRename doc b pos _
  · split
    · exact .agree (agrees_log _ _ _) (leads_concludeRename doc b pos _)
    · exact leads_fail _
  · exact leads_finish _

theorem leads_prepareRename (doc : Nat) (pos : Json) : Leads (st, e) st (e.prepareRename doc pos) :=
  leads_ifRenamable fun hr _ =>
    .then rfl (leads_request_ready hr (by decide) _ _) fun o _ => leads_renamePrepared doc pos _ o

theorem leads_renameAnswered (doc : Nat) (o : Outcome) :
    Leads (st, e) st (renameAnswered doc o e) := by
  unfold renameAnswered
  split
  · exact leads_withSession .refl fun s _ =>
      .of_path (path_applyWorkspaceEdit doc s.document.uri _) (leads_finish _)
  · split
    · exact .agree (agrees_showMessage _ _ _ _) (leads_answer _)
    · exact leads_fail _
  · exact leads_finish _

theorem leads_rename (doc : Nat) (pos newName current : Json) :
    Leads (st, e) st (e.rename doc pos newName current) := by
  refine leads_ifRenamable fun hr s => ?_
  split
  · exact leads_fail _
  · simp only
    split
    · exact .agree (agrees_showMessage _ _ _ _) (leads_answer _)
    · split
      · exact leads_answer _
      · exact .then rfl (leads_request_ready hr (by decide) _ _) fun o _ =>
          leads_renameAnswered doc o

theorem leads_renameTargeted (doc : Nat) (pos newName : Json) (o : Outcome) :
    Leads (st, e) st (renameTargeted doc pos newName o e) := by
  unfold renameTargeted
  split
  · exact leads_rename doc pos newName _
  · exact leads_answer _
  · exact leads_finish _

theorem leads_requestRename (doc : Nat) (pos newName : Json) :
    Leads (st, e) st (e.requestRename doc pos newName) :=
  .then rfl (leads_prepareRename doc pos) fun o _ => leads_renameTargeted doc pos newName o

/-! ### Diagnostics -/

theorem leads_codeActions (doc : Nat) (range codes : Json) :
    Leads (st, e) st (e.codeActions doc range codes) := by
  refine leads_ifAvailable fun hr _ s _ => ?_
  simp only
  split
  · exact leads_fail _
  · exact leads_request_ready hr (by decide) _ _

theorem leads_givePrepared (doc : Nat) (entry : PreparedAnswer) (o : Outcome) :
    Leads (st, e) st (givePrepared doc entry o e) := by
  unfold givePrepared
  split
  · split
    · exact .of_path (path_replaceText doc _) (leads_finish _)
    · exact leads_finish _
  · exact leads_finish _

theorem leads_fetchPrepared (doc : Nat) (range codes : Json) :
    Leads (st, e) st (e.fetchPrepared doc range codes) := by
  have ha : Agrees e { e with actionCalls := e.actionCalls ++ [(range, codes)] } :=
    agrees_of_same (Nat.le_refl _) rfl
  refine .agree ha ?_
  unfold fetchPrepared
  simp only
  split
  · exact leads_givePrepared doc _ _
  · exact .then rfl (leads_sleep _) fun o _ => leads_givePrepared doc _ o

theorem leads_actionsFetched (diagnostic : Json) (o : Outcome) :
    Leads (st, e) st (actionsFetched diagnostic o e) := by
  unfold actionsFetched
  split
  · split
    · exact .agree (agrees_log _ _ _) (leads_answer _)
    · exact leads_fail _
  · exact leads_answer _
  · exact leads_finish _

theorem leads_fetchActions (doc : Nat) (source : ActionSource) (diagnostic : Json) :
    Leads (st, e) st (e.fetchActions doc source diagnostic) := by
  refine .then rfl ?_ fun o _ => leads_actionsFetched diagnostic o
  split
  · exact leads_fail _
  · split
    · exact leads_answer _
    · exact leads_codeActions doc _ _
    · exact leads_fetchPrepared doc _ _

/-- What is placed is shown if it is still wanted. -/
theorem path_isSuperseded (doc : Nat) (superseding : Superseding) (hp : Presenting doc st) :
    Path (st, e) (st, (e.isSuperseded doc superseding).2) := by
  unfold isSuperseded
  split
  · exact .refl
  · exact .refl
  · rename_i generation
    rcases isStale_cases doc .diagnostics generation e with ⟨heq, _⟩ | ⟨hstale, message, heq⟩
    · rw [heq]
    · have ha := agrees_log .debug message e
      rw [heq]
      exact .head (.agree ha) (.single (.remark (.superseded (stale_agrees ha hstale) hp)))

theorem wanted_of_isSuperseded {doc : Nat} {superseding : Superseding}
    (h : (e.isSuperseded doc superseding).1 = false) :
    (e.isSuperseded doc superseding).2 = e ∧ Wanted doc superseding e := by
  cases superseding with
  | never => exact ⟨rfl, fun _ h => by cases h⟩
  | said b => exact ⟨rfl, fun _ h => by cases h⟩
  | after generation =>
    rcases isStale_cases doc .diagnostics generation e with ⟨heq, hwanted⟩ | ⟨_, message, heq⟩
    · refine ⟨congrArg Prod.snd heq, fun generation' h => ?_⟩
      obtain rfl := Superseding.after.inj h
      exact hwanted
    · rw [isSuperseded, heq] at h
      cases h

theorem leads_placeDiagnostics {doc : Nat} (hf : f.presents? = some doc) (diagnostics actions : List Json)
    (fallback : Json) (superseding : Superseding) :
    Leads (f :: st, e) st (e.placeDiagnostics doc diagnostics actions fallback superseding) := by
  have hp : Presenting doc (f :: st) := presenting_cons hf
  have hpop := Frame.request?_of_presents hf
  unfold placeDiagnostics
  simp only
  split
  · exact .of_path (path_isSuperseded doc superseding hp) ((leads_answer _).pop hpop)
  · rename_i hnot
    obtain ⟨heq, hwanted⟩ := wanted_of_isSuperseded (Bool.not_eq_true _ ▸ hnot)
    rw [heq]
    split
    · exact (leads_fail _).pop hpop
    · exact .of_step (.shown _ hwanted hp) ((leads_answer _).pop hpop)

theorem leads_actionsGathered (doc : Nat) (diagnostics : List Json) (fetches : List Ref)
    (fallback : Json) (superseding : Superseding) (o : Outcome) :
    Leads (.actionsGathered doc diagnostics fetches fallback superseding :: st, e) st
      (actionsGathered doc diagnostics fetches fallback superseding o e) := by
  unfold actionsGathered
  split
  · exact leads_placeDiagnostics rfl _ _ _ _
  · exact (leads_finish _).pop rfl

theorem path_spawnAll : ∀ {ops : List Operation} {e : Engine}, (∀ op ∈ ops, op.internal = true) →
    Path (st, e) (st, (spawnAll ops e).2)
  | [], _, _ => .refl
  | op :: _, _, h =>
    .head (.spawn (h op List.mem_cons_self)) (path_spawnAll fun op' h' => h op' (.tail op h'))

theorem leads_present {doc : Nat} (hf : f.presents? = some doc) (diagnostics : List Json)
    (source : ActionSource) (fallback : Json) (superseding : Superseding) :
    Leads (f :: st, e) st (e.present doc diagnostics source fallback superseding) := by
  unfold present
  split
  · exact leads_placeDiagnostics hf _ _ _ _
  · exact leads_placeDiagnostics hf _ _ _ _
  · have hops : ∀ op ∈ diagnostics.map (Operation.fetchActions doc source ·),
        op.internal = true := by
      intro op hop
      obtain ⟨d, -, rfl⟩ := List.mem_map.mp hop
      rfl
    refine .of_path (path_spawnAll hops) ?_
    obtain ⟨hpath, hawaits⟩ := path_gather (f :: st)
      (spawnAll (diagnostics.map (Operation.fetchActions doc source ·)) e).2
      (spawnAll (diagnostics.map (Operation.fetchActions doc source ·)) e).1 false
    exact ⟨hpath.tail (.gathers doc diagnostics _ fallback superseding hf), hawaits⟩

/-- What has just been begun is wanted. -/
theorem wanted_begun {doc : Nat} :
    Wanted doc (.after (e.beginGeneration doc .diagnostics).1)
      (e.beginGeneration doc .diagnostics).2 := by
  rintro generation h ⟨s, hs, _, hne⟩
  obtain rfl := Superseding.after.inj h
  simp only [beginGeneration, note, session?, onSession, List.getElem?_modify_eq] at hs
  obtain ⟨s', hs', rfl⟩ := Option.map_eq_some_iff.mp hs
  exact hne (by simp [beginGeneration, session?, hs'])

theorem leads_processDiagnostics (doc : Nat) (params : Json) :
    Leads (.begin (.processDiagnostics doc params) :: st, e) st (e.processDiagnostics doc params) := by
  have hp : Presenting doc (.begin (.processDiagnostics doc params) :: st) := presenting_cons rfl
  refine leads_withSession (.single (.pop rfl)) fun s hs => ?_
  split
  · exact (leads_fail _).pop rfl
  · exact (leads_answer _).pop rfl
  · refine .of_step (.pose .diagnostics hs fun _ => hp) ?_
    simp only
    split
    · exact .of_step (.shown _ wanted_begun hp) ((leads_answer _).pop rfl)
    · split
      · exact (leads_fail _).pop rfl
      · exact .of_step (.remark (.published _ _ _ hp)) (leads_present rfl _ _ _ _)

end LanguageClient.Engine
