import LanguageClient.Proofs.Engine.Features
import LanguageClient.Proofs.Engine.Requests
import LanguageClient.Proofs.Order

/-!
What is said to the user, and what becomes of the text shown. A message leaves everything else alone
(`Utters`). Edits of the server are one batch: it is carried out on the text, and then what listens
for edits is called (`Carried`), or it is not, and the text is what it was.

    edits ──resolve──▶ changes ──prepare──▶ new text ──▶ listener
                 │                │                          │
                 └────────────────┴─ failed: old text        └─ failed: the new text stays
-/

namespace LanguageClient

/-- More messages are shown. -/
def View.say (shown : List (String × String)) (v : View) : View :=
  { v with messages := v.messages ++ shown }

/-- Another text is shown. -/
def View.showing (text : List Char) (v : View) : View := { v with text }

@[simp] theorem View.say_say (shown more : List (String × String)) (v : View) :
    (v.say shown).say more = v.say (shown ++ more) := by simp [say]

/-- A document with another view. -/
def Session.viewing (f : View → View) (s : Session) : Session := { s with view := f s.view }

def Session.say (shown : List (String × String)) : Session → Session := viewing (.say shown)

theorem Session.say_nil (s : Session) : s.say [] = s := by simp [say, viewing, View.say]

theorem Session.say_say (shown more : List (String × String)) (s : Session) :
    (s.say shown).say more = s.say (shown ++ more) := by simp [say, viewing]

/-- The views of documents one of which has changed its view. -/
theorem Session.map_view_modify (doc : Nat) (f : View → View) (sessions : List Session) :
    (sessions.modify doc (viewing f)).map (·.view) = (sessions.map (·.view)).modify doc f := by
  refine List.ext_getElem? fun i => ?_
  simp only [List.getElem?_map, List.getElem?_modify]
  cases sessions[i]? with
  | none => rfl
  | some s => split <;> rfl

/-- Messages do not matter for what a batch comes to. -/
@[simp] theorem Session.prepare_say (shown : List (String × String)) (s : Session)
    (changes : List SentChange) : (s.say shown).view.prepare changes = s.view.prepare changes := rfl

namespace Engine

variable {doc : Nat} {shown more : List (String × String)} {news : List Event}
  {e e' e₁ e₂ e₃ : Engine} {s : Session}

/-! ### Messages -/

/-- Nothing can be seen but that some messages were shown beside a document. -/
structure Utters (doc : Nat) (shown : List (String × String)) (news : List Event) (e e' : Engine) :
    Prop where
  sessions : e'.sessions = e.sessions.modify doc (.say shown)
  ready : e'.client.ready = e.client.ready
  capabilities : e'.client.capabilities = e.client.capabilities
  history : e'.history = e.history ++ news

theorem Unseen.utters (h : Unseen news e e') (doc : Nat) : Utters doc [] news e e' where
  sessions := by
    have hid : Session.say [] = id := funext Session.say_nil
    rw [h.sessions, hid, List.modify_id]
  ready := h.ready
  capabilities := h.capabilities
  history := h.history

theorem Utters.trans {news' : List Event} (h : Utters doc shown news e₁ e₂)
    (h' : Utters doc more news' e₂ e₃) : Utters doc (shown ++ more) (news ++ news') e₁ e₃ where
  sessions := by
    have hsay : Session.say more ∘ Session.say shown = Session.say (shown ++ more) :=
      funext (Session.say_say shown more)
    rw [h'.sessions, h.sessions, List.modify_modify_eq, hsay]
  ready := h'.ready.trans h.ready
  capabilities := h'.capabilities.trans h.capabilities
  history := by rw [h'.history, h.history, List.append_assoc]

theorem utters_log (doc : Nat) (level : Level) (message : String) (e : Engine) :
    Utters doc [] [] e (e.log level message) :=
  (unseen_of_same rfl rfl rfl : Unseen [] e (e.log level message)).utters doc

theorem utters_showMessage (doc : Nat) (level message : String) (e : Engine) :
    Utters doc [(level, message)] [] e (e.showMessage doc level message) :=
  ⟨rfl, rfl, rfl, (List.append_nil _).symm⟩

theorem utters_showNotices (doc : Nat) : ∀ (notices : List Notice) (e : Engine),
    Utters doc (notices.map fun n => (n.level, n.message)) []
      e ((editor doc).showNotices notices e)
  | [], e => (Unseen.refl e).utters doc
  | n :: notices, e =>
      (utters_showMessage doc n.level n.message e).trans (utters_showNotices doc notices _)

/-- Something new is shown beside a document. -/
def Says (doc : Nat) (e e' : Engine) : Prop :=
  ∃ s s' message more, e.session? doc = some s ∧ e'.session? doc = some s' ∧
    s'.view.messages = s.view.messages ++ message :: more

theorem Utters.session? (h : Utters doc shown news e e') (hs : e.session? doc = some s) :
    e'.session? doc = some (s.say shown) := by
  have hs : e.sessions[doc]? = some s := hs
  simp [Engine.session?, h.sessions, hs]

/-- A document that is there afterwards was there before. -/
theorem Utters.found {s₁ : Session} (h : Utters doc shown news e e₁) (hs₁ : e₁.session? doc = some s₁) :
    ∃ s, e.session? doc = some s ∧ s₁ = s.say shown := by
  cases hs : e.session? doc with
  | none =>
    have hnone : e.sessions[doc]? = none := hs
    have hs₁ : e₁.sessions[doc]? = some s₁ := hs₁
    rw [h.sessions, List.getElem?_modify, hnone] at hs₁
    cases hs₁
  | some s => exact ⟨s, rfl, Option.some.inj (hs₁.symm.trans (h.session? hs))⟩

theorem says_of_append {s' : Session} (hs : e.session? doc = some s) (hs' : e'.session? doc = some s')
    (hm : s'.view.messages = s.view.messages ++ shown) (hne : shown ≠ []) : Says doc e e' := by
  cases shown with
  | nil => exact absurd rfl hne
  | cons message more => exact ⟨s, s', message, more, hs, hs', hm⟩

theorem Utters.spoken (h : Utters doc shown news e e') (hs : e.session? doc = some s)
    (hne : shown ≠ []) :
    Says doc e e' := says_of_append hs (h.session? hs) rfl hne

theorem Says.say (h : Says doc e e₁) (hu : Utters doc shown news e₁ e') : Says doc e e' := by
  obtain ⟨s, s₁, message, more, hs, hs₁, hm⟩ := h
  have hm' : (s₁.say shown).view.messages = s.view.messages ++ ((message :: more) ++ shown) := by
    rw [← List.append_assoc, ← hm]
    rfl
  exact says_of_append hs (hu.session? hs₁) hm' (by simp)

theorem Says.after (h : Says doc e₁ e') (hu : Utters doc shown news e e₁) : Says doc e e' := by
  obtain ⟨s₁, s', message, more, hs₁, hs', hm⟩ := h
  obtain ⟨s, hs, rfl⟩ := hu.found hs₁
  have hm' : s'.view.messages = s.view.messages ++ (shown ++ message :: more) := by
    rw [hm, ← List.append_assoc]
    rfl
  exact says_of_append hs hs' hm' (by simp)

/-! ### One batch -/

/-- A batch of changes has been carried out on the text of a document, and what listens for edits was
    then called, with this result. Messages may have been shown. -/
inductive Carried (doc : Nat) (e e' : Engine) (result : Except Failure Unit) : Prop where
  | batch {s : Session} {changes : List SentChange} {typed : List Change} {text : List Char}
      {before after : List (String × String)} {edited : Engine}
      (found : e.session? doc = some s) (prepared : s.view.prepare changes = .ok (typed, text))
      (landed : edited.sessions = e.sessions.modify doc
        (.viewing fun v => (v.say before).showing text))
      (heard : (edited.runHook doc s.hook text typed).1 = result)
      (views : e'.sessions.map (·.view) =
        (e.sessions.map (·.view)).modify doc fun v => (v.say after).showing text)

/-- What is shown after a batch is what was shown before it, and more. -/
theorem Carried.session? {result : Except Failure Unit} (h : Carried doc e e' result)
    (hs : e.session? doc = some s) : ∃ s' after, e'.session? doc = some s' ∧
      s'.view.messages = s.view.messages ++ after := by
  obtain @⟨_, _, _, text, _, after, _, _, _, _, _, views⟩ := h
  have hview : (e'.sessions.map (·.view))[doc]? = some ((s.view.say after).showing text) := by
    have hs : e.sessions[doc]? = some s := hs
    rw [views, List.getElem?_modify, List.getElem?_map, hs]
    simp
  rw [List.getElem?_map] at hview
  obtain ⟨s', hs', hv⟩ := Option.map_eq_some_iff.mp hview
  exact ⟨s', after, hs', by rw [hv]; rfl⟩

theorem Carried.spoken {result : Except Failure Unit} (h : Carried doc e e₁ result)
    (hu : Utters doc shown news e₁ e') (hs : e.session? doc = some s) (hne : shown ≠ []) :
    Says doc e e' := by
  obtain ⟨s₁, after, hs₁, hm⟩ := h.session? hs
  have hm' : (s₁.say shown).view.messages = s.view.messages ++ (after ++ shown) := by
    rw [← List.append_assoc, ← hm]
    rfl
  exact says_of_append hs (hu.session? hs₁) hm' (by simp [hne])

/-- Nothing has happened but that a document got a text. -/
def Texted (doc : Nat) (e e' : Engine) : Prop :=
  ∃ news, e'.history = e.history ++ news ∧ ∀ event ∈ news, ∃ text, event = .texted doc text

/-- What happens leaves the views alone, and sends nothing. -/
structure Unviewed (news : List Event) (e e' : Engine) : Prop where
  views : e'.sessions.map (·.view) = e.sessions.map (·.view)
  history : e'.history = e.history ++ news

theorem Unviewed.trans {news' : List Event} (h : Unviewed news e₁ e₂) (h' : Unviewed news' e₂ e₃) :
    Unviewed (news ++ news') e₁ e₃ :=
  ⟨h'.views.trans h.views, by rw [h'.history, h.history, List.append_assoc]⟩

theorem Unviewed.then (h : Unviewed news e₁ e₂) (h' : Unviewed [] e₂ e₃) : Unviewed news e₁ e₃ :=
  List.append_nil news ▸ h.trans h'

theorem unviewed_of_same (hs : e'.sessions = e.sessions) (hh : e'.history = e.history) :
    Unviewed [] e e' := ⟨by rw [hs], by rw [hh, List.append_nil]⟩

theorem unviewed_onSession {f : Session → Session} (h : ∀ s, (f s).view = s.view) (doc : Nat)
    (e : Engine) : Unviewed [] e (e.onSession doc f) :=
  ⟨map_onSession (·.view) h doc e, (List.append_nil _).symm⟩

theorem unviewed_spawn (op : Operation) (e : Engine) : Unviewed [] e (e.spawn op).2 :=
  unviewed_of_same rfl rfl

theorem unviewed_scheduleFlush (doc : Nat) (e : Engine) : Unviewed [] e (e.scheduleFlush doc).2 := by
  have hc := cancels_cancelSlot doc e
  have hcancel : Unviewed [] e (e.cancelSlot doc).2 := unviewed_of_same hc.sessions hc.history
  exact hcancel.then (unviewed_of_same rfl rfl)

theorem unviewed_scheduleChange (doc : Nat) (text : List Char) (changes : Option (List Change))
    (e : Engine) : Unviewed [.texted doc text] e (e.scheduleChange doc text changes).2 := by
  have hnote : Unviewed [.texted doc text] e (e.note (.texted doc text)) := ⟨rfl, rfl⟩
  refine hnote.then ?_
  unfold scheduleChange
  generalize e.note (.texted doc text) = e
  simp only
  cases e.session? doc with
  | none => exact unviewed_scheduleFlush doc e
  | some s =>
    have hdoc : Unviewed [] e (e.onDocument doc fun _ => (s.document.edited text changes).2) :=
      unviewed_onSession (fun _ => by rfl) doc e
    simp only
    split
    · exact hdoc.then (unviewed_scheduleFlush doc _)
    · have hlog (level : Level) (message : String) (e : Engine) : Unviewed [] e (e.log level message) :=
        unviewed_of_same rfl rfl
      exact (hdoc.then (hlog _ _ _)).then (unviewed_scheduleFlush doc _)

theorem unviewed_spawnFor (doc : Nat) (op : Operation) (e : Engine) :
    Unviewed [] e (e.spawnFor doc op).2 := by
  have hbackground : Unviewed [] e ((e.spawn op).2.onSession doc fun s =>
      { s with background := s.background ++ [(e.spawn op).1] }) :=
    (unviewed_spawn op e).then (unviewed_onSession (fun _ => by rfl) doc _)
  have hl := unseen_listen (e.spawn op).1 (.backgroundOver doc) ((e.spawn op).2.onSession doc fun s =>
      { s with background := s.background ++ [(e.spawn op).1] })
  exact hbackground.then ⟨by rw [← hl.sessions]; rfl, hl.history⟩

/-- What listens for edits touches no view. -/
theorem unviewed_runHook (doc : Nat) (hook : EditHook) (text : List Char) (changes : List Change)
    (e : Engine) : ∃ news, (∀ event ∈ news, event = .texted doc text) ∧
      Unviewed news e (e.runHook doc hook text changes).2 := by
  have hchange := unviewed_scheduleChange doc text (some changes) e
  cases hook with
  | none => exact ⟨[], by simp, unviewed_of_same rfl rfl⟩
  | scheduleChange => exact ⟨_, by simp, hchange⟩
  | viewChanged =>
    refine ⟨_, by simp, hchange.then ?_⟩
    simp only [runHook, viewChanged]
    generalize (e.scheduleChange doc text (some changes)).2 = e
    split
    · exact unviewed_of_same rfl rfl
    · split
      · exact unviewed_of_same rfl rfl
      · exact unviewed_of_same rfl rfl
      · exact unviewed_spawnFor doc _ e

theorem Utters.views (h : Utters doc shown news e e') :
    e'.sessions.map (·.view) = (e.sessions.map (·.view)).modify doc (.say shown) := by
  rw [h.sessions]
  exact Session.map_view_modify doc (.say shown) e.sessions

theorem Carried.after {result : Except Failure Unit} (h : Carried doc e₁ e' result)
    (hu : Utters doc shown news e e₁) : Carried doc e e' result := by
  obtain @⟨_, _, _, text, before, after, _, found, prepared, landed, heard, views⟩ := h
  have hsay (more : List (String × String)) :
      (fun v : View => (v.say more).showing text) ∘ View.say shown =
        fun v => (v.say (shown ++ more)).showing text := by
    funext v
    simp only [Function.comp_apply, View.say_say]
  have hviewing : Session.viewing (fun v => (v.say before).showing text) ∘ Session.say shown =
      Session.viewing fun v => (v.say (shown ++ before)).showing text := by
    rw [← hsay before]
    rfl
  obtain ⟨s, hs, rfl⟩ := hu.found found
  rw [hu.sessions, List.modify_modify_eq, hviewing] at landed
  rw [hu.views, List.modify_modify_eq, hsay] at views
  exact .batch hs prepared landed heard views

theorem Carried.say {result : Except Failure Unit} (h : Carried doc e e₁ result)
    (hu : Utters doc shown news e₁ e') : Carried doc e e' result := by
  obtain @⟨_, _, _, text, before, after, _, found, prepared, landed, heard, views⟩ := h
  have hsay : View.say shown ∘ (fun v : View => (v.say after).showing text) =
      fun v => (v.say (after ++ shown)).showing text := by
    funext v
    rw [← View.say_say]
    rfl
  have hviews := hu.views
  rw [views, List.modify_modify_eq, hsay] at hviews
  exact .batch found prepared landed heard hviews

/-! ### Edits of the server -/

/-- A batch is refused, or carried out. -/
theorem editView_cases (hs : e.session? doc = some s) (changes : List SentChange) :
    (∃ f, e.editView doc changes = (.error f, e)) ∨
      (Carried doc e (e.editView doc changes).2 (e.editView doc changes).1 ∧
        Texted doc e (e.editView doc changes).2) := by
  unfold editView
  rw [hs]
  simp only
  cases hp : s.view.prepare changes with
  | error f => exact .inl ⟨f, rfl⟩
  | ok prepared =>
    obtain ⟨typed, text⟩ := prepared
    have hsay : View.showing text = fun v : View => (v.say []).showing text := by
      funext v
      simp [View.say]
    have hlanded : (e.onView doc (.showing text)).sessions =
        e.sessions.modify doc (.viewing (.showing text)) := rfl
    obtain ⟨news, htexted, hviews, hhistory⟩ :=
      unviewed_runHook doc s.hook text typed (e.onView doc (.showing text))
    have hnoted : (e.onView doc (.showing text)).history = e.history := rfl
    rw [hlanded, Session.map_view_modify] at hviews
    rw [hnoted] at hhistory
    right
    change Carried doc e (runHook doc s.hook text typed (e.onView doc (.showing text))).2
        (runHook doc s.hook text typed (e.onView doc (.showing text))).1 ∧
      Texted doc e (runHook doc s.hook text typed (e.onView doc (.showing text))).2
    generalize e.onView doc (.showing text) = edited at hlanded hviews hhistory
    rw [hsay] at hlanded hviews
    exact ⟨.batch hs hp hlanded rfl hviews, news, hhistory, fun event hm => ⟨text, htexted event hm⟩⟩

/-- What comes of edits that are to be carried out on a document: they are not, or they are and that is
    what is answered, unless what listens for edits fails. Nothing to carry out is no failure. -/
inductive Applied (doc : Nat) (idle : Prop) (e e' : Engine) : Except Failure Bool → Prop where
  | failed {shown : List (String × String)} {f : Failure} (hu : Utters doc shown [] e e') :
      Applied doc idle e e' (.error f)
  | refused {shown : List (String × String)} (hu : Utters doc shown [] e e') (hs : shown ≠ []) :
      Applied doc idle e e' (.ok false)
  | idle {shown : List (String × String)} (hu : Utters doc shown [] e e') (hi : idle) :
      Applied doc idle e e' (.ok false)
  | carried (hc : Carried doc e e' (.ok ())) (ht : Texted doc e e') : Applied doc idle e e' (.ok true)
  | upset {f : Failure} (hc : Carried doc e e' (.error f)) (ht : Texted doc e e')
      (hs : f.isInvalid = true → Says doc e e') :
      Applied doc idle e e' (if f.isInvalid then .ok false else .error f)

theorem Texted.say (h : Texted doc e e₁) (hu : Utters doc shown [] e₁ e') : Texted doc e e' := by
  obtain ⟨news, hh, hn⟩ := h
  exact ⟨news, by rw [hu.history, hh, List.append_nil], hn⟩

theorem Texted.after (h : Texted doc e₁ e') (hu : Utters doc shown [] e e₁) : Texted doc e e' := by
  obtain ⟨news, hh, hn⟩ := h
  exact ⟨news, by rw [hh, hu.history, List.append_nil], hn⟩

/-- What is said later makes no difference. -/
theorem Applied.say {idle : Prop} {result : Except Failure Bool} (h : Applied doc idle e e₁ result)
    (hu : Utters doc shown [] e₁ e') : Applied doc idle e e' result := by
  cases h with
  | failed hu' => exact .failed (hu'.trans hu)
  | refused hu' hne => exact .refused (hu'.trans hu) (by simp [hne])
  | idle hu' hi => exact .idle (hu'.trans hu) hi
  | carried hc ht => exact .carried (hc.say hu) (ht.say hu)
  | upset hc ht hs => exact .upset (hc.say hu) (ht.say hu) fun hi => (hs hi).say hu

theorem Applied.after {idle : Prop} {result : Except Failure Bool} (h : Applied doc idle e₁ e' result)
    (hu : Utters doc shown [] e e₁) : Applied doc idle e e' result := by
  cases h with
  | failed hu' => exact .failed (hu.trans hu')
  | refused hu' hne => exact .refused (hu.trans hu') (by simp [hne])
  | idle hu' hi => exact .idle (hu.trans hu') hi
  | carried hc ht => exact .carried (hc.after hu) (ht.after hu)
  | upset hc ht hspoken => exact .upset (hc.after hu) (ht.after hu) fun hi => (hspoken hi).after hu

theorem resolveEdits_ne_nil {b : Buffer} {edits : List Json} (hne : edits ≠ []) :
    resolveEdits b edits ≠ .ok [] := by
  intro h
  cases hm : edits.mapM (resolveEdit b) with
  | error f => simp [resolveEdits, hm, bind, Except.bind] at h
  | ok changes =>
    have hnil : SentChange.descending changes = [] := by
      simpa [resolveEdits, hm, bind, Except.bind, pure, Except.pure] using h
    have hperm : (SentChange.descending changes).Perm changes := sortStable_perm _ changes
    rw [hnil] at hperm
    rw [hperm.nil_eq.symm] at hm
    cases edits with
    | nil => exact hne rfl
    | cons edit rest =>
      rw [List.mapM_cons] at hm
      cases hc : resolveEdit b edit with
      | error f => simp [hc, bind, Except.bind] at hm
      | ok c => cases hrest : rest.mapM (resolveEdit b) <;>
          simp [hc, hrest, bind, Except.bind, pure, Except.pure] at hm

/-- Edits are carried out as one batch. -/
theorem applied_applyEdits (hs : e.session? doc = some s) {edits : List Json} (hne : edits ≠ [])
    (idle : Prop) :
    Applied doc idle e ((editor doc).applyEdits edits e).2 ((editor doc).applyEdits edits e).1 := by
  have hquiet : Utters doc [] [] e e := (Unseen.refl e).utters doc
  have hsaid (message : String) (e : Engine) :
      Utters doc [("error", "Failed to apply edits: " ++ message)] []
      e ((e.log .error ("edit batch rejected: " ++ message)).showMessage doc "error"
        ("Failed to apply edits: " ++ message)) :=
    (utters_log doc _ _ e).trans (utters_showMessage doc _ _ _)
  unfold Editor.applyEdits
  cases hr : resolveEdits ⟨(editor doc).text e⟩ edits with
  | error f => exact .failed hquiet
  | ok changes =>
    cases changes with
    | nil => exact absurd hr (resolveEdits_ne_nil hne)
    | cons c rest =>
      have hedit : (editor doc).applyChanges (c :: rest) e = e.editView doc (c :: rest) := rfl
      have hcases := editView_cases hs (c :: rest)
      simp only [hedit]
      generalize e.editView doc (c :: rest) = edited at hcases ⊢
      obtain ⟨result, e'⟩ := edited
      rcases hcases with ⟨f, heq⟩ | ⟨hc, ht⟩
      · obtain ⟨rfl, rfl⟩ := Prod.mk.inj heq
        simp only
        split
        · exact .refused (hsaid f.message e') (by simp)
        · exact .failed hquiet
      · cases result with
        | ok => exact .carried hc ht
        | error f =>
          have hu := hsaid f.message e'
          cases hi : f.isInvalid with
          | true =>
            have hupset : Applied doc idle e _ (if f.isInvalid then .ok false else .error f) :=
              .upset (hc.say hu) (ht.say hu) fun _ => hc.spoken hu hs (by simp)
            rw [hi] at hupset
            simp only [hi, if_true]
            exact hupset
          | false =>
            have hupset : Applied doc idle e e' (if f.isInvalid then .ok false else .error f) :=
              .upset hc ht fun h => absurd (hi.symm.trans h) (by decide)
            rw [hi] at hupset
            simp only [hi]
            exact hupset

/-- The part of a workspace edit that is for a document is carried out as one batch. -/
theorem applied_carryOut (hs : e.session? doc = some s) (uri : String) (edit : Json) :
    Applied doc ((WorkspaceEdit.plan uri edit).edits = .ok []) e
      ((editor doc).carryOut uri edit e).2 ((editor doc).carryOut uri edit e).1 := by
  have hsaid := utters_showNotices doc (WorkspaceEdit.plan uri edit).notices e
  unfold Editor.carryOut
  simp only
  cases hp : (WorkspaceEdit.plan uri edit).edits with
  | error f => exact .failed hsaid
  | ok edits =>
    cases edits with
    | nil => exact .idle hsaid rfl
    | cons edit rest =>
      exact (applied_applyEdits (hsaid.session? hs) (List.cons_ne_nil _ _) _).after hsaid

theorem applied_applyWorkspaceEdit (hs : e.session? doc = some s) (uri : String) (edit : Json) :
    Applied doc ((WorkspaceEdit.plan uri edit).edits = .ok []) e
      ((editor doc).applyWorkspaceEdit uri edit e).2 ((editor doc).applyWorkspaceEdit uri edit e).1 := by
  have hlog (level : Level) (message : String) (e : Engine) :
      Utters doc [] [] e ((editor doc).record level message e) := utters_log doc level message e
  unfold Editor.applyWorkspaceEdit
  simp only
  have hbegun := hlog .debug "[start] apply_workspace_edit - apply workspace edit to the active document" e
  have happlied := (applied_carryOut (hbegun.session? hs) uri edit).after hbegun
  generalize (editor doc).carryOut uri edit _ = carried at happlied ⊢
  obtain ⟨_ | applied, e'⟩ := carried
  · exact happlied
  · exact happlied.say (hlog _ _ _)

end Engine

end LanguageClient
