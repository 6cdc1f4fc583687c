import LanguageClient.Proofs.Client.Attached

/-!
Whom a notification is told. A notification that the reader takes up is told to those who are attached
at that moment: once to each of them, in the order of the registry, whoever comes, goes or fails
meanwhile. What is told in a whole run can then be read off its history: the calls that attach and
detach are replayed, and with each notification everyone is due who is attached by then (`due`).

    registered ──▶ registry ──taken notification──▶ notified x₁, notified x₂, …
-/

namespace LanguageClient

/-- Who is told, and the method and the params of what is told. -/
abbrev News := Subscriber × Json × Json

def Event.news? : Event → Option News
  | .notified x method params => some (x, method, params)
  | _ => none

/-- What has been told, oldest first. -/
def news (history : List Event) : List News := history.filterMap Event.news?

/-- What is to be told of a message: a notification goes to everyone who is attached. -/
def Message.news (m : Json) (s : Registry Subscriber) : List News :=
  if isNotification m then
    s.map fun x => (x, Json.ofOption (m.member? "method"), Json.ofOption (m.member? "params"))
  else []

/-- What is to be told in the course of a history, by those who are attached at its beginning. -/
def due : Registry Subscriber → List Event → List News
  | _, [] => []
  | s, .registered r :: rest => due (s.register r) rest
  | s, .taken m :: rest => Message.news m s ++ due s rest
  | s, _ :: rest => due s rest

theorem news_append (history more : List Event) :
    news (history ++ more) = news history ++ news more := List.filterMap_append ..

theorem due_append (history more : List Event) (s : Registry Subscriber) :
    due s (history ++ more) =
      due s history ++ due (Registry.registered s (registrations history)) more := by
  induction history generalizing s with
  | nil => rfl
  | cons event rest ih =>
    cases event with
    | registered r => exact ih (s.register r)
    | taken m => exact (congrArg (Message.news m s ++ ·) (ih s)).trans (List.append_assoc ..).symm
    | _ => exact ih s

/-- Without the reader nothing is due, and nothing is told. -/
theorem unheard {more : List Event} (h : ∀ event ∈ more, event.ofReader = false)
    (s : Registry Subscriber) : due s more = [] ∧ news more = [] := by
  induction more generalizing s with
  | nil => exact ⟨rfl, rfl⟩
  | cons event rest ih =>
    obtain ⟨hevent, hrest⟩ := List.forall_mem_cons.mp h
    cases event with
    | registered r => exact ih hrest (s.register r)
    | taken m => cases hevent
    | notified x method params => cases hevent
    | _ => exact ih hrest s

theorem Event.not_ofReader_of_ordinary {event : Event} (h : event.ordinary = true) :
    event.ofReader = false := by
  cases event with
  | taken m => cases h
  | notified x method params => cases h
  | _ => rfl

namespace Engine

variable {c c' : Config} {st : List Frame} {e e' : Engine} {m method params : Json}
  {frame : String} {rest : List Inbound}

/-! ### One message -/

/-- These events have been added, and none of them is the reader's. -/
def Unread (e e' : Engine) : Prop :=
  ∃ more, e'.history = e.history ++ more ∧ ∀ event ∈ more, event.ofReader = false

theorem unread_of_eq (h : e'.history = e.history) : Unread e e' :=
  ⟨[], by rw [h, List.append_nil], by simp⟩

theorem Unread.trans {e₁ e₂ e₃ : Engine} (h : Unread e₁ e₂) (h' : Unread e₂ e₃) : Unread e₁ e₃ :=
  added_trans h h'

theorem unread_registerAll : ∀ (rs : List (Registration Subscriber)) (e : Engine),
    Unread e (rs.foldl (fun e r => e.register r) e)
  | [], e => unread_of_eq rfl
  | r :: rs, e => by
      have hr : Unread e (e.register r) := ⟨_, (jots_register r e).history, by simp [Event.ofReader]⟩
      exact hr.trans (unread_registerAll rs _)

theorem unread_tellSink (name : String) (method params : Json) (e : Engine) :
    Unread e (e.tellSink name method params).2 := by
  unfold tellSink
  split
  · exact unread_of_eq rfl
  · refine Unread.trans ?_ (unread_registerAll _ _)
    split
    · exact ⟨_, (jots_register (.detach (.sink name)) _).history, by simp [Event.ofReader]⟩
    · exact unread_of_eq rfl

theorem history_tellDocument (doc : Nat) (method params : Json) (e : Engine) :
    (e.tellDocument doc method params).history = e.history := by
  unfold tellDocument
  split
  · exact (agrees_listen _ _ _ (by simp)).history
  · rfl

/-- Whoever is told may attach and detach, and may fail. -/
theorem unread_tell (method params : Json) (e : Engine) (x : Subscriber) :
    Unread (e.note (.notified x method params)) (tell method params e x) := by
  unfold tell
  cases x with
  | document doc => exact unread_of_eq (history_tellDocument doc method params _)
  | sink name =>
    have h := unread_tellSink name method params (e.note (.notified (.sink name) method params))
    simp only
    split
    · rename_i heq
      rwa [heq] at h
    · rename_i heq
      rw [heq] at h
      exact h

/-- These are told, one after the other and each once, and nothing is taken up meanwhile. -/
theorem told_tellAll (method params : Json) : ∀ (xs : List Subscriber) (e : Engine),
    ∃ more, (xs.foldl (tell method params) e).history = e.history ++ more ∧
      news more = xs.map (fun x => (x, method, params)) ∧ ∀ s, due s more = []
  | [], e => ⟨[], by simp, rfl, fun _ => rfl⟩
  | x :: xs, e => by
      obtain ⟨those, hthose, hquiet⟩ := unread_tell method params e x
      obtain ⟨more, hmore, hnews, hdue⟩ := told_tellAll method params xs (tell method params e x)
      refine ⟨.notified x method params :: those ++ more, ?_, ?_, fun s => ?_⟩
      · rw [List.foldl_cons, hmore, hthose]
        simp [note]
      · rw [List.cons_append, List.map_cons, ← hnews]
        have happend := news_append those more
        rw [(unheard hquiet []).2, List.nil_append] at happend
        exact congrArg (List.cons (x, method, params)) happend
      · change due s (those ++ more) = []
        rw [due_append, (unheard hquiet s).1, hdue, List.append_nil]

theorem isNotification_of_isServerRequest (h : Message.isServerRequest m = true) :
    Message.isNotification m = false := by
  simp only [Message.isServerRequest, Bool.and_eq_true] at h
  simp [Message.isNotification, h.2]

theorem isNotification_of_isResponse (h : Message.isResponse m = true) :
    Message.isNotification m = false := by
  simp only [Message.isResponse, Bool.and_eq_true] at h
  simp [Message.isNotification, h.2]

/-- Handling a message tells exactly what is due. -/
theorem told_handle (h : e.handle m = .ok e') : ∃ more, e'.history = e.history ++ more ∧
    news more = Message.news m e.client.subscribers ∧ ∀ s, due s more = [] := by
  have hnone (hn : Message.isNotification m = false) (hh : e'.history = e.history) :
      ∃ more, e'.history = e.history ++ more ∧
        news more = Message.news m e.client.subscribers ∧ ∀ s, due s more = [] :=
    ⟨[], by rw [hh, List.append_nil], by simp [LanguageClient.news, Message.news, hn], fun _ => rfl⟩
  cases handles_of_handle h with
  | request line hs => exact hnone (isNotification_of_isServerRequest hs) rfl
  | response hr h =>
    refine hnone (isNotification_of_isResponse hr) ?_
    rcases resolve_cases h with ⟨ha, _⟩ | ⟨_, _, o, _, _, _, _, rfl⟩
    · exact ha.history
    · exact settle_history _ _ _
  | @notification e₁ _ hn hlogs =>
    obtain ⟨more, hh, hnews, hdue⟩ := told_tellAll (Json.ofOption (m.member? "method"))
      (Json.ofOption (m.member? "params")) e₁.client.subscribers e₁
    rw [hlogs.history] at hh
    exact ⟨more, hh, by rw [hnews, hlogs.client, Message.news, if_pos hn], hdue⟩
  | other _ hn => exact hnone hn rfl

/-! ### The reader -/

/-- What was due has been told, as long as every message was well-formed. -/
def Heeded (e : Engine) : Prop :=
  (∀ m, .taken m ∈ e.history → Message.wellFormed m = true) → news e.history = due [] e.history

theorem Heeded.unread (h : Heeded e) (hu : Unread e e') : Heeded e' := by
  obtain ⟨more, hh, hm⟩ := hu
  intro hwell
  rw [hh] at hwell
  obtain ⟨hdue, hnews⟩ := unheard hm (Registry.registered [] (registrations e.history))
  rw [hh, news_append, due_append, hdue, hnews,
    h fun m hmem => hwell m (List.mem_append_left _ hmem)]

theorem Heeded.taken (h : Heeded e) (hl : Listed e) (hm : (e.note (.taken m)).handle m = .ok e') :
    Heeded e' := by
  obtain ⟨more, hh, hnews, hdue⟩ := told_handle hm
  have hh : e'.history = (e.history ++ [.taken m]) ++ more := hh
  intro hwell
  rw [hh, List.append_assoc] at hwell
  have hold := h fun m hmem => hwell m (List.mem_append_left _ hmem)
  have hlisted : e.client.subscribers = Registry.registered [] (registrations e.history) := hl
  change news more = Message.news m e.client.subscribers at hnews
  rw [hh, news_append, news_append, due_append, due_append, hdue, hold, hnews, ← hlisted]
  simp [LanguageClient.news, Event.news?, due]

theorem Heeded.takeUp (h : Heeded e) (hl : Listed e) (ht : Engine.takeUp frame rest e = .ok e') :
    Heeded e' := by
  have h₁ : Heeded (e.onChannel fun c => { c with inbox := rest }) := h
  rcases handleFrame_cases ht with ⟨_, rfl⟩ | ⟨m, _, hm⟩
  · exact h₁.unread (unread_of_eq rfl)
  · exact h₁.taken hl hm

theorem Heeded.shutDown (h : Heeded e) (hc : Correlated (st, e)) : Heeded e.shutDown :=
  h.unread ⟨_, (hc.promised.jots_shutDown hc.nodup).history, by simp [Event.ofReader]⟩

theorem Heeded.readerFails (h : Heeded e) (hc : Correlated (st, e)) (x : Failure) :
    Heeded (reached (e.readerFails x)).2 := by
  unfold Engine.readerFails
  split
  · have hlog := agrees_log .error ("LSP reader error: " ++ x.message) e
    have hc' : Correlated (st, e.log .error ("LSP reader error: " ++ x.message)) :=
      hc.calm (calm_tallies hlog.toTallies) (.of_tallies hlog.toTallies) rfl
    exact Heeded.shutDown (h.unread (unread_of_eq rfl)) hc'
  · exact h.shutDown hc

/-- The reader takes up one frame after the other, and each time tells what is due. -/
theorem heeded_readAll : ∀ (xs : List Inbound) {e : Engine}, Correlated ([.received], e) →
    Listed e → Heeded e → Heeded (reached (readAll xs e)).2
  | [], e, hc, _, h => by
      unfold readAll
      split
      · exact h.shutDown hc
      · exact h.unread (unread_of_eq rfl)
  | x :: rest, e, hc, hl, h => by
      have hunload : Correlated ([.received], e.onChannel fun c => { c with inbox := rest }) :=
        hc.step (.unload rest)
      have h₁ : Heeded (e.onChannel fun c => { c with inbox := rest }) := h
      cases x with
      | eof => exact h₁.shutDown hunload
      | failure x => exact h₁.readerFails hunload x
      | frame frame =>
        rw [readAll_frame]
        cases ht : Engine.takeUp frame rest e with
        | error x =>
          -- the message that breaks the reader is not well-formed
          obtain hread | ⟨m, hm, hu⟩ := takeUp_error_iff.mp ⟨x, ht⟩
          · obtain ⟨y, hy⟩ := hread
            have hsame : noteFrame frame (e.onChannel fun c => { c with inbox := rest }) =
                e.onChannel fun c => { c with inbox := rest } := by
              simp [noteFrame, hy]
            simp only [hsame]
            exact h₁.readerFails hunload x
          · intro hwell
            refine absurd hu (not_upsets_of_wellFormed (hwell m ?_))
            have hnoted : noteFrame frame (e.onChannel fun c => { c with inbox := rest }) =
                (e.onChannel fun c => { c with inbox := rest }).note (.taken m) := by
              simp [noteFrame, hm]
            obtain ⟨more, hh⟩ := (Path.lasts (path_reached (@leads_readerFails []
              ((e.onChannel fun c => { c with inbox := rest }).note (.taken m)) x))).history
            simp only [hnoted, hh]
            exact List.mem_append_left _ (List.mem_append_right _ (List.mem_singleton_self _))
        | ok e' =>
          have hp : Path ([.received], e) ([.received], e') := path_takeUp ht
          exact heeded_readAll rest (hc.path hp) (enduring_listed.persists.path hl hc hp)
            (h.takeUp hl ht)

theorem heeded_unwind (hst : Attends st) (hc : Correlated (st, e)) (hl : Listed e) (h : Heeded e)
    (o : Outcome) : Heeded (reached (unwind st o e)).2 := by
  rcases hst with rfl | rfl
  · have hread : Heeded (reached e.read).2 := heeded_readAll _ (hc.step .read) hl h
    rw [unwind_singleton]
    cases o with
    | cancelled => exact h
    | value v => exact hread
    | failure x => exact hread
  · rw [unwind_singleton]
    cases o with
    | cancelled =>
      have hgetter : Agrees e (e.onChannel fun c => { c with getter := none }) :=
        agrees_onChannel rfl rfl List.prefix_rfl
      exact Heeded.shutDown (h.unread (unread_of_eq rfl)) (hc.step (.agree hgetter))
    | value v => exact heeded_readAll _ hc hl h
    | failure x => exact h.readerFails hc x

/-! ### Whole runs -/

/-- The frames of a reader's task, or of one that does not read. -/
def Separate (st : List Frame) : Prop := Attends st ∨ ∀ f ∈ st, f.reads = false

theorem separate_begin (op : Operation) : Separate [.begin op] := by
  cases op with
  | read => exact .inl (.inl rfl)
  | _ => exact .inr (by simp [Frame.reads])

/-- As long as no reader is at work, nothing is taken up and nothing told. -/
theorem Path.unread (hp : Path c c') (hc : Correlated c) (hn : ∀ f ∈ c.1, f.reads = false) :
    Unread c.2 c'.2 := by
  induction hp with
  | refl => exact unread_of_eq rfl
  | @tail c₁ c' hp hs ih =>
    have hn₁ := Path.reads hp hn
    refine ih.trans ?_
    cases hs.records (hc.path hp) with
    | ordinary ho =>
      obtain ⟨more, hj, hm⟩ := ho
      exact ⟨more, hj.history, fun event hmem => Event.not_ofReader_of_ordinary (hm event hmem)⟩
    | starts => exact unread_of_eq rfl
    | registers r hj => exact ⟨_, hj.history, by simp [Event.ofReader]⟩
    | replies id => exact ⟨[_], rfl, by simp [Event.ofReader]⟩
    | reads => exact absurd (hn₁ _ (List.mem_cons_self ..)) (by simp [Frame.reads])
    | shuts => exact absurd (hn₁ _ (List.mem_cons_self ..)) (by simp [Frame.reads])
    | joins hj => exact ⟨_, hj.history, by simp [Event.ofReader]⟩

/-- Every reader has told what was due. -/
structure Hearing (e : Engine) : Prop where
  attended : Attended e
  listed : Listed e
  heeded : Heeded e
  separate : Each Separate e

theorem Heeded.runTask {n : Nat} {t : Task} (h : Hearing e) (ht : e.tasks.get? n = some t)
    (o : Outcome) : Heeded (e.runTask n t o) ∧ Each Separate (e.runTask n t o) := by
  have hpick := h.attended.correlated.pick ht
  have hrest := rests_runTask n t o e
  generalize (if t.cancelRequested then .cancelled else o : Outcome) = o' at hrest
  have hp := path_reached (leads_unwind t.frames o' (e.pick n))
  have hnil : Separate [] := .inr (by simp)
  have heach := (h.separate.pick hnil n).grows (Path.grows hp hpick.numbered) separate_begin
  have hheeded : Heeded (e.pick n) := h.heeded
  have hran : Heeded (reached (unwind t.frames o' (e.pick n))).2 ∧
      Separate (reached (unwind t.frames o' (e.pick n))).1 := by
    rcases h.separate n t ht with hattends | hnone
    · refine ⟨heeded_unwind hattends hpick h.listed hheeded o', ?_⟩
      have hleaves := abides_attends.leaves o' (e.pick n) hattends
      generalize unwind t.frames o' (e.pick n) = run at hleaves
      obtain ⟨e', _ | _ | _⟩ := run
      · exact hnil
      · exact .inl hleaves
      · exact .inl hleaves
    · exact ⟨hheeded.unread (hp.unread hpick hnone), .inr (hp.reads hnone)⟩
  exact ⟨hran.1.unread (unread_of_eq hrest.history), heach.rests hran.2 separate_begin hrest⟩

theorem Hearing.act (h : Hearing e) (a : Action) : Hearing (e.act a) := by
  have hheeded : Heeded (e.act a) ∧ Each Separate (e.act a) := by
    by_cases hrun : a = .run
    · subst hrun
      obtain ⟨e₁, ha, hcases⟩ := runNext_cases e
      have hg := Grows.of_tallies ha
      have hc₁ : Correlated ([], e₁) := h.attended.correlated.calm (calm_tallies ha) hg rfl
      have h₁ : Hearing e₁ := {
        attended := ⟨hc₁, h.attended.reader.grows abides_attends h.attended.correlated.numbered hg⟩
        listed := enduring_listed.persists.tallies h.listed ha
        heeded := h.heeded.unread (unread_of_eq ha.history)
        separate := h.separate.grows hg separate_begin }
      rcases hcases with hp | ⟨n, t, ht, heq⟩
      · exact ⟨h₁.heeded.unread (hp.unread hc₁ (by simp)),
          h₁.separate.grows (Path.grows hp hc₁.numbered) separate_begin⟩
      · change Heeded e.runNext ∧ Each Separate e.runNext
        rw [heq]
        exact Heeded.runTask h₁ ht _
    · obtain ⟨e₁, haside, hc, hp⟩ := h.attended.correlated.act_cases hrun
      obtain ⟨more, hj, hm⟩ := haside.inward
      have h₁ : Heeded e₁ := h.heeded.unread ⟨more, hj.history, fun event hmem =>
        Event.not_ofReader_of_ordinary (Event.ordinary_of_inward (hm event hmem))⟩
      exact ⟨h₁.unread (hp.unread hc (by simp)),
        h.separate.act h.attended.correlated.numbered hrun separate_begin⟩
  exact ⟨h.attended.act a, enduring_listed.act h.listed h.attended a, hheeded.1, hheeded.2⟩

theorem Hearing.after : ∀ (actions : List Action) {e : Engine}, Hearing e → Hearing (e.after actions)
  | [], _, h => h
  | a :: rest, _, h => (h.act a).after rest

theorem hearing_create (options : ClientOptions) (script : ServerScript) :
    Hearing (create options script) where
  attended := attended_create options script
  listed := rfl
  heeded _ := rfl
  separate _ _ ht := by cases ht

end Engine

end LanguageClient
