import LanguageClient.Proofs.Client.Reader
import LanguageClient.Proofs.Client.Roles

/-!
What a step adds to the history, and what it does to those that are told of notifications. Only the
task of a reader notes what it takes up, whom it tells and that it has ended; only whoever has begun
to close the client notes that the closing is over. A member comes or goes only where a note is taken
of it, and only a task that was begun for that answers the server. All other steps add at most what
the requests and the documents say (`Event.ordinary`).

    Step  =  ordinary  |  starts  |  registers  |  replies  |  reads  |  shuts  |  joins
-/

namespace LanguageClient

namespace Event

/-- Events of the documents and of the questions about them. They are no one's concern but theirs. -/
def inward : Event → Bool
  | .texted .. | .posed .. | .asked .. | .answered .. | .dropped .. | .published .. | .shown .. => true
  | _ => false

/-- Events of the requests, of what is said to the server unasked, and of the documents. -/
def ordinary : Event → Bool
  | .handed m => !Message.isResponse m
  | .told .. | .called .. | .returned .. | .agreed _ => true
  | event => event.inward

theorem ordinary_of_inward {event : Event} (h : event.inward = true) : event.ordinary = true := by
  cases event <;> first | rfl | cases h

/-- Events of the reader at work. -/
def ofReader : Event → Bool
  | .taken _ | .notified .. => true
  | _ => false

end Event

namespace Engine

variable {c c' : Config} {st st' : List Frame} {e e' : Engine}

/-! ### What is added to the history -/

/-- No task has come to an end, unless it was cancelled. -/
def Endless (e e' : Engine) : Prop :=
  ∀ n o, e'.outcome? (.task n) = some o → e.outcome? (.task n) = some o ∨ o = .cancelled

theorem Endless.trans {e₁ e₂ e₃ : Engine} (h : Endless e₁ e₂) (h' : Endless e₂ e₃) :
    Endless e₁ e₃ := by
  intro n o ho
  rcases h' n o ho with ho | hc
  · exact h n o ho
  · exact .inr hc

theorem endless_of_standing (h : ∀ n, e'.standing (.task n) = e.standing (.task n)) :
    Endless e e' := by
  intro n o ho
  rw [outcome?_eq_join, h, ← outcome?_eq_join] at ho
  exact .inl ho

/-- These events have been added, those are told of notifications from now on, and the reader is as
    it was. -/
structure Jots (more : List Event) (subscribers : Registry Subscriber) (e e' : Engine) : Prop where
  history : e'.history = e.history ++ more
  subscribers : e'.client.subscribers = subscribers
  reader : e'.client.reader = e.client.reader
  endless : Endless e e'

/-- Nothing has been added. -/
abbrev Still (e e' : Engine) : Prop := Jots [] e.client.subscribers e e'

theorem Jots.trans {more more' : List Event} {s s' : Registry Subscriber} {e₁ e₂ e₃ : Engine}
    (h : Jots more s e₁ e₂) (h' : Jots more' s' e₂ e₃) : Jots (more ++ more') s' e₁ e₃ where
  history := by rw [h'.history, h.history, List.append_assoc]
  subscribers := h'.subscribers
  reader := h'.reader.trans h.reader
  endless := h.endless.trans h'.endless

theorem Still.trans {e₁ e₂ e₃ : Engine} (h : Still e₁ e₂) (h' : Still e₂ e₃) : Still e₁ e₃ := by
  have hj := Jots.trans h h'
  rw [h.subscribers] at hj
  exact hj

theorem Jots.still {more : List Event} {s : Registry Subscriber} {e₁ e₂ e₃ : Engine}
    (h : Jots more s e₁ e₂) (h' : Still e₂ e₃) : Jots more s e₁ e₃ := by
  have hj := Jots.trans h h'
  rw [h.subscribers, List.append_nil] at hj
  exact hj

/-- Only such events have been added. -/
def Notes (p : Event → Bool) (e e' : Engine) : Prop :=
  ∃ more, Jots more e.client.subscribers e e' ∧ ∀ event ∈ more, p event = true

theorem Still.notes {p : Event → Bool} (h : Still e e') : Notes p e e' := ⟨[], h, by simp⟩

theorem Notes.imp {p q : Event → Bool} (h : Notes p e e') (hpq : ∀ event, p event = true → q event = true) :
    Notes q e e' := by
  obtain ⟨more, hj, hm⟩ := h
  exact ⟨more, hj, fun event hmem => hpq event (hm event hmem)⟩

theorem Notes.trans {p : Event → Bool} {e₁ e₂ e₃ : Engine} (h : Notes p e₁ e₂) (h' : Notes p e₂ e₃) :
    Notes p e₁ e₃ := by
  obtain ⟨more, hj, hm⟩ := h
  obtain ⟨more', hj', hm'⟩ := h'
  have hboth := hj.trans hj'
  rw [hj.subscribers] at hboth
  refine ⟨more ++ more', hboth, fun event hmem => ?_⟩
  exact (List.mem_append.mp hmem).elim (hm event) (hm' event)

theorem still_of_eq (hc : e'.client = e.client) (hh : e'.history = e.history)
    (ht : Endless e e') : Still e e' :=
  ⟨by rw [hh, List.append_nil], by rw [hc], by rw [hc], ht⟩

theorem Still.refl (e : Engine) : Still e e := still_of_eq rfl rfl fun _ _ ho => .inl ho

theorem still_tallies (h : Tallies e e') : Still e e' :=
  still_of_eq h.client h.history (endless_of_standing fun _ => h.standing _)

theorem still_cancels (h : Cancels e e') : Still e e' := by
  refine still_of_eq h.client h.history fun n o ho => ?_
  rw [outcome?_eq_join] at ho ⊢
  rcases h.standing (.task n) with heq | ⟨_, heq⟩
  · rw [heq] at ho
    exact .inl ho
  · rw [heq] at ho
    exact .inr (Option.some.inj ho).symm

/-- Only the end of a task settles what was promised of the task. -/
theorem still_settle {r : Ref} (h : ∀ n, r ≠ .task n) (o : Outcome) (e : Engine) :
    Still e (e.settle r o) :=
  still_of_eq (settle_client _ _ _) (settle_history _ _ _)
    (endless_of_standing fun n => standing_settle_of_ne (h n).symm o e)

theorem still_promise (r : Ref) (e : Engine) : Still e (e.promise r) := by
  refine still_of_eq rfl rfl fun n o ho => ?_
  rw [outcome?_eq_join, standing_promise] at ho
  split at ho
  · cases ho
  · rw [outcome?_eq_join]
    exact .inl ho

theorem still_gather (members : List Ref) (tolerant : Bool) (e : Engine) :
    Still e (e.gather members tolerant).2 :=
  ((still_tallies (agrees_grouped members tolerant e).toTallies).trans (still_promise _ _)).trans
    (still_tallies (agrees_gather members tolerant e).toTallies)

theorem still_spawn (op : Operation) (e : Engine) : Still e (e.spawn op).2 := by
  have hp : Still e (e.promise (.task e.nextRef)) := still_promise _ e
  exact hp.trans (still_of_eq rfl rfl fun _ _ ho => .inl ho)

theorem still_onSession (doc : Nat) (f : Session → Session) (e : Engine) :
    Still e (e.onSession doc f) :=
  still_of_eq rfl rfl fun _ _ ho => .inl ho

theorem still_onDocument (doc : Nat) (f : Document → Document) (e : Engine) :
    Still e (e.onDocument doc f) := still_onSession doc _ e

theorem still_cancelSlot (doc : Nat) (e : Engine) : Still e (e.cancelSlot doc).2 := by
  have hs : Still e { e with slots := e.slots.erase doc } :=
    still_of_eq rfl rfl fun _ _ ho => .inl ho
  exact hs.trans (still_cancels (cancels_cancelSlot doc e))

theorem still_scheduleFlush (doc : Nat) (e : Engine) : Still e (e.scheduleFlush doc).2 := by
  have hs := (still_cancelSlot doc e).trans
    (still_spawn (.debounced doc (((e.session? doc).map (·.delay)).getD 0) (.flush doc)) _)
  exact hs.trans (still_of_eq rfl rfl fun _ _ ho => .inl ho)

theorem still_noteOpened (doc : Nat) (sent : List Char) (e : Engine) :
    Still e (e.noteOpened doc sent) := by
  have hd := still_onDocument doc (fun d => { d with opened := true }.resync sent) e
  unfold noteOpened
  simp only
  split
  · exact hd
  · split
    · exact (hd.trans (still_onDocument doc (·.forget) _)).trans (still_scheduleFlush doc _)
    · exact hd

theorem still_clears {doc : Nat} (h : Clears doc c c') : Still c.2 c'.2 := by
  cases h with
  | kept => exact .refl _
  | cancelled => exact still_cancelSlot doc _
  | elapsed slot => exact still_of_eq rfl rfl fun _ _ ho => .inl ho

theorem still_settleAll (f : Failure) : ∀ (pending : Table Nat Ref) (e : Engine),
    (∀ r ∈ pending.map Prod.snd, ∃ id, r = .answer id) →
      Still e (pending.foldl (fun e (_, answer) => e.settle answer (.failure f)) e)
  | [], e, _ => .refl e
  | (_, r) :: rest, e, h => by
      obtain ⟨hr, hrest⟩ := List.forall_mem_cons.mp h
      obtain ⟨id, rfl⟩ := hr
      exact (still_settle (by simp) _ e).trans (still_settleAll f rest _ hrest)

theorem Promised.still_failPending (h : Promised e) (hn : e.client.pending.keys.Nodup)
    (f : Failure) : Still e (e.failPending f) := by
  refine still_settleAll f e.client.pending e fun r hr => ?_
  obtain ⟨⟨id, r⟩, hmem, rfl⟩ := List.mem_map.mp hr
  exact ⟨id, (h id r (Table.get?_of_mem hn hmem)).1⟩

theorem jots_note (event : Event) (e : Engine) :
    Jots [event] e.client.subscribers e (e.note event) :=
  ⟨rfl, rfl, rfl, fun _ _ ho => .inl ho⟩

theorem notes_note {p : Event → Bool} {event : Event} (h : p event = true) (e : Engine) :
    Notes p e (e.note event) :=
  ⟨[event], jots_note event e, by simpa using h⟩

/-- Whatever gives a document a text, of which a note is taken. -/
theorem inward_texted (doc : Nat) (text : List Char) (f : Document → Document) (e : Engine) :
    Notes Event.inward e ((e.note (.texted doc text)).onDocument doc f) :=
  (notes_note rfl e).trans (still_onDocument doc f _).notes

theorem inward_scheduleChange (doc : Nat) (text : List Char) (changes : Option (List Change))
    (e : Engine) : Notes Event.inward e (e.scheduleChange doc text changes).2 := by
  obtain ⟨e₁, ha, heq⟩ := scheduleChange_eq doc text changes e
  have hd : Notes Event.inward e (e.edited doc text changes) := inward_texted doc text _ e
  rw [heq]
  exact (hd.trans (still_tallies ha.toTallies).notes).trans (still_scheduleFlush doc e₁).notes

theorem inward_retext (doc : Nat) (text : Option (List Char)) (e : Engine) :
    Notes Event.inward e (e.retext doc text) := by
  cases text with
  | none => exact Still.notes (.refl e)
  | some text => exact inward_texted doc text _ e

theorem inward_preset (doc : Nat) (text : Option (List Char)) (e : Engine) :
    Notes Event.inward e (e.preset doc text) := by
  cases text with
  | none => exact Still.notes (.refl e)
  | some text => exact inward_texted doc text (fun d => { d with text }) e

theorem inward_of_remarks {event : Event} (h : Remarks st e event) : event.inward = true := by
  cases h <;> rfl

theorem Jots.note {more : List Event} {s : Registry Subscriber} (h : Jots more s e e')
    (event : Event) : Jots (more ++ [event]) s e (e'.note event) := by
  have hj := h.trans (jots_note event e')
  rw [h.subscribers] at hj
  exact hj

/-- Something of the client has changed that is no one's concern here. -/
theorem jots_client {f : Client → Client} (hs : (f e.client).subscribers = e.client.subscribers)
    (hr : (f e.client).reader = e.client.reader) : Jots [] e.client.subscribers e (e.onClient f) :=
  ⟨(List.append_nil _).symm, hs, hr, fun _ _ ho => .inl ho⟩

theorem notes_speak {p : Event → Bool} {doc : Nat} {m : Json} (ht : p (.told doc m) = true)
    (hm : p (.handed m) = true) (e : Engine) : Notes p e (e.speak doc m) :=
  (notes_note ht e).trans (notes_note hm _)

theorem ordinary_sends {doc : Nat} (h : Sends doc c c') : Notes Event.ordinary c.2 c'.2 := by
  have hretext (text : Option (List Char)) (e : Engine) : Notes Event.ordinary e (e.retext doc text) :=
    (inward_retext doc text e).imp fun _ => Event.ordinary_of_inward
  cases h with
  | idle text => exact hretext text _
  | told =>
    exact ((hretext _ _).trans (still_onDocument doc _ _).notes).trans (notes_speak rfl rfl _)
  | closed text d => exact (hretext text _).trans (still_onDocument doc (fun _ => d) _).notes

theorem ordinary_refreshes {doc : Nat} (h : Refreshes doc c c') : Notes Event.ordinary c.2 c'.2 := by
  cases h with
  | idle => exact (still_cancelSlot doc _).notes
  | sends _ hs => exact Notes.trans (still_cancelSlot doc _).notes (ordinary_sends hs)

theorem jots_agree (capabilities : Json) (e : Engine) :
    Jots [.agreed capabilities] e.client.subscribers e (e.agree capabilities) := by
  have hc := jots_client (e := e) (f := fun c => { c with capabilities }) rfl rfl
  exact hc.note (.agreed capabilities)

theorem jots_register (r : Registration Subscriber) (e : Engine) :
    Jots [.registered r] (e.client.subscribers.register r) e (e.register r) := by
  have he : Jots [.registered r] (e.client.subscribers.register r) e (e.enlist r) :=
    ⟨rfl, rfl, rfl, fun _ _ ho => .inl ho⟩
  rcases register_cases r e with heq | ⟨_, level, message, heq⟩
  · rw [heq]
    exact he
  · rw [heq]
    exact (he.still (still_tallies (agrees_log level message _).toTallies)).still (still_spawn _ _)

/-- Nothing more can be answered: the client is closed, and every request that waits has its outcome. -/
structure Discharged (e : Engine) : Prop where
  closed : e.client.closed = true
  settled : Settled e

theorem Promised.discharged_shutDown (h : Promised e) : Discharged e.shutDown :=
  ⟨(flags_shutDown e).1, h.settled_shutDown⟩

theorem Promised.jots_shutDown (h : Promised e) (hn : e.client.pending.keys.Nodup) :
    Jots [.readerEnded] e.client.subscribers e e.shutDown := by
  obtain ⟨e₁, reason, ⟨hs, hp, hn₁⟩, heq⟩ : ∃ e₁ reason,
      (Still e e₁ ∧ Promised e₁ ∧ e₁.client.pending.keys.Nodup) ∧
        e.shutDown = (e₁.failPending (.transportClosed reason)).note .readerEnded := by
    have hc : Still e (e.onClient fun c => { c with ready := false, closed := true }) :=
      jots_client rfl rfl
    refine ⟨_, _, ?_, rfl⟩
    split
    · refine ⟨hc.trans (still_spawn _ _), fun id r hr => ⟨(h id r hr).1, ?_⟩, hn⟩
      obtain ⟨rfl, s, hs⟩ := h id r hr
      exact ⟨s, ((tells_spawn .disconnect _).answers id).trans hs⟩
    · exact ⟨hc, h, hn⟩
  rw [heq]
  exact (hs.trans (hp.still_failPending hn₁ _)).note .readerEnded

/-! ### Every step -/

/-- What a step adds to the history. -/
inductive Records : Config → Config → Prop where
  | ordinary {st st' : List Frame} {e e' : Engine} : Notes Event.ordinary e e' →
      Records (st, e) (st', e')
  /-- The task of the reader is begun. -/
  | starts {st : List Frame} {e : Engine} : e.client.reader = none → Records (st, e) (st, e.reading)
  | registers {st : List Frame} {e e' : Engine} (r : Registration Subscriber) :
      Jots [.registered r] (e.client.subscribers.register r) e e' → Records (st, e) (st, e')
  /-- The server is answered. -/
  | replies {st : List Frame} {e : Engine} (id : Json) :
      Records (.begin (.reply id) :: st, e) (.gate (.reply id) (Message.response id .null) :: st,
        e.note (.handed (Message.response id .null)))
  | reads {st : List Frame} {e e' : Engine} {event : Event} : event.ofReader = true →
      Jots [event] e.client.subscribers e e' → Records (.received :: st, e) (.received :: st, e')
  /-- The reader ends. -/
  | shuts {st : List Frame} {e e' : Engine} {more : List Event} :
      (∀ event ∈ more, event.ofReader = true) →
      Jots (more ++ [.readerEnded]) e.client.subscribers e e' → Discharged e' →
      Records (.received :: st, e) (st, e')
  /-- Whoever closed the client ends. -/
  | joins {st : List Frame} {e e' : Engine} : Jots [.closingEnded] e.client.subscribers e e' →
      (Settled e' ∨ ∃ r f, e.client.reader = some r ∧ e.outcome? r = some (.failure f)) →
      Records (.readerJoined :: st, e) (st, e')

theorem Records.still (h : Still e e') : Records (st, e) (st', e') := .ordinary h.notes

theorem Records.inward (h : Notes Event.inward e e') : Records (st, e) (st', e') :=
  .ordinary (h.imp fun _ => Event.ordinary_of_inward)

theorem Step.records (hs : Step c c') (hc : Correlated c) : Records c c' := by
  have hp := hc.promised
  cases hs with
  | agree ha => exact .still (still_tallies ha)
  | promise => exact .still (still_promise _ _)
  | gather members tolerant => exact .still (still_gather members tolerant _)
  | @settle st e e₁ r o ha hf =>
    refine .still ((still_tallies ha.toTallies).trans (still_settle ?_ _ _))
    rintro n rfl
    exact hf.elim
  | abandon _ _ _ ha => exact .still ((still_tallies ha.toTallies).trans (still_settle (by simp) _ _))
  | spawn => exact .still (still_spawn _ _)
  | register r => exact .registers r (jots_register r _)
  | @call st st' e method params name limit =>
    have hcalled : Jots [.called (e.client.lastId + 1) name] e.client.subscribers e
        (e.enroll name).2 := by
      refine ⟨rfl, rfl, rfl, fun n o ho => .inl ?_⟩
      rw [outcome?_eq_join] at ho ⊢
      have hs := standing_promise (.answer (e.client.lastId + 1)) (.task n) e
      rw [if_neg (by simp)] at hs
      exact (congrArg Option.join hs).symm.trans ho
    have hasks : Message.isResponse
        (Message.request (.nat (e.enroll name).1) method params) = false := rfl
    exact .ordinary ⟨_, hcalled.note _, by simp [Event.ordinary, hasks]⟩
  | @endRequest st e f id o =>
    have hd := jots_client (e := e) (f := (·.discharge id)) rfl rfl
    exact .ordinary ⟨_, hd.note (.returned id o), by simp [Event.ordinary]⟩
  | reply id => exact .replies id
  | notify => exact .ordinary (notes_note rfl _)
  | take => exact .reads rfl (jots_note _ _)
  | oblige _ ha =>
    exact .reads rfl (((jots_note _ _).still (still_tallies ha.toTallies)).still (still_spawn _ _))
  | @respond st e e' m hr he =>
    have hnote := jots_note (.taken m) e
    rcases resolve_cases he with ⟨ha, _⟩ | ⟨n, answer, o, _, hpending, _, _, rfl⟩
    · exact .reads rfl (hnote.still (still_tallies ha))
    · obtain rfl := hc.refs n answer hpending
      exact .reads rfl (hnote.still (still_settle (by simp) _ _))
  | notified x method params => exact .reads rfl (jots_note _ _)
  | @startReader st e =>
    rcases startReader_cases e with ⟨_, heq⟩ | ⟨hnone, heq⟩
    · rw [heq]
      exact .still (.refl e)
    · rw [heq]
      exact .starts hnone
  | @handshake st e =>
    rcases startHandshake_cases e with ⟨_, heq⟩ | ⟨_, ha⟩
    · rw [heq]
      exact .still (.refl e)
    · have hshake := jots_client (e := (e.spawn .handshake).2)
        (f := fun c => { c with handshake := some (.task e.nextRef) }) rfl rfl
      exact .still (((still_spawn .handshake e).trans hshake).trans (still_tallies ha.toTallies))
  | agreed =>
    have hends : Message.isResponse initialized = false := rfl
    exact .ordinary ⟨_, (jots_agree _ _).note _, by simp [Event.ordinary, hends]⟩
  | agreedClosed => exact .ordinary ⟨_, jots_agree _ _, by simp [Event.ordinary]⟩
  | ready => exact .still (jots_client rfl rfl)
  | close => exact .still (jots_client rfl rfl)
  | cancelReader => exact .still (still_cancels (cancels_cancel _ _))
  | @joined st e message =>
    have hfail := hp.still_failPending hc.nodup (.transportClosed message)
    exact .joins (hfail.note .closingEnded) (.inl (hp.settled_failPending message))
  | joinedFailed hr ho => exact .joins (jots_note _ _) (.inr ⟨_, _, hr, ho⟩)
  | shutDown =>
    have hnone : ∀ event ∈ ([] : List Event), event.ofReader = true := by simp
    exact .shuts hnone (hp.jots_shutDown hc.nodup) hp.discharged_shutDown
  | @crash st e e' m _ ha =>
    have hnote := (jots_note (.taken m) e).still (still_tallies ha.toTallies)
    have hp' : Promised e' := by
      have hnoted : Promised (e.note (.taken m)) := hp
      exact hnoted.congr ha.client ha.standing
    have hn' : e'.client.pending.keys.Nodup := by
      rw [ha.client]
      exact hc.nodup
    have hj := hnote.trans (hp'.jots_shutDown hn')
    rw [hnote.subscribers] at hj
    exact .shuts (by simp [Event.ofReader]) hj hp'.discharged_shutDown
  | preset doc text => exact .inward (inward_preset doc text _)
  | opening => exact .ordinary (notes_speak rfl rfl _)
  | opened doc sent => exact .still (still_noteOpened doc sent _)
  | edit text changes => exact .inward (inward_scheduleChange _ text changes _)
  | rehearse => exact .still (still_of_eq rfl rfl fun _ _ ho => .inl ho)
  | unscheduled => exact .still (still_cancelSlot _ _)
  | flush hclears hsends => exact .ordinary (Notes.trans (still_clears hclears).notes (ordinary_sends hsends))
  | transmit | unload => exact .still (still_of_eq rfl rfl fun _ _ ho => .inl ho)
  | @pose _ _ doc =>
    exact .inward (Notes.trans (still_onSession doc _ _).notes (notes_note rfl _))
  | late _ _ _ _ hr =>
    have ho := ordinary_refreshes hr
    exact .ordinary ho
  | remark hr => exact .inward (notes_note (inward_of_remarks hr) _)
  | @shown _ _ doc => exact .inward (Notes.trans (still_onSession doc _ _).notes (notes_note rfl _))
  | push | unasked | gathers | pop | await | read | join | openingClosed | delay => exact .still (.refl _)

end Engine

end LanguageClient
