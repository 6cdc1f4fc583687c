import LanguageClient.Proofs.Client.Closing

/-!
What a step says to the server. Nearly every step says nothing (`Silent`): it hands over at most the
empty answer to a request of the server, and leaves alone what the messages of the documents carry.
The rest are few: a request, the handshake and its end, the opening of a document, and its changes.

    Step  =  Silent  |  call  |  handshake, agreed, ready  |  preset, opening, opened  |  told

What is to hold on the wire is shown once for each kind of turn, and `Stable` carries it over the
runs of tasks and over whatever the outside does.
-/

namespace LanguageClient

/-! ### Frames -/

/-- Frames on which it depends what may still be said: an operation that is to begin, a handshake that
    goes on, a document that is being opened, a question that waits. -/
def Frame.weighty : Frame → Bool
  | .begin _ | .handshakeAnswered | .handshakeAnnounced _ | .readyToOpen _ | .openSent .. => true
  | f => f.late

theorem Frame.weighty_of_plain {f : Frame} (h : f.plain = true) : f.weighty = false := by
  cases f with
  | «begin» op => cases h
  | handshakeAnswered => cases h
  | handshakeAnnounced result => cases h
  | readyToOpen doc => cases h
  | openSent doc sent => cases h
  | hoverFlushed doc generation pos => cases h
  | completionFlushed doc generation pos kind character => cases h
  | signatureFlushed doc generation pos character => cases h
  | _ => rfl

theorem Frame.weighty_of_answers {f : Frame} {q : Nat × Feature × Nat} (h : f.answers? = some q) :
    f.weighty = false := by
  cases f with
  | hoverAnswered => rfl
  | completionAnswered => rfl
  | signatureAnswered => rfl
  | _ => cases h

theorem Frame.weighty_of_request {f : Frame} {id : Nat} (h : f.request? = some id) :
    f.weighty = false := by
  cases f with
  | «begin» op => cases h
  | handshakeAnswered => cases h
  | handshakeAnnounced result => cases h
  | readyToOpen doc => cases h
  | openSent doc sent => cases h
  | hoverFlushed doc generation pos => cases h
  | completionFlushed doc generation pos kind character => cases h
  | signatureFlushed doc generation pos character => cases h
  | _ => rfl

/-- No frame has been added that has any weight. -/
def Adds (st st' : List Frame) : Prop := (st'.filter Frame.weighty).Sublist (st.filter Frame.weighty)

namespace Adds

variable {st st' : List Frame}

theorem refl (st : List Frame) : Adds st st := List.Sublist.refl _

theorem tail (f : Frame) (st : List Frame) : Adds (f :: st) st :=
  (List.sublist_cons_self f st).filter _

theorem cons {f : Frame} (hf : f.weighty = false) (h : Adds st st') : Adds st (f :: st') := by
  rw [Adds, List.filter_cons_of_neg (by simp [hf])]
  exact h

theorem mem {f : Frame} (h : Adds st st') (hf : f ∈ st') (hw : f.weighty = true) : f ∈ st :=
  List.mem_of_mem_filter (h.subset (List.mem_filter.mpr ⟨hf, hw⟩))

theorem countP {p : Frame → Bool} (h : Adds st st') (hp : ∀ f, p f = true → f.weighty = true) :
    st'.countP p ≤ st.countP p := by
  have hfilter (frames : List Frame) : (frames.filter Frame.weighty).countP p = frames.countP p := by
    rw [List.countP_filter]
    refine List.countP_congr fun f _ => ?_
    rw [Bool.and_eq_true]
    exact ⟨And.left, fun h => ⟨h, hp f h⟩⟩
  rw [← hfilter st', ← hfilter st]
  exact h.countP_le

end Adds

/-! ### Documents -/

/-- The messages of a document carry the same as before, and it has not been opened again. -/
structure Document.Alike (d d' : Document) : Prop where
  version : d'.version = d.version
  opened : d'.opened = d.opened
  closed : d.closed = true → d'.closed = true

theorem Document.Alike.refl (d : Document) : d.Alike d := ⟨rfl, rfl, id⟩

theorem Document.Alike.trans {d₁ d₂ d₃ : Document} (h : d₁.Alike d₂) (h' : d₂.Alike d₃) :
    d₁.Alike d₃ :=
  ⟨h'.version.trans h.version, h'.opened.trans h.opened, fun hc => h'.closed (h.closed hc)⟩

theorem Document.alike_edited (text : List Char) (changes : Option (List Change)) (d : Document) :
    d.Alike (d.edited text changes).2 := by
  unfold Document.edited
  simp only
  split
  · unfold Document.noteBatch
    split
    · exact ⟨rfl, rfl, id⟩
    · split
      · exact ⟨rfl, rfl, id⟩
      · split <;> exact ⟨rfl, rfl, id⟩
  · exact ⟨rfl, rfl, id⟩

theorem Document.alike_replaced (text : List Char) (d : Document) : d.Alike (d.replaced text) := by
  unfold Document.replaced
  split <;> exact ⟨rfl, rfl, id⟩

theorem Document.alike_resync (sent : List Char) (d : Document) : d.Alike (d.resync sent) := by
  unfold Document.resync
  split <;> exact ⟨rfl, rfl, id⟩

/-! ### Events -/

/-- Events that say nothing to the server of the client's own accord. -/
def Event.Tacit : Event → Prop
  | .handed m => ∃ id, m = Message.response id .null
  | .called .. | .told .. | .agreed _ => False
  | _ => True

namespace Engine

variable {c c' : Config} {st st' : List Frame} {e e' : Engine}

/-! ### What says nothing -/

/-- Nothing has been said, and nothing has changed that decides what will be. -/
structure Silent (e e' : Engine) : Prop where
  history : ∃ more, e'.history = e.history ++ more ∧ ∀ event ∈ more, event.Tacit
  handshake : e'.client.handshake = e.client.handshake
  capabilities : e'.client.capabilities = e.client.capabilities
  ready : e'.client.ready = true → e.client.ready = true
  closed : e.client.closed = true → e'.client.closed = true
  sessions : ∀ doc, Option.Rel (fun s s' => s.document.Alike s'.document) (e.session? doc)
    (e'.session? doc)
  values : ∀ n v, e'.outcome? (.task n) = some (.value v) → e.outcome? (.task n) = some (.value v)

theorem Silent.open (h : Silent e e') (hc : e'.client.closed = false) : e.client.closed = false := by
  cases hopen : e.client.closed with
  | false => rfl
  | true => rw [h.closed hopen] at hc; exact hc

theorem alike_refl (o : Option Session) :
    Option.Rel (fun s s' : Session => s.document.Alike s'.document) o o := by
  cases o with
  | none => exact .none
  | some s => exact .some (.refl _)

theorem Silent.trans {e₁ e₂ e₃ : Engine} (h : Silent e₁ e₂) (h' : Silent e₂ e₃) : Silent e₁ e₃ where
  history := added_trans h.history h'.history
  handshake := h'.handshake.trans h.handshake
  capabilities := h'.capabilities.trans h.capabilities
  ready hr := h.ready (h'.ready hr)
  closed hc := h'.closed (h.closed hc)
  sessions doc := by
    have hs := h.sessions doc
    have hs' := h'.sessions doc
    generalize e₁.session? doc = o₁ at hs ⊢
    generalize e₂.session? doc = o₂ at hs hs'
    generalize e₃.session? doc = o₃ at hs' ⊢
    cases hs with
    | none =>
      cases hs'
      exact .none
    | some ha =>
      cases hs' with
      | some ha' => exact .some (ha.trans ha')
  values n v hv := h.values n v (h'.values n v hv)

/-- Only tasks, promises, slots and the connection may have changed. -/
theorem silent_of_eq (hc : e'.client = e.client) (hh : e'.history = e.history)
    (hs : e'.sessions = e.sessions)
    (hv : ∀ n v, e'.outcome? (.task n) = some (.value v) → e.outcome? (.task n) = some (.value v)) :
    Silent e e' where
  history := ⟨[], by rw [hh, List.append_nil], by simp⟩
  handshake := by rw [hc]
  capabilities := by rw [hc]
  ready := by rw [hc]; exact id
  closed := by rw [hc]; exact id
  sessions doc := by
    rw [session?, session?, hs]
    exact alike_refl _
  values := hv

theorem Silent.refl (e : Engine) : Silent e e := silent_of_eq rfl rfl rfl fun _ _ => id

theorem silent_tallies (h : Tallies e e') : Silent e e' where
  history := ⟨[], by rw [h.history, List.append_nil], by simp⟩
  handshake := by rw [h.client]
  capabilities := by rw [h.client]
  ready hr := by rw [h.client] at hr; exact hr
  closed hc := by rw [h.client]; exact hc
  sessions doc := by
    have hcore : (e'.sessions.map Session.core)[doc]? = (e.sessions.map Session.core)[doc]? := by
      rw [h.sessions]
    rw [List.getElem?_map, List.getElem?_map] at hcore
    rw [session?, session?]
    generalize e.sessions[doc]? = o at hcore
    generalize e'.sessions[doc]? = o' at hcore
    cases o with
    | none =>
      cases o' with
      | none => exact .none
      | some s' => cases hcore
    | some s =>
      cases o' with
      | none => cases hcore
      | some s' =>
        have hd : s'.document = s.document := congrArg Prod.fst (Option.some.inj hcore)
        exact .some (hd ▸ .refl _)
  values n v hv := h.outcome _ ▸ hv

theorem silent_cancels (h : Cancels e e') : Silent e e' := by
  refine silent_of_eq h.client h.history h.sessions fun n v hv => ?_
  rw [outcome?_eq_join] at hv ⊢
  rcases h.standing (.task n) with heq | ⟨_, heq⟩
  · rw [heq] at hv
    exact hv
  · rw [heq] at hv
    cases hv

theorem silent_note {event : Event} (h : event.Tacit) (e : Engine) : Silent e (e.note event) where
  history := ⟨[event], rfl, by simpa using h⟩
  handshake := rfl
  capabilities := rfl
  ready := id
  closed := id
  sessions _ := alike_refl _
  values _ _ := id

theorem silent_taken (m : Json) (e : Engine) : Silent e (e.note (.taken m)) := by
  have htaken : (Event.taken m).Tacit := trivial
  exact silent_note htaken e

theorem silent_onClient {f : Client → Client} (hh : (f e.client).handshake = e.client.handshake)
    (ha : (f e.client).capabilities = e.client.capabilities)
    (hr : (f e.client).ready = true → e.client.ready = true)
    (hc : e.client.closed = true → (f e.client).closed = true) : Silent e (e.onClient f) where
  history := ⟨[], (List.append_nil _).symm, by simp⟩
  handshake := hh
  capabilities := ha
  ready := hr
  closed := hc
  sessions _ := alike_refl _
  values _ _ := id

/-- Settling a promise brings about a task's value only if it is the task's own. -/
theorem silent_settle {r : Ref} {o : Outcome} (h : ∀ n v, r = .task n → o ≠ .value v) (e : Engine) :
    Silent e (e.settle r o) := by
  refine silent_of_eq (settle_client _ _ _) (settle_history _ _ _) (settle_sessions _ _ _) ?_
  intro n v hv
  rw [outcome?_eq_join] at hv ⊢
  rcases standing_settle r (.task n) o e with heq | ⟨hr, _, heq⟩
  · rw [heq] at hv
    exact hv
  · rw [heq] at hv
    exact absurd (by simpa using hv) (h n v hr.symm)

theorem silent_settle_free {r : Ref} {o : Outcome} (h : r.Free o) (e : Engine) :
    Silent e (e.settle r o) := by
  refine silent_settle ?_ e
  rintro n v rfl
  exact h.elim

theorem silent_promise (r : Ref) (e : Engine) : Silent e (e.promise r) := by
  refine silent_of_eq rfl rfl rfl fun n v hv => ?_
  rw [outcome?_eq_join, standing_promise] at hv
  split at hv
  · cases hv
  · rw [outcome?_eq_join]
    exact hv

theorem silent_gather (members : List Ref) (tolerant : Bool) (e : Engine) :
    Silent e (e.gather members tolerant).2 :=
  ((silent_tallies (agrees_grouped members tolerant e).toTallies).trans (silent_promise _ _)).trans
    (silent_tallies (agrees_gather members tolerant e).toTallies)

theorem silent_spawn (op : Operation) (e : Engine) : Silent e (e.spawn op).2 := by
  have hp : Silent e (e.promise (.task e.nextRef)) := silent_promise _ e
  exact hp.trans (silent_of_eq rfl rfl rfl fun _ _ => id)

theorem session?_onDocument (doc doc' : Nat) (f : Document → Document) (e : Engine) :
    (e.onDocument doc f).session? doc' = if doc = doc' then
      (e.session? doc').map fun s => { s with document := f s.document } else e.session? doc' := by
  rw [onDocument, onSession, session?, session?, List.getElem?_modify]
  split
  · rfl
  · rw [id_map']

theorem silent_onSession {f : Session → Session} (h : ∀ s : Session, s.document.Alike (f s).document)
    (doc : Nat) (e : Engine) : Silent e (e.onSession doc f) where
  history := ⟨[], (List.append_nil _).symm, by simp⟩
  handshake := rfl
  capabilities := rfl
  ready := id
  closed := id
  sessions doc' := by
    rw [onSession, session?, session?, List.getElem?_modify]
    split
    · cases e.sessions[doc']? with
      | none => exact .none
      | some s => exact .some (h s)
    · rw [id_map']
      exact alike_refl _
  values _ _ := id

theorem silent_onDocument {f : Document → Document} (h : ∀ d : Document, d.Alike (f d)) (doc : Nat)
    (e : Engine) : Silent e (e.onDocument doc f) :=
  silent_onSession (fun s => h s.document) doc e

theorem silent_pose (doc : Nat) (feature : Feature) (e : Engine) :
    Silent e (e.beginGeneration doc feature).2 := by
  have hposed (generation : Nat) : (Event.posed doc feature generation).Tacit := trivial
  refine Silent.trans (silent_onSession ?_ doc e) (silent_note (hposed _) _)
  intro s
  exact .refl s.document

theorem silent_shown (doc : Nat) (superseding : Superseding) (presented : List PresentedDiagnostic)
    (e : Engine) : Silent e (e.showDiagnostics doc superseding presented) := by
  have hshown : (Event.shown doc superseding presented).Tacit := trivial
  refine Silent.trans (silent_onSession ?_ doc e) (silent_note hshown _)
  intro s
  exact .refl s.document

theorem tacit_of_remarks {event : Event} (h : Remarks st e event) : event.Tacit := by
  cases h <;> trivial

theorem silent_texted (doc : Nat) (text : List Char) (e : Engine) :
    Silent e (e.note (.texted doc text)) := by
  have htexted : (Event.texted doc text).Tacit := trivial
  exact silent_note htexted e

theorem silent_settleAll (f : Failure) : ∀ (pending : Table Nat Ref) (e : Engine),
    Silent e (pending.foldl (fun e (_, answer) => e.settle answer (.failure f)) e)
  | [], e => .refl e
  | (_, r) :: rest, e => by
      have hs : Silent e (e.settle r (.failure f)) := silent_settle (fun _ _ _ h => by cases h) e
      exact hs.trans (silent_settleAll f rest _)

theorem silent_failPending (f : Failure) (e : Engine) : Silent e (e.failPending f) :=
  silent_settleAll f e.client.pending e

theorem silent_shutDown (e : Engine) : Silent e e.shutDown := by
  have hc : Silent e (e.onClient fun c => { c with ready := false, closed := true }) :=
    silent_onClient rfl rfl (fun h => by cases h) fun _ => rfl
  have hended : Event.readerEnded.Tacit := trivial
  unfold shutDown
  refine (Silent.trans ?_ (silent_failPending _ _)).trans (silent_note hended _)
  split
  · exact hc.trans (silent_spawn _ _)
  · exact hc

theorem silent_startReader (e : Engine) : Silent e e.startReader := by
  rcases startReader_cases e with ⟨_, heq⟩ | ⟨_, heq⟩
  · rw [heq]
    exact .refl e
  · rw [heq]
    exact (silent_spawn _ e).trans (silent_onClient rfl rfl id id)

theorem silent_register (r : Registration Subscriber) (e : Engine) : Silent e (e.register r) := by
  have hregistered : (Event.registered r).Tacit := trivial
  have hc : Silent e (e.onClient fun c => { c with subscribers := c.subscribers.register r }) :=
    silent_onClient rfl rfl id id
  have he : Silent e (e.enlist r) := hc.trans (silent_note hregistered _)
  rcases register_cases r e with heq | ⟨_, level, message, heq⟩
  · rw [heq]
    exact he
  · rw [heq]
    exact (he.trans (silent_tallies (agrees_log level message _).toTallies)).trans (silent_spawn _ _)

theorem silent_closingEnded (e : Engine) : Silent e (e.note .closingEnded) := by
  have hended : Event.closingEnded.Tacit := trivial
  exact silent_note hended e

theorem silent_cancelSlot (doc : Nat) (e : Engine) : Silent e (e.cancelSlot doc).2 := by
  have hs : Silent e { e with slots := e.slots.erase doc } := silent_of_eq rfl rfl rfl fun _ _ => id
  exact hs.trans (silent_cancels (cancels_cancelSlot doc e))

theorem silent_scheduleFlush (doc : Nat) (e : Engine) : Silent e (e.scheduleFlush doc).2 := by
  have hs := (silent_cancelSlot doc e).trans
    (silent_spawn (.debounced doc (((e.session? doc).map (·.delay)).getD 0) (.flush doc)) _)
  exact hs.trans (silent_of_eq rfl rfl rfl fun _ _ => id)

theorem silent_scheduleChange (doc : Nat) (text : List Char) (changes : Option (List Change))
    (e : Engine) : Silent e (e.scheduleChange doc text changes).2 := by
  obtain ⟨e₁, ha, heq⟩ := scheduleChange_eq doc text changes e
  have hd : Silent e (e.edited doc text changes) :=
    (silent_texted doc text e).trans (silent_onDocument (Document.alike_edited text changes) doc _)
  rw [heq]
  exact (hd.trans (silent_tallies ha)).trans (silent_scheduleFlush doc e₁)

theorem silent_retext (doc : Nat) (text : Option (List Char)) (e : Engine) :
    Silent e (e.retext doc text) := by
  cases text with
  | none => exact .refl e
  | some text =>
    exact (silent_texted doc text e).trans (silent_onDocument (Document.alike_replaced text) doc _)

theorem silent_preset (doc : Nat) (text : Option (List Char)) (e : Engine) :
    Silent e (e.preset doc text) := by
  cases text with
  | none => exact .refl e
  | some text =>
    have halike (d : Document) : d.Alike { d with text } := ⟨rfl, rfl, id⟩
    exact (silent_texted doc text e).trans (silent_onDocument halike doc _)

/-- Once the document counts as open, nothing else happens that is said. -/
theorem silent_noteOpened (doc : Nat) (sent : List Char) (e : Engine) :
    Silent (e.onDocument doc fun d => { d with opened := true }.resync sent)
      (e.noteOpened doc sent) := by
  have hforget (d : Document) : d.Alike d.forget := ⟨rfl, rfl, id⟩
  unfold noteOpened
  simp only
  split
  · exact .refl _
  · split
    · exact (silent_onDocument hforget doc _).trans (silent_scheduleFlush doc _)
    · exact .refl _

theorem silent_clears {doc : Nat} (h : Clears doc c c') : Silent c.2 c'.2 ∧ Adds c.1 c'.1 := by
  cases h with
  | kept => exact ⟨.refl _, .refl _⟩
  | cancelled => exact ⟨silent_cancelSlot doc _, .refl _⟩
  | elapsed slot => exact ⟨silent_of_eq rfl rfl rfl fun _ _ => id, (Adds.tail _ _).cons rfl⟩

/-- Closing a document does not say anything either. -/
theorem silent_closing {doc : Nat} {e₁ : Engine}
    (h : Cancels ((e.onDocument doc fun d => { d with closed := true }).cancelSlot doc).2 e₁) :
    Silent e e₁ := by
  have halike (d : Document) : d.Alike { d with closed := true } := ⟨rfl, rfl, fun _ => rfl⟩
  have hd := silent_onDocument halike doc e
  exact (hd.trans (silent_cancelSlot doc _)).trans (silent_cancels h)

/-! ### Turns -/

/-- What a step can say to the server. -/
inductive Turn : Config → Config → Prop where
  | silent {st st' : List Frame} {e e' : Engine} : Silent e e' → Adds st st' →
      Turn (st, e) (st', e')
  | late {st : List Frame} {e : Engine} {f : Frame} : f.late = true → e.client.ready = true →
      Turn (st, e) (f :: st, e)
  | call {st st' : List Frame} {e : Engine} {method params : Json} {name : String} {f : Frame} :
      Asks e name st st' → Message.requestMethod method = .ok name → e.client.closed = false →
      f.weighty = false → Turn (st, e) (f :: st', (e.enroll name).2.note
        (.handed (Message.request (.nat (e.enroll name).1) method params)))
  | notify {st : List Frame} {e : Engine} {method params : Json} {f : Frame} :
      e.client.closed = false → f.weighty = false →
      Turn (.begin (.notify method params) :: st, e)
        (f :: st, e.note (.handed (Message.notification method params)))
  | handshake {st : List Frame} {e : Engine} : Turn (st, e) (st, e.startHandshake.2)
  | agreed {st : List Frame} {e : Engine} {f : Frame} (capabilities result : Json) :
      e.client.closed = false → f.weighty = false →
      Turn (.handshakeAnswered :: st, e)
        (f :: .handshakeAnnounced result :: st, (e.agree capabilities).note (.handed initialized))
  | agreedClosed {st : List Frame} {e : Engine} (capabilities result : Json) :
      e.client.closed = true →
      Turn (.handshakeAnswered :: st, e) (.handshakeAnnounced result :: st, e.agree capabilities)
  | ready {st : List Frame} {e : Engine} (result : Json) :
      Turn (.handshakeAnnounced result :: st, e) (st, e.onClient fun c => { c with ready := true })
  | preset {st : List Frame} {e : Engine} (doc : Nat) (text : Option (List Char)) :
      Turn (.begin (.openDocument doc text) :: st, e) (.readyToOpen doc :: st, e.preset doc text)
  | opening {st : List Frame} {e : Engine} {doc : Nat} {s : Session} {v : Value} {f : Frame} :
      e.handshakeOutcome = .value v → e.session? doc = some s → s.document.closed = false →
      e.client.closed = false → f.weighty = false →
      Turn (.readyToOpen doc :: st, e)
        (f :: .openSent doc s.document.text :: st, e.speak doc (didOpen s.document))
  | opened {st : List Frame} {e : Engine} (doc : Nat) (sent : List Char) :
      Turn (.openSent doc sent :: st, e) (st, e.noteOpened doc sent)
  | told {st st₁ : List Frame} {e e₁ : Engine} {doc : Nat} {s : Session} {ranges : Bool}
      {f : Frame} : Silent e e₁ → Adds st st₁ → e₁.session? doc = some s →
      e₁.client.ready = true → s.document.opened = true → s.document.closed = false →
      e₁.client.closed = false → f.weighty = false →
      Turn (st, e) (f :: st₁, (e₁.onDocument doc fun _ => (s.document.beginFlush ranges).2).speak doc
        (didChange (s.document.beginFlush ranges).2 (s.document.beginFlush ranges).1))
  /-- On a closed connection nothing is said. -/
  | closed {st st' : List Frame} {e e' : Engine} {more : List Event} : e.client.closed = true →
      e'.client = e.client → e'.history = e.history ++ more → (∀ event ∈ more, event.Tacit) →
      Turn (st, e) (st', e')

theorem Turn.flush {doc : Nat} {c₁ : Config} (hc : Clears doc c c₁) (hs : Sends doc c₁ c') :
    Turn c c' := by
  obtain ⟨st, e⟩ := c
  obtain ⟨hsilent, hadds⟩ := silent_clears hc
  cases hs with
  | idle text => exact .silent (hsilent.trans (silent_retext doc text _)) hadds
  | @told st₁ e₁ text s ranges hsession hready hopened hopen hclosed =>
    have hclient := retext_client doc text e₁
    exact .told (hsilent.trans (silent_retext doc text e₁)) (hadds.cons rfl) hsession
      (hclient ▸ hready) hopened hopen (hclient ▸ hclosed) rfl
  | @closed st₁ e₁ text d hclosed =>
    -- the slot may have been emptied before, which is not seen on a closed connection
    have hclient : e₁.client = e.client := by
      cases hc with
      | kept => rfl
      | cancelled => exact client_cancelSlot doc e
      | elapsed slot => rfl
    obtain ⟨more, hh, hm⟩ := (hsilent.trans (silent_retext doc text e₁)).history
    exact .closed (hclient ▸ hclosed) ((retext_client doc text e₁).trans hclient) hh hm

theorem Turn.refresh {doc : Nat} (h : Refreshes doc c c') : Turn c c' := by
  cases h with
  | idle => exact .silent (silent_cancelSlot doc _) (.refl _)
  | sends hsome hs => exact .flush (.cancelled hsome) hs

/-- One turn, or two: a question that is begun is put on the stack before the changes of its document
    are sent. -/
inductive Turns : Config → Config → Prop where
  | one {c c' : Config} : Turn c c' → Turns c c'
  | late {st : List Frame} {e : Engine} {f : Frame} {c' : Config} : f.late = true →
      e.client.ready = true → Turn (f :: st, e) c' → Turns (st, e) c'

/-- Every step is made of turns. -/
theorem Step.turns (hs : Step c c') (hc : Correlated c) : Turns c c' := by
  cases hs with
  | agree ha => exact .one <| .silent (silent_tallies ha) (.refl _)
  | push hf => exact .one <| .silent (.refl _) ((Adds.refl _).cons (Frame.weighty_of_plain hf))
  | late hf _ hr _ hrefresh => exact .late (Frame.late_of_question hf) hr (.refresh hrefresh)
  | @pose _ _ doc _ feature => exact .one <| .silent (silent_pose doc feature _) (.refl _)
  | remark hr => exact .one <| .silent (silent_note (tacit_of_remarks hr) _) (.refl _)
  | unasked _ hf' =>
    exact .one <| .silent (.refl _) ((Adds.tail _ _).cons (Frame.weighty_of_answers hf'))
  | shown presented => exact .one <| .silent (silent_shown _ _ presented _) (.refl _)
  | pop => exact .one <| .silent (.refl _) (.tail _ _)
  | gathers => exact .one <| .silent (.refl _) ((Adds.tail _ _).cons rfl)
  | promise => exact .one <| .silent (silent_promise _ _) (.refl _)
  | gather members tolerant => exact .one <| .silent (silent_gather members tolerant _) (.refl _)
  | settle ha hf =>
    exact .one <| .silent ((silent_tallies ha.toTallies).trans (silent_settle_free hf _)) (.refl _)
  | spawn => exact .one <| .silent (silent_spawn _ _) (.refl _)
  | call limit ha hm hopen => exact .one <| .call ha hm hopen rfl
  | await _ _ hf' =>
    exact .one <| .silent (.refl _) ((Adds.tail _ _).cons (Frame.weighty_of_request hf'))
  | @abandon st e e₁ f f' id _ hf' _ ha =>
    have hs : Silent e₁ (e₁.settle (.answer id) .cancelled) :=
      silent_settle (fun _ _ h => by cases h) e₁
    exact .one <| .silent ((silent_tallies ha.toTallies).trans hs)
      ((Adds.tail _ _).cons (Frame.weighty_of_request hf'))
  | @endRequest st e f id o =>
    have hd : Silent e (e.onClient (·.discharge id)) := silent_onClient rfl rfl (fun h => h) fun h => h
    have hreturned : (Event.returned id o).Tacit := trivial
    exact .one <| .silent (hd.trans (silent_note hreturned _)) (.tail _ _)
  | reply id =>
    have hreply : (Event.handed (Message.response id .null)).Tacit := ⟨id, rfl⟩
    exact .one <| .silent (silent_note hreply _) ((Adds.tail _ _).cons rfl)
  | notify hm hopen => exact .one <| .notify hopen rfl
  | read => exact .one <| .silent (.refl _) ((Adds.tail _ _).cons rfl)
  | transmit | unload => exact .one <| .silent (silent_of_eq rfl rfl rfl fun _ _ => id) (.refl _)
  | take => exact .one <| .silent (silent_taken _ _) (.refl _)
  | @oblige st e e' m _ ha =>
    have hnote := silent_taken m e
    exact .one <| .silent ((hnote.trans (silent_tallies ha.toTallies)).trans (silent_spawn _ _)) (.refl _)
  | @respond st e e' m hr he =>
    have hnote := silent_taken m e
    rcases resolve_cases he with ⟨ha, _⟩ | ⟨n, answer, o, _, hp, _, _, rfl⟩
    · exact .one <| .silent (hnote.trans (silent_tallies ha)) (.refl _)
    · obtain rfl := hc.refs n answer hp
      exact .one <| .silent (hnote.trans (silent_settle (fun _ _ h => by cases h) _)) (.refl _)
  | register r => exact .one <| .silent (silent_register r _) (.refl _)
  | notified x method params =>
    have htold : (Event.notified x method params).Tacit := trivial
    exact .one <| .silent (silent_note htold _) (.refl _)
  | startReader => exact .one <| .silent (silent_startReader _) (.refl _)
  | handshake => exact .one <| .handshake
  | agreed capabilities result hopen => exact .one <| .agreed capabilities result hopen rfl
  | agreedClosed capabilities result hclosed => exact .one <| .agreedClosed capabilities result hclosed
  | ready result => exact .one <| .ready result
  | close =>
    exact .one <| .silent (silent_onClient rfl rfl (fun h => by cases h) fun _ => rfl) ((Adds.tail _ _).cons rfl)
  | cancelReader => exact .one <| .silent (silent_cancels (cancels_cancel _ _)) (.refl _)
  | join => exact .one <| .silent (.refl _) ((Adds.tail _ _).cons rfl)
  | joined => exact .one <| .silent ((silent_failPending _ _).trans (silent_closingEnded _)) (.tail _ _)
  | joinedFailed => exact .one <| .silent (silent_closingEnded _) (.tail _ _)
  | shutDown => exact .one <| .silent (silent_shutDown _) (.tail _ _)
  | @crash st e e' m _ ha =>
    have hnote := silent_taken m e
    exact .one <| .silent ((hnote.trans (silent_tallies ha)).trans (silent_shutDown _)) (.tail _ _)
  | preset doc text => exact .one <| .preset doc text
  | opening hv hsession hopen hclosed => exact .one <| .opening hv hsession hopen hclosed rfl
  | openingClosed sent hclosed => exact .one <| .closed hclosed rfl (List.append_nil _).symm (by simp)
  | opened doc sent => exact .one <| .opened doc sent
  | edit text changes => exact .one <| .silent (silent_scheduleChange _ text changes _) (.refl _)
  | delay => exact .one <| .silent (.refl _) ((Adds.tail _ _).cons rfl)
  | rehearse =>
    exact .one <| .silent (silent_of_eq rfl rfl rfl fun _ _ => id) ((Adds.tail _ _).cons rfl)
  | unscheduled => exact .one <| .silent (silent_cancelSlot _ _) (.refl _)
  | flush hc hs => exact .one <| .flush hc hs

/-! ### Whole runs -/

/-- Something that every turn preserves, that does not depend on which task has which frames, and that
    outlasts the end of a task. A handshake that succeeds has made the client ready. -/
structure Stable (I : Config → Prop) : Prop where
  turn : ∀ {c c' : Config}, I c → Turn c c' → Grows c.2 c'.2 → I c'
  move : ∀ {st st' : List Frame} {e : Engine} {tasks : Table Nat Task}, I (st, e) →
    (frames (st', { e with tasks })).Perm (frames (st, e)) → I (st', { e with tasks })
  ends : ∀ {e : Engine} {m : Nat} {o : Outcome}, I ([], e) →
    (e.client.handshake = some (.task m) → ∀ v, o = .value v → e.client.ready = true) →
      I ([], e.settle (.task m) o)

/-- Actions that bring in something new: a task or a document. -/
def Action.brings : Action → Bool
  | .begin _ | .addSession _ => true
  | _ => false

namespace Stable

variable {I : Config → Prop} {m : Nat}

theorem path (hI : Stable I) (h : I c) (hc : Correlated c) (hp : Path c c') : I c' := by
  induction hp with
  | refl => exact h
  | tail hp hs ih =>
    have hc := hc.path hp
    have hg := hs.grows hc.numbered
    cases hs.turns hc with
    | one ht => exact hI.turn ih ht hg
    | late hf hr ht => exact hI.turn (hI.turn ih (.late hf hr) (.refl _)) ht hg

theorem silent (hI : Stable I) (h : I ([], e)) (hs : Silent e e') (hg : Grows e e') : I ([], e') :=
  hI.turn h (.silent hs (.refl _)) hg

theorem rests {run : Run} (hI : Stable I) (h : I (reached run)) (hn : Numbered (reached run).2)
    (hr : Running m (reached run).2)
    (hs : (reached run).2.client.handshake = some (.task m) → Shakes run)
    (hrest : Rests m run e) : I ([], e) := by
  have hkeep {st : List Frame} {e e' : Engine} {waiting : Option Ref} (h : I (st, e))
      (hn : Numbered e) (hr : Running m e) (ha : Tallies (e.keep m st waiting) e') : I ([], e') :=
    hI.silent (hI.move h (held_keep hn hr st waiting)) (silent_tallies ha) (.of_tallies ha)
  cases hrest with
  | ended o =>
    refine hI.ends (hI.move h (held_erase hn hr)) ?_
    rintro hshake v rfl
    exact hs hshake
  | waits ha hc => exact hI.silent (hkeep h hn hr ha.toTallies) (silent_cancels hc) (.of_cancels hc)
  | pauses ha => exact hkeep h hn hr ha

theorem runTask {t : Task} (hI : Stable I) (h : I ([], e)) (hc : Correlated ([], e))
    (hs : Shaken none e) (ht : e.tasks.get? m = some t) (o : Outcome) :
    I ([], e.runTask m t o) := by
  have hf := frames_pick hc.numbered ht
  have hpick : Correlated (t.frames, e.pick m) := hc.move (hc.numbered.pick ht) hf
  have hp := path_reached (leads_unwind t.frames (if t.cancelRequested then .cancelled else o)
    (e.pick m))
  have hg := Path.grows hp hpick.numbered
  exact hI.rests (hI.path (hI.move h hf) hpick hp) (hpick.numbered.grows hg)
    ((running_pick m e).grows hg) (hs.shakes hc.numbered ht) (rests_runTask m t o e)

theorem runNext (hI : Stable I) (h : I ([], e)) (hc : Correlated ([], e)) (hs : Shaken none e) :
    I ([], e.runNext) := by
  obtain ⟨e₁, ha, hrun⟩ := runNext_cases e
  have hg := Grows.of_tallies ha
  have h₁ := hI.silent h (silent_tallies ha) hg
  have hc₁ : Correlated ([], e₁) := hc.calm (calm_tallies ha) hg rfl
  rcases hrun with hp | ⟨m, t, ht, heq⟩
  · exact hI.path h₁ hc₁ hp
  · rw [heq]
    exact hI.runTask h₁ hc₁ (hs.grows hc.numbered hg) ht _

/-- Whatever the outside does, apart from bringing in something new. -/
theorem act {a : Action} (hI : Stable I) (h : I ([], e)) (hc : Correlated ([], e))
    (hs : Shaken none e) (ha : a.brings = false) : I ([], e.act a) := by
  have hn := hc.numbered
  have hedit (doc : Nat) (text : List Char) (changes : Option (List Change)) :
      I ([], (e.scheduleChange doc text changes).2) :=
    hI.silent h (silent_scheduleChange doc text changes e) (hn.grows_scheduleChange doc text changes)
  cases a with
  | run => exact hI.runNext h hc hs
  | «begin» op => cases ha
  | addSession s => cases ha
  | cancel r =>
    have hcancel := cancels_cancel r e
    exact hI.silent h (silent_cancels hcancel) (.of_cancels hcancel)
  | failSends f =>
    exact hI.silent h (silent_of_eq rfl rfl rfl fun _ _ => id) (.of_tasks rfl (Nat.le_refl _) rfl)
  | scheduleChange doc text changes => exact hedit doc text changes
  | viewChanged doc text changes =>
    exact hI.path (hedit doc text changes) (hc.act (.scheduleChange doc text changes))
      (path_viewChanged doc text changes)
  | closeSession doc =>
    change I ([], e.closeSession doc)
    rcases closeSession_cases doc e with ⟨heq, _⟩ | ⟨s, e₁, _, _, hcancel, heq⟩
    · rw [heq]
      exact h
    · rw [heq]
      exact hI.path (hI.silent h (silent_closing hcancel) (grows_closing hcancel))
        (hc.closing hcancel) (path_detach _)
  | _ => exact hI.path h hc (path_act rfl)

end Stable

end Engine

end LanguageClient
