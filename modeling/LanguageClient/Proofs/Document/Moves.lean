import LanguageClient.Proofs.Client.Correlation
import LanguageClient.Proofs.Document.Mirror

/-!
What a step means to a document. Nearly every step leaves alone all that documents depend on
(`Idles`); the rest are few: the handshake, the three steps of opening, and sending changes. A step
can also close the connection, after which nothing is promised any more.

    Step  =  Idles  |  closed  |  handshake, agreed  |  preset, opening, opened  |  unscheduled, flush
-/

namespace LanguageClient

/-! ### Frames -/

/-- Operations that leave the documents' messages to the engine, and put nothing into a slot but the
    sending of the document's changes. -/
def Operation.orderly : Operation → Bool
  | .notify .. => false
  | .debounced slot _ (.flush doc) => slot == doc
  | .debounced _ _ (.rehearsal ..) => false
  | _ => true

/-- Frames of such operations, while the client is open. -/
def Frame.orderly : Frame → Bool
  | .begin op => op.orderly
  | .hungUp => false
  | .delayOver slot (.flush doc) => slot == doc
  | .delayOver _ (.rehearsal ..) => false
  | _ => true

/-- Frames by which a document will be opened. -/
def Frame.opens : Frame → Bool
  | .begin (.openDocument ..) | .readyToOpen _ | .openSent .. => true
  | _ => false

theorem Operation.orderly_of_own {op : Operation} (h : op.own = true) : op.orderly = true := by
  cases op with
  | debounced slot delay work =>
    cases work with
    | flush doc => exact h
    | rehearsal name takes fails => cases h
  | notify method params => cases h
  | _ => rfl

theorem Frame.opens_begin_of_own {op : Operation} (h : op.own = true) :
    (Frame.begin op).opens = false := by
  cases op with
  | openDocument doc text => cases h
  | _ => rfl

theorem Frame.orderly_of_plain {f : Frame} (h : f.plain = true) : f.orderly = true := by
  cases f with
  | «begin» op => cases h
  | delayOver slot work => cases h
  | hungUp => cases h
  | _ => rfl

theorem Frame.opens_of_plain {f : Frame} (h : f.plain = true) : f.opens = false := by
  cases f with
  | «begin» op => cases h
  | readyToOpen doc => cases h
  | openSent doc sent => cases h
  | _ => rfl

theorem Frame.orderly_of_late {f : Frame} (h : f.late = true) :
    f.orderly = true ∧ f.opens = false := by
  cases f with
  | «begin» op => cases h
  | delayOver slot work => cases h
  | hungUp => cases h
  | readyToOpen doc => cases h
  | openSent doc sent => cases h
  | _ => exact ⟨rfl, rfl⟩

theorem Frame.orderly_of_request {f : Frame} {id : Nat} (h : f.request? = some id) :
    f.orderly = true ∧ f.opens = false := by
  cases f with
  | «begin» op => cases h
  | delayOver slot work => cases h
  | hungUp => cases h
  | readyToOpen doc => cases h
  | openSent doc sent => cases h
  | _ => exact ⟨rfl, rfl⟩

theorem Frame.orderly_of_answers {f : Frame} {q : Nat × Feature × Nat} (h : f.answers? = some q) :
    f.orderly = true ∧ f.opens = false := by
  cases f with
  | hoverAnswered => exact ⟨rfl, rfl⟩
  | completionAnswered => exact ⟨rfl, rfl⟩
  | signatureAnswered => exact ⟨rfl, rfl⟩
  | _ => cases h

/-- The text with which a document was opened, while that is still being sent. -/
def Frame.sent? : Frame → Option (List Char)
  | .openSent _ text => some text
  | _ => none

theorem Frame.sent?_of_opens {f : Frame} (h : f.opens = false) : f.sent? = none := by
  cases f with
  | openSent doc sent => cases h
  | _ => rfl

/-- Only frames have been added that put nothing out of order, and none by which a document is opened
    once more. -/
structure Stays (st st' : List Frame) : Prop where
  mem : ∀ f ∈ st', f ∈ st ∨ (f.orderly = true ∧ f.sent? = none)
  opens : st'.countP Frame.opens ≤ st.countP Frame.opens

theorem Stays.refl (st : List Frame) : Stays st st := ⟨fun _ h => .inl h, Nat.le_refl _⟩

theorem stays_cons {f : Frame} (ho : f.orderly = true) (hn : f.opens = false) (st : List Frame) :
    Stays st (f :: st) := by
  constructor
  · intro g hg
    rcases List.mem_cons.mp hg with rfl | hg
    · exact .inr ⟨ho, Frame.sent?_of_opens hn⟩
    · exact .inl hg
  · simp [hn]

theorem stays_tail (f : Frame) (st : List Frame) : Stays (f :: st) st :=
  ⟨fun _ h => .inl (List.mem_cons_of_mem _ h), List.countP_cons .. ▸ Nat.le_add_right _ _⟩

theorem Stays.trans {st₁ st₂ st₃ : List Frame} (h : Stays st₁ st₂) (h' : Stays st₂ st₃) :
    Stays st₁ st₃ :=
  ⟨fun f hf => (h'.mem f hf).elim (h.mem f) .inr, Nat.le_trans h'.opens h.opens⟩

namespace Engine

variable {c c' : Config} {st st' : List Frame} {e e' : Engine}

/-! ### What leaves the documents alone -/

/-- Nothing has changed that documents depend on. -/
structure Idles (e e' : Engine) : Prop where
  sessions : e'.sessions.map Session.core = e.sessions.map Session.core
  slots : e'.slots = e.slots
  handshake : e'.client.handshake = e.client.handshake
  capabilities : e'.client.capabilities = e.client.capabilities
  ready : e.client.ready = true → e'.client.ready = true
  closed : e.client.closed = true → e'.client.closed = true
  history : ∃ more, e'.history = e.history ++ more ∧ ∀ event ∈ more, event.mute = true
  nextRef : e.nextRef ≤ e'.nextRef
  tasks : ∀ n < e.nextRef, e'.tasks.get? n = e.tasks.get? n
  standing : ∀ n < e.nextRef, e'.standing (.task n) = e.standing (.task n)
  naps : ∀ k o, e'.outcome? (.nap k) = some o →
    e.outcome? (.nap k) = some o ∨ o = .value .nothing

theorem Idles.trans {e₁ e₂ e₃ : Engine} (h : Idles e₁ e₂) (h' : Idles e₂ e₃) : Idles e₁ e₃ where
  sessions := h'.sessions.trans h.sessions
  slots := h'.slots.trans h.slots
  handshake := h'.handshake.trans h.handshake
  capabilities := h'.capabilities.trans h.capabilities
  ready hr := h'.ready (h.ready hr)
  closed hc := h'.closed (h.closed hc)
  history := added_trans h.history h'.history
  nextRef := Nat.le_trans h.nextRef h'.nextRef
  tasks n hn := (h'.tasks n (Nat.lt_of_lt_of_le hn h.nextRef)).trans (h.tasks n hn)
  standing n hn := (h'.standing n (Nat.lt_of_lt_of_le hn h.nextRef)).trans (h.standing n hn)
  naps k o ho := (h'.naps k o ho).elim (h.naps k o) .inr

theorem idles_tallies (h : Tallies e e') : Idles e e' where
  sessions := h.sessions
  slots := h.slots
  handshake := by rw [h.client]
  capabilities := by rw [h.client]
  ready hr := by rw [h.client]; exact hr
  closed hc := by rw [h.client]; exact hc
  history := ⟨[], by simp [h.history], by simp⟩
  nextRef := h.nextRef
  tasks _ _ := by rw [h.tasks]
  standing _ _ := h.standing _
  naps _ _ ho := .inl (h.outcome _ ▸ ho)

theorem idles_note {event : Event} (h : event.mute = true) (e : Engine) :
    Idles e (e.note event) where
  sessions := rfl
  slots := rfl
  handshake := rfl
  capabilities := rfl
  ready := id
  closed := id
  history := ⟨[event], rfl, by simpa using h⟩
  nextRef := Nat.le_refl _
  tasks _ _ := rfl
  standing _ _ := rfl
  naps _ _ := .inl

/-- Changes of the client that documents do not see. -/
theorem idles_onClient {f : Client → Client} (hh : (f e.client).handshake = e.client.handshake)
    (hc : (f e.client).capabilities = e.client.capabilities)
    (hr : e.client.ready = true → (f e.client).ready = true)
    (hd : e.client.closed = true → (f e.client).closed = true) : Idles e (e.onClient f) where
  sessions := rfl
  slots := rfl
  handshake := hh
  capabilities := hc
  ready := hr
  closed := hd
  history := ⟨[], by simp [onClient], by simp⟩
  nextRef := Nat.le_refl _
  tasks _ _ := rfl
  standing _ _ := rfl
  naps _ _ := .inl

theorem idles_onChannel (f : Channel → Channel) (e : Engine) : Idles e (e.onChannel f) where
  sessions := rfl
  slots := rfl
  handshake := rfl
  capabilities := rfl
  ready := id
  closed := id
  history := ⟨[], by simp [onChannel], by simp⟩
  nextRef := Nat.le_refl _
  tasks _ _ := rfl
  standing _ _ := rfl
  naps _ _ := .inl

/-- Changes of a document that the server need not be told of. -/
theorem idles_onSession {f : Session → Session} (h : ∀ s, (f s).core = s.core) (doc : Nat)
    (e : Engine) : Idles e (e.onSession doc f) where
  sessions := map_onSession _ h doc e
  slots := rfl
  handshake := rfl
  capabilities := rfl
  ready := id
  closed := id
  history := ⟨[], (List.append_nil _).symm, by simp⟩
  nextRef := Nat.le_refl _
  tasks _ _ := rfl
  standing _ _ := rfl
  naps _ _ := .inl

theorem idles_pose (doc : Nat) (feature : Feature) (e : Engine) :
    Idles e (e.beginGeneration doc feature).2 := by
  refine Idles.trans (idles_onSession ?_ doc e) (idles_note rfl _)
  intro s
  rfl

theorem idles_shown (doc : Nat) (superseding : Superseding) (presented : List PresentedDiagnostic)
    (e : Engine) : Idles e (e.showDiagnostics doc superseding presented) := by
  refine Idles.trans (idles_onSession ?_ doc e) (idles_note rfl _)
  intro s
  rfl

theorem mute_of_remarks {event : Event} (h : Remarks st e event) : event.mute = true := by
  cases h <;> rfl

theorem idles_settle {r : Ref} {o : Outcome} (ht : ∀ n, r ≠ .task n)
    (hn : ∀ k, r = .nap k → o = .value .nothing) (e : Engine) : Idles e (e.settle r o) where
  sessions := by rw [settle_sessions]
  slots := settle_slots r o e
  handshake := by rw [settle_client]
  capabilities := by rw [settle_client]
  ready := by rw [settle_client]; exact id
  closed := by rw [settle_client]; exact id
  history := ⟨[], by simp, by simp⟩
  nextRef := Nat.le_of_eq (settle_nextRef r o e).symm
  tasks _ _ := by rw [settle_tasks]
  standing n _ := standing_settle_of_ne (Ne.symm (ht n)) o e
  naps k o' ho := by
    rcases standing_settle r (.nap k) o e with heq | ⟨rfl, _, heq⟩
    · rw [outcome?_eq_join, heq, ← outcome?_eq_join] at ho
      exact .inl ho
    · rw [outcome?_eq_join, heq] at ho
      obtain rfl : o = o' := by simpa using ho
      exact .inr (hn k rfl)

theorem idles_settle_free {r : Ref} {o : Outcome} (h : r.Free o) (e : Engine) :
    Idles e (e.settle r o) := by
  refine idles_settle ?_ ?_ e
  · rintro n rfl
    exact h
  · rintro k rfl
    exact h

theorem idles_promise {r : Ref} (h : r.ofWait = true ∨ ∃ id, r = .answer id) (e : Engine) :
    Idles e (e.promise r) where
  sessions := rfl
  slots := rfl
  handshake := rfl
  capabilities := rfl
  ready := id
  closed := id
  history := ⟨[], by simp [promise], by simp⟩
  nextRef := Nat.le_refl _
  tasks _ _ := rfl
  standing n _ := by
    have hr : Ref.task n ≠ r := by
      rintro rfl
      rcases h with h | ⟨_, h⟩ <;> cases h
    rw [standing_promise, if_neg hr]
  naps k o ho := by
    rw [outcome?_eq_join, standing_promise] at ho
    split at ho
    · cases ho
    · rw [outcome?_eq_join]
      exact .inl ho

theorem idles_gather (members : List Ref) (tolerant : Bool) (e : Engine) :
    Idles e (e.gather members tolerant).2 :=
  ((idles_tallies (agrees_grouped members tolerant e).toTallies).trans (idles_promise (.inl rfl) _)).trans
    (idles_tallies (agrees_gather members tolerant e).toTallies)

theorem idles_spawn (op : Operation) (e : Engine) : Idles e (e.spawn op).2 where
  sessions := rfl
  slots := rfl
  handshake := rfl
  capabilities := rfl
  ready := id
  closed := id
  history := ⟨[], (List.append_nil _).symm, by simp⟩
  nextRef := Nat.le_succ _
  tasks n hn := Table.get?_put_of_ne (Nat.ne_of_lt hn) _ _
  standing n hn := by
    have hs := standing_promise (.task e.nextRef) (.task n) e
    rw [if_neg (by simpa using Nat.ne_of_lt hn)] at hs
    exact hs
  naps k o ho := by
    have hs := standing_promise (.task e.nextRef) (.nap k) e
    rw [if_neg (by simp)] at hs
    rw [outcome?_eq_join] at ho ⊢
    exact .inl (hs ▸ ho)

theorem idles_startReader (e : Engine) : Idles e e.startReader := by
  rcases startReader_cases e with ⟨_, heq⟩ | ⟨_, heq⟩
  · rw [heq]
    exact idles_tallies (.refl e)
  · rw [heq]
    exact (idles_spawn _ e).trans (idles_onClient rfl rfl id id)

theorem idles_register (r : Registration Subscriber) (e : Engine) : Idles e (e.register r) := by
  have hc : Idles e (e.onClient fun c => { c with subscribers := c.subscribers.register r }) :=
    idles_onClient rfl rfl id id
  have he : Idles e (e.enlist r) := hc.trans (idles_note rfl _)
  rcases register_cases r e with heq | ⟨_, level, message, heq⟩
  · rw [heq]
    exact he
  · rw [heq]
    exact (he.trans (idles_tallies (agrees_log level message _).toTallies)).trans (idles_spawn _ _)

theorem idles_settleAll (f : Failure) : ∀ {pending : Table Nat Ref} {e : Engine},
    (∀ r ∈ pending.map Prod.snd, ∃ id, r = .answer id) →
      Idles e (pending.foldl (fun e (_, answer) => e.settle answer (.failure f)) e)
  | [], e, _ => idles_tallies (.refl e)
  | (_, r) :: rest, e, h => by
      obtain ⟨id, rfl⟩ := h r (List.mem_cons_self ..)
      have hs : Idles e (e.settle (.answer id) (.failure f)) :=
        idles_settle (fun _ h => by cases h) (fun _ h => by cases h) e
      exact hs.trans (idles_settleAll f fun r hr => h r (List.mem_cons_of_mem _ hr))

theorem idles_enroll (name : String) (e : Engine) : Idles e (e.enroll name).2 := by
  have hc : Idles e (e.onClient fun c => (c.enroll name).2) := idles_onClient rfl rfl id id
  exact (hc.trans (idles_promise (.inr ⟨_, rfl⟩) _)).trans (idles_note rfl _)

theorem mute_request {method : Json} {name : String} (h : Message.requestMethod method = .ok name)
    (id params : Json) : (Event.handed (Message.request id method params)).mute = true := by
  have hopen := Message.isOf_request h id params "textDocument/didOpen" (by decide +kernel)
  have hchange := Message.isOf_request h id params "textDocument/didChange" (by decide +kernel)
  simp [Event.mute, hopen, hchange]

/-! ### The moves -/

/-- What a step can mean to a document. -/
inductive Moves : Config → Config → Prop where
  | idle {c c' : Config} : Idles c.2 c'.2 → Stays c.1 c'.1 → Moves c c'
  | closed {c c' : Config} : c'.2.client.closed = true → Moves c c'
  | handshake {st : List Frame} {e : Engine} : Moves (st, e) (st, e.startHandshake.2)
  | agreed {st st' : List Frame} {e : Engine} (capabilities : Json) : Stays st st' →
      Moves (st, e) (st', (e.agree capabilities).note (.handed initialized))
  | preset {st : List Frame} {e : Engine} (doc : Nat) (text : Option (List Char)) :
      Moves (.begin (.openDocument doc text) :: st, e) (.readyToOpen doc :: st, e.preset doc text)
  | opening {st : List Frame} {e : Engine} {doc : Nat} {s : Session} {v : Value} :
      e.handshakeOutcome = .value v → e.session? doc = some s →
      Moves (.readyToOpen doc :: st, e)
        (.gate (.notify "textDocument/didOpen") (didOpen s.document)
            :: .openSent doc s.document.text :: st,
          e.speak doc (didOpen s.document))
  | opened {st : List Frame} {e : Engine} (doc : Nat) (sent : List Char) :
      Moves (.openSent doc sent :: st, e) (st, e.noteOpened doc sent)
  | unscheduled {st st' : List Frame} {e : Engine} {doc : Nat} : Stays st st' →
      (e.cancelSlot doc).1 = false → Moves (st, e) (st', (e.cancelSlot doc).2)
  | flush {st st' : List Frame} {e : Engine} {c₁ c' : Config} {doc : Nat} : Stays st st' →
      Clears doc (st', e) c₁ → Sends doc c₁ c' → Moves (st, e) c'

/-- What the answers of requests that wait are called. -/
theorem Correlated.values (h : Correlated c) :
    ∀ r ∈ c.2.client.pending.map Prod.snd, ∃ id, r = .answer id := by
  intro r hr
  obtain ⟨⟨id, r⟩, hmem, rfl⟩ := List.mem_map.mp hr
  exact ⟨id, h.refs id r (Table.get?_of_mem h.nodup hmem)⟩

theorem stays_asks {name : String} (h : Asks e name st st') : Stays st st' := by
  cases h with
  | ready => exact .refl st
  | late hf hf' =>
    obtain ⟨ho, hn⟩ := Frame.orderly_of_answers hf'
    exact (stays_tail _ _).trans (stays_cons ho hn _)
  | resolving completion => exact (stays_tail _ _).trans (stays_cons rfl rfl _)
  | told method params limit => exact stays_tail _ _
  | handshake => exact (stays_tail _ _).trans (stays_cons rfl rfl _)

/-- Every step is one of the moves, if the frames are in order and nothing follows edits. -/
theorem Step.moves (hs : Step c c') (hc : Correlated c) (ho : ∀ f ∈ c.1, f.orderly = true)
    (hh : ∀ s ∈ c.2.sessions, s.hook = .none) : Moves c c' := by
  cases hs with
  | agree ha => exact .idle (idles_tallies ha) (.refl _)
  | push hf =>
    exact .idle (idles_tallies (.refl _))
      (stays_cons (Frame.orderly_of_plain hf) (Frame.opens_of_plain hf) _)
  | @pose _ _ doc _ feature => exact .idle (idles_pose doc feature _) (.refl _)
  | late hf _ _ _ hr =>
    obtain ⟨ho, hn⟩ := Frame.orderly_of_late (Frame.late_of_question hf)
    cases hr with
    | idle hnone => exact .unscheduled (stays_cons ho hn _) hnone
    | sends hsome hs => exact .flush (stays_cons ho hn _) (.cancelled hsome) hs
  | remark hr => exact .idle (idles_note (mute_of_remarks hr) _) (.refl _)
  | unasked _ hf' =>
    obtain ⟨ho, hn⟩ := Frame.orderly_of_answers hf'
    exact .idle (idles_tallies (.refl _)) ((stays_tail _ _).trans (stays_cons ho hn _))
  | shown presented => exact .idle (idles_shown _ _ presented _) (.refl _)
  | gathers => exact .idle (idles_tallies (.refl _)) ((stays_tail _ _).trans (stays_cons rfl rfl _))
  | pop => exact .idle (idles_tallies (.refl _)) (stays_tail _ _)
  | promise hr => exact .idle (idles_promise (.inl (Ref.ofWait_of_sole hr)) _) (.refl _)
  | gather members tolerant => exact .idle (idles_gather members tolerant _) (.refl _)
  | settle ha hr =>
    exact .idle ((idles_tallies ha.toTallies).trans (idles_settle_free hr _)) (.refl _)
  | spawn => exact .idle (idles_spawn _ _) (.refl _)
  | call limit ha hm =>
    exact .idle ((idles_enroll _ _).trans (idles_note (mute_request hm _ _) _))
      ((stays_asks ha).trans (stays_cons rfl rfl _))
  | @await st e f f' id _ hf hf' =>
    obtain ⟨ho, hn⟩ := Frame.orderly_of_request hf'
    exact .idle (idles_tallies (.refl _)) ((stays_tail f st).trans (stays_cons ho hn st))
  | @abandon st e e₁ f f' id _ hf' _ ha =>
    obtain ⟨ho, hn⟩ := Frame.orderly_of_request hf'
    have hs : Idles e₁ (e₁.settle (.answer id) .cancelled) :=
      idles_settle (fun _ h => by cases h) (fun _ h => by cases h) e₁
    exact .idle ((idles_tallies ha.toTallies).trans hs)
      ((stays_tail f st).trans (stays_cons ho hn st))
  | @endRequest st e f id o =>
    have hd : Idles e (e.onClient (·.discharge id)) := idles_onClient rfl rfl (fun h => h) fun h => h
    exact .idle (hd.trans (idles_note rfl _)) (stays_tail _ _)
  | reply id =>
    exact .idle (idles_note rfl _) ((stays_tail _ _).trans (stays_cons rfl rfl _))
  | read =>
    exact .idle (idles_tallies (.refl _)) ((stays_tail _ _).trans (stays_cons rfl rfl _))
  | notify =>
    have hfalse := ho _ (List.mem_cons_self ..)
    cases hfalse
  | @transmit st e purpose message =>
    have hi : Idles e (e.onChannel fun c => { c with sent := c.sent ++ [message] }) :=
      idles_onChannel _ e
    exact .idle hi (.refl _)
  | @unload st e rest =>
    have hi : Idles e (e.onChannel fun c => { c with inbox := rest }) := idles_onChannel _ e
    exact .idle hi (.refl _)
  | take => exact .idle (idles_note rfl _) (.refl _)
  | @oblige st e e' m _ ha =>
    have hnote : Idles e (e.note (.taken m)) := idles_note rfl e
    exact .idle ((hnote.trans (idles_tallies ha.toTallies)).trans (idles_spawn _ _)) (.refl _)
  | @respond st e e' m hr he =>
    have hnote : Idles e (e.note (.taken m)) := idles_note rfl e
    rcases resolve_cases he with ⟨ha, _⟩ | ⟨n, answer, o, _, hp, _, _, rfl⟩
    · exact .idle (hnote.trans (idles_tallies ha)) (.refl _)
    · obtain rfl := hc.refs n answer hp
      refine .idle (hnote.trans (idles_settle ?_ ?_ _)) (.refl _)
      · intro m h
        cases h
      · intro k h
        cases h
  | register r => exact .idle (idles_register r _) (.refl _)
  | notified => exact .idle (idles_note rfl _) (.refl _)
  | startReader => exact .idle (idles_startReader _) (.refl _)
  | handshake => exact .handshake
  | agreed capabilities result =>
    exact .agreed capabilities
      (((stays_tail _ _).trans (stays_cons rfl rfl _)).trans (stays_cons rfl rfl _))
  | agreedClosed capabilities result hclosed => exact .closed hclosed
  | @ready st e result =>
    have hready : Idles e (e.onClient fun c => { c with ready := true }) :=
      idles_onClient rfl rfl (fun _ => rfl) fun h => h
    exact .idle hready (stays_tail _ _)
  | close => exact .closed rfl
  | cancelReader =>
    have hfalse := ho _ (List.mem_cons_self ..)
    cases hfalse
  | join => exact .idle (idles_tallies (.refl _)) ((stays_tail _ _).trans (stays_cons rfl rfl _))
  | joined message =>
    exact .idle ((idles_settleAll _ hc.values).trans (idles_note rfl _)) (stays_tail _ _)
  | joinedFailed => exact .idle (idles_note rfl _) (stays_tail _ _)
  | shutDown => exact .closed (flags_shutDown _).1
  | crash => exact .closed (flags_shutDown _).1
  | preset doc text => exact .preset doc text
  | opening hv hsession => exact .opening hv hsession
  | openingClosed sent hclosed => exact .closed hclosed
  | opened doc sent => exact .opened doc sent
  | edit text changes hsession hhook => exact absurd (hh _ (List.mem_of_getElem? hsession)) hhook
  | @delay st e slot ms work =>
    have hd : (Frame.delayOver slot work).orderly = true := by
      have hb := ho _ (List.mem_cons_self ..)
      cases work with
      | flush doc => exact hb
      | rehearsal name takes fails => cases hb
    exact .idle (idles_tallies (.refl _)) ((stays_tail _ st).trans (stays_cons hd rfl st))
  | rehearse =>
    have hfalse := ho _ (List.mem_cons_self ..)
    cases hfalse
  | unscheduled h => exact .unscheduled (.refl _) h
  | flush hc hs => exact .flush (.refl _) hc hs

end Engine

end LanguageClient
