import LanguageClient.Proofs.Engine.Exchange

/-!
Runs of the handshake, of the reader and of closing as paths of steps. The reader is the only task
that takes up messages: a response is handed to its request in the same step in which it is taken up,
and a message that cannot be handled ends the reader in the same step.
-/

namespace LanguageClient.Engine

variable {c : Config} {st : List Frame} {e e' : Engine}

/-! ### Starting -/

theorem path_start : Path (st, e) (st, e.start.2) := .head .startReader (.single .handshake)

/-- Going on once the handshake is over: the frame stands on the stack until then. -/
theorem leads_awaitHandshake {frame : Frame} {next : Outcome → Engine → Run}
    (hn : ∀ e, Leads (frame :: st, e) st (next e.handshakeOutcome e)) :
    Leads (frame :: st, e) st (e.awaitHandshake frame next) := by
  unfold awaitHandshake
  refine Leads.of_path path_start ?_
  simp only
  split
  · exact hn _
  · exact .waits rfl rfl (.single (.agree (agrees_listen _ _ _ (by simp))))

theorem leads_handshakeAwaited {frame : Frame} {next : Outcome → Engine → Run} (o : Outcome)
    (hc : Leads (frame :: st, e) st (next .cancelled e))
    (hn : Leads (frame :: st, e) st (next e.handshakeOutcome e)) :
    Leads (frame :: st, e) st (handshakeAwaited next o e) := by
  unfold handshakeAwaited
  split
  · exact hc
  · exact hn

theorem leads_waitReady : Leads (st, e) st e.waitReady :=
  Leads.of_step (.push rfl) (leads_awaitHandshake fun _ => (leads_finish _).pop rfl)

/-! ### The handshake -/

/-- The server is told that the handshake is over, unless the connection is closed. -/
theorem leads_initialized (capabilities result : Json) :
    Leads (.handshakeAnswered :: st, e) (.handshakeAnnounced result :: st)
      ((e.agree capabilities).notify (.str "initialized") (.obj [])) := by
  have hname : Message.notifyMethod (.str "initialized") = .ok "initialized" := rfl
  unfold notify
  simp only [hname]
  split
  · rename_i hclosed
    exact .head (.agreedClosed capabilities result hclosed) (.single (.agree (agrees_log _ _ _)))
  · rename_i hclosed
    exact Leads.of_step (.agreed capabilities result (by simpa [agree, onClient, note] using hclosed))
      (leads_pass _ _)

theorem leads_handshakeAnnounced (result : Json) (o : Outcome) :
    Leads (.handshakeAnnounced result :: st, e) st (handshakeAnnounced result o e) := by
  unfold handshakeAnnounced
  split
  · refine Leads.of_step (.ready result) ?_
    simp only
    split
    · exact .agree (agrees_log _ _ _) (leads_answer _)
    · exact leads_fail _
  · exact (leads_finish _).pop rfl

theorem leads_handshakeAnswered (o : Outcome) :
    Leads (.handshakeAnswered :: st, e) st (handshakeAnswered o e) := by
  unfold handshakeAnswered
  split
  · simp only
    split
    · exact (leads_fail _).pop rfl
    · exact (leads_initialized _ _).andThen fun o e => leads_handshakeAnnounced _ o
  · exact (leads_finish _).pop rfl

theorem leads_handshake : Leads (.begin .handshake :: st, e) st e.handshake := by
  have hname : Message.requestMethod (.str "initialize") = .ok "initialize" := rfl
  unfold handshake
  simp only
  split
  · exact (leads_fail _).pop rfl
  · unfold request
    simp only [hname]
    split
    · exact (leads_finish _).pop rfl
    · rename_i hclosed
      refine Leads.andThen ?_ fun o e => leads_handshakeAnswered o
      exact Leads.of_step (.call _ (.handshake rfl) hname (by simpa using hclosed)) (leads_pass _ _)

/-! ### Closing -/

theorem path_closeChannel : Path (st, e) (st, e.closeChannel) := by
  unfold closeChannel
  split
  · exact .refl
  · exact .head (.agree (agrees_onChannel rfl rfl List.prefix_rfl)) (path_arrive _)

theorem leads_disconnect : Leads (st, e) st e.disconnect := by
  unfold disconnect
  split
  · exact leads_answer _
  · split
    · exact .waits rfl rfl ((Relation.ReflTransGen.single (.agree (agrees_onChannel rfl rfl List.prefix_rfl))).tail
        (.push rfl))
    · exact .of_path path_closeChannel (leads_answer _)

theorem leads_lingered (o : Outcome) : Leads (st, e) st (lingered o e) := by
  unfold lingered
  split
  · exact .of_path (path_arrive _) (leads_answer _)
  · exact leads_finish _

theorem leads_readerJoined (o : Outcome) : Leads (.readerJoined :: st, e) st (readerJoined o e) := by
  unfold readerJoined
  have hfailed {f : Failure} (h : e.client.reader.bind e.outcome? = some (.failure f)) :
      Leads (.readerJoined :: st, e) st ((e.note .closingEnded).fail f) := by
    obtain ⟨r, hr, ho⟩ := Option.bind_eq_some_iff.mp h
    exact .single (.joinedFailed hr ho)
  split
  · rename_i h
    exact hfailed h
  · rename_i h
    exact hfailed h
  · exact .single (.joined _)

theorem leads_hungUp (o : Outcome) : Leads (.hungUp :: st, e) st (hungUp o e) := by
  unfold hungUp
  split
  · split
    · exact .of_step .join (leads_readerJoined _)
    · rename_i r hr
      refine .of_step (.cancelReader hr) (.of_step .join ?_)
      simp only
      split
      · exact leads_readerJoined _
      · exact ⟨.refl, .inr ((cancels_cancel r e).client ▸ hr)⟩
  · exact (leads_finish _).pop rfl

theorem leads_close : Leads (.begin .close :: st, e) st e.close := by
  unfold close
  split
  · exact (leads_answer _).pop rfl
  · exact .of_step .close (leads_disconnect.andThen fun o _ => leads_hungUp o)

/-! ### Subscribers -/

theorem path_registerAll : ∀ {rs : List (Registration Subscriber)} {e : Engine},
    Path (st, e) (st, rs.foldl (fun e r => e.register r) e)
  | [], _ => .refl
  | r :: _, _ => .head (.register r) path_registerAll

theorem path_spawnFor {doc : Nat} {op : Operation} (h : op.internal = true) :
    Path (st, e) (st, (e.spawnFor doc op).2) := by
  have ha : Agrees (e.spawn op).2 ((e.spawn op).2.onSession doc fun s =>
      { s with background := s.background ++ [(e.spawn op).1] }) := by
    refine agrees_onSession ?_ _ fun _ => rfl
    intro s
    rfl
  exact .head (.spawn h) (.tail (.single (.agree ha)) (.agree (agrees_listen _ _ _ (by simp))))

theorem path_tellDocument (doc : Nat) (method params : Json) :
    Path (st, e) (st, e.tellDocument doc method params) := by
  unfold tellDocument
  split
  · exact path_spawnFor rfl
  · exact .refl

theorem path_tellSink (name : String) (method params : Json) :
    Path (st, e) (st, (e.tellSink name method params).2) := by
  unfold tellSink
  split
  · exact .refl
  · rename_i sink _
    have ha : Agrees e { e with
        sinks := e.sinks.put name { sink with calls := sink.calls ++ [(method, params)] } } :=
      agrees_of_same (Nat.le_refl _) rfl
    refine .head (.agree ha) (.trans ?_ path_registerAll)
    split
    · exact .single (.register (.detach (.sink name)))
    · exact .refl

theorem path_tell (method params : Json) (x : Subscriber) :
    Path (.received :: st, e) (.received :: st, tell method params e x) := by
  refine .head (.notified x method params) ?_
  unfold tell
  cases x with
  | document doc => exact path_tellDocument doc method params
  | sink name =>
    have h : Path (.received :: st, e.note (.notified (.sink name) method params))
        (.received :: st,
          ((e.note (.notified (.sink name) method params)).tellSink name method params).2) :=
      path_tellSink name method params
    simp only
    split
    · rename_i h'
      rwa [h'] at h
    · rename_i h'
      rw [h'] at h
      exact h.tail (.agree (agrees_log _ _ _))

theorem path_tellAll (method params : Json) : ∀ {xs : List Subscriber} {e : Engine},
    Path (.received :: st, e) (.received :: st, xs.foldl (tell method params) e)
  | [], _ => .refl
  | x :: _, _ => (path_tell method params x).trans (path_tellAll method params)

/-! ### What comes of a message -/

/-- A line may have been written into the log. -/
inductive Logs (e : Engine) : Engine → Prop where
  | nothing : Logs e e
  | line (level : Level) (message : String) : Logs e (e.log level message)

theorem Logs.history (h : Logs e e') : e'.history = e.history := by
  cases h <;> rfl

theorem Logs.client (h : Logs e e') : e'.client = e.client := by
  cases h <;> rfl

/-- What comes of a message that is handled: a request is going to be answered, a response is for the
    request that waits for it, a notification is told to all who are attached, and nothing comes of
    any other message. -/
inductive Handles (m : Json) (e : Engine) : Engine → Prop where
  | request (line : String) : Message.isServerRequest m = true →
      Handles m e ((e.log .debug line).spawn (.reply (Json.ofOption (m.member? "id")))).2
  | response {e' : Engine} : Message.isResponse m = true →
      e.resolve (Json.ofOption (m.member? "id")) m = .ok e' → Handles m e e'
  | notification {e₁ : Engine} : Message.isServerRequest m = false →
      Message.isNotification m = true → Logs e e₁ →
      Handles m e (e₁.client.subscribers.foldl (tell (Json.ofOption (m.member? "method"))
        (Json.ofOption (m.member? "params"))) e₁)
  | other : Message.isServerRequest m = false → Message.isNotification m = false → Handles m e e

theorem dispatch_cases {method params : Json} (h : e.dispatch method params = .ok e') :
    ∃ e₁, Logs e e₁ ∧ e' = e₁.client.subscribers.foldl (tell method params) e₁ := by
  unfold dispatch at h
  simp only [bind, Except.bind, pure, Except.pure] at h
  split at h
  · cases h
  · rename_i record _
    cases h
    cases record with
    | none => exact ⟨_, .nothing, rfl⟩
    | some r => exact ⟨_, .line r.1 r.2, rfl⟩

theorem handles_of_handle {m : Json} (h : e.handle m = .ok e') : Handles m e e' := by
  unfold handle at h
  simp only at h
  split at h
  · rename_i hs
    cases h
    exact .request _ hs
  · rename_i hs
    rw [Bool.not_eq_true] at hs
    split at h
    · rename_i hr
      exact .response hr h
    · split at h
      · rename_i hn
        obtain ⟨e₁, hlogs, rfl⟩ := dispatch_cases h
        exact .notification hs hn hlogs
      · rename_i hn
        cases h
        exact .other hs (by simpa using hn)

/-- A frame that holds no message is remarked upon; a message is taken up, and then handled. -/
theorem handleFrame_cases {frame : String} (h : (e.noteFrame frame).handleFrame frame = .ok e') :
    (Message.read? frame = .ok none ∧ e' = e.log .warning (malformed frame)) ∨
      ∃ m, Message.read? frame = .ok (some m) ∧ (e.note (.taken m)).handle m = .ok e' := by
  unfold handleFrame noteFrame at h
  cases hread : Message.read? frame with
  | error x => simp [hread, bind, Except.bind] at h
  | ok read =>
    cases read with
    | none =>
      simp only [hread, bind, Except.bind, pure, Except.pure, Except.ok.injEq] at h
      exact .inl ⟨rfl, h.symm⟩
    | some m =>
      simp only [hread, bind, Except.bind] at h
      exact .inr ⟨m, rfl, h⟩

/-! ### The reader -/

theorem path_logs (h : Logs e e') : Path (.received :: st, e) (.received :: st, e') := by
  cases h with
  | nothing => exact .refl
  | line => exact .single (.agree (agrees_log _ _ _))

/-- A message that is no response is taken up, and then handled. -/
theorem path_handle {m : Json} (hr : Message.isResponse m = false)
    (h : (e.note (.taken m)).handle m = .ok e') :
    Path (.received :: st, e) (.received :: st, e') := by
  cases handles_of_handle h with
  | request line hs => exact .single (.oblige hs (agrees_log _ _ _))
  | response hr' => rw [hr] at hr'; cases hr'
  | notification hs _ hlogs =>
    exact .head (.take hr hs) ((path_logs hlogs).trans (path_tellAll _ _))
  | other hs => exact .single (.take hr hs)

theorem isServerRequest_of_isResponse {m : Json} (hr : Message.isResponse m = true) :
    Message.isServerRequest m = false := by
  simp only [Message.isResponse, Bool.and_eq_true, Bool.not_eq_true'] at hr
  simp [Message.isServerRequest, hr.1]

theorem isResponse_of_isServerRequest {m : Json} (hs : Message.isServerRequest m = true) :
    Message.isResponse m = false := by
  simp only [Message.isServerRequest, Bool.and_eq_true] at hs
  simp [Message.isResponse, hs.1]

theorem handle_of_response {m : Json} (hr : Message.isResponse m = true) :
    e.handle m = e.resolve (Json.ofOption (m.member? "id")) m := by
  simp [handle, isServerRequest_of_isResponse hr, hr]

theorem leads_readerEnds (o : Outcome) : Leads (.received :: st, e) st (e.readerEnds o) :=
  .single .shutDown

theorem leads_readerFails (x : Failure) : Leads (.received :: st, e) st (e.readerFails x) := by
  unfold readerFails
  split
  · exact Leads.of_step (.agree (agrees_log _ _ _)) (leads_readerEnds _)
  · exact leads_readerEnds _

/-- The reader ends on a message that it has just taken up. -/
theorem leads_readerFails_taken {m : Json} (hs : Message.isServerRequest m = false) (x : Failure) :
    Leads (.received :: st, e) st ((e.note (.taken m)).readerFails x) := by
  unfold readerFails
  split
  · exact .single (.crash hs (agrees_log _ _ _))
  · exact .single (.crash hs (Agrees.refl _))

theorem path_handleFrame {frame : String} (h : (e.noteFrame frame).handleFrame frame = .ok e') :
    Path (.received :: st, e) (.received :: st, e') := by
  rcases handleFrame_cases h with ⟨_, rfl⟩ | ⟨m, _, h⟩
  · exact .single (.agree (agrees_log _ _ _))
  · cases hr : Message.isResponse m with
    | true =>
      rw [handle_of_response hr] at h
      exact .single (.respond hr h)
    | false => exact path_handle hr h

/-- Every request of the server can be handled. -/
theorem leads_handleFrame_error {frame : String} {x : Failure}
    (h : (e.noteFrame frame).handleFrame frame = .error x) :
    Leads (.received :: st, e) st ((e.noteFrame frame).readerFails x) := by
  unfold noteFrame at h ⊢
  split at h
  · rename_i m hread
    refine leads_readerFails_taken ?_ x
    cases hs : Message.isServerRequest m with
    | false => rfl
    | true => simp [handleFrame, hread, handle, hs, bind, Except.bind] at h
  · exact leads_readerFails x

theorem leads_readAll : ∀ {xs : List Inbound} {e : Engine},
    Leads (.received :: st, e) st (readAll xs e)
  | [], e => by
      unfold readAll
      split
      · exact leads_readerEnds _
      · exact .waits rfl rfl (.single (.agree (agrees_onChannel rfl rfl List.prefix_rfl)))
  | x :: xs, e => by
      unfold readAll
      refine Leads.of_step (.unload xs) ?_
      simp only
      split
      · exact leads_readerEnds _
      · exact leads_readerFails _
      · split
        · exact leads_handleFrame_error ‹_›
        · rename_i e' h
          exact leads_readAll.of_path (path_handleFrame h)

theorem leads_received (o : Outcome) : Leads (.received :: st, e) st (received o e) := by
  unfold received
  split
  · exact leads_readAll
  · exact leads_readerFails _
  · refine .of_step (.agree (agrees_onChannel ?_ rfl List.prefix_rfl)) (leads_readerEnds _)
    rfl

theorem leads_read : Leads (.begin .read :: st, e) st e.read := Leads.of_step .read leads_readAll

end LanguageClient.Engine
