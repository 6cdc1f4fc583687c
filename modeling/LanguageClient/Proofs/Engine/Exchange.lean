import LanguageClient.Proofs.Engine.Lasting

/-!
Runs of tasks as paths of steps. A run that ends, waits or pauses has come there by steps, and the
frames that it leaves stand on top of the stack (`Leads`). Where a run goes on with the result of
another, the frame that would wait for the result is put on the stack first and taken off when the
result is there (`Leads.andThen`), so it makes no difference whether the other run had to wait.

This module follows messages: handing them over, the gate, and the wait for an answer.
-/

namespace LanguageClient.Engine

/-- What a task may wait for: a promise that was made for that since a moment, or the end of the
    reader. -/
def Awaits (since : Nat) (e : Engine) (p : Ref) : Prop :=
  (p.ofWait = true ∧ since ≤ p.number ∧ p.number < e.nextRef) ∨ e.client.reader = some p

/-- A run that starts in a configuration comes by steps to where it ends or waits, above the given
    stack. -/
def Leads (c : Config) (st : List Frame) : Run → Prop
  | (e, .done _) => Path c (st, e)
  | (e, .wait p frames) => Path c (frames ++ st, e) ∧ e.Awaits c.2.nextRef p
  | (e, .pause frames) => Path c (frames ++ st, e)

section

variable {c c' : Config} {st st' : List Frame} {e e' : Engine} {f : Frame} {run : Run}

theorem Leads.of_path (h : Path c c') (hr : Leads c' st run) : Leads c st run := by
  obtain ⟨e, _ | _ | _⟩ := run
  · exact h.trans hr
  · exact ⟨h.trans hr.1, hr.2.imp (fun ⟨hw, hle, hlt⟩ =>
      ⟨hw, Nat.le_trans (Path.lasts h).nextRef hle, hlt⟩) id⟩
  · exact h.trans hr

theorem path_newPromise {kind : Nat → Ref} (h : (kind e.nextRef).sole = true) :
    Path (st, e) (st, (e.newPromise kind).2) := by
  have ha : Agrees e { e with nextRef := e.nextRef + 1 } := agrees_of_same (Nat.le_succ _) rfl
  exact (Relation.ReflTransGen.single (.agree ha)).tail (.promise h)

/-- A run that makes a promise and waits for it. -/
theorem Leads.waits {kind : Nat → Ref} {frames : List Frame} (hk : (kind e.nextRef).sole = true)
    (hn : (kind e.nextRef).number = e.nextRef)
    (h : Path (st', (e.newPromise kind).2) (frames ++ st, e')) :
    Leads (st', e) st (e', .wait (kind e.nextRef) frames) := by
  refine ⟨(path_newPromise hk).trans h, .inl ⟨Ref.ofWait_of_sole hk, Nat.le_of_eq hn.symm, ?_⟩⟩
  rw [hn]
  exact Nat.lt_of_lt_of_le (Nat.lt_succ_self _) (Path.lasts h).nextRef

theorem Leads.of_step (h : Step c c') (hr : Leads c' st run) : Leads c st run :=
  hr.of_path (.single h)

theorem leads_finish (o : Outcome) : Leads (st, e) st (e.finish o) := .refl

theorem leads_answer (v : Value) : Leads (st, e) st (e.answer v) := .refl

theorem leads_fail (x : Failure) : Leads (st, e) st (e.fail x) := .refl

/-- A frame that waits for no request is taken off. -/
theorem Leads.pop (hf : f.request? = none) (h : Leads (st, e) st run) : Leads (f :: st, e) st run :=
  h.of_step (.pop hf)

theorem Leads.agree (ha : Agrees e e') (h : Leads (st, e') st run) : Leads (st, e) st run :=
  h.of_step (.agree ha)

/-- Going on with the result of a run: the frame stands on the stack until the result is there. -/
theorem Leads.andThen {next : Outcome → Engine → Run} (h : Leads c (f :: st) run)
    (hn : ∀ o e, Leads (f :: st, e) st (next o e)) : Leads c st (Engine.andThen run f next) := by
  obtain ⟨e, o | ⟨p, frames⟩ | frames⟩ := run
  · exact (hn o e).of_path h
  · simpa only [Leads, Engine.andThen, List.append_assoc, List.singleton_append] using h
  · simpa only [Leads, Engine.andThen, List.append_assoc, List.singleton_append] using h

/-- The frame that waits for the result of a run is put on the stack first. -/
theorem Leads.then {next : Outcome → Engine → Run} (hf : f.plain = true)
    (h : Leads (f :: st, e) (f :: st) run) (hn : ∀ o e, Leads (st, e) st (next o e)) :
    Leads (st, e) st (Engine.andThen run f next) :=
  (Leads.andThen h fun o e => (hn o e).pop (Frame.request?_of_plain hf)).of_step (.push hf)

theorem leads_withSession {doc : Nat} {k : Session → Run} (hnone : Path c (st, e))
    (h : ∀ s, e.session? doc = some s → Leads c st (k s)) : Leads c st (e.withSession doc k) := by
  unfold withSession
  split
  · exact h _ (by assumption)
  · exact hnone

/-! ### Promises -/

theorem leads_sleep (ms : Int) : Leads (st, e) st (e.sleep ms) := by
  unfold sleep
  split
  · exact .refl
  · exact .waits rfl rfl (.single (.agree (agrees_setTimer ms _ _)))

theorem path_openGates : ∀ {ns : List Nat} {e : Engine},
    Path (st, e) (st, ns.foldl (fun e n => e.settle (.gate n) (.value .nothing)) e)
  | [], _ => .refl
  | n :: _, _ => by
      have hfree : (Ref.gate n).Free (.value .nothing) := rfl
      exact .head (.settle_free hfree (by simp) (by simp)) path_openGates

/-! ### Handing messages over -/

theorem path_arrive (x : Inbound) : Path (st, e) (st, e.arrive x) := by
  have ha : Agrees e (e.onChannel fun c => { c with inbox := c.inbox ++ [x], getter := none }) :=
    agrees_onChannel rfl rfl (List.prefix_append _ _)
  unfold arrive
  cases e.channel.getter with
  | none => exact .single (.agree ha)
  | some n =>
    have hfree : (Ref.arrival n).Free (.value .nothing) := rfl
    exact (Relation.ReflTransGen.single (.agree ha)).tail (.settle_free hfree (by simp) (by simp))

theorem path_serverGets (message : Json) : Path (st, e) (st, e.serverGets message) := by
  unfold serverGets
  split
  · rename_i method id _ _
    have ha : Agrees e (e.onChannel fun c => { c with script := (e.channel.script.next method).2 }) :=
      agrees_onChannel rfl rfl List.prefix_rfl
    simp only
    split
    · exact .single (.agree ha)
    · split
      · exact .head (.agree ha) (path_arrive _)
      · exact .single (.agree (ha.trans (agrees_setTimer _ _ _)))
  · exact .refl

theorem path_transmit (purpose : Purpose) (message : Json) :
    Path (.gate purpose message :: st, e) (.gate purpose message :: st, (e.transmit message).2) := by
  unfold transmit
  split
  · exact .refl
  · split
    · exact .refl
    · exact .head (.transmit purpose message) (path_serverGets message)

/-- Why a message may be refused: the connection is closed, or it fails to send. The state is then as
    it was. -/
theorem transmit_error {message : Json} {x : Failure} (h : (e.transmit message).1 = .error x) :
    (e.transmit message).2 = e ∧
      (x = .transportClosed "memory transport closed" ∨ e.channel.sendFailure = some x) := by
  unfold transmit at h ⊢
  split at h
  · simp only [Except.error.injEq] at h
    simp [*]
  · cases hs : e.channel.sendFailure with
    | none => simp [hs] at h
    | some y =>
      simp only [hs, Except.error.injEq] at h
      simp [*]

/-! ### Waiting for an answer -/

variable {id : Nat} {frame : Frame}

theorem leads_endRequest {o : Outcome} (hf : f.request? = some id) (ho : Ending id e o) :
    Leads (f :: st, e) st (e.endRequest id o) :=
  .single (.endRequest hf ho)

theorem leads_abandon (hf : f.request? = some id) (hf' : frame.request? = some id)
    (hg : frame.hopes = false) (hc : frame.call? = none ∨ frame.call? = f.call?) :
    Leads (f :: st, e) st (e.abandon id frame) :=
  .waits rfl rfl (.single (.abandon hf hf' hg (agrees_listen _ _ _ (by simp)) hc))

theorem leads_awaitAnswer {method : String} {limit : Int} (hf : f.request? = some id)
    (hc : f.call? = some (id, method)) (hg : f.gated = true) :
    Leads (f :: st, e) st (e.awaitAnswer id method limit) := by
  unfold awaitAnswer
  split
  · split
    · rename_i o ho
      exact leads_endRequest hf (.answered ho)
    · exact leads_abandon hf rfl rfl (.inr hc.symm)
  · exact .waits rfl rfl (((Relation.ReflTransGen.single (.agree (agrees_setTimer _ _ _))).tail
      (.agree (agrees_listen _ _ _ (by simp)))).tail (.await hg hf rfl rfl hc.symm))

theorem leads_requestAnswered {method : String} {limit : Int} {waiter timer : Nat} (o : Outcome)
    (hf : f.request? = some id) (hc : f.call? = some (id, method)) :
    Leads (f :: st, e) st (requestAnswered id method limit waiter timer o e) := by
  refine Leads.of_step (.agree (agrees_dropTimer timer e)) ?_
  unfold requestAnswered
  simp only
  split
  · rename_i o' _ ho
    exact leads_endRequest hf (.answered ho)
  · exact Leads.of_step (.agree (agrees_unlisten _ (by simp) (by simp) _)) (leads_abandon hf rfl rfl (.inl rfl))
  · exact Leads.of_step (.agree (agrees_unlisten _ (by simp) (by simp) _)) (leads_abandon hf rfl rfl (.inr hc.symm))

theorem leads_requestExpired {method : String} {limit : Int} (o : Outcome)
    (hf : f.request? = some id) : Leads (f :: st, e) st (requestExpired id method limit o e) := by
  unfold requestExpired
  split
  · exact leads_endRequest hf .cancelled
  · exact leads_endRequest hf (.timedOut method limit)

/-! ### Sending -/

theorem leads_passed_ok {purpose : Purpose} {message : Json} :
    Leads (.gate purpose message :: st, e) st (passed purpose (.ok ()) e) := by
  cases purpose with
  | request id method limit =>
    exact Leads.of_step (.agree (agrees_log _ _ _)) (leads_awaitAnswer rfl rfl rfl)
  | notify method => exact .head (.agree (agrees_log _ _ _)) (.single (.pop rfl))
  | reply id => exact .single (.pop rfl)

theorem leads_passed_error {purpose : Purpose} {message : Json} {x : Failure}
    (hx : x = .transportClosed "memory transport closed" ∨ e.channel.sendFailure = some x) :
    Leads (.gate purpose message :: st, e) st (passed purpose (.error x) e) := by
  cases purpose with
  | request id method limit =>
    rcases hx with rfl | hx
    · exact leads_endRequest rfl (.closed _)
    · exact leads_endRequest rfl (.unsent method hx)
  | notify method =>
    simp only [passed]
    split
    · exact .head (.agree (agrees_log _ _ _)) (.single (.pop rfl))
    · exact .single (.pop rfl)
  | reply id =>
    simp only [passed]
    split
    · exact .head (.agree (agrees_log _ _ _)) (.single (.pop rfl))
    · exact .single (.pop rfl)

theorem leads_pass (purpose : Purpose) (message : Json) :
    Leads (.gate purpose message :: st, e) st (e.pass purpose message) := by
  unfold pass
  split
  · exact .waits rfl rfl (.single (.agree (agrees_onChannel rfl rfl List.prefix_rfl)))
  · simp only
    cases h : (e.transmit message).1 with
    | ok u => exact leads_passed_ok.of_path (path_transmit purpose message)
    | error x =>
      obtain ⟨hstate, hx⟩ := transmit_error h
      rw [hstate]
      exact leads_passed_error hx

theorem leads_gateOpened (purpose : Purpose) (message : Json) (o : Outcome) :
    Leads (.gate purpose message :: st, e) st (gateOpened purpose message o e) := by
  unfold gateOpened
  split
  · cases purpose with
    | request id method limit => exact leads_endRequest rfl .cancelled
    | notify method => exact .single (.pop rfl)
    | reply id => exact .single (.pop rfl)
  · exact leads_pass purpose message

/-- A request, however it goes on. If it is not even begun, the frames are the same. -/
theorem leads_request {st' : List Frame} (method params : Json) (limit : Int)
    (hp : Path (st, e) (st', e))
    (ha : ∀ name, Message.requestMethod method = .ok name → Asks e name st st') :
    Leads (st, e) st' (e.request method params limit) := by
  unfold request
  split
  · exact hp
  · rename_i name hname
    split
    · exact hp
    · rename_i hclosed
      exact Leads.of_step (.call _ (ha name hname) hname (by simpa using hclosed)) (leads_pass _ _)

theorem requestMethod_str {name name' : String} (h : Message.requestMethod (.str name) = .ok name') :
    name' = name := by
  simp only [Message.requestMethod, Json.asKey, bind, Except.bind, pure, Except.pure] at h
  split at h
  · exact (Except.ok.inj h).symm
  · cases h

/-- A request of a client that is ready. -/
theorem leads_request_ready {name : String} (hr : e.client.ready = true) (hn : name ≠ "initialize")
    (params : Json) (limit : Int) : Leads (st, e) st (e.request (.str name) params limit) := by
  refine leads_request _ params limit .refl fun name' h => .ready hr ?_
  rw [requestMethod_str h]
  exact hn

/-- A question that is asked once the changes of its document have been sent. -/
theorem leads_request_late {name : String} {f f' : Frame} {q : Nat × Feature × Nat}
    (hf : f.question? = some q) (hf' : f'.answers? = some q) (hn : name ≠ "initialize")
    (params : Json) (limit : Int) :
    Leads (f :: st, e) (f' :: st) (e.request (.str name) params limit) := by
  refine leads_request _ params limit (.single (.unasked hf hf')) fun name' h => .late hf hf' ?_
  rw [requestMethod_str h]
  exact hn

theorem leads_reply (id : Json) : Leads (.begin (.reply id) :: st, e) st (e.reply id) :=
  Leads.of_step (.reply id) (leads_pass _ _)

/-- A notification that was asked for as an operation. -/
theorem leads_notify (method params : Json) :
    Leads (.begin (.notify method params) :: st, e) st (e.notify method params) := by
  unfold notify
  split
  · exact (leads_fail _).pop rfl
  · rename_i name hname
    split
    · exact Leads.pop rfl (.agree (agrees_log _ _ _) (leads_answer _))
    · rename_i hclosed
      exact Leads.of_step (.notify hname (by simpa using hclosed)) (leads_pass _ _)

/-- A notification that speaks for a document is handed over. -/
theorem notifyFor_of_open {method : String} (hm : Message.notifyMethod (.str method) = .ok method)
    (hc : e.client.closed = false) (doc : Nat) (params : Json) :
    e.notifyFor doc method params =
      (e.speak doc (Message.notification (.str method) params)).pass (.notify method)
        (Message.notification (.str method) params) := by
  simp [notifyFor, notify, hm, hc, send, speak, note]

theorem notifyFor_of_closed {method : String} (hm : Message.notifyMethod (.str method) = .ok method)
    (hc : e.client.closed = true) (doc : Nat) (params : Json) :
    e.notifyFor doc method params =
      (e.log .warning ("transport closed, dropping notification " ++ method)).answer .nothing := by
  simp [notifyFor, notify, hm, hc]

end

end LanguageClient.Engine
