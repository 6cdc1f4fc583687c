import LanguageClient.Proofs.Engine.Stretches

/-!
A request seen from the task that makes it. Until it ends, nothing comes of it but that it is there: no
document changes, nothing is shown, and the client stays what it is (`Unseen`). So a request either
leaves the task waiting for it or has ended (`Tends`), and the task then goes on with how it ended.

    called ──▶ handed ──▶ waits ··· waits ──▶ returned ──▶ the frames below go on
-/

namespace LanguageClient.Engine

/-- Some things have happened, and none of them can be seen: the documents are the same, and the client
    and what its server can do. -/
structure Unseen (news : List Event) (e e' : Engine) : Prop where
  sessions : e'.sessions = e.sessions
  ready : e'.client.ready = e.client.ready
  capabilities : e'.client.capabilities = e.client.capabilities
  history : e'.history = e.history ++ news

/-- The run of a request: it waits, or it has ended, and that was the last that has happened. -/
inductive Tends (id : Nat) (news : List Event) (e : Engine) : Run → Prop where
  | waits {e' : Engine} {p : Ref} {f : Frame} (hu : Unseen news e e') (hf : f.request? = some id) :
      Tends id news e (e', .wait p [f])
  | ends {e' : Engine} {o : Outcome} (hu : Unseen (news ++ [.returned id o]) e e') :
      Tends id news e (e', .done o)

variable {e e' : Engine} {f : Frame} {id : Nat} {news : List Event}

/-! ### What a request leaves alone -/

theorem Unseen.trans {e₁ e₂ e₃ : Engine} {more : List Event} (h : Unseen news e₁ e₂)
    (h' : Unseen more e₂ e₃) : Unseen (news ++ more) e₁ e₃ where
  sessions := h'.sessions.trans h.sessions
  ready := h'.ready.trans h.ready
  capabilities := h'.capabilities.trans h.capabilities
  history := by rw [h'.history, h.history, List.append_assoc]

theorem Unseen.then {e₁ e₂ e₃ : Engine} (h : Unseen news e₁ e₂) (h' : Unseen [] e₂ e₃) :
    Unseen news e₁ e₃ := List.append_nil news ▸ h.trans h'

theorem Unseen.after {e₁ e₂ e₃ : Engine} (h : Unseen [] e₁ e₂) (h' : Unseen news e₂ e₃) :
    Unseen news e₁ e₃ := h.trans h'

theorem unseen_of_same (hs : e'.sessions = e.sessions) (hc : e'.client = e.client)
    (hh : e'.history = e.history) : Unseen [] e e' where
  sessions := hs
  ready := by rw [hc]
  capabilities := by rw [hc]
  history := by rw [hh, List.append_nil]

theorem Unseen.refl (e : Engine) : Unseen [] e e := unseen_of_same rfl rfl rfl

theorem unseen_note (event : Event) (e : Engine) : Unseen [event] e (e.note event) :=
  ⟨rfl, rfl, rfl, rfl⟩

theorem unseen_settle (r : Ref) (o : Outcome) (e : Engine) : Unseen [] e (e.settle r o) :=
  unseen_of_same (settle_sessions r o e) (settle_client r o e) (settle_history r o e)

theorem unseen_listen (r : Ref) (l : Listener) (e : Engine) : Unseen [] e (e.listen r l) := by
  unfold listen
  split <;> exact unseen_of_same rfl rfl rfl

theorem unseen_arrive (x : Inbound) (e : Engine) : Unseen [] e (e.arrive x) := by
  have hin : Unseen [] e (e.onChannel fun c => { c with inbox := c.inbox ++ [x], getter := none }) :=
    unseen_of_same rfl rfl rfl
  unfold arrive
  cases e.channel.getter with
  | none => exact hin
  | some n => exact hin.then (unseen_settle _ _ _)

theorem unseen_serverGets (message : Json) (e : Engine) : Unseen [] e (e.serverGets message) := by
  unfold serverGets
  split
  · rename_i method id _ _
    have hscript : Unseen []
        e (e.onChannel fun c => { c with script := (e.channel.script.next method).2 }) :=
      unseen_of_same rfl rfl rfl
    simp only
    split
    · exact hscript
    · split
      · exact hscript.then (unseen_arrive _ _)
      · exact unseen_of_same rfl rfl rfl
  · exact .refl e

theorem unseen_transmit (message : Json) (e : Engine) : Unseen [] e (e.transmit message).2 := by
  unfold transmit
  split
  · exact .refl e
  · split
    · exact .refl e
    · have hsent : Unseen [] e (e.onChannel fun c => { c with sent := c.sent ++ [message] }) :=
        unseen_of_same rfl rfl rfl
      exact hsent.then (unseen_serverGets _ _)

/-! ### A request until it ends -/

theorem Tends.after {run : Run} (hu : Unseen news e e') (h : Tends id [] e' run) :
    Tends id news e run := by
  cases h with
  | waits hu' hf => exact .waits (hu.then hu') hf
  | ends hu' => exact .ends (hu.trans hu')

theorem tends_endRequest (id : Nat) (o : Outcome) (e : Engine) :
    Tends id [] e (e.endRequest id o) := by
  have hclient : Unseen [] e (e.onClient (·.discharge id)) := ⟨rfl, rfl, rfl, by simp [onClient]⟩
  exact .ends (hclient.after (unseen_note _ _))

theorem tends_abandon (hf : f.request? = some id) (e : Engine) : Tends id [] e (e.abandon id f) := by
  have hnap : Unseen [] e (e.newPromise .nap).2 := unseen_of_same rfl rfl rfl
  exact .waits ((hnap.then (unseen_listen _ _ _)).then (unseen_settle _ _ _)) hf

theorem tends_awaitAnswer (id : Nat) (method : String) (limit : Int) (e : Engine) :
    Tends id [] e (e.awaitAnswer id method limit) := by
  unfold awaitAnswer
  split
  · split
    · exact tends_endRequest id _ e
    · exact tends_abandon rfl e
  · have htimer : Unseen []
        e ((e.newPromise .nap).2.setTimer limit (.release (e.newPromise .nap).1)).2 :=
      unseen_of_same rfl rfl rfl
    exact .waits (htimer.then (unseen_listen _ _ _)) rfl

/-- A request is handed over, unless messages are held up. -/
theorem tends_pass (id : Nat) (method : String) (limit : Int) (message : Json) (e : Engine) :
    Tends id [] e (e.pass (.request id method limit) message) := by
  unfold pass
  split
  · exact .waits (unseen_of_same rfl rfl rfl) rfl
  · refine .after (unseen_transmit message e) ?_
    generalize e.transmit message = sent
    obtain ⟨result, e'⟩ := sent
    cases result with
    | error x => exact tends_endRequest id _ e'
    | ok =>
      have hlog : Unseen [] e' (e'.log .debug ("--> " ++ method ++ " (" ++ toString id ++ ")")) :=
        unseen_of_same rfl rfl rfl
      exact .after hlog (tends_awaitAnswer id method limit _)

theorem tends_requestAnswered (id : Nat) (method : String) (limit : Int) (waiter timer : Nat)
    (o : Outcome) (e : Engine) : Tends id [] e (requestAnswered id method limit waiter timer o e) := by
  have htimer : Unseen [] e (e.dropTimer timer) := unseen_of_same rfl rfl rfl
  have hheed : Unseen [] e ((e.dropTimer timer).unlisten (.answer id) (.release waiter)) :=
    unseen_of_same rfl rfl rfl
  unfold requestAnswered
  simp only
  split
  · exact .after htimer (tends_endRequest id _ _)
  · exact .after hheed (tends_abandon rfl _)
  · exact .after hheed (tends_abandon rfl _)

/-- Whatever a request has waited for, it waits on or ends. -/
theorem tends_resume (hf : f.request? = some id) (o : Outcome) (e : Engine) :
    Tends id [] e (resume f o e) := by
  cases f with
  | gate purpose message =>
    cases purpose with
    | request id' method limit =>
      obtain rfl := Option.some.inj hf
      cases o with
      | cancelled => exact tends_endRequest _ _ e
      | _ => exact tends_pass _ method limit message e
    | _ => cases hf
  | requestAnswered id' method limit waiter timer =>
    obtain rfl := Option.some.inj hf
    exact tends_requestAnswered _ method limit waiter timer o e
  | requestExpired id' method limit =>
    obtain rfl := Option.some.inj hf
    cases o <;> exact tends_endRequest _ _ e
  | requestAborted id' =>
    obtain rfl := Option.some.inj hf
    exact tends_endRequest _ _ e
  | _ => cases hf

/-- How a request fails that is made when the connection is closed. -/
def disconnected (name : String) : Failure :=
  .transportClosed ("transport closed, cannot send " ++ name)

/-- The message of a request. -/
def requestMessage (id : Nat) (name : String) (params : Json) : Json :=
  Message.request (.nat id) (.str name) params

/-- A request is made under the next id and handed over, unless the connection is closed. -/
theorem request_cases {name : String} (hname : Message.requestMethod (.str name) = .ok name)
    (params : Json) (limit : Int) (e : Engine) :
    (e.client.closed = true ∧
      e.request (.str name) params limit = e.fail (disconnected name)) ∨
    ∃ id, Tends id [.called id name, .handed (requestMessage id name params)] e
      (e.request (.str name) params limit) := by
  unfold request
  rw [hname]
  simp only
  split
  · rename_i hc
    exact .inl ⟨hc, rfl⟩
  · have hcalled : Unseen [.called (e.enroll name).1 name] e (e.enroll name).2 :=
      ⟨rfl, rfl, rfl, rfl⟩
    exact .inr ⟨_, .after (hcalled.trans (unseen_note _ _)) (tends_pass _ name _ _ _)⟩

/-! ### What goes on afterwards -/

/-- Hands the result of a run to the frames that wait for it. -/
def goOn (outer : List Frame) : Run → Run
  | (e, .done o) => unwind outer o e
  | (e, .wait p frames) => (e, .wait p (frames ++ outer))
  | (e, .pause frames) => (e, .pause (frames ++ outer))

theorem unwind_cons (f : Frame) (outer : List Frame) (o : Outcome) (e : Engine) :
    unwind (f :: outer) o e = goOn outer (resume f o e) := by
  generalize hrun : resume f o e = run
  obtain ⟨e', _ | _ | _⟩ := run <;> simp only [unwind, hrun, goOn]

theorem goOn_nil (run : Run) : goOn [] run = run := by
  obtain ⟨e, _ | _ | _⟩ := run <;> simp [goOn, unwind, finish]

/-- It makes no difference whether a run was waited for. -/
theorem goOn_andThen (run : Run) (f : Frame) (outer : List Frame) :
    goOn outer (andThen run f (resume f)) = goOn (f :: outer) run := by
  obtain ⟨e, _ | _ | _⟩ := run
  · exact (unwind_cons f outer _ e).symm
  · simp [andThen, goOn]
  · simp [andThen, goOn]

/-- A request goes on waiting, or what waits for it goes on. -/
theorem Tends.goOn {run : Run} (h : Tends id news e run) (outer : List Frame) :
    (∃ e' p f, f.request? = some id ∧ Unseen news e e' ∧
      goOn outer run = (e', .wait p (f :: outer))) ∨
    ∃ e' o, Unseen (news ++ [.returned id o]) e e' ∧ Engine.goOn outer run = unwind outer o e' := by
  cases h with
  | waits hu hf => exact .inl ⟨_, _, _, hf, hu, rfl⟩
  | ends hu => exact .inr ⟨_, _, hu, rfl⟩

end LanguageClient.Engine
