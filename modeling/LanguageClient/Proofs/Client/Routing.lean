import LanguageClient.Json.Equality
import LanguageClient.Proofs.Client.News
import LanguageClient.Proofs.Client.Sending

/-!
What a message of the server leads to. For each message that is taken up, the reader begins the tasks
that it is an errand for, and does nothing else to the connection: an answer to a request of the
server, and the placing of diagnostics for those documents that are told of them. A client that does
not close on its own begins no other task, whoever comes or goes on the way.

    message ──handle──▶ notified x₁, notified x₂, …
                 └────▶ errands, in the order in which they are begun
-/

namespace LanguageClient

/-- The task that is begun when someone is told of a notification. -/
def Subscriber.errand? (method params : Json) : Subscriber → Option Operation
  | .document doc =>
    if method.same (.str "textDocument/publishDiagnostics") then
      some (.processDiagnostics doc params)
    else none
  | .sink _ => none

/-- The tasks that are begun for a message, while these are attached. -/
def Message.errands (m : Json) (s : Registry Subscriber) : List Operation :=
  if isServerRequest m then [.reply (Json.ofOption (m.member? "id"))]
  else if isNotification m then
    s.filterMap (Subscriber.errand? (Json.ofOption (m.member? "method"))
      (Json.ofOption (m.member? "params")))
  else []

/-- If it is a message that is taken up, it is well-formed. -/
def Event.wellTaken : Event → Bool
  | .taken m => Message.wellFormed m
  | _ => true

namespace Engine

variable {e e' : Engine} {m method params : Json} {frame : String} {rest : List Inbound}
  {ops ops' : List Operation}

/-- These tasks have been begun, and no others. -/
def Commences (ops : List Operation) (e e' : Engine) : Prop :=
  ∃ new, Launches new e e' ∧ new.map Prod.snd = ops

theorem Launches.commences (h : Launches [] e e') : Commences [] e e' := ⟨[], h, rfl⟩

theorem Commences.trans {e₁ e₂ e₃ : Engine} (h : Commences ops e₁ e₂) (h' : Commences ops' e₂ e₃) :
    Commences (ops ++ ops') e₁ e₃ := by
  obtain ⟨new, hl, hops⟩ := h
  obtain ⟨new', hl', hops'⟩ := h'
  exact ⟨new ++ new', hl.trans hl', by rw [List.map_append, hops, hops']⟩

theorem Tells.options (h : Tells e e') : e'.client.options = e.client.options := by
  obtain ⟨subscribers, hc⟩ := h.client
  rw [hc]

/-! ### Whoever is told -/

/-- Nobody who leaves makes a client close that does not close on its own. -/
theorem commences_register (hauto : e.client.options.autoClose.truthy = false)
    (r : Registration Subscriber) : Commences [] e (e.register r) := by
  have he : Launches [] e (e.enlist r) := by
    have hc : Launches [] e
        (e.onClient fun c => { c with subscribers := c.subscribers.register r }) :=
      launches_of_eq (Nat.le_refl _) rfl rfl rfl
    exact hc.trans (launches_note rfl _)
  cases r with
  | attach x => exact he.commences
  | detach x =>
    unfold register detach
    simp only [onClient, note, hauto, Bool.and_false, Bool.false_and, Bool.false_eq_true, if_false]
    exact he.commences

theorem commences_registerAll : ∀ (rs : List (Registration Subscriber)) {e : Engine},
    e.client.options.autoClose.truthy = false →
    Commences [] e (rs.foldl (fun e r => e.register r) e)
  | [], e, _ => (Launches.refl e).commences
  | r :: rs, e, hauto => by
      have hnext := (congrArg (·.autoClose.truthy) (tells_register r e).options).trans hauto
      exact (commences_register hauto r).trans (commences_registerAll rs hnext)

theorem commences_tellSink (hauto : e.client.options.autoClose.truthy = false) (name : String)
    (method params : Json) : Commences [] e (e.tellSink name method params).2 := by
  unfold tellSink
  split
  · exact (Launches.refl e).commences
  · rename_i sink _
    let called : Engine := { e with
      sinks := e.sinks.put name { sink with calls := sink.calls ++ [(method, params)] } }
    have hcalled : Launches [] e called := launches_of_eq (Nat.le_refl _) rfl rfl rfl
    have hauto : called.client.options.autoClose.truthy = false := hauto
    have hleft := (commences_register hauto (.detach (.sink name))).trans
      (commences_registerAll (sink.conduct sink.calls.length).registrations
        ((congrArg (·.autoClose.truthy) (tells_register (.detach (.sink name)) called).options).trans
          hauto))
    simp only
    split
    · exact hcalled.commences.trans hleft
    · exact hcalled.commences.trans (commences_registerAll _ hauto)

theorem Numbered.commences_tellDocument (hn : Numbered e) (doc : Nat) (method params : Json) :
    Commences (Subscriber.errand? method params (.document doc)).toList e
      (e.tellDocument doc method params) := by
  by_cases hmethod : method.same (.str "textDocument/publishDiagnostics") = true
  · simp only [tellDocument, Subscriber.errand?, hmethod, if_true]
    have hsession : Launches [] (e.spawn (.processDiagnostics doc params)).2
        ((e.spawn (.processDiagnostics doc params)).2.onSession doc fun s =>
          { s with background := s.background ++ [(e.spawn (.processDiagnostics doc params)).1] }) :=
      launches_of_eq (Nat.le_refl _) rfl rfl rfl
    have hlisten := launches_agrees (agrees_listen (e.spawn (.processDiagnostics doc params)).1
      (.backgroundOver doc) ((e.spawn (.processDiagnostics doc params)).2.onSession doc fun s =>
          { s with background := s.background ++ [(e.spawn (.processDiagnostics doc params)).1] })
      (by simp))
    exact ⟨_, ((hn.launches_spawn rfl).trans hsession).trans hlisten, rfl⟩
  · simp only [tellDocument, Subscriber.errand?, hmethod, Bool.false_eq_true, if_false]
    exact (Launches.refl e).commences

theorem Numbered.commences_tell (hn : Numbered e) (hauto : e.client.options.autoClose.truthy = false)
    (method params : Json) (x : Subscriber) :
    Commences (x.errand? method params).toList e (tell method params e x) := by
  have hnote : Commences [] e (e.note (.notified x method params)) := (launches_note rfl e).commences
  cases x with
  | document doc =>
    have hnoted : Numbered (e.note (.notified (.document doc) method params)) := ⟨hn.nodup, hn.lt⟩
    exact hnote.trans (hnoted.commences_tellDocument doc method params)
  | sink name =>
    have h := commences_tellSink (e := e.note (.notified (.sink name) method params)) hauto name
      method params
    refine hnote.trans ?_
    simp only [tell]
    split
    · rename_i heq
      rw [heq] at h
      exact h
    · rename_i heq
      rw [heq] at h
      exact h.trans (launches_agrees (agrees_log _ _ _)).commences

theorem Numbered.commences_tellAll (method params : Json) : ∀ (xs : List Subscriber) {e : Engine},
    Numbered e → e.client.options.autoClose.truthy = false →
    Commences (xs.filterMap (Subscriber.errand? method params)) e (xs.foldl (tell method params) e)
  | [], e, _, _ => (Launches.refl e).commences
  | x :: xs, e, hn, hauto => by
      have hnext := (congrArg (·.autoClose.truthy) (tells_tell method params x e).options).trans hauto
      have hp : Path ([.received], e) ([.received], tell method params e x) :=
        path_tell method params x
      have hall := (hn.commences_tell hauto method params x).trans
        (commences_tellAll method params xs (hn.grows (Path.grows hp hn)) hnext)
      rw [List.filterMap_cons]
      cases hx : x.errand? method params <;> simpa [hx] using hall

/-! ### Messages -/

theorem Numbered.commences_handle (hn : Numbered e)
    (hauto : e.client.options.autoClose.truthy = false)
    (h : (e.note (.taken m)).handle m = .ok e') :
    Commences (Message.errands m e.client.subscribers) e e' := by
  have hnoted (hs : Message.isServerRequest m = false) : Commences [] e (e.note (.taken m)) :=
    (launches_taken hs e).commences
  cases handles_of_handle h with
  | request line hs =>
    simp only [Message.errands, hs, if_true]
    exact ⟨_, hn.launches_oblige hs (agrees_log _ _ _), rfl⟩
  | response hr h =>
    simp only [Message.errands, isServerRequest_of_isResponse hr, isNotification_of_isResponse hr,
      Bool.false_eq_true, if_false]
    exact (launches_respond hr h).commences
  | @notification e₁ hs hnotification hlogs =>
    have hn₁ : Numbered e₁ := by cases hlogs <;> exact ⟨hn.nodup, hn.lt⟩
    have hlog : Commences [] (e.note (.taken m)) e₁ := by
      cases hlogs with
      | nothing => exact (Launches.refl _).commences
      | line => exact (launches_agrees (agrees_log _ _ _)).commences
    have hauto₁ : e₁.client.options.autoClose.truthy = false := by rw [hlogs.client]; exact hauto
    have hall := ((hnoted hs).trans hlog).trans (Numbered.commences_tellAll
      (Json.ofOption (m.member? "method")) (Json.ofOption (m.member? "params"))
      e₁.client.subscribers hn₁ hauto₁)
    simp only [Message.errands, hs, hnotification, Bool.false_eq_true, if_false, if_true]
    rw [hlogs.client] at hall ⊢
    exact hall
  | other hs hnotification =>
    simp only [Message.errands, hs, hnotification, Bool.false_eq_true, if_false]
    exact hnoted hs

/-- A message has been taken up: it has been told to those who were attached, the tasks have been
    begun that it is an errand for, nothing has been sent, and unless it is a response, every request
    stands as it did. -/
structure Routed (m : Json) (e e' : Engine) : Prop where
  told : ∃ more, e'.history = e.history ++ .taken m :: more ∧
    news more = Message.news m e.client.subscribers
  begun : Commences (Message.errands m e.client.subscribers) e e'
  sent : e'.channel.sent = e.channel.sent
  requests : Message.isResponse m = false → e'.client.pending = e.client.pending ∧
    e'.client.methods = e.client.methods ∧ ∀ id, e'.standing (.answer id) = e.standing (.answer id)

theorem Numbered.routed (hn : Numbered e) (hauto : e.client.options.autoClose.truthy = false)
    (h : (e.note (.taken m)).handle m = .ok e') : Routed m e e' where
  told := by
    obtain ⟨more, hh, hnews, _⟩ := told_handle h
    exact ⟨more, hh.trans (List.append_assoc ..), hnews⟩
  begun := hn.commences_handle hauto h
  sent := by
    cases hr : Message.isResponse m with
    | true =>
      rw [handle_of_response hr] at h
      rcases resolve_cases h with ⟨ha, _⟩ | ⟨_, _, _, _, _, _, _, rfl⟩
      · exact ha.sent
      · exact congrArg Channel.sent (settle_channel _ _ _)
    | false => exact congrArg Channel.sent (tells_handle hr h).channel
  requests hr := by
    have ht := tells_handle hr h
    obtain ⟨subscribers, hc⟩ := ht.client
    exact ⟨by rw [hc]; rfl, by rw [hc]; rfl, ht.answers⟩

/-- A well-formed message does not break the reader. -/
theorem Numbered.routed_takeUp (hn : Numbered e)
    (hauto : e.client.options.autoClose.truthy = false)
    (hread : Message.read? frame = .ok (some m)) (hm : Message.wellFormed m = true)
    (rest : List Inbound) :
    ∃ e', takeUp frame rest e = .ok e' ∧ readAll (.frame frame :: rest) e = readAll rest e' ∧
      Routed m e e' := by
  rw [readAll_frame]
  cases ht : takeUp frame rest e with
  | error x =>
    rcases takeUp_error_iff.mp ⟨x, ht⟩ with ⟨y, hy⟩ | ⟨m', hm', hu⟩
    · rw [hread] at hy
      cases hy
    · rw [hread] at hm'
      obtain rfl : m = m' := by simpa using hm'
      exact absurd hu (not_upsets_of_wellFormed hm)
  | ok e' =>
    obtain ⟨hnone, _⟩ | ⟨m', hm', hnoted⟩ := handleFrame_cases ht
    · rw [hread] at hnone
      cases hnone
    obtain rfl : m = m' := by simpa using hread.symm.trans hm'
    have hn' : Numbered (e.onChannel fun c => { c with inbox := rest }) := ⟨hn.nodup, hn.lt⟩
    obtain ⟨htold, hbegun, hsent, hrequests⟩ := hn'.routed hauto hnoted
    have hunload : Launches [] e (e.onChannel fun c => { c with inbox := rest }) :=
      launches_of_eq (Nat.le_refl _) rfl rfl rfl
    exact ⟨e', rfl, rfl, htold, hunload.commences.trans hbegun, hsent, hrequests⟩

theorem Taking.numbered (h : Taking e) : Numbered e := by
  obtain ⟨options, script, actions, ht, hp⟩ := h
  exact ((((correlated_create options script).after actions).pick ht).path hp).numbered

/-! ### Whole runs -/

/-- In every state that a client can come to: nobody is attached twice, and those who are stand in the
    order of the calls that attached them. Each notification that was taken up has been told once to
    everyone who was attached by then, in that order, and nothing else has been told. As long as
    nothing is cut short and the connection accepts every message, each request of the server has
    been answered with nothing, in the order in which they were taken up, up to those whose turn
    is yet to come; when it comes, the answer is sent and no request is touched. And whatever
    well-formed message a client takes up that does not close on its own, it goes on with the next. -/
theorem inbound_routed (options : ClientOptions) (script : ServerScript) (actions : List Action) :
    let e := (create options script).after actions
    (e.client.subscribers.Nodup ∧
      e.client.subscribers = Registry.registered [] (registrations e.history) ∧
      e.client.subscribers.Pairwise (Registry.Precedes (registrations e.history))) ∧
    ((∀ m, .taken m ∈ e.history → Message.wellFormed m = true) → news e.history = due [] e.history) ∧
    ((∀ a ∈ actions, a.spares = true ∧ a.unasked = true) → (create options script).accepting actions = true →
      (demands e.history).map Message.empty =
        responses e.channel.sent ++ (e.turns.filterMap e.debt?).map Message.empty ∧
      ∀ n id rest, e.ready = .step n :: rest → e.debt? n = some id → e.accepts = true →
        e.runNext.channel.sent = e.channel.sent ++ [Message.empty id] ∧
        e.runNext.client = e.client) ∧
    ∀ (e₁ : Engine) (frame : String) (rest : List Inbound) (m : Json), Taking e₁ →
      e₁.client.options.autoClose.truthy = false → Message.read? frame = .ok (some m) →
      Message.wellFormed m = true →
      ∃ e₂, takeUp frame rest e₁ = .ok e₂ ∧ Taking e₂ ∧
        readAll (.frame frame :: rest) e₁ = readAll rest e₂ ∧ Routed m e₁ e₂ := by
  intro e
  have hlisted : Listed e := listed_after options script actions
  refine ⟨⟨?_, hlisted, ?_⟩, ?_, ?_, ?_⟩
  · rw [hlisted]
    exact Registry.nodup_registered _
  · rw [hlisted]
    exact Registry.sorted_registered _
  · exact ((hearing_create options script).after actions).heeded
  · intro hacts haccepting
    have hc := correlated_create options script
    have hsp := spared_create options script
    have hd := (dutiful_create options script).after actions hc hsp hacts
    have hdelivered := (delivered_create options script).after actions (dutiful_create options script) hc
      hsp hacts haccepting
    refine ⟨?_, fun n id rest hj hdebt haccepts => ?_⟩
    · rw [hdelivered.wire]
      exact hd.paid
    · have hsp' := hsp.after actions hc fun a ha => (hacts a ha).1
      rw [hd.runNext_answers hsp' haccepts hj hdebt, obliged, settle_channel, settle_client]
      exact ⟨rfl, rfl⟩
  · intro e₁ frame rest m htaking hauto hread hm
    obtain ⟨e₂, ht, hnext, hrouted⟩ := htaking.numbered.routed_takeUp hauto hread hm rest
    exact ⟨e₂, ht, htaking.path fun st => path_takeUp ht, hnext, hrouted⟩

/-- A server that never answers the handshake. -/
def reticentServer : ServerScript where
  capabilities := .obj []
  replies := [("initialize", [.silence])]

/-- A request of the server under the id of one of the client, which still waits. -/
def sameId : String := "\x7b\"id\":1,\"method\":\"window/showDocument\"\x7d"

/-- Two are told of a notification between two requests of the server. The first leaves and fails, and
    the second attaches the first again. -/
def reentered : List Action :=
  [[.attachSink "a" { leaving := true, failing := true },
      .attachSink "b" { conduct := fun _ => { registrations := [.attach (.sink "a")] } }, .start],
    runs 4, [.arrive (.frame sameId), .arrive (.frame "\x7b\"method\":\"telemetry/event\"\x7d"),
      .arrive (.frame "\x7b\"id\":2,\"method\":\"client/registerCapability\"\x7d")], runs 2].flatten

/-- Whose turn it is can be read off the first job. -/
theorem exists_ready {n : Nat} (h : e.ready.head?.bind Job.task? = some n) :
    ∃ rest, e.ready = .step n :: rest := by
  obtain ⟨job, hhead, hjob⟩ := Option.bind_eq_some_iff.mp h
  obtain ⟨rest, hready⟩ := List.head?_eq_some_iff.mp hhead
  cases job with
  | step k =>
    obtain rfl : k = n := Option.some.inj hjob
    exact ⟨rest, hready⟩
  | _ => cases hjob

/-- Both are told once, the first request has been answered and the second is next, and the request
    under the same id still waits. -/
theorem inbound_routed_reentered :
    let e := (create usual reticentServer).after reentered
    let e₁ := ((create usual reticentServer).after [.start]).pick 0
    ((∀ m, .taken m ∈ e.history → Message.wellFormed m = true) ∧
      (∀ a ∈ reentered, a.spares = true ∧ a.unasked = true) ∧
      (create usual reticentServer).accepting reentered = true ∧ e.accepts = true ∧
      (∃ rest, e.ready = .step 6 :: rest) ∧ e.debt? 6 = some (.int 2) ∧ Taking e₁) ∧
    e.client.subscribers = [.sink "b", .sink "a"] ∧ e.client.pending.keys = [1] ∧
      (news e.history).map Prod.fst = [.sink "a", .sink "b"] ∧ news e.history = due [] e.history ∧
      (demands e.history).map Message.empty =
        responses e.channel.sent ++ (e.turns.filterMap e.debt?).map Message.empty ∧
      e.runNext.channel.sent = e.channel.sent ++ [Message.empty (.int 2)] ∧
      e.runNext.client = e.client ∧
      ∃ m e₂, Message.read? sameId = .ok (some m) ∧ readAll [.frame sameId] e₁ = readAll [] e₂ ∧
        Routed m e₁ e₂ := by
  intro e e₁
  have hacts : ∀ a ∈ reentered, a.spares = true ∧ a.unasked = true := by decide
  -- one run serves all that is computed
  obtain ⟨hall, haccepting, haccepts, hhead, hdebt, hsubscribers, hkeys, htold⟩ :
      e.history.all Event.wellTaken = true ∧
      (create usual reticentServer).accepting reentered = true ∧ e.accepts = true ∧
      e.ready.head?.bind Job.task? = some 6 ∧ e.debt? 6 = some (.int 2) ∧
      e.client.subscribers = [.sink "b", .sink "a"] ∧ e.client.pending.keys = [1] ∧
      (news e.history).map Prod.fst = [.sink "a", .sink "b"] := by
    decide +kernel
  have hwell : ∀ m, .taken m ∈ e.history → Message.wellFormed m = true := fun m hm =>
    List.all_eq_true.mp hall _ hm
  obtain ⟨rest, hready⟩ : ∃ rest, e.ready = .step 6 :: rest := exists_ready hhead
  have htaking : Taking e₁ :=
    .intro (t := { frames := [.begin .read] }) usual reticentServer [.start] rfl (.single .read)
  obtain ⟨m, hread, hm⟩ : ∃ m, Message.read? sameId = .ok (some m) ∧ Message.wellFormed m = true := by
    have hread : (Message.read? sameId).toOption.join.any Message.wellFormed = true := by decide +kernel
    generalize Message.read? sameId = read at hread
    obtain _ | _ | m := read
    · cases hread
    · cases hread
    · exact ⟨m, rfl, hread⟩
  obtain ⟨_, hnews, hanswers, htakes⟩ := inbound_routed usual reticentServer reentered
  obtain ⟨hsent, hnext⟩ := hanswers hacts haccepting
  obtain ⟨hrun, hclient⟩ := hnext 6 (.int 2) rest hready hdebt haccepts
  obtain ⟨e₂, _, _, hreads, hrouted⟩ := htakes e₁ sameId [] m htaking (by decide +kernel) hread hm
  -- the states are spelled out, since comparing their parts would run them again
  simp only [e, e₁] at *
  exact ⟨⟨hwell, hacts, haccepting, haccepts, ⟨rest, hready⟩, hdebt, htaking⟩, hsubscribers,
    hkeys, htold, hnews hwell, hsent, hrun, hclient, m, e₂, hread, hreads, hrouted⟩

end Engine

end LanguageClient
