import LanguageClient.Proofs.Client.Handshake
import LanguageClient.Proofs.Client.Settling
import LanguageClient.Proofs.Engine.Route

/-!
What becomes of requests that nobody gives up. Such a request ends with a value, or with a failure of
the exchange with the server that every caller is prepared for; only sends that fail in some other way
could break this, and connections do not (`Orderly`).

    request ──▶ gate ──▶ sent ──▶ answered       a value, or a refusal
                                └─▶ expired      out of time
-/

namespace LanguageClient

/-- The request that a frame waits for, unless its caller was cancelled. -/
def Frame.pursued? : Frame → Option Nat
  | .requestAborted _ => none
  | f => f.request?

theorem Frame.request?_of_pursued {f : Frame} {id : Nat} (h : f.pursued? = some id) :
    f.request? = some id := by
  cases f with
  | requestAborted id' => cases h
  | _ => exact h

/-- Such a frame knows the method, too. -/
theorem Frame.pursued?_eq_some_iff {f : Frame} {id : Nat} :
    f.pursued? = some id ↔ ∃ name, f.call? = some (id, name) := by
  cases f with
  | gate purpose message => cases purpose <;> simp [Frame.pursued?, Frame.request?, Frame.call?]
  | _ => simp [Frame.pursued?, Frame.request?, Frame.call?]

/-- How an exchange with the server ends that is not given up. -/
def Outcome.fair : Outcome → Bool
  | .value _ => true
  | .failure x => x.isExchange
  | .cancelled => false

theorem Outcome.fair_of_ofAnswer {o : Outcome} (h : o.ofAnswer = true) (hne : o ≠ .cancelled) :
    o.fair = true := by
  cases o with
  | value v => rfl
  | failure x => cases x <;> first | rfl | cases h
  | cancelled => exact absurd rfl hne

namespace Engine

variable {id : Nat} {name : String} {st : List Frame} {c c' : Config} {e e' : Engine} {f : Frame}
  {o : Outcome}
  {P : List Frame → Engine → Prop} {Q : Outcome → Engine → Prop} {J : Engine → Prop}

/-! ### Sends that fail -/

/-- If messages fail to be sent, it is the channel that fails. -/
def Orderly (e : Engine) : Prop := ∀ x, e.channel.sendFailure = some x → x.isChannel = true

/-- Actions by which the outside cancels nothing, and makes sends fail only as channels do. -/
def Action.mild : Action → Bool
  | .failSends (some x) => x.val.isChannel
  | a => a.spares

theorem Action.spares_of_mild {a : Action} (h : a.mild = true) : a.spares = true := by
  cases a <;> first | rfl | cases h

theorem Step.sendFailure (hs : Step c c') : c'.2.channel.sendFailure = c.2.channel.sendFailure := by
  cases hs.concerns with
  | calm hc => exact hc.sendFailure
  | call | ends | sends => rfl
  | @responds st e e' m _ hr =>
    rcases resolve_cases hr with ⟨ha, _⟩ | ⟨_, _, _, _, _, _, _, rfl⟩
    · exact ha.sendFailure
    · exact congrArg Channel.sendFailure (settle_channel _ _ _)
  | @breaks st e e' m ha => exact (calm_shutDown e').sendFailure.trans ha.sendFailure

theorem Orderly.step (h : Orderly c.2) (hs : Step c c') : Orderly c'.2 := by
  rw [Orderly, hs.sendFailure]
  exact h

theorem Orderly.path (h : Orderly c.2) (hp : Path c c') : Orderly c'.2 := by
  induction hp with
  | refl => exact h
  | tail _ hs ih => exact ih.step hs

theorem Orderly.congr (h : Orderly e) (hs : e'.channel.sendFailure = e.channel.sendFailure) :
    Orderly e' := by
  rw [Orderly, hs]
  exact h

theorem Orderly.rests {m : Nat} {run : Run} (h : Orderly (reached run).2) (hr : Rests m run e) :
    Orderly e := by
  cases hr with
  | ended o => exact h.congr (congrArg Channel.sendFailure (settle_channel _ _ _))
  | waits ha hc => exact h.congr ((congrArg Channel.sendFailure hc.channel).trans ha.sendFailure)
  | pauses ha => exact h.congr ha.sendFailure

theorem Orderly.runNext (h : Orderly e) : Orderly e.runNext := by
  obtain ⟨e₁, ha, hrun⟩ := runNext_cases e
  have h₁ : Orderly e₁ := h.congr ha.sendFailure
  rcases hrun with hp | ⟨m, t, ht, heq⟩
  · exact h₁.path hp
  · rw [heq]
    have hpick : Orderly (t.frames, e₁.pick m).2 := h₁
    exact (hpick.path (path_reached (leads_unwind _ _ _))).rests (rests_runTask m t _ e₁)

theorem Orderly.act {a : Action} (h : Orderly e) (ha : a.mild = true) : Orderly (e.act a) := by
  have hinner {a : Action} (ha : a.inner = true) : Orderly (e.act a) := h.path (path_act ha)
  cases a with
  | run => exact h.runNext
  | failSends x =>
    intro y hy
    cases x with
    | none => cases hy
    | some x =>
      obtain rfl : x.val = y := Option.some.inj hy
      exact ha
  | «begin» op => exact h.congr rfl
  | addSession s =>
    have hs : Orderly (([] : List Frame), { e with sessions := e.sessions ++ [s] }).2 := h
    exact hs.step (.register (.attach (.document e.sessions.length)))
  | scheduleChange doc text changes =>
    exact h.congr (calm_scheduleChange doc text changes e).sendFailure
  | viewChanged doc text changes =>
    have hs : Orderly (([] : List Frame), (e.scheduleChange doc text changes).2).2 :=
      h.congr (calm_scheduleChange doc text changes e).sendFailure
    exact hs.path (path_viewChanged doc text changes)
  | cancel r => cases ha
  | closeSession doc => cases ha
  | _ => exact hinner rfl

theorem Orderly.after : ∀ (actions : List Action) {e : Engine}, Orderly e →
    (∀ a ∈ actions, a.mild = true) → Orderly (e.after actions)
  | [], _, h, _ => h
  | a :: rest, _, h, ha =>
      (h.act (ha a (List.mem_cons_self ..))).after rest fun b hb => ha b (List.mem_cons_of_mem _ hb)

/-! ### One request -/

/-- The frame of a request stands on top, and the request goes on. -/
def Pursues (id : Nat) (name : String) (frames : List Frame) (e : Engine) : Prop :=
  ∃ f, frames = [f] ∧ f.call? = some (id, name) ∧ Hoped [f] e

/-- The request has not been given up, and if it comes to a value, that is its answer. -/
structure Earned (id : Nat) (o : Outcome) (e : Engine) : Prop where
  kept : o ≠ .cancelled
  answer : ∀ v, o = .value v → e.outcome? (.answer id) = some (.value v)

theorem earned_failure (id : Nat) (x : Failure) (e : Engine) : Earned id (.failure x) e where
  kept := by simp
  answer v h := by cases h

theorem Earned.congr (h : Earned id o e') (hs : e'.outcome? (.answer id) = e.outcome? (.answer id)) :
    Earned id o e where
  kept := h.kept
  answer v hv := hs.symm.trans (h.answer v hv)

/-- If the answer is there, it has not been given up. -/
def Fairly (id : Nat) (e : Engine) : Prop :=
  ∀ o, e.outcome? (.answer id) = some o → o.fair = true

theorem Fairly.congr (h : Fairly id e) (hs : e'.outcome? (.answer id) = e.outcome? (.answer id)) :
    Fairly id e' := by
  rw [Fairly, hs]
  exact h

theorem Fairly.hoped (h : Fairly id e) (hf : f.request? = some id) : Hoped [f] e := by
  intro g hg _ id' hid hcancelled
  obtain rfl := List.mem_singleton.mp hg
  obtain rfl : id = id' := Option.some.inj (hf.symm.trans hid)
  cases h _ hcancelled

theorem Answering.fairly (h : Answering ([], e)) (hne : e.outcome? (.answer id) ≠ some .cancelled) :
    Fairly id e := by
  intro o ho
  refine Outcome.fair_of_ofAnswer (h.outcomes id o (standing_of_outcome? ho)) ?_
  rintro rfl
  exact hne ho

theorem Fairly.earned (h : Fairly id e) (ho : e.outcome? (.answer id) = some o) : Earned id o e where
  kept := by
    rintro rfl
    cases h _ ho
  answer v hv := hv ▸ ho

theorem pursues_awaitAnswer (method : String) (limit : Int) (h : Fairly id e) :
    Yields (Pursues id method) (fun o _ => o.fair = true ∧ Earned id o e)
      (e.awaitAnswer id method limit) := by
  unfold awaitAnswer
  split
  · split
    · rename_i o ho
      exact ⟨h o ho, h.earned ho⟩
    · exact ⟨rfl, _, rfl, rfl, fun g hg hh => by obtain rfl := List.mem_singleton.mp hg; cases hh⟩
  · refine ⟨rfl, _, rfl, rfl, Fairly.hoped (h.congr ?_) rfl⟩
    have hs : (e.promise (.nap e.nextRef)).standing (.answer id) = e.standing (.answer id) := by
      rw [standing_promise, if_neg (by simp)]
    rw [outcome?_eq_join, outcome?_eq_join]
    exact congrArg Option.join (((agrees_listen _ _ _ (by simp)).standing _).trans
      (((agrees_setTimer _ _ _).standing _).trans hs))

theorem sendFailure_fair {x : Failure} (h : x.isChannel = true) (method : String) :
    (Outcome.failure (sendFailure method x)).fair = true := by
  cases x <;> first | rfl | cases h

theorem pursues_pass (method : String) (limit : Int) (message : Json) (h : Fairly id e) :
    Yields (Pursues id method) (fun o _ => (Orderly e → o.fair = true) ∧ Earned id o e)
      (e.pass (.request id method limit) message) := by
  unfold pass
  split
  · refine ⟨rfl, _, rfl, rfl, Fairly.hoped (h.congr ?_) rfl⟩
    rw [outcome?_eq_join, outcome?_eq_join]
    exact congrArg Option.join (standing_promise _ _ e)
  · have hsame : (e.transmit message).2.outcome? (.answer id) = e.outcome? (.answer id) :=
      outcome?_transmit message e
    have herror (x : Failure) (hx : (e.transmit message).1 = .error x) := transmit_error hx
    generalize e.transmit message = sent at hsame herror
    obtain ⟨result, e₁⟩ := sent
    cases result with
    | ok u =>
      have hawait : Yields (Pursues id method) (fun o _ => o.fair = true ∧ Earned id o (e₁.log .debug _))
          (passed (.request id method limit) (.ok u) e₁) :=
        pursues_awaitAnswer method limit (h.congr hsame)
      exact hawait.imp (fun _ _ h => h) fun _ _ h => ⟨fun _ => h.1, h.2.congr hsame⟩
    | error x =>
      refine ⟨fun ho => ?_, earned_failure id _ e⟩
      rcases (herror x rfl).2 with rfl | hx
      · rfl
      · exact sendFailure_fair (ho x hx) method

/-- A request goes on, or it has ended and has not been given up. -/
theorem pursues_resume (hf : f.call? = some (id, name)) (h : f.hopes = true → Fairly id e)
    (hne : o ≠ .cancelled) :
    Yields (Pursues id name) (fun o _ => (Orderly e → o.fair = true) ∧ Earned id o e)
      (resume f o e) := by
  cases f with
  | gate purpose message =>
    cases purpose with
    | request id' method limit =>
      obtain ⟨rfl, rfl⟩ : id' = id ∧ method = name := by simpa [Frame.call?] using hf
      cases o with
      | cancelled => exact absurd rfl hne
      | value v => exact pursues_pass method limit message (h rfl)
      | failure x => exact pursues_pass method limit message (h rfl)
    | notify method => cases hf
    | reply id' => cases hf
  | requestAnswered id' method limit waiter timer =>
    obtain ⟨rfl, rfl⟩ : id' = id ∧ method = name := by simpa [Frame.call?] using hf
    change Yields _ _ (requestAnswered id' method limit waiter timer o e)
    have hexpired {Q : Outcome → Engine → Prop} (e : Engine) :
        Yields (Pursues id' method) Q (e.abandon id' (.requestExpired id' method limit)) :=
      ⟨rfl, _, rfl, rfl, fun g hg hh => by obtain rfl := List.mem_singleton.mp hg; cases hh⟩
    unfold requestAnswered
    simp only
    split
    · rename_i ho
      exact ⟨fun _ => h rfl _ ho, (h rfl).earned ho⟩
    · exact absurd rfl hne
    · exact hexpired _
  | requestExpired id' method limit =>
    obtain ⟨rfl, rfl⟩ : id' = id ∧ method = name := by simpa [Frame.call?] using hf
    cases o with
    | cancelled => exact absurd rfl hne
    | value v => exact ⟨fun _ => rfl, earned_failure _ _ e⟩
    | failure x => exact ⟨fun _ => rfl, earned_failure _ _ e⟩
  | _ => cases hf

/-- What is asked for fails in the exchange if it does not have to wait. -/
theorem pursues_request {method : Json} (hname : Message.requestMethod method = .ok name)
    (params : Json) (limit : Int) (e : Engine) :
    Yields (fun frames e => ∃ id, Pursues id name frames e)
      (fun o _ => (Orderly e → o.fair = true) ∧ ∃ x, o = .failure x) (e.request method params limit) := by
  unfold request
  simp only [hname]
  split
  · exact ⟨fun _ => rfl, _, rfl⟩
  · -- nothing has come of a request that has only been called
    have hopen (event : Event) :
        ((e.enroll name).2.note event).outcome? (.answer (e.enroll name).1) = none := by
      have hs := standing_promise (.answer (e.client.lastId + 1)) (.answer (e.client.lastId + 1)) e
      rw [if_pos rfl] at hs
      rw [outcome?_eq_join]
      exact congrArg Option.join hs
    have hfair (event : Event) : Fairly (e.enroll name).1 ((e.enroll name).2.note event) := by
      intro o ho
      rw [hopen] at ho
      cases ho
    refine (pursues_pass name _ _ (hfair _)).imp (fun _ _ h => ⟨_, h⟩) fun o _ h => ?_
    refine ⟨fun ho => h.1 (ho.congr rfl), ?_⟩
    cases o with
    | value v =>
      have hv := h.2.answer v rfl
      rw [hopen] at hv
      cases hv
    | failure x => exact ⟨x, rfl⟩
    | cancelled => exact absurd rfl h.2.kept

/-! ### Notifications -/

/-- A notification that passes has been sent, or its failure is recorded. -/
theorem sent_gateOpened (method : String) (message : Json) (e : Engine) (hne : o ≠ .cancelled) :
    Yields (fun frames _ => frames = [.gate (.notify method) message])
      (fun o _ => Orderly e → ∃ v, o = .value v) (gateOpened (.notify method) message o e) := by
  have hpass : Yields (fun frames _ => frames = [.gate (.notify method) message])
      (fun o _ => Orderly e → ∃ v, o = .value v) (e.pass (.notify method) message) := by
    unfold pass
    split
    · exact ⟨rfl, rfl⟩
    · simp only
      have herror (x : Failure) (hx : (e.transmit message).1 = .error x) := transmit_error hx
      generalize e.transmit message = sent at herror
      obtain ⟨x | u, e₁⟩ := sent
      · simp only [passed]
        split
        · exact fun _ => ⟨_, rfl⟩
        · rename_i hx
          intro ho
          rcases (herror x rfl).2 with rfl | hfails
          · exact absurd rfl hx
          · exact absurd (ho x hfails) hx
      · exact fun _ => ⟨_, rfl⟩
  cases o with
  | cancelled => exact absurd rfl hne
  | value v => exact hpass
  | failure x => exact hpass

/-! ### Along a run -/

/-- What every step preserves holds where a run ends, and where it waits. -/
theorem Yields.along {run : Run} (h : Yields P Q run)
    (hJ : ∀ {c c' : Config}, Step c c' → J c.2 → J c'.2) (hl : Leads c st run) (hc : J c.2) :
    Yields (fun frames e => P frames e ∧ J e) (fun o e => Q o e ∧ J e) run := by
  have hpath {c' : Config} (hp : Path c c') : J c'.2 := by
    induction hp with
    | refl => exact hc
    | tail _ hs ih => exact hJ hs ih
  obtain ⟨e, o | ⟨p, frames⟩ | frames⟩ := run
  · exact ⟨h, hpath hl⟩
  · exact ⟨h.1, h.2, hpath hl.1⟩
  · exact ⟨h, hpath hl⟩

end Engine

end LanguageClient
