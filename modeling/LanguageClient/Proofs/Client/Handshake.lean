import LanguageClient.Proofs.Engine.Errands

/-!
A handshake that succeeds has made the client ready. The outermost frame of the task that shakes
hands is always one of the handshake's own, and only the last of them ends with a value.

    handshake ──▶ … handshakeAnswered ──▶ … handshakeAnnounced ──▶ ready
-/

namespace LanguageClient

/-- The frames at which the handshake goes on. -/
def Frame.ofHandshake : Frame → Bool
  | .begin .handshake | .handshakeAnswered | .handshakeAnnounced _ => true
  | _ => false

/-- A handshake is still under way. -/
def EndsHandshake (frames : List Frame) : Prop :=
  ∃ f, frames.getLast? = some f ∧ f.ofHandshake = true

namespace Engine

/-- The run of a handshake has made the client ready if it ends with a value; if it waits, the
    handshake is still under way. -/
def Shakes : Run → Prop
  | (e, .done (.value _)) => e.client.ready = true
  | (_, .done _) => True
  | (_, .wait _ frames) => EndsHandshake frames
  | (_, .pause frames) => EndsHandshake frames

theorem endsHandshake_concat {frames : List Frame} {f : Frame} (h : f.ofHandshake = true) :
    EndsHandshake (frames ++ [f]) :=
  ⟨f, by simp, h⟩

theorem endsHandshake_append {frames outer : List Frame} (h : EndsHandshake outer) :
    EndsHandshake (frames ++ outer) := by
  obtain ⟨f, hf, hh⟩ := h
  exact ⟨f, by simp [List.getLast?_append, hf], hh⟩

theorem shakes_andThen {run : Run} {f : Frame} {next : Outcome → Engine → Run}
    (hf : f.ofHandshake = true) (hn : ∀ o e, Shakes (next o e)) : Shakes (andThen run f next) := by
  obtain ⟨e, o | ⟨p, frames⟩ | frames⟩ := run
  · exact hn o e
  · exact endsHandshake_concat hf
  · exact endsHandshake_concat hf

theorem shakes_handshakeAnnounced (result : Json) (o : Outcome) (e : Engine) :
    Shakes (handshakeAnnounced result o e) := by
  cases o with
  | value v =>
    simp only [handshakeAnnounced]
    split
    · exact rfl
    · trivial
  | failure x => trivial
  | cancelled => trivial

theorem shakes_handshakeAnswered (o : Outcome) (e : Engine) : Shakes (handshakeAnswered o e) := by
  cases o with
  | value v =>
    simp only [handshakeAnswered]
    split
    · trivial
    · exact shakes_andThen rfl (shakes_handshakeAnnounced _)
  | failure x => trivial
  | cancelled => trivial

theorem shakes_handshake (e : Engine) : Shakes e.handshake := by
  unfold handshake
  simp only
  split
  · trivial
  · exact shakes_andThen rfl shakes_handshakeAnswered

theorem shakes_resume {f : Frame} (h : f.ofHandshake = true) (o : Outcome) (e : Engine) :
    Shakes (resume f o e) := by
  unfold Frame.ofHandshake at h
  split at h
  · cases o with
    | cancelled => trivial
    | value v => exact shakes_handshake e
    | failure x => exact shakes_handshake e
  · exact shakes_handshakeAnswered o e
  · exact shakes_handshakeAnnounced _ o e
  · cases h

/-- The run of the task that shakes hands. -/
theorem shakes_unwind : ∀ {frames : List Frame} (o : Outcome) (e : Engine), EndsHandshake frames →
    Shakes (unwind frames o e)
  | [f], o, e, h => by
      obtain ⟨g, hg, hh⟩ := h
      obtain rfl : f = g := by simpa using hg
      have hr := shakes_resume hh o e
      unfold unwind
      split
      · rename_i e' o' he
        rw [he] at hr
        cases o' with
        | value v => exact hr
        | failure x => trivial
        | cancelled => trivial
      · rename_i e' p frames he
        rw [he] at hr
        simpa only [Shakes, List.append_nil] using hr
      · rename_i e' frames he
        rw [he] at hr
        simpa only [Shakes, List.append_nil] using hr
  | f :: g :: outer, o, e, h => by
      have houter : EndsHandshake (g :: outer) := by
        obtain ⟨last, hl, hh⟩ := h
        exact ⟨last, by simpa [List.getLast?_cons_cons] using hl, hh⟩
      unfold unwind
      split
      · exact shakes_unwind _ _ houter
      · exact endsHandshake_append houter
      · exact endsHandshake_append houter
  | [], _, _, h => by
      obtain ⟨f, hf, _⟩ := h
      cases hf

/-! ### The answer of a request -/

/-- The run of a request goes on waiting under its id, or ends with what it returned; it returns a
    value only if that is what its answer had come out as. -/
def Returns (id : Nat) (e : Engine) : Run → Prop
  | (e', .done o) => (∃ earlier, e'.history = earlier ++ [.returned id o]) ∧
      ∀ v, o = .value v → e.outcome? (.answer id) = some (.value v)
  | (_, .wait _ frames) => ∃ f, frames = [f] ∧ f.request? = some id
  | (_, .pause _) => False

section

variable {id : Nat} {e e₀ : Engine} {f : Frame}

theorem returns_endRequest {o : Outcome}
    (h : ∀ v, o = .value v → e₀.outcome? (.answer id) = some (.value v)) :
    Returns id e₀ (e.endRequest id o) :=
  ⟨⟨_, rfl⟩, h⟩

theorem returns_abandon (h : f.request? = some id) : Returns id e₀ (e.abandon id f) := ⟨f, rfl, h⟩

theorem returns_awaitAnswer (method : String) (limit : Int)
    (h : e.outcome? (.answer id) = e₀.outcome? (.answer id)) :
    Returns id e₀ (e.awaitAnswer id method limit) := by
  unfold awaitAnswer
  split
  · split
    · rename_i o ho
      exact returns_endRequest fun v hv => by rw [← h, ho, hv]
    · exact returns_abandon rfl
  · exact ⟨_, rfl, rfl⟩

theorem outcome?_arrive (x : Inbound) (e : Engine) :
    (e.arrive x).outcome? (.answer id) = e.outcome? (.answer id) := by
  unfold arrive
  simp only
  split
  · exact outcome?_settle_of_ne (by simp) _ _
  · rfl

/-- A message on its way answers nothing yet. -/
theorem outcome?_transmit (message : Json) (e : Engine) :
    (e.transmit message).2.outcome? (.answer id) = e.outcome? (.answer id) := by
  unfold transmit
  split
  · rfl
  · split
    · rfl
    · simp only [serverGets]
      split
      · split
        · rfl
        · split
          · exact outcome?_arrive _ _
          · rfl
      · rfl

theorem returns_pass (method : String) (limit : Int) (message : Json) (e : Engine) :
    Returns id e (e.pass (.request id method limit) message) := by
  unfold pass
  split
  · exact ⟨_, rfl, rfl⟩
  · have hsame : (e.transmit message).2.outcome? (.answer id) = e.outcome? (.answer id) :=
      outcome?_transmit message e
    generalize e.transmit message = sent at hsame
    obtain ⟨result, e₁⟩ := sent
    cases result with
    | ok u => exact returns_awaitAnswer method limit hsame
    | error x => exact returns_endRequest fun v hv => by cases hv

theorem returns_resume (hf : f.request? = some id) (o : Outcome) (e : Engine) :
    Returns id e (resume f o e) := by
  have hcancelled : Returns id e (e.endRequest id .cancelled) :=
    returns_endRequest fun v hv => by cases hv
  cases f with
  | gate purpose message =>
    cases purpose with
    | request id' method limit =>
      obtain rfl : id' = id := by simpa [Frame.request?] using hf
      cases o with
      | cancelled => exact hcancelled
      | value v => exact returns_pass method limit message e
      | failure x => exact returns_pass method limit message e
    | notify method => cases hf
    | reply id' => cases hf
  | requestAnswered id' method limit waiter timer =>
    obtain rfl : id' = id := by simpa [Frame.request?] using hf
    change Returns id' e (requestAnswered id' method limit waiter timer o e)
    unfold requestAnswered
    simp only
    split
    · rename_i o' _ ho
      exact returns_endRequest fun v hv => by rw [← hv]; exact ho
    · exact returns_abandon rfl
    · exact returns_abandon rfl
  | requestExpired id' method limit =>
    obtain rfl : id' = id := by simpa [Frame.request?] using hf
    cases o with
    | cancelled => exact hcancelled
    | value v => exact returns_endRequest fun v hv => by cases hv
    | failure x => exact returns_endRequest fun v hv => by cases hv
  | requestAborted id' =>
    obtain rfl : id' = id := by simpa [Frame.request?] using hf
    exact hcancelled
  | _ => cases hf

end

/-! ### Where the task of a handshake stands -/

/-- The frames of a task that shakes hands: it is to begin, it waits under the id of the request that
    it has made, or it tells the server that the handshake is over. -/
inductive Handshaking (history : List Event) : List Frame → Prop where
  | begins : Handshaking history [.begin .handshake]
  | asked {f : Frame} {id : Nat} : f.request? = some id → .called id "initialize" ∈ history →
      Handshaking history [f, .handshakeAnswered]
  | announces (message result : Json) :
      Handshaking history [.gate (.notify "initialized") message, .handshakeAnnounced result]

theorem Handshaking.append {history : List Event} {frames : List Frame}
    (h : Handshaking history frames) (more : List Event) : Handshaking (history ++ more) frames := by
  cases h with
  | begins => exact .begins
  | asked hf hmem => exact .asked hf (List.mem_append_left _ hmem)
  | announces message result => exact .announces message result

/-- The handshake is over, or still where it can stand. -/
def Proceeds : Run → Prop
  | (_, .done _) => True
  | (e, .wait _ frames) => Handshaking e.history frames
  | (e, .pause frames) => Handshaking e.history frames

/-- The notification that ends the handshake has passed, or stands at the gate. -/
def Announces (message : Json) : Run → Prop
  | (_, .done _) => True
  | (_, .wait _ frames) => frames = [.gate (.notify "initialized") message]
  | (_, .pause _) => False

theorem announces_pass (message : Json) (e : Engine) :
    Announces message (e.pass (.notify "initialized") message) := by
  unfold pass
  split
  · exact rfl
  · simp only
    generalize e.transmit message = sent
    obtain ⟨x | u, e₁⟩ := sent
    · simp only [passed]
      split <;> trivial
    · trivial

theorem announces_gateOpened (message : Json) (o : Outcome) (e : Engine) :
    Announces message (gateOpened (.notify "initialized") message o e) := by
  cases o with
  | cancelled => trivial
  | value v => exact announces_pass message e
  | failure x => exact announces_pass message e

theorem announces_initialized (e : Engine) :
    Announces initialized (e.notify (.str "initialized") (.obj [])) := by
  have hname : Message.notifyMethod (.str "initialized") = .ok "initialized" := rfl
  simp only [notify, hname]
  split
  · trivial
  · exact announces_pass _ _

/-- The client is ready when the notification has passed. -/
theorem proceeds_announced {run : Run} {message : Json} (h : Announces message run) (result : Json) :
    Proceeds (andThen run (.handshakeAnnounced result) (handshakeAnnounced result)) := by
  obtain ⟨e, o | ⟨p, frames⟩ | frames⟩ := run
  · simp only [andThen]
    cases o with
    | value v =>
      simp only [handshakeAnnounced]
      split <;> trivial
    | failure x => trivial
    | cancelled => trivial
  · obtain rfl : frames = _ := h
    exact .announces message result
  · exact h.elim

theorem Leads.lasts {c : Config} {st : List Frame} {run : Run} (h : Leads c st run) :
    Lasts c.2 run.1 := by
  obtain ⟨e, o | ⟨p, frames⟩ | frames⟩ := run
  · exact Path.lasts h
  · exact Path.lasts h.1
  · exact Path.lasts h

theorem Lasts.mem {event : Event} {e e' : Engine} (h : Lasts e e') (hmem : event ∈ e.history) :
    event ∈ e'.history := by
  obtain ⟨more, hh⟩ := h.history
  rw [hh]
  exact List.mem_append_left _ hmem

/-- The run of a handshake's request, from a state in which the request has been made. -/
structure Requesting (f : Frame) (id : Nat) (e : Engine) (run : Run) : Prop where
  request : f.request? = some id
  leads : Leads ([f], e) [] run
  returns : Returns id e run
  called : .called id "initialize" ∈ e.history

theorem requesting_resume {f : Frame} {id : Nat} {e : Engine} (hf : f.request? = some id)
    (hc : .called id "initialize" ∈ e.history) (o : Outcome) : Requesting f id e (resume f o e) :=
  ⟨hf, leads_resume f o, returns_resume hf o e, hc⟩

/-- A handshake makes its request only on a connection that is open. -/
theorem handshake_cases (e : Engine) : (∃ x, e.handshake = (e, .done (.failure x))) ∨
    ∃ params limit run, e.client.closed = false ∧
      e.handshake = andThen run .handshakeAnswered handshakeAnswered ∧
      let id := (e.enroll "initialize").1
      Requesting (.gate (.request id "initialize" limit) (greeting id params)) id
        ((e.enroll "initialize").2.note (.handed (greeting id params))) run := by
  have hname : Message.requestMethod (.str "initialize") = .ok "initialize" := rfl
  simp only [handshake]
  split
  · exact .inl ⟨_, rfl⟩
  · simp only [request, hname]
    split
    · exact .inl ⟨_, rfl⟩
    · rename_i params _ hclosed
      have hcalled : .called (e.enroll "initialize").1 "initialize" ∈
          (e.enroll "initialize").2.history := List.mem_append_right _ (List.mem_singleton_self _)
      exact .inr ⟨params, _, _, by simpa using hclosed, rfl, rfl, leads_pass _ _,
        returns_pass _ _ _ _, List.mem_append_left _ hcalled⟩

theorem Requesting.proceeds {run : Run} {f : Frame} {id : Nat} {e : Engine}
    (h : Requesting f id e run) : Proceeds (andThen run .handshakeAnswered handshakeAnswered) := by
  obtain ⟨_, hl, hr, hc⟩ := h
  have hc := hl.lasts.mem hc
  obtain ⟨e', o | ⟨p, frames⟩ | frames⟩ := run
  · cases o with
    | value v =>
      simp only [andThen, handshakeAnswered]
      split
      · trivial
      · exact proceeds_announced (announces_initialized _) _
    | failure x => trivial
    | cancelled => trivial
  · obtain ⟨f, rfl, hf⟩ := hr
    exact .asked hf hc
  · exact hr.elim

/-- The run of a task that shakes hands. -/
theorem proceeds_unwind {frames : List Frame} {e : Engine} (h : Handshaking e.history frames)
    (o : Outcome) : Proceeds (unwind frames o e) := by
  cases h with
  | begins =>
    have hbegin : Proceeds e.handshake := by
      rcases handshake_cases e with ⟨x, heq⟩ | ⟨params, limit, run, _, heq, hr⟩
      · rw [heq]
        trivial
      · rw [heq]
        exact hr.proceeds
    rw [unwind_singleton]
    cases o with
    | cancelled => trivial
    | value v => exact hbegin
    | failure x => exact hbegin
  | asked hf hc =>
    rw [unwind_pair]
    exact (requesting_resume hf hc o).proceeds
  | announces message result =>
    rw [unwind_pair]
    exact proceeds_announced (announces_gateOpened message o e) result

/-! ### The client's handshake -/

section

variable {n : Option Nat} {m : Nat} {e e' : Engine}

/-- The client's handshake is a task that runs, or is still under way, or has ended. -/
def Shaken (n : Option Nat) (e : Engine) : Prop := Stands .handshake EndsHandshake n e

theorem abides_endsHandshake : Abides .handshake EndsHandshake where
  begins := ⟨_, rfl, rfl⟩
  leaves o e h := by
    have hs := shakes_unwind o e h
    generalize unwind _ o e = run at hs
    obtain ⟨e', o | ⟨p, frames⟩ | frames⟩ := run
    · trivial
    · exact hs
    · exact hs

theorem Shaken.grows (h : Shaken n e) (hn : Numbered e) (hg : Grows e e') : Shaken n e' :=
  Stands.grows h abides_endsHandshake hn hg

/-- The handshake is known by the frames with which its task began to run. -/
theorem Shaken.shakes {t : Task} {o : Outcome} (h : Shaken none e) (hn : Numbered e)
    (ht : e.tasks.get? m = some t)
    (hs : (reached (unwind t.frames o (e.pick m))).2.client.handshake = some (.task m)) :
    Shakes (unwind t.frames o (e.pick m)) :=
  shakes_unwind o _ (Stands.frames h hn ht hs)

theorem Shaken.act (h : Shaken none e) (hn : Numbered e) (a : Action) : Shaken none (e.act a) :=
  Stands.act h abides_endsHandshake hn a

end

end Engine

end LanguageClient
