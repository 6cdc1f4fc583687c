import LanguageClient.Proofs.Client.History
import LanguageClient.Proofs.Engine.Run

/-!
Requests and their responses. Most of what happens leaves the requests alone (`Calm`): it adds nothing
to the history that a request depends on, and settles answers at most as cancelled or closed. What is
left is a call, the end of a call, a response, and a message on which the reader breaks. The invariant
`Correlated` holds through all of these: the table of requests that wait lists exactly the frames that
wait for one, and whatever an answer was settled with is borne out by the first response.
-/

namespace LanguageClient

/-- Outcomes that no response has brought about. -/
def Outcome.unanswered : Outcome → Bool
  | .cancelled | .failure (.transportClosed _) => true
  | _ => false

theorem justified_of_unanswered {o : Outcome} (h : o.unanswered = true) (method : String)
    (first : Option Json) : Justified method first o := by
  unfold Outcome.unanswered at h
  split at h
  · trivial
  · trivial
  · cases h

namespace Engine

variable {c c' : Config} {st st' : List Frame} {e e' : Engine}

/-! ### What leaves the requests alone -/

/-- No request has been called, answered or ended. -/
structure Calm (e e' : Engine) : Prop where
  pending : e'.client.pending = e.client.pending
  methods : e'.client.methods = e.client.methods
  lastId : e'.client.lastId = e.client.lastId
  sendFailure : e'.channel.sendFailure = e.channel.sendFailure
  sent : e'.channel.sent = e.channel.sent
  history : ∃ more, e'.history = e.history ++ more ∧ ∀ event ∈ more, event.quiet = true
  answers : ∀ id, e'.standing (.answer id) = e.standing (.answer id) ∨
    (e.standing (.answer id) = some none ∧
      ∃ o, e'.standing (.answer id) = some (some o) ∧ o.unanswered = true)

theorem calm_of_eq (hp : e'.client.pending = e.client.pending)
    (hm : e'.client.methods = e.client.methods) (hl : e'.client.lastId = e.client.lastId)
    (hf : e'.channel.sendFailure = e.channel.sendFailure)
    (hw : e'.channel.sent = e.channel.sent) (hh : e'.history = e.history)
    (hs : ∀ id, e'.standing (.answer id) = e.standing (.answer id)) : Calm e e' :=
  ⟨hp, hm, hl, hf, hw, ⟨[], by simp [hh], by simp⟩, fun id => .inl (hs id)⟩

theorem Calm.refl (e : Engine) : Calm e e := calm_of_eq rfl rfl rfl rfl rfl rfl fun _ => rfl

theorem Calm.trans {e₁ e₂ e₃ : Engine} (h : Calm e₁ e₂) (h' : Calm e₂ e₃) : Calm e₁ e₃ where
  pending := h'.pending.trans h.pending
  methods := h'.methods.trans h.methods
  lastId := h'.lastId.trans h.lastId
  sendFailure := h'.sendFailure.trans h.sendFailure
  sent := h'.sent.trans h.sent
  history := added_trans h.history h'.history
  answers id := by
    rcases h'.answers id with heq | ⟨hopen, o, ho, hu⟩
    · rw [heq]
      exact h.answers id
    · rcases h.answers id with heq | ⟨_, o', ho', _⟩
      · exact .inr ⟨heq ▸ hopen, o, ho, hu⟩
      · rw [ho'] at hopen
        cases hopen

theorem calm_tallies (h : Tallies e e') : Calm e e' :=
  calm_of_eq (by rw [h.client]) (by rw [h.client]) (by rw [h.client]) h.sendFailure h.sent h.history
    fun id => h.standing (.answer id)

theorem calm_cancels (h : Cancels e e') : Calm e e' where
  pending := by rw [h.client]
  methods := by rw [h.client]
  lastId := by rw [h.client]
  sendFailure := by rw [h.channel]
  sent := by rw [h.channel]
  history := ⟨[], by simp [h.history], by simp⟩
  answers id := by
    rcases h.standing (.answer id) with heq | ⟨hopen, hs⟩
    · exact .inl heq
    · exact .inr ⟨hopen, .cancelled, hs, rfl⟩

theorem calm_note {event : Event} (h : event.quiet = true) (e : Engine) : Calm e (e.note event) where
  pending := rfl
  methods := rfl
  lastId := rfl
  sendFailure := rfl
  sent := rfl
  history := ⟨[event], rfl, by simpa using h⟩
  answers _ := .inl rfl

theorem calm_speak {message : Json} (h : (Event.handed message).quiet = true) (doc : Nat)
    (e : Engine) : Calm e (e.speak doc message) :=
  (calm_note rfl e).trans (calm_note h _)

theorem calm_agree (capabilities : Json) (e : Engine) : Calm e (e.agree capabilities) := by
  have hc : Calm e (e.onClient fun c => { c with capabilities }) :=
    calm_of_eq rfl rfl rfl rfl rfl rfl fun _ => rfl
  exact hc.trans (calm_note rfl _)

theorem calm_settle {r : Ref} {o : Outcome} (h : ∀ id, r = .answer id → o.unanswered = true)
    (e : Engine) : Calm e (e.settle r o) where
  pending := by rw [settle_client]
  methods := by rw [settle_client]
  lastId := by rw [settle_client]
  sendFailure := by rw [settle_channel]
  sent := by rw [settle_channel]
  history := ⟨[], by simp, by simp⟩
  answers id := by
    rcases standing_settle r (.answer id) o e with heq | ⟨hr, hopen, hs⟩
    · exact .inl heq
    · exact .inr ⟨hr ▸ hopen, o, hs, h id hr.symm⟩

theorem calm_settle_free {r : Ref} {o : Outcome} (h : r.Free o) (e : Engine) :
    Calm e (e.settle r o) := by
  refine calm_settle ?_ e
  rintro id rfl
  rcases h with rfl | ⟨m, rfl⟩
  · rfl
  · rfl

theorem calm_promise {r : Ref} (h : r.ofWait = true) (e : Engine) : Calm e (e.promise r) := by
  refine calm_of_eq rfl rfl rfl rfl rfl rfl fun id => ?_
  have hr : Ref.answer id ≠ r := by
    rintro rfl
    cases h
  rw [standing_promise, if_neg hr]

theorem calm_gather (members : List Ref) (tolerant : Bool) (e : Engine) :
    Calm e (e.gather members tolerant).2 :=
  ((calm_tallies (agrees_grouped members tolerant e).toTallies).trans (calm_promise rfl _)).trans
    (calm_tallies (agrees_gather members tolerant e).toTallies)

theorem calm_spawn (op : Operation) (e : Engine) : Calm e (e.spawn op).2 := by
  refine calm_of_eq rfl rfl rfl rfl rfl rfl fun id => ?_
  have hs := standing_promise (.task e.nextRef) (.answer id) e
  rw [if_neg (by simp)] at hs
  exact hs

theorem calm_onSession (doc : Nat) (f : Session → Session) (e : Engine) :
    Calm e (e.onSession doc f) :=
  calm_of_eq rfl rfl rfl rfl rfl rfl fun _ => rfl

theorem calm_onDocument (doc : Nat) (f : Document → Document) (e : Engine) :
    Calm e (e.onDocument doc f) := calm_onSession doc _ e

theorem calm_cancelSlot (doc : Nat) (e : Engine) : Calm e (e.cancelSlot doc).2 := by
  have hs : Calm e { e with slots := e.slots.erase doc } :=
    calm_of_eq rfl rfl rfl rfl rfl rfl fun _ => rfl
  exact hs.trans (calm_cancels (cancels_cancelSlot doc e))

theorem calm_scheduleFlush (doc : Nat) (e : Engine) : Calm e (e.scheduleFlush doc).2 := by
  have hs := (calm_cancelSlot doc e).trans
    (calm_spawn (.debounced doc (((e.session? doc).map (·.delay)).getD 0) (.flush doc)) _)
  exact hs.trans (calm_of_eq rfl rfl rfl rfl rfl rfl fun _ => rfl)

theorem calm_scheduleChange (doc : Nat) (text : List Char) (changes : Option (List Change))
    (e : Engine) : Calm e (e.scheduleChange doc text changes).2 := by
  obtain ⟨e₁, ha, he⟩ := scheduleChange_eq doc text changes e
  have hd : Calm e (e.edited doc text changes) := (calm_note rfl e).trans (calm_onDocument doc _ _)
  rw [he]
  exact (hd.trans (calm_tallies ha.toTallies)).trans (calm_scheduleFlush doc e₁)

theorem calm_noteOpened (doc : Nat) (sent : List Char) (e : Engine) :
    Calm e (e.noteOpened doc sent) := by
  unfold noteOpened
  simp only
  split
  · exact calm_onDocument doc _ e
  · split
    · exact ((calm_onDocument doc _ e).trans (calm_onDocument doc _ _)).trans
        (calm_scheduleFlush doc _)
    · exact calm_onDocument doc _ e

theorem calm_retext (doc : Nat) (text : Option (List Char)) (e : Engine) :
    Calm e (e.retext doc text) := by
  cases text with
  | none => exact .refl e
  | some text => exact (calm_note rfl e).trans (calm_onDocument doc _ _)

theorem calm_preset (doc : Nat) (text : Option (List Char)) (e : Engine) :
    Calm e (e.preset doc text) := by
  cases text with
  | none => exact .refl e
  | some text => exact (calm_note rfl e).trans (calm_onDocument doc (fun d => { d with text }) _)

theorem calm_clears {doc : Nat} (h : Clears doc c c') : Calm c.2 c'.2 := by
  cases h with
  | kept => exact .refl _
  | cancelled => exact calm_cancelSlot doc _
  | elapsed slot => exact calm_of_eq rfl rfl rfl rfl rfl rfl fun _ => rfl

theorem calm_sends {doc : Nat} (h : Sends doc c c') : Calm c.2 c'.2 := by
  cases h with
  | idle text => exact calm_retext doc text _
  | told =>
    exact ((calm_retext doc _ _).trans (calm_onDocument doc _ _)).trans (calm_speak rfl doc _)
  | closed text d => exact (calm_retext doc text _).trans (calm_onDocument doc (fun _ => d) _)

theorem calm_refreshes {doc : Nat} (h : Refreshes doc c c') : Calm c.2 c'.2 := by
  cases h with
  | idle => exact calm_cancelSlot doc _
  | sends _ hs => exact (calm_cancelSlot doc _).trans (calm_sends hs)

theorem quiet_of_remarks {event : Event} (h : Remarks st e event) : event.quiet = true := by
  cases h <;> rfl

theorem calm_settleAll (message : String) : ∀ (pending : Table Nat Ref) (e : Engine),
    Calm e (pending.foldl (fun e (_, answer) =>
      e.settle answer (.failure (.transportClosed message))) e)
  | [], e => .refl e
  | _ :: rest, e =>
      (calm_settle (fun _ _ => rfl) e).trans (calm_settleAll message rest _)

theorem calm_failPending (message : String) (e : Engine) :
    Calm e (e.failPending (.transportClosed message)) :=
  calm_settleAll message e.client.pending e

theorem calm_shutDown (e : Engine) : Calm e e.shutDown := by
  have hc : Calm e (e.onClient fun c => { c with ready := false, closed := true }) :=
    calm_of_eq rfl rfl rfl rfl rfl rfl fun _ => rfl
  unfold shutDown
  refine (Calm.trans ?_ (calm_failPending _ _)).trans (calm_note rfl _)
  split
  · exact hc.trans (calm_spawn _ _)
  · exact hc

theorem calm_startHandshake (e : Engine) : Calm e e.startHandshake.2 := by
  rcases startHandshake_cases e with ⟨_, heq⟩ | ⟨_, ha⟩
  · rw [heq]
    exact .refl e
  · have hc : Calm (e.spawn .handshake).2 e.shaking :=
      calm_of_eq rfl rfl rfl rfl rfl rfl fun _ => rfl
    exact ((calm_spawn .handshake e).trans hc).trans (calm_tallies ha)

theorem calm_startReader (e : Engine) : Calm e e.startReader := by
  rcases startReader_cases e with ⟨_, heq⟩ | ⟨_, heq⟩
  · rw [heq]
    exact .refl e
  · rw [heq]
    have hc : Calm (e.spawn .read).2 e.reading := calm_of_eq rfl rfl rfl rfl rfl rfl fun _ => rfl
    exact (calm_spawn .read e).trans hc

theorem calm_register (r : Registration Subscriber) (e : Engine) : Calm e (e.register r) := by
  have hc : Calm e (e.onClient fun c => { c with subscribers := c.subscribers.register r }) :=
    calm_of_eq rfl rfl rfl rfl rfl rfl fun _ => rfl
  have he : Calm e (e.enlist r) := hc.trans (calm_note rfl _)
  rcases register_cases r e with heq | ⟨_, level, message, heq⟩
  · rw [heq]
    exact he
  · rw [heq]
    exact (he.trans (calm_tallies (agrees_log level message _).toTallies)).trans (calm_spawn _ _)

/-! ### The invariant -/

/-- How the answer to a request stands is borne out by the first response. -/
def Consistent (method : String) (first : Option Json) : Option Outcome → Prop
  | none => first = none
  | some o => Justified method first o

/-- A request that waits was called, and its answer stands as the responses since then say. -/
def Waiting (id : Nat) (method : String) (e : Engine) : Prop :=
  ∃ during standing, since id e.history = some (method, during) ∧
    e.standing (.answer id) = some standing ∧
    Consistent method (firstAnswer? id during) standing

/-- Whatever a request has returned was borne out at that moment. -/
def Returned (history : List Event) : Prop :=
  ∀ before id o after, history = before ++ .returned id o :: after →
    ∃ method during, since id before = some (method, during) ∧
      Justified method (firstAnswer? id during) o

/-- What holds of the requests in every state. -/
structure Correlated (c : Config) : Prop where
  numbered : Numbered c.2
  keys : c.2.client.methods.keys = c.2.client.pending.keys
  refs : ∀ id r, c.2.client.pending.get? id = some r → r = .answer id
  nodup : c.2.client.pending.keys.Nodup
  flight : c.2.client.pending.keys.Perm ((frames c).filterMap Frame.request?)
  calls : c.2.history.filterMap Event.call? = List.range' 1 c.2.client.lastId
  wires : c.2.history.filterMap Event.wireId? = (List.range' 1 c.2.client.lastId).map Json.nat
  unended : ∀ id, id ∈ c.2.client.pending.keys ↔
    id ∈ c.2.history.filterMap Event.call? ∧ id ∉ c.2.history.filterMap Event.return?
  sends : ∀ f, c.2.channel.sendFailure = some f → f.isRefusal = false
  waiting : ∀ id method, c.2.client.methods.get? id = some method → Waiting id method c.2
  returned : Returned c.2.history

theorem split_of_not_mem {α : Type} {x : α} {xs more before after : List α} (hx : x ∉ more)
    (h : xs ++ more = before ++ x :: after) : ∃ after', xs = before ++ x :: after' := by
  rcases List.append_eq_append_iff.mp h with ⟨mid, _, hmore⟩ | ⟨mid, hxs, hafter⟩
  · simp [hmore] at hx
  · cases mid with
    | nil =>
      rw [List.nil_append] at hafter
      simp [← hafter] at hx
    | cons y rest =>
      obtain ⟨rfl, _⟩ := List.cons.inj hafter
      exact ⟨rest, hxs⟩

theorem Returned.append {history more : List Event} (h : Returned history)
    (hmore : ∀ id o, Event.returned id o ∉ more) : Returned (history ++ more) := by
  intro before id o after heq
  obtain ⟨after', hsplit⟩ := split_of_not_mem (hmore id o) heq
  exact h before id o after' hsplit

theorem Returned.mem_calls {history : List Event} {id : Nat} (h : Returned history)
    (hid : id ∈ history.filterMap Event.return?) : id ∈ history.filterMap Event.call? := by
  obtain ⟨event, hmem, hevent⟩ := List.mem_filterMap.mp hid
  obtain ⟨before, after, rfl⟩ := List.append_of_mem hmem
  cases event with
  | returned n o =>
    obtain rfl : n = id := by simpa [Event.return?] using hevent
    obtain ⟨method, during, hsince, _⟩ := h before n o after rfl
    rw [List.filterMap_append]
    exact List.mem_append_left _ (mem_of_since hsince)
  | _ => cases hevent

/-- A request that waits goes on waiting, whatever else is added to the history. -/
theorem Waiting.append {id : Nat} {method : String} {more : List Event} (h : Waiting id method e)
    (hh : e'.history = e.history ++ more)
    (hs : e'.standing (.answer id) = e.standing (.answer id))
    (hmore : e.standing (.answer id) = some none → ∀ event ∈ more, event.answer? id = none) :
    Waiting id method e' := by
  obtain ⟨during, standing, hsince, hstanding, hcons⟩ := h
  refine ⟨during ++ more, standing, ?_, hs.trans hstanding, ?_⟩
  · rw [hh]
    exact since_append more hsince
  · cases standing with
    | none => exact (firstAnswer?_append_of_forall during (hmore hstanding)).trans hcons
    | some o => exact Justified.append hcons more

theorem Waiting.unanswered {id : Nat} {method : String} {o : Outcome} {more : List Event}
    (h : Waiting id method e) (hh : e'.history = e.history ++ more)
    (hs : e'.standing (.answer id) = some (some o)) (hu : o.unanswered = true) :
    Waiting id method e' := by
  obtain ⟨during, _, hsince, _, _⟩ := h
  refine ⟨during ++ more, some o, ?_, hs, justified_of_unanswered hu _ _⟩
  rw [hh]
  exact since_append more hsince

theorem Waiting.calm {id : Nat} {method : String} (h : Waiting id method e) (hc : Calm e e') :
    Waiting id method e' := by
  obtain ⟨more, hh, hq⟩ := hc.history
  rcases hc.answers id with hs | ⟨_, o, hs, hu⟩
  · exact h.append hh hs fun _ event hmem => Event.answer?_of_quiet (hq event hmem) id
  · exact h.unanswered hh hs hu

theorem requests_grows (h : Grows e e') :
    e'.held.filterMap Frame.request? = e.held.filterMap Frame.request? := by
  obtain ⟨ops, hheld, _⟩ := h.held
  have hops : (ops.map Frame.begin).filterMap Frame.request? = [] := by
    simp [List.filterMap_map, Function.comp_def, Frame.request?]
  rw [hheld, List.filterMap_append, hops, List.append_nil]

/-- No request is called and none ends. -/
theorem Correlated.extend {more : List Event} (h : Correlated (st, e)) (hn : Numbered e')
    (hst : st'.filterMap Frame.request? = st.filterMap Frame.request?)
    (hheld : e'.held.filterMap Frame.request? = e.held.filterMap Frame.request?)
    (hp : e'.client.pending = e.client.pending) (hm : e'.client.methods = e.client.methods)
    (hl : e'.client.lastId = e.client.lastId)
    (hf : e'.channel.sendFailure = e.channel.sendFailure)
    (hh : e'.history = e.history ++ more) (hmore : ∀ event ∈ more, event.passive = true)
    (hw : ∀ id method, e.client.methods.get? id = some method → Waiting id method e') :
    Correlated (st', e') := by
  have hcalls : more.filterMap Event.call? = [] :=
    List.filterMap_eq_nil_iff.mpr fun event hmem => Event.call?_of_passive (hmore event hmem)
  have hwires : more.filterMap Event.wireId? = [] :=
    List.filterMap_eq_nil_iff.mpr fun event hmem => Event.wireId?_of_passive (hmore event hmem)
  have hreturns : more.filterMap Event.return? = [] :=
    List.filterMap_eq_nil_iff.mpr fun event hmem => Event.return?_of_passive (hmore event hmem)
  have hreturned : ∀ id o, Event.returned id o ∉ more := by
    intro id o hmem
    have hpassive := hmore _ hmem
    cases hpassive
  refine ⟨hn, ?_, ?_, ?_, ?_, ?_, ?_, ?_, ?_, ?_, ?_⟩
  · rw [hm, hp]
    exact h.keys
  · rw [hp]
    exact h.refs
  · rw [hp]
    exact h.nodup
  · have hflight := h.flight
    simp only [frames, List.filterMap_append] at hflight ⊢
    rw [hp, hst, hheld]
    exact hflight
  · rw [hh, List.filterMap_append, hcalls, List.append_nil, hl]
    exact h.calls
  · rw [hh, List.filterMap_append, hwires, List.append_nil, hl]
    exact h.wires
  · rw [hh, List.filterMap_append, hcalls, List.append_nil, List.filterMap_append, hreturns,
      List.append_nil, hp]
    exact h.unended
  · rw [hf]
    exact h.sends
  · rw [hm]
    exact hw
  · rw [hh]
    exact h.returned.append hreturned

theorem Correlated.calm (h : Correlated (st, e)) (hc : Calm e e') (hg : Grows e e')
    (hst : st'.filterMap Frame.request? = st.filterMap Frame.request?) : Correlated (st', e') := by
  obtain ⟨more, hh, hq⟩ := hc.history
  exact h.extend (h.numbered.grows hg) hst (requests_grows hg) hc.pending hc.methods hc.lastId
    hc.sendFailure hh (fun event hmem => Event.passive_of_quiet (hq event hmem))
    fun id method hm => (h.waiting id method hm).calm hc

/-- An id in use is one that has been given out. -/
theorem Correlated.le_lastId (h : Correlated c) {id : Nat} (hid : id ∈ c.2.client.pending.keys) :
    1 ≤ id ∧ id ≤ c.2.client.lastId := by
  rw [← h.keys] at hid
  obtain ⟨method, hm⟩ := Table.mem_keys_iff.mp hid
  obtain ⟨during, _, hsince, _⟩ := h.waiting id method hm
  have hmem := mem_of_since hsince
  rw [h.calls, List.mem_range'_1] at hmem
  omega

/-! ### Steps that concern the requests -/

/-- A call takes an id that has never been used. -/
theorem Correlated.call (h : Correlated (st, e)) (name : String) (limit : Int)
    (method params : Json) :
    Correlated (.gate (.request (e.enroll name).1 name limit)
        (Message.request (.nat (e.enroll name).1) method params) :: st,
      (e.enroll name).2.note
        (.handed (Message.request (.nat (e.enroll name).1) method params))) := by
  let id := e.client.lastId + 1
  let events : List Event :=
    [.called id name, .handed (Message.request (.nat id) method params)]
  have hhistory : ((e.enroll name).2.note
      (.handed (Message.request (.nat (e.enroll name).1) method params))).history
      = e.history ++ events := List.append_assoc _ _ _
  have hfresh : id ∉ e.client.pending.keys := by
    intro hid
    have hle : id ≤ e.client.lastId := (h.le_lastId hid).2
    omega
  have hfresh' : id ∉ e.client.methods.keys := by
    rw [h.keys]
    exact hfresh
  have hrange : List.range' 1 id = List.range' 1 e.client.lastId ++ [id] := by
    rw [List.range'_concat]
    simp [id, Nat.add_comm]
  have hnever : id ∉ e.history.filterMap Event.call? := by
    rw [h.calls, List.mem_range'_1]
    simp only [id]
    omega
  refine ⟨⟨h.numbered.nodup, h.numbered.lt⟩, ?_, ?_, ?_, ?_, ?_, ?_, ?_, h.sends, ?_, ?_⟩
  · change (e.client.methods.put id name).keys = (e.client.pending.put id (.answer id)).keys
    rw [Table.keys_put_of_not_mem _ hfresh, Table.keys_put_of_not_mem _ hfresh', h.keys]
  · intro n r hr
    change (e.client.pending.put id (.answer id)).get? n = some r at hr
    rw [Table.get?_put] at hr
    split at hr
    · rename_i hn
      rw [hn]
      exact (Option.some.inj hr).symm
    · exact h.refs n r hr
  · exact Table.nodup_keys_put h.nodup
  · change (e.client.pending.put id (.answer id)).keys.Perm
      (id :: (frames (st, e)).filterMap Frame.request?)
    rw [Table.keys_put_of_not_mem _ hfresh]
    exact (List.perm_append_singleton id _).trans (h.flight.cons id)
  · change _ = List.range' 1 id
    rw [hhistory, List.filterMap_append, h.calls, hrange]
    rfl
  · change _ = (List.range' 1 id).map Json.nat
    rw [hhistory, List.filterMap_append, h.wires, hrange, List.map_append]
    rfl
  · intro n
    have hcalls : events.filterMap Event.call? = [id] := rfl
    have hreturns : events.filterMap Event.return? = [] := rfl
    change n ∈ (e.client.pending.put id (.answer id)).keys ↔ _
    rw [hhistory, List.filterMap_append, List.filterMap_append, hcalls, hreturns, List.append_nil,
      Table.keys_put_of_not_mem _ hfresh, List.mem_append, List.mem_append, List.mem_singleton,
      h.unended n]
    constructor
    · rintro (⟨hc, hr⟩ | rfl)
      · exact ⟨.inl hc, hr⟩
      · exact ⟨.inr rfl, fun hr => hnever (h.returned.mem_calls hr)⟩
    · rintro ⟨hc | rfl, hr⟩
      · exact .inl ⟨hc, hr⟩
      · exact .inr rfl
  · intro n name' hn
    change (e.client.methods.put id name).get? n = some name' at hn
    have hs := standing_promise (.answer id) (.answer n) e
    rw [Table.get?_put] at hn
    split at hn
    · rename_i hid
      obtain rfl := Option.some.inj hn
      subst hid
      rw [if_pos rfl] at hs
      refine ⟨[.handed (Message.request (.nat id) method params)], none, ?_, hs, rfl⟩
      rw [hhistory, since_append_of_none events hnever]
      simp [events, since]
    · rename_i hid
      rw [if_neg (by simpa using hid)] at hs
      refine (h.waiting n name' hn).append hhistory hs fun _ => ?_
      intro event hmem
      simp only [events, List.mem_cons, List.not_mem_nil, or_false] at hmem
      rcases hmem with rfl | rfl <;> rfl
  · rw [hhistory]
    exact h.returned.append (by simp [events])

/-- A request that ends returns what is borne out, and waits no more. -/
theorem Correlated.endRequest {f : Frame} {id : Nat} {o : Outcome} (h : Correlated (f :: st, e))
    (hf : f.request? = some id) (ho : Ending id e o) :
    Correlated (st, (e.onClient (·.discharge id)).note (.returned id o)) := by
  have hflight : e.client.pending.keys.Perm
      (id :: (frames (st, e)).filterMap Frame.request?) := by
    have := h.flight
    simpa [frames, List.filterMap_cons, hf] using this
  have hid : id ∈ e.client.methods.keys := by
    rw [h.keys]
    exact hflight.symm.subset (List.mem_cons_self ..)
  obtain ⟨method, hm⟩ := Table.mem_keys_iff.mp hid
  obtain ⟨during, standing, hsince, hstanding, hcons⟩ := h.waiting id method hm
  have hjust : Justified method (firstAnswer? id during) o := by
    cases ho with
    | answered ho =>
      rw [outcome?_eq_join, hstanding] at ho
      obtain rfl : standing = some o := ho
      exact hcons
    | cancelled => trivial
    | timedOut => trivial
    | closed => trivial
    | @unsent f name hsend =>
      have hrefusal := h.sends f hsend
      unfold sendFailure
      split
      · trivial
      · split
        · trivial
        · cases f with
          | refused => cases hrefusal
          | _ => trivial
  refine ⟨⟨h.numbered.nodup, h.numbered.lt⟩, ?_, ?_, ?_, ?_, ?_, ?_, ?_, h.sends, ?_, ?_⟩
  · change (e.client.methods.erase id).keys = (e.client.pending.erase id).keys
    rw [Table.keys_erase, Table.keys_erase, h.keys]
  · intro n r hr
    change (e.client.pending.erase id).get? n = some r at hr
    rw [Table.get?_erase] at hr
    split at hr
    · cases hr
    · exact h.refs n r hr
  · exact Table.nodup_keys_erase h.nodup
  · change (e.client.pending.erase id).keys.Perm ((frames (st, e)).filterMap Frame.request?)
    have hnodup : (id :: (frames (st, e)).filterMap Frame.request?).Nodup :=
      hflight.nodup_iff.mp h.nodup
    rw [Table.keys_erase]
    refine (hflight.filter _).trans ?_
    rw [List.filter_cons_of_neg (by simp), List.filter_eq_self.mpr]
    intro n hn
    simp only [decide_eq_true_eq]
    rintro rfl
    exact (List.nodup_cons.mp hnodup).1 hn
  · change (e.history ++ [_]).filterMap Event.call? = _
    rw [List.filterMap_append, h.calls]
    exact List.append_nil _
  · change (e.history ++ [_]).filterMap Event.wireId? = _
    rw [List.filterMap_append, h.wires]
    exact List.append_nil _
  · intro n
    have hend : ([.returned id o] : List Event).filterMap Event.return? = [id] := rfl
    change n ∈ (e.client.pending.erase id).keys ↔
      n ∈ (e.history ++ [Event.returned id o]).filterMap Event.call? ∧
        n ∉ (e.history ++ [Event.returned id o]).filterMap Event.return?
    rw [List.filterMap_append, List.filterMap_append, hend, Table.keys_erase, List.mem_filter,
      h.unended n]
    simp [Event.call?, and_assoc]
  · intro n name hn
    change (e.client.methods.erase id).get? n = some name at hn
    rw [Table.get?_erase] at hn
    split at hn
    · cases hn
    · refine (h.waiting n name hn).append rfl rfl fun _ => ?_
      intro event hmem
      obtain rfl := List.mem_singleton.mp hmem
      rfl
  · intro before n o' after heq
    change e.history ++ [.returned id o] = _ at heq
    rcases List.append_eq_append_iff.mp heq with ⟨mid, hbefore, hmid⟩ | ⟨mid, hxs, hafter⟩
    · cases mid with
      | nil =>
        obtain ⟨⟨rfl, rfl⟩, _⟩ := List.cons.inj hmid
        rw [List.append_nil] at hbefore
        exact ⟨method, during, hbefore ▸ hsince, hjust⟩
      | cons x rest =>
        have := (List.cons.inj hmid).2
        simp at this
    · cases mid with
      | nil =>
        obtain ⟨⟨rfl, rfl⟩, _⟩ := List.cons.inj hafter
        rw [List.append_nil] at hxs
        exact ⟨method, during, hxs ▸ hsince, hjust⟩
      | cons x rest =>
        obtain ⟨rfl, _⟩ := List.cons.inj hafter
        exact h.returned before n o' rest hxs

/-- A response is the first one to the request that it names, or comes too late. -/
theorem Correlated.respond {m : Json} (h : Correlated (st, e)) (hr : Message.isResponse m = true)
    (he : (e.note (.taken m)).resolve (Json.ofOption (m.member? "id")) m = .ok e') :
    Correlated (st, e') := by
  have hnote : Grows e (e.note (.taken m)) := .of_tasks rfl (Nat.le_refl _) rfl
  rcases resolve_cases he with ⟨ha, hlate⟩ | ⟨n, answer, o, hn, hp, hopen, ho, rfl⟩
  · have hclient := ha.client
    have hg := hnote.trans (.of_tallies ha.toTallies)
    refine h.extend (h.numbered.grows hg) rfl (requests_grows hg) (by rw [hclient]; rfl)
      (by rw [hclient]; rfl) (by rw [hclient]; rfl) ha.sendFailure ha.history
      (by simp [Event.passive]) ?_
    intro id method hm
    refine (h.waiting id method hm).append ha.history (ha.standing _) fun hstanding => ?_
    intro event hmem
    obtain rfl := List.mem_singleton.mp hmem
    by_cases hid : Message.answers id m = true
    · have hkey : id ∈ e.client.pending.keys := h.keys ▸ Table.mem_keys_iff.mpr ⟨method, hm⟩
      obtain ⟨r, hget⟩ := Table.mem_keys_iff.mp hkey
      obtain rfl := h.refs id r hget
      refine absurd ?_ (hlate id _ (Message.answers_iff.mp hid).2 hget)
      rw [outcome?_eq_join]
      exact congrArg Option.join hstanding
    · simp [Event.answer?, hid]
  · obtain rfl := h.refs n answer hp
    have hkey : n ∈ e.client.methods.keys := h.keys ▸ Table.mem_keys_iff.mpr ⟨_, hp⟩
    obtain ⟨name, hname⟩ := Table.mem_keys_iff.mp hkey
    have hmethod : (e.note (.taken m)).client.methodOf n (Json.ofOption (m.member? "id")) = name := by
      change (e.client.methods.get? n).getD _ = name
      rw [hname, Option.getD_some]
    have hfirst : Event.answer? n (.taken m) = some m := by
      simp [Event.answer?, Message.answers_iff.mpr ⟨hr, hn⟩]
    have hg := hnote.trans (grows_settle (.answer n) o _)
    refine h.extend (h.numbered.grows hg) rfl (requests_grows hg) (by rw [settle_client]; rfl)
      (by rw [settle_client]; rfl) (by rw [settle_client]; rfl) (by rw [settle_channel]; rfl)
      (settle_history _ _ _) (by simp [Event.passive]) ?_
    intro id method hm
    have hhistory : ((e.note (.taken m)).settle (.answer n) o).history = e.history ++ [.taken m] :=
      settle_history _ _ _
    by_cases hid : id = n
    · subst hid
      obtain rfl : name = method := by simpa [hname] using hm
      obtain ⟨during, standing, hsince, hstanding, hcons⟩ := h.waiting id name hm
      obtain rfl : standing = none := by
        rw [outcome?_eq_join] at hopen
        exact (congrArg Option.join hstanding).symm.trans hopen
      have hanswer : firstAnswer? id (during ++ [.taken m]) = some m := by
        have hnone : firstAnswer? id during = none := hcons
        simp only [firstAnswer?] at hnone
        simp [firstAnswer?, List.findSome?_append, hnone, hfirst]
      have hopen' : (e.note (.taken m)).standing (.answer id) = some none := hstanding
      refine ⟨during ++ [.taken m], some o, ?_, standing_settle_self hopen' o, ?_⟩
      · rw [hhistory]
        exact since_append _ hsince
      · rw [hmethod] at ho
        rcases ho with ⟨result, ho, rfl⟩ | ⟨x, ho, rfl⟩
        · exact ⟨m, hanswer, Client.carries_of_answerOf ho⟩
        · obtain ⟨code, text, data, rfl, hrefuses⟩ := Client.refuses_of_answerOf ho
          exact ⟨rfl, m, hanswer, hrefuses⟩
    · have hs := standing_settle_of_ne (show Ref.answer id ≠ .answer n by simpa using hid) o
        (e.note (.taken m))
      refine (h.waiting id method hm).append hhistory hs fun _ => ?_
      intro event hmem
      obtain rfl := List.mem_singleton.mp hmem
      have hnot : ¬ Message.answers id m = true := by
        intro hid'
        have hsame := hn.symm.trans (Message.answers_iff.mp hid').2
        simp only [Except.ok.injEq, Option.some.injEq] at hsame
        exact hid hsame.symm
      simp [Event.answer?, hnot]

theorem standing_settleAll {id : Nat} (message : String) {pending : Table Nat Ref}
    (hmem : .answer id ∈ pending.map Prod.snd) (hopen : e.standing (.answer id) = some none) :
    (pending.foldl (fun e (_, answer) => e.settle answer (.failure (.transportClosed message)))
      e).standing (.answer id) = some (some (.failure (.transportClosed message))) := by
  induction pending generalizing e with
  | nil => simp at hmem
  | cons entry rest ih =>
    obtain ⟨n, r⟩ := entry
    by_cases hr : Ref.answer id = r
    · subst hr
      have hs := standing_settle_self hopen (.failure (.transportClosed message))
      -- the rest of the table finds the answer settled
      rcases (calm_settleAll message rest _).answers id with heq | ⟨hopen', _⟩
      · exact heq.trans hs
      · rw [hs] at hopen'
        cases hopen'
    · have hrest : .answer id ∈ rest.map Prod.snd := by simpa [hr] using hmem
      exact ih hrest ((standing_settle_of_ne hr _ e).trans hopen)

/-- When the stream of arrivals has ended, no answer is open any more. -/
theorem standing_shutDown {id : Nat} (hp : e.client.pending.get? id = some (.answer id))
    (hopen : e.standing (.answer id) = some none) :
    ∃ message, e.shutDown.standing (.answer id) = some (some (.failure (.transportClosed message))) := by
  have hmem : Ref.answer id ∈ e.client.pending.map Prod.snd := Table.mem_values_of_get? hp
  have hfail (e₁ : Engine) (message : String) (hc : e₁.client.pending = e.client.pending)
      (hs : e₁.standing (.answer id) = e.standing (.answer id)) :
      (e₁.failPending (.transportClosed message)).standing (.answer id)
        = some (some (.failure (.transportClosed message))) :=
    standing_settleAll message (hc ▸ hmem) (hs.trans hopen)
  refine ⟨_, hfail _ _ ?_ ?_⟩
  · split <;> rfl
  · split
    · have hs := standing_promise (.task e.nextRef) (.answer id) e
      rw [if_neg (by simp)] at hs
      exact hs
    · rfl

/-- The reader breaks on a message: nobody waits for a response any more. -/
theorem Correlated.crash {m : Json} (h : Correlated (st, e)) (ha : Tallies (e.note (.taken m)) e') :
    Correlated (st, e'.shutDown) := by
  have hnote : Grows e (e.note (.taken m)) := .of_tasks rfl (Nat.le_refl _) rfl
  have hg := hnote.trans (.of_tallies ha)
  have hc := calm_shutDown e'
  have hclient := ha.client
  obtain ⟨more, hh, hq⟩ := hc.history
  have hhistory : e'.shutDown.history = e.history ++ (.taken m :: more) := by
    rw [hh, ha.history]
    exact List.append_assoc _ _ _
  have hg' := hg.trans (h.numbered.grows hg).grows_shutDown
  refine h.extend (h.numbered.grows hg') rfl (requests_grows hg')
    (by rw [hc.pending, hclient]; rfl) (by rw [hc.methods, hclient]; rfl)
    (by rw [hc.lastId, hclient]; rfl) (hc.sendFailure.trans ha.sendFailure) hhistory ?_ ?_
  · intro event hmem
    rcases List.mem_cons.mp hmem with rfl | hmem
    · rfl
    · exact Event.passive_of_quiet (hq event hmem)
  · intro id method hm
    have hwait := h.waiting id method hm
    obtain ⟨standing, hstanding⟩ : ∃ standing, e.standing (.answer id) = some standing := by
      obtain ⟨_, standing, _, hstanding, _⟩ := hwait
      exact ⟨standing, hstanding⟩
    have hstanding' : e'.standing (.answer id) = some standing := (ha.standing _).trans hstanding
    have hkey : id ∈ e.client.pending.keys := h.keys ▸ Table.mem_keys_iff.mpr ⟨method, hm⟩
    obtain ⟨r, hget⟩ := Table.mem_keys_iff.mp hkey
    obtain rfl := h.refs id r hget
    cases standing with
    | none =>
      have hpending : e'.client.pending.get? id = some (.answer id) := by
        rw [hclient]
        exact hget
      obtain ⟨message, hs⟩ := standing_shutDown hpending hstanding'
      exact hwait.unanswered hhistory hs rfl
    | some o =>
      rcases hc.answers id with heq | ⟨hopen, _⟩
      · refine hwait.append hhistory (heq.trans (ha.standing _)) fun hopen => ?_
        rw [hstanding] at hopen
        cases hopen
      · rw [hstanding'] at hopen
        cases hopen

/-! ### When no answer can come -/

/-- Every request that waits is promised an answer. -/
def Promised (e : Engine) : Prop :=
  ∀ id r, e.client.pending.get? id = some r → r = .answer id ∧ ∃ s, e.standing r = some s

/-- Every request that waits has its outcome. -/
def Settled (e : Engine) : Prop :=
  ∀ id ∈ e.client.pending.keys, ∃ o, e.outcome? (.answer id) = some o

theorem Correlated.promised (h : Correlated (st, e)) : Promised e := by
  intro id r hp
  obtain rfl := h.refs id r hp
  have hkey : id ∈ e.client.methods.keys := h.keys ▸ Table.mem_keys_iff.mpr ⟨_, hp⟩
  obtain ⟨method, hm⟩ := Table.mem_keys_iff.mp hkey
  obtain ⟨_, standing, _, hstanding, _⟩ := h.waiting id method hm
  exact ⟨rfl, standing, hstanding⟩

theorem Promised.congr (h : Promised e) (hc : e'.client = e.client)
    (hs : ∀ r, e'.standing r = e.standing r) : Promised e' := by
  intro id r hp
  rw [hc] at hp
  rw [hs]
  exact h id r hp

/-- What had its outcome keeps it, and what was open has failed. -/
theorem Promised.settled (h : Promised e) (hc : Calm e e')
    (hf : ∀ id, e.client.pending.get? id = some (.answer id) →
      e.standing (.answer id) = some none →
      ∃ message, e'.standing (.answer id) = some (some (.failure (.transportClosed message)))) :
    Settled e' := by
  intro id hid
  rw [hc.pending] at hid
  obtain ⟨r, hp⟩ := Table.mem_keys_iff.mp hid
  obtain ⟨rfl, standing, hs⟩ := h id r hp
  simp only [outcome?_eq_join]
  cases standing with
  | none =>
    obtain ⟨message, hs'⟩ := hf id hp hs
    exact ⟨_, congrArg Option.join hs'⟩
  | some o =>
    rcases hc.answers id with heq | ⟨hopen, _⟩
    · exact ⟨o, congrArg Option.join (heq.trans hs)⟩
    · rw [hs] at hopen
      cases hopen

theorem Promised.settled_failPending (h : Promised e) (message : String) :
    Settled (e.failPending (.transportClosed message)) :=
  h.settled (calm_failPending message e) fun _ hp hs =>
    ⟨message, standing_settleAll message (Table.mem_values_of_get? hp) hs⟩

theorem Promised.settled_shutDown (h : Promised e) : Settled e.shutDown :=
  h.settled (calm_shutDown e) fun _ hp hs => standing_shutDown hp hs

/-! ### Every step, every run -/

theorem requests_clears {doc : Nat} (h : Clears doc c c') :
    c'.1.filterMap Frame.request? = c.1.filterMap Frame.request? := by
  cases h <;> rfl

theorem requests_sends {doc : Nat} (h : Sends doc c c') :
    c'.1.filterMap Frame.request? = c.1.filterMap Frame.request? := by
  rcases stack_sends h with h | h | ⟨_, h⟩ <;> rw [h] <;> rfl

theorem requests_refreshes {doc : Nat} (h : Refreshes doc c c') :
    c'.1.filterMap Frame.request? = c.1.filterMap Frame.request? := by
  rcases stack_refreshes h with h | h | ⟨_, h⟩ <;> rw [h] <;> rfl

/-- A question that is asked waits for no request yet. -/
theorem requests_unasked {f f' : Frame} {q : Nat × Feature × Nat} (hf : f.question? = some q)
    (hf' : f'.answers? = some q) :
    (f' :: st).filterMap Frame.request? = (f :: st).filterMap Frame.request? := by
  simp [Frame.request?_of_late (Frame.late_of_question hf), Frame.request?_of_answers hf']

theorem requests_asks {name : String} (h : Asks e name st st') :
    st'.filterMap Frame.request? = st.filterMap Frame.request? := by
  cases h with
  | late hf hf' => exact requests_unasked hf hf'
  | _ => rfl

/-- What a step does to the requests and to what has been sent: nothing, or it begins or ends a
    request, or it hands over a response, or it breaks the reader, or it sends what may pass. -/
inductive Concerns : Config → Config → Prop where
  | calm {st st' : List Frame} {e e' : Engine} : Calm e e' →
      st'.filterMap Frame.request? = st.filterMap Frame.request? → Concerns (st, e) (st', e')
  | call {st st' : List Frame} {e : Engine} (name : String) (limit : Int) (method params : Json) :
      e.client.closed = false → st'.filterMap Frame.request? = st.filterMap Frame.request? →
      Concerns (st, e) (.gate (.request (e.enroll name).1 name limit)
          (Message.request (.nat (e.enroll name).1) method params) :: st',
        (e.enroll name).2.note (.handed (Message.request (.nat (e.enroll name).1) method params)))
  | ends {st : List Frame} {e : Engine} {f : Frame} {id : Nat} {o : Outcome} :
      f.request? = some id → Ending id e o →
      Concerns (f :: st, e) (st, (e.onClient (·.discharge id)).note (.returned id o))
  | responds {st : List Frame} {e e' : Engine} {m : Json} : Message.isResponse m = true →
      (e.note (.taken m)).resolve (Json.ofOption (m.member? "id")) m = .ok e' →
      Concerns (st, e) (st, e')
  | breaks {st : List Frame} {e e' : Engine} {m : Json} : Tallies (e.note (.taken m)) e' →
      Concerns (.received :: st, e) (st, e'.shutDown)
  | sends {st : List Frame} {e : Engine} (purpose : Purpose) (message : Json) :
      Concerns (.gate purpose message :: st, e)
        (.gate purpose message :: st, e.onChannel fun c => { c with sent := c.sent ++ [message] })

theorem Step.concerns (hs : Step c c') : Concerns c c' := by
  cases hs with
  | agree ha => exact .calm (calm_tallies ha) rfl
  | push hf => exact .calm (.refl _) (by simp [Frame.request?_of_plain hf])
  | @pose _ _ doc => exact .calm ((calm_onSession doc _ _).trans (calm_note rfl _)) rfl
  | late hf _ _ _ hr =>
    refine .calm (calm_refreshes hr) ((requests_refreshes hr).trans ?_)
    simp [Frame.request?_of_late (Frame.late_of_question hf)]
  | remark hr => exact .calm (calm_note (quiet_of_remarks hr) _) rfl
  | unasked hf hf' => exact .calm (.refl _) (requests_unasked hf hf')
  | @shown _ _ doc => exact .calm ((calm_onSession doc _ _).trans (calm_note rfl _)) rfl
  | gathers _ _ _ _ _ hf =>
    exact .calm (.refl _) (by rw [List.filterMap_cons_none (Frame.request?_of_presents hf)]; rfl)
  | pop hf => exact .calm (.refl _) (by simp [hf])
  | promise hr => exact .calm (calm_promise (Ref.ofWait_of_sole hr) _) rfl
  | gather members tolerant => exact .calm (calm_gather members tolerant _) rfl
  | settle ha hr => exact .calm ((calm_tallies ha.toTallies).trans (calm_settle_free hr _)) rfl
  | spawn => exact .calm (calm_spawn _ _) rfl
  | call limit ha _ hopen => exact .call _ limit _ _ hopen (requests_asks ha)
  | await _ hf hf' => exact .calm (.refl _) (by simp [hf, hf'])
  | abandon hf hf' _ ha =>
    exact .calm ((calm_tallies ha.toTallies).trans (calm_settle (fun _ _ => rfl) _)) (by simp [hf, hf'])
  | endRequest hf ho => exact .ends hf ho
  | reply id => exact .calm (calm_note rfl _) rfl
  | notify => exact .calm (calm_note rfl _) rfl
  | read => exact .calm (.refl _) rfl
  | transmit purpose message => exact .sends purpose message
  | unload => exact .calm (calm_of_eq rfl rfl rfl rfl rfl rfl fun _ => rfl) rfl
  | take hr => exact .calm (calm_note (by simp [Event.quiet, hr]) _) rfl
  | @oblige st e e' m hs ha =>
    have hquiet : (Event.taken m).quiet = true := by
      simp [Event.quiet, isResponse_of_isServerRequest hs]
    have hnote := (calm_note hquiet e).trans (calm_tallies ha.toTallies)
    exact .calm (hnote.trans (calm_spawn _ _)) rfl
  | respond hr he => exact .responds hr he
  | register r => exact .calm (calm_register r _) rfl
  | notified => exact .calm (calm_note rfl _) rfl
  | startReader => exact .calm (calm_startReader _) rfl
  | handshake => exact .calm (calm_startHandshake _) rfl
  | agreed => exact .calm ((calm_agree _ _).trans (calm_note rfl _)) rfl
  | agreedClosed => exact .calm (calm_agree _ _) rfl
  | ready => exact .calm (calm_of_eq rfl rfl rfl rfl rfl rfl fun _ => rfl) rfl
  | close => exact .calm (calm_of_eq rfl rfl rfl rfl rfl rfl fun _ => rfl) rfl
  | cancelReader => exact .calm (calm_cancels (cancels_cancel _ _)) rfl
  | join => exact .calm (.refl _) rfl
  | joined message => exact .calm ((calm_failPending message _).trans (calm_note rfl _)) rfl
  | joinedFailed => exact .calm (calm_note rfl _) rfl
  | shutDown => exact .calm (calm_shutDown _) rfl
  | crash _ ha => exact .breaks ha.toTallies
  | preset doc text => exact .calm (calm_preset doc text _) rfl
  | opening => exact .calm (calm_speak rfl _ _) rfl
  | openingClosed => exact .calm (.refl _) rfl
  | opened doc sent => exact .calm (calm_noteOpened doc sent _) rfl
  | edit text changes => exact .calm (calm_scheduleChange _ text changes _) rfl
  | delay => exact .calm (.refl _) rfl
  | rehearse => exact .calm (calm_of_eq rfl rfl rfl rfl rfl rfl fun _ => rfl) rfl
  | unscheduled => exact .calm (calm_cancelSlot _ _) rfl
  | flush hc hs =>
    exact .calm ((calm_clears hc).trans (calm_sends hs))
      ((requests_sends hs).trans (requests_clears hc))

theorem Correlated.step (h : Correlated c) (hs : Step c c') : Correlated c' := by
  have hg := hs.grows h.numbered
  cases hs.concerns with
  | calm hc hst => exact h.calm hc hg hst
  | call name limit method params _ hst =>
    exact (h.calm (.refl _) (.refl _) hst).call name limit method params
  | ends hf ho => exact h.endRequest hf ho
  | responds hr he => exact h.respond hr he
  | @breaks st e e' m ha =>
    have hst : Correlated (st, e) := h.calm (.refl _) (.refl _) rfl
    exact hst.crash ha
  | sends =>
    exact ⟨⟨h.numbered.nodup, h.numbered.lt⟩, h.keys, h.refs, h.nodup, h.flight, h.calls, h.wires,
      h.unended, h.sends, h.waiting, h.returned⟩

theorem Correlated.path (h : Correlated c) (hp : Path c c') : Correlated c' := by
  induction hp with
  | refl => exact h
  | tail _ hs ih => exact ih.step hs

/-- Frames may move between the task that runs and those that wait. -/
theorem Correlated.move {tasks : Table Nat Task} (h : Correlated (st, e))
    (hn : Numbered { e with tasks })
    (hf : (frames (st', { e with tasks })).Perm (frames (st, e))) :
    Correlated (st', { e with tasks }) :=
  ⟨hn, h.keys, h.refs, h.nodup, h.flight.trans (hf.filterMap _).symm, h.calls, h.wires, h.unended,
    h.sends, h.waiting, h.returned⟩

theorem Correlated.keep {n : Nat} {waiting : Option Ref} (h : Correlated (st, e))
    (hr : Running n e) : Correlated ([], e.keep n st waiting) :=
  h.move (h.numbered.keep hr st waiting) (held_keep h.numbered hr st waiting)

theorem Correlated.rests {n : Nat} {run : Run} (h : Correlated (reached run))
    (hr : Running n (reached run).2) (hrest : Rests n run e) : Correlated ([], e) := by
  cases hrest with
  | @ended e' o =>
    have herase : Correlated ([], { e' with tasks := e'.tasks.erase n }) :=
      h.move (h.numbered.erase n) (held_erase h.numbered hr)
    exact herase.calm (calm_settle (fun _ hr => by cases hr) _) (grows_settle _ _ _) rfl
  | waits ha hc =>
    have hkept := (h.keep hr).calm (calm_tallies ha) (.of_tallies ha.toTallies) rfl
    exact hkept.calm (calm_cancels hc) (.of_cancels hc) rfl
  | pauses ha => exact (h.keep hr).calm (calm_tallies ha) (.of_tallies ha) rfl

theorem Correlated.pick {n : Nat} {t : Task} (h : Correlated ([], e))
    (ht : e.tasks.get? n = some t) : Correlated (t.frames, e.pick n) :=
  h.move (h.numbered.pick ht) (frames_pick h.numbered ht)

theorem Correlated.runTask {n : Nat} {t : Task} (h : Correlated ([], e))
    (ht : e.tasks.get? n = some t) (o : Outcome) : Correlated ([], e.runTask n t o) := by
  have hpick := h.pick ht
  have hpath := path_reached (leads_unwind t.frames (if t.cancelRequested then .cancelled else o)
    (e.pick n))
  have hrun := (running_pick n e).grows (Path.grows hpath hpick.numbered)
  exact (hpick.path hpath).rests hrun (rests_runTask n t o e)

theorem Correlated.runNext (h : Correlated ([], e)) : Correlated ([], e.runNext) := by
  obtain ⟨e₁, ha, hrun⟩ := runNext_cases e
  have h₁ : Correlated ([], e₁) := h.calm (calm_tallies ha) (.of_tallies ha) rfl
  rcases hrun with hp | ⟨n, t, ht, heq⟩
  · exact h₁.path hp
  · rw [heq]
    exact h₁.runTask ht _

theorem Correlated.closing {doc : Nat} (h : Correlated ([], e))
    (hc : Cancels ((e.onDocument doc fun d => { d with closed := true }).cancelSlot doc).2 e') :
    Correlated ([], e') :=
  h.calm (((calm_onDocument doc _ e).trans (calm_cancelSlot doc _)).trans (calm_cancels hc))
    (grows_closing hc) rfl

theorem Correlated.closeSession (h : Correlated ([], e)) (doc : Nat) :
    Correlated ([], e.closeSession doc) := by
  rcases closeSession_cases doc e with ⟨heq, _⟩ | ⟨s, e₁, _, _, hc, heq⟩
  · rw [heq]
    exact h
  · rw [heq]
    exact (h.closing hc).path (path_detach _)

theorem Correlated.spawn (h : Correlated ([], e)) (op : Operation) :
    Correlated ([], (e.spawn op).2) := by
  have hc := calm_spawn op e
  obtain ⟨more, hh, hq⟩ := hc.history
  refine h.extend (h.numbered.spawn op) rfl ?_ hc.pending hc.methods hc.lastId hc.sendFailure hh
    (fun event hmem => Event.passive_of_quiet (hq event hmem))
    fun id method hm => (h.waiting id method hm).calm hc
  rw [h.numbered.held_spawn op, List.filterMap_append]
  exact List.append_nil _

theorem Correlated.act (h : Correlated ([], e)) (a : Action) : Correlated ([], e.act a) := by
  have hedit (doc : Nat) (text : List Char) (changes : Option (List Change)) :
      Correlated ([], (e.scheduleChange doc text changes).2) :=
    h.calm (calm_scheduleChange doc text changes e)
      (h.numbered.grows_scheduleChange doc text changes) rfl
  cases a with
  | run => exact h.runNext
  | «begin» op => exact h.spawn op
  | cancel r => exact h.calm (calm_cancels (cancels_cancel r e)) (.of_cancels (cancels_cancel r e)) rfl
  | failSends f =>
    refine ⟨⟨h.numbered.nodup, h.numbered.lt⟩, h.keys, h.refs, h.nodup, h.flight, h.calls, h.wires,
      h.unended, ?_, h.waiting, h.returned⟩
    intro f' hf'
    obtain ⟨f, _, rfl⟩ := Option.map_eq_some_iff.mp hf'
    exact f.2
  | addSession s =>
    have hs : Calm e { e with sessions := e.sessions ++ [s] } :=
      calm_of_eq rfl rfl rfl rfl rfl rfl fun _ => rfl
    exact h.calm (hs.trans (calm_register (.attach (.document e.sessions.length)) _))
      (.of_tasks rfl (Nat.le_refl _) rfl) rfl
  | scheduleChange doc text changes => exact hedit doc text changes
  | viewChanged doc text changes =>
    exact (hedit doc text changes).path (path_viewChanged doc text changes)
  | closeSession doc => exact h.closeSession doc
  | _ => exact h.path (path_act rfl)

theorem correlated_create (options : ClientOptions) (script : ServerScript) :
    Correlated ([], create options script) where
  numbered := ⟨List.nodup_nil, by simp [create, Table.keys]⟩
  keys := rfl
  refs _ _ h := by cases h
  nodup := List.nodup_nil
  flight := .refl _
  calls := rfl
  wires := rfl
  unended _ := by simp [create, Table.keys]
  sends _ h := by cases h
  waiting _ _ h := by cases h
  returned before id o after h := by simp [create] at h

theorem Correlated.after : ∀ (actions : List Action) {e : Engine}, Correlated ([], e) →
    Correlated ([], e.after actions)
  | [], _, h => h
  | a :: rest, _, h => (h.act a).after rest

end Engine

end LanguageClient
