import LanguageClient.Proofs.Client.Correlation

/-!
What one frame does to the reader. Nearly every frame is handled, and the reader goes on with the next
one: a frame that is no message is dropped, a response settles the answer that it names, and a
notification is told to the subscribers. A few frames break the reader (`Breaks`): the client is then
closed, and every request that waits fails.

    frame ──read?──▶ none       dropped
              ├────▶ message ──handle──▶ settled, told, or nothing to do     the next frame
              │                  └─────▶ a member of the wrong kind ──┐
              └────▶ beyond the limits ───────────────────────────────┴──▶   the reader ends
-/

namespace LanguageClient

/-! ### Messages that cannot be handled -/

/-- A list or an object, which no table has as a key. -/
def Json.compound : Json → Bool
  | .arr _ | .obj _ => true
  | _ => false

namespace Json

variable {v : Json}

theorem asKey_of_compound (h : v.compound = true) : ∃ x, v.asKey = .error x := by
  cases v with
  | arr items => exact ⟨_, rfl⟩
  | obj members => exact ⟨_, rfl⟩
  | _ => cases h

theorem asKey_of_simple (h : v.compound = false) : v.asKey = .ok v := by
  cases v with
  | arr items => cases h
  | obj members => cases h
  | _ => rfl

theorem getOr_of_kind (h : v.kind ≠ .obj) (key : String) (default : Json) :
    ∃ x, v.getOr key default = .error x := by
  cases v with
  | obj members => exact absurd rfl h
  | _ => exact ⟨_, rfl⟩

theorem getOr_obj (members : Members) (key : String) (default : Json) :
    getOr (.obj members) key default = .ok ((Members.get? key members).getD default) := rfl

end Json

namespace Message

/-- The message is for the user to read: its params hold a text. -/
def isShown (m : Json) : Bool :=
  let method := Json.ofOption (m.member? "method")
  method.same (.str "window/logMessage") || method.same (.str "window/showMessage")

/-- Is the member absent or null, or else of that kind? -/
def holds (key : String) (kind : Json.Kind) (m : Json) : Bool :=
  match m.member? key with
  | none | some .null => true
  | some v => v.kind = kind

/-- Is every member of the kind that it has in a message of the protocol? An id may be any value that
    is neither a list nor an object. Params may be a list, unless they hold a text for the user. -/
def wellFormed (m : Json) : Bool :=
  !(Json.ofOption (m.member? "id")).compound &&
    (m.member? "method").all (·.kind = .str) && holds "error" .obj m &&
    (holds "params" .obj m || (holds "params" .arr m && !isShown m))

end Message

namespace Engine

/-- What is wrong with a message that cannot be handled. -/
inductive Upsets (e : Engine) (m : Json) : Prop where
  /-- A response under an id that no table has as a key. -/
  | id : Message.isResponse m = true → (Json.ofOption (m.member? "id")).compound = true → Upsets e m
  /-- A response whose error is no object, to a request that waits. -/
  | error {id : Nat} {answer : Ref} {error : Json} : Message.answers id m = true →
      e.client.pending.get? id = some answer → e.outcome? answer = none →
      m.member? "error" = some error → error ≠ .null → error.kind ≠ .obj → Upsets e m
  /-- A notification whose method no table has as a key. -/
  | method : Message.isNotification m = true →
      (Json.ofOption (m.member? "method")).compound = true → Upsets e m
  /-- A text for the user, whose params are no object. -/
  | params {params : Json} : Message.isNotification m = true → Message.isShown m = true →
      m.member? "params" = some params → params.truthy = true → params.kind ≠ .obj → Upsets e m

/-- The reader breaks on a frame that goes beyond the limits of reading, and on a message that cannot
    be handled. -/
def Breaks (e : Engine) (frame : String) : Prop :=
  (∃ x, Message.read? frame = .error x) ∨ ∃ m, Message.read? frame = .ok (some m) ∧ Upsets e m

variable {e e' : Engine} {m id method params : Json} {frame : String} {rest : List Inbound}

/-! ### Responses -/

theorem requestNumber?_error_iff :
    (∃ x, Client.requestNumber? id = .error x) ↔ id.compound = true := by
  unfold Client.requestNumber?
  cases h : id.compound with
  | true =>
    obtain ⟨x, hx⟩ := Json.asKey_of_compound h
    simp [hx, bind, Except.bind]
  | false =>
    rw [Json.asKey_of_simple h]
    simp only [bind, Except.bind, pure, Except.pure]
    split <;> simp

/-- Only an error that is no object cannot be read. -/
theorem answerOf_error_iff {name : String} : (∃ x, Client.answerOf name m = .error x) ↔
    ∃ error, m.member? "error" = some error ∧ error ≠ .null ∧ error.kind ≠ .obj := by
  unfold Client.answerOf
  split
  · rename_i h
    simp [h, pure, Except.pure]
  · rename_i h
    simp [h, pure, Except.pure]
  · rename_i error hnull herror
    by_cases hkind : error.kind = .obj
    · obtain ⟨members, rfl⟩ : ∃ members, error = .obj members := by
        cases error with
        | obj members => exact ⟨members, rfl⟩
        | _ => cases hkind
      simp [herror, hkind, Json.getOr_obj, Json.get, bind, Except.bind, pure, Except.pure]
    · obtain ⟨x, hx⟩ := Json.getOr_of_kind hkind "code" (.int 0)
      simp only [hx, bind, Except.bind]
      exact ⟨fun _ => ⟨error, herror, hnull, hkind⟩, fun _ => ⟨x, rfl⟩⟩

/-- The two ways in which a response cannot be handled. -/
theorem upsets_response_iff (hr : Message.isResponse m = true) : Upsets e m ↔
    (Json.ofOption (m.member? "id")).compound = true ∨
      ∃ id answer, Client.requestNumber? (Json.ofOption (m.member? "id")) = .ok (some id) ∧
        e.client.pending.get? id = some answer ∧ e.outcome? answer = none ∧
        ∃ error, m.member? "error" = some error ∧ error ≠ .null ∧ error.kind ≠ .obj := by
  have hn : Message.isNotification m = false := by
    simp only [Message.isResponse, Bool.and_eq_true] at hr
    simp [Message.isNotification, hr.2]
  constructor
  · intro h
    cases h with
    | id _ hid => exact .inl hid
    | error ha hp ho he hnull hkind =>
      exact .inr ⟨_, _, (Message.answers_iff.mp ha).2, hp, ho, _, he, hnull, hkind⟩
    | method hm => simp [hn] at hm
    | params hm => simp [hn] at hm
  · rintro (hid | ⟨id, answer, hid, hp, ho, error, he, hnull, hkind⟩)
    · exact .id hr hid
    · exact .error (Message.answers_iff.mpr ⟨hr, hid⟩) hp ho he hnull hkind

theorem resolve_error_iff (hr : Message.isResponse m = true) :
    (∃ x, e.resolve (Json.ofOption (m.member? "id")) m = .error x) ↔ Upsets e m := by
  rw [upsets_response_iff hr, ← requestNumber?_error_iff]
  unfold resolve
  cases hn : Client.requestNumber? (Json.ofOption (m.member? "id")) with
  | error x => simp [bind, Except.bind]
  | ok number =>
    simp only [bind, Except.bind, pure, Except.pure]
    cases number with
    | none => simp
    | some n =>
      cases hp : e.client.pending.get? n with
      | none => simp [hp]
      | some answer =>
        cases ho : e.outcome? answer with
        | some o => simp [isSettled, hp, ho]
        | none =>
          have herror := @answerOf_error_iff m
            (e.client.methodOf n (Json.ofOption (m.member? "id")))
          have hopen : e.isSettled answer = false := by
            rw [isSettled, ho]
            rfl
          simp only [hp, hopen, Bool.false_eq_true, if_false]
          constructor
          · intro h
            refine .inr ⟨n, answer, rfl, hp, ho, herror.mp ?_⟩
            cases ha : Client.answerOf (e.client.methodOf n (Json.ofOption (m.member? "id"))) m with
            | error x => exact ⟨x, rfl⟩
            | ok result => cases result <;> simp [ha] at h
          · rintro (⟨x, ⟨⟩⟩ | ⟨id, answer', _, _, _, he⟩)
            obtain ⟨x, hx⟩ := herror.mpr he
            exact ⟨x, by rw [hx]⟩

/-! ### Notifications -/

theorem isEvent_error_iff : (∃ x, Message.isEvent method = .error x) ↔ method.compound = true := by
  unfold Message.isEvent
  cases h : method.compound with
  | true =>
    obtain ⟨x, hx⟩ := Json.asKey_of_compound h
    simp [hx, bind, Except.bind]
  | false =>
    rw [Json.asKey_of_simple h]
    simp only [bind, Except.bind, pure, Except.pure]
    split <;> simp

/-- The record of a text for the user needs params that are an object, unless they are empty. -/
theorem notificationRecord_error_iff : (∃ x, notificationRecord method params = .error x) ↔
    if method.same (.str "window/logMessage") || method.same (.str "window/showMessage") then
      params.truthy = true ∧ params.kind ≠ .obj
    else method.compound = true := by
  unfold notificationRecord
  split
  · unfold Json.orElse
    by_cases ht : params.truthy = true
    · by_cases hkind : params.kind = .obj
      · obtain ⟨members, rfl⟩ : ∃ members, params = .obj members := by
          cases params with
          | obj members => exact ⟨members, rfl⟩
          | _ => cases hkind
        simp [ht, hkind, Json.getOr_obj, bind, Except.bind, pure, Except.pure]
      · obtain ⟨x, hx⟩ := Json.getOr_of_kind hkind "message" (.str "")
        simp [ht, hkind, hx, bind, Except.bind]
    · simp [ht, Json.getOr_obj, bind, Except.bind, pure, Except.pure]
  · rw [← isEvent_error_iff]
    cases Message.isEvent method with
    | error x => simp [bind, Except.bind]
    | ok known => cases known <;> simp [bind, Except.bind, pure, Except.pure]

theorem dispatch_error_iff : (∃ x, e.dispatch method params = .error x) ↔
    ∃ x, notificationRecord method params = .error x := by
  unfold dispatch
  cases notificationRecord method params with
  | error x => simp [bind, Except.bind]
  | ok record => simp [bind, Except.bind, pure, Except.pure]

theorem same_compound (h : method.compound = true) (name : String) :
    method.same (.str name) = false := by
  cases method with
  | arr items => rfl
  | obj members => rfl
  | _ => cases h

/-- The two ways in which a notification cannot be handled. -/
theorem upsets_notification_iff (hn : Message.isNotification m = true) : Upsets e m ↔
    ∃ x, notificationRecord (Json.ofOption (m.member? "method"))
      (Json.ofOption (m.member? "params")) = .error x := by
  have hr : Message.isResponse m = false := by
    simp only [Message.isNotification, Bool.and_eq_true] at hn
    simp [Message.isResponse, hn.1]
  rw [notificationRecord_error_iff]
  constructor
  · intro h
    cases h with
    | id hr' => simp [hr] at hr'
    | error ha => simp [hr, Message.answers_iff] at ha
    | method _ hm => simp [same_compound hm, hm]
    | params _ hs hp ht hkind =>
      unfold Message.isShown at hs
      rw [if_pos hs, hp]
      exact ⟨ht, hkind⟩
  · intro h
    split at h
    · rename_i hs
      cases hp : m.member? "params" with
      | none => simp [hp, Json.ofOption, Json.truthy] at h
      | some params =>
        rw [hp] at h
        exact .params hn hs hp h.1 h.2
    · exact .method hn h

/-! ### Any message -/

/-- A message cannot be handled in these ways only. -/
theorem handle_error_iff : (∃ x, e.handle m = .error x) ↔ Upsets e m := by
  cases hr : Message.isResponse m with
  | true =>
    rw [handle_of_response hr]
    exact resolve_error_iff hr
  | false =>
    cases hn : Message.isNotification m with
    | true =>
      have hs : Message.isServerRequest m = false := by
        simp only [Message.isNotification, Bool.and_eq_true, Bool.not_eq_true'] at hn
        simp [Message.isServerRequest, hn.2]
      rw [upsets_notification_iff hn, ← dispatch_error_iff (e := e)]
      simp [handle, hs, hr, hn]
    | false =>
      have hnot : ¬ Upsets e m := by
        intro h
        cases h with
        | id hr' => simp [hr] at hr'
        | error ha => simp [hr, Message.answers_iff] at ha
        | method hn' => simp [hn] at hn'
        | params hn' => simp [hn] at hn'
      simp only [hnot, iff_false, not_exists]
      intro x
      unfold handle
      simp only [hr, hn, Bool.false_eq_true, if_false]
      split <;> simp

theorem breaks_iff : Breaks e frame ↔ ∃ x, e.handleFrame frame = .error x := by
  unfold Breaks handleFrame
  cases hread : Message.read? frame with
  | error x => simp [bind, Except.bind]
  | ok read =>
    cases read with
    | none => simp [bind, Except.bind, pure, Except.pure]
    | some m => simp [bind, Except.bind, ← handle_error_iff]

/-- Whatever the state, a well-formed message can be handled. -/
theorem not_upsets_of_wellFormed (h : Message.wellFormed m = true) : ¬ Upsets e m := by
  simp only [Message.wellFormed, Message.holds, Bool.and_eq_true, Bool.or_eq_true,
    Bool.not_eq_true', Option.all_eq_true, decide_eq_true_eq] at h
  obtain ⟨⟨⟨hid, hmethod⟩, herror⟩, hparams⟩ := h
  intro hu
  cases hu with
  | id _ hcompound => simp [hid] at hcompound
  | error _ _ _ he hnull hkind =>
    rw [he] at herror
    simp_all
  | method hn hcompound =>
    simp only [Message.isNotification, Message.hasMethod, Bool.and_eq_true,
      Option.isSome_iff_exists] at hn
    obtain ⟨⟨method, hm⟩, _⟩ := hn
    have hkind := hmethod method hm
    rw [hm] at hcompound
    cases method with
    | arr items => cases hkind
    | obj members => cases hkind
    | _ => cases hcompound
  | @params params _ hshown hp htruthy hkind =>
    have hnull : params ≠ .null := by
      rintro rfl
      cases htruthy
    rw [hp, hshown] at hparams
    simp_all

/-! ### What a message leaves alone -/

/-- Telling the subscribers changes neither the requests nor the connection. Of the client it changes
    only who is told from now on. -/
structure Tells (e e' : Engine) : Prop where
  client : ∃ subscribers, e'.client = { e.client with subscribers }
  channel : e'.channel = e.channel
  answers : ∀ id, e'.standing (.answer id) = e.standing (.answer id)

theorem tells_of_eq (hc : e'.client = e.client) (hchannel : e'.channel = e.channel)
    (hp : ∀ id, e'.standing (.answer id) = e.standing (.answer id)) : Tells e e' :=
  ⟨⟨e.client.subscribers, hc⟩, hchannel, hp⟩

theorem Tells.refl (e : Engine) : Tells e e := tells_of_eq rfl rfl fun _ => rfl

theorem Tells.trans {e₁ e₂ e₃ : Engine} (h : Tells e₁ e₂) (h' : Tells e₂ e₃) : Tells e₁ e₃ where
  client := by
    obtain ⟨subscribers, hc⟩ := h.client
    obtain ⟨subscribers', hc'⟩ := h'.client
    exact ⟨subscribers', by rw [hc', hc]⟩
  channel := h'.channel.trans h.channel
  answers id := (h'.answers id).trans (h.answers id)

theorem tells_log (level : Level) (message : String) (e : Engine) : Tells e (e.log level message) :=
  tells_of_eq rfl rfl fun _ => rfl

theorem tells_note (event : Event) (e : Engine) : Tells e (e.note event) :=
  tells_of_eq rfl rfl fun _ => rfl

theorem tells_spawn (op : Operation) (e : Engine) : Tells e (e.spawn op).2 := by
  refine tells_of_eq rfl rfl fun id => ?_
  have hs := standing_promise (.task e.nextRef) (.answer id) e
  rw [if_neg (by simp)] at hs
  exact hs

theorem tells_listen (r : Ref) (l : Listener) (e : Engine) : Tells e (e.listen r l) := by
  have hsame : (e.listen r l).client = e.client ∧ (e.listen r l).channel = e.channel := by
    rcases listen_cases r l e with h | ⟨listeners, _, h⟩ | ⟨_, h⟩ <;> rw [h] <;> exact ⟨rfl, rfl⟩
  exact tells_of_eq hsame.1 hsame.2 fun id => standing_listen r _ l e

theorem tells_register (r : Registration Subscriber) (e : Engine) : Tells e (e.register r) := by
  have he : Tells e (e.enlist r) := ⟨⟨_, rfl⟩, rfl, fun _ => rfl⟩
  rcases register_cases r e with heq | ⟨_, level, message, heq⟩
  · rw [heq]
    exact he
  · rw [heq]
    exact (he.trans (tells_log level message _)).trans (tells_spawn _ _)

theorem tells_registerAll : ∀ (rs : List (Registration Subscriber)) (e : Engine),
    Tells e (rs.foldl (fun e r => e.register r) e)
  | [], e => .refl e
  | r :: rs, e => (tells_register r e).trans (tells_registerAll rs _)

theorem tells_tellDocument (doc : Nat) (method params : Json) (e : Engine) :
    Tells e (e.tellDocument doc method params) := by
  unfold tellDocument
  split
  · have hsession (f : Session → Session) (e : Engine) : Tells e (e.onSession doc f) :=
      tells_of_eq rfl rfl fun _ => rfl
    exact ((tells_spawn _ e).trans (hsession _ _)).trans (tells_listen _ _ _)
  · exact .refl e

theorem tells_tellSink (name : String) (method params : Json) (e : Engine) :
    Tells e (e.tellSink name method params).2 := by
  unfold tellSink
  split
  · exact .refl e
  · rename_i sink _
    have hcalled : Tells e { e with
        sinks := e.sinks.put name { sink with calls := sink.calls ++ [(method, params)] } } :=
      tells_of_eq rfl rfl fun _ => rfl
    refine (hcalled.trans ?_).trans (tells_registerAll _ _)
    split
    · exact tells_register (.detach (.sink name)) _
    · exact .refl _

theorem tells_tell (method params : Json) (x : Subscriber) (e : Engine) :
    Tells e (tell method params e x) := by
  refine (tells_note (.notified x method params) e).trans ?_
  unfold tell
  cases x with
  | document doc => exact tells_tellDocument doc method params _
  | sink name =>
    have h := tells_tellSink name method params (e.note (.notified (.sink name) method params))
    simp only
    split
    · rename_i h'
      rwa [h'] at h
    · rename_i h'
      rw [h'] at h
      exact h.trans (tells_log _ _ _)

theorem tells_tellAll (method params : Json) : ∀ (xs : List Subscriber) (e : Engine),
    Tells e (xs.foldl (tell method params) e)
  | [], e => .refl e
  | x :: xs, e => (tells_tell method params x e).trans (tells_tellAll method params xs _)

theorem tells_logs (h : Logs e e') : Tells e e' := by
  cases h with
  | nothing => exact .refl e
  | line level message => exact tells_log level message e

/-- A message that is no response changes nothing that a request depends on, whatever id it carries. -/
theorem tells_handle (hr : Message.isResponse m = false) (h : e.handle m = .ok e') : Tells e e' := by
  cases handles_of_handle h with
  | request line _ => exact (tells_log _ _ e).trans (tells_spawn _ _)
  | response hr' => rw [hr] at hr'; cases hr'
  | notification _ _ hlogs => exact (tells_logs hlogs).trans (tells_tellAll _ _ _ _)
  | other => exact .refl e

/-! ### What a frame leaves alone -/

/-- A frame is handled: the client is as it was, apart from who is told from now on, and so are all
    answers except those that the frame names. -/
structure Spares (frame : String) (e e' : Engine) : Prop where
  client : ∃ subscribers, e'.client = { e.client with subscribers }
  answers : ∀ id, (∀ m, Message.read? frame = .ok (some m) → Message.answers id m = false) →
    e'.standing (.answer id) = e.standing (.answer id)

theorem Tells.spares (h : Tells e e') : Spares frame e e' := ⟨h.client, fun id _ => h.answers id⟩

theorem spares_resolve (hread : Message.read? frame = .ok (some m))
    (hrefs : ∀ id r, e.client.pending.get? id = some r → r = .answer id)
    (hr : Message.isResponse m = true)
    (h : e.resolve (Json.ofOption (m.member? "id")) m = .ok e') : Spares frame e e' := by
  rcases resolve_cases h with ⟨ha, _⟩ | ⟨n, answer, o, hn, hp, _, _, rfl⟩
  · exact ⟨⟨e.client.subscribers, ha.client⟩, fun id _ => ha.standing _⟩
  · obtain rfl := hrefs n answer hp
    refine ⟨⟨e.client.subscribers, settle_client _ _ e⟩, fun id hid => ?_⟩
    have hne : Ref.answer id ≠ .answer n := by
      intro heq
      have hnot := hid m hread
      rw [Ref.answer.inj heq, Message.answers_iff.mpr ⟨hr, hn⟩] at hnot
      cases hnot
    exact standing_settle_of_ne hne o e

theorem spares_handleFrame (hrefs : ∀ id r, e.client.pending.get? id = some r → r = .answer id)
    (h : (e.noteFrame frame).handleFrame frame = .ok e') : Spares frame e e' := by
  rcases handleFrame_cases h with ⟨_, rfl⟩ | ⟨m, hread, h⟩
  · exact (tells_log _ _ e).spares
  · cases hr : Message.isResponse m with
    | true =>
      rw [handle_of_response hr] at h
      have hs : Spares frame (e.note (.taken m)) e' := spares_resolve hread hrefs hr h
      exact ⟨hs.client, hs.answers⟩
    | false => exact ((tells_note (.taken m) e).trans (tells_handle hr h)).spares

/-! ### The reader in a run -/

/-- In some run, the reader is about to take something up. -/
inductive Taking : Engine → Prop where
  | intro {n : Nat} {t : Task} {st : List Frame} {e : Engine} (options : ClientOptions)
      (script : ServerScript) (actions : List Action) :
      ((create options script).after actions).tasks.get? n = some t →
      Path (t.frames, ((create options script).after actions).pick n) (.received :: st, e) →
      Taking e

/-- The reader takes up a frame, while others are left in the inbox. -/
def takeUp (frame : String) (rest : List Inbound) (e : Engine) : Except Failure Engine :=
  ((e.onChannel fun c => { c with inbox := rest }).noteFrame frame).handleFrame frame

theorem Taking.promised (h : Taking e) : Promised e := by
  obtain ⟨options, script, actions, ht, hp⟩ := h
  have hc := (correlated_create options script).after actions
  exact ((hc.pick ht).path hp).promised

theorem Taking.path (h : Taking e) (hp : ∀ st, Path (.received :: st, e) (.received :: st, e')) :
    Taking e' := by
  obtain ⟨options, script, actions, ht, hpath⟩ := h
  exact .intro options script actions ht (hpath.trans (hp _))

theorem path_takeUp {st : List Frame} (h : takeUp frame rest e = .ok e') :
    Path (.received :: st, e) (.received :: st, e') :=
  .head (.unload rest) (path_handleFrame h)

theorem Upsets.congr (h : Upsets e m) (hc : e'.client = e.client)
    (hs : ∀ r, e'.standing r = e.standing r) : Upsets e' m := by
  cases h with
  | id hr hid => exact .id hr hid
  | error ha hp hopen he hnull hkind =>
    refine .error ha (by rw [hc, hp]) ?_ he hnull hkind
    rwa [outcome?_eq_join, hs, ← outcome?_eq_join]
  | method hn hm => exact .method hn hm
  | params hn hs hp ht hk => exact .params hn hs hp ht hk

/-- Whether a frame breaks the reader depends on the requests that wait, and on nothing else. -/
theorem breaks_congr (hc : e'.client = e.client) (hs : ∀ r, e'.standing r = e.standing r) :
    Breaks e' frame ↔ Breaks e frame := by
  refine or_congr Iff.rfl (exists_congr fun m => and_congr Iff.rfl ⟨?_, ?_⟩)
  · exact fun h => h.congr hc.symm fun r => (hs r).symm
  · exact fun h => h.congr hc hs

theorem noteFrame_same (frame : String) (e : Engine) :
    (e.noteFrame frame).client = e.client ∧ ∀ r, (e.noteFrame frame).standing r = e.standing r := by
  unfold noteFrame
  split <;> exact ⟨rfl, fun _ => rfl⟩

theorem takeUp_error_iff : (∃ x, takeUp frame rest e = .error x) ↔ Breaks e frame := by
  let e₁ := e.onChannel fun c => { c with inbox := rest }
  obtain ⟨hc, hs⟩ := noteFrame_same frame e₁
  exact breaks_iff.symm.trans (breaks_congr hc hs)

theorem readAll_frame (frame : String) (rest : List Inbound) (e : Engine) :
    readAll (.frame frame :: rest) e =
      match takeUp frame rest e with
      | .error x =>
        ((e.onChannel fun c => { c with inbox := rest }).noteFrame frame).readerFails x
      | .ok e => readAll rest e := rfl

/-- The reader ends, whatever the failure: the client is closed, and every request has its outcome. -/
theorem readerFails_over (x : Failure) (h : Promised e) : ∃ e' o,
    e.readerFails x = (e', .done o) ∧ e'.client.closed = true ∧ e'.client.ready = false ∧
      e'.client.pending = e.client.pending ∧ Settled e' := by
  unfold readerFails
  split
  · have hlog := agrees_log .error ("LSP reader error: " ++ x.message) e
    exact ⟨_, _, rfl, (flags_shutDown _).1, (flags_shutDown _).2, (calm_shutDown _).pending,
      (h.congr hlog.client hlog.standing).settled_shutDown⟩
  · exact ⟨_, _, rfl, (flags_shutDown e).1, (flags_shutDown e).2, (calm_shutDown e).pending,
      h.settled_shutDown⟩

/-- Whenever the reader takes up a frame: unless the frame breaks it, it goes on with what stands in
    the inbox, the client is closed, ready and read from as before, the same requests wait, and an
    answer has changed only if the frame names it. So the next frame is taken up in the same way. Text
    that is no message never breaks the reader, and no well-formed message does. A frame that breaks
    it closes the client. -/
theorem frame_takenUp (h : Taking e) (frame : String) (rest : List Inbound) :
    (¬ Breaks e frame → ∃ e', takeUp frame rest e = .ok e' ∧ Taking e' ∧
      readAll (.frame frame :: rest) e = readAll rest e' ∧
      e'.client.closed = e.client.closed ∧ e'.client.ready = e.client.ready ∧
      e'.client.reader = e.client.reader ∧ e'.client.pending = e.client.pending ∧
      ∀ id, (∀ m, Message.read? frame = .ok (some m) → Message.answers id m = false) →
        e'.outcome? (.answer id) = e.outcome? (.answer id)) ∧
    ((Message.read? frame = .ok none ∨
        ∃ m, Message.read? frame = .ok (some m) ∧ Message.wellFormed m = true) →
      ¬ Breaks e frame) ∧
    (Breaks e frame → ∃ e' o, readAll (.frame frame :: rest) e = (e', .done o) ∧
      e'.client.closed = true ∧ e'.client.ready = false ∧
      ∀ id ∈ e.client.pending.keys, ∃ o, e'.outcome? (.answer id) = some o) := by
  let e₁ := e.onChannel fun c => { c with inbox := rest }
  have hp₁ : Promised e₁ := h.promised.congr rfl fun _ => rfl
  refine ⟨fun hb => ?_, ?_, fun hb => ?_⟩
  · cases ht : takeUp frame rest e with
    | error x => exact absurd (takeUp_error_iff.mp ⟨x, ht⟩) hb
    | ok e' =>
      have hs : Spares frame e₁ e' := spares_handleFrame (fun id r hr => (hp₁ id r hr).1) ht
      obtain ⟨subscribers, hc⟩ := hs.client
      refine ⟨e', rfl, h.path fun _ => path_takeUp ht, ?_, by rw [hc]; rfl, by rw [hc]; rfl,
        by rw [hc]; rfl, by rw [hc]; rfl, fun id hid => ?_⟩
      · rw [readAll_frame, ht]
      · rw [outcome?_eq_join, hs.answers id hid, outcome?_eq_join]
        rfl
  · rintro (hnone | ⟨m, hm, hw⟩) (⟨x, hx⟩ | ⟨m', hm', hu⟩)
    · simp [hnone] at hx
    · simp [hnone] at hm'
    · simp [hm] at hx
    · obtain rfl : m = m' := by simpa [hm] using hm'
      exact not_upsets_of_wellFormed hw hu
  · obtain ⟨x, hx⟩ := takeUp_error_iff.mpr hb
    obtain ⟨hc, hs⟩ := noteFrame_same frame e₁
    obtain ⟨e', o, heq, hclosed, hready, hpending, hsettled⟩ :=
      readerFails_over x (hp₁.congr hc hs)
    refine ⟨e', o, ?_, hclosed, hready, fun id hid => hsettled id ?_⟩
    · rw [readAll_frame, hx]
      exact heq
    · rw [hpending, hc]
      exact hid

/-- When the client has been started, its reader takes up what is there. -/
theorem started_takesUp :
    let e := ((create usual { capabilities := .obj [] }).after [.start]).pick 0
    Taking e ∧ e.client.closed = false ∧
      ∃ e', readAll [.frame "not json"] e = readAll [] e' ∧ e'.client.closed = false := by
  intro e
  have ht : Taking e :=
    .intro (t := { frames := [.begin .read] }) usual { capabilities := .obj [] } [.start] rfl
      (.single .read)
  have htaken := frame_takenUp ht "not json" []
  have hread : Message.read? "not json" = .ok none := rfl
  obtain ⟨e', _, _, heq, hclosed, _⟩ := htaken.1 (htaken.2.1 (.inl hread))
  exact ⟨ht, rfl, e', heq, hclosed⟩

/-- A response whose id is a list arrives at a client that is open and ready: the reader is over, and
    the client is closed. -/
theorem listedId_closes :
    let e := (create usual { capabilities := .obj [] }).after (.start :: runs 6)
    let e' := e.after [.arrive (.frame "\x7b\"id\":[1],\"result\":null\x7d"), .run]
    (e.client.closed = false ∧ e.client.ready = true ∧ e.client.reader.all e.isSettled = false) ∧
      e'.client.closed = true ∧ e'.client.ready = false ∧
      e'.client.reader.all e'.isSettled = true := by
  decide +kernel

end Engine

end LanguageClient
