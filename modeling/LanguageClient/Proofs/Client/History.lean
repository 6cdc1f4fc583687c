import LanguageClient.Engine.State

/-!
What the history of a client says of its requests. A request is in flight from the moment it is
called; the first response that names it and is taken up from then on is the one that counts, and
whatever the request returns has to be borne out by it.

    called id ── … ── taken m (first response to id) ── … ── returned id o
-/

namespace LanguageClient

/-! ### Responses -/

namespace Message

/-- Is the message a response to the request of that id? -/
def answers (id : Nat) (m : Json) : Bool :=
  match Client.requestNumber? (Json.ofOption (m.member? "id")) with
  | .ok (some n) => isResponse m && n == id
  | _ => false

/-- The message carries no error but a result, null if it names none. -/
def Carries (m result : Json) : Prop :=
  (m.member? "error" = none ∨ m.member? "error" = some .null) ∧
    result = Json.ofOption (m.member? "result")

/-- The message carries an error with that code, text and data. -/
def Refuses (m code text data : Json) : Prop :=
  ∃ error, m.member? "error" = some error ∧ error ≠ .null ∧
    error.getOr "code" (.int 0) = .ok code ∧
    error.getOr "message" (.str "Unknown error") = .ok text ∧ error.get "data" = .ok data

theorem answers_iff {id : Nat} {m : Json} : answers id m = true ↔
    isResponse m = true ∧ Client.requestNumber? (Json.ofOption (m.member? "id")) = .ok (some id) := by
  unfold answers
  split
  · rename_i n h
    simp [h]
  · rename_i h
    simp only [Bool.false_eq_true, false_iff, not_and]
    intro _ hid
    exact h id hid

theorem answers_of_isResponse_eq_false {m : Json} (h : isResponse m = false) (id : Nat) :
    answers id m = false := by
  rw [← Bool.not_eq_true, answers_iff]
  simp [h]

end Message

namespace Client

theorem carries_of_answerOf {method : String} {m result : Json}
    (h : answerOf method m = .ok (.ok result)) : Message.Carries m result := by
  unfold answerOf at h
  split at h
  · rename_i herror
    cases h
    exact ⟨.inl herror, rfl⟩
  · rename_i herror
    cases h
    exact ⟨.inr herror, rfl⟩
  · rename_i error herror hnull
    simp only [bind, Except.bind] at h
    split at h
    · cases h
    · split at h
      · cases h
      · split at h <;> cases h

theorem refuses_of_answerOf {method : String} {m : Json} {x : Failure}
    (h : answerOf method m = .ok (.error x)) :
    ∃ code text data, x = .refused method code text data ∧ Message.Refuses m code text data := by
  unfold answerOf at h
  split at h
  · cases h
  · cases h
  · rename_i error hnull herror
    simp only [bind, Except.bind] at h
    split at h
    · cases h
    · rename_i code hcode
      split at h
      · cases h
      · rename_i text htext
        split at h
        · cases h
        · rename_i data hdata
          cases h
          exact ⟨code, text, data, rfl, error, herror, hnull, hcode, htext, hdata⟩

end Client

/-! ### Calls -/

namespace Event

/-- The id of a request that is begun. -/
def call? : Event → Option Nat
  | .called id _ => some id
  | _ => none

/-- The id of a request that has ended. -/
def return? : Event → Option Nat
  | .returned id _ => some id
  | _ => none

/-- The id that a message carries that asks for an answer. -/
def wireId? : Event → Option Json
  | .handed m => if Message.hasMethod m then m.member? "id" else none
  | _ => none

/-- The message that answers a request. -/
def answer? (id : Nat) : Event → Option Json
  | .taken m => if Message.answers id m then some m else none
  | _ => none

/-- Events that neither begin nor end a request. -/
def passive : Event → Bool
  | .handed m => !(Message.hasMethod m && (m.member? "id").isSome)
  | .called .. | .returned .. => false
  | _ => true

/-- Events that no request depends on. -/
def quiet : Event → Bool
  | .taken m => !Message.isResponse m
  | event => event.passive

theorem passive_of_quiet {event : Event} (h : event.quiet = true) : event.passive = true := by
  cases event with
  | taken m => rfl
  | _ => exact h

theorem answer?_of_quiet {event : Event} (h : event.quiet = true) (id : Nat) :
    event.answer? id = none := by
  cases event with
  | taken m =>
    have hr : Message.isResponse m = false := by simpa [quiet] using h
    simp [answer?, Message.answers_of_isResponse_eq_false hr]
  | _ => rfl

theorem call?_of_passive {event : Event} (h : event.passive = true) : event.call? = none := by
  cases event with
  | called id method => cases h
  | _ => rfl

theorem return?_of_passive {event : Event} (h : event.passive = true) : event.return? = none := by
  cases event with
  | returned id o => cases h
  | _ => rfl

theorem wireId?_of_passive {event : Event} (h : event.passive = true) : event.wireId? = none := by
  cases event with
  | handed m =>
    simp only [passive, Bool.not_eq_true', Bool.and_eq_false_iff, Option.isSome_eq_false_iff,
      Option.isNone_iff_eq_none] at h
    rcases h with h | h <;> simp [wireId?, h]
  | _ => rfl

end Event

/-- The method of a request and what has happened since it was called. -/
def since (id : Nat) : List Event → Option (String × List Event)
  | [] => none
  | .called n method :: rest => if n = id then some (method, rest) else since id rest
  | _ :: rest => since id rest

/-- The first response to a request. -/
def firstAnswer? (id : Nat) (events : List Event) : Option Json := events.findSome? (Event.answer? id)

/-- What a request returns is borne out by the first response to it: a result is the result of that
    response, and a refusal is its error, under the method that was called. -/
def Justified (method : String) (first : Option Json) : Outcome → Prop
  | .value (.data result) => ∃ m, first = some m ∧ Message.Carries m result
  | .value _ => False
  | .failure (.refused name code text data) =>
    name = method ∧ ∃ m, first = some m ∧ Message.Refuses m code text data
  | _ => True

theorem since_append {id : Nat} {method : String} {during : List Event} (more : List Event) :
    ∀ {history : List Event}, since id history = some (method, during) →
      since id (history ++ more) = some (method, during ++ more)
  | event :: rest, h => by
      cases event with
      | called n name =>
        by_cases hn : n = id
        · simp_all [since]
        · simp only [since, hn, if_false] at h
          simpa [since, hn] using since_append more h
      | _ =>
        have ih := since_append more (show since id rest = some (method, during) from h)
        exact ih

theorem since_append_of_none {id : Nat} (more : List Event) :
    ∀ {history : List Event}, id ∉ history.filterMap Event.call? →
      since id (history ++ more) = since id more
  | [], _ => rfl
  | event :: rest, h => by
      cases event with
      | called n name =>
        simp only [List.filterMap_cons, Event.call?, List.mem_cons, not_or] at h
        simpa [since, Ne.symm h.1] using since_append_of_none more h.2
      | _ =>
        have ih := since_append_of_none more (show id ∉ rest.filterMap Event.call? from h)
        exact ih

theorem mem_of_since {id : Nat} {method : String} {during : List Event} :
    ∀ {history : List Event}, since id history = some (method, during) →
      id ∈ history.filterMap Event.call?
  | event :: rest, h => by
      cases event with
      | called n name =>
        by_cases hn : n = id
        · simp [Event.call?, hn]
        · simp only [since, hn, if_false] at h
          simpa [Event.call?, Ne.symm hn] using mem_of_since h
      | _ =>
        have ih := mem_of_since (show since id rest = some (method, during) from h)
        exact ih

theorem firstAnswer?_append_of_some {id : Nat} {m : Json} {during : List Event}
    (h : firstAnswer? id during = some m) (more : List Event) :
    firstAnswer? id (during ++ more) = some m := by
  simp only [firstAnswer?] at h
  simp [firstAnswer?, List.findSome?_append, h]

theorem firstAnswer?_append_of_forall {id : Nat} {more : List Event} (during : List Event)
    (h : ∀ event ∈ more, event.answer? id = none) :
    firstAnswer? id (during ++ more) = firstAnswer? id during := by
  simp [firstAnswer?, List.findSome?_append, List.findSome?_eq_none_iff.mpr h]

/-- Later responses do not matter. -/
theorem Justified.append {id : Nat} {method : String} {during : List Event} {o : Outcome}
    (h : Justified method (firstAnswer? id during) o) (more : List Event) :
    Justified method (firstAnswer? id (during ++ more)) o := by
  unfold Justified at h ⊢
  split at h
  · obtain ⟨m, hm, hc⟩ := h
    exact ⟨m, firstAnswer?_append_of_some hm more, hc⟩
  · exact h
  · obtain ⟨hn, m, hm, hr⟩ := h
    exact ⟨hn, m, firstAnswer?_append_of_some hm more, hr⟩
  · trivial

end LanguageClient
