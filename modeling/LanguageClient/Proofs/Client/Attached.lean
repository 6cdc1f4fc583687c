import LanguageClient.Proofs.Client.Enduring
import LanguageClient.Proofs.Registry

/-!
Who is attached. A note is taken of every call that attaches or detaches, so in every state those are
attached whom the calls so far have left (`Listed`), however they came about: from the outside, from a
document that is closed, or from those who were told of a notification.
-/

namespace LanguageClient

/-- The call that attached or detached. -/
def Event.registration? : Event → Option (Registration Subscriber)
  | .registered r => some r
  | _ => none

/-- The calls that attached and detached, oldest first. -/
def registrations (history : List Event) : List (Registration Subscriber) :=
  history.filterMap Event.registration?

theorem registrations_append (history more : List Event) :
    registrations (history ++ more) = registrations history ++ registrations more :=
  List.filterMap_append ..

theorem registrations_eq_nil {more : List Event} (h : ∀ event ∈ more, event.registration? = none) :
    registrations more = [] := by
  rw [registrations, List.filterMap_eq_nil_iff]
  exact h

theorem Event.registration?_of_ordinary {event : Event} (h : event.ordinary = true) :
    event.registration? = none := by
  cases event with
  | registered r => cases h
  | _ => rfl

theorem Event.registration?_of_reader {event : Event} (h : event.ofReader = true) :
    event.registration? = none := by
  cases event with
  | registered r => cases h
  | _ => rfl

namespace Engine

variable {c c' : Config} {st : List Frame} {e e' : Engine}

/-- Those are attached whom the calls have left. -/
def Listed (e : Engine) : Prop :=
  e.client.subscribers = Registry.registered [] (registrations e.history)

theorem Jots.listed {more : List Event} (hj : Jots more e.client.subscribers e e')
    (hm : ∀ event ∈ more, event.registration? = none) (h : Listed e) : Listed e' := by
  rw [Listed, hj.subscribers, hj.history, registrations_append, registrations_eq_nil hm,
    List.append_nil]
  exact h

theorem Notes.listed {p : Event → Bool} (hn : Notes p e e')
    (hp : ∀ event, p event = true → event.registration? = none) (h : Listed e) : Listed e' := by
  obtain ⟨more, hj, hm⟩ := hn
  exact hj.listed (fun event hmem => hp event (hm event hmem)) h

theorem Records.listed (hr : Records c c') (h : Listed c.2) : Listed c'.2 := by
  cases hr with
  | ordinary hn => exact hn.listed (fun _ => Event.registration?_of_ordinary) h
  | starts => exact h
  | registers r hj =>
    rw [Listed, hj.subscribers, hj.history, registrations_append]
    exact (congrArg (·.register r) h).trans (Registry.registered_concat _ _ r).symm
  | replies id => exact (jots_note (.handed (Message.response id .null)) _).listed (by simp [Event.registration?]) h
  | reads hevent hj =>
    exact hj.listed (by simpa using Event.registration?_of_reader hevent) h
  | shuts hmore hj =>
    refine hj.listed (fun event hmem => ?_) h
    rcases List.mem_append.mp hmem with hmem | hmem
    · exact Event.registration?_of_reader (hmore event hmem)
    · rw [List.mem_singleton.mp hmem]
      rfl
  | joins hj => exact hj.listed (by simp [Event.registration?]) h

theorem enduring_listed : Enduring fun c => Listed c.2 where
  step h hc hs := (hs.records hc).listed h
  aside h ha := ha.inward.listed (fun _ hi => Event.registration?_of_ordinary (Event.ordinary_of_inward hi)) h
  move h _ := h
  ends h _ := by
    rw [Listed, settle_client, settle_history]
    exact h

/-- In every state that a client can come to, those are attached whom the calls have left. -/
theorem listed_after (options : ClientOptions) (script : ServerScript) (actions : List Action) :
    Listed ((create options script).after actions) :=
  enduring_listed.after actions rfl (attended_create options script)

end Engine

end LanguageClient
