import LanguageClient.Proofs.Document.Batch
import LanguageClient.Proofs.Engine.Step

/-!
The server's copy of a document. A server reads the messages in the order in which they were handed
over: the message that opens the document brings the whole text, and every later one a list of
changes, which are carried out one after the other on the text that the server has by then.

    handed didOpen text ── handed didChange [c₁, c₂] ── handed didChange [c₃] ──▶ mirror
-/

namespace LanguageClient

/-! ### Reading changes -/

/-- The characters of a text that was sent. -/
def Json.sentText? : Json → Option (List Char)
  | .str s => some s.toList
  | _ => none

/-- A change that was sent. Without a range it is one of the whole text. -/
def ContentChange.ofJson? (v : Json) : Option ContentChange := do
  let text ← (← v.member? "text").sentText?
  match v.member? "range" with
  | none => return ⟨none, text⟩
  | some range =>
    let start ← Position.ofJson? (← range.member? "start")
    let stop ← Position.ofJson? (← range.member? "end")
    return ⟨some (start, stop), text⟩

@[simp] theorem Json.sentText?_text (s : List Char) : (Json.text s).sentText? = some s := by
  simp [Json.text, Json.sentText?]

@[simp] theorem ContentChange.ofJson?_toJson (c : ContentChange) :
    ContentChange.ofJson? c.toJson = some c := by
  obtain ⟨_ | ⟨start, stop⟩, text⟩ := c
  · simp [ContentChange.ofJson?, ContentChange.toJson, Json.member?, Members.get?]
  · simp [ContentChange.ofJson?, ContentChange.toJson, Json.member?, Members.get?]

theorem mapM_ofJson?_toJson : ∀ changes : List ContentChange,
    (changes.map ContentChange.toJson).mapM ContentChange.ofJson? = some changes
  | [] => rfl
  | c :: cs => by simp [mapM_ofJson?_toJson cs]

/-! ### Carrying changes out -/

/-- The text that a server ends with. -/
def followed (text : List Char) (changes : List ContentChange) : Option (List Char) :=
  (follow text changes).map Prod.snd

theorem follow_append (more : List ContentChange) : ∀ (text : List Char) (cs : List ContentChange),
    follow text (cs ++ more) = (follow text cs).bind fun (found, mid) =>
      (follow mid more).map fun (found', last) => (found ++ found', last)
  | text, [] => by simp [follow]
  | text, c :: cs => by
      cases hf : c.find? ⟨text⟩ with
      | none => simp [follow, hf]
      | some span =>
        obtain ⟨start, stop⟩ := span
        have ih := follow_append more (text.take start ++ c.text ++ text.drop stop) cs
        simp only [List.cons_append, follow, hf, ih, bind, Option.bind_some]
        cases follow (text.take start ++ c.text ++ text.drop stop) cs with
        | none => simp
        | some result =>
          obtain ⟨found, mid⟩ := result
          cases h : follow mid more <;> simp [h]

@[simp] theorem followed_nil (text : List Char) : followed text [] = some text := rfl

theorem followed_append (text : List Char) (cs more : List ContentChange) :
    followed text (cs ++ more) = (followed text cs).bind (followed · more) := by
  simp only [followed, follow_append]
  cases follow text cs with
  | none => rfl
  | some result =>
    obtain ⟨found, mid⟩ := result
    cases h : follow mid more <;> simp [h]

/-- A change of the whole text. -/
@[simp] theorem followed_whole (text new : List Char) : followed text [⟨none, new⟩] = some new := by
  simp [followed, follow, ContentChange.find?, Buffer.length]

/-! ### The mirror -/

namespace Message

/-- Is it a message of that method? -/
def isOf (method : String) (m : Json) : Bool :=
  match m.member? "method" with
  | some (.str name) => name == method
  | _ => false

theorem requestMethod_ok {method : Json} {name : String} (h : requestMethod method = .ok name) :
    method = .str name ∧ requestMethods.contains name = true := by
  cases method with
  | str s =>
    simp only [requestMethod, Json.asKey, bind, Except.bind, pure, Except.pure] at h
    split at h
    · rename_i hs
      obtain rfl := Except.ok.inj h
      exact ⟨rfl, hs⟩
    · cases h
  | _ => cases h

/-- A request has one of the methods of requests. -/
theorem isOf_request {method : Json} {name : String} (h : requestMethod method = .ok name)
    (id params : Json) (word : String) (hw : requestMethods.contains word = false) :
    isOf word (request id method params) = false := by
  obtain ⟨rfl, hname⟩ := requestMethod_ok h
  change (name == word) = false
  rw [beq_eq_false_iff_ne]
  rintro rfl
  rw [hname] at hw
  cases hw

/-- The text that a message brings that opens a document. -/
def openText? (m : Json) : Option (List Char) := do
  let document ← (← m.member? "params").member? "textDocument"
  (← document.member? "text").sentText?

/-- The changes that a message brings. -/
def changes? (m : Json) : Option (List ContentChange) := do
  match ← (← m.member? "params").member? "contentChanges" with
  | .arr changes => changes.mapM ContentChange.ofJson?
  | _ => none

end Message

/-- What a server makes of a message. It has no text before the document is opened, nor after
    changes that it cannot carry out. -/
def serverReads (text : Option (List Char)) (m : Json) : Option (List Char) :=
  if Message.isOf "textDocument/didOpen" m then Message.openText? m
  else if Message.isOf "textDocument/didChange" m then do followed (← text) (← Message.changes? m)
  else text

/-- What a server makes of an event. -/
def Event.reflected (text : Option (List Char)) : Event → Option (List Char)
  | .handed m => serverReads text m
  | _ => text

/-- The text that a server has of the document. -/
def mirror (history : List Event) : Option (List Char) := history.foldl Event.reflected none

/-- Events that say nothing of a document's text or of what the server can do. -/
def Event.mute : Event → Bool
  | .handed m =>
    !Message.isOf "textDocument/didOpen" m && !Message.isOf "textDocument/didChange" m
  | .agreed _ | .texted .. => false
  | _ => true

theorem mirror_concat (history : List Event) (event : Event) :
    mirror (history ++ [event]) = event.reflected (mirror history) := by
  simp [mirror, List.foldl_append]

theorem Event.reflected_of_mute {event : Event} (h : event.mute = true) (text : Option (List Char)) :
    event.reflected text = text := by
  cases event with
  | handed m =>
    simp only [Event.mute, Bool.and_eq_true, Bool.not_eq_true'] at h
    simp [Event.reflected, serverReads, h.1, h.2]
  | _ => rfl

theorem mirror_append_of_mute : ∀ {more : List Event} (history : List Event),
    (∀ event ∈ more, event.mute = true) → mirror (history ++ more) = mirror history
  | [], history, _ => by rw [List.append_nil]
  | event :: rest, history, h => by
      have hevent := h event (List.mem_cons_self ..)
      have hrest := mirror_append_of_mute (history ++ [event])
        fun event hmem => h event (List.mem_cons_of_mem _ hmem)
      rw [List.append_assoc] at hrest
      rw [← List.singleton_append, hrest, mirror_concat, Event.reflected_of_mute hevent]

namespace Engine

theorem mirror_didOpen (history : List Event) (d : Document) :
    mirror (history ++ [.handed (didOpen d)]) = some d.text := by
  have hopen : Message.isOf "textDocument/didOpen" (didOpen d) = true := rfl
  have htext : Message.openText? (didOpen d) = (Json.text d.text).sentText? := rfl
  rw [mirror_concat, Event.reflected, serverReads, if_pos hopen, htext, Json.sentText?_text]

theorem mirror_didChange (history : List Event) (d : Document) (changes : List ContentChange) :
    mirror (history ++ [.handed (didChange d changes)])
      = (mirror history).bind (followed · changes) := by
  have hopen : Message.isOf "textDocument/didOpen" (didChange d changes) = false := rfl
  have hchange : Message.isOf "textDocument/didChange" (didChange d changes) = true := rfl
  have hchanges : Message.changes? (didChange d changes)
      = (changes.map ContentChange.toJson).mapM ContentChange.ofJson? := rfl
  rw [mirror_concat, Event.reflected, serverReads, hopen, if_neg Bool.false_ne_true, if_pos hchange,
    hchanges, mapM_ofJson?_toJson]
  rfl

/-- The server reads what is handed over, whichever document it speaks for. -/
theorem mirror_speak (doc : Nat) (m : Json) (e : Engine) :
    mirror (e.speak doc m).history = mirror (e.history ++ [.handed m]) := by
  change mirror ((e.history ++ [.told doc m]) ++ [.handed m]) = _
  rw [mirror_concat, mirror_concat, mirror_concat]
  rfl

end Engine

end LanguageClient
