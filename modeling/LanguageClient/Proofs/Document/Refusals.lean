import LanguageClient.Json.Equality
import LanguageClient.Proofs.Document.Wording

/-!
Messages that the connection refuses. Whoever sends changes is told that they have been sent as soon as
the message was handed over and the connection has not failed in a way that is passed on (`Flushed`);
the document then counts on the server having them. So a change that is accepted leads to the text that
was meant, as long as no message that carries text was refused before it, and only so long.

    handed over:   didOpen   didChange   didChange   didChange
    accepted:      didOpen   didChange                            the server has the text that was meant
    accepted:      didOpen               didChange                the change is one of another text
-/

namespace LanguageClient

/-! ### What the server gets -/

/-- What a server makes of messages, one after the other. -/
def serverText (messages : List Json) : Option (List Char) := messages.foldl serverReads none

/-- The message that is handed over, if it carries text. -/
def Event.carried? : Event → Option Json
  | .handed m => if Message.carriesText m then some m else none
  | _ => none

/-- The messages that were handed over and carry text. -/
def carried (history : List Event) : List Json := history.filterMap Event.carried?

theorem serverReads_of_not_carriesText {m : Json} (h : Message.carriesText m = false)
    (text : Option (List Char)) : serverReads text m = text := by
  simp only [Message.carriesText, Bool.or_eq_false_iff] at h
  simp [serverReads, h.1, h.2]

/-- The other messages are nothing to a text. -/
theorem serverText_filter (messages : List Json) :
    serverText (messages.filter Message.carriesText) = serverText messages := by
  unfold serverText
  generalize (none : Option (List Char)) = text
  induction messages generalizing text with
  | nil => rfl
  | cons m rest ih =>
    cases hm : Message.carriesText m with
    | true => rw [List.filter_cons_of_pos hm, List.foldl_cons, List.foldl_cons, ih]
    | false =>
      rw [List.filter_cons_of_neg (by simp [hm]), List.foldl_cons,
        serverReads_of_not_carriesText hm, ih]

/-- A server that gets all that was handed over has the text of the mirror. -/
theorem serverText_carried (history : List Event) : serverText (carried history) = mirror history := by
  unfold serverText carried mirror
  generalize (none : Option (List Char)) = text
  induction history generalizing text with
  | nil => rfl
  | cons event rest ih =>
    rw [List.foldl_cons, ← ih]
    cases event with
    | handed m =>
      cases hm : Message.carriesText m with
      | true => simp [Event.carried?, hm, Event.reflected]
      | false => simp [Event.carried?, hm, Event.reflected, serverReads_of_not_carriesText hm]
    | _ => rfl

/-- Where a message stands among those that were handed over. -/
theorem exists_of_carried_prefix {messages : List Json} {m : Json} {history : List Event}
    (h : messages ++ [m] <+: carried history) : ∃ earlier later,
      history = earlier ++ .handed m :: later ∧ Message.carriesText m = true ∧
        carried earlier = messages := by
  obtain ⟨rest, hrest⟩ := h
  rw [List.append_assoc, List.singleton_append] at hrest
  obtain ⟨earlier, tail, rfl, hearlier, htail⟩ := List.filterMap_eq_append_iff.mp hrest.symm
  obtain ⟨skipped, event, later, rfl, hskipped, hevent, _⟩ := List.filterMap_eq_cons_iff.mp htail
  obtain ⟨rfl, hm⟩ : event = .handed m ∧ Message.carriesText m = true := by
    cases event with
    | handed m' =>
      obtain ⟨hcarries, rfl⟩ : Message.carriesText m' = true ∧ m' = m := by
        simpa [Event.carried?, and_comm] using hevent
      exact ⟨rfl, hcarries⟩
    | _ => cases hevent
  have hnone : carried skipped = [] := List.filterMap_eq_nil_iff.mpr hskipped
  refine ⟨earlier ++ skipped, later, by rw [List.append_assoc], hm, ?_⟩
  rw [carried, List.filterMap_append]
  change carried earlier ++ carried skipped = messages
  rw [hnone, List.append_nil]
  exact hearlier

/-- What is accepted leads to the text that was meant, as long as nothing was refused before. -/
theorem Faithful.accepted {first : List Char} {history : List Event} (h : Faithful first history)
    {before : List Json} {m : Json} (hm : Message.carriesText m = true)
    (hsent : (before ++ [m]).filter Message.carriesText <+: carried history) : ∃ earlier later,
      history = earlier ++ .handed m :: later ∧
        serverText (before ++ [m]) = some (wording 0 first earlier) := by
  have hsplit : (before ++ [m]).filter Message.carriesText
      = before.filter Message.carriesText ++ [m] := by
    rw [List.filter_append, List.filter_cons_of_pos hm, List.filter_nil]
  rw [hsplit] at hsent
  obtain ⟨earlier, later, hhistory, _, hearlier⟩ := exists_of_carried_prefix hsent
  refine ⟨earlier, later, hhistory, ?_⟩
  have hcarried : carried (earlier ++ [.handed m]) = (before ++ [m]).filter Message.carriesText := by
    rw [hsplit, ← hearlier, carried, List.filterMap_append]
    simp [Event.carried?, hm, carried]
  rw [← serverText_filter, ← hcarried, serverText_carried]
  exact h earlier m later hhistory hm

namespace Engine

variable {e : Engine}

/-! ### What the sender is told -/

/-- What comes of a message that tells of changes when its turn has come, and what its sender is told:
    it is accepted, or refused in a way that is only recorded, or in a way that is passed on, or held
    up. -/
inductive Delivery (m : Json) (e : Engine) : Run → Prop where
  | accepted {e' : Engine} : (e.transmit m).1 = .ok () →
      e'.channel.sent = e.channel.sent ++ [m] → Delivery m e (e', .done (.value (.flag true)))
  | recorded {e' : Engine} {f : Failure} : (e.transmit m).1 = .error f → f.isChannel = true →
      e'.channel = e.channel → Delivery m e (e', .done (.value (.flag true)))
  | passedOn {e' : Engine} {f : Failure} : (e.transmit m).1 = .error f → f.isChannel = false →
      e'.channel = e.channel → Delivery m e (e', .done (.failure f))
  | heldUp {e' : Engine} {n : Nat} : e.channel.blocked = true →
      e'.channel.sent = e.channel.sent → Delivery m e (e', .wait (.gate n)
        [.gate (.notify "textDocument/didChange") m, .changeSent])

/-- Sending the changes of a document: none are sent and that is said, or a message is handed over. -/
inductive Flushed (doc : Nat) (e : Engine) : Run → Prop where
  | nothing {o : Outcome} : o ≠ .value (.flag true) → Flushed doc e (e, .done o)
  | handed {e₁ : Engine} {m : Json} {run : Run} : Message.isOf "textDocument/didChange" m = true →
      e₁.history = e.history ++ [.told doc m, .handed m] → e₁.channel = e.channel →
      Delivery m e₁ run → Flushed doc e run

theorem sent_arrive (x : Inbound) (e : Engine) :
    (e.arrive x).channel.sent = e.channel.sent := by
  unfold arrive
  simp only
  split <;> simp [onChannel]

theorem sent_serverGets (m : Json) (e : Engine) :
    (e.serverGets m).channel.sent = e.channel.sent := by
  unfold serverGets
  split
  · simp only
    split
    · rfl
    · split
      · rw [sent_arrive]
        rfl
      · rfl
  · rfl

theorem sent_transmit {m : Json} (h : (e.transmit m).1 = .ok ()) :
    (e.transmit m).2.channel.sent = e.channel.sent ++ [m] := by
  unfold transmit at h ⊢
  split at h
  · cases h
  · split at h
    · cases h
    · rename_i hopen _ hnone
      simp only [hopen]
      exact sent_serverGets m _

theorem delivery_pass (m : Json) (e : Engine) :
    Delivery m e (andThen (e.pass (.notify "textDocument/didChange") m) .changeSent changeSent) := by
  unfold pass
  split
  · rename_i hblocked
    exact .heldUp hblocked rfl
  · cases hresult : (e.transmit m).1 with
    | ok u =>
      simp only [hresult, passed]
      exact .accepted hresult (sent_transmit hresult)
    | error f =>
      obtain ⟨hsame, _⟩ := transmit_error hresult
      cases hchannel : f.isChannel with
      | true =>
        simp only [hresult, hsame, passed, hchannel, if_true]
        exact .recorded hresult hchannel rfl
      | false =>
        simp only [hresult, hsame, passed, hchannel]
        exact .passedOn hresult hchannel rfl

/-- So it is too for a message that was held up. -/
theorem delivery_gateOpened {o : Outcome} (m : Json) (e : Engine) (h : o ≠ .cancelled) :
    Delivery m e (unwind [.gate (.notify "textDocument/didChange") m, .changeSent] o e) := by
  rw [unwind_pair]
  cases o with
  | cancelled => exact absurd rfl h
  | value v => exact delivery_pass m e
  | failure f => exact delivery_pass m e

theorem flushed_flush (doc : Nat) (text : Option (List Char)) (h : e.client.closed = false) :
    Flushed doc (e.retext doc text) (e.flush doc text) := by
  have hopen : (e.retext doc text).client.closed = false := by rw [retext_client, h]
  unfold flush
  generalize e.retext doc text = e at hopen
  simp only [withSession]
  cases hs : e.session? doc with
  | none => exact .nothing (by simp)
  | some s =>
    simp only
    split
    · exact .nothing (by simp)
    · split
      · exact .nothing (by simp)
      · rename_i ranges _
        generalize (s.document.beginFlush ranges).1 = changes
        generalize (s.document.beginFlush ranges).2 = d
        have hd : (e.onDocument doc fun _ => d).client.closed = false := hopen
        have hspeak : (e.onDocument doc fun _ => d).notifyFor doc "textDocument/didChange"
            (d.changeParams changes)
              = ((e.onDocument doc fun _ => d).speak doc (didChange d changes)).pass
                  (.notify "textDocument/didChange") (didChange d changes) := by
          rw [notifyFor_of_open rfl hd]
          rfl
        have hdelivery := delivery_pass (didChange d changes)
          ((e.onDocument doc fun _ => d).speak doc (didChange d changes))
        have hhistory : ((e.onDocument doc fun _ => d).speak doc (didChange d changes)).history
            = e.history ++ [.told doc (didChange d changes), .handed (didChange d changes)] :=
          List.append_assoc _ _ _
        rw [← hspeak] at hdelivery
        exact .handed rfl hhistory rfl hdelivery

/-! ### Accepted changes -/

/-- Whatever the connection refuses, as long as it stays open: sending changes is answered with yes only
    if a message was handed over that the connection has accepted, or refused in a way that is only
    recorded; and a change that is accepted brings the server to the text that was meant when it was
    handed over, if the messages accepted so far that carry text are the first of those handed over. -/
theorem accepted_asMeant {s : Session} (hb : Begins e) (hs : e.session? 0 = some s)
    (actions : List Action) (hf : Befitting e actions) (ho : actions.countP Action.opens ≤ 1)
    (hopen : (e.after actions).client.closed = false) :
    (∀ doc text, Flushed doc ((e.after actions).retext doc text) ((e.after actions).flush doc text)) ∧
    (∀ m o, o ≠ .cancelled → Delivery m (e.after actions)
      (unwind [.gate (.notify "textDocument/didChange") m, .changeSent] o (e.after actions))) ∧
    (∀ before m after, (e.after actions).channel.sent = before ++ m :: after →
      Message.carriesText m = true →
      (before ++ [m]).filter Message.carriesText <+: carried (e.after actions).history →
      ∃ earlier later, (e.after actions).history = earlier ++ .handed m :: later ∧
        serverText (before ++ [m]) = some (wording 0 s.document.text earlier)) := by
  refine ⟨fun doc text => flushed_flush doc text hopen,
    fun m o ho => delivery_gateOpened m _ ho, ?_⟩
  intro before m after _ hm hsent
  rcases (hb.phrased hs).after actions hb.correlated (by omega) hf with hclosed | ⟨d, hd⟩
  · rw [hopen] at hclosed
    cases hclosed
  · exact hd.faithful.accepted hm hsent

/-- A change is accepted, and the next is refused. -/
def refusedLater : List Action :=
  [[.begin (.openDocument 0 none)], runs 10,
    [.scheduleChange 0 ['x', 'a', 'b'] (some [⟨0, 0, ['x']⟩]), .begin (.flush 0 none)], runs 3,
    [.failSends (some ⟨.system "broken pipe", rfl⟩),
      .scheduleChange 0 ['x', 'y', 'a', 'b'] (some [⟨1, 1, ['y']⟩]), .begin (.flush 0 none)],
    runs 3].flatten

theorem refusedLater_asMeant :
    let e := ranged ['a', 'b']
    Begins e ∧ Befitting e refusedLater ∧
      refusedLater.countP Action.opens ≤ 1 ∧ (e.after refusedLater).client.closed = false ∧
      Flushed 0 ((e.after refusedLater).retext 0 none) ((e.after refusedLater).flush 0 none) ∧
      ∃ before m earlier later, (e.after refusedLater).channel.sent = before ++ [m] ∧
        Message.isOf "textDocument/didChange" m = true ∧
        (before ++ [m]).filter Message.carriesText <+: carried (e.after refusedLater).history ∧
        (e.after refusedLater).history = earlier ++ .handed m :: later ∧
        serverText (before ++ [m]) = some (wording 0 ['a', 'b'] earlier) := by
  intro e
  have hb : Begins e := ⟨_, _, _, ⟨rfl, rfl, rfl, rfl⟩, rfl⟩
  have ho : refusedLater.countP Action.opens ≤ 1 := by decide
  -- one run serves all that is computed
  obtain ⟨hf, hopen, hlast, hprefix, hsome⟩ : Befitting e refusedLater ∧
      (e.after refusedLater).client.closed = false ∧
      (∀ m ∈ (e.after refusedLater).channel.sent.getLast?,
        Message.isOf "textDocument/didChange" m = true ∧ Message.carriesText m = true) ∧
      (e.after refusedLater).channel.sent.filter Message.carriesText <+:
        carried (e.after refusedLater).history ∧
      (e.after refusedLater).channel.sent ≠ [] := by
    decide +kernel
  have hsplit := (List.dropLast_concat_getLast hsome).symm
  obtain ⟨hof, hcarries⟩ := hlast _ (List.getLast?_eq_some_getLast hsome)
  have hfirst : (e.session? 0).map (·.document.text) = some ['a', 'b'] := by
    decide +kernel
  obtain ⟨s, hs, hfirst⟩ := Option.map_eq_some_iff.mp hfirst
  obtain ⟨hflushed, _, haccepted⟩ := accepted_asMeant hb hs refusedLater hf ho hopen
  rw [hsplit] at hprefix
  rw [hfirst] at haccepted
  obtain ⟨earlier, later, hhistory, htext⟩ := haccepted _ _ [] hsplit hcarries hprefix
  exact ⟨hb, hf, ho, hopen, hflushed 0 none, _, _, earlier, later, hsplit, hof, hprefix, hhistory,
    htext⟩

/-- A change is refused, and whoever sends it is told that it was sent; then the connection is well
    again and accepts the next change, which is one of a text that the server never got. -/
theorem refused_misleads :
    let refused : List Action := [[.begin (.openDocument 0 none)], runs 10,
      [.scheduleChange 0 ['x', 'a', 'b'] (some [⟨0, 0, ['x']⟩]),
        .failSends (some ⟨.system "broken pipe", rfl⟩), .begin (.flush 0 none)], runs 3].flatten
    let e := (ranged ['a', 'b']).after refused
    let e' := e.after ([.failSends none,
      .scheduleChange 0 ['x', 'y', 'a', 'b'] (some [⟨1, 1, ['y']⟩]), .begin (.flushPending 0)] ++ runs 3)
    e.client.closed = false ∧
      (match e.outcome? (.task 9) with
        | some (.value (.flag answer)) => answer
        | _ => false) = true ∧
      e.channel.sent.all (fun m => !Message.isOf "textDocument/didChange" m) = true ∧
      e'.client.closed = false ∧
      (e'.session? 0).map (fun s => s.document.text) = some ['x', 'y', 'a', 'b'] ∧
      e'.channel.sent.getLast?.map (Message.isOf "textDocument/didChange") = some true ∧
      serverText e'.channel.sent = some ['a', 'y', 'b'] := by
  decide +kernel

end Engine

end LanguageClient
