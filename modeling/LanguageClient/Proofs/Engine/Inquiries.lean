import LanguageClient.Proofs.Engine.Lasting

/-!
What a step can do to the questions about documents. Nearly every step leaves them alone (`Aloof`). The
others begin a question, put it on the stack until the changes of its document have been sent, ask it,
take note of what came of it, or show diagnostics.

    pose ──▶ late ──▶ asks ──▶ remark        hover, completion and signature help
    pose ──▶ shown                           diagnostics
-/

namespace LanguageClient

/-- Events of the questions about documents. -/
def Event.probes : Event → Bool
  | .posed .. | .asked .. | .answered .. | .dropped .. | .published .. | .shown .. => true
  | _ => false

/-- Frames of questions that are still to be asked, or to be answered. -/
def Frame.probes (f : Frame) : Bool := f.question?.isSome || f.answers?.isSome

theorem Frame.probes_of_question {f : Frame} {q : Nat × Feature × Nat} (h : f.question? = some q) :
    f.probes = true := by
  simp [probes, h]

theorem Frame.probes_of_plain {f : Frame} (h : f.plain = true) : f.probes = false := by
  cases f <;> first | rfl | cases h

theorem Frame.probes_of_request {f : Frame} {id : Nat} (h : f.request? = some id) :
    f.probes = false := by
  cases f <;> first | rfl | cases h

namespace Engine

variable {c c' : Config} {st st' : List Frame} {e e' : Engine}

/-! ### What leaves the questions alone -/

/-- Nothing has happened to the questions. There may be more documents. -/
structure Aloof (e e' : Engine) : Prop where
  outlooks : e.sessions.map Session.outlook <+: e'.sessions.map Session.outlook
  history : ∃ more, e'.history = e.history ++ more ∧ ∀ event ∈ more, event.probes = false

theorem Aloof.trans {e₁ e₂ e₃ : Engine} (h : Aloof e₁ e₂) (h' : Aloof e₂ e₃) : Aloof e₁ e₃ where
  outlooks := h.outlooks.trans h'.outlooks
  history := added_trans h.history h'.history

theorem aloof_of_eq (hs : e'.sessions = e.sessions) (hh : e'.history = e.history) : Aloof e e' :=
  ⟨hs ▸ List.prefix_rfl, [], by rw [hh, List.append_nil], by simp⟩

theorem Aloof.refl (e : Engine) : Aloof e e := aloof_of_eq rfl rfl

theorem aloof_tallies (h : Tallies e e') : Aloof e e' :=
  ⟨h.outlooks ▸ List.prefix_rfl, [], by rw [h.history, List.append_nil], by simp⟩

theorem aloof_gather (members : List Ref) (tolerant : Bool) (e : Engine) :
    Aloof e (e.gather members tolerant).2 := by
  have hgathered := (agrees_gather members tolerant e).toTallies
  exact ⟨hgathered.outlooks ▸ List.prefix_rfl, [], by rw [hgathered.history, List.append_nil]; rfl, by simp⟩

theorem Aloof.session {doc : Nat} {s : Session} (h : Aloof e e') (hs : e.session? doc = some s) :
    ∃ s', e'.session? doc = some s' ∧ s'.outlook = s.outlook := by
  have hget : (e.sessions.map Session.outlook)[doc]? = some s.outlook := by
    rw [List.getElem?_map, show e.sessions[doc]? = some s from hs]
    rfl
  obtain ⟨rest, hrest⟩ := h.outlooks
  have hget' : (e'.sessions.map Session.outlook)[doc]? = some s.outlook := by
    obtain ⟨hlt, _⟩ := List.getElem?_eq_some_iff.mp hget
    rw [← hrest, List.getElem?_append_left hlt, hget]
  rw [List.getElem?_map] at hget'
  exact Option.map_eq_some_iff.mp hget'

theorem aloof_cancels (h : Cancels e e') : Aloof e e' := aloof_of_eq h.sessions h.history

theorem aloof_settle (r : Ref) (o : Outcome) (e : Engine) : Aloof e (e.settle r o) :=
  aloof_of_eq (settle_sessions r o e) (settle_history r o e)

theorem aloof_note {event : Event} (h : event.probes = false) (e : Engine) :
    Aloof e (e.note event) := ⟨List.prefix_rfl, [event], rfl, by simpa using h⟩

theorem aloof_speak (doc : Nat) (m : Json) (e : Engine) : Aloof e (e.speak doc m) := by
  have htold : (Event.told doc m).probes = false := rfl
  exact (aloof_note htold e).trans (aloof_note rfl _)

theorem aloof_onDocument (doc : Nat) (f : Document → Document) (e : Engine) :
    Aloof e (e.onDocument doc f) := by
  have hsame : (e.onDocument doc f).sessions.map Session.outlook
      = e.sessions.map Session.outlook := by
    refine map_onSession Session.outlook ?_ doc e
    intro s
    rfl
  exact ⟨hsame ▸ List.prefix_rfl, [], (List.append_nil _).symm, by simp⟩

theorem aloof_texted (doc : Nat) (text : List Char) (f : Document → Document) (e : Engine) :
    Aloof e ((e.note (.texted doc text)).onDocument doc f) :=
  (aloof_note rfl e).trans (aloof_onDocument doc f _)

theorem aloof_cancelSlot (doc : Nat) (e : Engine) : Aloof e (e.cancelSlot doc).2 := by
  have hs : Aloof e { e with slots := e.slots.erase doc } := aloof_of_eq rfl rfl
  exact hs.trans (aloof_cancels (cancels_cancelSlot doc e))

theorem aloof_scheduleFlush (doc : Nat) (e : Engine) : Aloof e (e.scheduleFlush doc).2 :=
  (aloof_cancelSlot doc e).trans (aloof_of_eq rfl rfl)

theorem aloof_scheduleChange (doc : Nat) (text : List Char) (changes : Option (List Change))
    (e : Engine) : Aloof e (e.scheduleChange doc text changes).2 := by
  obtain ⟨e₁, ha, heq⟩ := scheduleChange_eq doc text changes e
  have hd : Aloof e (e.edited doc text changes) := aloof_texted doc text _ e
  rw [heq]
  exact (hd.trans (aloof_tallies ha.toTallies)).trans (aloof_scheduleFlush doc e₁)

theorem aloof_retext (doc : Nat) (text : Option (List Char)) (e : Engine) :
    Aloof e (e.retext doc text) := by
  cases text with
  | none => exact .refl e
  | some text => exact aloof_texted doc text _ e

theorem aloof_preset (doc : Nat) (text : Option (List Char)) (e : Engine) :
    Aloof e (e.preset doc text) := by
  cases text with
  | none => exact .refl e
  | some text => exact aloof_texted doc text (fun d => { d with text }) e

theorem aloof_noteOpened (doc : Nat) (sent : List Char) (e : Engine) :
    Aloof e (e.noteOpened doc sent) := by
  have hd := aloof_onDocument doc (fun d => { d with opened := true }.resync sent) e
  unfold noteOpened
  simp only
  split
  · exact hd
  · split
    · exact (hd.trans (aloof_onDocument doc (·.forget) _)).trans (aloof_scheduleFlush doc _)
    · exact hd

theorem aloof_failPending (f : Failure) (e : Engine) : Aloof e (e.failPending f) := by
  unfold failPending
  generalize e.client.pending = pending
  induction pending generalizing e with
  | nil => exact .refl e
  | cons entry rest ih => exact (aloof_settle _ _ e).trans (ih _)

theorem aloof_shutDown (e : Engine) : Aloof e e.shutDown := by
  unfold shutDown
  refine (Aloof.trans ?_ (aloof_failPending _ _)).trans (aloof_note rfl _)
  split <;> exact aloof_of_eq rfl rfl

theorem aloof_startHandshake (e : Engine) : Aloof e e.startHandshake.2 := by
  rcases startHandshake_cases e with ⟨_, heq⟩ | ⟨_, ha⟩
  · rw [heq]
    exact .refl e
  · have hs : Aloof e e.shaking := aloof_of_eq rfl rfl
    exact hs.trans (aloof_tallies ha.toTallies)

theorem aloof_startReader (e : Engine) : Aloof e e.startReader := by
  rcases startReader_cases e with ⟨_, heq⟩ | ⟨_, heq⟩
  · rw [heq]
    exact .refl e
  · rw [heq]
    exact aloof_of_eq rfl rfl

theorem aloof_register (r : Registration Subscriber) (e : Engine) : Aloof e (e.register r) := by
  have he : Aloof e (e.enlist r) := ⟨List.prefix_rfl, [_], rfl, by simp [Event.probes]⟩
  rcases register_cases r e with heq | ⟨_, level, message, heq⟩
  · rw [heq]
    exact he
  · rw [heq]
    exact (he.trans (aloof_tallies (agrees_log level message _).toTallies)).trans (aloof_of_eq rfl rfl)

theorem aloof_clears {doc : Nat} (h : Clears doc c c') : Aloof c.2 c'.2 := by
  cases h with
  | kept => exact .refl _
  | cancelled => exact aloof_cancelSlot doc _
  | elapsed slot => exact aloof_of_eq rfl rfl

theorem aloof_sends {doc : Nat} (h : Sends doc c c') : Aloof c.2 c'.2 := by
  cases h with
  | idle text => exact aloof_retext doc text _
  | told => exact ((aloof_retext doc _ _).trans (aloof_onDocument doc _ _)).trans (aloof_speak doc _ _)
  | closed text d => exact (aloof_retext doc text _).trans (aloof_onDocument doc (fun _ => d) _)

theorem aloof_refreshes {doc : Nat} (h : Refreshes doc c c') : Aloof c.2 c'.2 := by
  cases h with
  | idle => exact aloof_cancelSlot doc _
  | sends _ hs => exact Aloof.trans (aloof_cancelSlot doc _) (aloof_sends hs)

/-! ### Every step -/

/-- No question has been put on the stack. -/
def Unprobed (st st' : List Frame) : Prop := ∀ f ∈ st', f.probes = true → f ∈ st

theorem Unprobed.refl (st : List Frame) : Unprobed st st := fun _ h _ => h

theorem unprobed_tail (f : Frame) (st : List Frame) : Unprobed (f :: st) st :=
  fun _ h _ => List.mem_cons_of_mem _ h

theorem Unprobed.cons {f : Frame} (hf : f.probes = false) (h : Unprobed st st') :
    Unprobed st (f :: st') := by
  intro g hg hp
  rcases List.mem_cons.mp hg with rfl | hg
  · rw [hf] at hp
    cases hp
  · exact h g hg hp

theorem Unprobed.trans {st₁ st₂ st₃ : List Frame} (h : Unprobed st₁ st₂) (h' : Unprobed st₂ st₃) :
    Unprobed st₁ st₃ := fun f hf hp => h f (h' f hf hp) hp

theorem unprobed_clears {doc : Nat} (h : Clears doc c c') : Unprobed c.1 c'.1 := by
  cases h with
  | kept => exact .refl _
  | cancelled => exact .refl _
  | elapsed slot => exact (unprobed_tail _ _).cons rfl

theorem unprobed_sends {doc : Nat} (h : Sends doc c c') : Unprobed c.1 c'.1 := by
  cases h with
  | idle => exact .refl _
  | told => exact ((Unprobed.refl _).cons rfl).cons rfl
  | closed => exact (Unprobed.refl _).cons rfl

/-- What a step can do to the questions. -/
inductive Inquiry : Config → Config → Prop where
  | aloof {c c' : Config} : Aloof c.2 c'.2 → Unprobed c.1 c'.1 → Inquiry c c'
  | pose {st : List Frame} {e : Engine} {doc : Nat} {s : Session} (feature : Feature) :
      e.session? doc = some s → (feature = .diagnostics → Presenting doc st) →
      Inquiry (st, e) (st, (e.beginGeneration doc feature).2)
  | late {st : List Frame} {e : Engine} {f : Frame} {doc generation : Nat} {feature : Feature}
      {members : Members} {c' : Config} : f.question? = some (doc, feature, generation) →
      .posed doc feature generation ∈ e.history → e.client.ready = true →
      e.client.capabilities = .obj members → Refreshes doc (f :: st, e) c' → Inquiry (st, e) c'
  /-- The question is asked, or is given up. -/
  | asks {st st' : List Frame} {e e' : Engine} {f f' : Frame} {q : Nat × Feature × Nat} :
      f.question? = some q → f'.answers? = some q → Unprobed (f' :: st) st' → Aloof e e' →
      Inquiry (f :: st, e) (st', e')
  | remark {st : List Frame} {e : Engine} {event : Event} : Remarks st e event →
      Inquiry (st, e) (st, e.note event)
  | shown {st : List Frame} {e : Engine} {doc : Nat} {superseding : Superseding}
      (presented : List PresentedDiagnostic) : Wanted doc superseding e → Presenting doc st →
      Inquiry (st, e) (st, e.showDiagnostics doc superseding presented)

theorem Step.inquiry (hs : Step c c') : Inquiry c c' := by
  cases hs with
  | agree ha => exact .aloof (aloof_tallies ha) (.refl _)
  | push hf => exact .aloof (.refl _) ((Unprobed.refl _).cons (Frame.probes_of_plain hf))
  | pose feature hs hp => exact .pose feature hs hp
  | late hf hposed hr hc hrefresh => exact .late hf hposed hr hc hrefresh
  | remark hr => exact .remark hr
  | unasked hf hf' => exact .asks hf hf' (.refl _) (.refl _)
  | shown presented hw hp => exact .shown presented hw hp
  | gathers => exact .aloof (.refl _) ((unprobed_tail _ _).cons rfl)
  | pop => exact .aloof (.refl _) (unprobed_tail _ _)
  | settle ha => exact .aloof ((aloof_tallies ha.toTallies).trans (aloof_settle _ _ _)) (.refl _)
  | register r => exact .aloof (aloof_register r _) (.refl _)
  | @call st st' e method params name limit ha =>
    have hcalled : Aloof e ((e.enroll name).2.note
        (.handed (Message.request (.nat (e.enroll name).1) method params))) :=
      ⟨List.prefix_rfl, [_, _], List.append_assoc _ _ _, by simp [Event.probes]⟩
    cases ha with
    | ready => exact .aloof hcalled ((Unprobed.refl _).cons rfl)
    | late hf hf' => exact .asks hf hf' ((Unprobed.refl _).cons rfl) hcalled
    | resolving completion =>
      exact .aloof hcalled (((unprobed_tail _ _).cons rfl).cons rfl)
    | told method params limit => exact .aloof hcalled ((unprobed_tail _ _).cons rfl)
    | handshake => exact .aloof hcalled (((unprobed_tail _ _).cons rfl).cons rfl)
  | await _ _ hf' => exact .aloof (.refl _) ((unprobed_tail _ _).cons (Frame.probes_of_request hf'))
  | abandon _ hf' _ ha =>
    exact .aloof ((aloof_tallies ha.toTallies).trans (aloof_settle _ _ _))
      ((unprobed_tail _ _).cons (Frame.probes_of_request hf'))
  | endRequest => exact .aloof ⟨List.prefix_rfl, [_], rfl, by simp [Event.probes]⟩ (unprobed_tail _ _)
  | reply id => exact .aloof (aloof_note rfl _) ((unprobed_tail _ _).cons rfl)
  | notify => exact .aloof (aloof_note rfl _) ((unprobed_tail _ _).cons rfl)
  | read => exact .aloof (.refl _) ((unprobed_tail _ _).cons rfl)
  | take => exact .aloof (aloof_note rfl _) (.refl _)
  | oblige _ ha =>
    exact .aloof (((aloof_note rfl _).trans (aloof_tallies ha.toTallies)).trans (aloof_of_eq rfl rfl))
      (.refl _)
  | @respond st e e' m _ hr =>
    have hnote : Aloof e (e.note (.taken m)) := aloof_note rfl e
    rcases resolve_cases hr with ⟨ha, _⟩ | ⟨_, _, o, _, _, _, _, rfl⟩
    · exact .aloof (hnote.trans (aloof_tallies ha)) (.refl _)
    · exact .aloof (hnote.trans (aloof_settle _ _ _)) (.refl _)
  | notified => exact .aloof (aloof_note rfl _) (.refl _)
  | startReader => exact .aloof (aloof_startReader _) (.refl _)
  | handshake => exact .aloof (aloof_startHandshake _) (.refl _)
  | agreed =>
    exact .aloof ⟨List.prefix_rfl, [_, _], List.append_assoc _ _ _, by simp [Event.probes]⟩
      (((unprobed_tail _ _).cons rfl).cons rfl)
  | agreedClosed => exact .aloof ⟨List.prefix_rfl, [_], rfl, by simp [Event.probes]⟩ ((unprobed_tail _ _).cons rfl)
  | close => exact .aloof (aloof_of_eq rfl rfl) ((unprobed_tail _ _).cons rfl)
  | cancelReader => exact .aloof (aloof_cancels (cancels_cancel _ _)) (.refl _)
  | join => exact .aloof (.refl _) ((unprobed_tail _ _).cons rfl)
  | joined =>
    exact .aloof ((aloof_failPending _ _).trans (aloof_note rfl _)) (unprobed_tail _ _)
  | joinedFailed => exact .aloof (aloof_note rfl _) (unprobed_tail _ _)
  | shutDown => exact .aloof (aloof_shutDown _) (unprobed_tail _ _)
  | crash _ ha =>
    exact .aloof (((aloof_note rfl _).trans (aloof_tallies ha.toTallies)).trans (aloof_shutDown _))
      (unprobed_tail _ _)
  | preset doc text => exact .aloof (aloof_preset doc text _) ((unprobed_tail _ _).cons rfl)
  | opening =>
    exact .aloof (aloof_speak _ _ _) (((unprobed_tail _ _).cons rfl).cons rfl)
  | openingClosed | delay => exact .aloof (.refl _) ((unprobed_tail _ _).cons rfl)
  | opened doc sent => exact .aloof (aloof_noteOpened doc sent _) (unprobed_tail _ _)
  | edit text changes => exact .aloof (aloof_scheduleChange _ text changes _) (.refl _)
  | rehearse => exact .aloof (aloof_of_eq rfl rfl) ((unprobed_tail _ _).cons rfl)
  | unscheduled => exact .aloof (aloof_cancelSlot _ _) (.refl _)
  | flush hc hsends =>
    exact .aloof ((aloof_clears hc).trans (aloof_sends hsends))
      ((unprobed_clears hc).trans (unprobed_sends hsends))
  | gather members tolerant => exact .aloof (aloof_gather members tolerant _) (.refl _)
  | promise | spawn | transmit | unload => exact .aloof (aloof_of_eq rfl rfl) (.refl _)
  | ready => exact .aloof (aloof_of_eq rfl rfl) (unprobed_tail _ _)

end Engine

end LanguageClient
