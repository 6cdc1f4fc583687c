import LanguageClient.Proofs.Engine.Gathering

/-!
What no step takes back. A connection that is closed stays closed, the handshake is not started once
more, numbers are given out only once, and whatever has happened has happened (`Lasts`).

    history:  what has happened  ──Step──▶  what has happened ++ more
-/

namespace LanguageClient.Engine

variable {e e' : Engine}

/-! ### What some steps come to -/

/-- Emptying a slot cancels what was in it. -/
theorem cancels_cancelSlot (doc : Nat) (e : Engine) :
    Cancels { e with slots := e.slots.erase doc } (e.cancelSlot doc).2 := by
  unfold cancelSlot
  split
  · rename_i h
    rw [Table.erase_of_not_mem (Table.get?_eq_none_iff.mp h)]
    exact .refl e
  · simp only
    split
    · exact .refl _
    · exact cancels_cancel _ _

theorem client_failPending (f : Failure) (e : Engine) : (e.failPending f).client = e.client := by
  unfold failPending
  generalize e.client.pending = pending
  induction pending generalizing e with
  | nil => rfl
  | cons entry rest ih => exact (ih _).trans (settle_client _ _ _)

theorem retext_client (doc : Nat) (text : Option (List Char)) (e : Engine) :
    (e.retext doc text).client = e.client := by
  cases text <;> rfl

theorem onDocument_eq {doc : Nat} {s : Session} (f : Document → Document)
    (hs : e.session? doc = some s) : (e.onDocument doc fun _ => f s.document) = e.onDocument doc f := by
  have hm : (e.sessions.modify doc fun s' => { s' with document := f s.document })
      = e.sessions.modify doc fun s' => { s' with document := f s'.document } := by
    refine List.ext_getElem? fun i => ?_
    simp only [List.getElem?_modify]
    split
    · rename_i hi
      subst hi
      have hs : e.sessions[doc]? = some s := hs
      simp [hs]
    · rfl
  simp only [onDocument, onSession, hm]

/-- The document as an edit leaves it, of which a note is taken. -/
def edited (doc : Nat) (text : List Char) (changes : Option (List Change)) (e : Engine) : Engine :=
  (e.note (.texted doc text)).onDocument doc fun d => (d.edited text changes).2

/-- An edit changes the document, and then puts work into its slot. -/
theorem scheduleChange_eq (doc : Nat) (text : List Char) (changes : Option (List Change))
    (e : Engine) : ∃ e₁, Agrees (e.edited doc text changes) e₁ ∧
      (e.scheduleChange doc text changes).2 = (e₁.scheduleFlush doc).2 := by
  unfold scheduleChange edited
  generalize e.note (.texted doc text) = e
  cases hs : e.session? doc with
  | none =>
    have hlen : e.sessions.length ≤ doc := List.getElem?_eq_none_iff.mp hs
    refine ⟨e, ?_, by simp only [hs]⟩
    rw [onDocument, onSession, List.modify_eq_self hlen]
    exact .refl e
  | some s =>
    have hd := onDocument_eq (fun d => (d.edited text changes).2) hs
    simp only [hs]
    rw [hd]
    split
    · exact ⟨_, .refl _, rfl⟩
    · exact ⟨_, agrees_log _ _ _, rfl⟩

/-- What a response can do: it settles the answer of the request that it names, unless there is none
    that is open. -/
theorem resolve_cases {id m : Json} (h : e.resolve id m = .ok e') :
    (Agrees e e' ∧ ∀ n answer, Client.requestNumber? id = .ok (some n) →
      e.client.pending.get? n = some answer → e.outcome? answer ≠ none) ∨
    ∃ (n : Nat) (answer : Ref) (o : Outcome),
      Client.requestNumber? id = .ok (some n) ∧ e.client.pending.get? n = some answer ∧
      e.outcome? answer = none ∧
      ((∃ r, Client.answerOf (e.client.methodOf n id) m = .ok (.ok r) ∧ o = .value (.data r)) ∨
        ∃ x, Client.answerOf (e.client.methodOf n id) m = .ok (.error x) ∧ o = .failure x) ∧
      e' = e.settle answer o := by
  unfold resolve at h
  cases hn : Client.requestNumber? id with
  | error x => simp [hn, bind, Except.bind] at h
  | ok number =>
    simp only [hn, bind, Except.bind, pure, Except.pure] at h
    cases number with
    | none =>
      cases h
      exact .inl ⟨agrees_log _ _ _, by simp⟩
    | some n =>
      simp only at h
      cases hp : e.client.pending.get? n with
      | none =>
        simp only [hp] at h
        cases h
        refine .inl ⟨agrees_log _ _ _, ?_⟩
        rintro n' answer ⟨rfl⟩ hp'
        simp [hp] at hp'
      | some answer =>
        simp only [hp] at h
        split at h
        · rename_i hsettled
          have hsome : e.outcome? answer ≠ none := by
            rw [isSettled, Option.isSome_iff_ne_none] at hsettled
            exact hsettled
          cases h
          refine .inl ⟨agrees_log _ _ _, ?_⟩
          rintro n' answer' ⟨rfl⟩ hp'
          obtain rfl : answer = answer' := by simpa [hp] using hp'
          exact hsome
        · rename_i hopen
          have hnone : e.outcome? answer = none := by simpa [isSettled] using hopen
          cases ha : Client.answerOf (e.client.methodOf n id) m with
          | error x => simp [ha] at h
          | ok result =>
            cases result with
            | ok r =>
              simp only [ha] at h
              cases h
              exact .inr ⟨n, answer, _, rfl, hp, hnone, .inl ⟨r, ha, rfl⟩, rfl⟩
            | error x =>
              simp only [ha] at h
              cases h
              exact .inr ⟨n, answer, _, rfl, hp, hnone, .inr ⟨x, ha, rfl⟩, rfl⟩

/-- Sending the changes of a document puts on the stack at most the message and who waits for it. -/
theorem stack_sends {doc : Nat} {c c' : Config} (h : Sends doc c c') :
    c'.1 = c.1 ∨ c'.1 = .changeSent :: c.1 ∨
      ∃ message, c'.1 = .gate (.notify "textDocument/didChange") message :: .changeSent :: c.1 := by
  cases h with
  | idle => exact .inl rfl
  | told => exact .inr (.inr ⟨_, rfl⟩)
  | closed => exact .inr (.inl rfl)

theorem stack_refreshes {doc : Nat} {c c' : Config} (h : Refreshes doc c c') :
    c'.1 = c.1 ∨ c'.1 = .changeSent :: c.1 ∨
      ∃ message, c'.1 = .gate (.notify "textDocument/didChange") message :: .changeSent :: c.1 := by
  cases h with
  | idle => exact .inl rfl
  | sends _ hs =>
    have hstack := stack_sends hs
    exact hstack

/-! ### What lasts -/

/-- What is never taken back: a closed connection stays closed, the handshake is not started once
    more, and what has happened has happened. -/
structure Lasts (e e' : Engine) : Prop where
  nextRef : e.nextRef ≤ e'.nextRef
  closed : e.client.closed = true → e'.client.closed = true
  handshake : ∀ r, e'.client.handshake = some r →
    e.client.handshake = some r ∨ ∃ m, r = .task m ∧ e.nextRef ≤ m
  history : ∃ more, e'.history = e.history ++ more

theorem Lasts.of_client (hn : e.nextRef ≤ e'.nextRef) (hc : e'.client.closed = e.client.closed)
    (hs : e'.client.handshake = e.client.handshake) (hh : ∃ more, e'.history = e.history ++ more) :
    Lasts e e' :=
  ⟨hn, fun h => hc.trans h, fun _ hr => .inl (hs ▸ hr), hh⟩

/-- The client and what has happened are left alone. -/
theorem Lasts.of_eq (hn : e.nextRef ≤ e'.nextRef) (hc : e'.client = e.client)
    (hh : e'.history = e.history) : Lasts e e' :=
  .of_client hn (by rw [hc]) (by rw [hc]) ⟨[], by rw [hh, List.append_nil]⟩

theorem Lasts.refl (e : Engine) : Lasts e e := .of_eq (Nat.le_refl _) rfl rfl

theorem lasts_note (event : Event) (e : Engine) : Lasts e (e.note event) :=
  .of_client (Nat.le_refl _) rfl rfl ⟨[event], rfl⟩

theorem lasts_speak (doc : Nat) (message : Json) (e : Engine) : Lasts e (e.speak doc message) :=
  .of_client (Nat.le_refl _) rfl rfl ⟨[_, _], List.append_assoc _ _ _⟩

theorem lasts_agree (capabilities : Json) (e : Engine) : Lasts e (e.agree capabilities) :=
  .of_client (Nat.le_refl _) rfl rfl ⟨[_], rfl⟩

theorem Lasts.trans {e₁ e₂ e₃ : Engine} (h : Lasts e₁ e₂) (h' : Lasts e₂ e₃) : Lasts e₁ e₃ where
  nextRef := Nat.le_trans h.nextRef h'.nextRef
  closed hc := h'.closed (h.closed hc)
  handshake r hr := by
    rcases h'.handshake r hr with hr | ⟨m, hm, hle⟩
    · exact h.handshake r hr
    · exact .inr ⟨m, hm, Nat.le_trans h.nextRef hle⟩
  history := by
    obtain ⟨more, hh⟩ := h.history
    obtain ⟨more', hh'⟩ := h'.history
    exact ⟨more ++ more', by rw [hh', hh, List.append_assoc]⟩

theorem Lasts.of_tallies (h : Tallies e e') : Lasts e e' := by
  exact .of_eq h.nextRef h.client h.history

theorem Lasts.of_cancels (h : Cancels e e') : Lasts e e' :=
  .of_eq (Nat.le_of_eq h.nextRef.symm) h.client h.history

theorem lasts_settle (r : Ref) (o : Outcome) (e : Engine) : Lasts e (e.settle r o) :=
  .of_eq (Nat.le_of_eq (settle_nextRef r o e).symm) (settle_client r o e) (settle_history r o e)

theorem lasts_spawn (op : Operation) (e : Engine) : Lasts e (e.spawn op).2 :=
  .of_eq (Nat.le_succ _) rfl rfl

theorem lasts_onDocument (doc : Nat) (f : Document → Document) (e : Engine) :
    Lasts e (e.onDocument doc f) :=
  .of_eq (Nat.le_refl _) rfl rfl

theorem lasts_cancelSlot (doc : Nat) (e : Engine) : Lasts e (e.cancelSlot doc).2 := by
  have hc := cancels_cancelSlot doc e
  exact .of_eq (Nat.le_of_eq hc.nextRef.symm) hc.client hc.history

theorem lasts_scheduleFlush (doc : Nat) (e : Engine) : Lasts e (e.scheduleFlush doc).2 := by
  have hs := lasts_spawn (.debounced doc (((e.session? doc).map (·.delay)).getD 0) (.flush doc))
    (e.cancelSlot doc).2
  exact ((lasts_cancelSlot doc e).trans hs).trans (.of_eq (Nat.le_refl _) rfl rfl)

theorem lasts_scheduleChange (doc : Nat) (text : List Char) (changes : Option (List Change))
    (e : Engine) : Lasts e (e.scheduleChange doc text changes).2 := by
  obtain ⟨e₁, ha, he⟩ := scheduleChange_eq doc text changes e
  have hd := (lasts_note (.texted doc text) e).trans
    (lasts_onDocument doc (fun d => (d.edited text changes).2) _)
  rw [he]
  exact (hd.trans (.of_tallies ha.toTallies)).trans (lasts_scheduleFlush doc e₁)

theorem lasts_noteOpened (doc : Nat) (sent : List Char) (e : Engine) :
    Lasts e (e.noteOpened doc sent) := by
  have hd := lasts_onDocument doc (fun d => { d with opened := true }.resync sent) e
  unfold noteOpened
  simp only
  split
  · exact hd
  · split
    · exact (hd.trans (lasts_onDocument doc (·.forget) _)).trans (lasts_scheduleFlush doc _)
    · exact hd

/-- The stream of arrivals has ended. -/
theorem flags_shutDown (e : Engine) :
    e.shutDown.client.closed = true ∧ e.shutDown.client.ready = false := by
  unfold shutDown
  simp only [note, client_failPending]
  split <;> exact ⟨rfl, rfl⟩

theorem lasts_failPending (f : Failure) (e : Engine) : Lasts e (e.failPending f) := by
  unfold failPending
  generalize e.client.pending = pending
  induction pending generalizing e with
  | nil => exact .refl e
  | cons entry rest ih => exact (lasts_settle entry.2 (.failure f) e).trans (ih _)

theorem lasts_shutDown (e : Engine) : Lasts e e.shutDown := by
  have hc : Lasts e (e.onClient fun c => { c with ready := false, closed := true }) :=
    ⟨Nat.le_refl _, fun _ => rfl, fun _ hr => .inl hr, [], (List.append_nil _).symm⟩
  unfold shutDown
  refine (Lasts.trans ?_ (lasts_failPending _ _)).trans (lasts_note _ _)
  split
  · exact hc.trans (lasts_spawn _ _)
  · exact hc

theorem lasts_startHandshake (e : Engine) : Lasts e e.startHandshake.2 := by
  rcases startHandshake_cases e with ⟨_, heq⟩ | ⟨_, ha⟩
  · rw [heq]
    exact .refl e
  · have hs : Lasts e e.shaking := by
      refine ⟨Nat.le_succ _, id, ?_, [], (List.append_nil _).symm⟩
      intro r hr
      obtain rfl := Option.some.inj hr
      exact .inr ⟨e.nextRef, rfl, Nat.le_refl _⟩
    exact hs.trans (.of_tallies ha)

theorem lasts_startReader (e : Engine) : Lasts e e.startReader := by
  rcases startReader_cases e with ⟨_, heq⟩ | ⟨_, heq⟩
  · rw [heq]
    exact .refl e
  · rw [heq]
    exact .of_client (Nat.le_succ _) rfl rfl ⟨[], (List.append_nil _).symm⟩

theorem lasts_gather (members : List Ref) (tolerant : Bool) (e : Engine) :
    Lasts e (e.gather members tolerant).2 := by
  have hgrouped : Lasts e ((e.grouped members tolerant).promise (.group e.nextRef)) :=
    .of_eq (Nat.le_refl _) rfl rfl
  exact hgrouped.trans (.of_tallies (agrees_gather members tolerant e).toTallies)

theorem lasts_register (r : Registration Subscriber) (e : Engine) : Lasts e (e.register r) := by
  have he : Lasts e (e.enlist r) := .of_client (Nat.le_refl _) rfl rfl ⟨[_], rfl⟩
  rcases register_cases r e with heq | ⟨_, level, message, heq⟩
  · rw [heq]
    exact he
  · rw [heq]
    exact (he.trans (.of_tallies (agrees_log level message _).toTallies)).trans (lasts_spawn _ _)

/-! ### Every step -/

theorem lasts_clears {doc : Nat} {c c' : Config} (hc : Clears doc c c') : Lasts c.2 c'.2 := by
  cases hc with
  | kept => exact .refl _
  | cancelled => exact lasts_cancelSlot doc _
  | elapsed slot => exact .of_eq (Nat.le_refl _) rfl rfl

theorem lasts_retext (doc : Nat) (text : Option (List Char)) (e : Engine) :
    Lasts e (e.retext doc text) := by
  cases text with
  | none => exact .refl e
  | some text => exact (lasts_note _ e).trans (lasts_onDocument doc _ _)

theorem lasts_sends {doc : Nat} {c c' : Config} (h : Sends doc c c') : Lasts c.2 c'.2 := by
  cases h with
  | idle text => exact lasts_retext doc text _
  | told =>
    exact ((lasts_retext doc _ _).trans (lasts_onDocument doc _ _)).trans (lasts_speak doc _ _)
  | @closed st e text d =>
    exact (lasts_retext doc text e).trans (lasts_onDocument doc (fun _ => d) _)

theorem lasts_preset (doc : Nat) (text : Option (List Char)) (e : Engine) :
    Lasts e (e.preset doc text) := by
  cases text with
  | none => exact .refl e
  | some text =>
    have hd := lasts_onDocument doc (fun d => { d with text }) (e.note (.texted doc text))
    exact (lasts_note _ e).trans hd

theorem lasts_refreshes {doc : Nat} {c c' : Config} (h : Refreshes doc c c') : Lasts c.2 c'.2 := by
  cases h with
  | idle => exact lasts_cancelSlot doc _
  | sends _ hs => exact (lasts_cancelSlot doc _).trans (lasts_sends hs)

theorem Step.lasts {c c' : Config} (hs : Step c c') : Lasts c.2 c'.2 := by
  cases hs with
  | agree ha => exact .of_tallies ha
  | settle ha | abandon _ _ _ ha =>
    exact (Lasts.of_tallies ha.toTallies).trans (lasts_settle _ _ _)
  | gather => exact lasts_gather _ _ _
  | spawn => exact lasts_spawn _ _
  | call => exact .of_client (Nat.le_refl _) rfl rfl ⟨[_, _], List.append_assoc _ _ _⟩
  | endRequest => exact .of_client (Nat.le_refl _) rfl rfl ⟨[_], rfl⟩
  | @respond _ e _ m _ hr =>
    have ht := lasts_note (.taken m) e
    rcases resolve_cases hr with ⟨ha, _⟩ | ⟨_, _, o, _, _, _, _, rfl⟩
    · exact ht.trans (.of_tallies ha)
    · exact ht.trans (lasts_settle _ _ _)
  | register r => exact lasts_register r _
  | startReader => exact lasts_startReader _
  | handshake => exact lasts_startHandshake _
  | agreed => exact (lasts_agree _ _).trans (lasts_note _ _)
  | agreedClosed => exact lasts_agree _ _
  | ready => exact .of_client (Nat.le_refl _) rfl rfl ⟨[], (List.append_nil _).symm⟩
  | close => exact ⟨Nat.le_refl _, fun _ => rfl, fun _ hr => .inl hr, [], (List.append_nil _).symm⟩
  | cancelReader => exact .of_cancels (cancels_cancel _ _)
  | joined => exact (lasts_failPending _ _).trans (lasts_note _ _)
  | shutDown => exact lasts_shutDown _
  | @oblige _ e _ m _ ha => exact ((lasts_note _ e).trans (.of_tallies ha.toTallies)).trans (lasts_spawn _ _)
  | @crash _ e _ m _ ha => exact ((lasts_note _ e).trans (.of_tallies ha.toTallies)).trans (lasts_shutDown _)
  | preset doc text => exact lasts_preset doc text _
  | opened doc sent => exact lasts_noteOpened doc sent _
  | edit text changes => exact lasts_scheduleChange _ text changes _
  | unscheduled => exact lasts_cancelSlot _ _
  | flush hc hs => exact (lasts_clears hc).trans (lasts_sends hs)
  | opening => exact lasts_speak _ _ _
  | reply | notify | take | notified | joinedFailed => exact lasts_note _ _
  | pose | shown => exact .of_client (Nat.le_refl _) rfl rfl ⟨[_], rfl⟩
  | late _ _ _ _ hr =>
    have h := lasts_refreshes hr
    exact h
  | remark => exact lasts_note _ _
  | push | unasked | gathers | pop | read | join | await | openingClosed | delay => exact .refl _
  | promise | rehearse | transmit | unload => exact .of_eq (Nat.le_refl _) rfl rfl

theorem Path.lasts {c c' : Config} (h : Path c c') : Lasts c.2 c'.2 := by
  induction h with
  | refl => exact .refl _
  | tail _ hs ih => exact ih.trans hs.lasts

end LanguageClient.Engine
