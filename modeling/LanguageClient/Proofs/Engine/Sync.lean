import LanguageClient.Proofs.Engine.Connection

/-!
Runs that keep a document in step with the server, as paths of steps. Sending the changes of a
document is one step from the moment the slot is emptied to the moment the message is handed over;
so is an edit, from the new text to the work in the slot that will send it.
-/

namespace LanguageClient.Engine

variable {c : Config} {st : List Frame} {e e' : Engine}

/-! ### Sending changes -/

theorem leads_changeSent (o : Outcome) : Leads (st, e) st (changeSent o e) := by
  unfold changeSent
  split
  · exact leads_answer _
  · exact leads_finish _

theorem sendsRanges_congr {d : Document} (h : e'.client = e.client) :
    e'.sendsRanges d = e.sendsRanges d := by
  simp only [sendsRanges, serverIncremental, h]

/-- Sending the changes of a document. -/
theorem sends_flush (doc : Nat) (text : Option (List Char)) :
    ∃ c', Sends doc (st, e) c' ∧ Leads c' st (e.flush doc text) := by
  have hclient := retext_client doc text e
  unfold flush
  simp only
  cases hs : (e.retext doc text).session? doc with
  | none =>
    have hidle : Idle doc (e.retext doc text) := by
      intro s h
      simp [hs] at h
    simp only [withSession, hs]
    exact ⟨_, .idle text hidle, leads_fail _⟩
  | some s =>
    simp only [withSession, hs]
    split
    · rename_i hnot
      have hidle : Idle doc (e.retext doc text) := by
        intro s' h
        obtain rfl : s = s' := by simpa [hs] using h
        exact .inl hnot
      exact ⟨_, .idle text hidle, leads_answer _⟩
    · rename_i hnot
      split
      · rename_i x hx
        have hidle : Idle doc (e.retext doc text) := by
          intro s' h
          obtain rfl : s = s' := by simpa [hs] using h
          exact .inr ⟨x, hx⟩
        exact ⟨_, .idle text hidle, leads_fail _⟩
      · rename_i ranges hranges
        rw [sendsRanges_congr hclient] at hranges
        simp only [hclient, Bool.or_eq_true, Bool.not_eq_true', Bool.and_eq_false_iff,
          not_or, Bool.not_eq_false, Bool.not_eq_true] at hnot
        obtain ⟨⟨hready, hopened⟩, hclosed⟩ := hnot
        have hname : Message.notifyMethod (.str "textDocument/didChange")
            = .ok "textDocument/didChange" := rfl
        cases hcc : e.client.closed with
        | true =>
          rw [notifyFor_of_closed hname (by simpa [onDocument, onSession, hclient] using hcc)]
          refine ⟨_, .closed text (s.document.beginFlush ranges).2 hcc,
            Leads.andThen ?_ fun o e => (leads_changeSent o).pop rfl⟩
          exact .single (.agree (agrees_log _ _ _))
        | false =>
          rw [notifyFor_of_open hname (by simpa [onDocument, onSession, hclient] using hcc)]
          exact ⟨_, .told hs hready hopened hclosed hcc hranges,
            Leads.andThen (leads_pass _ _) fun o e => (leads_changeSent o).pop rfl⟩

/-- Sending the changes of a document, however it came to that. -/
theorem leads_flush {doc : Nat} (text : Option (List Char)) (hc : Clears doc c (st, e)) :
    Leads c st (e.flush doc text) := by
  obtain ⟨_, hs, hl⟩ := sends_flush doc text
  exact hl.of_step (.flush hc hs)

/-- Sending the changes of a document if any wait to be sent. -/
theorem refreshes_flushPending (doc : Nat) :
    ∃ c', Refreshes doc (st, e) c' ∧ Leads c' st (e.flushPending doc) := by
  unfold flushPending
  split
  · rename_i e' h
    obtain ⟨c', hs, hl⟩ := @sends_flush st e' doc none
    have hslot : (e.cancelSlot doc).2 = e' := by rw [h]
    exact ⟨c', .sends (by rw [h]) (hslot ▸ hs), hl⟩
  · rename_i e' h
    have hslot : (e.cancelSlot doc).2 = e' := by rw [h]
    exact ⟨_, .idle (by rw [h]), hslot ▸ leads_answer _⟩

theorem leads_flushPending (doc : Nat) : Leads (st, e) st (e.flushPending doc) := by
  obtain ⟨c', hr, hl⟩ := @refreshes_flushPending st e doc
  exact hl.of_step hr.step

/-! ### Delayed work -/

theorem leads_workDone (o : Outcome) : Leads (st, e) st (workDone o e) := by
  unfold workDone
  split
  · exact leads_answer _
  · exact .agree (agrees_log _ _ _) (leads_answer _)
  · exact leads_finish _

theorem agrees_rehearsals (rehearsals : List (String × String × Int)) (e : Engine) :
    Agrees e { e with rehearsals } :=
  agrees_of_same (Nat.le_refl _) rfl

theorem leads_rehearsed (name : String) (fails : Option Failure) (o : Outcome) :
    Leads (st, e) st (rehearsed name fails o e) := by
  unfold rehearsed
  split
  · split
    · exact leads_fail _
    · exact .agree (agrees_rehearsals _ _) (leads_answer _)
  · exact leads_finish _

theorem leads_rehearsal (name : String) (takes : Int) (fails : Option Failure) :
    Leads (st, e) st (e.doWork (.rehearsal name takes fails)) := by
  simp only [doWork]
  split
  · exact .agree (agrees_rehearsals _ e) (leads_rehearsed name fails _)
  · exact .agree (agrees_rehearsals _ e)
      (.then rfl (leads_sleep _) fun o e => leads_rehearsed name fails o)

/-- The work of a slot whose delay is over leaves the slot and sends the changes. -/
theorem sends_delayOver (slot doc : Nat) (v : Value) :
    ∃ c', Sends doc (.workDone :: st, { e with slots := e.slots.erase slot }) c' ∧
      Leads c' st (delayOver slot (.flush doc) (.value v) e) := by
  obtain ⟨c', hs, hl⟩ := sends_flush doc none
  exact ⟨c', hs, hl.andThen fun o e => (leads_workDone o).pop rfl⟩

theorem leads_delayOver (slot : Nat) (work : Work) (o : Outcome) :
    Leads (.delayOver slot work :: st, e) st (delayOver slot work o e) := by
  unfold delayOver
  split
  · refine Leads.andThen ?_ fun o e => (leads_workDone o).pop rfl
    cases work with
    | flush doc => exact leads_flush none (.elapsed slot)
    | rehearsal name takes fails =>
      exact .of_step (.rehearse slot name takes fails) (leads_rehearsal name takes fails)
  · exact (leads_finish _).pop rfl

theorem leads_debounced (slot : Nat) (delay : Int) (work : Work) :
    Leads (.begin (.debounced slot delay work) :: st, e) st (e.debounced slot delay work) :=
  .of_step (.delay slot delay work) (.andThen (leads_sleep delay) fun o _ =>
    leads_delayOver slot work o)

/-! ### Opening -/

theorem leads_openSent (doc : Nat) (sent : List Char) (o : Outcome) :
    Leads (.openSent doc sent :: st, e) st (openSent doc sent o e) := by
  cases o with
  | value v =>
    refine Leads.of_step (.opened doc sent) ?_
    exact leads_withSession .refl fun s _ => .agree (agrees_log _ _ _) (leads_answer _)
  | failure x => exact (leads_finish _).pop rfl
  | cancelled => exact (leads_finish _).pop rfl

theorem leads_readyToOpen {doc : Nat} {o : Outcome} (ho : o = e.handshakeOutcome ∨ o = .cancelled) :
    Leads (.readyToOpen doc :: st, e) st (readyToOpen doc o e) := by
  unfold readyToOpen
  refine leads_withSession (.single (.pop rfl)) fun s hs => ?_
  split
  · rename_i v
    have hv : e.handshakeOutcome = .value v := by
      rcases ho with ho | ho
      · exact ho.symm
      · cases ho
    split
    · exact (leads_answer _).pop rfl
    · rename_i hclosed
      have hname : Message.notifyMethod (.str "textDocument/didOpen")
          = .ok "textDocument/didOpen" := rfl
      refine Leads.andThen ?_ fun o e => leads_openSent doc _ o
      cases hcc : e.client.closed with
      | true =>
        rw [notifyFor_of_closed hname hcc]
        exact .head (.openingClosed _ hcc) (.single (.agree (agrees_log _ _ _)))
      | false =>
        rw [notifyFor_of_open hname hcc]
        exact Leads.of_step (.opening hv hs (by simpa using hclosed) hcc) (leads_pass _ _)
  · split
    · exact Leads.pop rfl (.agree (agrees_log _ _ _) (leads_answer _))
    · exact (leads_fail _).pop rfl
  · exact (leads_finish _).pop rfl

theorem leads_openDocument (doc : Nat) (text : Option (List Char)) :
    Leads (.begin (.openDocument doc text) :: st, e) st (e.openDocument doc text) :=
  .of_step (.preset doc text) (leads_awaitHandshake fun _ => leads_readyToOpen (.inl rfl))

/-! ### Waiting for a document's tasks -/

/-- Tasks form a group, which may then be waited for. -/
theorem path_gather (st : List Frame) (e : Engine) (members : List Ref) (tolerant : Bool) :
    Path (st, e) (st, (e.gather members tolerant).2) ∧
      (e.gather members tolerant).2.Awaits e.nextRef (e.gather members tolerant).1 := by
  have hnext : (e.gather members tolerant).2.nextRef = e.nextRef + 1 := by
    have hsame := (enlists_gather members tolerant e).same
    simp only [Prod.mk.injEq] at hsame
    exact hsame.2.2.2.2.2.2.1
  refine ⟨.single (.gather members tolerant), .inl ⟨rfl, Nat.le_refl _, ?_⟩⟩
  exact Nat.lt_of_lt_of_eq (Nat.lt_succ_self _) hnext.symm

/-- Waiting for a group. -/
theorem leads_gather (members : List Ref) (tolerant : Bool) {f : Frame} (hf : f.plain = true) :
    Leads (st, e) st ((e.gather members tolerant).2, .wait (e.gather members tolerant).1 [f]) := by
  obtain ⟨hpath, hawaits⟩ := path_gather st e members tolerant
  exact ⟨hpath.tail (.push hf), hawaits⟩

theorem leads_drain (doc : Nat) : Leads (st, e) st (e.drain doc) := by
  unfold drain
  refine leads_withSession .refl fun s _ => ?_
  split
  · exact leads_answer _
  · exact leads_gather _ _ rfl

theorem leads_drained (doc : Nat) (o : Outcome) : Leads (st, e) st (drained doc o e) := by
  unfold drained
  split
  · exact leads_drain doc
  · exact leads_finish _

end LanguageClient.Engine
