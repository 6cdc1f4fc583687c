import LanguageClient.Proofs.Client.Handshake
import LanguageClient.Proofs.Document.Tracking

/-!
No edit is lost. While the connection is open, whatever the server has not been told waits in the
document's slot: the task in it has not been asked to stop and will send the changes when its delay
is over (`Delayed`). A document that is open has a client that is ready (`Connected`), so nothing
that leaves the slot is dropped (`Delivers`).

    edit ──▶ slot ──delay──▶ didChange
              │ ▲
              └─┘ another edit
-/

namespace LanguageClient.Engine

variable {c c' : Config} {st st' : List Frame} {e e' : Engine} {d d' : Document} {k : Nat}
  {n : Option Nat}

/-! ### Tasks that will send -/

/-- A task that stands before its delay, or in it. -/
def Delays (t : Task) (e : Engine) : Prop :=
  (∃ delay, t.frames = [.begin (.debounced 0 delay (.flush 0))] ∧ t.waiting = none) ∨
  (t.frames = [.delayOver 0 (.flush 0)] ∧ (t.waiting = none ∨
    ∃ nap, t.waiting = some (.nap nap) ∧ ∀ o, e.outcome? (.nap nap) = some o → ∃ v, o = .value v))

/-- The task will send the changes when its delay is over. -/
def Delayed (m : Nat) (e : Engine) : Prop :=
  m < e.nextRef ∧ e.standing (.task m) = some none ∧
    ∃ t, e.tasks.get? m = some t ∧ t.cancelRequested = false ∧ Delays t e

/-- The task stands where it stood, and no pause was cut short. -/
theorem Delayed.transfer {m : Nat} (h : Delayed m e) (hn : e.nextRef ≤ e'.nextRef)
    (hs : e'.standing (.task m) = e.standing (.task m)) (ht : e'.tasks.get? m = e.tasks.get? m)
    (hnaps : ∀ nap o, e'.outcome? (.nap nap) = some o →
      e.outcome? (.nap nap) = some o ∨ o = .value .nothing) : Delayed m e' := by
  obtain ⟨hm, hopen, t, hget, hflag, hd⟩ := h
  refine ⟨Nat.lt_of_lt_of_le hm hn, hs.trans hopen, t, ht.trans hget, hflag, ?_⟩
  rcases hd with hd | ⟨hf, hw | ⟨nap, hw, ho⟩⟩
  · exact .inl hd
  · exact .inr ⟨hf, .inl hw⟩
  · refine .inr ⟨hf, .inr ⟨nap, hw, ?_⟩⟩
    intro o hout
    rcases hnaps nap o hout with hold | rfl
    · exact ho o hold
    · exact ⟨_, rfl⟩

theorem Delayed.idle {m : Nat} (h : Delayed m e) (hi : Idles e e') : Delayed m e' :=
  h.transfer hi.nextRef (hi.standing m h.1) (hi.tasks m h.1) hi.naps

theorem Delayed.unsettled {m : Nat} (h : Delayed m e) : e.isSettled (.task m) = false := by
  rw [isSettled, outcome?_eq_join, h.2.1]
  rfl

/-! ### The connection -/

/-- The task of the handshake: its success has made the client ready, and it runs, or is still under
    way, or has ended. -/
def Shaking (n : Option Nat) (r : Ref) (e : Engine) : Prop :=
  ∃ h, r = .task h ∧ h < e.nextRef ∧
    (∀ v, e.outcome? (.task h) = some (.value v) → e.client.ready = true) ∧
    (n = some h ∨ ∀ t, e.tasks.get? h = some t → EndsHandshake t.frames)

/-- What an open document can rely on. The task that runs, if one does, has not been asked to stop. -/
structure Connected (n : Option Nat) (d : Document) (c : Config) : Prop where
  ready : (d.opened = true ∨ ∃ f ∈ frames c, f.sent? ≠ none) → c.2.client.ready = true
  capabilities : c.2.client.capabilities = .null ∨
    .agreed c.2.client.capabilities ∈ c.2.history
  handshake : ∀ r, c.2.client.handshake = some r → Shaking n r c.2
  running : ∀ m, n = some m → m < c.2.nextRef ∧
    ∀ t, c.2.tasks.get? m = some t → t.cancelRequested = false

/-- Nothing has changed that an open document relies on. -/
structure Steady (n : Option Nat) (e e' : Engine) : Prop where
  handshake : e'.client.handshake = e.client.handshake
  capabilities : e'.client.capabilities = e.client.capabilities
  ready : e.client.ready = true → e'.client.ready = true
  history : ∀ event ∈ e.history, event ∈ e'.history
  nextRef : e.nextRef ≤ e'.nextRef
  frames : ∀ m < e.nextRef, ∀ t', e'.tasks.get? m = some t' →
    ∃ t, e.tasks.get? m = some t ∧ t'.frames = t.frames
  running : ∀ m, n = some m → e'.tasks.get? m = e.tasks.get? m
  standing : ∀ m < e.nextRef, e'.standing (.task m) = e.standing (.task m)

theorem Connected.steady (h : Connected n d (st, e)) (hs : Steady n e e')
    (hsent : (d'.opened = true ∨ ∃ f ∈ Engine.frames (st', e'), f.sent? ≠ none) →
      d.opened = true ∨ ∃ f ∈ Engine.frames (st, e), f.sent? ≠ none) :
    Connected n d' (st', e') where
  ready ho := hs.ready (h.ready (hsent ho))
  capabilities := by
    rw [hs.capabilities]
    exact h.capabilities.imp id (hs.history _)
  handshake r hr := by
    rw [hs.handshake] at hr
    obtain ⟨m, rfl, hm, hv, hf⟩ := h.handshake r hr
    refine ⟨m, rfl, Nat.lt_of_lt_of_le hm hs.nextRef, ?_, hf.imp id ?_⟩
    · intro v hout
      rw [outcome?_eq_join, hs.standing m hm, ← outcome?_eq_join] at hout
      exact hs.ready (hv v hout)
    · intro hall t' ht'
      obtain ⟨t, ht, hframes⟩ := hs.frames m hm t' ht'
      rw [hframes]
      exact hall t ht
  running m hm := by
    obtain ⟨hlt, hflag⟩ := h.running m hm
    refine ⟨Nat.lt_of_lt_of_le hlt hs.nextRef, ?_⟩
    rw [hs.running m hm]
    exact hflag

theorem Idles.steady (hi : Idles e e') (hr : ∀ m, n = some m → m < e.nextRef) : Steady n e e' where
  handshake := hi.handshake
  capabilities := hi.capabilities
  ready := hi.ready
  history event hmem := by
    obtain ⟨more, hh, _⟩ := hi.history
    rw [hh]
    exact List.mem_append_left _ hmem
  nextRef := hi.nextRef
  frames m hm t' ht' := ⟨t', (hi.tasks m hm) ▸ ht', rfl⟩
  running m hm := hi.tasks m (hr m hm)
  standing := hi.standing

/-- States that differ only in what an open document does not rely on. -/
theorem steady_of_eq (hc : e'.client = e.client) (hh : ∀ event ∈ e.history, event ∈ e'.history)
    (hn : e'.nextRef = e.nextRef) (ht : e'.tasks = e.tasks) (hp : e'.promises = e.promises) :
    Steady n e e' where
  handshake := by rw [hc]
  capabilities := by rw [hc]
  ready := by rw [hc]; exact id
  history := hh
  nextRef := Nat.le_of_eq hn.symm
  frames m _ t' ht' := ⟨t', ht ▸ ht', rfl⟩
  running m _ := by rw [ht]
  standing m _ := by rw [Engine.standing, hp, Engine.standing]

/-- What has happened has happened. -/
theorem mem_lasts (h : Lasts e e') {event : Event} (hmem : event ∈ e.history) :
    event ∈ e'.history := by
  obtain ⟨more, hh⟩ := h.history
  rw [hh]
  exact List.mem_append_left _ hmem

theorem Steady.trans {e₁ e₂ e₃ : Engine} (h : Steady n e₁ e₂) (h' : Steady n e₂ e₃) :
    Steady n e₁ e₃ where
  handshake := h'.handshake.trans h.handshake
  capabilities := h'.capabilities.trans h.capabilities
  ready hr := h'.ready (h.ready hr)
  history event hmem := h'.history event (h.history event hmem)
  nextRef := Nat.le_trans h.nextRef h'.nextRef
  frames m hm t ht := by
    obtain ⟨t', ht', heq⟩ := h'.frames m (Nat.lt_of_lt_of_le hm h.nextRef) t ht
    obtain ⟨t'', ht'', heq'⟩ := h.frames m hm t' ht'
    exact ⟨t'', ht'', heq.trans heq'⟩
  running m hm := (h'.running m hm).trans (h.running m hm)
  standing m hm := (h'.standing m (Nat.lt_of_lt_of_le hm h.nextRef)).trans (h.standing m hm)

/-- Another task than the one that runs is asked to stop. -/
theorem steady_requestCancel {m : Nat} (hn : n ≠ some m) (e : Engine) :
    Steady n e (e.requestCancel m) where
  handshake := rfl
  capabilities := rfl
  ready := id
  history _ := id
  nextRef := Nat.le_refl _
  frames m' _ t' ht' := by
    rw [requestCancel, Table.get?_update] at ht'
    split at ht'
    · obtain ⟨t, ht, rfl⟩ := Option.map_eq_some_iff.mp ht'
      exact ⟨t, ht, rfl⟩
    · exact ⟨t', ht', rfl⟩
  running m' hm' := by
    rw [requestCancel, Table.get?_update, if_neg]
    rintro rfl
    exact hn hm'
  standing _ _ := rfl

theorem steady_settle_nap (nap : Nat) (o : Outcome) (e : Engine) :
    Steady n e (e.settle (.nap nap) o) where
  handshake := by rw [settle_client]
  capabilities := by rw [settle_client]
  ready := by rw [settle_client]; exact id
  history := by rw [settle_history]; exact fun _ => id
  nextRef := Nat.le_of_eq (settle_nextRef _ _ _).symm
  frames m _ t ht := ⟨t, settle_tasks _ _ e ▸ ht, rfl⟩
  running m _ := by rw [settle_tasks]
  standing m _ := standing_settle_of_ne (by simp) _ _

theorem Connected.idle (h : Connected n d (st, e)) (hi : Idles e e') (hst : Stays st st')
    (hg : Grows e e') : Connected n d (st', e') := by
  refine h.steady (hi.steady fun m hm => (h.running m hm).1) ?_
  rintro (ho | ⟨f, hf, hsent⟩)
  · exact .inl ho
  · exact .inr ⟨f, sent_of_stays hst hg hf hsent, hsent⟩

/-! ### The slot -/

/-- What stands in the slot will send the changes, and is not the task that runs. -/
def Slotted (n : Option Nat) (e : Engine) : Prop :=
  ∀ r, e.slots.get? 0 = some r → ∃ m, r = .task m ∧ n ≠ some m ∧ Delayed m e

/-- What the server has not been told waits in the slot. -/
def Told (d : Document) (e : Engine) : Prop :=
  d.opened = true → mirror e.history = some d.text ∨ ∃ r, e.slots.get? 0 = some r

/-- No edit of the document is lost. -/
structure Delivers (n : Option Nat) (d : Document) (c : Config) : Prop where
  connected : Connected n d c
  slotted : Slotted n c.2
  told : Told d c.2

theorem Slotted.idle (h : Slotted n e) (hi : Idles e e') : Slotted n e' := by
  intro r hr
  rw [hi.slots] at hr
  obtain ⟨m, rfl, hn, hd⟩ := h r hr
  exact ⟨m, rfl, hn, hd.idle hi⟩

theorem Told.idle (h : Told d e) (hi : Idles e e') : Told d e' := by
  intro ho
  rw [hi.mirror, hi.slots]
  exact h ho

theorem Told.texted (h : Told d e) (doc : Nat) (text : List Char) :
    Told d (e.note (.texted doc text)) := by
  intro ho
  have hm : mirror (e.note (.texted doc text)).history = mirror e.history := mirror_concat _ _
  rw [hm]
  exact h ho

theorem told_of_unopened (h : d.opened = false) : Told d e := by
  intro ho
  rw [h] at ho
  cases ho

/-- A task in its delay is asked to stop, or its delay is cut short. -/
theorem cancel_delayed {m : Nat} (h : Delayed m e) : (e.cancel (.task m)).2 = e.requestCancel m ∨
    ∃ nap, (e.cancel (.task m)).2 = e.settle (.nap nap) .cancelled := by
  have hopen := h.unsettled
  obtain ⟨hm, _, t, ht, _, hd⟩ := h
  obtain ⟨bound, hbound⟩ : ∃ bound, e.nextRef + 1 = bound + 2 := ⟨e.nextRef - 1, by omega⟩
  have hw : t.waiting = none ∨ ∃ nap, t.waiting = some (.nap nap) := by
    rcases hd with ⟨_, _, hw⟩ | ⟨_, hw | ⟨nap, hw, _⟩⟩
    · exact .inl hw
    · exact .inl hw
    · exact .inr ⟨nap, hw⟩
  rw [cancel, hbound]
  rcases hw with hw | ⟨nap, hw⟩
  · left
    simp [cancelWithin, hopen, ht, hw]
  · cases hnap : e.isSettled (.nap nap) with
    | true =>
      left
      simp [cancelWithin, hopen, ht, hw, hnap]
    | false =>
      right
      exact ⟨nap, by simp [cancelWithin, hopen, ht, hw, hnap]⟩

/-- Only the task in the slot is asked to stop, and it is not the one that runs. -/
theorem steady_cancelSlot (h : Slotted n e) :
    Steady n e (e.cancelSlot 0).2 ∧ (e.cancelSlot 0).2.slots.get? 0 = none := by
  have hc := cancels_cancelSlot 0 e
  have hslots : (e.cancelSlot 0).2.slots.get? 0 = none := by
    rw [hc.slots]
    simp [Table.get?_erase]
  refine ⟨?_, hslots⟩
  cases hs : e.slots.get? 0 with
  | none =>
    have heq : (e.cancelSlot 0).2 = e := by simp [cancelSlot, hs]
    rw [heq]
    exact steady_of_eq rfl (fun _ => id) rfl rfl rfl
  | some r =>
    obtain ⟨m, rfl, hn, hd⟩ := h r hs
    have hopen : isSettled (.task m) { e with slots := e.slots.erase 0 } = false := hd.unsettled
    have hcancel : (e.cancelSlot 0).2
        = (({ e with slots := e.slots.erase 0 } : Engine).cancel (.task m)).2 := by
      simp [cancelSlot, hs, hopen]
    have hd' : Delayed m { e with slots := e.slots.erase 0 } := hd
    have herase : Steady n e { e with slots := e.slots.erase 0 } :=
      steady_of_eq rfl (fun _ => id) rfl rfl rfl
    rw [hcancel]
    rcases cancel_delayed hd' with heq | ⟨nap, heq⟩
    · rw [heq]
      exact herase.trans (steady_requestCancel hn _)
    · rw [heq]
      exact herase.trans (steady_settle_nap nap .cancelled _)

/-- New work in the slot takes the place of what stands there, and will send the changes. -/
theorem steady_scheduleFlush (h : Slotted n e) (hr : ∀ m, n = some m → m < e.nextRef) :
    Steady n e (e.scheduleFlush 0).2 ∧ ∃ m, (e.scheduleFlush 0).2.slots.get? 0 = some (.task m) ∧
      n ≠ some m ∧ Delayed m (e.scheduleFlush 0).2 := by
  obtain ⟨hc, _⟩ := steady_cancelSlot h
  have hnext : (e.cancelSlot 0).2.nextRef = e.nextRef := (cancels_cancelSlot 0 e).nextRef
  let op : Operation := .debounced 0 (((e.session? 0).map (·.delay)).getD 0) (.flush 0)
  have hspawn : Steady n (e.cancelSlot 0).2 ((e.cancelSlot 0).2.spawn op).2 :=
    (idles_spawn op _).steady fun m hm => hnext ▸ hr m hm
  have hput : Steady n ((e.cancelSlot 0).2.spawn op).2 (e.scheduleFlush 0).2 :=
    steady_of_eq rfl (fun _ => id) rfl rfl rfl
  refine ⟨(hc.trans hspawn).trans hput, e.nextRef, ?_, ?_, ?_⟩
  · obtain ⟨_, _, hslots⟩ := scheduleFlush_same 0 e
    rw [hslots, Table.get?_put_self]
  · intro hm
    exact Nat.lt_irrefl _ (hr _ hm)
  · rw [← hnext]
    refine ⟨Nat.lt_succ_self _, ?_, { frames := [.begin op] }, Table.get?_put_self _ _ _, rfl,
      .inl ⟨_, rfl, rfl⟩⟩
    have hs := standing_promise (.task (e.cancelSlot 0).2.nextRef)
      (.task (e.cancelSlot 0).2.nextRef) (e.cancelSlot 0).2
    rw [if_pos rfl] at hs
    exact hs

theorem Connected.scheduleFlush (hb : Connected n d (st, e)) (hs : Slotted n e)
    (hg : Grows e (e.scheduleFlush 0).2) : Delivers n d (st, (e.scheduleFlush 0).2) := by
  obtain ⟨hsteady, m, hm, hn, hd⟩ := steady_scheduleFlush hs fun m hm => (hb.running m hm).1
  refine ⟨hb.steady hsteady ?_, ?_, fun _ => .inr ⟨_, hm⟩⟩
  · rintro (ho | ⟨f, hf, hsent⟩)
    · exact .inl ho
    · exact .inr ⟨f, sent_of_stays (.refl st) hg hf hsent, hsent⟩
  · intro r hr
    obtain rfl := Option.some.inj (hm.symm.trans hr)
    exact ⟨m, rfl, hn, hd⟩

/-! ### The moves -/

theorem Delivers.idle (h : Delivers n d (st, e)) (hi : Idles e e') (hst : Stays st st')
    (hg : Grows e e') : Delivers n d (st', e') :=
  ⟨h.connected.idle hi hst hg, h.slotted.idle hi, h.told.idle hi⟩

theorem Delivers.spawn (h : Delivers n d (st, e)) (hn : Numbered e) (op : Operation) :
    Delivers n d (st, (e.spawn op).2) := by
  have hi := idles_spawn op e
  refine ⟨h.connected.steady (hi.steady fun m hm => (h.connected.running m hm).1) ?_,
    h.slotted.idle hi, h.told.idle hi⟩
  rintro (ho | ⟨f, hf, hsent⟩)
  · exact .inl ho
  · rw [frames, hn.held_spawn op, ← List.append_assoc, List.mem_append, List.mem_singleton] at hf
    rcases hf with hf | rfl
    · exact .inr ⟨f, hf, hsent⟩
    · exact absurd rfl hsent

/-- The handshake is started: its task is to begin. -/
theorem Delivers.handshake (h : Delivers n d (st, e)) (hn : Numbered e) :
    Delivers n d (st, e.startHandshake.2) := by
  rcases startHandshake_cases e with ⟨_, heq⟩ | ⟨_, ha⟩
  · rw [heq]
    exact h
  · have hspawn := h.spawn hn .handshake
    have hstarted : Delivers n d (st, e.shaking) := by
      refine ⟨⟨hspawn.connected.ready, hspawn.connected.capabilities, ?_, hspawn.connected.running⟩,
        hspawn.slotted, hspawn.told⟩
      intro r hr
      obtain rfl := Option.some.inj hr
      refine ⟨e.nextRef, rfl, Nat.lt_succ_self _, ?_, .inr ?_⟩
      · intro v hv
        rw [show e.shaking.outcome? (.task e.nextRef) = none from outcome?_shaking e] at hv
        cases hv
      · intro t ht
        have hget : e.shaking.tasks.get? e.nextRef = some { frames := [.begin .handshake] } :=
          Table.get?_put_self _ _ _
        obtain rfl := Option.some.inj (hget.symm.trans ht)
        exact ⟨_, rfl, rfl⟩
    exact hstarted.idle (idles_tallies ha) (.refl st) (.of_tallies ha)

theorem Delivers.agreed (h : Delivers n d (st, e)) (hst : Stays st st') (capabilities : Json) :
    Delivers n d (st', (e.agree capabilities).note (.handed initialized)) := by
  have hmem : Event.agreed capabilities ∈ e.history ++ [.agreed capabilities] := by simp
  have hagree : Delivers n d (st, e.agree capabilities) := by
    refine ⟨⟨h.connected.ready, .inr hmem, h.connected.handshake, h.connected.running⟩, h.slotted, ?_⟩
    intro ho
    have hm : mirror (e.history ++ [.agreed capabilities]) = mirror e.history := mirror_concat _ _
    change mirror (e.history ++ [.agreed capabilities]) = _ ∨ _
    rw [hm]
    exact h.told ho
  exact hagree.idle (idles_note rfl _) hst (.of_tasks rfl (Nat.le_refl _) rfl)

theorem Delivers.preset {doc : Nat} {text : Option (List Char)}
    (h : Delivers n d (.begin (.openDocument doc text) :: st, e)) (ho : d'.opened = false) :
    Delivers n d' (.readyToOpen doc :: st, e.preset doc text) := by
  have hsteady : Steady n e (e.preset doc text) :=
    steady_of_eq (by cases text <;> rfl) (fun _ => mem_lasts (lasts_preset doc text e))
      (by cases text <;> rfl) (by cases text <;> rfl) (by cases text <;> rfl)
  have hheld : (e.preset doc text).held = e.held := by cases text <;> rfl
  refine ⟨h.connected.steady hsteady ?_, ?_, told_of_unopened ho⟩
  · rintro (hopen | ⟨f, hf, hsent⟩)
    · rw [ho] at hopen
      cases hopen
    · rw [frames, hheld] at hf
      rcases List.mem_cons.mp hf with rfl | hf
      · exact absurd rfl hsent
      · exact .inr ⟨f, List.mem_cons_of_mem _ hf, hsent⟩
  · cases text <;> exact h.slotted

theorem mem_speak {event : Event} (doc : Nat) (m : Json) (h : event ∈ e.history) :
    event ∈ (e.speak doc m).history :=
  List.mem_append_left _ (List.mem_append_left _ h)

/-- The handshake has succeeded, so the client is ready when the document is opened. -/
theorem Delivers.opening {doc : Nat} {v : Value} {m : Json} {text : List Char}
    (h : Delivers n d (.readyToOpen doc :: st, e)) (ho : d.opened = false)
    (hv : e.handshakeOutcome = .value v) (f : Frame) :
    Delivers n d (f :: .openSent doc text :: st, e.speak doc m) := by
  have hready : e.client.ready = true := by
    unfold handshakeOutcome at hv
    cases hr : e.client.handshake with
    | none => simp [hr] at hv
    | some r =>
      obtain ⟨t, rfl, _, hshake, _⟩ := h.connected.handshake r hr
      simp only [hr, Option.bind_some] at hv
      cases hout : e.outcome? (.task t) with
      | none => simp [hout] at hv
      | some o =>
        obtain rfl : o = .value v := by simpa [hout] using hv
        exact hshake v hout
  refine ⟨⟨fun _ => hready, ?_, h.connected.handshake, h.connected.running⟩, h.slotted,
    told_of_unopened ho⟩
  exact h.connected.capabilities.imp id (mem_speak doc m)

theorem only_document {hook : EditHook} (h : e.sessions.map Session.core = [(d, hook)])
    (h' : e.sessions.map Session.core = [(d', hook)]) : d = d' :=
  congrArg Prod.fst (List.singleton_inj.mp (h.symm.trans h'))

/-- The document is open: what was edited meanwhile waits in the slot. -/
theorem Delivers.opened {doc : Nat} {sent : List Char}
    (h : Delivers n d (.openSent doc sent :: st, e)) (hs : Sound k d (.openSent doc sent :: st, e))
    (hn : Numbered e)
    (hd : (e.noteOpened doc sent).sessions.map Session.core = [(d', .none)]) :
    Delivers n d' (st, e.noteOpened doc sent) := by
  have hmirror : LanguageClient.mirror e.history = some sent :=
    hs.sent _ (List.mem_cons_self ..) sent rfl
  -- while the frame stands there, the document counts as open
  have hwas : d.opened = true ∨ ∃ f ∈ frames (.openSent doc sent :: st, e), f.sent? ≠ none :=
    .inr ⟨_, List.mem_cons_self .., by simp [Frame.sent?]⟩
  rcases noteOpened_cases hs.session doc sent with ⟨_, heq⟩ | ⟨rfl, htext, heq⟩ | ⟨rfl, htext, heq⟩
  · rw [heq] at hd ⊢
    obtain rfl := only_document hs.session hd
    exact h.idle (idles_tallies (.refl e)) (stays_tail _ _) (.refl e)
  · rw [heq] at hd ⊢
    obtain rfl := only_document (cores_onDocument_zero _ hs.session) hd
    refine ⟨h.connected.steady (steady_of_eq rfl (fun _ => id) rfl rfl rfl) fun _ => hwas,
      h.slotted, fun _ => .inl ?_⟩
    rw [(resync_opened sent d).2.2.2, htext]
    exact hmirror
  · rw [heq] at hd ⊢
    obtain ⟨hsame, _, _⟩ := scheduleFlush_same 0
      ((e.onDocument 0 fun d => { d with opened := true }.resync sent).onDocument 0 (·.forget))
    rw [hsame] at hd
    have hb : Connected n d'
        (st, (e.onDocument 0 fun d => { d with opened := true }.resync sent).onDocument 0
          (·.forget)) :=
      h.connected.steady (steady_of_eq rfl (fun _ => id) rfl rfl rfl) fun _ => hwas
    have hn' : Numbered ((e.onDocument 0 fun d => { d with opened := true }.resync sent).onDocument 0
        (·.forget)) := ⟨hn.nodup, hn.lt⟩
    exact hb.scheduleFlush h.slotted (hn'.grows_scheduleFlush 0)

/-- A slot that seems to be empty is empty. -/
theorem cancelSlot_of_false (h : Slotted n e) (hslots : ∀ doc, doc ≠ 0 → e.slots.get? doc = none)
    {doc : Nat} (hf : (e.cancelSlot doc).1 = false) : (e.cancelSlot doc).2 = e := by
  cases hs : e.slots.get? doc with
  | none => simp [cancelSlot, hs]
  | some r =>
    by_cases hdoc : doc = 0
    · subst hdoc
      obtain ⟨m, rfl, _, hd⟩ := h r hs
      have hopen : isSettled (.task m) { e with slots := e.slots.erase 0 } = false := hd.unsettled
      simp [cancelSlot, hs, hopen] at hf
    · rw [hslots doc hdoc] at hs
      cases hs

/-- Frames that put nothing out of order do not matter. -/
theorem Delivers.stays (h : Delivers n d (st, e)) (hst : Stays st st') : Delivers n d (st', e) :=
  h.idle (idles_tallies (.refl e)) hst (.refl e)

/-! ### Sending changes -/

/-- Before the changes of a document are sent: if they are another document's, nothing is lost. -/
structure Cleared (doc : Nat) (n : Option Nat) (d : Document) (c : Config) : Prop where
  connected : Connected n d c
  slotted : Slotted n c.2
  told : doc ≠ 0 → Told d c.2

theorem Delivers.cleared (h : Delivers n d c) (doc : Nat) : Cleared doc n d c :=
  ⟨h.connected, h.slotted, fun _ => h.told⟩

theorem slotted_of_none (h : e.slots.get? 0 = none) : Slotted n e := by
  intro r hr
  rw [h] at hr
  cases hr

theorem Connected.elapsed {slot : Nat} {work : Work}
    (h : Connected n d (.delayOver slot work :: st, e)) :
    Connected n d (.workDone :: st, { e with slots := e.slots.erase slot }) := by
  refine h.steady (steady_of_eq rfl (fun _ => id) rfl rfl rfl) ?_
  rintro (ho | ⟨f, hf, hsent⟩)
  · exact .inl ho
  · rcases List.mem_cons.mp hf with rfl | hf
    · exact absurd rfl hsent
    · exact .inr ⟨f, List.mem_cons_of_mem _ hf, hsent⟩

theorem Delivers.clears {doc : Nat} (h : Delivers n d c) (hs : Sound k d c)
    (hc : Clears doc c c') : Cleared doc n d c' := by
  cases hc with
  | kept => exact h.cleared doc
  | @cancelled st e htrue =>
    by_cases hdoc : doc = 0
    · subst hdoc
      obtain ⟨hsteady, hnone⟩ := steady_cancelSlot h.slotted
      refine ⟨h.connected.steady hsteady ?_, slotted_of_none hnone, absurd rfl⟩
      rintro (ho | ⟨f, hf, hsent⟩)
      · exact .inl ho
      · exact .inr ⟨f, sent_of_stays (.refl st) (grows_cancelSlot 0 e) hf hsent, hsent⟩
    · have hnone : e.slots.get? doc = none := hs.slots doc hdoc
      simp [cancelSlot, hnone] at htrue
  | @elapsed st e slot =>
    obtain rfl : slot = doc := by
      simpa [Frame.orderly] using hs.orderly _ (List.mem_cons_self ..)
    have hb := h.connected.elapsed
    by_cases hslot : slot = 0
    · subst hslot
      exact ⟨hb, slotted_of_none (by simp [Table.get?_erase]), absurd rfl⟩
    · have hzero : (e.slots.erase slot).get? 0 = e.slots.get? 0 := by
        rw [Table.get?_erase, if_neg (Ne.symm hslot)]
      refine ⟨hb, ?_, fun _ ho => ?_⟩
      · intro r hr
        exact h.slotted r (hzero ▸ hr)
      · change _ ∨ ∃ r, (e.slots.erase slot).get? 0 = some r
        rw [hzero]
        exact h.told ho

/-- When nothing is promised of a document: it was closed, or it should send changes of ranges and
    the server has not answered the handshake with an object. -/
def Excused (d : Document) (e : Engine) : Prop :=
  d.closed = true ∨ (d.incremental = true ∧
    ∃ capabilities, .agreed capabilities ∈ e.history ∧ ∀ members, capabilities ≠ .obj members)

/-- A server whose capabilities are an object has said whether it can take changes of ranges. -/
theorem serverIncremental_of_object {members : Members}
    (h : e.client.capabilities.orElse (.obj []) = .obj members) :
    ∃ b, e.serverIncremental = .ok b := by
  unfold serverIncremental Client.capability
  rw [h]
  simp only [Json.get, bind, Except.bind]
  generalize (Members.get? "textDocumentSync" members).getD .null = sync
  cases sync <;> exact ⟨_, rfl⟩

/-- What stops the sending of changes is that the server's capabilities are no object. -/
theorem sendsRanges_error {f : Failure} (h : e.sendsRanges d = .error f) :
    d.incremental = true ∧ e.client.capabilities ≠ .null ∧
      ∀ members, e.client.capabilities ≠ .obj members := by
  have hbad (members : Members) : e.client.capabilities.orElse (.obj []) = .obj members →
      e.serverIncremental ≠ .error f := by
    intro hm herror
    obtain ⟨b, hb⟩ := serverIncremental_of_object hm
    rw [hb] at herror
    cases herror
  unfold sendsRanges at h
  split at h
  · split at h
    · rename_i hi
      refine ⟨hi, ?_, ?_⟩
      · intro hnull
        exact hbad [] (by rw [hnull]; rfl) h
      · intro members hm
        rw [hm, Json.orElse] at hbad
        split at hbad
        · exact hbad _ rfl h
        · exact hbad _ rfl h
    · cases h
  · cases h

/-- The text that is given for a document changes nothing else. -/
theorem Cleared.retext {doc : Nat} (h : Cleared doc n d (st, e)) (text : Option (List Char)) :
    Cleared doc n (retexted doc text d) (st, e.retext doc text) := by
  have hsteady : Steady n e (e.retext doc text) :=
    steady_of_eq (by cases text <;> rfl) (fun _ => mem_lasts (lasts_retext doc text e))
      (by cases text <;> rfl) (by cases text <;> rfl) (by cases text <;> rfl)
  obtain ⟨hopened, _, _⟩ := retexted_same doc text d
  refine ⟨h.connected.steady hsteady ?_, ?_, fun hdoc => ?_⟩
  · rintro (ho | ⟨f, hf, hsent⟩)
    · exact .inl (hopened ▸ ho)
    · exact .inr ⟨f, sent_of_stays (.refl st) (grows_retext doc text e) hf hsent, hsent⟩
  · cases text <;> exact h.slotted
  · obtain ⟨doc, rfl⟩ := Nat.exists_eq_succ_of_ne_zero hdoc
    cases text with
    | none => exact h.told hdoc
    | some text => exact (h.told hdoc).texted _ text

/-- If nothing is sent now, there is nothing to be told, or a reason not to. -/
theorem Cleared.idle {doc : Nat} (h : Cleared doc n d (st, e))
    (hs : e.sessions.map Session.core = [(d, .none)]) (hidle : Idle doc e) :
    Excused d e ∨ Delivers n d (st, e) := by
  by_cases hdoc : doc = 0
  · subst hdoc
    obtain ⟨s, hsession, rfl⟩ := session?_zero hs
    rcases hidle s hsession with hnot | ⟨f, hf⟩
    · cases hc : s.document.closed with
      | true => exact .inl (.inl hc)
      | false =>
        refine .inr ⟨h.connected, h.slotted, told_of_unopened ?_⟩
        cases ho : s.document.opened with
        | false => rfl
        | true =>
          have hready : e.client.ready = true := h.connected.ready (.inl ho)
          simp [hready, ho, hc] at hnot
    · obtain ⟨hi, hnull, hobject⟩ := sendsRanges_error hf
      exact .inl (.inr ⟨hi, _, h.connected.capabilities.resolve_left hnull, hobject⟩)
  · exact .inr ⟨h.connected, h.slotted, h.told hdoc⟩

/-- Sending the changes of a document leaves nothing to be told. -/
theorem Cleared.sends {doc : Nat} (h : Cleared doc n d c) (hs : Sound k d c) (hk : k ≤ 1)
    (hm : Sends doc c c') (hd : c'.2.sessions.map Session.core = [(d', .none)]) :
    c'.2.client.closed = true ∨ Excused d' c'.2 ∨ Delivers n d' c' := by
  cases hm with
  | @idle st e text hidle =>
    have hre := hs.retext doc text
    obtain rfl := only_document hre.session hd
    exact .inr ((h.retext text).idle hre.session hidle)
  | @told st e text s ranges hsession _ ho =>
    have hre := hs.retext doc text
    obtain ⟨hsound, hmirror⟩ := hre.told (s.document.beginFlush ranges).2 hk hsession ho ranges
    obtain rfl := only_document hsound.session hd
    obtain ⟨hopened, _, _, htext⟩ := beginFlush_same ranges (retexted doc text d)
    have hold := h.retext text
    refine .inr (.inr ⟨hold.connected.steady ?_ ?_, hold.slotted, fun _ => .inl ?_⟩)
    · exact steady_of_eq rfl (fun _ => mem_speak doc _) rfl rfl rfl
    · rintro (ho' | ⟨f, hf, hsent⟩)
      · exact .inl (hopened ▸ ho')
      · rcases List.mem_cons.mp hf with rfl | hf
        · exact absurd rfl hsent
        · rcases List.mem_cons.mp hf with rfl | hf
          · exact absurd rfl hsent
          · exact .inr ⟨f, hf, hsent⟩
    · rw [htext]
      exact hmirror
  | @closed st e text d hclosed =>
    left
    change (e.retext doc text).client.closed = true
    rw [retext_client]
    exact hclosed

/-! ### Every move -/

theorem Delivers.moves (h : Delivers n d c) (hs : Sound k d c) (hk : k ≤ 1) (hm : Moves c c')
    (hn : Numbered c.2) (hg : Grows c.2 c'.2)
    (hd : c'.2.sessions.map Session.core = [(d', .none)]) :
    c'.2.client.closed = true ∨ Excused d' c'.2 ∨ Delivers n d' c' := by
  cases hm with
  | idle hi hst =>
    obtain rfl := only_document (hi.sessions.trans hs.session) hd
    exact .inr (.inr (h.idle hi hst hg))
  | closed hc => exact .inl hc
  | handshake =>
    obtain rfl := only_document ((startHandshake_same _).1.trans hs.session) hd
    exact .inr (.inr (h.handshake hn))
  | agreed capabilities hst =>
    obtain rfl := only_document hs.session hd
    exact .inr (.inr (h.agreed hst capabilities))
  | preset doc text =>
    obtain ⟨d'', hpreset, ho, _⟩ := hs.preset hk
    obtain rfl := only_document hpreset.session hd
    exact .inr (.inr (h.preset ho))
  | opening hv _ =>
    obtain rfl := only_document hs.session hd
    exact .inr (.inr (h.opening (hs.unopened hk rfl).1 hv _))
  | opened doc sent => exact .inr (.inr (h.opened hs hn hd))
  | unscheduled hst hfalse =>
    have heq := cancelSlot_of_false h.slotted hs.slots hfalse
    rw [heq] at hd ⊢
    obtain rfl := only_document hs.session hd
    exact .inr (.inr (h.stays hst))
  | flush hst hc hsend =>
    have hs' := hs.stays hst
    exact ((h.stays hst).clears hs' hc).sends (hs'.clears hc) hk hsend hd

end LanguageClient.Engine
