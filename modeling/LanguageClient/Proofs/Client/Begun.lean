import LanguageClient.Proofs.Client.Attached

/-!
What a step begins. A task that is begun takes its place behind all others, and its turn comes after
theirs (`Launches`). Two kinds of tasks need an occasion: an answer to the server is begun for each of
its requests that is taken up and for nothing else, and the client is closed by a task that the last
subscriber leaves behind (`Empties`).

    taken (request id)        ──▶ begin (reply id)
    detach x, x the only one  ──▶ begin close
-/

namespace LanguageClient

/-- The id of a request of the server that was taken up. -/
def Event.demand? : Event → Option Json
  | .taken m => if Message.isServerRequest m then some (Json.ofOption (m.member? "id")) else none
  | _ => none

/-- The ids of the server's requests, in the order in which they were taken up. -/
def demands (history : List Event) : List Json := history.filterMap Event.demand?

theorem demands_append (history more : List Event) :
    demands (history ++ more) = demands history ++ demands more := List.filterMap_append ..

theorem Event.demand?_of_ordinary {event : Event} (h : event.ordinary = true) :
    event.demand? = none := by
  cases event with
  | taken m => cases h
  | _ => rfl

/-- The id that is answered. -/
def Operation.reply? : Operation → Option Json
  | .reply id => some id
  | _ => none

namespace Engine

variable {c c' : Config} {st : List Frame} {e e' : Engine} {new : List (Nat × Operation)}

/-- These tasks have been begun, in that order, and the server's requests among the occasions. -/
structure Launches (new : List (Nat × Operation)) (e e' : Engine) : Prop where
  nextRef : e.nextRef ≤ e'.nextRef
  places : e'.places = e.places ++ new.map fun x => (x.1, [.begin x.2], none)
  turns : e'.turns = e.turns ++ new.map Prod.fst
  fresh : ∀ x ∈ new, e.nextRef ≤ x.1 ∧ x.1 < e'.nextRef
  demands : demands e'.history = demands e.history ++ new.filterMap (·.2.reply?)

theorem Launches.trans {new' : List (Nat × Operation)} {e₁ e₂ e₃ : Engine} (h : Launches new e₁ e₂)
    (h' : Launches new' e₂ e₃) : Launches (new ++ new') e₁ e₃ where
  nextRef := Nat.le_trans h.nextRef h'.nextRef
  places := by rw [h'.places, h.places, List.map_append, List.append_assoc]
  turns := by rw [h'.turns, h.turns, List.map_append, List.append_assoc]
  fresh x hx := by
    rcases List.mem_append.mp hx with hx | hx
    · have ⟨hge, hlt⟩ := h.fresh x hx
      exact ⟨hge, Nat.lt_of_lt_of_le hlt h'.nextRef⟩
    · have ⟨hge, hlt⟩ := h'.fresh x hx
      exact ⟨Nat.le_trans h.nextRef hge, hlt⟩
  demands := by rw [h'.demands, h.demands, List.filterMap_append, List.append_assoc]

/-- Nothing has been begun. -/
theorem launches_nothing (hn : e.nextRef ≤ e'.nextRef) (hp : e'.places = e.places)
    (ht : e'.turns = e.turns) (hd : LanguageClient.demands e'.history = LanguageClient.demands e.history) :
    Launches [] e e' :=
  ⟨hn, by simp [hp], by simp [ht], by simp, by simp [hd]⟩

theorem launches_of_eq (hn : e.nextRef ≤ e'.nextRef) (ht : e'.tasks = e.tasks)
    (hr : e'.ready = e.ready) (hh : e'.history = e.history) : Launches [] e e' :=
  launches_nothing hn (by rw [places, ht, places]) (by rw [turns, hr, turns]) (by rw [hh])

theorem Launches.refl (e : Engine) : Launches [] e e := launches_of_eq (Nat.le_refl _) rfl rfl rfl

theorem launches_agrees (h : Agrees e e') : Launches [] e e' :=
  launches_nothing h.nextRef (by rw [places, h.tasks, places]) h.turns (by rw [h.history])

theorem launches_gather (members : List Ref) (tolerant : Bool) (e : Engine) :
    Launches [] e (e.gather members tolerant).2 := by
  have hgrouped : Launches [] e ((e.grouped members tolerant).promise (.group e.nextRef)) :=
    launches_of_eq (Nat.le_refl _) rfl rfl rfl
  exact hgrouped.trans (launches_agrees (agrees_gather members tolerant e))

theorem launches_cancels (h : Cancels e e') : Launches [] e e' :=
  launches_nothing (Nat.le_of_eq h.nextRef.symm) h.places h.turns (by rw [h.history])

theorem launches_settle (r : Ref) (o : Outcome) (e : Engine) : Launches [] e (e.settle r o) :=
  launches_nothing (Nat.le_of_eq (settle_nextRef r o e).symm) (by rw [places, settle_tasks, places])
    (settle_turns r o e) (by rw [settle_history])

/-- Something has been noted that is no request of the server. -/
theorem launches_noted {event : Event} (hh : e'.history = e.history ++ [event])
    (h : event.demand? = none) (hn : e.nextRef ≤ e'.nextRef) (ht : e'.tasks = e.tasks)
    (hr : e'.ready = e.ready) : Launches [] e e' := by
  refine launches_nothing hn (by rw [places, ht, places]) (by rw [turns, hr, turns]) ?_
  rw [hh, demands_append]
  simp [LanguageClient.demands, h]

theorem launches_note {event : Event} (h : event.demand? = none) (e : Engine) :
    Launches [] e (e.note event) := launches_noted rfl h (Nat.le_refl _) rfl rfl

theorem Numbered.launches_spawn (hn : Numbered e) {op : Operation} (h : op.reply? = none) :
    Launches [(e.nextRef, op)] e (e.spawn op).2 where
  nextRef := Nat.le_succ _
  places := hn.places_spawn op
  turns := by
    change (e.ready ++ [Job.step e.nextRef]).filterMap Job.task? = _
    rw [List.filterMap_append]
    rfl
  fresh x hx := by
    rw [List.mem_singleton.mp hx]
    exact ⟨Nat.le_refl _, Nat.lt_succ_self _⟩
  demands := by
    simp only [List.filterMap_cons, h, List.filterMap_nil, List.append_nil]
    rfl

/-- A request of the server is taken up, and a task is begun that answers it. -/
theorem Numbered.launches_oblige {m : Json} (hn : Numbered e) (hm : Message.isServerRequest m = true)
    (ha : Agrees (e.note (.taken m)) e') :
    Launches [(e'.nextRef, .reply (Json.ofOption (m.member? "id")))] e
      (e'.spawn (.reply (Json.ofOption (m.member? "id")))).2 := by
  have hnoted : Grows e (e.note (.taken m)) := .of_tasks rfl (Nat.le_refl _) rfl
  have hn' : Numbered e' := hn.grows (hnoted.trans (.of_tallies ha.toTallies))
  have hplaces : e'.places = e.places := by
    rw [places, ha.tasks]
    rfl
  have hturns : e'.turns = e.turns := ha.turns
  refine ⟨Nat.le_trans ha.nextRef (Nat.le_succ _), ?_, ?_, fun x hx => ?_, ?_⟩
  · rw [hn'.places_spawn, hplaces]
    rfl
  · change (e'.ready ++ [Job.step e'.nextRef]).filterMap Job.task? = _
    rw [List.filterMap_append, ← hturns]
    rfl
  · rw [List.mem_singleton.mp hx]
    exact ⟨ha.nextRef, Nat.lt_succ_self _⟩
  · change LanguageClient.demands e'.history = _
    rw [ha.history]
    change LanguageClient.demands (e.history ++ [.taken m]) = _
    rw [demands_append]
    simp [LanguageClient.demands, Event.demand?, hm, Operation.reply?]

theorem launches_settleAll (f : Failure) : ∀ (pending : Table Nat Ref) (e : Engine),
    Launches [] e (pending.foldl (fun e (_, answer) => e.settle answer (.failure f)) e)
  | [], e => .refl e
  | (_, answer) :: rest, e =>
    (launches_settle answer (.failure f) e).trans (launches_settleAll f rest _)

theorem launches_failPending (f : Failure) (e : Engine) : Launches [] e (e.failPending f) :=
  launches_settleAll f e.client.pending e

theorem launches_cancelSlot (doc : Nat) (e : Engine) : Launches [] e (e.cancelSlot doc).2 := by
  have herase : Launches [] e { e with slots := e.slots.erase doc } :=
    launches_of_eq (Nat.le_refl _) rfl rfl rfl
  exact herase.trans (launches_cancels (cancels_cancelSlot doc e))

/-! ### Every step -/

/-- The only subscriber has been detached, and the client is to be closed for that. -/
def Empties (e e' : Engine) : Prop :=
  ∃ x, e.client.subscribers = [x] ∧ e'.history = e.history ++ [.registered (.detach x)]

/-- Tasks may have been begun, but no one has begun to close the client. -/
def Starts (e e' : Engine) : Prop := ∃ new, Launches new e e' ∧ ∀ x ∈ new, x.2 ≠ .close

theorem Starts.nothing (h : Launches [] e e') : Starts e e' := ⟨[], h, by simp⟩

theorem Starts.one {n : Nat} {op : Operation} (h : Launches [(n, op)] e e') (hop : op ≠ .close) :
    Starts e e' := ⟨_, h, by simpa using hop⟩

theorem Starts.between {n : Nat} {op : Operation} {e₁ e₂ : Engine} (h₁ : Launches [] e e₁)
    (h₂ : Launches [(n, op)] e₁ e₂) (h₃ : Launches [] e₂ e') (hop : op ≠ .close) : Starts e e' :=
  .one ((h₁.trans h₂).trans h₃) hop

theorem Starts.then_nothing {e₁ : Engine} (hs : Starts e e₁) (h : Launches [] e₁ e') : Starts e e' := by
  obtain ⟨new, hb, hc⟩ := hs
  exact ⟨_, hb.trans h, by simpa using hc⟩

theorem Starts.after_nothing {e₁ : Engine} (hs : Starts e₁ e') (h : Launches [] e e₁) : Starts e e' := by
  obtain ⟨new, hb, hc⟩ := hs
  exact ⟨new, h.trans hb, hc⟩

theorem Numbered.starts_scheduleFlush (hn : Numbered e) (doc : Nat) :
    Starts e (e.scheduleFlush doc).2 :=
  Starts.between (launches_cancelSlot doc e)
    ((hn.grows (grows_cancelSlot doc e)).launches_spawn rfl)
    (launches_of_eq (Nat.le_refl _) rfl rfl rfl) (by simp)

theorem Numbered.starts_scheduleChange (hn : Numbered e) (doc : Nat) (text : List Char)
    (changes : Option (List Change)) : Starts e (e.scheduleChange doc text changes).2 := by
  obtain ⟨e₁, ha, heq⟩ := scheduleChange_eq doc text changes e
  have hnote : Launches [] e (e.note (.texted doc text)) := launches_note rfl e
  have hd : Launches [] e (e.edited doc text changes) :=
    hnote.trans (launches_of_eq (Nat.le_refl _) rfl rfl rfl)
  have hedited : Grows e (e.edited doc text changes) := .of_tasks rfl (Nat.le_refl _) rfl
  have hn₁ : Numbered e₁ := hn.grows (hedited.trans (.of_tallies ha.toTallies))
  rw [heq]
  exact (hn₁.starts_scheduleFlush doc).after_nothing (hd.trans (launches_agrees ha))

theorem Numbered.starts_noteOpened (hn : Numbered e) (doc : Nat) (sent : List Char) :
    Starts e (e.noteOpened doc sent) := by
  have hd (f : Document → Document) (e : Engine) : Launches [] e (e.onDocument doc f) :=
    launches_of_eq (Nat.le_refl _) rfl rfl rfl
  have hg (f : Document → Document) (e : Engine) : Grows e (e.onDocument doc f) :=
    .of_tasks rfl (Nat.le_refl _) rfl
  unfold noteOpened
  simp only
  split
  · exact .nothing (hd _ e)
  · split
    · have hn' := hn.grows ((hg (fun d => { d with opened := true }.resync sent) e).trans (hg (·.forget) _))
      exact (hn'.starts_scheduleFlush doc).after_nothing ((hd _ e).trans (hd _ _))
    · exact .nothing (hd _ e)

theorem Numbered.starts_shutDown (hn : Numbered e) : Starts e e.shutDown := by
  have hc : Launches [] e (e.onClient fun c => { c with ready := false, closed := true }) :=
    launches_of_eq (Nat.le_refl _) rfl rfl rfl
  have hn' : Numbered (e.onClient fun c => { c with ready := false, closed := true }) :=
    hn.grows (.of_tasks rfl (Nat.le_refl _) rfl)
  have hend (reason : String) (e : Engine) :
      Launches [] e ((e.failPending (.transportClosed reason)).note .readerEnded) :=
    (launches_failPending _ e).trans (launches_note rfl _)
  unfold shutDown
  refine Starts.then_nothing ?_ (hend _ _)
  split
  · exact .between hc (hn'.launches_spawn rfl) (.refl _) (by simp)
  · exact .nothing hc

theorem Numbered.starts_startHandshake (hn : Numbered e) : Starts e e.startHandshake.2 := by
  rcases startHandshake_cases e with ⟨_, heq⟩ | ⟨_, ha⟩
  · rw [heq]
    exact .nothing (Launches.refl e)
  · have hshake : Launches [] (e.spawn .handshake).2 e.shaking :=
      launches_of_eq (Nat.le_refl _) rfl rfl rfl
    exact Starts.between (.refl e) (hn.launches_spawn rfl) (hshake.trans (launches_agrees ha)) (by simp)

theorem Numbered.starts_startReader (hn : Numbered e) : Starts e e.startReader := by
  rcases startReader_cases e with ⟨_, heq⟩ | ⟨_, heq⟩
  · rw [heq]
    exact .nothing (Launches.refl e)
  · rw [heq]
    exact Starts.between (.refl e) (hn.launches_spawn rfl) (launches_of_eq (Nat.le_refl _) rfl rfl rfl)
      (by simp)

/-- The client begins to close only when its only subscriber is detached. -/
theorem Numbered.starts_register (hn : Numbered e) (r : Registration Subscriber) :
    Starts e (e.register r) ∨
      (∃ n, Launches [(n, .close)] e (e.register r)) ∧ Empties e (e.register r) := by
  have he : Launches [] e (e.enlist r) := by
    have hc : Launches [] e
        (e.onClient fun c => { c with subscribers := c.subscribers.register r }) :=
      launches_of_eq (Nat.le_refl _) rfl rfl rfl
    exact hc.trans (launches_note rfl _)
  cases r with
  | attach x => exact .inl (.nothing he)
  | detach x =>
    unfold register detach
    simp only
    split
    · rename_i h
      simp only [Bool.and_eq_true, List.isEmpty_iff] at h
      obtain ⟨⟨⟨hremoved, -⟩, hempty⟩, -⟩ := h
      have hl := he.trans (launches_agrees (agrees_log .debug "last document detached, closing transport" _))
      have hn' : Numbered (((e.enlist (.detach x)).log .debug
          "last document detached, closing transport")) :=
        hn.grows (.of_tasks rfl (Nat.le_refl _) rfl)
      refine .inr ⟨⟨_, hl.trans (hn'.launches_spawn rfl)⟩, x, ?_, rfl⟩
      exact Registry.eq_singleton_of_detach hremoved hempty
    · exact .inl (.nothing he)

theorem launches_onDocument (doc : Nat) (f : Document → Document) (e : Engine) :
    Launches [] e (e.onDocument doc f) := launches_of_eq (Nat.le_refl _) rfl rfl rfl

theorem launches_retext (doc : Nat) (text : Option (List Char)) (e : Engine) :
    Launches [] e (e.retext doc text) := by
  cases text with
  | none => exact .refl e
  | some text => exact launches_noted rfl rfl (Nat.le_refl _) rfl rfl

theorem launches_preset (doc : Nat) (text : Option (List Char)) (e : Engine) :
    Launches [] e (e.preset doc text) := by
  cases text with
  | none => exact .refl e
  | some text => exact launches_noted rfl rfl (Nat.le_refl _) rfl rfl

theorem launches_speak (doc : Nat) (m : Json) (e : Engine) : Launches [] e (e.speak doc m) :=
  (launches_noted rfl rfl (Nat.le_refl _) rfl rfl : Launches [] e (e.note (.told doc m))).trans (launches_note rfl _)

theorem launches_clears {doc : Nat} (h : Clears doc c c') : Launches [] c.2 c'.2 := by
  cases h with
  | kept => exact .refl _
  | cancelled => exact launches_cancelSlot doc _
  | elapsed slot => exact launches_of_eq (Nat.le_refl _) rfl rfl rfl

theorem launches_sends {doc : Nat} (h : Sends doc c c') : Launches [] c.2 c'.2 := by
  cases h with
  | idle text => exact launches_retext doc text _
  | @told st e text s ranges =>
    have hd := (launches_retext doc text e).trans
      (launches_onDocument doc (fun _ => (s.document.beginFlush ranges).2) _)
    exact hd.trans (launches_speak doc _ _)
  | @closed st e text d =>
    have ht := launches_retext doc text e
    exact ht.trans (launches_onDocument doc (fun _ => d) _)

theorem launches_refreshes {doc : Nat} (h : Refreshes doc c c') : Launches [] c.2 c'.2 := by
  cases h with
  | idle => exact launches_cancelSlot doc _
  | @sends st e c' _ hs =>
    have hslot := launches_cancelSlot doc e
    exact hslot.trans (launches_sends hs)

theorem demand?_of_remarks {event : Event} (h : Remarks st e event) : event.demand? = none :=
  Event.demand?_of_ordinary (Event.ordinary_of_inward (inward_of_remarks h))

theorem launches_taken {m : Json} (h : Message.isServerRequest m = false) (e : Engine) :
    Launches [] e (e.note (.taken m)) := launches_note (by simp [Event.demand?, h]) e

theorem launches_respond {m : Json} (hr : Message.isResponse m = true)
    (he : (e.note (.taken m)).resolve (Json.ofOption (m.member? "id")) m = .ok e') : Launches [] e e' := by
  have hm := launches_taken (isServerRequest_of_isResponse hr) e
  rcases resolve_cases he with ⟨ha, _⟩ | ⟨_, _, o, _, _, _, _, rfl⟩
  · exact hm.trans (launches_agrees ha)
  · exact hm.trans (launches_settle _ _ _)

/-- What every step begins. -/
theorem Step.starts (hs : Step c c') (hn : Numbered c.2) : Starts c.2 c'.2 ∨
    (∃ n, Launches [(n, .close)] c.2 c'.2) ∧ Empties c.2 c'.2 := by
  cases hs with
  | register r => exact hn.starts_register r
  | agree ha => exact .inl (.nothing (launches_agrees ha))
  | late _ _ _ _ hr =>
    have h := launches_refreshes hr
    exact .inl (.nothing h)
  | remark hr => exact .inl (.nothing (launches_note (demand?_of_remarks hr) _))
  | pose | shown | endRequest | reply | notify | notified | joinedFailed | agreedClosed =>
    exact .inl (.nothing (launches_noted rfl rfl (Nat.le_refl _) rfl rfl))
  | gather members tolerant => exact .inl (.nothing (launches_gather members tolerant _))
  | promise | rehearse | transmit | unload | ready | close =>
    exact .inl (.nothing (launches_of_eq (Nat.le_refl _) rfl rfl rfl))
  | @settle st e e₁ r o ha =>
    have h := launches_agrees ha
    exact .inl (.nothing (h.trans (launches_settle r o e₁)))
  | @abandon st e e₁ f f' id _ _ _ ha =>
    have h := launches_agrees ha
    exact .inl (.nothing (h.trans (launches_settle (.answer id) .cancelled e₁)))
  | @spawn st e op h =>
    refine .inl (.one (hn.launches_spawn ?_) ?_)
    · cases op with
      | reply id => cases h
      | _ => rfl
    · rintro rfl
      cases h
  | @call st st' e method params name limit =>
    have hcalled : Launches [] e (e.enroll name).2 :=
      launches_noted rfl rfl (Nat.le_refl _) rfl rfl
    exact .inl (.nothing (hcalled.trans (launches_note rfl _)))
  | take _ hm => exact .inl (.nothing (launches_taken hm _))
  | oblige hm ha => exact .inl (.one (hn.launches_oblige hm ha) (by simp))
  | respond hr he => exact .inl (.nothing (launches_respond hr he))
  | startReader => exact .inl hn.starts_startReader
  | handshake => exact .inl hn.starts_startHandshake
  | @agreed st e capabilities result =>
    have hagreed : Launches [] e (e.agree capabilities) := launches_noted rfl rfl (Nat.le_refl _) rfl rfl
    exact .inl (.nothing (hagreed.trans (launches_note rfl _)))
  | cancelReader => exact .inl (.nothing (launches_cancels (cancels_cancel _ _)))
  | @joined st e message =>
    have hfail := launches_failPending (.transportClosed message) e
    exact .inl (.nothing (hfail.trans (launches_note rfl _)))
  | shutDown => exact .inl hn.starts_shutDown
  | @crash st e e' m hm ha =>
    have hboth := (launches_taken hm e).trans (launches_agrees ha)
    have hnoted : Grows e (e.note (.taken m)) := .of_tasks rfl (Nat.le_refl _) rfl
    have hn' : Numbered e' := hn.grows (hnoted.trans (.of_tallies ha.toTallies))
    exact .inl (hn'.starts_shutDown.after_nothing hboth)
  | preset doc text => exact .inl (.nothing (launches_preset doc text _))
  | opening => exact .inl (.nothing (launches_speak _ _ _))
  | opened doc sent => exact .inl (hn.starts_noteOpened doc sent)
  | edit text changes => exact .inl (hn.starts_scheduleChange _ text changes)
  | unscheduled => exact .inl (.nothing (launches_cancelSlot _ _))
  | flush hc hs => exact .inl (.nothing ((launches_clears hc).trans (launches_sends hs)))
  | push | unasked | gathers | pop | await | read | join | openingClosed | delay =>
    exact .inl (.nothing (.refl _))

/-! ### Frames -/

/-- Nothing that is to begin has been put on the stack. -/
def Fewer (st st' : List Frame) : Prop := ∀ op, .begin op ∈ st' → .begin op ∈ st

theorem Fewer.refl (st : List Frame) : Fewer st st := fun _ => id

theorem Fewer.tail (f : Frame) (st : List Frame) : Fewer (f :: st) st :=
  fun _ => List.mem_cons_of_mem f

theorem Fewer.cons {st st' : List Frame} {f : Frame} (hf : ∀ op, f ≠ .begin op) (h : Fewer st st') :
    Fewer st (f :: st') := by
  intro op hop
  rcases List.mem_cons.mp hop with heq | hop
  · exact absurd heq.symm (hf op)
  · exact h op hop

theorem Fewer.trans {st₁ st₂ st₃ : List Frame} (h : Fewer st₁ st₂) (h' : Fewer st₂ st₃) :
    Fewer st₁ st₃ := fun op hop => h op (h' op hop)

theorem fewer_clears {doc : Nat} (h : Clears doc c c') : Fewer c.1 c'.1 := by
  cases h with
  | kept => exact .refl _
  | cancelled => exact .refl _
  | elapsed slot => exact (Fewer.tail _ _).cons (by simp)

theorem fewer_sends {doc : Nat} (h : Sends doc c c') : Fewer c.1 c'.1 := by
  rcases stack_sends h with heq | heq | ⟨_, heq⟩
  · rw [heq]
    exact .refl _
  · rw [heq]
    exact (Fewer.refl _).cons (by simp)
  · rw [heq]
    exact ((Fewer.refl _).cons (by simp)).cons (by simp)

theorem fewer_refreshes {doc : Nat} (h : Refreshes doc c c') : Fewer c.1 c'.1 := by
  cases h with
  | idle => exact .refl _
  | @sends st e c' _ hs =>
    have h := fewer_sends hs
    exact h

theorem fewer_asks {st st' : List Frame} {name : String} (h : Asks e name st st') : Fewer st st' := by
  cases h with
  | ready => exact .refl _
  | @late st f f' q _ hf' =>
    refine (Fewer.tail _ _).cons fun op heq => ?_
    rw [heq] at hf'
    cases hf'
  | resolving => exact (Fewer.tail _ _).cons (by simp)
  | told => exact .tail _ _
  | handshake => exact (Fewer.tail _ _).cons (by simp)

/-- No step puts anything on its stack that is to begin. -/
theorem Step.fewer (hs : Step c c') : Fewer c.1 c'.1 := by
  have hne {f : Frame} {α : Type} {g : Frame → Option α} {a : α} (hf : g f = some a)
      (hg : ∀ op, g (.begin op) = none) : ∀ op, f ≠ .begin op := by
    rintro op rfl
    rw [hg op] at hf
    cases hf
  cases hs with
  | push hf =>
    refine (Fewer.refl _).cons fun op heq => ?_
    rw [heq] at hf
    cases hf
  | @late st e f doc generation feature members c' hf _ _ _ hr =>
    have hpush : Fewer st (f :: st) := (Fewer.refl st).cons (hne hf fun _ => rfl)
    exact hpush.trans (fewer_refreshes hr)
  | unasked _ hf' => exact (Fewer.tail _ _).cons (hne hf' fun _ => rfl)
  | call limit ha => exact (fewer_asks ha).cons (by simp)
  | await _ _ hf' | abandon _ hf' => exact (Fewer.tail _ _).cons (hne hf' fun _ => rfl)
  | agreed => exact ((Fewer.tail _ _).cons (by simp)).cons (by simp)
  | opening => exact ((Fewer.tail _ _).cons (by simp)).cons (by simp)
  | flush hc hs => exact (fewer_clears hc).trans (fewer_sends hs)
  | gathers | reply | notify | read | close | join | agreedClosed | preset | openingClosed | delay
  | rehearse =>
    exact (Fewer.tail _ _).cons (by simp)
  | pop | endRequest | ready | joined | joinedFailed | shutDown | crash | opened => exact .tail _ _
  | agree | pose | remark | shown | promise | gather | settle | spawn | register | transmit | unload | take
  | oblige | notified | respond | startReader | handshake | cancelReader | edit | unscheduled =>
    exact .refl _

theorem Path.fewer (hp : Path c c') : Fewer c.1 c'.1 := by
  induction hp with
  | refl => exact .refl _
  | tail _ hs ih => exact ih.trans hs.fewer

theorem Launches.held (h : Launches new e e') : e'.held = e.held ++ new.map fun x => .begin x.2 := by
  rw [held_eq_flatMap_places, held_eq_flatMap_places, h.places, List.flatMap_append, List.flatMap_map]
  simp only [← List.map_eq_flatMap]

/-! ### The outside -/

/-- What the outside does apart from letting tasks run and beginning them: it begins no closing of its
    own, and then does what any task could do. -/
theorem Correlated.act_starts {a : Action} (h : Correlated ([], e)) (ha : a ≠ .run)
    (hb : ∀ op, a ≠ .begin op) :
    ∃ e₁, Starts e e₁ ∧ Aside e e₁ ∧ Correlated ([], e₁) ∧ Path ([], e₁) ([], e.act a) := by
  have hinner {a : Action} (ha : a.inner = true) :
      ∃ e₁, Starts e e₁ ∧ Aside e e₁ ∧ Correlated ([], e₁) ∧ Path ([], e₁) ([], e.act a) :=
    ⟨e, .nothing (.refl e), aside_tallies (.refl e), h, path_act ha⟩
  cases a with
  | run => exact absurd rfl ha
  | «begin» op => exact absurd rfl (hb op)
  | cancel r =>
    exact ⟨_, .nothing (launches_cancels (cancels_cancel r e)), aside_cancels (cancels_cancel r e),
      h.act (.cancel r), .refl⟩
  | failSends f =>
    have hs : Launches [] e (e.act (.failSends f)) := launches_of_eq (Nat.le_refl _) rfl rfl rfl
    exact ⟨_, .nothing hs, aside_failSends f e, h.act (.failSends f), .refl⟩
  | addSession s =>
    have hs : Launches [] e { e with sessions := e.sessions ++ [s] } :=
      launches_of_eq (Nat.le_refl _) rfl rfl rfl
    exact ⟨_, .nothing hs, aside_addSession s e, h.addSession s,
      .single (.register (.attach (.document e.sessions.length)))⟩
  | scheduleChange doc text changes =>
    exact ⟨_, h.numbered.starts_scheduleChange doc text changes,
      aside_scheduleChange h.numbered doc text changes, h.act (.scheduleChange doc text changes),
      .refl⟩
  | viewChanged doc text changes =>
    exact ⟨_, h.numbered.starts_scheduleChange doc text changes,
      aside_scheduleChange h.numbered doc text changes, h.act (.scheduleChange doc text changes),
      path_viewChanged doc text changes⟩
  | closeSession doc =>
    change ∃ e₁, Starts e e₁ ∧ Aside e e₁ ∧ Correlated ([], e₁) ∧ Path ([], e₁) ([], e.closeSession doc)
    rcases closeSession_cases doc e with ⟨heq, _⟩ | ⟨s, e₁, _, _, hcancel, heq⟩
    · rw [heq]
      exact ⟨e, .nothing (.refl e), aside_tallies (.refl e), h, .refl⟩
    · rw [heq]
      have hclosed := launches_onDocument doc (fun d => { d with closed := true }) e
      have hslot := hclosed.trans (launches_cancelSlot doc _)
      exact ⟨e₁, .nothing (hslot.trans (launches_cancels hcancel)), aside_closing hcancel,
        h.closing hcancel, path_detach _⟩
  | _ => exact hinner rfl

end Engine

end LanguageClient
