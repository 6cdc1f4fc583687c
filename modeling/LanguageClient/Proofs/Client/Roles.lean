import LanguageClient.Proofs.Client.Handshake
import LanguageClient.Proofs.Engine.Run

/-!
Who may change what the client is. Only a task that shakes hands makes the client ready; only the
reader, and whoever closes the client, close it. A frame of either kind (`Frame.role`) stands on a
stack only where one of that kind stood before, so a task has one of the two roles or none, and keeps
it as long as it runs.

    shakes:   begin handshake ──▶ request, handshakeAnswered ──▶ initialized, handshakeAnnounced
    closes:   begin read ──▶ received          begin close ──▶ hungUp ──▶ readerJoined
-/

namespace LanguageClient

/-! ### Roles -/

/-- What a task does to the client. -/
inductive Role where
  | shakes
  | closes
  deriving DecidableEq, Repr

/-- The role of the task on whose stack the frame stands, if the frame tells. -/
def Frame.role : Frame → Option Role
  | .begin .handshake | .handshakeAnswered | .handshakeAnnounced _ => some .shakes
  | .begin .read | .begin .close | .received | .hungUp | .readerJoined => some .closes
  | _ => none

/-- The frames at which the closing of the client goes on. -/
def Frame.closing : Frame → Bool
  | .hungUp | .readerJoined => true
  | _ => false

/-- The frames of the reader. -/
def Frame.reads : Frame → Bool
  | .begin .read | .received => true
  | _ => false

theorem Frame.role_of_plain {f : Frame} (h : f.plain = true) : f.role = none := by
  cases f with
  | «begin» op => cases h
  | handshakeAnswered => cases h
  | handshakeAnnounced result => cases h
  | received => cases h
  | hungUp => cases h
  | readerJoined => cases h
  | _ => rfl

theorem Frame.role_of_late {f : Frame} (h : f.late = true) : f.role = none := by
  cases f with
  | «begin» op => cases h
  | handshakeAnswered => cases h
  | handshakeAnnounced result => cases h
  | received => cases h
  | hungUp => cases h
  | readerJoined => cases h
  | _ => rfl

theorem Frame.role_of_answers {f : Frame} {q : Nat × Feature × Nat} (h : f.answers? = some q) :
    f.role = none := by
  cases f with
  | hoverAnswered => rfl
  | completionAnswered => rfl
  | signatureAnswered => rfl
  | _ => cases h

theorem Frame.role_of_request {f : Frame} {id : Nat} (h : f.request? = some id) : f.role = none := by
  cases f with
  | «begin» op => cases h
  | handshakeAnswered => cases h
  | handshakeAnnounced result => cases h
  | received => cases h
  | hungUp => cases h
  | readerJoined => cases h
  | _ => rfl

namespace Engine

variable {c c' : Config} {st st' : List Frame} {e e' : Engine}

/-! ### Where frames come from -/

/-- How a frame comes to stand on a stack: it stood there, it has no role, or it follows on a frame of
    its role. Whoever begins to close the client has closed it. -/
inductive Descends (st : List Frame) (e' : Engine) : Frame → Prop where
  | stays {f : Frame} : f ∈ st → Descends st e' f
  | free {f : Frame} : f.role = none → Descends st e' f
  | asks : .begin .handshake ∈ st → Descends st e' .handshakeAnswered
  | announces (result : Json) : .handshakeAnswered ∈ st →
      Descends st e' (.handshakeAnnounced result)
  | reads : .begin .read ∈ st → Descends st e' .received
  | hangsUp : .begin .close ∈ st → e'.client.closed = true → Descends st e' .hungUp
  | joins : .hungUp ∈ st → Descends st e' .readerJoined

/-- All frames of a stack. -/
def Descend (st : List Frame) (e' : Engine) (st' : List Frame) : Prop := ∀ f ∈ st', Descends st e' f

theorem Descend.refl (st : List Frame) (e' : Engine) : Descend st e' st := fun _ hf => .stays hf

theorem Descend.tail (f : Frame) (st : List Frame) (e' : Engine) : Descend (f :: st) e' st :=
  fun _ hg => .stays (List.mem_cons_of_mem _ hg)

theorem Descend.cons {f : Frame} (hf : Descends st e' f) (h : Descend st e' st') :
    Descend st e' (f :: st') :=
  List.forall_mem_cons.mpr ⟨hf, h⟩

theorem descend_asks {name : String} (h : Asks e name st st') : Descend st e' st' := by
  cases h with
  | ready => exact .refl _ _
  | late hf hf' => exact (Descend.tail _ _ _).cons (.free (Frame.role_of_answers hf'))
  | resolving completion => exact (Descend.tail _ _ _).cons (.free rfl)
  | told method params limit => exact .tail _ _ _
  | handshake => exact (Descend.tail _ _ _).cons (.asks (List.mem_cons_self ..))

theorem descend_announced (result : Json) (st : List Frame) (e' : Engine) :
    Descend (.handshakeAnswered :: st) e' (.handshakeAnnounced result :: st) :=
  (Descend.tail _ _ _).cons (.announces result (List.mem_cons_self ..))

theorem Descend.sends {doc : Nat} {c₁ : Config} (h : Descend st e' c₁.1) (hs : Sends doc c₁ c') :
    Descend st e' c'.1 := by
  rcases stack_sends hs with heq | heq | ⟨_, heq⟩ <;> rw [heq]
  · exact h
  · exact h.cons (.free rfl)
  · exact (h.cons (.free rfl)).cons (.free rfl)

/-- Sending the changes of a document is no one's role. -/
theorem descend_flush {doc : Nat} {c₁ : Config} (hc : Clears doc c c₁) (hs : Sends doc c₁ c') :
    Descend c.1 c'.2 c'.1 := by
  refine Descend.sends ?_ hs
  cases hc with
  | kept => exact .refl _ _
  | cancelled => exact .refl _ _
  | elapsed slot => exact (Descend.tail _ _ _).cons (.free rfl)

/-- A question stands on the stack before the changes of its document are sent. -/
theorem descend_late {doc : Nat} {f : Frame} (hf : f.role = none) (h : Refreshes doc (f :: st, e) c') :
    Descend st e' c'.1 := by
  have hpush : Descend st e' (f :: st) := (Descend.refl _ _).cons (.free hf)
  cases h with
  | idle => exact hpush
  | sends _ hs => exact Descend.sends hpush hs

theorem Step.descend (h : Step c c') : Descend c.1 c'.2 c'.1 := by
  cases h with
  | push hf => exact (Descend.refl _ _).cons (.free (Frame.role_of_plain hf))
  | late hf _ _ _ hr => exact descend_late (Frame.role_of_late (Frame.late_of_question hf)) hr
  | unasked _ hf' => exact (Descend.tail _ _ _).cons (.free (Frame.role_of_answers hf'))
  | call limit ha => exact (descend_asks ha).cons (.free rfl)
  | await _ _ hf' | abandon _ hf' => exact (Descend.tail _ _ _).cons (.free (Frame.role_of_request hf'))
  | reply id => exact (Descend.tail _ _ _).cons (.free rfl)
  | read => exact (Descend.tail _ _ _).cons (.reads (List.mem_cons_self ..))
  | close => exact (Descend.tail _ _ _).cons (.hangsUp (List.mem_cons_self ..) rfl)
  | join => exact (Descend.tail _ _ _).cons (.joins (List.mem_cons_self ..))
  | agreed capabilities result => exact (descend_announced result _ _).cons (.free rfl)
  | agreedClosed capabilities result => exact descend_announced result _ _
  | opening => exact ((Descend.tail _ _ _).cons (.free rfl)).cons (.free rfl)
  | flush hc hs => exact descend_flush hc hs
  | gathers | notify | preset | openingClosed | delay | rehearse =>
    exact (Descend.tail _ _ _).cons (.free rfl)
  | pop | endRequest | ready | joined | joinedFailed | shutDown | crash | opened =>
    exact .tail _ _ _
  | agree | pose | remark | shown | promise | gather | settle | spawn | register | transmit | unload | take | oblige | notified | respond
  | startReader | handshake | cancelReader | edit | unscheduled => exact .refl _ _

/-! ### Roles are inherited -/

/-- Every frame with a role stands where one with that role stood. -/
def Inherits (st st' : List Frame) : Prop :=
  ∀ f ∈ st', f.role = none ∨ ∃ g ∈ st, g.role = f.role

theorem Inherits.refl (st : List Frame) : Inherits st st := fun f hf => .inr ⟨f, hf, rfl⟩

theorem Inherits.trans {st₁ st₂ st₃ : List Frame} (h : Inherits st₁ st₂) (h' : Inherits st₂ st₃) :
    Inherits st₁ st₃ := by
  intro f hf
  rcases h' f hf with hnone | ⟨g, hg, hrole⟩
  · exact .inl hnone
  · rw [← hrole]
    exact h g hg

theorem Inherits.not_mem {role : Role} (h : Inherits st st') (hn : ∀ f ∈ st, f.role ≠ some role) :
    ∀ f ∈ st', f.role ≠ some role := by
  intro f hf hrole
  rcases h f hf with hnone | ⟨g, hg, hsame⟩
  · rw [hnone] at hrole
    cases hrole
  · exact hn g hg (hsame.trans hrole)

theorem Step.inherits (h : Step c c') : Inherits c.1 c'.1 := by
  intro f hf
  cases h.descend f hf with
  | stays hf => exact .inr ⟨f, hf, rfl⟩
  | free hnone => exact .inl hnone
  | asks hg => exact .inr ⟨_, hg, rfl⟩
  | announces result hg => exact .inr ⟨_, hg, rfl⟩
  | reads hg => exact .inr ⟨_, hg, rfl⟩
  | hangsUp hg => exact .inr ⟨_, hg, rfl⟩
  | joins hg => exact .inr ⟨_, hg, rfl⟩

theorem Path.inherits (h : Path c c') : Inherits c.1 c'.1 := by
  induction h with
  | refl => exact .refl _
  | tail _ hs ih => exact ih.trans hs.inherits

/-! ### Closing and reading -/

/-- Where the closing of the client goes on, the client is closed. -/
theorem Step.closing (h : Step c c') {f : Frame} (hf : f ∈ c'.1) (hc : f.closing = true) :
    c'.2.client.closed = true ∨ ∃ g ∈ c.1, g.closing = true := by
  cases h.descend f hf with
  | stays hf => exact .inr ⟨f, hf, hc⟩
  | free hnone =>
    unfold Frame.closing at hc
    split at hc
    · cases hnone
    · cases hnone
    · cases hc
  | hangsUp _ hclosed => exact .inl hclosed
  | joins hg => exact .inr ⟨_, hg, rfl⟩
  | asks => cases hc
  | announces => cases hc
  | reads => cases hc

/-- Only the task of a reader reads. -/
theorem Step.reads (h : Step c c') {f : Frame} (hf : f ∈ c'.1) (hr : f.reads = true) :
    ∃ g ∈ c.1, g.reads = true := by
  cases h.descend f hf with
  | stays hf => exact ⟨f, hf, hr⟩
  | free hnone =>
    unfold Frame.reads at hr
    split at hr
    · cases hnone
    · cases hnone
    · cases hr
  | reads hg => exact ⟨_, hg, rfl⟩
  | hangsUp => cases hr
  | joins => cases hr
  | asks => cases hr
  | announces => cases hr

theorem Path.reads (h : Path c c') (hn : ∀ f ∈ c.1, f.reads = false) : ∀ f ∈ c'.1, f.reads = false := by
  induction h with
  | refl => exact hn
  | tail _ hs ih =>
    intro f hf
    rw [← Bool.not_eq_true]
    intro hr
    obtain ⟨g, hg, hreads⟩ := hs.reads hf hr
    rw [ih g hg] at hreads
    cases hreads

/-! ### Flags -/

/-- Both flags of the client are as they were. -/
def SameFlags (e e' : Engine) : Prop :=
  e'.client.ready = e.client.ready ∧ e'.client.closed = e.client.closed

theorem SameFlags.of_client (h : e'.client = e.client) : SameFlags e e' := by
  rw [SameFlags, h]
  exact ⟨rfl, rfl⟩

theorem SameFlags.trans {e₁ e₂ e₃ : Engine} (h : SameFlags e₁ e₂) (h' : SameFlags e₂ e₃) :
    SameFlags e₁ e₃ :=
  ⟨h'.1.trans h.1, h'.2.trans h.2⟩

theorem sameFlags_tallies (h : Tallies e e') : SameFlags e e' := .of_client h.client

theorem sameFlags_startReader (e : Engine) : SameFlags e e.startReader := by
  rcases startReader_cases e with ⟨_, heq⟩ | ⟨_, heq⟩
  · rw [heq]
    exact .of_client rfl
  · rw [heq]
    exact ⟨rfl, rfl⟩

theorem sameFlags_register (r : Registration Subscriber) (e : Engine) :
    SameFlags e (e.register r) := by
  rcases register_cases r e with heq | ⟨_, level, message, heq⟩
  · rw [heq]
    exact ⟨rfl, rfl⟩
  · rw [heq]
    exact ⟨rfl, rfl⟩

theorem sameFlags_startHandshake (e : Engine) : SameFlags e e.startHandshake.2 := by
  rcases startHandshake_cases e with ⟨_, heq⟩ | ⟨_, ha⟩
  · rw [heq]
    exact .of_client rfl
  · have hshake : SameFlags e e.shaking := ⟨rfl, rfl⟩
    exact hshake.trans (sameFlags_tallies ha)

theorem client_cancelSlot (doc : Nat) (e : Engine) : (e.cancelSlot doc).2.client = e.client :=
  (cancels_cancelSlot doc e).client

theorem client_scheduleFlush (doc : Nat) (e : Engine) :
    (e.scheduleFlush doc).2.client = e.client := client_cancelSlot doc e

theorem client_scheduleChange (doc : Nat) (text : List Char) (changes : Option (List Change))
    (e : Engine) : SameFlags e (e.scheduleChange doc text changes).2 := by
  obtain ⟨e₁, ha, heq⟩ := scheduleChange_eq doc text changes e
  have hsame := sameFlags_tallies ha.toTallies
  rw [heq, SameFlags, client_scheduleFlush]
  exact hsame

theorem client_noteOpened (doc : Nat) (sent : List Char) (e : Engine) :
    (e.noteOpened doc sent).client = e.client := by
  unfold noteOpened
  simp only
  split
  · rfl
  · split
    · exact client_scheduleFlush doc _
    · rfl

theorem sameFlags_clears {doc : Nat} (h : Clears doc c c') : SameFlags c.2 c'.2 := by
  cases h with
  | kept => exact .of_client rfl
  | cancelled => exact .of_client (client_cancelSlot doc _)
  | elapsed slot => exact .of_client rfl

theorem sameFlags_sends {doc : Nat} (h : Sends doc c c') : SameFlags c.2 c'.2 := by
  cases h with
  | idle text => exact .of_client (retext_client doc text _)
  | told => exact .of_client (retext_client doc _ _)
  | closed text d => exact .of_client (retext_client doc text _)

theorem sameFlags_refreshes {doc : Nat} (h : Refreshes doc c c') : SameFlags c.2 c'.2 := by
  have hslot : SameFlags c.2 (c.2.cancelSlot doc).2 := .of_client (client_cancelSlot doc _)
  cases h with
  | idle => exact hslot
  | sends _ hs => exact hslot.trans (sameFlags_sends hs)

/-- Who closes the client: whoever was told to, or a reader that comes to its end. -/
def Closes (c c' : Config) : Prop :=
  .begin .close ∈ c.1 ∨ (.received ∈ c.1 ∧ .readerEnded ∈ c'.2.history)

theorem mem_history_shutDown (e : Engine) : .readerEnded ∈ e.shutDown.history :=
  List.mem_append_right _ (List.mem_singleton_self _)

/-- What a step can do to the flags: nothing; close the client; or make it ready, which needs that
    role. -/
theorem Step.flags_cases (h : Step c c') : SameFlags c.2 c'.2 ∨
    (Closes c c' ∧ c'.2.client.closed = true ∧ c'.2.client.ready = false) ∨
    ((∃ f ∈ c.1, f.role = some .shakes) ∧ c'.2.client.closed = c.2.client.closed) := by
  cases h with
  | agree ha => exact .inl (sameFlags_tallies ha)
  | late _ _ _ _ hr =>
    have hsame := sameFlags_refreshes hr
    exact .inl hsame
  | settle ha | abandon _ _ _ ha =>
    exact .inl ((sameFlags_tallies ha.toTallies).trans (.of_client (settle_client _ _ _)))
  | @respond st e e' m hr he =>
    have hnote : SameFlags e (e.note (.taken m)) := .of_client rfl
    rcases resolve_cases he with ⟨ha, _⟩ | ⟨n, answer, o, _, _, _, _, rfl⟩
    · exact .inl (hnote.trans (sameFlags_tallies ha))
    · exact .inl (hnote.trans (.of_client (settle_client _ _ _)))
  | @oblige st e e' m _ ha =>
    have hnote : SameFlags e (e.note (.taken m)) := .of_client rfl
    exact .inl ((hnote.trans (sameFlags_tallies ha.toTallies)).trans (.of_client rfl))
  | register r => exact .inl (sameFlags_register r _)
  | startReader => exact .inl (sameFlags_startReader _)
  | handshake => exact .inl (sameFlags_startHandshake _)
  | ready result => exact .inr (.inr ⟨⟨_, List.mem_cons_self .., rfl⟩, rfl⟩)
  | close => exact .inr (.inl ⟨.inl (List.mem_cons_self ..), rfl, rfl⟩)
  | cancelReader => exact .inl (.of_client (cancels_cancel _ _).client)
  | joined message => exact .inl (.of_client (client_failPending _ _))
  | shutDown | crash =>
    exact .inr (.inl ⟨.inr ⟨List.mem_cons_self .., mem_history_shutDown _⟩, flags_shutDown _⟩)
  | preset doc text => cases text <;> exact .inl (.of_client rfl)
  | opened doc sent => exact .inl (.of_client (client_noteOpened doc sent _))
  | edit text changes => exact .inl (client_scheduleChange _ text changes _)
  | unscheduled => exact .inl (.of_client (client_cancelSlot _ _))
  | flush hc hs => exact .inl ((sameFlags_clears hc).trans (sameFlags_sends hs))
  | gather members tolerant => exact .inl (.of_client (agrees_gather members tolerant _).client)
  | _ => exact .inl ⟨rfl, rfl⟩

/-- Closing the client needs the one role, making it ready the other. -/
theorem Step.flags (h : Step c c') : SameFlags c.2 c'.2 ∨
    ((∃ f ∈ c.1, f.role = some .closes) ∧ c'.2.client.closed = true ∧ c'.2.client.ready = false) ∨
    ((∃ f ∈ c.1, f.role = some .shakes) ∧ c'.2.client.closed = c.2.client.closed) := by
  refine h.flags_cases.imp id (Or.imp (fun hcloses => ?_) id)
  obtain ⟨hcloses, hflags⟩ := hcloses
  refine ⟨?_, hflags⟩
  rcases hcloses with hmem | ⟨hmem, _⟩
  · exact ⟨_, hmem, rfl⟩
  · exact ⟨_, hmem, rfl⟩

/-- A task that does not close leaves open what is open. -/
theorem Path.closed_eq (h : Path c c') (hn : ∀ f ∈ c.1, f.role ≠ some .closes) :
    c'.2.client.closed = c.2.client.closed := by
  induction h with
  | refl => rfl
  | tail hp hs ih =>
    have hn := (Path.inherits hp).not_mem hn
    rcases hs.flags with hsame | ⟨⟨f, hf, hrole⟩, _⟩ | ⟨_, hclosed⟩
    · exact hsame.2.trans ih
    · exact absurd hrole (hn f hf)
    · exact hclosed.trans ih

/-- A task that does not shake hands makes nothing ready, and what it closes is not ready. -/
theorem Path.ready_of_ready (h : Path c c') (hn : ∀ f ∈ c.1, f.role ≠ some .shakes)
    (hr : c'.2.client.ready = true) :
    c.2.client.ready = true ∧ c'.2.client.closed = c.2.client.closed := by
  induction h with
  | refl => exact ⟨hr, rfl⟩
  | tail hp hs ih =>
    have hn := (Path.inherits hp).not_mem hn
    rcases hs.flags with hsame | ⟨_, _, hfalse⟩ | ⟨⟨f, hf, hrole⟩, _⟩
    · obtain ⟨hready, hclosed⟩ := ih (hsame.1 ▸ hr)
      exact ⟨hready, hsame.2.trans hclosed⟩
    · rw [hfalse] at hr
      cases hr
    · exact absurd hrole (hn f hf)

/-- What has no role leaves the flags alone. -/
theorem Path.sameFlags (h : Path c c') (hn : ∀ f ∈ c.1, f.role = none) : SameFlags c.2 c'.2 := by
  have hnot (role : Role) : ∀ f ∈ c.1, f.role ≠ some role := by
    intro f hf hrole
    rw [hn f hf] at hrole
    cases hrole
  induction h with
  | refl => exact .of_client rfl
  | tail hp hs ih =>
    rcases hs.flags with hsame | ⟨⟨f, hf, hrole⟩, _⟩ | ⟨⟨f, hf, hrole⟩, _⟩
    · exact ih.trans hsame
    · exact absurd hrole ((Path.inherits hp).not_mem (hnot _) f hf)
    · exact absurd hrole ((Path.inherits hp).not_mem (hnot _) f hf)

theorem sameFlags_cancels (h : Cancels e e') : SameFlags e e' := .of_client h.client

/-- The outside changes the flags only through tasks. -/
theorem sameFlags_act {a : Action} (h : a ≠ .run) (e : Engine) : SameFlags e (e.act a) := by
  have hpath {e e' : Engine} (hp : Path ([], e) ([], e')) : SameFlags e e' :=
    Path.sameFlags hp (by simp)
  cases a with
  | run => exact absurd rfl h
  | «begin» op => exact .of_client rfl
  | cancel r => exact sameFlags_cancels (cancels_cancel r e)
  | failSends f => exact .of_client rfl
  | addSession s => exact ⟨rfl, rfl⟩
  | scheduleChange doc text changes => exact client_scheduleChange doc text changes e
  | viewChanged doc text changes =>
    exact (client_scheduleChange doc text changes e).trans (hpath (path_viewChanged doc text changes))
  | closeSession doc =>
    change SameFlags e (e.closeSession doc)
    rcases closeSession_cases doc e with ⟨heq, _⟩ | ⟨s, e₁, _, _, hc, heq⟩
    · rw [heq]
      exact .of_client rfl
    · rw [heq]
      have hslot : SameFlags e ((e.onDocument doc fun d => { d with closed := true }).cancelSlot doc).2 :=
        .of_client (client_cancelSlot doc _)
      exact (hslot.trans (sameFlags_cancels hc)).trans (hpath (path_detach _))
  | _ => exact hpath (path_act rfl)

end Engine

end LanguageClient
