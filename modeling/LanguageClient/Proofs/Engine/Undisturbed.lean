import LanguageClient.Proofs.Engine.Run

/-!
Runs that mind their own business. What the outside does to a connection, and what a task does that only
sends a message or waits for a while, leaves all tasks and slots alone (`Undisturbed`): promises may be
settled by it, but none is cancelled for which one task alone waits. A run of that kind ends, or waits for a
promise that is its own and new (`Minds`).
-/

namespace LanguageClient.Engine

/-- Tasks and slots are left alone. What was promised may have been settled, but no task has ended, and no
    wait has been cancelled. -/
structure Undisturbed (e e' : Engine) : Prop where
  tasks : e'.tasks = e.tasks
  slots : e'.slots = e.slots
  nextRef : e.nextRef ≤ e'.nextRef
  standing : ∀ r, r.number < e.nextRef → e'.standing r = e.standing r ∨
    e.standing r = some none ∧ ∃ o, r.Free o ∧ e'.standing r = some (some o)

/-- The promise was made between the two states, is still open, and is for one task alone. -/
structure Own (e : Engine) (p : Ref) (e' : Engine) : Prop where
  sole : p.sole = true
  since : e.nextRef ≤ p.number
  known : p.number < e'.nextRef
  opened : e'.standing p = some none

/-- A run from the first state leaves tasks and slots alone. It ends with such an outcome, or leaves such
    frames, and if it waits then for a promise of its own. -/
def Minds (F : List Frame → Prop) (O : Outcome → Prop) (e : Engine) : Run → Prop
  | (e', .done o) => O o ∧ Undisturbed e e'
  | (e', .wait p frames) => F frames ∧ Undisturbed e e' ∧ Own e p e'
  | (e', .pause frames) => F frames ∧ Undisturbed e e'

variable {e e' : Engine} {F F' : List Frame → Prop} {O O' : Outcome → Prop}

/-! ### Changes that disturb no one -/

theorem Undisturbed.trans {e₁ e₂ e₃ : Engine} (h : Undisturbed e₁ e₂) (h' : Undisturbed e₂ e₃) :
    Undisturbed e₁ e₃ where
  tasks := h'.tasks.trans h.tasks
  slots := h'.slots.trans h.slots
  nextRef := Nat.le_trans h.nextRef h'.nextRef
  standing r hr := by
    rcases h'.standing r (Nat.lt_of_lt_of_le hr h.nextRef) with h' | ⟨hopen, o, ho, h'⟩
    · rw [h']
      exact h.standing r hr
    · rcases h.standing r hr with h | ⟨_, _, _, h⟩
      · exact .inr ⟨h ▸ hopen, o, ho, h'⟩
      · rw [h] at hopen
        cases hopen

theorem undisturbed_of_eq (ht : e'.tasks = e.tasks) (hs : e'.slots = e.slots)
    (hp : e'.promises = e.promises) (hn : e.nextRef ≤ e'.nextRef) : Undisturbed e e' :=
  ⟨ht, hs, hn, fun r _ => .inl (by rw [standing, hp, standing])⟩

theorem Undisturbed.refl (e : Engine) : Undisturbed e e := undisturbed_of_eq rfl rfl rfl (Nat.le_refl _)

theorem undisturbed_tallies (h : Tallies e e') : Undisturbed e e' :=
  ⟨h.tasks, h.slots, h.nextRef, fun r _ => .inl (h.standing r)⟩

theorem undisturbed_settle {r : Ref} {o : Outcome} (h : r.Free o) (e : Engine) :
    Undisturbed e (e.settle r o) where
  tasks := settle_tasks r o e
  slots := settle_slots r o e
  nextRef := Nat.le_of_eq (settle_nextRef r o e).symm
  standing r' _ := by
    rcases standing_settle r r' o e with h' | ⟨rfl, hopen, h'⟩
    · exact .inl h'
    · exact .inr ⟨hopen, o, h, h'⟩

/-- A new promise is no one's yet. -/
theorem undisturbed_newPromise {kind : Nat → Ref} (hkind : ∀ n, (kind n).number = n) (e : Engine) :
    Undisturbed e (e.newPromise kind).2 where
  tasks := rfl
  slots := rfl
  nextRef := Nat.le_succ _
  standing r hr := by
    have hne : r ≠ kind e.nextRef := by
      rintro rfl
      exact Nat.lt_irrefl _ (hkind e.nextRef ▸ hr)
    left
    exact (standing_promise _ r { e with nextRef := e.nextRef + 1 }).trans (if_neg hne)

theorem own_newPromise {kind : Nat → Ref} (hkind : ∀ n, (kind n).number = n)
    (hsole : (kind e.nextRef).sole = true) : Own e (kind e.nextRef) (e.newPromise kind).2 where
  sole := hsole
  since := Nat.le_of_eq (hkind _).symm
  known := by
    rw [hkind]
    exact Nat.lt_succ_self _
  opened := (standing_promise _ _ { e with nextRef := e.nextRef + 1 }).trans (if_pos rfl)

/-- Whatever does not settle the promise keeps it. -/
theorem Own.keep {e'' : Engine} {p : Ref} (h : Own e p e') (hp : e''.promises = e'.promises)
    (hn : e'.nextRef ≤ e''.nextRef) : Own e p e'' :=
  ⟨h.sole, h.since, Nat.lt_of_lt_of_le h.known hn, by rw [standing, hp]; exact h.opened⟩

theorem Own.after {e'' : Engine} {p : Ref} (h : Own e' p e'') (hn : e.nextRef ≤ e'.nextRef) : Own e p e'' :=
  ⟨h.sole, Nat.le_trans hn h.since, h.known, h.opened⟩

/-! ### The connection -/

theorem undisturbed_onChannel (f : Channel → Channel) (e : Engine) : Undisturbed e (e.onChannel f) :=
  undisturbed_of_eq rfl rfl rfl (Nat.le_refl _)

theorem undisturbed_arrive (x : Inbound) (e : Engine) : Undisturbed e (e.arrive x) := by
  have hin := undisturbed_onChannel (fun c => { c with inbox := c.inbox ++ [x], getter := none }) e
  unfold arrive
  cases e.channel.getter with
  | none => exact hin
  | some n =>
    have hfree : (Ref.arrival n).Free (.value .nothing) := rfl
    exact hin.trans (undisturbed_settle hfree _)

theorem undisturbed_serverGets (message : Json) (e : Engine) : Undisturbed e (e.serverGets message) := by
  unfold serverGets
  split
  · rename_i method id _ _
    have hscript := undisturbed_onChannel
      (fun c => { c with script := (e.channel.script.next method).2 }) e
    simp only
    split
    · exact hscript
    · split
      · exact hscript.trans (undisturbed_arrive _ _)
      · exact hscript.trans (undisturbed_tallies (agrees_setTimer _ _ _).toTallies)
  · exact .refl e

theorem undisturbed_transmit (message : Json) (e : Engine) : Undisturbed e (e.transmit message).2 := by
  unfold transmit
  split
  · exact .refl e
  · split
    · exact .refl e
    · exact (undisturbed_onChannel _ e).trans (undisturbed_serverGets _ _)

theorem undisturbed_openGates : ∀ (waiters : List Nat) (e : Engine),
    Undisturbed e (waiters.foldl (fun e n => e.settle (.gate n) (.value .nothing)) e)
  | [], e => .refl e
  | n :: rest, e =>
    have hfree : (Ref.gate n).Free (.value .nothing) := rfl
    (undisturbed_settle hfree e).trans (undisturbed_openGates rest _)

theorem undisturbed_unblock (e : Engine) : Undisturbed e e.unblock :=
  (undisturbed_onChannel _ e).trans (undisturbed_openGates _ _)

theorem undisturbed_letGo (e : Engine) : Undisturbed e e.letGo := by
  unfold letGo
  split
  · rename_i n _
    have hfree : (Ref.closure n).Free (.value .nothing) := rfl
    exact (undisturbed_onChannel _ e).trans (undisturbed_settle hfree _)
  · exact .refl e

theorem undisturbed_closeChannel (e : Engine) : Undisturbed e e.closeChannel := by
  unfold closeChannel
  split
  · exact .refl e
  · exact (undisturbed_onChannel _ e).trans (undisturbed_arrive _ _)

theorem undisturbed_memberOver (n : Nat) (source : Ref) (e : Engine) :
    Undisturbed e (e.memberOver n source) := by
  unfold memberOver
  split
  · exact .refl e
  · have hcounted (groups : Table Nat Group) : Undisturbed e { e with groups } :=
      undisturbed_of_eq rfl rfl rfl (Nat.le_refl _)
    have hends (groups : Table Nat Group) (o : Outcome) :
        Undisturbed e (Engine.settle (.group n) o { e with groups }) := by
      have hfree : (Ref.group n).Free o := trivial
      exact (hcounted groups).trans (undisturbed_settle hfree _)
    simp only
    split
    · exact hcounted _
    · split
      · exact hends _ _
      · exact hends _ _
      · split
        · exact hcounted _
        · split <;> exact hends _ _

/-! ### Runs -/

theorem Minds.imp {run : Run} (h : Minds F' O' e run) (hf : ∀ frames, F' frames → F frames)
    (ho : ∀ o, O' o → O o) : Minds F O e run := by
  obtain ⟨e', o | ⟨p, frames⟩ | frames⟩ := run
  · exact ⟨ho o h.1, h.2⟩
  · exact ⟨hf frames h.1, h.2⟩
  · exact ⟨hf frames h.1, h.2⟩

theorem Minds.after {run : Run} (h : Undisturbed e e') (hr : Minds F O e' run) : Minds F O e run := by
  obtain ⟨e'', o | ⟨p, frames⟩ | frames⟩ := run
  · exact ⟨hr.1, h.trans hr.2⟩
  · exact ⟨hr.1, h.trans hr.2.1, hr.2.2.after h.nextRef⟩
  · exact ⟨hr.1, h.trans hr.2⟩

theorem Minds.andThen {run : Run} {f : Frame} {next : Outcome → Engine → Run} (h : Minds F' O' e run)
    (hn : ∀ o e', O' o → Minds F O e' (next o e')) (hf : ∀ frames, F' frames → F (frames ++ [f])) :
    Minds F O e (Engine.andThen run f next) := by
  obtain ⟨e', o | ⟨p, frames⟩ | frames⟩ := run
  · exact (hn o e' h.1).after h.2
  · exact ⟨hf frames h.1, h.2⟩
  · exact ⟨hf frames h.1, h.2⟩

theorem Minds.unwind {f : Frame} {outer : List Frame} {o : Outcome} (h : Minds F' O' e (resume f o e))
    (hn : ∀ o e', O' o → Minds F O e' (Engine.unwind outer o e'))
    (hf : ∀ frames, F' frames → F (frames ++ outer)) : Minds F O e (Engine.unwind (f :: outer) o e) := by
  rw [Engine.unwind]
  split <;> rename_i hr <;> rw [hr] at h
  · exact (hn _ _ h.1).after h.2
  · exact ⟨hf _ h.1, h.2⟩
  · exact ⟨hf _ h.1, h.2⟩

theorem minds_answer (v : Value) (e : Engine) (h : O (.value v)) : Minds F O e (e.answer v) :=
  ⟨h, .refl e⟩

theorem minds_fail (x : Failure) (e : Engine) (h : O (.failure x)) : Minds F O e (e.fail x) :=
  ⟨h, .refl e⟩

theorem minds_log {level : Level} {message : String} {v : Value} (e : Engine) (h : O (.value v)) :
    Minds F O e ((e.log level message).answer v) :=
  ⟨h, undisturbed_tallies (agrees_log _ _ _).toTallies⟩

theorem minds_sleep (ms : Int) (e : Engine) (h : F []) : Minds F O e (e.sleep ms) := by
  unfold sleep
  split
  · exact ⟨h, .refl e⟩
  · have htimer := agrees_setTimer ms (.release e.nextRef) (e.newPromise .nap).2
    refine ⟨h, ?_, ?_⟩
    · exact (undisturbed_newPromise (fun _ => rfl) e).trans (undisturbed_tallies htimer.toTallies)
    · exact (own_newPromise (fun _ => rfl) rfl).keep rfl htimer.nextRef

/-- Nobody has been cancelled: the run has ended with a value or a failure. -/
def Finished (o : Outcome) : Prop := o ≠ .cancelled

theorem finished_value (v : Value) : Finished (.value v) := nofun

theorem finished_failure (x : Failure) : Finished (.failure x) := nofun

/-- Whoever sends a message that is no request waits at the gate, or is done. -/
theorem minds_pass (purpose : Purpose) (message : Json) (e : Engine)
    (h : ∀ id method limit, purpose ≠ .request id method limit) :
    Minds (· = [.gate purpose message]) Finished e (e.pass purpose message) := by
  unfold pass
  split
  · refine ⟨rfl, (undisturbed_newPromise (fun _ => rfl) e).trans (undisturbed_onChannel _ _), ?_⟩
    exact (own_newPromise (fun _ => rfl) rfl).keep rfl (Nat.le_refl _)
  · have hsent := undisturbed_transmit message e
    simp only
    generalize e.transmit message = sent at hsent
    obtain ⟨x | u, e₁⟩ := sent
    · refine Minds.after hsent ?_
      cases purpose with
      | request id method limit => exact absurd rfl (h id method limit)
      | notify method =>
        simp only [passed]
        split
        · exact minds_log _ (finished_value _)
        · exact minds_fail _ _ (finished_failure _)
      | reply id =>
        simp only [passed]
        split
        · exact minds_log _ (finished_value _)
        · exact minds_fail _ _ (finished_failure _)
    · refine Minds.after hsent ?_
      cases purpose with
      | request id method limit => exact absurd rfl (h id method limit)
      | notify method => exact minds_log _ (finished_value _)
      | reply id => exact minds_answer _ _ (finished_value _)

theorem minds_gateOpened {o : Outcome} (purpose : Purpose) (message : Json) (e : Engine)
    (h : ∀ id method limit, purpose ≠ .request id method limit) (ho : Finished o) :
    Minds (· = [.gate purpose message]) Finished e (gateOpened purpose message o e) := by
  have hpass := minds_pass purpose message e h
  cases o with
  | cancelled => exact absurd rfl ho
  | value v => exact hpass
  | failure x => exact hpass

/-- Frames of a notification that waits at the gate. -/
def Gated (frames : List Frame) : Prop := ∃ method message, frames = [.gate (.notify method) message]

theorem minds_notify (method params : Json) (e : Engine) :
    Minds Gated Finished e (e.notify method params) := by
  unfold notify
  split
  · exact minds_fail _ _ (finished_failure _)
  · split
    · exact minds_log _ (finished_value _)
    · rename_i name _ _
      have hnote : Undisturbed e (e.note (.handed (Message.notification method params))) :=
        undisturbed_of_eq rfl rfl rfl (Nat.le_refl _)
      refine Minds.after hnote ((minds_pass (.notify name) _ _ (by simp)).imp ?_ fun _ => id)
      rintro frames rfl
      exact ⟨name, _, rfl⟩

theorem minds_notifyFor (doc : Nat) (method : String) (params : Json) (e : Engine) :
    Minds Gated Finished e (e.notifyFor doc method params) := by
  refine Minds.after ?_ (minds_notify _ _ _)
  split <;> exact undisturbed_of_eq rfl rfl rfl (Nat.le_refl _)

/-- Sending the changes of a document. -/
theorem minds_flush (doc : Nat) (text : Option (List Char)) (e : Engine) :
    Minds (fun frames => ∃ method message, frames = [.gate (.notify method) message, .changeSent])
      Finished e (e.flush doc text) := by
  have hretext : Undisturbed e (e.retext doc text) := by
    cases text <;> exact undisturbed_of_eq rfl rfl rfl (Nat.le_refl _)
  unfold flush
  refine Minds.after hretext ?_
  generalize e.retext doc text = e
  simp only [withSession]
  cases e.session? doc with
  | none => exact minds_fail _ _ (finished_failure _)
  | some s =>
    simp only
    split
    · exact minds_answer _ _ (finished_value _)
    · split
      · exact minds_fail _ _ (finished_failure _)
      · have hdocument (d : Document) : Undisturbed e (e.onDocument doc fun _ => d) :=
          undisturbed_of_eq rfl rfl rfl (Nat.le_refl _)
        refine Minds.after (hdocument _) ((minds_notifyFor doc _ _ _).andThen (fun o e ho => ?_) ?_)
        · cases o with
          | value v => exact minds_answer _ _ (finished_value _)
          | failure x => exact minds_fail _ _ (finished_failure _)
          | cancelled => exact absurd rfl ho
        · rintro frames ⟨method, message, rfl⟩
          exact ⟨method, message, rfl⟩

/-! ### Delayed work -/

/-- Where the work of a slot stands once it has been begun. -/
inductive Working : List Frame → Prop where
  | sends (method : String) (message : Json) :
      Working [.gate (.notify method) message, .changeSent, .workDone]
  | rehearses (name : String) (fails : Option Failure) : Working [.rehearsed name fails, .workDone]

/-- Work that has been begun and goes on, or has been done. How it came out is not told. -/
abbrev Works : Engine → Run → Prop := Minds Working (· = .value .nothing)

theorem works_workDone {o : Outcome} (h : Finished o) (e : Engine) : Works e (workDone o e) := by
  cases o with
  | value v => exact minds_answer _ e rfl
  | failure x => exact minds_log e rfl
  | cancelled => exact absurd rfl h

theorem minds_rehearsed {o : Outcome} (name : String) (fails : Option Failure) (h : Finished o) (e : Engine) :
    Minds F Finished e (rehearsed name fails o e) := by
  cases o with
  | value v =>
    cases fails with
    | some x => exact minds_fail x e (finished_failure _)
    | none => exact ⟨finished_value _, undisturbed_of_eq rfl rfl rfl (Nat.le_refl _)⟩
  | failure x => exact minds_fail x e h
  | cancelled => exact absurd rfl h

/-- A failure of the work is only recorded. -/
theorem works_doWork (work : Work) (e : Engine) :
    Works e (Engine.andThen (e.doWork work) .workDone workDone) := by
  cases work with
  | flush doc =>
    refine (minds_flush doc none e).andThen (fun o e' ho => works_workDone ho e') ?_
    rintro frames ⟨method, message, rfl⟩
    exact .sends method message
  | rehearsal name takes fails =>
    have hstart : Undisturbed e { e with rehearsals := e.rehearsals ++ [(name, "start", e.now)] } :=
      undisturbed_of_eq rfl rfl rfl (Nat.le_refl _)
    have hwork : Minds (· = [.rehearsed name fails]) Finished e (e.doWork (.rehearsal name takes fails)) := by
      simp only [doWork]
      refine Minds.after hstart ?_
      split
      · exact minds_rehearsed name fails (finished_value _) _
      · refine (minds_sleep (F := (· = [])) (O := Finished) takes _ rfl).andThen
          (fun o e' ho => minds_rehearsed name fails ho e') ?_
        rintro frames rfl
        rfl
    refine hwork.andThen (fun o e' ho => works_workDone ho e') ?_
    rintro frames rfl
    exact .rehearses name fails

/-- Work that goes on goes on so, unless it is cancelled. -/
theorem works_unwind {st : List Frame} {o : Outcome} (h : Working st) (ho : Finished o) (e : Engine) :
    Works e (Engine.unwind st o e) := by
  cases h with
  | sends method message =>
    refine (minds_gateOpened (.notify method) message e (by simp) ho).unwind (fun o e' ho => ?_) ?_
    · rw [unwind_pair]
      cases o with
      | value v => exact works_workDone (finished_value (.flag true)) e'
      | failure x => exact works_workDone ho e'
      | cancelled => exact absurd rfl ho
    · rintro frames rfl
      exact .sends method message
  | rehearses name fails =>
    rw [unwind_pair]
    exact (minds_rehearsed (F := fun _ => False) name fails ho e).andThen
      (fun o e' ho => works_workDone ho e') (fun _ h => h.elim)

/-- Work that is cancelled ends so. -/
theorem unwind_cancelled {st : List Frame} (h : Working st) (e : Engine) :
    Engine.unwind st .cancelled e = (e, .done .cancelled) := by
  cases h <;> rfl

end LanguageClient.Engine
