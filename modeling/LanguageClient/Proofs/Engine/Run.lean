import LanguageClient.Engine.Setup
import LanguageClient.Proofs.Engine.Features
import LanguageClient.Proofs.Engine.Tasks

/-!
Whole runs. A job lets one task go on: the task's frames become the stack, the run makes its steps,
and what is left of the stack goes back to the task (`Rests`). Between two jobs the outside may do
anything that it can do at all (`Action`).

    task's frames ──pick──▶ stack ──steps──▶ stack' ──rests──▶ task's frames
-/

namespace LanguageClient.Engine

variable {c : Config} {st : List Frame} {e e' : Engine}

/-! ### A task's run -/

theorem leads_perform (op : Operation) : Leads (.begin op :: st, e) st (perform op e) := by
  cases op with
  | handshake => exact leads_handshake
  | read => exact leads_read
  | close => exact leads_close
  | disconnect => exact leads_disconnect.pop rfl
  | reply id => exact leads_reply id
  | waitReady => exact leads_waitReady.pop rfl
  | request method params limit =>
    exact leads_request method params limit (.single (.pop rfl)) fun _ _ => .told method params limit
  | notify method params => exact leads_notify method params
  | debounced slot delay work => exact leads_debounced slot delay work
  | openDocument doc text => exact leads_openDocument doc text
  | flush doc text => exact (leads_flush text (.kept _)).pop rfl
  | flushPending doc => exact (leads_flushPending doc).pop rfl
  | drain doc => exact (leads_drain doc).pop rfl
  | processDiagnostics doc params => exact leads_processDiagnostics doc params
  | present doc diagnostics source fallback superseding =>
    exact leads_present rfl diagnostics source fallback superseding
  | fetchActions doc source diagnostic => exact (leads_fetchActions doc source diagnostic).pop rfl
  | codeActions doc range codes => exact (leads_codeActions doc range codes).pop rfl
  | hover doc pos => exact (leads_hover doc pos).pop rfl
  | completion doc pos kind character =>
    exact (leads_completion doc pos kind character).pop rfl
  | completeAt doc offset explicit => exact (leads_completeAt doc offset explicit).pop rfl
  | completionInfo completion resolvable => exact leads_completionInfo completion resolvable
  | definition doc pos => exact (leads_definition doc pos).pop rfl
  | prepareRename doc pos => exact (leads_prepareRename doc pos).pop rfl
  | rename doc pos newName current => exact (leads_rename doc pos newName current).pop rfl
  | requestRename doc pos newName => exact (leads_requestRename doc pos newName).pop rfl
  | signatureHelp doc pos character => exact (leads_signatureHelp doc pos character).pop rfl
  | showSignature doc pos character => exact (leads_showSignature doc pos character).pop rfl

/-- Going on at any frame takes the frame off the stack. -/
theorem leads_resume (f : Frame) (o : Outcome) : Leads (f :: st, e) st (resume f o e) := by
  cases f with
  | «begin» op =>
    cases o with
    | cancelled => exact (leads_finish _).pop rfl
    | value v => exact leads_perform op
    | failure x => exact leads_perform op
  | gate purpose message => exact leads_gateOpened purpose message o
  | requestAnswered id method limit waiter timer => exact leads_requestAnswered o rfl rfl
  | requestExpired id method limit => exact leads_requestExpired o rfl
  | requestAborted id => exact leads_endRequest rfl .cancelled
  | handshakeAwaited =>
    exact leads_handshakeAwaited o ((leads_finish _).pop rfl) ((leads_finish _).pop rfl)
  | handshakeAnswered => exact leads_handshakeAnswered o
  | handshakeAnnounced result => exact leads_handshakeAnnounced result o
  | received => exact leads_received o
  | lingered => exact (leads_lingered o).pop rfl
  | hungUp => exact leads_hungUp o
  | readerJoined => exact leads_readerJoined o
  | delayOver slot work => exact leads_delayOver slot work o
  | workDone => exact (leads_workDone o).pop rfl
  | rehearsed name fails => exact (leads_rehearsed name fails o).pop rfl
  | readyToOpen doc =>
    exact leads_handshakeAwaited o (leads_readyToOpen (.inr rfl)) (leads_readyToOpen (.inl rfl))
  | openSent doc sent => exact leads_openSent doc sent o
  | changeSent => exact (leads_changeSent o).pop rfl
  | drained doc => exact (leads_drained doc o).pop rfl
  | actionsGathered doc diagnostics fetches fallback superseding =>
    exact leads_actionsGathered doc diagnostics fetches fallback superseding o
  | actionsFetched diagnostic => exact (leads_actionsFetched diagnostic o).pop rfl
  | preparedActions doc entry => exact (leads_givePrepared doc entry o).pop rfl
  | hoverFlushed doc generation pos => exact leads_hoverFlushed doc generation pos o
  | hoverAnswered doc generation pos => exact leads_hoverAnswered doc generation pos o
  | completionFlushed doc generation pos kind character =>
    exact leads_completionFlushed doc generation pos kind character o
  | completionAnswered doc generation pos => exact leads_completionAnswered doc generation pos o
  | completionResolved c => exact (leads_completionResolved c o).pop rfl
  | definitionAnswered doc => exact (leads_definitionAnswered doc o).pop rfl
  | renamePrepared doc pos b => exact (leads_renamePrepared doc pos b o).pop rfl
  | renameAnswered doc => exact (leads_renameAnswered doc o).pop rfl
  | renameTargeted doc pos newName => exact (leads_renameTargeted doc pos newName o).pop rfl
  | signatureFlushed doc generation pos character =>
    exact leads_signatureFlushed doc generation pos character o
  | signatureAnswered doc generation pos => exact leads_signatureAnswered doc generation pos o
  | signatureShown doc => exact (leads_signatureShown doc o).pop rfl

/-- The run of a task from all its frames. -/
theorem leads_unwind : ∀ (frames : List Frame) (o : Outcome) (e : Engine),
    Leads (frames, e) [] (unwind frames o e)
  | [], o, e => leads_finish o
  | f :: outer, o, e => by
      have h : Leads (f :: outer, e) outer (resume f o e) := leads_resume f o
      unfold unwind
      split
      · rename_i e' o' he
        rw [he] at h
        exact (leads_unwind outer o' e').of_path h
      · rename_i e' p frames he
        rw [he] at h
        simpa only [Leads, List.append_nil] using h
      · rename_i e' frames he
        rw [he] at h
        simpa only [Leads, List.append_nil] using h

theorem unwind_singleton (f : Frame) (o : Outcome) (e : Engine) : unwind [f] o e = resume f o e := by
  unfold unwind
  split
  · rename_i h
    rw [h]
    rfl
  · rename_i h
    rw [h, List.append_nil]
  · rename_i h
    rw [h, List.append_nil]

theorem unwind_pair (f g : Frame) (o : Outcome) (e : Engine) :
    unwind [f, g] o e = andThen (resume f o e) g (resume g) := by
  unfold unwind
  cases hr : resume f o e with
  | mk e' progress =>
    cases progress with
    | done o' => exact unwind_singleton g o' e'
    | wait p frames => rfl
    | pause frames => rfl

/-- Where a run has come to. -/
def reached : Run → Config
  | (e, .done _) => ([], e)
  | (e, .wait _ frames) => (frames, e)
  | (e, .pause frames) => (frames, e)

theorem path_reached {run : Run} (h : Leads c [] run) : Path c (reached run) := by
  obtain ⟨e, _ | _ | _⟩ := run
  · exact h
  · simpa only [List.append_nil, reached] using h.1
  · simpa only [Leads, List.append_nil, reached] using h

/-- How a run comes to rest: the task ends, or keeps the frames that are left. A task that was asked
    to stop while it ran passes that on to what it waits for. -/
inductive Rests (n : Nat) : Run → Engine → Prop where
  | ended {e : Engine} (o : Outcome) :
      Rests n (e, .done o) ({ e with tasks := e.tasks.erase n }.settle (.task n) o)
  | waits {e e₁ e₂ : Engine} {p : Ref} {frames : List Frame} :
      Agrees (e.keep n frames (some p)) e₁ → Cancels e₁ e₂ →
      ((e.tasks.get? n).map (·.cancelRequested) ≠ some true → e₂ = e₁) →
      Rests n (e, .wait p frames) e₂
  | pauses {e e₁ : Engine} {frames : List Frame} : Tallies (e.keep n frames none) e₁ →
      Rests n (e, .pause frames) e₁

theorem rests_park (n : Nat) (p : Ref) (frames : List Frame) (e : Engine) :
    Rests n (e, .wait p frames) (e.park n p frames) := by
  have ha := agrees_listen p (.wake n) (e.keep n frames (some p)) (by simp)
  unfold park
  simp only
  split
  · rename_i hstop
    have hflag : (e.tasks.get? n).map (·.cancelRequested) = some true := by
      cases h : (e.tasks.get? n).map (·.cancelRequested) with
      | none => simp [h] at hstop
      | some b => simpa [h] using hstop
    have hc := cancels_cancel p ((e.keep n frames (some p)).listen p (.wake n))
    split
    · rename_i h
      rw [h] at hc
      exact .waits ha (hc.trans (cancels_stop n false _)) (absurd hflag)
    · rename_i h
      rw [h] at hc
      exact .waits ha hc (absurd hflag)
  · exact .waits ha (.refl _) fun _ => rfl

/-- A task that was asked to stop goes on as cancelled. -/
theorem rests_runTask (n : Nat) (t : Task) (o : Outcome) (e : Engine) :
    Rests n (unwind t.frames (if t.cancelRequested then .cancelled else o) (e.pick n))
      (e.runTask n t o) := by
  unfold runTask pick
  simp only
  generalize unwind _ _ _ = run
  obtain ⟨e', o | ⟨p, frames⟩ | frames⟩ := run
  · exact .ended o
  · exact rests_park n p frames e'
  · exact .pauses (tallies_enqueue (by simp) _)

theorem runTask_done {n : Nat} {t : Task} {o o' : Outcome} {e e' : Engine}
    (h : unwind t.frames (if t.cancelRequested then .cancelled else o) (e.pick n) = (e', .done o')) :
    e.runTask n t o = { e' with tasks := e'.tasks.erase n }.settle (.task n) o' := by
  unfold pick at h
  simp only [runTask, h]

theorem runTask_wait {n : Nat} {t : Task} {o : Outcome} {e e' : Engine} {p : Ref} {frames : List Frame}
    (h : unwind t.frames (if t.cancelRequested then .cancelled else o) (e.pick n) =
      (e', .wait p frames)) :
    e.runTask n t o = e'.park n p frames := by
  unfold pick at h
  simp only [runTask, h]

theorem runTask_pause {n : Nat} {t : Task} {o : Outcome} {e e' : Engine} {frames : List Frame}
    (h : unwind t.frames (if t.cancelRequested then .cancelled else o) (e.pick n) = (e', .pause frames)) :
    e.runTask n t o = (e'.keep n frames none).enqueue (.step n) := by
  unfold pick at h
  simp only [runTask, h]

/-! ### Jobs -/

/-- What a task goes on with that waits for a promise, or for its turn. -/
def awaited (source : Option Ref) (e : Engine) : Outcome :=
  (source.bind e.outcome?).getD (.value .nothing)

/-- A job that lets a task go on, unless there is nothing to do. -/
theorem resumeTask_cases (n : Nat) (source : Option Ref) (e : Engine) :
    e.resumeTask n source = e ∨ ∃ t, e.tasks.get? n = some t ∧
      e.resumeTask n source = e.runTask n t (awaited t.waiting e) := by
  unfold resumeTask
  split
  · exact .inl rfl
  · rename_i t ht
    split
    · rename_i hw
      exact .inr ⟨t, ht, by rw [awaited, hw]⟩
    · exact .inl rfl

/-- A job is taken off the queue by which no group was to be told. -/
theorem tallies_pop {job : Job} {rest : List Job} (h : e.ready = job :: rest) (hj : ∀ k, job.tells k = false) :
    Tallies e { e with ready := rest } :=
  tallies_of_eq (Nat.le_refl _) (fun _ => rfl) rfl rfl List.prefix_rfl rfl (mutes_popped h hj)

/-- A group counts those of its members of whose end it is told. It does not count the last of them before it has
    ended. -/
theorem agrees_counted {n : Nat} {source : Ref} {groups : Table Nat Group} {rest : List Job}
    (h : e.ready = .call (.memberOver n) source :: rest)
    (hgroups : ∀ k, groups.get? k = (e.groups.get? k).map fun group =>
      if k = n then { group with finished := group.finished + 1 } else group)
    (hlast : ∀ group, e.groups.get? n = some group → e.standing (.group n) = some none →
      group.finished + 1 < group.members.length) :
    Agrees e { e with ready := rest, groups } := by
  have hcounted {k : Nat} {group group' : Group} (hgroup : e.groups.get? k = some group)
      (hgroup' : groups.get? k = some group') :
      group' = if k = n then { group with finished := group.finished + 1 } else group := by
    rw [hgroups k, hgroup, Option.map_some] at hgroup'
    exact (Option.some.inj hgroup').symm
  refine ⟨⟨rfl, rfl, rfl, rfl, rfl, rfl, rfl, rfl, List.prefix_rfl, Nat.le_refl _, fun _ => rfl,
    fun k _ group hgroup => ?_, fun k r hl => .inl (hl.imp id fun hmem => h ▸ List.mem_cons_of_mem _ hmem),
    fun _ _ => id, fun _ _ hl => .inl (h ▸ List.mem_cons_of_mem _ hl), fun k _ group group' hgroup hgroup' => ?_,
    fun k _ group group' hgroup hgroup' => ?_, fun k _ group group' hgroup hgroup' hopen hlt => ?_⟩,
    by rw [turns, turns, h]; rfl, fun m k hw => hw.imp id fun hmem => ?_⟩
  · refine ⟨_, by rw [hgroups k, hgroup, Option.map_some], ?_⟩
    split <;> exact ⟨rfl, rfl⟩
  · rw [hcounted hgroup hgroup', Engine.pledges, Engine.pledges, h, List.countP_cons]
    by_cases hk : k = n
    · simp only [hk, Job.tells, beq_self_eq_true, if_true]
      omega
    · rw [if_neg hk]
      exact Nat.add_le_add_left (Nat.add_le_add_left (Nat.le_add_right _ _) _) _
  · rw [hcounted hgroup hgroup', h, List.countP_cons]
    by_cases hk : k = n
    · simp only [hk, Job.tells, beq_self_eq_true, if_true]
      omega
    · have hother : (Job.call (.memberOver n) source).tells k = false := by
        simpa [Job.tells] using Ne.symm hk
      simp only [if_neg hk, hother, Bool.false_eq_true, if_false, Nat.add_zero, Nat.le_refl]
  · rw [hcounted hgroup hgroup']
    split
    · rename_i hk
      subst hk
      exact hlast group hgroup hopen
    · exact hlt
  · rw [h] at hmem
    exact (List.mem_cons.mp hmem).resolve_left (by simp)

theorem agrees_counts {n : Nat} {source : Ref} {group : Group} {rest : List Job}
    (h : e.ready = .call (.memberOver n) source :: rest) (hgroup : e.groups.get? n = some group)
    (hlast : e.standing (.group n) = some none → group.finished + 1 < group.members.length) :
    Agrees e { e with
      ready := rest
      groups := e.groups.put n { group with finished := group.finished + 1 } } := by
  refine agrees_counted h (fun k => ?_) fun group' hgroup' => ?_
  · rw [Table.get?_put]
    split
    · rename_i hk
      rw [hk, hgroup, Option.map_some]
    · simp
  · obtain rfl : group = group' := Option.some.inj (hgroup.symm.trans hgroup')
    exact hlast

/-- Whether something is settled first or a job is taken off the queue makes no difference. -/
theorem settle_popped {job : Job} {rest : List Job} (h : e.ready = job :: rest) (r : Ref) (o : Outcome)
    (groups : Table Nat Group) : ∃ rest', (e.settle r o).ready = job :: rest' ∧
      Engine.settle r o { e with ready := rest, groups } = { e.settle r o with ready := rest', groups } := by
  unfold settle
  split
  · rename_i listeners hp
    refine ⟨rest ++ listeners.map (Job.call · r), by rw [h]; rfl, ?_⟩
    simp only [hp]
  · exact ⟨rest, h, by simp only⟩

/-- A group is told that one of its tasks has ended, which may be its own end. -/
theorem path_memberOver {n : Nat} {source : Ref} {rest : List Job}
    (h : e.ready = .call (.memberOver n) source :: rest) :
    Path (st, e) (st, { e with ready := rest }.memberOver n source) := by
  have hlistens : e.Listens n source := .inr (h ▸ List.mem_cons_self)
  unfold memberOver
  split
  · rename_i hnone
    have hnone : e.groups.get? n = none := hnone
    have ha : Agrees e { e with ready := rest, groups := e.groups } := by
      refine agrees_counted h (fun k => ?_) (by simp [hnone])
      by_cases hk : k = n
      · rw [hk, hnone]
        rfl
      · simp [hk]
    exact .single (.agree ha)
  · rename_i group hgroup
    have hgroup : e.groups.get? n = some group := hgroup
    -- the group ends, and then counts the last of its tasks
    have hends {o : Outcome} (ho : GroupEnds n o e) : Path (st, e) (st, Engine.settle (.group n) o { e with
        ready := rest
        groups := e.groups.put n { group with finished := group.finished + 1 } }) := by
      obtain ⟨rest', hready, heq⟩ := settle_popped h (.group n) o
        (e.groups.put n { group with finished := group.finished + 1 })
      rw [heq]
      have hended : (e.settle (.group n) o).standing (.group n) ≠ some none := fun hopen => by
        rcases standing_settle (.group n) (.group n) o e with hsame | ⟨_, _, hsettled⟩
        · have hsettled := standing_settle_self (hsame.symm.trans hopen) o
          rw [hopen] at hsettled
          cases hsettled
        · rw [hopen] at hsettled
          cases hsettled
      have ha := agrees_counts hready ((settle_groups ..).symm ▸ hgroup) fun hopen => absurd hopen hended
      rw [settle_groups] at ha
      have hsettles : Step (st, e) (st, e.settle (.group n) o) :=
        .settle (.refl e) trivial (fun k hk => Ref.group.inj hk ▸ ho) fun _ h => by cases h
      exact .head hsettles (.single (.agree ha))
    simp only
    split
    · rename_i hsettled
      refine .single (.agree (agrees_counts h hgroup fun hopen => ?_))
      have hnone : e.outcome? (.group n) = none := by rw [outcome?_eq_join, hopen]; rfl
      have hsettled : (e.outcome? (.group n)).isSome = true := hsettled
      rw [hnone] at hsettled
      cases hsettled
    · split
      · rename_i ho
        exact hends (.inr (.inr ⟨source, hlistens, ho, by simp⟩))
      · rename_i ho
        exact hends (.inr (.inr ⟨source, hlistens, ho, by simp⟩))
      · split
        · rename_i hmore
          exact .single (.agree (agrees_counts h hgroup fun _ => hmore))
        · rename_i hlast
          split
          · rename_i hcancel
            exact hends (.inr (.inl ⟨group, hgroup, hcancel⟩))
          · exact hends (.inl ⟨_, group, source, rfl, hgroup, Nat.not_lt.mp hlast, h ▸ List.mem_cons_self⟩)

theorem agrees_backgroundOver (doc : Nat) (source : Ref) (e : Engine) :
    Agrees e (e.backgroundOver doc source) := by
  have ha : Agrees e (e.onSession doc fun s =>
      { s with background := s.background.filter (· ≠ source) }) := by
    refine agrees_onSession ?_ e fun _ => rfl
    intro s
    rfl
  unfold backgroundOver
  simp only
  split
  · exact ha.trans (agrees_log _ _ _)
  · exact ha

theorem agrees_handshakeOver (source : Ref) (e : Engine) : Agrees e (e.handshakeOver source) := by
  unfold handshakeOver
  split
  · exact agrees_log _ _ _
  · exact .refl e

/-- The first job is taken off the queue and run: it lets one task go on, or does what any task could
    do. -/
theorem runJob_cases {job : Job} {rest : List Job} (h : e.ready = job :: rest) :
    ∃ e₁, Tallies e e₁ ∧ e₁.sessions = e.sessions ∧ (Path ([], e₁) ([], { e with ready := rest }.runJob job) ∨
      ∃ n t, e₁.tasks.get? n = some t ∧
        { e with ready := rest }.runJob job = e₁.runTask n t (awaited t.waiting e₁)) := by
  have hresume (hj : ∀ k, job.tells k = false) (n : Nat) (source : Option Ref) :
      ∃ e₁, Tallies e e₁ ∧ e₁.sessions = e.sessions ∧
        (Path ([], e₁) ([], { e with ready := rest }.resumeTask n source) ∨ ∃ n' t, e₁.tasks.get? n' = some t ∧
        { e with ready := rest }.resumeTask n source = e₁.runTask n' t (awaited t.waiting e₁)) := by
    refine ⟨_, tallies_pop h hj, rfl, ?_⟩
    rcases resumeTask_cases n source { e with ready := rest } with h | ⟨t, ht, h⟩
    · rw [h]
      exact .inl .refl
    · exact .inr ⟨n, t, ht, h⟩
  have hpath (hj : ∀ k, job.tells k = false) {e₂ : Engine} (hp : Path ([], { e with ready := rest }) ([], e₂)) :
      ∃ e₁, Tallies e e₁ ∧ e₁.sessions = e.sessions ∧ (Path ([], e₁) ([], e₂) ∨ ∃ n t, e₁.tasks.get? n = some t ∧
        e₂ = e₁.runTask n t (awaited t.waiting e₁)) :=
    ⟨_, tallies_pop h hj, rfl, .inl hp⟩
  have hnap (n : Nat) : (Ref.nap n).Free (.value .nothing) := rfl
  cases job with
  | step n => exact hresume (fun _ => rfl) n none
  | call l source =>
    cases l with
    | wake n => exact hresume (fun _ => rfl) n (some source)
    | release n => exact hpath (fun _ => rfl) (.single (.settle_free (hnap n) (by simp) (by simp)))
    | handshakeOver => exact hpath (fun _ => rfl) (.single (.agree (agrees_handshakeOver source _)))
    | backgroundOver doc => exact hpath (fun _ => rfl) (.single (.agree (agrees_backgroundOver doc source _)))
    | memberOver n => exact ⟨e, .refl e, rfl, .inl (path_memberOver h)⟩
  | ring alarm =>
    cases alarm with
    | release n => exact hpath (fun _ => rfl) (.single (.settle_free (hnap n) (by simp) (by simp)))
    | deliver frame => exact hpath (fun _ => rfl) (path_arrive _)

/-! ### The outside -/

/-- What the outside can do between two jobs. A connection may fail to send in any way, but it does
    not make up the server's refusal of a request. -/
inductive Action where
  /-- The first job of the queue is run. -/
  | run
  /-- Time passes, and the timers ring that are due. -/
  | ring (time : Int)
  | start
  | begin (op : Operation)
  | cancel (r : Ref)
  | arrive (x : Inbound)
  | block
  | unblock
  /-- From now on messages fail to be sent in that way, or none does. -/
  | failSends (f : Option { f : Failure // f.isRefusal = false })
  | linger
  | letGo
  | closeChannel
  | addSession (s : Session)
  | attachSink (name : String) (sink : Sink)
  | detach (x : Subscriber)
  | scheduleChange (doc : Nat) (text : List Char) (changes : Option (List Change))
  | viewChanged (doc : Nat) (text : List Char) (changes : Option (List Change))
  | editView (doc : Nat) (changes : List SentChange)
  | closeSession (doc : Nat)
  | tell (doc : Nat) (method params : Json)

/-- Runs the first job of the queue. -/
def runNext (e : Engine) : Engine :=
  match e.ready with
  | [] => e
  | job :: rest => { e with ready := rest }.runJob job

def act : Action → Engine → Engine
  | .run, e => e.runNext
  | .ring time, e => e.ringAt time
  | .start, e => e.start.2
  | .begin op, e => (e.spawn op).2
  | .cancel r, e => (e.cancel r).2
  | .arrive x, e => e.arrive x
  | .block, e => e.block
  | .unblock, e => e.unblock
  | .failSends f, e => e.onChannel fun c => { c with sendFailure := f.map (·.val) }
  | .linger, e => e.linger
  | .letGo, e => e.letGo
  | .closeChannel, e => e.closeChannel
  | .addSession s, e => e.addSession s
  | .attachSink name sink, e => e.attachSink name sink
  | .detach x, e => e.detach x
  | .scheduleChange doc text changes, e => (e.scheduleChange doc text changes).2
  | .viewChanged doc text changes, e => (e.viewChanged doc text changes).2
  | .editView doc changes, e => (e.editView doc changes).2
  | .closeSession doc, e => e.closeSession doc
  | .tell doc method params, e => e.tellDocument doc method params

/-- The state after some actions. -/
def after (actions : List Action) (e : Engine) : Engine := actions.foldl (fun e a => e.act a) e

theorem after_append (e : Engine) (actions more : List Action) :
    e.after (actions ++ more) = (e.after actions).after more := by
  simp [after]

/-- Some jobs are run. -/
def runs (n : Nat) : List Action := List.replicate n .run

/-- A client with the limits that it has unless the settings say otherwise. -/
def usual : ClientOptions where
  timeout := .int ClientOptions.defaultTimeout
  handshakeFactor := ClientOptions.defaultHandshakeFactor
  autoClose := .bool false

/-- Actions that do nothing that a task could not do. -/
def Action.inner : Action → Bool
  | .ring _ | .start | .arrive _ | .block | .unblock | .linger | .letGo | .closeChannel | .attachSink .. | .detach _
  | .editView .. | .tell .. => true
  | _ => false

theorem path_unblock : Path (st, e) (st, e.unblock) := by
  have ha : Agrees e (e.onChannel fun c => { c with blocked := false, gateWaiters := [] }) :=
    agrees_onChannel rfl rfl List.prefix_rfl
  exact .head (.agree ha) path_openGates

theorem agrees_ringAt (time : Int) (e : Engine) : Agrees e (e.ringAt time) := by
  have hrings (due : List Timer) :
      (due.map (Job.ring ·.alarm)).filterMap Job.task? = [] := by
    simp [List.filterMap_map, Function.comp_def, Job.task?]
  refine ⟨tallies_of_eq (Nat.le_refl _) (fun _ => rfl) rfl rfl List.prefix_rfl rfl
    (mutes_ready rfl rfl (fun job hmem k => ?_) fun l r hmem => ?_), ?_,
    fun _ _ hw => hw.imp id (List.mem_append_left _)⟩
  · obtain ⟨_, _, rfl⟩ := List.mem_map.mp hmem
    rfl
  · obtain ⟨_, _, heq⟩ := List.mem_map.mp hmem
    cases heq
  · simp only [turns, ringAt, List.filterMap_append, hrings, List.append_nil]

theorem path_attachSink (name : String) (sink : Sink) : Path (st, e) (st, e.attachSink name sink) := by
  have ha (sinks : Table String Sink) : Agrees e { e with sinks } := agrees_of_same (Nat.le_refl _) rfl
  refine .trans ?_ (.single (.register (.attach (.sink name))))
  split
  · exact .refl
  · exact .single (.agree (ha _))

theorem path_letGo : Path (st, e) (st, e.letGo) := by
  unfold letGo
  split
  · rename_i n _
    have hfree : (Ref.closure n).Free (.value .nothing) := rfl
    exact .head (.agree (agrees_onChannel rfl rfl List.prefix_rfl)) (.single (.settle_free hfree (by simp) (by simp)))
  · exact .refl

theorem path_detach (x : Subscriber) : Path (st, e) (st, e.detach x) := .single (.register (.detach x))

theorem path_act {a : Action} (h : a.inner = true) : Path ([], e) ([], e.act a) := by
  cases a with
  | ring time => exact .single (.agree (agrees_ringAt time e))
  | start => exact path_start
  | arrive x => exact path_arrive x
  | block =>
    have ha : Agrees e e.block := agrees_onChannel rfl rfl List.prefix_rfl
    exact .single (.agree ha)
  | unblock => exact path_unblock
  | linger =>
    have ha : Agrees e e.linger := agrees_onChannel rfl rfl List.prefix_rfl
    exact .single (.agree ha)
  | letGo => exact path_letGo
  | closeChannel => exact path_closeChannel
  | attachSink name sink => exact path_attachSink name sink
  | detach x => exact path_detach x
  | editView doc changes => exact path_editView doc changes
  | tell doc method params => exact path_tellDocument doc method params
  | run => cases h
  | «begin» op => cases h
  | cancel r => cases h
  | failSends f => cases h
  | addSession s => cases h
  | scheduleChange doc text changes => cases h
  | viewChanged doc text changes => cases h
  | closeSession doc => cases h

/-- The first job is taken off the queue and run, in documents that are as they were. -/
theorem runNext_same (e : Engine) : ∃ e₁, Tallies e e₁ ∧ e₁.sessions = e.sessions ∧
    (Path ([], e₁) ([], e.runNext) ∨
      ∃ n t, e₁.tasks.get? n = some t ∧ e.runNext = e₁.runTask n t (awaited t.waiting e₁)) := by
  unfold runNext
  split
  · exact ⟨e, Tallies.refl e, rfl, .inl .refl⟩
  · rename_i h
    exact runJob_cases h

theorem runNext_cases (e : Engine) : ∃ e₁, Tallies e e₁ ∧ (Path ([], e₁) ([], e.runNext) ∨
    ∃ n t, e₁.tasks.get? n = some t ∧ e.runNext = e₁.runTask n t (awaited t.waiting e₁)) := by
  obtain ⟨e₁, ht, _, hrun⟩ := runNext_same e
  exact ⟨e₁, ht, hrun⟩

/-! ### What lasts -/

theorem Rests.lasts {m : Nat} {run : Run} (h : Rests m run e) : Lasts (reached run).2 e := by
  have hkeep (e : Engine) (frames : List Frame) (waiting : Option Ref) :
      Lasts e (e.keep m frames waiting) := .of_eq (Nat.le_refl _) rfl rfl
  cases h with
  | @ended e' o =>
    have herase : Lasts e' { e' with tasks := e'.tasks.erase m } := .of_eq (Nat.le_refl _) rfl rfl
    exact herase.trans (lasts_settle _ _ _)
  | waits ha hc => exact ((hkeep _ _ _).trans (.of_tallies ha.toTallies)).trans (.of_cancels hc)
  | pauses ha => exact (hkeep _ _ _).trans (.of_tallies ha)

theorem Rests.history {m : Nat} {run : Run} (h : Rests m run e) :
    e.history = (reached run).2.history := by
  cases h with
  | ended o => exact settle_history _ _ _
  | waits ha hc => exact hc.history.trans ha.history
  | pauses ha => exact ha.history

theorem Rests.sent {m : Nat} {run : Run} (h : Rests m run e) :
    e.channel.sent = (reached run).2.channel.sent := by
  cases h with
  | ended o => rw [settle_channel]; rfl
  | waits ha hc => exact (congrArg Channel.sent hc.channel).trans ha.sent
  | pauses ha => exact ha.sent

theorem lasts_runTask (n : Nat) (t : Task) (o : Outcome) (e : Engine) :
    Lasts e (e.runTask n t o) := by
  have hpick : Lasts e (e.pick n) := .of_eq (Nat.le_refl _) rfl rfl
  have hpath := path_reached (leads_unwind t.frames (if t.cancelRequested then .cancelled else o)
    (e.pick n))
  exact (hpick.trans hpath.lasts).trans (rests_runTask n t o e).lasts

theorem lasts_runNext (e : Engine) : Lasts e e.runNext := by
  obtain ⟨e₁, ha, hp | ⟨n, t, _, heq⟩⟩ := runNext_cases e
  · exact (Lasts.of_tallies ha).trans hp.lasts
  · rw [heq]
    exact (Lasts.of_tallies ha).trans (lasts_runTask n t _ e₁)

theorem cancels_all : ∀ (rs : List Ref) (e : Engine),
    Cancels e (rs.foldl (fun e r => (e.cancel r).2) e)
  | [], e => .refl e
  | r :: rs, e => (cancels_cancel r e).trans (cancels_all rs _)

/-- Closing a document marks it, cancels what waits for it, and detaches it, unless it was closed
    before. -/
theorem closeSession_cases (doc : Nat) (e : Engine) :
    (e.closeSession doc = e ∧ ∀ s, e.session? doc = some s → s.document.closed = true) ∨
    ∃ s e₁, e.session? doc = some s ∧ s.document.closed = false ∧
      Cancels ((e.onDocument doc fun d => { d with closed := true }).cancelSlot doc).2 e₁ ∧
      e.closeSession doc = e₁.detach (.document doc) := by
  unfold closeSession
  split
  · rename_i hnone
    exact .inl ⟨rfl, fun s hs => by rw [hnone] at hs; cases hs⟩
  · rename_i s hs
    split
    · rename_i hclosed
      refine .inl ⟨rfl, fun s' hs' => ?_⟩
      obtain rfl : s = s' := Option.some.inj (hs.symm.trans hs')
      exact hclosed
    · rename_i hopen
      exact .inr ⟨s, _, hs, by simpa using hopen, cancels_all s.background _, rfl⟩

theorem lasts_closeSession (doc : Nat) (e : Engine) : Lasts e (e.closeSession doc) := by
  rcases closeSession_cases doc e with ⟨h, _⟩ | ⟨s, e₁, _, _, hc, h⟩
  · rw [h]
    exact .refl e
  · rw [h]
    exact (((lasts_onDocument doc _ e).trans (lasts_cancelSlot doc _)).trans (.of_cancels hc)).trans
      (Path.lasts (@path_detach [] e₁ (.document doc)))

theorem lasts_inner {a : Action} (h : a.inner = true) (e : Engine) : Lasts e (e.act a) :=
  Path.lasts (@path_act e a h)

theorem lasts_act (a : Action) (e : Engine) : Lasts e (e.act a) := by
  cases a with
  | run => exact lasts_runNext e
  | «begin» op => exact lasts_spawn op e
  | cancel r => exact .of_cancels (cancels_cancel r e)
  | failSends f => exact .of_eq (Nat.le_refl _) rfl rfl
  | addSession s => exact .of_client (Nat.le_refl _) rfl rfl ⟨[_], rfl⟩
  | scheduleChange doc text changes => exact lasts_scheduleChange doc text changes e
  | viewChanged doc text changes =>
    exact (lasts_scheduleChange doc text changes e).trans
      (Path.lasts (@path_viewChanged [] e doc text changes))
  | closeSession doc => exact lasts_closeSession doc e
  | _ => exact lasts_inner rfl e

/-- Whatever happens, nothing that has happened is undone. -/
theorem lasts_after : ∀ (actions : List Action) (e : Engine), Lasts e (e.after actions)
  | [], e => .refl e
  | a :: rest, e => (lasts_act a e).trans (lasts_after rest _)

/-! ### Actions and tasks -/

/-- Actions by which tasks go on, or are begun as the outside likes. -/
def Action.drives : Action → Bool
  | .run | .begin _ => true
  | _ => false

theorem grows_closing {doc : Nat}
    (h : Cancels ((e.onDocument doc fun d => { d with closed := true }).cancelSlot doc).2 e') :
    Grows e e' := by
  have hd : Grows e (e.onDocument doc fun d => { d with closed := true }) :=
    .of_tasks rfl (Nat.le_refl _) rfl
  exact (hd.trans (grows_cancelSlot doc _)).trans (.of_cancels h)

theorem Numbered.grows_closeSession (hn : Numbered e) (doc : Nat) : Grows e (e.closeSession doc) := by
  rcases closeSession_cases doc e with ⟨h, _⟩ | ⟨s, e₁, _, _, hc, h⟩
  · rw [h]
    exact .refl e
  · have hg := grows_closing hc
    rw [h]
    exact hg.trans (Path.grows (@path_detach [] e₁ (.document doc)) (hn.grows hg))

/-- All other actions leave the tasks where they stand. -/
theorem Numbered.grows_act {a : Action} (hn : Numbered e) (h : a.drives = false) :
    Grows e (e.act a) := by
  have hinner {a : Action} (h : a.inner = true) : Grows e (e.act a) := Path.grows (path_act h) hn
  cases a with
  | run => cases h
  | «begin» op => cases h
  | cancel r => exact .of_cancels (cancels_cancel r e)
  | failSends f => exact .of_tasks rfl (Nat.le_refl _) rfl
  | addSession s => exact .of_tasks rfl (Nat.le_refl _) rfl
  | scheduleChange doc text changes => exact hn.grows_scheduleChange doc text changes
  | viewChanged doc text changes =>
    have hg := hn.grows_scheduleChange doc text changes
    exact hg.trans (Path.grows (@path_viewChanged [] e doc text changes) (hn.grows hg))
  | closeSession doc => exact hn.grows_closeSession doc
  | _ => exact hinner rfl

/-! ### Every task -/

/-- Something holds of the frames of every task. -/
def Each (P : List Frame → Prop) (e : Engine) : Prop :=
  ∀ n t, e.tasks.get? n = some t → P t.frames

/-- A task stands where it stood, or has a new number and is to begin. -/
theorem Grows.task {n : Nat} {t' : Task} (h : Grows e e') (hg : e'.tasks.get? n = some t') :
    (∃ t, e.tasks.get? n = some t ∧ t'.frames = t.frames) ∨
      (e.nextRef ≤ n ∧ ∃ op, t'.frames = [.begin op]) := by
  obtain ⟨_, ⟨new, hp, _, hnumber, _⟩, _⟩ := h
  have hplace : e'.places.get? n = some t'.place := by rw [get?_places, hg, Option.map_some]
  rw [hp, Table.get?_append, Option.or_eq_some_iff] at hplace
  rcases hplace with hold | ⟨_, hnew⟩
  · rw [get?_places] at hold
    obtain ⟨t, ht, hsame⟩ := Option.map_eq_some_iff.mp hold
    exact .inl ⟨t, ht, (congrArg Prod.fst hsame).symm⟩
  · obtain ⟨x, hx, hsame⟩ := List.mem_map.mp (Table.mem_of_get? hnew)
    obtain ⟨rfl, hplace⟩ := Prod.mk.inj hsame
    exact .inr ⟨(hnumber x hx).1, x.2, (congrArg Prod.fst hplace).symm⟩

theorem Each.imp {P Q : List Frame → Prop} (h : Each P e) (hpq : ∀ st, P st → Q st) : Each Q e :=
  fun n t ht => hpq _ (h n t ht)

theorem Each.grows {P : List Frame → Prop} (h : Each P e) (hg : Grows e e')
    (hb : ∀ op, P [.begin op]) : Each P e' := by
  intro n t' ht'
  rcases hg.task ht' with ⟨t, ht, hsame⟩ | ⟨_, op, hframes⟩
  · rw [hsame]
    exact h n t ht
  · rw [hframes]
    exact hb op

theorem Each.spawn {P : List Frame → Prop} {op : Operation} (h : Each P e) (hb : P [.begin op]) :
    Each P (e.spawn op).2 := by
  intro n t ht
  change (e.tasks.put e.nextRef { frames := [.begin op] }).get? n = some t at ht
  rw [Table.get?_put] at ht
  split at ht
  · obtain rfl := Option.some.inj ht
    exact hb
  · exact h n t ht

/-- What holds of every task and of every task that begins, the outside leaves so. -/
theorem Each.act {P : List Frame → Prop} {a : Action} (h : Each P e) (hn : Numbered e)
    (ha : a ≠ .run) (hb : ∀ op, P [.begin op]) : Each P (e.act a) := by
  cases hd : a.drives with
  | false => exact h.grows (hn.grows_act hd) hb
  | true =>
    cases a with
    | run => exact absurd rfl ha
    | «begin» op => exact h.spawn (hb op)
    | _ => cases hd

theorem Each.pick {P : List Frame → Prop} (h : Each P e) (hnil : P []) (n : Nat) :
    Each P (e.pick n) := by
  intro m t ht
  rw [Engine.pick, Table.get?_put] at ht
  split at ht
  · obtain rfl := Option.some.inj ht
    exact hnil
  · exact h m t ht

theorem Each.keep {P : List Frame → Prop} {n : Nat} (h : Each P e) (hst : P st)
    (waiting : Option Ref) : Each P (e.keep n st waiting) := by
  intro m t ht
  rw [Engine.keep, Table.get?_put] at ht
  split at ht
  · obtain rfl := Option.some.inj ht
    exact hst
  · exact h m t ht

theorem Each.rests {P : List Frame → Prop} {n : Nat} {run : Run} (h : Each P (reached run).2)
    (hst : P (reached run).1) (hb : ∀ op, P [.begin op]) (hr : Rests n run e) : Each P e := by
  cases hr with
  | ended o =>
    intro m t ht
    rw [settle_tasks, Table.get?_erase] at ht
    split at ht
    · cases ht
    · exact h m t ht
  | waits ha hc => exact ((h.keep hst _).grows (.of_tallies ha.toTallies) hb).grows (.of_cancels hc) hb
  | pauses ha => exact (h.keep hst _).grows (.of_tallies ha) hb

end LanguageClient.Engine
