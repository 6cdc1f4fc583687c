import Mathlib.Logic.Relation
import LanguageClient.Engine.Run
import LanguageClient.Proofs.Table

/-!
What a task can do while it runs. A task that runs has a stack of frames, of which the innermost is
the first, and changes the state of the engine. Both together are a configuration, and `Step` lists
all that can happen to it: nearly everything leaves alone what requests and documents depend on
(`Agrees`), and what does not has a step of its own.

    (stack, state) ──Step──▶ (stack', state')

Every function of the engine is a path of such steps (`Leads`). What is to hold of all states is then
shown once for each kind of step, and not for each function.
-/

namespace LanguageClient

/-! ### Frames -/

/-- The request for which a frame waits. -/
def Frame.request? : Frame → Option Nat
  | .gate (.request id _ _) _ => some id
  | .requestAnswered id _ _ _ _ => some id
  | .requestExpired id _ _ => some id
  | .requestAborted id => some id
  | _ => none

/-- The request for which a frame waits, with its method, unless that does not matter any more. -/
def Frame.call? : Frame → Option (Nat × String)
  | .gate (.request id method _) _ => some (id, method)
  | .requestAnswered id method _ _ _ => some (id, method)
  | .requestExpired id method _ => some (id, method)
  | _ => none

/-- Frames that wait for a message to pass. -/
def Frame.gated : Frame → Bool
  | .gate _ _ => true
  | _ => false

/-- Frames of requests whose answer has not been given up. -/
def Frame.hopes : Frame → Bool
  | .gate _ _ | .requestAnswered .. => true
  | _ => false

/-- Frames that stand on the stack while a question waits for the changes of its document to be sent.
    The question is asked once they are, and only a client that was ready has come so far. -/
def Frame.late : Frame → Bool
  | .hoverFlushed .. | .completionFlushed .. | .signatureFlushed .. => true
  | _ => false

/-- The question that is still to be asked: its document, what it is about, and its generation. -/
def Frame.question? : Frame → Option (Nat × Feature × Nat)
  | .hoverFlushed doc generation _ => some (doc, .hover, generation)
  | .completionFlushed doc generation .. => some (doc, .completion, generation)
  | .signatureFlushed doc generation .. => some (doc, .signatureHelp, generation)
  | _ => none

/-- The question whose answer is waited for. -/
def Frame.answers? : Frame → Option (Nat × Feature × Nat)
  | .hoverAnswered doc generation _ => some (doc, .hover, generation)
  | .completionAnswered doc generation _ => some (doc, .completion, generation)
  | .signatureAnswered doc generation _ => some (doc, .signatureHelp, generation)
  | _ => none

/-- The document whose diagnostics a frame may come to show. -/
def Frame.presents? : Frame → Option Nat
  | .begin (.processDiagnostics doc _) => some doc
  | .begin (.present doc ..) => some doc
  | .actionsGathered doc .. => some doc
  | _ => none

/-- Frames that may be put on the stack at any time. The others say that something has been begun:
    an operation, a request, the handshake, the reading of messages, the closing of the client, the
    delay of some work, a question, the placing of diagnostics, or the opening of a document. -/
def Frame.plain : Frame → Bool
  | .begin _ | .gate _ _ | .requestAnswered .. | .requestExpired .. | .requestAborted _ => false
  | .handshakeAnswered | .handshakeAnnounced _ | .received | .hungUp | .readerJoined => false
  | .delayOver _ _ | .readyToOpen _ | .openSent _ _ | .actionsGathered .. => false
  | .hoverAnswered .. | .completionAnswered .. | .signatureAnswered .. => false
  | f => !f.late

theorem Frame.request?_of_plain {f : Frame} (h : f.plain = true) : f.request? = none := by
  cases f <;> simp_all [Frame.plain, Frame.request?]

theorem Frame.request?_of_presents {f : Frame} {doc : Nat} (h : f.presents? = some doc) :
    f.request? = none := by
  cases f <;> simp_all [Frame.presents?, Frame.request?]

theorem Frame.request?_of_late {f : Frame} (h : f.late = true) : f.request? = none := by
  cases f <;> simp_all [Frame.late, Frame.request?]

theorem Frame.late_of_question {f : Frame} {q : Nat × Feature × Nat} (h : f.question? = some q) :
    f.late = true := by
  cases f with
  | hoverFlushed => rfl
  | completionFlushed => rfl
  | signatureFlushed => rfl
  | _ => cases h

theorem Frame.request?_of_answers {f : Frame} {q : Nat × Feature × Nat} (h : f.answers? = some q) :
    f.request? = none := by
  cases f <;> simp_all [Frame.answers?, Frame.request?]

/-- Operations that the engine begins on its own, whatever it is used for. -/
def Operation.internal : Operation → Bool
  | .disconnect | .processDiagnostics .. | .showSignature .. | .fetchActions .. => true
  | _ => false

/-- Operations that the engine begins on its own at all. -/
def Operation.own : Operation → Bool
  | .handshake | .read | .close | .reply _ => true
  | .debounced slot _ (.flush doc) => slot == doc
  | op => op.internal

theorem Operation.own_of_internal {op : Operation} (h : op.internal = true) : op.own = true := by
  cases op <;> simp_all [Operation.internal, Operation.own]

/-- Does the operation shake hands? -/
def Operation.shakes : Operation → Bool
  | .handshake => true
  | _ => false

theorem Operation.shakes_of_internal {op : Operation} (h : op.internal = true) :
    op.shakes = false := by
  cases op with
  | handshake => cases h
  | _ => rfl

/-- Outcomes with which a promise may be settled. -/
def Ref.Free : Ref → Outcome → Prop
  | .nap _, o | .gate _, o | .arrival _, o | .closure _, o => o = .value .nothing
  | .answer _, o => o = .cancelled ∨ ∃ m, o = .failure (.transportClosed m)
  | .task _, _ => False
  | .group _, _ => True

/-- Promises that belong to one wait. -/
def Ref.ofWait : Ref → Bool
  | .task _ | .answer _ => false
  | _ => true

/-- Promises that one task at most waits for. -/
def Ref.sole : Ref → Bool
  | .nap _ | .gate _ | .arrival _ | .closure _ => true
  | _ => false

theorem Ref.ofWait_of_sole {r : Ref} (h : r.sole = true) : r.ofWait = true := by
  cases r <;> first | rfl | cases h

/-- The number of what a promise is about. -/
def Ref.number : Ref → Nat
  | .task n | .group n | .answer n | .nap n | .gate n | .arrival n | .closure n => n

/-- The task whose turn it is. -/
def Job.task? : Job → Option Nat
  | .step n => some n
  | _ => none

/-- The job tells a group that one of its tasks has ended. -/
def Job.tells (k : Nat) : Job → Bool
  | .call (.memberOver n) _ => n == k
  | _ => false

/-- Where a task stands, apart from whether it has been asked to stop. -/
def Task.place (t : Task) : List Frame × Option Ref := (t.frames, t.waiting)

/-- What keeps a document in step with the server's copy. -/
def Session.core (s : Session) : Document × EditHook := (s.document, s.hook)

/-- How far the questions about a document have come, and what is shown of its diagnostics. -/
def Session.outlook (s : Session) :
    (Feature → Nat) × Bool × Features × List PresentedDiagnostic :=
  (s.generation, s.staleGuard, s.features, s.view.diagnostics)

/-! ### Histories -/

/-- Events of one kind that are added in two goes are events of that kind that are added. -/
theorem added_trans {p : Event → Prop} {before between after : List Event}
    (h : ∃ more, between = before ++ more ∧ ∀ event ∈ more, p event)
    (h' : ∃ more, after = between ++ more ∧ ∀ event ∈ more, p event) :
    ∃ more, after = before ++ more ∧ ∀ event ∈ more, p event := by
  obtain ⟨more, rfl, hm⟩ := h
  obtain ⟨more', rfl, hm'⟩ := h'
  refine ⟨more ++ more', List.append_assoc .., fun event hmem => ?_⟩
  exact (List.mem_append.mp hmem).elim (hm event) (hm' event)

namespace Engine

/-! ### Turns and groups -/

/-- The tasks whose turn will come, in that order. -/
def turns (e : Engine) : List Nat := e.ready.filterMap Job.task?

/-- The group will be told of the promise, as of one of its tasks that has ended. -/
def Listens (k : Nat) (r : Ref) (e : Engine) : Prop :=
  (∃ p, e.promises.get? r = some p ∧ .memberOver k ∈ p.listeners) ∨
    .call (.memberOver k) r ∈ e.ready

/-- The group listens to the promise. -/
def Hears (k : Nat) (r : Ref) (e : Engine) : Prop :=
  ∃ p, e.promises.get? r = some p ∧ .memberOver k ∈ p.listeners

/-- How often the group is still to be told that one of its tasks has ended. -/
def pledges (k : Nat) (e : Engine) : Nat :=
  e.promises.total (·.listeners.count (.memberOver k)) + e.ready.countP (Job.tells k)

/-- The task will be told when the group has ended, or is to go on since it has. -/
def Wakes (m k : Nat) (e : Engine) : Prop :=
  (∃ listeners, e.promises.get? (.group k) = some ⟨none, listeners⟩ ∧ .wake m ∈ listeners) ∨
    .call (.wake m) (.group k) ∈ e.ready

/-- Why a group has ended so: with a value when it is told of the last of its tasks, cancelled since it was
    asked to stop, or as one of its tasks did. -/
def GroupEnds (k : Nat) (o : Outcome) (e : Engine) : Prop :=
  (∃ v group r, o = .value v ∧ e.groups.get? k = some group ∧
    group.members.length ≤ group.finished + 1 ∧ .call (.memberOver k) r ∈ e.ready) ∨
  (∃ group, e.groups.get? k = some group ∧ group.cancelRequested = true) ∨
  (∃ r, e.Listens k r ∧ e.outcome? r = some o ∧ ∀ v, o ≠ .value v)

/-! ### Promises -/

/-- Has something been promised, and how did it come out? -/
def standing (r : Ref) (e : Engine) : Option (Option Outcome) := (e.promises.get? r).map (·.outcome)

theorem outcome?_eq_join (r : Ref) (e : Engine) : e.outcome? r = (e.standing r).join := by
  unfold outcome? standing
  cases e.promises.get? r <;> rfl

theorem standing_of_outcome? {r : Ref} {o : Outcome} {e : Engine} (h : e.outcome? r = some o) :
    e.standing r = some (some o) := by
  rw [outcome?_eq_join] at h
  exact Option.join_eq_some_iff.mp h

theorem outcome?_of_standing {r : Ref} {o : Outcome} {e : Engine} (h : e.standing r = some (some o)) :
    e.outcome? r = some o := by
  rw [outcome?_eq_join, h]
  rfl

theorem standing_promise (r r' : Ref) (e : Engine) :
    (e.promise r).standing r' = if r' = r then some none else e.standing r' := by
  simp only [standing, promise, Table.get?_put]
  split <;> rfl

theorem standing_settle_self {r : Ref} {e : Engine} (h : e.standing r = some none) (o : Outcome) :
    (e.settle r o).standing r = some (some o) := by
  obtain ⟨⟨outcome, listeners⟩, hp, ho⟩ := Option.map_eq_some_iff.mp h
  obtain rfl : outcome = none := ho
  simp [settle, hp, standing]

theorem standing_settle_of_ne {r r' : Ref} (h : r' ≠ r) (o : Outcome) (e : Engine) :
    (e.settle r o).standing r' = e.standing r' := by
  unfold settle
  split
  · simp only [standing, Table.get?_put, if_neg h]
  · rfl

theorem outcome?_settle_of_ne {r r' : Ref} (h : r' ≠ r) (o : Outcome) (e : Engine) :
    (e.settle r o).outcome? r' = e.outcome? r' := by
  rw [outcome?_eq_join, standing_settle_of_ne h, ← outcome?_eq_join]

/-- Settling comes to something only where something is promised and still open. -/
theorem standing_settle (r r' : Ref) (o : Outcome) (e : Engine) :
    (e.settle r o).standing r' = e.standing r' ∨
      (r' = r ∧ e.standing r = some none ∧ (e.settle r o).standing r' = some (some o)) := by
  by_cases hr : r' = r
  · subst hr
    unfold settle
    split
    · rename_i listeners h
      exact .inr ⟨rfl, by simp [standing, h], by simp [standing]⟩
    · exact .inl rfl
  · exact .inl (standing_settle_of_ne hr o e)

section

variable (r : Ref) (o : Outcome) (e : Engine)

@[simp] theorem settle_client : (e.settle r o).client = e.client := by
  unfold settle
  split <;> rfl

@[simp] theorem settle_channel : (e.settle r o).channel = e.channel := by
  unfold settle
  split <;> rfl

@[simp] theorem settle_sessions : (e.settle r o).sessions = e.sessions := by
  unfold settle
  split <;> rfl

@[simp] theorem settle_tasks : (e.settle r o).tasks = e.tasks := by
  unfold settle
  split <;> rfl

@[simp] theorem settle_slots : (e.settle r o).slots = e.slots := by
  unfold settle
  split <;> rfl

@[simp] theorem settle_history : (e.settle r o).history = e.history := by
  unfold settle
  split <;> rfl

@[simp] theorem settle_nextRef : (e.settle r o).nextRef = e.nextRef := by
  unfold settle
  split <;> rfl

@[simp] theorem settle_groups : (e.settle r o).groups = e.groups := by
  unfold settle
  split <;> rfl

/-- Settling calls those who listen, and it is no one's turn by that. -/
@[simp] theorem settle_turns : (e.settle r o).turns = e.turns := by
  unfold settle
  split
  · rename_i listeners _
    have hcalls : (listeners.map (Job.call · r)).filterMap Job.task? = [] := by
      simp [List.filterMap_map, Function.comp_def, Job.task?]
    simp only [turns, List.filterMap_append, hcalls, List.append_nil]
  · rfl

end

/-! ### States that agree -/

/-- Two states agree on all that requests and documents depend on, and the same has been sent. Whatever
    has arrived stands at the end of the inbox, groups stay what they are, and a group is told of none
    but its tasks, of each once at most. It counts all that it is told of, and as long as it has not ended
    it does not count the last of them. -/
structure Tallies (e e' : Engine) : Prop where
  client : e'.client = e.client
  sessions : e'.sessions.map Session.core = e.sessions.map Session.core
  outlooks : e'.sessions.map Session.outlook = e.sessions.map Session.outlook
  tasks : e'.tasks = e.tasks
  slots : e'.slots = e.slots
  history : e'.history = e.history
  sendFailure : e'.channel.sendFailure = e.channel.sendFailure
  sent : e'.channel.sent = e.channel.sent
  inbox : e.channel.inbox <+: e'.channel.inbox
  nextRef : e.nextRef ≤ e'.nextRef
  standing : ∀ r, e'.standing r = e.standing r
  groups : ∀ k < e.nextRef, ∀ group, e.groups.get? k = some group → ∃ group',
    e'.groups.get? k = some group' ∧ group'.members = group.members ∧
      group'.cancelRequested = group.cancelRequested
  listens : ∀ k r, e'.Listens k r → e.Listens k r ∨
    (k < e'.nextRef ∧ ∃ group, e'.groups.get? k = some group ∧ r ∈ group.members)
  hears : ∀ k r, e.Hears k r → e'.Hears k r
  calls : ∀ l r, .call l r ∈ e'.ready → .call l r ∈ e.ready ∨ ∃ o, e.outcome? r = some o
  told : ∀ k < e.nextRef, ∀ group group', e.groups.get? k = some group →
    e'.groups.get? k = some group' → group'.finished + e'.pledges k ≤ group.finished + e.pledges k
  counts : ∀ k < e.nextRef, ∀ group group', e.groups.get? k = some group →
    e'.groups.get? k = some group' →
    group.finished + e.ready.countP (Job.tells k) ≤ group'.finished + e'.ready.countP (Job.tells k)
  unended : ∀ k < e.nextRef, ∀ group group', e.groups.get? k = some group →
    e'.groups.get? k = some group' → e.standing (.group k) = some none →
    group.finished < group.members.length → group'.finished < group'.members.length

/-- They also agree on whose turn it is, and no task that waits for a group is forgotten. -/
structure Agrees (e e' : Engine) : Prop extends Tallies e e' where
  turns : e'.turns = e.turns
  wakes : ∀ m k, e.Wakes m k → e'.Wakes m k

instance (e e' : Engine) : Coe (Agrees e e') (Tallies e e') := ⟨Agrees.toTallies⟩

theorem Tallies.outcome {e e' : Engine} (h : Tallies e e') (r : Ref) :
    e'.outcome? r = e.outcome? r := by
  rw [outcome?_eq_join, outcome?_eq_join, h.standing r]

theorem Tallies.trans {e₁ e₂ e₃ : Engine} (h : Tallies e₁ e₂) (h' : Tallies e₂ e₃) :
    Tallies e₁ e₃ where
  client := h'.client.trans h.client
  sessions := h'.sessions.trans h.sessions
  outlooks := h'.outlooks.trans h.outlooks
  tasks := h'.tasks.trans h.tasks
  slots := h'.slots.trans h.slots
  history := h'.history.trans h.history
  sendFailure := h'.sendFailure.trans h.sendFailure
  sent := h'.sent.trans h.sent
  inbox := h.inbox.trans h'.inbox
  nextRef := Nat.le_trans h.nextRef h'.nextRef
  standing r := (h'.standing r).trans (h.standing r)
  groups k hk group hgroup := by
    obtain ⟨group', hgroup', hm, hc⟩ := h.groups k hk group hgroup
    obtain ⟨group'', hgroup'', hm', hc'⟩ :=
      h'.groups k (Nat.lt_of_lt_of_le hk h.nextRef) group' hgroup'
    exact ⟨group'', hgroup'', hm'.trans hm, hc'.trans hc⟩
  listens k r hl := by
    rcases h'.listens k r hl with hl | hmem
    · rcases h.listens k r hl with hl | ⟨hk, group, hgroup, hmem⟩
      · exact .inl hl
      · obtain ⟨group', hgroup', hm, _⟩ := h'.groups k hk group hgroup
        exact .inr ⟨Nat.lt_of_lt_of_le hk h'.nextRef, group', hgroup', hm ▸ hmem⟩
    · exact .inr hmem
  hears k r hw := h'.hears k r (h.hears k r hw)
  calls l r hl := by
    rcases h'.calls l r hl with hl | ⟨o, ho⟩
    · exact h.calls l r hl
    · exact .inr ⟨o, (h.outcome r).symm.trans ho⟩
  told k hk group group'' hgroup hgroup'' := by
    obtain ⟨group', hgroup', _⟩ := h.groups k hk group hgroup
    exact Nat.le_trans (h'.told k (Nat.lt_of_lt_of_le hk h.nextRef) group' group'' hgroup' hgroup'')
      (h.told k hk group group' hgroup hgroup')
  counts k hk group group'' hgroup hgroup'' := by
    obtain ⟨group', hgroup', _⟩ := h.groups k hk group hgroup
    exact Nat.le_trans (h.counts k hk group group' hgroup hgroup')
      (h'.counts k (Nat.lt_of_lt_of_le hk h.nextRef) group' group'' hgroup' hgroup'')
  unended k hk group group'' hgroup hgroup'' hopen hlt := by
    obtain ⟨group', hgroup', _⟩ := h.groups k hk group hgroup
    exact h'.unended k (Nat.lt_of_lt_of_le hk h.nextRef) group' group'' hgroup' hgroup''
      ((h.standing _).trans hopen) (h.unended k hk group group' hgroup hgroup' hopen hlt)

theorem Agrees.trans {e₁ e₂ e₃ : Engine} (h : Agrees e₁ e₂) (h' : Agrees e₂ e₃) : Agrees e₁ e₃ :=
  ⟨h.toTallies.trans h'.toTallies, h'.turns.trans h.turns, fun m k hw => h'.wakes m k (h.wakes m k hw)⟩

/-- No group is told of anything new, nor more often, and each listens to what it has listened to, and is told
    of what it was to be told of. Whoever is called is called about what has been settled. -/
structure Mutes (e e' : Engine) : Prop where
  listens : ∀ k r, e'.Listens k r → e.Listens k r
  hears : ∀ k r, e.Hears k r → e'.Hears k r
  calls : ∀ l r, .call l r ∈ e'.ready → .call l r ∈ e.ready ∨ ∃ o, e.outcome? r = some o
  pledges : ∀ k, e'.pledges k ≤ e.pledges k
  tells : ∀ k, e.ready.countP (Job.tells k) ≤ e'.ready.countP (Job.tells k)

theorem mutes_of_eq {e e' : Engine} (h : (e'.promises, e'.ready) = (e.promises, e.ready)) :
    Mutes e e' := by
  obtain ⟨hp, hj⟩ := Prod.mk.inj h
  refine ⟨fun k r hl => ?_, fun k r hw => ?_, fun l r hl => .inl (hj ▸ hl), fun k => ?_, fun k => ?_⟩
  · rwa [Listens, hp, hj] at hl
  · rwa [Hears, hp]
  · exact Nat.le_of_eq (by rw [pledges, hp, hj, pledges])
  · exact Nat.le_of_eq (by rw [hj])

/-- More is to be done, but no group is told by that. -/
theorem mutes_ready {e e' : Engine} {jobs : List Job} (hp : e'.promises = e.promises)
    (hj : e'.ready = e.ready ++ jobs) (h : ∀ job ∈ jobs, ∀ k, job.tells k = false)
    (hc : ∀ l r, .call l r ∈ jobs → ∃ o, e.outcome? r = some o) : Mutes e e' := by
  refine ⟨fun k r hl => ?_, fun k r hw => ?_,
    fun l r hl => (List.mem_append.mp (hj ▸ hl)).imp id (hc l r), fun k => ?_, fun k => ?_⟩
  · rw [Listens, hp, hj] at hl
    refine hl.imp id fun hmem => (List.mem_append.mp hmem).elim id fun hmem => ?_
    simpa [Job.tells] using h _ hmem k
  · rwa [Hears, hp]
  · have hnone : jobs.countP (Job.tells k) = 0 := by
      rw [List.countP_eq_zero]
      exact fun job hmem => by simp [h job hmem k]
    simp only [Engine.pledges, hp, hj, List.countP_append, hnone, Nat.add_zero, Nat.le_refl]
  · rw [hj, List.countP_append]
    exact Nat.le_add_right _ _

/-- Less is to be done, but no group was to be told by that. -/
theorem mutes_popped {e : Engine} {job : Job} {rest : List Job} (h : e.ready = job :: rest)
    (hj : ∀ k, job.tells k = false) : Mutes e { e with ready := rest } := by
  refine ⟨fun k r hl => hl.imp id fun hmem => h ▸ List.mem_cons_of_mem job hmem, fun _ _ => id,
    fun _ _ hl => .inl (h ▸ List.mem_cons_of_mem job hl), fun k => ?_, fun k => ?_⟩
  · rw [Engine.pledges, Engine.pledges, h, List.countP_cons]
    exact Nat.add_le_add_left (Nat.le_add_right _ _) _
  · rw [h, List.countP_cons, hj k, if_neg Bool.false_ne_true, Nat.add_zero]

theorem wakes_of_eq {e e' : Engine} (h : (e'.promises, e'.ready) = (e.promises, e.ready)) {m k : Nat}
    (hw : e.Wakes m k) : e'.Wakes m k := by
  obtain ⟨hp, hj⟩ := Prod.mk.inj h
  rwa [Wakes, hp, hj]

/-- Only what is no one's concern here has changed. -/
theorem tallies_of_eq {e e' : Engine} (hn : e.nextRef ≤ e'.nextRef)
    (hp : ∀ r, e'.standing r = e.standing r)
    (hf : e'.channel.sendFailure = e.channel.sendFailure)
    (hw : e'.channel.sent = e.channel.sent)
    (hi : e.channel.inbox <+: e'.channel.inbox)
    (hsame : (e'.client, e'.sessions, e'.tasks, e'.slots, e'.history, e'.groups) =
      (e.client, e.sessions, e.tasks, e.slots, e.history, e.groups))
    (hl : Mutes e e') : Tallies e e' := by
  simp only [Prod.mk.injEq] at hsame
  obtain ⟨hclient, hsessions, htasks, hslots, hhistory, hgroups⟩ := hsame
  refine ⟨hclient, by rw [hsessions], by rw [hsessions], htasks, hslots, hhistory, hf, hw, hi, hn, hp,
    fun k _ group hgroup => ⟨group, hgroups ▸ hgroup, rfl, rfl⟩, fun k r h => .inl (hl.listens k r h),
    hl.hears, hl.calls, fun k _ group group' hgroup hgroup' => ?_, fun k _ group group' hgroup hgroup' => ?_,
    fun k _ group group' hgroup hgroup' _ hlt => ?_⟩ <;>
    obtain rfl : group = group' := Option.some.inj (hgroup.symm.trans (hgroups ▸ hgroup'))
  · exact Nat.add_le_add_left (hl.pledges k) _
  · exact Nat.add_le_add_left (hl.tells k) _
  · exact hlt

/-- Nothing has changed but what is no one's concern here, and no one is told of anything. -/
theorem tallies_of_same {e e' : Engine} (hn : e.nextRef ≤ e'.nextRef)
    (h : (e'.client, e'.sessions, e'.tasks, e'.slots, e'.history, e'.groups, e'.promises, e'.ready,
        e'.channel.sendFailure, e'.channel.sent, e'.channel.inbox) =
      (e.client, e.sessions, e.tasks, e.slots, e.history, e.groups, e.promises, e.ready,
        e.channel.sendFailure, e.channel.sent, e.channel.inbox)) : Tallies e e' := by
  simp only [Prod.mk.injEq] at h
  obtain ⟨hc, hs, ht, hslots, hh, hg, hp, hj, hf, hw, hi⟩ := h
  exact tallies_of_eq hn (fun r => by rw [standing, hp, standing]) hf hw (hi ▸ List.prefix_rfl)
    (by rw [hc, hs, ht, hslots, hh, hg]) (mutes_of_eq (by rw [hp, hj]))

theorem Tallies.refl (e : Engine) : Tallies e e := tallies_of_same (Nat.le_refl _) rfl

theorem agrees_of_same {e e' : Engine} (hn : e.nextRef ≤ e'.nextRef)
    (h : (e'.client, e'.sessions, e'.tasks, e'.slots, e'.history, e'.groups, e'.promises, e'.ready,
        e'.channel.sendFailure, e'.channel.sent, e'.channel.inbox) =
      (e.client, e.sessions, e.tasks, e.slots, e.history, e.groups, e.promises, e.ready,
        e.channel.sendFailure, e.channel.sent, e.channel.inbox)) : Agrees e e' := by
  refine ⟨tallies_of_same hn h, ?_, fun m k => wakes_of_eq ?_⟩ <;> simp only [Prod.mk.injEq] at h
  · rw [turns, turns, h.2.2.2.2.2.2.2.1]
  · rw [h.2.2.2.2.2.2.1, h.2.2.2.2.2.2.2.1]

theorem Agrees.refl (e : Engine) : Agrees e e := agrees_of_same (Nat.le_refl _) rfl

theorem agrees_log (level : Level) (message : String) (e : Engine) : Agrees e (e.log level message) :=
  agrees_of_same (Nat.le_refl _) rfl

/-- By that it may be the turn of one more task, but no one is told of anything. -/
theorem tallies_enqueue {job : Job} (h : ∀ l r, job ≠ .call l r) (e : Engine) :
    Tallies e (e.enqueue job) := by
  refine tallies_of_eq (Nat.le_refl _) (fun _ => rfl) rfl rfl List.prefix_rfl rfl
    (mutes_ready rfl rfl (fun job' hmem k => ?_) fun l r hmem => ?_)
  · obtain rfl := List.mem_singleton.mp hmem
    cases job' with
    | call l r => exact absurd rfl (h l r)
    | _ => rfl
  · exact absurd (List.mem_singleton.mp hmem).symm (h l r)

theorem agrees_setTimer (after : Int) (alarm : Alarm) (e : Engine) :
    Agrees e (e.setTimer after alarm).2 := agrees_of_same (Nat.le_succ _) rfl

theorem agrees_dropTimer (id : Nat) (e : Engine) : Agrees e (e.dropTimer id) := agrees_of_same (Nat.le_refl _) rfl

theorem agrees_onChannel {f : Channel → Channel} {e : Engine}
    (h : (f e.channel).sendFailure = e.channel.sendFailure)
    (hw : (f e.channel).sent = e.channel.sent)
    (hi : e.channel.inbox <+: (f e.channel).inbox) :
    Agrees e (e.onChannel f) :=
  ⟨tallies_of_eq (Nat.le_refl _) (fun _ => rfl) h hw hi rfl (mutes_of_eq rfl), rfl, fun _ _ => wakes_of_eq rfl⟩

/-- What a change of a document leaves alone. -/
theorem map_onSession {α : Type} (g : Session → α) {f : Session → Session} (h : ∀ s, g (f s) = g s)
    (doc : Nat) (e : Engine) : (e.onSession doc f).sessions.map g = e.sessions.map g := by
  refine List.ext_getElem? fun i => ?_
  simp only [onSession, List.getElem?_map, List.getElem?_modify]
  split
  · cases e.sessions[i]? with
    | none => rfl
    | some s => simp [h s]
  · cases e.sessions[i]? <;> rfl

theorem agrees_onSession {doc : Nat} {f : Session → Session} (h : ∀ s, (f s).core = s.core)
    (e : Engine) (ho : ∀ s, (f s).outlook = s.outlook) :
    Agrees e (e.onSession doc f) := by
  refine ⟨⟨rfl, map_onSession _ h doc e, map_onSession _ ho doc e, rfl, rfl, rfl, rfl, rfl, List.prefix_rfl,
    Nat.le_refl _, fun _ => rfl, fun _ _ group hgroup => ⟨group, hgroup, rfl, rfl⟩, fun _ _ => .inl, fun _ _ => id,
    fun _ _ => .inl, fun _ _ group group' hgroup hgroup' => ?_, fun _ _ group group' hgroup hgroup' => ?_,
    fun _ _ group group' hgroup hgroup' _ hlt => ?_⟩, rfl, fun _ _ => wakes_of_eq rfl⟩ <;>
    obtain rfl : group = group' := Option.some.inj (hgroup.symm.trans hgroup')
  · exact Nat.le_refl _
  · exact Nat.le_refl _
  · exact hlt

/-- Listening changes nothing but who will be told. -/
theorem listen_cases (r : Ref) (l : Listener) (e : Engine) : e.listen r l = e ∨
    (∃ listeners, e.promises.get? r = some ⟨none, listeners⟩ ∧
      e.listen r l = { e with promises := e.promises.put r ⟨none, listeners ++ [l]⟩ }) ∨
    (∃ o, e.outcome? r = some o) ∧ e.listen r l = e.enqueue (.call l r) := by
  unfold listen
  split
  · rename_i listeners h
    exact .inr (.inl ⟨listeners, h, rfl⟩)
  · rename_i o _ h
    exact .inr (.inr ⟨⟨o, by rw [outcome?, h]; rfl⟩, rfl⟩)
  · exact .inl rfl

theorem standing_listen (r r' : Ref) (l : Listener) (e : Engine) :
    (e.listen r l).standing r' = e.standing r' := by
  rcases listen_cases r l e with h | ⟨listeners, hp, h⟩ | ⟨_, h⟩
  · rw [h]
  · rw [h, standing, Table.get?_put]
    split
    · rename_i hr
      simp [standing, hr, hp]
    · rfl
  · rw [h]
    rfl

theorem listens_listen {r r' : Ref} {l : Listener} {k : Nat} {e : Engine}
    (h : (e.listen r l).Listens k r') : e.Listens k r' ∨ (l = .memberOver k ∧ r' = r) := by
  rcases listen_cases r l e with heq | ⟨listeners, hp, heq⟩ | ⟨_, heq⟩
  · rw [heq] at h
    exact .inl h
  · rw [heq] at h
    rcases h with ⟨p, hget, hmem⟩ | hmem
    · simp only [Table.get?_put] at hget
      split at hget
      · rename_i hr
        obtain rfl := Option.some.inj hget
        rcases List.mem_append.mp hmem with hmem | hmem
        · exact .inl (.inl ⟨_, hr ▸ hp, hmem⟩)
        · exact .inr ⟨(List.mem_singleton.mp hmem).symm, hr⟩
      · exact .inl (.inl ⟨p, hget, hmem⟩)
    · exact .inl (.inr hmem)
  · rw [heq] at h
    rcases h with h | hmem
    · exact .inl (.inl h)
    · rcases List.mem_append.mp hmem with hmem | hmem
      · exact .inl (.inr hmem)
      · obtain ⟨rfl, rfl⟩ := Job.call.inj (List.mem_singleton.mp hmem)
        exact .inr ⟨rfl, rfl⟩

/-- What listening leaves alone. -/
theorem listen_same (r : Ref) (l : Listener) (e : Engine) :
    (e.listen r l).client = e.client ∧ (e.listen r l).sessions = e.sessions ∧
      (e.listen r l).tasks = e.tasks ∧ (e.listen r l).slots = e.slots ∧
      (e.listen r l).history = e.history ∧ (e.listen r l).channel = e.channel ∧
      (e.listen r l).nextRef = e.nextRef ∧ (e.listen r l).groups = e.groups ∧
      (e.listen r l).turns = e.turns := by
  rcases listen_cases r l e with h | ⟨listeners, hp, h⟩ | ⟨_, h⟩
  · rw [h]
    simp
  · rw [h]
    simp [turns]
  · rw [h]
    simp [turns, enqueue, Job.task?]

theorem hears_iff {k : Nat} {r : Ref} {e : Engine} :
    e.Hears k r ↔ ∃ p, e.promises.get? r = some p ∧ 0 < p.listeners.count (.memberOver k) := by
  simp only [Hears, List.count_pos_iff]

/-- The listeners of a promise are others, but the groups among them are the same. -/
theorem mutes_promises {e : Engine} {promises : Table Ref Promise}
    (hp : ∀ k r, ((promises.get? r).map (·.listeners.count (.memberOver k))) =
      (e.promises.get? r).map (·.listeners.count (.memberOver k)))
    (ht : ∀ k, promises.total (·.listeners.count (.memberOver k)) ≤
      e.promises.total (·.listeners.count (.memberOver k))) : Mutes e { e with promises } := by
  have hiff (k : Nat) (r : Ref) : ({ e with promises } : Engine).Hears k r ↔ e.Hears k r := by
    have hsome (o : Option Promise) : (∃ p, o = some p ∧ 0 < p.listeners.count (.memberOver k)) ↔
        ∃ n, o.map (·.listeners.count (.memberOver k)) = some n ∧ 0 < n := by
      cases o <;> simp
    rw [hears_iff, hears_iff, hsome, hsome, hp k r]
  exact ⟨fun k r hl => hl.imp (hiff k r).mp id, fun k r => (hiff k r).mpr, fun _ _ => .inl,
    fun k => Nat.add_le_add_right (ht k) _, fun _ => Nat.le_refl _⟩

theorem mutes_listen {l : Listener} (hl : ∀ k, l ≠ .memberOver k) (r : Ref) (e : Engine) :
    Mutes e (e.listen r l) := by
  rcases listen_cases r l e with h | ⟨listeners, hget, h⟩ | ⟨ho, h⟩
  · rw [h]
    exact mutes_of_eq rfl
  · have hcount (k : Nat) : (listeners ++ [l]).count (.memberOver k) = listeners.count (.memberOver k) := by
      rw [List.count_append, List.count_singleton, if_neg (by simpa using hl k), Nat.add_zero]
    rw [h]
    refine mutes_promises (fun k r' => ?_) fun k => ?_
    · rw [Table.get?_put]
      split
      · rename_i hr
        simp [hr, hget, hcount]
      · rfl
    · have htotal := Table.total_put (fun p : Promise => p.listeners.count (.memberOver k)) r
        ⟨none, listeners ++ [l]⟩ e.promises
      simp only [hget, Option.map_some, Option.getD_some, hcount] at htotal
      omega
  · rw [h]
    refine mutes_ready rfl rfl (fun job hjob k => ?_) fun l' r' hjob => ?_
    · obtain rfl := List.mem_singleton.mp hjob
      cases l with
      | memberOver n => exact absurd rfl (hl n)
      | _ => rfl
    · obtain ⟨rfl, rfl⟩ := Job.call.inj (List.mem_singleton.mp hjob)
      exact ho

theorem wakes_listen {m k : Nat} {e : Engine} (h : e.Wakes m k) (r : Ref) (l : Listener) :
    (e.listen r l).Wakes m k := by
  rcases listen_cases r l e with heq | ⟨listeners, hget, heq⟩ | ⟨_, heq⟩
  · rwa [heq]
  · rw [heq]
    refine h.imp ?_ id
    rintro ⟨listeners', hget', hmem⟩
    by_cases hr : .group k = r
    · subst hr
      obtain rfl : listeners = listeners' := by simpa using hget.symm.trans hget'
      exact ⟨_, Table.get?_put_self _ _ _, List.mem_append_left _ hmem⟩
    · exact ⟨listeners', (Table.get?_put_of_ne hr _ _).trans hget', hmem⟩
  · rw [heq]
    exact h.imp id (List.mem_append_left _)

/-- Only groups have to be told of who listens. -/
theorem agrees_listen (r : Ref) (l : Listener) (e : Engine) (hl : ∀ k, l ≠ .memberOver k) :
    Agrees e (e.listen r l) := by
  obtain ⟨hclient, hsessions, htasks, hslots, hhistory, hchannel, hnext, hgroups, hturns⟩ :=
    listen_same r l e
  exact ⟨tallies_of_eq (Nat.le_of_eq hnext.symm) (fun r' => standing_listen r r' l e) (by rw [hchannel])
    (by rw [hchannel]) (hchannel ▸ List.prefix_rfl)
    (by rw [hclient, hsessions, htasks, hslots, hhistory, hgroups]) (mutes_listen hl r e), hturns,
    fun _ _ hw => wakes_listen hw r l⟩

theorem agrees_unlisten (r : Ref) {l : Listener} (hl : ∀ k, l ≠ .memberOver k) (hr : ∀ k, r ≠ .group k)
    (e : Engine) : Agrees e (e.unlisten r l) := by
  have hcount (k : Nat) (p : Promise) :
      (p.listeners.filter (· ≠ l)).count (.memberOver k) = p.listeners.count (.memberOver k) :=
    List.count_filter (by simpa using (hl k).symm)
  refine ⟨tallies_of_eq (Nat.le_refl _) (fun r' => ?_) rfl rfl List.prefix_rfl rfl
    (mutes_promises (fun k r' => ?_) fun k => ?_), rfl, fun m k => Or.imp ?_ id⟩
  · rw [standing, unlisten, Table.get?_update]
    split
    · rename_i hr
      subst hr
      cases h : e.promises.get? r' with
      | none => simp [standing, h]
      | some p => simp [standing, h]
    · rfl
  · rw [Table.get?_update]
    split
    · rename_i hr
      subst hr
      cases e.promises.get? r' with
      | none => rfl
      | some p => exact congrArg some (hcount k p)
    · rfl
  · exact Nat.le_of_eq (Table.total_update (hcount k) _ _)
  · rintro ⟨listeners, hget, hmem⟩
    refine ⟨listeners, ?_, hmem⟩
    rw [unlisten, Table.get?_update, if_neg (Ne.symm (hr k))]
    exact hget

/-! ### Starting -/

/-- The task of the handshake is to begin. -/
def shaking (e : Engine) : Engine :=
  (e.spawn .handshake).2.onClient fun c => { c with handshake := some (.task e.nextRef) }

/-- There has been a handshake, or its task is begun. -/
theorem startHandshake_cases (e : Engine) :
    ((∃ r, e.client.handshake = some r) ∧ e.startHandshake.2 = e) ∨
      (e.client.handshake = none ∧ Agrees e.shaking e.startHandshake.2) := by
  unfold startHandshake
  split
  · rename_i r hr
    exact .inl ⟨⟨r, hr⟩, rfl⟩
  · rename_i hnone
    exact .inr ⟨hnone, agrees_listen _ _ _ (by simp)⟩

theorem startHandshake_same (e : Engine) :
    e.startHandshake.2.sessions.map Session.core = e.sessions.map Session.core ∧
      e.startHandshake.2.slots = e.slots ∧ e.startHandshake.2.history = e.history := by
  rcases startHandshake_cases e with ⟨_, heq⟩ | ⟨_, ha⟩
  · rw [heq]
    exact ⟨rfl, rfl, rfl⟩
  · exact ⟨ha.sessions, ha.slots, ha.history⟩

/-- A handshake whose task is to begin has not come out yet. -/
theorem outcome?_shaking (e : Engine) : e.shaking.outcome? (.task e.nextRef) = none := by
  have hp := standing_promise (.task e.nextRef) (.task e.nextRef) e
  rw [if_pos rfl] at hp
  rw [outcome?_eq_join, show e.shaking.standing (.task e.nextRef) = some none from hp]
  rfl

/-- The task of the reader is to begin. -/
def reading (e : Engine) : Engine :=
  (e.spawn .read).2.onClient fun c => { c with reader := some (.task e.nextRef) }

/-- There has been a reader, or its task is begun. -/
theorem startReader_cases (e : Engine) :
    ((∃ r, e.client.reader = some r) ∧ e.startReader = e) ∨
      (e.client.reader = none ∧ e.startReader = e.reading) := by
  unfold startReader
  split
  · rename_i r hr
    exact .inl ⟨⟨r, hr⟩, rfl⟩
  · rename_i hnone
    exact .inr ⟨hnone, rfl⟩

/-! ### Attaching and detaching -/

/-- The registry after a call, of which a note is taken. -/
def enlist (r : Registration Subscriber) (e : Engine) : Engine :=
  (e.onClient fun c => { c with subscribers := c.subscribers.register r }).note (.registered r)

/-- A call changes the registry, and may begin to close the client if that is wanted. -/
theorem register_cases (r : Registration Subscriber) (e : Engine) :
    e.register r = e.enlist r ∨
      (e.client.options.autoClose.truthy = true ∧ ∃ level message,
        e.register r = (((e.enlist r).log level message).spawn .close).2) := by
  cases r with
  | attach x => exact .inl rfl
  | detach x =>
    unfold register detach
    simp only
    split
    · rename_i h
      simp only [Bool.and_eq_true] at h
      exact .inr ⟨h.1.1.2, _, _, rfl⟩
    · exact .inl rfl

/-! ### Cancelling -/

/-- Where all tasks stand. -/
def places (e : Engine) : Table Nat (List Frame × Option Ref) :=
  e.tasks.map fun entry => (entry.1, entry.2.place)

/-- What cancelling can change: tasks may have been asked to stop, and promises that were open may
    have been settled as cancelled. -/
structure Cancels (e e' : Engine) : Prop where
  client : e'.client = e.client
  channel : e'.channel = e.channel
  sessions : e'.sessions = e.sessions
  slots : e'.slots = e.slots
  history : e'.history = e.history
  nextRef : e'.nextRef = e.nextRef
  places : e'.places = e.places
  turns : e'.turns = e.turns
  standing : ∀ r, e'.standing r = e.standing r ∨
    (e.standing r = some none ∧ e'.standing r = some (some .cancelled))

theorem Cancels.refl (e : Engine) : Cancels e e :=
  ⟨rfl, rfl, rfl, rfl, rfl, rfl, rfl, rfl, fun _ => .inl rfl⟩

theorem Cancels.trans {e₁ e₂ e₃ : Engine} (h : Cancels e₁ e₂) (h' : Cancels e₂ e₃) :
    Cancels e₁ e₃ where
  client := h'.client.trans h.client
  channel := h'.channel.trans h.channel
  sessions := h'.sessions.trans h.sessions
  slots := h'.slots.trans h.slots
  history := h'.history.trans h.history
  nextRef := h'.nextRef.trans h.nextRef
  places := h'.places.trans h.places
  turns := h'.turns.trans h.turns
  standing r := by
    rcases h'.standing r with h' | ⟨hn', h'⟩
    · rw [h']
      exact h.standing r
    · rcases h.standing r with h | ⟨hn, h⟩
      · exact .inr ⟨h ▸ hn', h'⟩
      · rw [h] at hn'
        cases hn'

theorem cancels_stop (n : Nat) (b : Bool) (e : Engine) :
    Cancels e { e with tasks := e.tasks.update n fun t => { t with cancelRequested := b } } where
  client := rfl
  channel := rfl
  sessions := rfl
  slots := rfl
  history := rfl
  nextRef := rfl
  places := by
    simp only [places, Table.update, List.map_map]
    refine List.map_congr_left fun entry _ => ?_
    simp only [Function.comp]
    split <;> rfl
  turns := rfl
  standing _ := .inl rfl

theorem cancels_requestCancel (n : Nat) (e : Engine) : Cancels e (e.requestCancel n) :=
  cancels_stop n true e

theorem cancels_settle (r : Ref) (e : Engine) : Cancels e (e.settle r .cancelled) where
  client := settle_client r _ e
  channel := settle_channel r _ e
  sessions := settle_sessions r _ e
  slots := settle_slots r _ e
  history := settle_history r _ e
  nextRef := settle_nextRef r _ e
  places := by rw [places, settle_tasks, places]
  turns := settle_turns r _ e
  standing r' := by
    rcases standing_settle r r' .cancelled e with h | ⟨rfl, hopen, h⟩
    · exact .inl h
    · exact .inr ⟨hopen, h⟩

/-- A group takes note that it has been cancelled. -/
theorem cancels_group (n : Nat) (e : Engine) : Cancels e
    { e with groups := e.groups.update n fun g => { g with cancelRequested := true } } where
  client := rfl
  channel := rfl
  sessions := rfl
  slots := rfl
  history := rfl
  nextRef := rfl
  places := rfl
  turns := rfl
  standing _ := .inl rfl

theorem cancels_members {bound : Nat}
    (h : ∀ (r : Ref) (e : Engine), Cancels e (cancelWithin bound r e).2) :
    ∀ (members : List Ref) (any : Bool) (e : Engine),
      Cancels e (members.foldl (fun (any, e) m =>
        let (hit, e) := cancelWithin bound m e
        (any || hit, e)) (any, e)).2
  | [], _, e => .refl e
  | m :: ms, _, e => (h m e).trans (cancels_members h ms _ _)

theorem cancels_cancelWithin : ∀ (bound : Nat) (r : Ref) (e : Engine),
    Cancels e (cancelWithin bound r e).2
  | 0, _, e => .refl e
  | bound + 1, r, e => by
      have ih := cancels_cancelWithin bound
      unfold cancelWithin
      split
      · exact .refl e
      · split
        · split
          · exact cancels_requestCancel _ e
          · rename_i p _
            have hp := ih p e
            split
            · rename_i h
              rwa [h] at hp
            · rename_i h
              rw [h] at hp
              exact hp.trans (cancels_requestCancel _ _)
        · simp only
          have hm := cancels_members ih
          split
          · exact (hm _ _ e).trans (cancels_group _ _)
          · exact hm _ _ e
        · exact cancels_settle _ e

theorem cancels_cancel (r : Ref) (e : Engine) : Cancels e (e.cancel r).2 :=
  cancels_cancelWithin _ r e

/-! ### Steps -/

/-- The message that opens a document on the server. -/
def didOpen (d : Document) : Json :=
  Message.notification (.str "textDocument/didOpen") d.openParams

/-- The message that tells the server of changes. -/
def didChange (d : Document) (changes : List ContentChange) : Json :=
  Message.notification (.str "textDocument/didChange") (d.changeParams changes)

/-- How a request may end. -/
inductive Ending (id : Nat) (e : Engine) : Outcome → Prop where
  | answered {o : Outcome} : e.outcome? (.answer id) = some o → Ending id e o
  | cancelled : Ending id e .cancelled
  | timedOut (method : String) (limit : Int) : Ending id e (.failure (.timedOut method limit))
  | closed (message : String) : Ending id e (.failure (.transportClosed message))
  | unsent {f : Failure} (method : String) :
      e.channel.sendFailure = some f → Ending id e (.failure (sendFailure method f))

/-- Nothing is sent of a document now. -/
def Idle (doc : Nat) (e : Engine) : Prop :=
  ∀ s, e.session? doc = some s →
    (!(e.client.ready && s.document.opened) || s.document.closed) = true ∨
      ∃ f, e.sendsRanges s.document = .error f

/-- A message that speaks for a document is handed over. -/
def speak (doc : Nat) (message : Json) (e : Engine) : Engine :=
  (e.note (.told doc message)).note (.handed message)

/-- The server has said what it can do. -/
def agree (capabilities : Json) (e : Engine) : Engine :=
  (e.onClient fun c => { c with capabilities }).note (.agreed capabilities)

/-- The request that begins the handshake. -/
def greeting (id : Nat) (params : Json) : Json :=
  Message.request (.nat id) (.str "initialize") params

/-- The notification that ends the handshake. -/
def initialized : Json := Message.notification (.str "initialized") (.obj [])

/-- A task that runs: its frames, innermost first, and the state of the engine. -/
abbrev Config := List Frame × Engine

/-- Who may make a request, and the frames that are left below it: a client that is ready, a question
    that was begun when it was, whoever was told to, and the handshake, which alone asks for
    `initialize`. -/
inductive Asks (e : Engine) (name : String) : List Frame → List Frame → Prop where
  | ready {st : List Frame} : e.client.ready = true → name ≠ "initialize" → Asks e name st st
  | late {st : List Frame} {f f' : Frame} {q : Nat × Feature × Nat} : f.question? = some q →
      f'.answers? = some q → name ≠ "initialize" → Asks e name (f :: st) (f' :: st)
  | resolving {st : List Frame} (completion : Completion) : name ≠ "initialize" →
      Asks e name (.begin (.completionInfo completion true) :: st) (.completionResolved completion :: st)
  | told {st : List Frame} (method params : Json) (limit : Int) :
      Asks e name (.begin (.request method params limit) :: st) st
  | handshake {st : List Frame} : name = "initialize" →
      Asks e name (.begin .handshake :: st) (.handshakeAnswered :: st)

/-- How it comes that a document's changes are sent: the slot is left alone, the work in it is
    cancelled, or the delay of the work is over. -/
inductive Clears (doc : Nat) : Config → Config → Prop where
  | kept (c : Config) : Clears doc c c
  | cancelled {st : List Frame} {e : Engine} : (e.cancelSlot doc).1 = true →
      Clears doc (st, e) (st, (e.cancelSlot doc).2)
  | elapsed {st : List Frame} {e : Engine} (slot : Nat) :
      Clears doc (.delayOver slot (.flush doc) :: st, e)
        (.workDone :: st, { e with slots := e.slots.erase slot })

/-- What sending the changes of a document comes to: nothing is sent now, the message is handed over,
    or the connection is closed. -/
inductive Sends (doc : Nat) : Config → Config → Prop where
  | idle {st : List Frame} {e : Engine} (text : Option (List Char)) :
      Idle doc (e.retext doc text) → Sends doc (st, e) (st, e.retext doc text)
  | told {st : List Frame} {e : Engine} {text : Option (List Char)} {s : Session} {ranges : Bool} :
      (e.retext doc text).session? doc = some s → e.client.ready = true →
      s.document.opened = true → s.document.closed = false → e.client.closed = false →
      e.sendsRanges s.document = .ok ranges →
      Sends doc (st, e)
        (.gate (.notify "textDocument/didChange")
            (didChange (s.document.beginFlush ranges).2 (s.document.beginFlush ranges).1)
            :: .changeSent :: st,
          ((e.retext doc text).onDocument doc fun _ => (s.document.beginFlush ranges).2).speak doc
            (didChange (s.document.beginFlush ranges).2 (s.document.beginFlush ranges).1))
  | closed {st : List Frame} {e : Engine} (text : Option (List Char)) (d : Document) :
      e.client.closed = true →
      Sends doc (st, e) (.changeSent :: st, (e.retext doc text).onDocument doc fun _ => d)

/-- Sending the changes of a document if any wait to be sent. -/
inductive Refreshes (doc : Nat) : Config → Config → Prop where
  | idle {st : List Frame} {e : Engine} : (e.cancelSlot doc).1 = false →
      Refreshes doc (st, e) (st, (e.cancelSlot doc).2)
  | sends {st : List Frame} {e : Engine} {c' : Config} : (e.cancelSlot doc).1 = true →
      Sends doc (st, (e.cancelSlot doc).2) c' → Refreshes doc (st, e) c'

/-- A task with such a stack may come to show diagnostics of the document. -/
def Presenting (doc : Nat) (st : List Frame) : Prop := ∃ f ∈ st, f.presents? = some doc

theorem presenting_cons {st : List Frame} {f : Frame} {doc : Nat} (h : f.presents? = some doc) :
    Presenting doc (f :: st) := ⟨f, List.mem_cons_self .., h⟩

/-- The answer to a question is no longer wanted. -/
def Stale (doc : Nat) (feature : Feature) (generation : Nat) (e : Engine) : Prop :=
  ∃ s, e.session? doc = some s ∧ s.staleGuard = true ∧ s.generation feature ≠ generation

/-- What may be noted of the questions about a document: that one is asked, how it ended, that what came
    of it was dropped, and which diagnostics were published. -/
inductive Remarks : List Frame → Engine → Event → Prop where
  | asked {st : List Frame} {e : Engine} {f : Frame} {doc generation : Nat} {feature : Feature} :
      f.question? = some (doc, feature, generation) →
      Remarks (f :: st) e (.asked doc feature generation)
  | answered {st : List Frame} {e : Engine} (doc : Nat) (feature : Feature) (generation : Nat)
      (o : Outcome) : Remarks st e (.answered doc feature generation o)
  | dropped {st : List Frame} {e : Engine} {f : Frame} {doc generation : Nat} {feature : Feature} :
      f.answers? = some (doc, feature, generation) → Stale doc feature generation e →
      Remarks (f :: st) e (.dropped doc feature generation)
  | superseded {st : List Frame} {e : Engine} {doc generation : Nat} :
      Stale doc .diagnostics generation e → Presenting doc st →
      Remarks st e (.dropped doc .diagnostics generation)
  | published {st : List Frame} {e : Engine} (doc generation : Nat) (diagnostics : List Json) :
      Presenting doc st → Remarks st e (.published doc generation diagnostics)

/-- Diagnostics may be shown that are still wanted. -/
def Wanted (doc : Nat) (superseding : Superseding) (e : Engine) : Prop :=
  ∀ generation, superseding = .after generation → ¬ Stale doc .diagnostics generation e

/-- What can happen while a task runs. -/
inductive Step : Config → Config → Prop where
  | agree {st : List Frame} {e e' : Engine} : Agrees e e' → Step (st, e) (st, e')
  | push {st : List Frame} {e : Engine} {f : Frame} : f.plain = true → Step (st, e) (f :: st, e)
  -- questions
  | pose {st : List Frame} {e : Engine} {doc : Nat} {s : Session} (feature : Feature) :
      e.session? doc = some s → (feature = .diagnostics → Presenting doc st) →
      Step (st, e) (st, (e.beginGeneration doc feature).2)
  | late {st : List Frame} {e : Engine} {f : Frame} {doc generation : Nat} {feature : Feature}
      {members : Members} {c' : Config} : f.question? = some (doc, feature, generation) →
      .posed doc feature generation ∈ e.history → e.client.ready = true →
      e.client.capabilities = .obj members → Refreshes doc (f :: st, e) c' → Step (st, e) c'
  | remark {st : List Frame} {e : Engine} {event : Event} : Remarks st e event →
      Step (st, e) (st, e.note event)
  | unasked {st : List Frame} {e : Engine} {f f' : Frame} {q : Nat × Feature × Nat} :
      f.question? = some q → f'.answers? = some q → Step (f :: st, e) (f' :: st, e)
  | shown {st : List Frame} {e : Engine} {doc : Nat} {superseding : Superseding}
      (presented : List PresentedDiagnostic) : Wanted doc superseding e → Presenting doc st →
      Step (st, e) (st, e.showDiagnostics doc superseding presented)
  | gathers {st : List Frame} {e : Engine} {f : Frame} (doc : Nat) (diagnostics : List Json)
      (fetches : List Ref) (fallback : Json) (superseding : Superseding) : f.presents? = some doc →
      Step (f :: st, e) (.actionsGathered doc diagnostics fetches fallback superseding :: st, e)
  -- frames
  | pop {st : List Frame} {e : Engine} {f : Frame} : f.request? = none → Step (f :: st, e) (st, e)
  -- promises and tasks
  | promise {st : List Frame} {e : Engine} {r : Ref} : r.sole = true → Step (st, e) (st, e.promise r)
  | gather {st : List Frame} {e : Engine} (members : List Ref) (tolerant : Bool) :
      Step (st, e) (st, (e.gather members tolerant).2)
  | settle {st : List Frame} {e e₁ : Engine} {r : Ref} {o : Outcome} : Agrees e e₁ → r.Free o →
      (∀ k, r = .group k → GroupEnds k o e) → (∀ id, r ≠ .answer id) →
      Step (st, e) (st, e₁.settle r o)
  | spawn {st : List Frame} {e : Engine} {op : Operation} : op.internal = true →
      Step (st, e) (st, (e.spawn op).2)
  | register {st : List Frame} {e : Engine} (r : Registration Subscriber) :
      Step (st, e) (st, e.register r)
  -- messages
  | call {st st' : List Frame} {e : Engine} {method params : Json} {name : String} (limit : Int) :
      Asks e name st st' → Message.requestMethod method = .ok name → e.client.closed = false →
      Step (st, e) (.gate (.request (e.enroll name).1 name limit)
          (Message.request (.nat (e.enroll name).1) method params) :: st',
        (e.enroll name).2.note (.handed (Message.request (.nat (e.enroll name).1) method params)))
  | transmit {st : List Frame} {e : Engine} (purpose : Purpose) (message : Json) :
      Step (.gate purpose message :: st, e) (.gate purpose message :: st,
        e.onChannel fun c => { c with sent := c.sent ++ [message] })
  | await {st : List Frame} {e : Engine} {f f' : Frame} {id : Nat} : f.gated = true →
      f.request? = some id → f'.request? = some id → f'.gated = false → f'.call? = f.call? →
      Step (f :: st, e) (f' :: st, e)
  | abandon {st : List Frame} {e e₁ : Engine} {f f' : Frame} {id : Nat} : f.request? = some id →
      f'.request? = some id → f'.hopes = false → Agrees e e₁ →
      (f'.call? = none ∨ f'.call? = f.call?) →
      Step (f :: st, e) (f' :: st, e₁.settle (.answer id) .cancelled)
  | endRequest {st : List Frame} {e : Engine} {f : Frame} {id : Nat} {o : Outcome} :
      f.request? = some id → Ending id e o →
      Step (f :: st, e) (st, (e.onClient (·.discharge id)).note (.returned id o))
  | reply {st : List Frame} {e : Engine} (id : Json) :
      Step (.begin (.reply id) :: st, e) (.gate (.reply id) (Message.response id .null) :: st,
        e.note (.handed (Message.response id .null)))
  | notify {st : List Frame} {e : Engine} {method params : Json} {name : String} :
      Message.notifyMethod method = .ok name → e.client.closed = false →
      Step (.begin (.notify method params) :: st, e)
        (.gate (.notify name) (Message.notification method params) :: st,
          e.note (.handed (Message.notification method params)))
  | read {st : List Frame} {e : Engine} : Step (.begin .read :: st, e) (.received :: st, e)
  | unload {st : List Frame} {e : Engine} (rest : List Inbound) :
      Step (.received :: st, e) (.received :: st, e.onChannel fun c => { c with inbox := rest })
  | take {st : List Frame} {e : Engine} {m : Json} : Message.isResponse m = false →
      Message.isServerRequest m = false →
      Step (.received :: st, e) (.received :: st, e.note (.taken m))
  | oblige {st : List Frame} {e e' : Engine} {m : Json} : Message.isServerRequest m = true →
      Agrees (e.note (.taken m)) e' →
      Step (.received :: st, e)
        (.received :: st, (e'.spawn (.reply (Json.ofOption (m.member? "id")))).2)
  | respond {st : List Frame} {e e' : Engine} {m : Json} : Message.isResponse m = true →
      (e.note (.taken m)).resolve (Json.ofOption (m.member? "id")) m = .ok e' →
      Step (.received :: st, e) (.received :: st, e')
  | notified {st : List Frame} {e : Engine} (x : Subscriber) (method params : Json) :
      Step (.received :: st, e) (.received :: st, e.note (.notified x method params))
  -- the connection
  | startReader {st : List Frame} {e : Engine} : Step (st, e) (st, e.startReader)
  | handshake {st : List Frame} {e : Engine} : Step (st, e) (st, e.startHandshake.2)
  | agreed {st : List Frame} {e : Engine} (capabilities result : Json) : e.client.closed = false →
      Step (.handshakeAnswered :: st, e)
        (.gate (.notify "initialized") initialized :: .handshakeAnnounced result :: st,
          (e.agree capabilities).note (.handed initialized))
  | agreedClosed {st : List Frame} {e : Engine} (capabilities result : Json) :
      e.client.closed = true →
      Step (.handshakeAnswered :: st, e) (.handshakeAnnounced result :: st, e.agree capabilities)
  | ready {st : List Frame} {e : Engine} (result : Json) :
      Step (.handshakeAnnounced result :: st, e) (st, e.onClient fun c => { c with ready := true })
  | close {st : List Frame} {e : Engine} :
      Step (.begin .close :: st, e)
        (.hungUp :: st, e.onClient fun c => { c with closed := true, ready := false })
  | cancelReader {st : List Frame} {e : Engine} {r : Ref} : e.client.reader = some r →
      Step (.hungUp :: st, e) (.hungUp :: st, (e.cancel r).2)
  | join {st : List Frame} {e : Engine} : Step (.hungUp :: st, e) (.readerJoined :: st, e)
  | joined {st : List Frame} {e : Engine} (message : String) :
      Step (.readerJoined :: st, e)
        (st, (e.failPending (.transportClosed message)).note .closingEnded)
  | joinedFailed {st : List Frame} {e : Engine} {r : Ref} {f : Failure} :
      e.client.reader = some r → e.outcome? r = some (.failure f) →
      Step (.readerJoined :: st, e) (st, e.note .closingEnded)
  | shutDown {st : List Frame} {e : Engine} : Step (.received :: st, e) (st, e.shutDown)
  | crash {st : List Frame} {e e' : Engine} {m : Json} : Message.isServerRequest m = false →
      Agrees (e.note (.taken m)) e' → Step (.received :: st, e) (st, e'.shutDown)
  -- documents
  | preset {st : List Frame} {e : Engine} (doc : Nat) (text : Option (List Char)) :
      Step (.begin (.openDocument doc text) :: st, e) (.readyToOpen doc :: st, e.preset doc text)
  | opening {st : List Frame} {e : Engine} {doc : Nat} {s : Session} {v : Value} :
      e.handshakeOutcome = .value v → e.session? doc = some s → s.document.closed = false →
      e.client.closed = false →
      Step (.readyToOpen doc :: st, e)
        (.gate (.notify "textDocument/didOpen") (didOpen s.document)
            :: .openSent doc s.document.text :: st,
          e.speak doc (didOpen s.document))
  | openingClosed {st : List Frame} {e : Engine} {doc : Nat} (sent : List Char) :
      e.client.closed = true → Step (.readyToOpen doc :: st, e) (.openSent doc sent :: st, e)
  | opened {st : List Frame} {e : Engine} (doc : Nat) (sent : List Char) :
      Step (.openSent doc sent :: st, e) (st, e.noteOpened doc sent)
  | edit {st : List Frame} {e : Engine} {doc : Nat} {s : Session} (text : List Char)
      (changes : Option (List Change)) : e.session? doc = some s → s.hook ≠ .none →
      Step (st, e) (st, (e.scheduleChange doc text changes).2)
  | delay {st : List Frame} {e : Engine} (slot : Nat) (ms : Int) (work : Work) :
      Step (.begin (.debounced slot ms work) :: st, e) (.delayOver slot work :: st, e)
  | rehearse {st : List Frame} {e : Engine} (slot : Nat) (name : String) (takes : Int)
      (fails : Option Failure) :
      Step (.delayOver slot (.rehearsal name takes fails) :: st, e)
        (.workDone :: st, { e with slots := e.slots.erase slot })
  | unscheduled {st : List Frame} {e : Engine} {doc : Nat} : (e.cancelSlot doc).1 = false →
      Step (st, e) (st, (e.cancelSlot doc).2)
  | flush {c c₁ c' : Config} {doc : Nat} : Clears doc c c₁ → Sends doc c₁ c' → Step c c'

theorem Refreshes.step {doc : Nat} {c c' : Config} (h : Refreshes doc c c') : Step c c' := by
  cases h with
  | idle hnone => exact .unscheduled hnone
  | sends hsome hs => exact .flush (.cancelled hsome) hs

/-- A promise is settled that no group is waiting for. -/
theorem Step.settle_free {st : List Frame} {e : Engine} {r : Ref} {o : Outcome} (h : r.Free o)
    (hr : ∀ k, r ≠ .group k)
    (ha : ∀ id, r ≠ .answer id) : Step (st, e) (st, e.settle r o) :=
  .settle (.refl e) h (fun k hk => absurd hk (hr k)) ha

/-- Any number of steps. -/
abbrev Path : Config → Config → Prop := Relation.ReflTransGen Step

end Engine

end LanguageClient
