import LanguageClient.Proofs.Client.Chronicle
import LanguageClient.Proofs.Engine.Errands
import LanguageClient.Proofs.Engine.Inquiries

/-!
What endures in every run. The task of the reader is known by its frames, and when it ends it has shut
the client, unless it was cancelled before it began (`Shuts`). Something that every step preserves,
that does not depend on which task has which frames, that outlasts the end of a task, and that the
outside leaves alone (`Aside`), is `Enduring`: it holds in every state that a client can come to.

    step by step ──▶ run of a task ──▶ end of the task ──▶ the outside ──▶ …
-/

namespace LanguageClient.Engine

variable {c c' : Config} {st st' : List Frame} {e e' : Engine} {frame : String} {m : Nat}

/-! ### The reader's task -/

/-- The frames of the reader's task. -/
def Attends (st : List Frame) : Prop := st = [.begin .read] ∨ st = [.received]

theorem leaves_readerFails (x : Failure) (e : Engine) : Leaves Attends (e.readerFails x) := by
  unfold readerFails
  split <;> trivial

theorem leaves_readAll : ∀ (xs : List Inbound) (e : Engine), Leaves Attends (readAll xs e)
  | [], e => by
      unfold readAll
      split
      · trivial
      · exact .inr rfl
  | .eof :: _, _ => trivial
  | .failure x :: _, _ => leaves_readerFails x _
  | .frame frame :: rest, e => by
      rw [readAll_frame]
      split
      · exact leaves_readerFails _ _
      · exact leaves_readAll rest _

theorem leaves_received (o : Outcome) (e : Engine) : Leaves Attends (received o e) := by
  cases o with
  | value v => exact leaves_readAll _ e
  | failure x => exact leaves_readerFails x e
  | cancelled => trivial

/-- The reader's task is to begin, or waits for what arrives. -/
theorem abides_attends : Abides .reader Attends where
  begins := .inl rfl
  leaves o e h := by
    rcases h with rfl | rfl
    · rw [unwind_singleton]
      cases o with
      | cancelled => trivial
      | value v => exact leaves_readAll _ e
      | failure x => exact leaves_readAll _ e
    · rw [unwind_singleton]
      exact leaves_received o e

/-- The run of a reader has shut the client if it ends, unless it was cancelled. -/
def Shuts : Run → Prop
  | (e, .done o) => o = .cancelled ∨ Discharged e
  | _ => True

theorem shuts_readerFails (x : Failure) (h : Promised e) : Shuts (e.readerFails x) := by
  obtain ⟨e', o, heq, hclosed, _, _, hsettled⟩ := readerFails_over x h
  rw [heq]
  exact .inr ⟨hclosed, hsettled⟩

theorem shuts_readAll : ∀ (xs : List Inbound) {e : Engine}, Correlated ([.received], e) →
    Shuts (readAll xs e)
  | [], e, h => by
      unfold readAll
      split
      · exact .inr h.promised.discharged_shutDown
      · trivial
  | x :: rest, e, h => by
      have hp : Promised (e.onChannel fun c => { c with inbox := rest }) :=
        h.promised.congr rfl fun _ => rfl
      cases x with
      | eof => exact .inr hp.discharged_shutDown
      | failure x => exact shuts_readerFails x hp
      | frame frame =>
        rw [readAll_frame]
        cases ht : takeUp frame rest e with
        | error x =>
          obtain ⟨hc, hs⟩ := noteFrame_same frame (e.onChannel fun c => { c with inbox := rest })
          exact shuts_readerFails x (hp.congr hc hs)
        | ok e' => exact shuts_readAll rest (h.path (path_takeUp ht))

theorem shuts_unwind (hst : Attends st) (h : Correlated (st, e)) (o : Outcome) :
    Shuts (unwind st o e) := by
  rcases hst with rfl | rfl
  · have hread : Shuts e.read := shuts_readAll _ (h.step .read)
    rw [unwind_singleton]
    cases o with
    | cancelled => exact .inl rfl
    | value v => exact hread
    | failure x => exact hread
  · rw [unwind_singleton]
    cases o with
    | cancelled => exact .inl rfl
    | value v => exact shuts_readAll _ h
    | failure x => exact shuts_readerFails x h.promised

/-! ### The outside -/

/-- What the outside does apart from letting tasks run: it calls nothing and answers nothing, and notes
    at most the texts of documents, but tasks may be begun and asked to stop. -/
structure Aside (e e' : Engine) : Prop where
  inward : Notes Event.inward e e'
  aloof : Aloof e e'
  lasts : Lasts e e'
  pending : e'.client.pending = e.client.pending
  lastId : e'.client.lastId = e.client.lastId
  sent : e'.channel.sent = e.channel.sent
  answers : ∀ id, e'.standing (.answer id) = e.standing (.answer id) ∨
    (e.standing (.answer id) = some none ∧
      ∃ o, e'.standing (.answer id) = some (some o) ∧ o.unanswered = true)
  held : ∃ ops : List Operation, e'.held = e.held ++ ops.map .begin

theorem aside_of_calm (hc : Calm e e') (hs : Notes Event.inward e e') (ha : Aloof e e')
    (hl : Lasts e e') (hg : Grows e e') : Aside e e' := by
  obtain ⟨ops, hheld, _⟩ := hg.held
  exact ⟨hs, ha, hl, hc.pending, hc.lastId, hc.sent, hc.answers, ops, hheld⟩

theorem aside_tallies (h : Tallies e e') : Aside e e' :=
  aside_of_calm (calm_tallies h) (still_tallies h).notes (aloof_tallies h) (.of_tallies h) (.of_tallies h)

theorem aside_cancels (h : Cancels e e') : Aside e e' :=
  aside_of_calm (calm_cancels h) (still_cancels h).notes (aloof_cancels h) (.of_cancels h) (.of_cancels h)

theorem aside_spawn (hn : Numbered e) (op : Operation) : Aside e (e.spawn op).2 :=
  ⟨(still_spawn op e).notes, aloof_of_eq rfl rfl, lasts_spawn op e, rfl, rfl, rfl, (calm_spawn op e).answers,
    [op], hn.held_spawn op⟩

theorem aside_scheduleChange (hn : Numbered e) (doc : Nat) (text : List Char)
    (changes : Option (List Change)) : Aside e (e.scheduleChange doc text changes).2 :=
  aside_of_calm (calm_scheduleChange doc text changes e) (inward_scheduleChange doc text changes e)
    (aloof_scheduleChange doc text changes e) (lasts_scheduleChange doc text changes e) (hn.grows_scheduleChange doc text changes)

theorem aside_closing {doc : Nat}
    (h : Cancels ((e.onDocument doc fun d => { d with closed := true }).cancelSlot doc).2 e') :
    Aside e e' :=
  aside_of_calm
    (((calm_onDocument doc _ e).trans (calm_cancelSlot doc _)).trans (calm_cancels h))
    (((still_onDocument doc _ e).trans (still_cancelSlot doc _)).trans (still_cancels h)).notes
    (((aloof_onDocument doc _ e).trans (aloof_cancelSlot doc _)).trans (aloof_cancels h))
    (((lasts_onDocument doc _ e).trans (lasts_cancelSlot doc _)).trans (.of_cancels h))
    (grows_closing h)

theorem aside_failSends (f : Option { f : Failure // f.isRefusal = false }) (e : Engine) : Aside e (e.act (.failSends f)) :=
  ⟨Still.notes (still_of_eq rfl rfl fun _ _ ho => .inl ho), aloof_of_eq rfl rfl,
    .of_eq (Nat.le_refl _) rfl rfl, rfl, rfl, rfl, fun _ => .inl rfl, [], (List.append_nil _).symm⟩

/-- A further document is there, and not yet attached. -/
theorem aside_addSession (s : Session) (e : Engine) :
    Aside e { e with sessions := e.sessions ++ [s] } := by
  have haloof : Aloof e { e with sessions := e.sessions ++ [s] } :=
    ⟨by simp, [], (List.append_nil _).symm, by simp⟩
  exact aside_of_calm (calm_of_eq rfl rfl rfl rfl rfl rfl fun _ => rfl)
    (Still.notes (still_of_eq rfl rfl fun _ _ ho => .inl ho)) haloof (.of_eq (Nat.le_refl _) rfl rfl)
    (.of_tasks rfl (Nat.le_refl _) rfl)

theorem Correlated.addSession (h : Correlated ([], e)) (s : Session) :
    Correlated ([], { e with sessions := e.sessions ++ [s] }) :=
  h.calm (calm_of_eq rfl rfl rfl rfl rfl rfl fun _ => rfl) (.of_tasks rfl (Nat.le_refl _) rfl) rfl

/-- Apart from letting a task go on, the outside does something aside, and then what any task could
    do. -/
theorem Correlated.act_cases {a : Action} (h : Correlated ([], e)) (ha : a ≠ .run) :
    ∃ e₁, Aside e e₁ ∧ Correlated ([], e₁) ∧ Path ([], e₁) ([], e.act a) := by
  have hinner {a : Action} (ha : a.inner = true) :
      ∃ e₁, Aside e e₁ ∧ Correlated ([], e₁) ∧ Path ([], e₁) ([], e.act a) :=
    ⟨e, aside_tallies (.refl e), h, path_act ha⟩
  cases a with
  | run => exact absurd rfl ha
  | «begin» op => exact ⟨_, aside_spawn h.numbered op, h.act (.begin op), .refl⟩
  | cancel r => exact ⟨_, aside_cancels (cancels_cancel r e), h.act (.cancel r), .refl⟩
  | failSends f => exact ⟨_, aside_failSends f e, h.act (.failSends f), .refl⟩
  | addSession s =>
    exact ⟨_, aside_addSession s e, h.addSession s,
      .single (.register (.attach (.document e.sessions.length)))⟩
  | scheduleChange doc text changes =>
    exact ⟨_, aside_scheduleChange h.numbered doc text changes,
      h.act (.scheduleChange doc text changes), .refl⟩
  | viewChanged doc text changes =>
    exact ⟨_, aside_scheduleChange h.numbered doc text changes,
      h.act (.scheduleChange doc text changes), path_viewChanged doc text changes⟩
  | closeSession doc =>
    change ∃ e₁, Aside e e₁ ∧ Correlated ([], e₁) ∧ Path ([], e₁) ([], e.closeSession doc)
    rcases closeSession_cases doc e with ⟨heq, _⟩ | ⟨s, e₁, _, _, hcancel, heq⟩
    · rw [heq]
      exact ⟨e, aside_tallies (.refl e), h, .refl⟩
    · rw [heq]
      exact ⟨e₁, aside_closing hcancel, h.closing hcancel, path_detach _⟩
  | _ => exact hinner rfl

/-! ### Invariants -/

/-- What is known of every state: how the requests stand, and where the reader's task does. -/
structure Attended (e : Engine) : Prop where
  correlated : Correlated ([], e)
  reader : Stands .reader Attends none e

theorem Attended.act (h : Attended e) (a : Action) : Attended (e.act a) :=
  ⟨h.correlated.act a, h.reader.act abides_attends h.correlated.numbered a⟩

theorem attended_create (options : ClientOptions) (script : ServerScript) :
    Attended (create options script) :=
  ⟨correlated_create options script, fun _ hr => by cases hr⟩

theorem Attended.after : ∀ (actions : List Action) {e : Engine}, Attended e →
    Attended (e.after actions)
  | [], _, h => h
  | a :: rest, _, h => (h.act a).after rest

/-- Something that every run of a task preserves: every step, the choice of the task, and its rest. -/
structure Persists (I : Config → Prop) : Prop where
  step : ∀ {c c' : Config}, I c → Correlated c → Step c c' → I c'
  tallies : ∀ {e e' : Engine}, I ([], e) → Tallies e e' → I ([], e')
  cancels : ∀ {e e' : Engine}, I ([], e) → Cancels e e' → I ([], e')
  move : ∀ {st st' : List Frame} {e : Engine} {tasks : Table Nat Task}, I (st, e) →
    (frames (st', { e with tasks })).Perm (frames (st, e)) → I (st', { e with tasks })
  ends : ∀ {e : Engine} {m : Nat} {o : Outcome}, I ([], e) →
    (e.client.reader = some (.task m) → o = .cancelled ∨ Discharged e) → I ([], e.settle (.task m) o)

namespace Persists

variable {I : Config → Prop}

theorem path (hI : Persists I) (h : I c) (hc : Correlated c) (hp : Path c c') : I c' := by
  induction hp with
  | refl => exact h
  | tail hp hs ih => exact hI.step ih (hc.path hp) hs

theorem rests {run : Run} (hI : Persists I) (h : I (reached run)) (hn : Numbered (reached run).2)
    (hr : Running m (reached run).2)
    (hs : (reached run).2.client.reader = some (.task m) → Shuts run) (hrest : Rests m run e) :
    I ([], e) := by
  have hkeep {st : List Frame} {e e' : Engine} {waiting : Option Ref} (h : I (st, e))
      (hn : Numbered e) (hr : Running m e) (ha : Tallies (e.keep m st waiting) e') : I ([], e') :=
    hI.tallies (hI.move h (held_keep hn hr st waiting)) ha
  cases hrest with
  | ended o =>
    refine hI.ends (hI.move h (held_erase hn hr)) fun hreader => ?_
    exact (hs hreader).imp id fun hdischarged => ⟨hdischarged.closed, hdischarged.settled⟩
  | waits ha hc => exact hI.cancels (hkeep h hn hr ha.toTallies) hc
  | pauses ha => exact hkeep h hn hr ha

theorem runTask {t : Task} (hI : Persists I) (h : I ([], e)) (ha : Attended e)
    (ht : e.tasks.get? m = some t) (o : Outcome) : I ([], e.runTask m t o) := by
  have hc := ha.correlated
  have hpick := hc.pick ht
  have hp := path_reached (leads_unwind t.frames (if t.cancelRequested then .cancelled else o)
    (e.pick m))
  have hg := Path.grows hp hpick.numbered
  have hstart : I (t.frames, e.pick m) := hI.move h (frames_pick hc.numbered ht)
  refine hI.rests (hI.path hstart hpick hp) (hpick.numbered.grows hg)
    ((running_pick m e).grows hg) (fun hreader => ?_) (rests_runTask m t o e)
  exact shuts_unwind (ha.reader.frames hc.numbered ht hreader) hpick _

theorem runNext (hI : Persists I) (h : I ([], e)) (ha : Attended e) : I ([], e.runNext) := by
  obtain ⟨e₁, hagrees, hrun⟩ := runNext_cases e
  have hg := Grows.of_tallies hagrees
  have ha₁ : Attended e₁ := ⟨ha.correlated.calm (calm_tallies hagrees) hg rfl,
    ha.reader.grows abides_attends ha.correlated.numbered hg⟩
  have h₁ := hI.tallies h hagrees
  rcases hrun with hp | ⟨m, t, ht, heq⟩
  · exact hI.path h₁ ha₁.correlated hp
  · rw [heq]
    exact hI.runTask h₁ ha₁ ht _

end Persists

/-- Something that every step preserves, whoever runs, and everything else that happens. -/
structure Enduring (I : Config → Prop) : Prop where
  step : ∀ {c c' : Config}, I c → Correlated c → Step c c' → I c'
  aside : ∀ {e e' : Engine}, I ([], e) → Aside e e' → I ([], e')
  move : ∀ {st st' : List Frame} {e : Engine} {tasks : Table Nat Task}, I (st, e) →
    (frames (st', { e with tasks })).Perm (frames (st, e)) → I (st', { e with tasks })
  ends : ∀ {e : Engine} {m : Nat} {o : Outcome}, I ([], e) →
    (e.client.reader = some (.task m) → o = .cancelled ∨ Discharged e) → I ([], e.settle (.task m) o)

namespace Enduring

variable {I : Config → Prop}

theorem persists (hI : Enduring I) : Persists I where
  step := hI.step
  tallies h ha := hI.aside h (aside_tallies ha)
  cancels h hc := hI.aside h (aside_cancels hc)
  move := hI.move
  ends := hI.ends

theorem act (hI : Enduring I) (h : I ([], e)) (ha : Attended e) (a : Action) : I ([], e.act a) := by
  by_cases hrun : a = .run
  · rw [hrun]
    exact hI.persists.runNext h ha
  · obtain ⟨e₁, haside, hc, hp⟩ := ha.correlated.act_cases hrun
    exact hI.persists.path (hI.aside h haside) hc hp

/-- What endures holds in every later state. -/
theorem after (hI : Enduring I) : ∀ (actions : List Action) {e : Engine}, I ([], e) → Attended e →
    I ([], e.after actions)
  | [], _, h, _ => h
  | a :: rest, _, h, ha => hI.after rest (hI.act h ha a) (ha.act a)

end Enduring

end LanguageClient.Engine
