import LanguageClient.Proofs.Client.Begun
import LanguageClient.Proofs.Client.Closing

/-!
A client that is closed when no one is attached any more. Whoever is detached last leaves a task behind
that closes the client (`Dismissed`), and apart from the outside and from a reader that ends, nothing
else closes it. The task runs later, and closes whoever has been attached by then.

    detach x ──▶ begin close ── … ──▶ closed            no one is attached
    detach x ──▶ begin close ── attach y ──▶ closed     y is attached
-/

namespace LanguageClient

namespace Registry

variable {α : Type} [DecidableEq α]

/-- Without a call that attaches no one is attached. -/
theorem registered_eq_nil {rs : List (Registration α)} (h : ∀ x, .attach x ∉ rs) :
    registered [] rs = [] := by
  induction rs using List.reverseRecOn with
  | nil => rfl
  | append_singleton rs r ih =>
    rw [registered_concat, ih fun x hx => h x (List.mem_append_left _ hx)]
    cases r with
    | attach x => exact absurd (List.mem_append_right _ (List.mem_singleton_self _)) (h x)
    | detach x => simp [register, detach]

/-- The only member is detached, and what counts is what follows. -/
theorem registered_dismissed {past since : List (Registration α)} {x : α}
    (h : registered [] past = [x]) :
    registered [] (past ++ .detach x :: since) = registered [] since := by
  have hdetach : register [x] (.detach x) = [] := by simp [register, detach]
  rw [registered, List.foldl_append, List.foldl_cons]
  change List.foldl register ((registered [] past).register (.detach x)) since = _
  rw [h, hdetach]
  rfl

end Registry

/-- Someone was detached who was the only one attached. -/
def Dismissed (history : List Event) : Prop :=
  ∃ past x since, history = past ++ .registered (.detach x) :: since ∧
    Registry.registered [] (registrations past) = [x]

theorem Dismissed.append {history : List Event} (h : Dismissed history) (more : List Event) :
    Dismissed (history ++ more) := by
  obtain ⟨past, x, since, rfl, hpast⟩ := h
  exact ⟨past, x, since ++ more, by rw [List.append_assoc, List.cons_append], hpast⟩

theorem mem_registrations {history : List Event} {r : Registration Subscriber} :
    r ∈ registrations history ↔ .registered r ∈ history := by
  rw [registrations, List.mem_filterMap]
  constructor
  · rintro ⟨event, hmem, hr⟩
    cases event with
    | registered r' =>
      obtain rfl : r' = r := Option.some.inj hr
      exact hmem
    | _ => cases hr
  · exact fun hmem => ⟨_, hmem, rfl⟩

namespace Engine

variable {c c' : Config} {e e' : Engine}

/-- Whoever is about to close the client has been left to do so by the last who was detached. -/
def Founded (c : Config) : Prop := .begin .close ∈ frames c → Dismissed c.2.history

theorem Founded.lasts {st : List Frame} (h : Founded c) (hl : Lasts c.2 e')
    (hf : .begin .close ∈ frames (st, e') → .begin .close ∈ frames c) : Founded (st, e') := by
  intro hmem
  obtain ⟨more, hh⟩ := hl.history
  change Dismissed e'.history
  rw [hh]
  exact (h (hf hmem)).append more

/-- Among the tasks that are begun none closes the client. -/
theorem Starts.held (h : Starts e e') (hmem : .begin .close ∈ e'.held) : .begin .close ∈ e.held := by
  obtain ⟨new, hb, hnew⟩ := h
  rw [hb.held, List.mem_append] at hmem
  refine hmem.resolve_right fun hmem => ?_
  obtain ⟨x, hx, heq⟩ := List.mem_map.mp hmem
  exact hnew x hx (Frame.begin.inj heq)

theorem Empties.dismissed (h : Empties e e') (hl : Listed e) : Dismissed e'.history := by
  obtain ⟨x, hx, hh⟩ := h
  exact ⟨e.history, x, [], hh, hl.symm.trans hx⟩

theorem Founded.step (h : Founded c) (hl : Listed c.2) (hn : Numbered c.2) (hs : Step c c') :
    Founded c' := by
  rcases hs.starts hn with hstarts | ⟨_, hempties⟩
  · refine h.lasts hs.lasts fun hmem => ?_
    rcases List.mem_append.mp hmem with hmem | hmem
    · exact List.mem_append_left _ (hs.fewer _ hmem)
    · exact List.mem_append_right _ (hstarts.held hmem)
  · exact fun _ => hempties.dismissed hl

theorem Founded.starts (h : Founded ([], e)) (hs : Starts e e') (hl : Lasts e e') :
    Founded ([], e') := h.lasts hl hs.held

theorem persists_founded : Persists fun c => Founded c ∧ Listed c.2 where
  step h hc hs := ⟨h.1.step h.2 hc.numbered hs, enduring_listed.step h.2 hc hs⟩
  tallies h ha := by
    refine ⟨h.1.lasts (.of_tallies ha) fun hmem => ?_, enduring_listed.persists.tallies h.2 ha⟩
    rwa [frames, held, ha.tasks] at hmem
  cancels h hc := ⟨h.1.starts (.nothing (launches_cancels hc)) (.of_cancels hc),
    enduring_listed.persists.cancels h.2 hc⟩
  move h hperm := ⟨fun hmem => h.1 (hperm.mem_iff.mp hmem), h.2⟩
  ends {e m o} h hends := by
    refine ⟨h.1.lasts (lasts_settle (.task m) o e) fun hmem => ?_, enduring_listed.ends h.2 hends⟩
    rwa [frames, held, settle_tasks] at hmem

/-- As long as the outside does not close the client. -/
theorem Founded.act (h : Founded ([], e)) (hl : Listed e) (ha : Attended e) {a : Action}
    (hclose : a ≠ .begin .close) : Founded ([], e.act a) := by
  by_cases hrun : a = .run
  · rw [hrun]
    exact (persists_founded.runNext ⟨h, hl⟩ ha).1
  · by_cases hbegin : ∃ op, a = .begin op
    · obtain ⟨op, rfl⟩ := hbegin
      refine h.lasts (lasts_spawn op e) fun hmem => ?_
      have hmem : .begin .close ∈ (e.spawn op).2.held := hmem
      rw [ha.correlated.numbered.held_spawn, List.mem_append, List.mem_singleton] at hmem
      refine hmem.resolve_right fun heq => hclose ?_
      rw [← Frame.begin.inj heq]
    · obtain ⟨e₁, hstarts, haside, hc, hp⟩ :=
        ha.correlated.act_starts hrun fun op heq => hbegin ⟨op, heq⟩
      exact (persists_founded.path
        ⟨h.starts hstarts haside.lasts, enduring_listed.aside hl haside⟩ hc hp).1

theorem Founded.after (h : Founded ([], e)) (hl : Listed e) (ha : Attended e)
    {actions : List Action} (hclose : .begin .close ∉ actions) :
    Founded ([], e.after actions) := by
  induction actions generalizing e with
  | nil => exact h
  | cons a rest ih =>
    rw [List.mem_cons, not_or] at hclose
    exact ih (h.act hl ha (Ne.symm hclose.1)) (enduring_listed.act hl ha a) (ha.act a) hclose.2

/-! ### Who closes -/

/-- A client that has been closed meanwhile was closed by a task for that, or by a reader that ended. -/
theorem Path.closes (hp : Path c c') (hopen : c.2.client.closed = false)
    (hclosed : c'.2.client.closed = true) :
    .begin .close ∈ c.1 ∨ .readerEnded ∈ c'.2.history := by
  induction hp with
  | refl =>
    rw [hopen] at hclosed
    cases hclosed
  | @tail c₁ c' hp hs ih =>
    by_cases hbefore : c₁.2.client.closed = true
    · obtain ⟨more, hh⟩ := hs.lasts.history
      rw [hh]
      exact (ih hbefore).imp id (List.mem_append_left _)
    · rcases hs.flags_cases with hsame | ⟨hcloses, _⟩ | ⟨_, hsame⟩
      · exact absurd (hsame.2.symm.trans hclosed) hbefore
      · exact hcloses.imp (Path.fewer hp _) And.right
      · exact absurd (hsame.symm.trans hclosed) hbefore

theorem Founded.closes_runTask {m : Nat} {t : Task} {o : Outcome} (h : Founded ([], e))
    (ht : e.tasks.get? m = some t) (hopen : e.client.closed = false)
    (hclosed : (e.runTask m t o).client.closed = true)
    (hreader : .readerEnded ∉ (e.runTask m t o).history) : Dismissed e.history := by
  have hp := path_reached (leads_unwind t.frames (if t.cancelRequested then .cancelled else o)
    (e.pick m))
  have hrest := rests_runTask m t o e
  rcases Path.closes hp hopen ((sameFlags_rests hrest).2.symm.trans hclosed) with hmem | hended
  · exact h (List.mem_append_right _ (List.mem_flatMap.mpr ⟨_, Table.mem_of_get? ht, hmem⟩))
  · obtain ⟨more, hh⟩ := hrest.lasts.history
    rw [hh] at hreader
    exact absurd (List.mem_append_left _ hended) hreader

/-- The client is closed while it runs: either its reader ended, or someone was detached who was the
    only one attached. -/
theorem Founded.closes (h : Founded ([], e)) {a : Action} (hopen : e.client.closed = false)
    (hclosed : (e.act a).client.closed = true) (hreader : .readerEnded ∉ (e.act a).history) :
    Dismissed e.history := by
  by_cases hrun : a = .run
  · rw [hrun] at hclosed hreader
    obtain ⟨e₁, ha, hcases⟩ := runNext_cases e
    have hopen₁ : e₁.client.closed = false := by rw [ha.client, hopen]
    rcases hcases with hp | ⟨m, t, ht, heq⟩
    · rcases Path.closes hp hopen₁ hclosed with hmem | hended
      · cases hmem
      · exact absurd hended hreader
    · change (e.runNext).client.closed = true at hclosed
      change .readerEnded ∉ (e.runNext).history at hreader
      rw [heq] at hclosed hreader
      have hfounded : Founded ([], e₁) := by
        refine h.lasts (.of_tallies ha) fun hmem => ?_
        rwa [frames, held, ha.tasks] at hmem
      rw [← ha.history]
      exact hfounded.closes_runTask ht hopen₁ hclosed hreader
  · rw [(sameFlags_act hrun e).2, hopen] at hclosed
    cases hclosed

theorem failPending_channel (f : Failure) (e : Engine) : (e.failPending f).channel = e.channel := by
  unfold failPending
  generalize e.client.pending = pending
  induction pending generalizing e with
  | nil => rfl
  | cons entry rest ih => exact (ih _).trans (settle_channel entry.2 (.failure f) e)

theorem readerJoined_channel (o : Outcome) (e : Engine) : (readerJoined o e).1.channel = e.channel := by
  unfold readerJoined
  split
  · rfl
  · rfl
  · exact failPending_channel _ e

theorem hungUp_channel (o : Outcome) (e : Engine) : (hungUp o e).1.channel = e.channel := by
  cases o with
  | failure f => rfl
  | cancelled => rfl
  | value v =>
    unfold hungUp
    simp only
    split
    · exact readerJoined_channel _ e
    · rename_i r _
      have hc := (cancels_cancel r e).channel
      split
      · exact (readerJoined_channel _ _).trans hc
      · exact hc

theorem arrive_closed (x : Inbound) (e : Engine) :
    (e.arrive x).channel.closed = e.channel.closed := by
  unfold arrive
  simp only
  split
  · rw [settle_channel]
    rfl
  · rfl

/-- Afterwards the connection is closed, or is being closed. -/
theorem disconnect_channel (e : Engine) : e.disconnect.1.channel.closed = true := by
  unfold disconnect
  split
  · assumption
  · rename_i hopen
    split
    · rfl
    · rw [closeChannel, if_neg hopen]
      exact arrive_closed .eof _

/-- Whoever closes an open client closes its connection with it. -/
theorem close_channel (h : e.client.closed = false) : e.close.1.channel.closed = true := by
  have hd := disconnect_channel (e.onClient fun c => { c with closed := true, ready := false })
  unfold close
  rw [h]
  simp only [Bool.false_eq_true, if_false]
  generalize (e.onClient fun c => { c with closed := true, ready := false }).disconnect = run at hd
  obtain ⟨e₁, o | ⟨p, frames⟩ | frames⟩ := run
  · exact (congrArg Channel.closed (hungUp_channel o e₁)).trans hd
  · exact hd
  · exact hd

/-- The outside does not close the client, and its reader has not ended: if the client is closed all
    the same, then someone was detached who was the only one attached, and those are attached who
    came later; without them no one is. -/
theorem closing_dismissed (options : ClientOptions) (script : ServerScript) {before : List Action}
    {a : Action} (hclose : .begin .close ∉ before)
    (hopen : ((create options script).after before).client.closed = false)
    (hclosed : ((create options script).after (before ++ [a])).client.closed = true)
    (hreader : .readerEnded ∉ ((create options script).after (before ++ [a])).history) :
    let e := (create options script).after before
    ∃ past x since, e.history = past ++ .registered (.detach x) :: since ∧
      Registry.registered [] (registrations past) = [x] ∧
      e.client.subscribers = Registry.registered [] (registrations since) ∧
      ((∀ y, .registered (.attach y) ∉ since) → e.client.subscribers = []) := by
  intro e
  have ha : Attended e := (attended_create options script).after before
  have hl : Listed e := listed_after options script before
  have hstart : Founded ([], create options script) := by
    intro hmem
    cases hmem
  have hfounded : Founded ([], e) :=
    hstart.after (listed_after options script []) (attended_create options script) hclose
  rw [after_append] at hclosed hreader
  obtain ⟨past, x, since, hh, hpast⟩ := hfounded.closes hopen hclosed hreader
  have hsince : e.client.subscribers = Registry.registered [] (registrations since) := by
    rw [hl, hh, registrations_append]
    exact Registry.registered_dismissed hpast
  refine ⟨past, x, since, hh, hpast, hsince, fun hnone => ?_⟩
  rw [hsince]
  exact Registry.registered_eq_nil fun y hy => hnone y (mem_registrations.mp hy)

/-- The options of a client that is closed when no one is attached any more. -/
def sparing : ClientOptions := { usual with autoClose := .bool true }

/-- Someone is attached and detached, and the client is closed with no one attached. -/
theorem detached_closes :
    let e := (create sparing { capabilities := .obj [] }).after
      [.attachSink "a" {}, .detach (.sink "a")]
    (e.client.closed = false ∧ e.runNext.client.closed = true) ∧
      ∃ past x since, e.history = past ++ .registered (.detach x) :: since ∧
        Registry.registered [] (registrations past) = [x] ∧
        e.client.subscribers = Registry.registered [] (registrations since) ∧
        ((∀ y, .registered (.attach y) ∉ since) → e.client.subscribers = []) := by
  intro e
  have hhistory : e.runNext.history =
      [.registered (.attach (.sink "a")), .registered (.detach (.sink "a")), .closingEnded] := rfl
  have hreader : .readerEnded ∉ e.runNext.history := by simp [hhistory]
  exact ⟨⟨rfl, rfl⟩, closing_dismissed (a := .run) sparing { capabilities := .obj [] } (by simp) rfl
    rfl hreader⟩

/-- The connection is closed while it is in use: someone else is attached before the task runs that
    closes the client, or a response whose id is a list ends the reader. -/
theorem attached_closed :
    (let e := (create sparing { capabilities := .obj [] }).after
      [.attachSink "a" {}, .detach (.sink "a"), .attachSink "b" {}]
    (e.client.closed = false ∧ e.channel.closed = false ∧ e.client.subscribers = [.sink "b"]) ∧
      e.runNext.client.closed = true ∧ e.runNext.channel.closed = true ∧
      e.runNext.client.subscribers = [.sink "b"]) ∧
    (let e := (create sparing { capabilities := .obj [] }).after
      (.attachSink "a" {} :: .start :: runs 6)
    let e' := e.after (.arrive (.frame "\x7b\"id\":[1],\"result\":null\x7d") :: runs 2)
    (e.client.closed = false ∧ e.channel.closed = false ∧ e.client.subscribers = [.sink "a"]) ∧
      e'.client.closed = true ∧ e'.channel.closed = true ∧
      e'.client.subscribers = [.sink "a"]) := by
  decide +kernel

end Engine

end LanguageClient
