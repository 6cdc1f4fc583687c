import LanguageClient.Proofs.Client.Correlation
import LanguageClient.Proofs.Client.Roles

/-!
A client that is closed is not ready. Closing takes the readiness back, and only a handshake can give
it; a handshake that has not been answered by then will fail, since nothing is read any more. What is
left is a handshake that had its answer, and has not yet run on, when the client was closed
(`Survives`): unless that happens, a closed client is never ready again.

    answer ──▶ closed ──▶ the handshake runs on ──▶ closed and ready
-/

namespace LanguageClient.Engine

variable {c c' : Config} {st st' : List Frame} {e e' : Engine}

/-! ### Tasks and their handshakes -/

/-- A task does not shake hands, or stands where a handshake can stand. -/
def Shape (history : List Event) (st : List Frame) : Prop :=
  (∀ f ∈ st, f.role ≠ some .shakes) ∨ Handshaking history st

/-- So do all tasks. -/
def Shaped (e : Engine) : Prop := Each (Shape e.history) e

theorem shape_nil (history : List Event) : Shape history [] := .inl (by simp)

theorem shape_begin (history : List Event) (op : Operation) : Shape history [.begin op] := by
  cases op with
  | handshake => exact .inr .begins
  | _ => exact .inl (by simp [Frame.role])

theorem Shape.append {history : List Event} (h : Shape history st) (more : List Event) :
    Shape (history ++ more) st :=
  h.imp id fun h => h.append more

theorem Shaped.grows (h : Shaped e) (hg : Grows e e') (hl : Lasts e e') : Shaped e' := by
  obtain ⟨more, hh⟩ := hl.history
  have hgrown := Each.grows h hg (shape_begin e.history)
  rw [Shaped, hh]
  exact hgrown.imp fun st hst => hst.append more

theorem Shaped.path (h : Shaped e) (hn : Numbered e) (hp : Path ([], e) ([], e')) : Shaped e' :=
  h.grows (Path.grows hp hn) (Path.lasts hp)

/-- Whatever a task comes to, it keeps to its role. -/
theorem shape_unwind (h : Shape e.history st) (o : Outcome) :
    Shape (reached (unwind st o e)).2.history (reached (unwind st o e)).1 := by
  rcases h with hrole | hshake
  · exact .inl ((Path.inherits (path_reached (leads_unwind st o e))).not_mem hrole)
  · have hp := proceeds_unwind hshake o
    generalize unwind st o e = run at hp
    obtain ⟨e', o' | ⟨p, frames⟩ | frames⟩ := run
    · exact shape_nil _
    · exact .inr hp
    · exact .inr hp

theorem Shaped.runTask {n : Nat} {t : Task} (h : Shaped e) (hn : Numbered e)
    (ht : e.tasks.get? n = some t) (o : Outcome) : Shaped (e.runTask n t o) := by
  have hpath := path_reached (leads_unwind t.frames (if t.cancelRequested then .cancelled else o)
    (e.pick n))
  have hrest := rests_runTask n t o e
  have hpick : Shaped (e.pick n) := Each.pick h (shape_nil _) n
  have hrun := hpick.grows (Path.grows hpath (hn.pick ht)) hpath.lasts
  have hst := shape_unwind (e := e.pick n) (h n t ht)
    (if t.cancelRequested then .cancelled else o)
  obtain ⟨more, hh⟩ := hrest.lasts.history
  rw [Shaped, hh]
  exact (Each.rests hrun hst (shape_begin _) hrest).imp fun st hst => hst.append more

theorem Shaped.tallies (h : Shaped e) (ha : Tallies e e') : Shaped e' :=
  h.grows (.of_tallies ha) (.of_tallies ha)

theorem Shaped.act (h : Shaped e) (hn : Numbered e) (a : Action) : Shaped (e.act a) := by
  cases hd : a.drives with
  | false => exact h.grows (hn.grows_act hd) (lasts_act a e)
  | true =>
    cases a with
    | run =>
      change Shaped e.runNext
      obtain ⟨e₁, ha, hrun⟩ := runNext_cases e
      have hn₁ := hn.grows (.of_tallies ha)
      rcases hrun with hp | ⟨n, t, ht, heq⟩
      · exact (h.tallies ha).path hn₁ hp
      · rw [heq]
        exact (h.tallies ha).runTask hn₁ ht _
    | «begin» op => exact Each.spawn h (shape_begin _ op)
    | _ => cases hd

/-! ### What survives the closing -/

/-- The handshake of a task has its answer already, and nothing keeps it from going on. -/
def outlives (e : Engine) : List Frame → Bool
  | [f, .handshakeAnswered] =>
    match f.request?.bind fun id => e.outcome? (.answer id) with
    | some (.value _) => true
    | _ => false
  | [_, .handshakeAnnounced _] => true
  | _ => false

theorem outlives_tallies (h : Tallies e e') (st : List Frame) : outlives e' st = outlives e st := by
  have ho : (fun id => e'.outcome? (.answer id)) = fun id => e.outcome? (.answer id) :=
    funext fun id => h.outcome _
  unfold outlives
  rw [ho]

/-- There is such a task. -/
def Survives (e : Engine) : Prop := ∃ entry ∈ e.tasks, outlives e entry.2.frames = true

instance (e : Engine) : Decidable (Survives e) :=
  inferInstanceAs (Decidable (∃ entry ∈ e.tasks, outlives e entry.2.frames = true))

/-- On a closed connection, a handshake that has no answer yet comes to nothing. -/
theorem ready_unwind {o : Outcome} (h : Handshaking e.history st) (hc : e.client.closed = true)
    (hs : outlives e st = false) (hr : (unwind st o e).1.client.ready = true) :
    e.client.ready = true := by
  cases h with
  | begins =>
    rw [unwind_singleton] at hr
    have hbegin : e.handshake.1.client.ready = true → e.client.ready = true := by
      rcases handshake_cases e with ⟨x, heq⟩ | ⟨_, _, _, hopen, _⟩
      · rw [heq]
        exact id
      · rw [hc] at hopen
        cases hopen
    cases o with
    | cancelled => exact hr
    | value v => exact hbegin hr
    | failure x => exact hbegin hr
  | @asked f id hf hcalled =>
    rw [unwind_pair] at hr
    have hreturns := returns_resume hf o e
    have hleads : Leads ([f], e) [] (resume f o e) := leads_resume f o
    have hrole : ∀ g ∈ [f], g.role ≠ some .shakes := by
      simp [Frame.role_of_request hf]
    generalize resume f o e = run at hr hreturns hleads
    obtain ⟨e₁, o₁ | ⟨p, frames⟩ | frames⟩ := run
    · have hsame := Path.ready_of_ready hleads hrole
      cases o₁ with
      | value v =>
        have hvalue := hreturns.2 v rfl
        simp [outlives, hf, hvalue] at hs
      | failure x => exact (hsame hr).1
      | cancelled => exact (hsame hr).1
    · exact (Path.ready_of_ready hleads.1 hrole hr).1
    · exact hreturns.elim
  | announces message result => cases hs

theorem Handshaking.role_ne {history : List Event} (h : Handshaking history st) :
    ∀ f ∈ st, f.role ≠ some .closes := by
  cases h with
  | begins => simp [Frame.role]
  | asked hf _ =>
    rw [List.forall_mem_cons, Frame.role_of_request hf]
    simp [Frame.role]
  | announces message result => simp [Frame.role]

/-! ### Closed and not ready -/

/-- If the client is closed, it is not ready. -/
def Unready (e : Engine) : Prop := e.client.closed = true → e.client.ready = false

theorem Unready.sameFlags (h : Unready e) (hs : SameFlags e e') : Unready e' := by
  rw [Unready, hs.1, hs.2]
  exact h

theorem sameFlags_rests {n : Nat} {run : Run} (h : Rests n run e) : SameFlags (reached run).2 e := by
  have hkeep (e : Engine) (frames : List Frame) (waiting : Option Ref) :
      SameFlags e (e.keep n frames waiting) := .of_client rfl
  cases h with
  | ended o => exact .of_client (settle_client _ _ _)
  | waits ha hc => exact ((hkeep _ _ _).trans (sameFlags_tallies ha.toTallies)).trans (sameFlags_cancels hc)
  | pauses ha => exact (hkeep _ _ _).trans (sameFlags_tallies ha)

theorem reached_snd (run : Run) : (reached run).2 = run.1 := by
  obtain ⟨e, o | ⟨p, frames⟩ | frames⟩ := run <;> rfl

/-- A task makes a closed client ready only if it survives. -/
theorem Unready.unwind (h : Unready e) (hst : Shape e.history st)
    (hs : e.client.closed = true → outlives e st = false) (o : Outcome) :
    Unready (reached (unwind st o e)).2 := by
  intro hclosed
  have hpath := path_reached (leads_unwind st o e)
  rw [← Bool.not_eq_true]
  intro hready
  have hboth : e.client.closed = true ∧ e.client.ready = true := by
    rcases hst with hrole | hshake
    · obtain ⟨hr, hc⟩ := Path.ready_of_ready hpath hrole hready
      exact ⟨hc ▸ hclosed, hr⟩
    · have hc : e.client.closed = true := (Path.closed_eq hpath hshake.role_ne) ▸ hclosed
      rw [reached_snd] at hready
      exact ⟨hc, ready_unwind hshake hc (hs hc) hready⟩
  have hfalse := h hboth.1
  rw [hboth.2] at hfalse
  cases hfalse

theorem Unready.runTask {n : Nat} {t : Task} (h : Unready e) (hshape : Shaped e)
    (hs : e.client.closed = true → ¬ Survives e) (ht : e.tasks.get? n = some t) (o : Outcome) :
    Unready (e.runTask n t o) := by
  have hpick : Unready (e.pick n) := h
  have hrun := hpick.unwind (hshape n t ht) (fun hc => ?_)
    (if t.cancelRequested then .cancelled else o)
  · exact hrun.sameFlags (sameFlags_rests (rests_runTask n t o e))
  · rw [← Bool.not_eq_true]
    intro hout
    obtain ⟨entry, hentry, rfl⟩ := List.mem_map.mp (Table.mem_values_of_get? ht)
    exact hs hc ⟨entry, hentry, hout⟩

theorem Unready.runNext (h : Unready e) (hshape : Shaped e)
    (hs : e.client.closed = true → ¬ Survives e) : Unready e.runNext := by
  obtain ⟨e₁, ha, hrun⟩ := runNext_cases e
  have hflags := sameFlags_tallies ha
  rcases hrun with hp | ⟨n, t, ht, heq⟩
  · exact (h.sameFlags hflags).sameFlags (Path.sameFlags hp (by simp))
  · have hs₁ : e₁.client.closed = true → ¬ Survives e₁ := by
      rintro hc ⟨entry, hentry, hout⟩
      rw [outlives_tallies ha] at hout
      exact hs (hflags.2 ▸ hc) ⟨entry, ha.tasks ▸ hentry, hout⟩
    rw [heq]
    exact (h.sameFlags hflags).runTask (hshape.tallies ha) hs₁ ht _

theorem Unready.after : ∀ (actions : List Action) {e : Engine}, Unready e → Shaped e →
    Correlated ([], e) →
    (∀ before rest, actions = before ++ .run :: rest → (e.after before).client.closed = true →
      ¬ Survives (e.after before)) → Unready (e.after actions)
  | [], _, h, _, _, _ => h
  | a :: rest, e, h, hshape, hc, hs => by
      refine Unready.after rest ?_ (hshape.act hc.numbered a) (hc.act a) ?_
      · by_cases hrun : a = .run
        · subst hrun
          exact h.runNext hshape (hs [] rest rfl)
        · exact h.sameFlags (sameFlags_act hrun e)
      · intro before rest' heq
        exact hs (a :: before) rest' (by rw [heq, List.cons_append])

/-- A client that is closed is not ready, whatever happens and in whichever order, unless it goes on
    running while a handshake survives that had its answer before. -/
theorem closed_unready (options : ClientOptions) (script : ServerScript) (actions : List Action)
    (h : ∀ before rest, actions = before ++ .run :: rest →
      ((create options script).after before).client.closed = true →
        ¬ Survives ((create options script).after before)) :
    ((create options script).after actions).client.closed = true →
      ((create options script).after actions).client.ready = false :=
  Unready.after actions (fun hc => by cases hc) (fun n t ht => by cases ht)
    (correlated_create options script) h

/-- A server that does not answer. -/
def silentServer : ServerScript where
  capabilities := .obj []
  replies := [("initialize", [.silence])]

/-- A client that is closed while its handshake waits, and is started once more. -/
theorem closed_unready_unanswered :
    let actions : List Action := [[.start], runs 2, [.begin .close], runs 6, [.start], runs 2].flatten
    (∀ before rest, actions = before ++ .run :: rest →
      ((create usual silentServer).after before).client.closed = true →
        ¬ Survives ((create usual silentServer).after before)) ∧
      ((create usual silentServer).after actions).client.closed = true ∧
      ((create usual silentServer).after actions).client.ready = false := by
  intro actions
  have hall : ∀ n < actions.length,
      ((create usual silentServer).after (actions.take n)).client.closed = true →
        ¬ Survives ((create usual silentServer).after (actions.take n)) := by decide +kernel
  have hsplit : ∀ before rest, actions = before ++ .run :: rest →
      ((create usual silentServer).after before).client.closed = true →
        ¬ Survives ((create usual silentServer).after before) := by
    intro before rest heq
    have hlt : before.length < actions.length := by
      rw [heq, List.length_append, List.length_cons]
      omega
    have htake : actions.take before.length = before := by rw [heq, List.take_left]
    have hn := hall before.length hlt
    rw [htake] at hn
    exact hn
  have hclosed : ((create usual silentServer).after actions).client.closed = true := by
    decide +kernel
  exact ⟨hsplit, hclosed, closed_unready usual silentServer actions hsplit hclosed⟩

/-- The stream ends while the message that ends the handshake is held up. When it passes, the client
    is closed and ready, and nothing is left to be done. -/
theorem closed_ready :
    let actions : List Action :=
      [[.start], runs 3, [.block], runs 2, [.arrive .eof], runs 2, [.unblock], runs 2].flatten
    let e := (create usual { capabilities := .obj [] }).after actions
    e.client.closed = true ∧ e.client.ready = true ∧ e.ready.isEmpty = true ∧
      e.tasks.isEmpty = true := by
  decide +kernel

end LanguageClient.Engine
