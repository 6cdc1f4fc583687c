import LanguageClient.Proofs.Client.Turns

/-!
The server's word comes from its answer. The capabilities of the server are agreed on only by a
handshake whose request has returned a value; only a task that shakes hands agrees on anything at all
(`Reticent`).

    called initialize ──▶ returned value ──▶ agreed
-/

namespace LanguageClient.Engine

variable {c c' : Config} {st st' : List Frame} {e e' : Engine}

/-! ### Agreeing on nothing -/

/-- Nothing was agreed on. -/
def Reticent (e e' : Engine) : Prop :=
  ∃ more, e'.history = e.history ++ more ∧ ∀ capabilities, .agreed capabilities ∉ more

theorem reticent_of_eq (h : e'.history = e.history) : Reticent e e' :=
  ⟨[], by rw [h, List.append_nil], by simp⟩

theorem Reticent.trans {e₁ e₂ e₃ : Engine} (h : Reticent e₁ e₂) (h' : Reticent e₂ e₃) :
    Reticent e₁ e₃ := by
  obtain ⟨more, hh, hm⟩ := h
  obtain ⟨more', hh', hm'⟩ := h'
  refine ⟨more ++ more', by rw [hh', hh, List.append_assoc], ?_⟩
  intro capabilities hmem
  exact (List.mem_append.mp hmem).elim (hm capabilities) (hm' capabilities)

theorem Silent.reticent (h : Silent e e') : Reticent e e' := by
  obtain ⟨more, hh, hm⟩ := h.history
  exact ⟨more, hh, fun _ hmem => hm _ hmem⟩

theorem reticent_speak (doc : Nat) (m : Json) (e : Engine) : Reticent e (e.speak doc m) :=
  ⟨_, List.append_assoc _ _ _, by simp⟩

/-- Only a task that shakes hands agrees on something. -/
theorem Turn.reticent (h : Turn c c') (hn : ∀ f ∈ c.1, f.role ≠ some .shakes) :
    Reticent c.2 c'.2 := by
  cases h with
  | silent hs => exact hs.reticent
  | late => exact reticent_of_eq rfl
  | call => exact ⟨_, List.append_assoc _ _ _, by simp⟩
  | notify => exact ⟨_, rfl, by simp⟩
  | handshake => exact reticent_of_eq (startHandshake_same _).2.2
  | agreed => exact absurd rfl (hn _ (List.mem_cons_self ..))
  | agreedClosed => exact absurd rfl (hn _ (List.mem_cons_self ..))
  | ready => exact reticent_of_eq rfl
  | preset doc text => exact (silent_preset doc text _).reticent
  | opening => exact reticent_speak _ _ _
  | @opened st e doc sent =>
    have hd : Reticent e (e.onDocument doc fun d => { d with opened := true }.resync sent) :=
      reticent_of_eq rfl
    exact hd.trans (silent_noteOpened doc sent e).reticent
  | @told st st₁ e e₁ doc s ranges f hs =>
    have hd : Reticent e₁ (e₁.onDocument doc fun _ => (s.document.beginFlush ranges).2) :=
      reticent_of_eq rfl
    exact (hs.reticent.trans hd).trans (reticent_speak _ _ _)
  | closed _ _ hh hm => exact ⟨_, hh, fun _ hmem => hm _ hmem⟩

theorem Turns.reticent (h : Turns c c') (hn : ∀ f ∈ c.1, f.role ≠ some .shakes) :
    Reticent c.2 c'.2 := by
  cases h with
  | one ht => exact ht.reticent hn
  | late hf _ ht =>
    refine ht.reticent (List.forall_mem_cons.mpr ⟨?_, hn⟩)
    rw [Frame.role_of_late hf]
    simp

theorem Path.reticent (h : Path c c') (hc : Correlated c)
    (hn : ∀ f ∈ c.1, f.role ≠ some .shakes) : Reticent c.2 c'.2 := by
  induction h with
  | refl => exact reticent_of_eq rfl
  | tail hp hs ih => exact ih.trans ((hs.turns (hc.path hp)).reticent ((Path.inherits hp).not_mem hn))

/-- The outside agrees on nothing. -/
theorem reticent_act {a : Action} (h : Correlated ([], e)) (ha : a ≠ .run) :
    Reticent e (e.act a) := by
  have hpath {e e' : Engine} (h : Correlated ([], e)) (hp : Path ([], e) ([], e')) :
      Reticent e e' := Path.reticent hp h (by simp)
  cases a with
  | run => exact absurd rfl ha
  | «begin» op => exact reticent_of_eq rfl
  | addSession s =>
    exact (silent_register (.attach (.document e.sessions.length))
      { e with sessions := e.sessions ++ [s] }).reticent
  | cancel r => exact reticent_of_eq (cancels_cancel r e).history
  | failSends f => exact reticent_of_eq rfl
  | scheduleChange doc text changes => exact (silent_scheduleChange doc text changes e).reticent
  | viewChanged doc text changes =>
    exact (silent_scheduleChange doc text changes e).reticent.trans
      (hpath (h.act (.scheduleChange doc text changes)) (path_viewChanged doc text changes))
  | closeSession doc =>
    change Reticent e (e.closeSession doc)
    rcases closeSession_cases doc e with ⟨heq, _⟩ | ⟨s, e₁, _, _, hcancel, heq⟩
    · rw [heq]
      exact reticent_of_eq rfl
    · rw [heq]
      exact (silent_closing hcancel).reticent.trans (hpath (h.closing hcancel) (path_detach _))
  | _ => exact hpath h (path_act rfl)

/-! ### Agreeing after the answer -/

/-- Before anything was agreed on, a request to shake hands had returned a value. -/
def Granted (history : List Event) : Prop :=
  ∀ before capabilities after, history = before ++ .agreed capabilities :: after →
    ∃ id v, .called id "initialize" ∈ before ∧ .returned id (.value v) ∈ before

theorem Granted.reticent (h : Granted e.history) (hr : Reticent e e') : Granted e'.history := by
  obtain ⟨more, hh, hm⟩ := hr
  intro before capabilities after heq
  rw [hh] at heq
  obtain ⟨after', hsplit⟩ := split_of_not_mem (hm capabilities) heq
  exact h before capabilities after' hsplit

theorem Granted.agree {id : Nat} {v : Value} (h : Granted e.history)
    (hc : .called id "initialize" ∈ e.history) (hr : .returned id (.value v) ∈ e.history)
    (capabilities : Json) : Granted (e.agree capabilities).history := by
  intro before capabilities' after heq
  have heq : e.history ++ [.agreed capabilities] = before ++ .agreed capabilities' :: after := heq
  rcases List.append_eq_append_iff.mp heq with ⟨mid, hbefore, _⟩ | ⟨mid, hhistory, hafter⟩
  · exact ⟨id, v, hbefore ▸ List.mem_append_left _ hc, hbefore ▸ List.mem_append_left _ hr⟩
  · cases mid with
    | nil =>
      rw [List.append_nil] at hhistory
      exact ⟨id, v, hhistory ▸ hc, hhistory ▸ hr⟩
    | cons event rest =>
      obtain ⟨rfl, _⟩ := List.cons.inj hafter
      exact h before capabilities' rest hhistory

theorem Leads.reticent {run : Run} (h : Leads c [] run) (hc : Correlated c)
    (hn : ∀ f ∈ c.1, f.role ≠ some .shakes) : Reticent c.2 run.1 := by
  rw [← reached_snd]
  exact Path.reticent (path_reached h) hc hn

/-- The end of the handshake is not noted. -/
theorem history_announced (run : Run) (result : Json) :
    (andThen run (.handshakeAnnounced result) (handshakeAnnounced result)).1.history
      = run.1.history := by
  obtain ⟨e, o | ⟨p, frames⟩ | frames⟩ := run
  · simp only [andThen]
    cases o with
    | value v =>
      simp only [handshakeAnnounced]
      split <;> rfl
    | failure x => rfl
    | cancelled => rfl
  · rfl
  · rfl

/-- The server is told that the handshake is over. -/
theorem reticent_initialized (h : Correlated ([], e)) :
    Reticent e (e.notify (.str "initialized") (.obj [])).1 := by
  have hname : Message.notifyMethod (.str "initialized") = .ok "initialized" := rfl
  simp only [notify, hname]
  split
  · exact reticent_of_eq rfl
  · have hnote : Reticent e (e.note (.handed initialized)) := ⟨_, rfl, by simp⟩
    have hc : Correlated ([.gate (.notify "initialized") initialized], e.note (.handed initialized)) :=
      h.calm (calm_note rfl e) (.of_tasks rfl (Nat.le_refl _) rfl) rfl
    exact hnote.trans ((leads_pass _ _).reticent hc (by simp [Frame.role]))

theorem Requesting.granted {run : Run} {f : Frame} {id : Nat} (h : Requesting f id e run)
    (hc : Correlated ([f], e)) (hg : Granted e.history) :
    Granted (andThen run .handshakeAnswered handshakeAnswered).1.history := by
  obtain ⟨hf, hleads, hreturns, hcalled⟩ := h
  have hrun := hg.reticent (hleads.reticent hc (by simp [Frame.role_of_request hf]))
  have hcalled := hleads.lasts.mem hcalled
  have hpath := path_reached hleads
  obtain ⟨e', o | ⟨p, frames⟩ | frames⟩ := run
  · cases o with
    | value v =>
      change Granted (handshakeAnswered (.value v) e').1.history
      simp only [handshakeAnswered]
      split
      · exact hrun
      · obtain ⟨earlier, hh⟩ := hreturns.1
        have hreturned : .returned id (.value v) ∈ e'.history := by simp [hh]
        have hagreed (capabilities : Json) := hrun.agree hcalled hreturned capabilities
        have hcorrelated (capabilities : Json) : Correlated ([], e'.agree capabilities) :=
          (hc.path hpath).calm (calm_agree capabilities e') (.of_tasks rfl (Nat.le_refl _) rfl) rfl
        rw [history_announced]
        exact (hagreed _).reticent (reticent_initialized (hcorrelated _))
    | failure x => exact hrun
    | cancelled => exact hrun
  · exact hrun
  · exact hrun

/-- Whatever a task does, it agrees only on what it was granted. -/
theorem Granted.unwind (h : Granted e.history) (hst : Shape e.history st) (hc : Correlated (st, e))
    (o : Outcome) : Granted (unwind st o e).1.history := by
  rcases hst with hrole | hshake
  · exact h.reticent ((leads_unwind st o e).reticent hc hrole)
  · cases hshake with
    | begins =>
      have hbegin : Granted e.handshake.1.history := by
        rcases handshake_cases e with ⟨x, heq⟩ | ⟨params, limit, run, _, heq, hr⟩
        · rw [heq]
          exact h
        · rw [heq]
          have hidle : Correlated ([], e) := hc.calm (.refl e) (.refl e) rfl
          refine hr.granted (hidle.call "initialize" limit (.str "initialize") params) ?_
          exact h.reticent ⟨_, List.append_assoc _ _ _, by simp⟩
      rw [unwind_singleton]
      cases o with
      | cancelled => exact h
      | value v => exact hbegin
      | failure x => exact hbegin
    | @asked f id hf hcalled =>
      have hasked : Correlated ([f], e) :=
        hc.calm (.refl e) (.refl e) (by simp [List.filterMap_cons, Frame.request?])
      rw [unwind_pair]
      exact (requesting_resume hf hcalled o).granted hasked h
    | announces message result =>
      have hgate : Correlated ([.gate (.notify "initialized") message], e) :=
        hc.calm (.refl e) (.refl e) rfl
      have hleads : Leads ([.gate (.notify "initialized") message], e) []
        (resume (.gate (.notify "initialized") message) o e) := leads_resume _ o
      rw [unwind_pair]
      change Granted (andThen _ _ (handshakeAnnounced result)).1.history
      rw [history_announced]
      exact h.reticent (hleads.reticent hgate (by simp [Frame.role]))

theorem Granted.runTask {m : Nat} {t : Task} (h : Granted e.history) (hs : Shaped e)
    (hc : Correlated ([], e)) (ht : e.tasks.get? m = some t) (o : Outcome) :
    Granted (e.runTask m t o).history := by
  have hpick : Correlated (t.frames, e.pick m) :=
    hc.move (hc.numbered.pick ht) (frames_pick hc.numbered ht)
  rw [(rests_runTask m t o e).history, reached_snd]
  exact Granted.unwind (e := e.pick m) h (hs m t ht) hpick _

theorem Granted.act (h : Granted e.history) (hs : Shaped e) (hc : Correlated ([], e)) (a : Action) :
    Granted (e.act a).history := by
  by_cases ha : a = .run
  · subst ha
    change Granted e.runNext.history
    obtain ⟨e₁, ha, hrun⟩ := runNext_cases e
    have hc₁ : Correlated ([], e₁) := hc.calm (calm_tallies ha) (.of_tallies ha) rfl
    have h₁ := h.reticent (silent_tallies ha).reticent
    rcases hrun with hp | ⟨m, t, ht, heq⟩
    · exact h₁.reticent (Path.reticent hp hc₁ (by simp))
    · rw [heq]
      exact h₁.runTask (hs.tallies ha) hc₁ ht _
  · exact h.reticent (reticent_act hc ha)

theorem granted_nil : Granted [] := by
  intro before capabilities after h
  simp at h

end LanguageClient.Engine
