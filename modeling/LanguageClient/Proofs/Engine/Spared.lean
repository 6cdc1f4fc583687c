import LanguageClient.Proofs.Client.Enduring
import LanguageClient.Proofs.Engine.Sparing
import LanguageClient.Proofs.Engine.Undisturbed

/-!
Runs that cut no one short. Brief tasks leave brief frames (`briefly_unwind`), so in every state that a
client comes to no other task has been cut short, unless the outside did it (`Spared.act`).

    brief task ──run──▶ brief task ──run──▶ … ──▶ ended
-/

namespace LanguageClient.Engine

variable {n : Option Nat} {m since : Nat} {st : List Frame} {e e' : Engine}
  {P P' : List Frame → Engine → Prop} {Q Q' : Outcome → Engine → Prop}

/-! ### What a run comes to -/

/-- The run ends in such a way, or leaves such frames and waits for a promise of its own. -/
def Yields (P : List Frame → Engine → Prop) (Q : Outcome → Engine → Prop) : Run → Prop
  | (e, .done o) => Q o e
  | (e, .wait p frames) => p.sole = true ∧ P frames e
  | (e, .pause frames) => P frames e

theorem Yields.andThen {run : Run} {f : Frame} {next : Outcome → Engine → Run}
    (h : Yields P' Q' run) (hn : ∀ o e, Q' o e → Yields P Q (next o e))
    (hp : ∀ frames e, P' frames e → P (frames ++ [f]) e) : Yields P Q (Engine.andThen run f next) := by
  obtain ⟨e, o | ⟨p, frames⟩ | frames⟩ := run
  · exact hn o e h
  · exact ⟨h.1, hp frames e h.2⟩
  · exact hp frames e h

theorem Yields.unwind {f : Frame} {outer : List Frame} {o : Outcome}
    (h : Yields P' Q' (resume f o e)) (hn : ∀ o e, Q' o e → Yields P Q (unwind outer o e))
    (hp : ∀ frames e, P' frames e → P (frames ++ outer) e) :
    Yields P Q (Engine.unwind (f :: outer) o e) := by
  rw [Engine.unwind]
  split
  · rename_i hr
    rw [hr] at h
    exact hn _ _ h
  · rename_i hr
    rw [hr] at h
    exact ⟨h.1, hp _ _ h.2⟩
  · rename_i hr
    rw [hr] at h
    exact hp _ _ h

theorem Yields.imp {run : Run} (h : Yields P' Q' run) (hp : ∀ frames e, P' frames e → P frames e)
    (hq : ∀ o e, Q' o e → Q o e) : Yields P Q run := by
  obtain ⟨e, o | ⟨p, frames⟩ | frames⟩ := run
  · exact hq o e h
  · exact ⟨h.1, hp frames e h.2⟩
  · exact hp frames e h

theorem yields_withSession {doc : Nat} {k : Session → Run} (hnone : ∀ x, Q (.failure x) e)
    (h : ∀ s, e.session? doc = some s → Yields P Q (k s)) : Yields P Q (e.withSession doc k) := by
  unfold withSession
  split
  · rename_i s hs
    exact h s hs
  · exact hnone _

theorem yields_sleep (ms : Int) (hp : ∀ e, P [] e) : Yields P Q (e.sleep ms) := by
  unfold sleep
  split
  · exact hp e
  · exact ⟨rfl, hp _⟩

/-- A run that minds its own business waits for nothing else. -/
theorem Minds.yields {F : List Frame → Prop} {O : Outcome → Prop} {run : Run} (h : Minds F O e run) :
    Yields (fun frames _ => F frames) (fun o _ => O o) run := by
  obtain ⟨e', o | ⟨p, frames⟩ | frames⟩ := run
  · exact h.1
  · exact ⟨h.2.2.sole, h.1⟩
  · exact h.1

theorem yields_flush (doc : Nat) (text : Option (List Char)) (e : Engine) :
    Yields (fun frames _ => ∃ method message, frames = [.gate (.notify method) message, .changeSent])
      (fun _ _ => True) (e.flush doc text) :=
  (minds_flush doc text e).yields.imp (fun _ _ => id) fun _ _ _ => trivial

/-! ### Brief tasks -/

/-- A run that leaves brief frames if it leaves any. -/
abbrev Briefly : Run → Prop := Yields (fun frames _ => Brief frames) (fun _ _ => True)

theorem briefly_read : ∀ (xs : List Inbound) (e : Engine), Briefly (readAll xs e)
  | [], e => by
      unfold readAll
      split
      · trivial
      · exact ⟨rfl, .receives⟩
  | .eof :: _, _ => trivial
  | .failure x :: _, _ => by
      change Briefly (readerFails _ _)
      unfold readerFails
      split <;> trivial
  | .frame frame :: rest, e => by
      rw [readAll_frame]
      split
      · unfold readerFails
        split <;> trivial
      · exact briefly_read rest _

theorem briefly_received (o : Outcome) (e : Engine) : Briefly (received o e) := by
  cases o with
  | value v => exact briefly_read _ e
  | failure x =>
    change Briefly (readerFails _ _)
    unfold readerFails
    split <;> trivial
  | cancelled => trivial

theorem Working.brief (h : Working st) : Brief st := by
  cases h with
  | sends method message => exact .sends method message
  | rehearses name fails => exact .rehearses name fails

theorem briefly_works {run : Run} (h : Works e run) : Briefly run :=
  h.yields.imp (fun _ _ => Working.brief) fun _ _ _ => trivial

theorem briefly_working (h : Working st) (o : Outcome) (e : Engine) : Briefly (unwind st o e) := by
  by_cases ho : o = .cancelled
  · rw [ho, unwind_cancelled h]
    trivial
  · exact briefly_works (works_unwind h ho e)

theorem briefly_delayOver (slot : Nat) (work : Work) (o : Outcome) (e : Engine) :
    Briefly (delayOver slot work o e) := by
  cases o with
  | value v => exact briefly_works (works_doWork work _)
  | failure x => trivial
  | cancelled => trivial

/-- Brief tasks stay brief. -/
theorem briefly_unwind (h : Brief st) (o : Outcome) (e : Engine) : Briefly (unwind st o e) := by
  cases h with
  | begins slot delay work =>
    rw [unwind_singleton]
    have hbegin : Briefly (debounced slot delay work e) := by
      refine (yields_sleep (P := fun frames _ => frames = []) (Q := fun _ _ => True) delay
        fun _ => rfl).andThen (fun o e _ => briefly_delayOver slot work o e) ?_
      rintro frames e rfl
      exact .delayed slot work
    cases o with
    | cancelled => trivial
    | value v => exact hbegin
    | failure x => exact hbegin
  | delayed slot work =>
    rw [unwind_singleton]
    exact briefly_delayOver slot work o e
  | sends method message => exact briefly_working (.sends method message) o e
  | rehearses name fails => exact briefly_working (.rehearses name fails) o e
  | reads =>
    rw [unwind_singleton]
    cases o with
    | cancelled => trivial
    | value v => exact briefly_read _ e
    | failure x => exact briefly_read _ e
  | receives =>
    rw [unwind_singleton]
    exact briefly_received o e

/-! ### Runs -/

theorem Spared.raise {since' : Nat} (h : Spared n since e) (hle : since ≤ since')
    (hlt : since' ≤ e.nextRef) : Spared n since' e where
  bounded := hlt
  grouped := h.grouped
  punctual := h.punctual
  charges := h.charges
  opened := h.opened
  flagged := h.flagged
  known k t p ht hw hp := Nat.lt_of_lt_of_le (h.known k t p ht hw hp) hle
  apart := h.apart
  cancelled p hp ho := (h.cancelled p hp ho).imp (Nat.lt_of_lt_of_le · hle) id
  running := h.running

/-- A task begins to run. It is named if it is brief. -/
theorem Spared.pick {t : Task} (h : Spared none since e) (ht : e.tasks.get? m = some t)
    (hn : n = some m ∨ (n = none ∧ ¬ t.Brief)) : Spared n since (e.pick m) := by
  have hget (k : Nat) : (e.pick m).tasks.get? k = if k = m then some { frames := [] }
      else e.tasks.get? k := Table.get?_put _ _ _ _
  have hold {k : Nat} {t' : Task} {p : Ref} (ht' : (e.pick m).tasks.get? k = some t')
      (hw : t'.waiting = some p) : k ≠ m ∧ e.tasks.get? k = some t' := by
    rw [hget] at ht'
    split at ht'
    · obtain rfl := Option.some.inj ht'
      cases hw
    · rename_i hk
      exact ⟨hk, ht'⟩
  refine ⟨h.bounded, h.grouped, h.punctual.of_eq (Nat.le_refl _) rfl, fun r hr => ?_, fun k t' ht' => ?_,
    fun k t' ht' hstop => ?_, ?_, ?_, ?_, ?_⟩
  · obtain ⟨k, rfl, hlt, hb⟩ := h.charges r hr
    have hb := hb.resolve_left (by simp)
    refine ⟨k, rfl, hlt, ?_⟩
    by_cases hk : k = m
    · subst hk
      exact .inl (hn.resolve_right fun hnot => hnot.2 (hb t ht))
    · right
      rw [hget, if_neg hk]
      exact hb
  · rw [hget] at ht'
    split at ht'
    · rename_i hk
      exact hk ▸ h.opened m t ht
    · exact h.opened k t' ht'
  · rw [hget] at ht'
    split at ht'
    · obtain rfl := Option.some.inj ht'
      cases hstop
    · exact .inr ((h.flagged k t' ht' hstop).resolve_left (by simp))
  · intro k t' p ht' hw hp
    exact h.known k t' p (hold ht' hw).2 hw hp
  · intro k₁ t₁ k₂ t₂ p hp ht₁ hw₁ ht₂ hw₂
    exact h.apart k₁ t₁ k₂ t₂ p hp (hold ht₁ hw₁).2 hw₁ (hold ht₂ hw₂).2 hw₂
  · intro p hp ho
    obtain ⟨hlt, hb⟩ := h.cancelled p hp ho
    exact ⟨hlt, fun k t' ht' hw => hb k t' (hold ht' hw).2 hw⟩
  · intro k t' hk ht'
    have hk : k = m := by
      rcases hn with rfl | ⟨rfl, _⟩
      · exact (Option.some.inj hk).symm
      · cases hk
    rw [hget, if_pos hk] at ht'
    obtain rfl := Option.some.inj ht'
    rfl

/-- A task has run and waits. What it waits for was promised since it began to run. -/
theorem Spared.keep {waiting : Option Ref} (h : Spared n since e) (hr : Running m e)
    (hn : n = none ∨ (n = some m ∧ Brief st ∧ ∀ p, waiting = some p → p.sole = true))
    (hw : ∀ p, waiting = some p → p.sole = true → since ≤ p.number ∧ p.number < e.nextRef) :
    Spared none e.nextRef (e.keep m st waiting) := by
  obtain ⟨t₀, ht₀, hnil⟩ := hr
  have hnot : ¬ t₀.Brief := by
    intro hb
    have hframes := hb.frames
    rw [hnil] at hframes
    cases hframes
  have hget (k : Nat) : (e.keep m st waiting).tasks.get? k = if k = m then
      some { frames := st, waiting, cancelRequested := t₀.cancelRequested }
      else e.tasks.get? k := by
    simp only [Engine.keep, Table.get?_put, ht₀, Option.map_some, Option.getD_some]
  have hbrief {t : Task} (hk : n = some m) (ht : (e.keep m st waiting).tasks.get? m = some t) :
      t.Brief := by
    rw [hget, if_pos rfl] at ht
    obtain rfl := Option.some.inj ht
    rcases hn with rfl | ⟨_, hb, hsole⟩
    · cases hk
    · exact ⟨hb, hsole⟩
  have hother {k : Nat} (hk : k ≠ m) : n ≠ some k := by
    rintro rfl
    rcases hn with hn | ⟨hn, _⟩
    · cases hn
    · exact hk (Option.some.inj hn)
  refine ⟨Nat.le_refl _, h.grouped, h.punctual.of_eq (Nat.le_refl _) rfl, fun r hr => ?_, fun k t ht => ?_,
    fun k t ht hstop => ?_,
    fun k t p ht hwait hp => ?_,
    fun k₁ t₁ k₂ t₂ p hp ht₁ hw₁ ht₂ hw₂ => ?_, fun p hp ho => ?_, fun k t hk => by cases hk⟩
  · obtain ⟨k, rfl, hlt, hb⟩ := h.charges r hr
    refine ⟨k, rfl, hlt, .inr fun t ht => ?_⟩
    by_cases hk : k = m
    · subst hk
      exact hbrief (hb.resolve_right fun hall => hnot (hall t₀ ht₀)) ht
    · rw [hget, if_neg hk] at ht
      exact hb.resolve_left (hother hk) t ht
  · rw [hget] at ht
    split at ht
    · rename_i hk
      exact hk ▸ h.opened m t₀ ht₀
    · exact h.opened k t ht
  · right
    by_cases hk : k = m
    · subst hk
      have hstop₀ : t₀.cancelRequested = true := by
        have ht := ht
        rw [hget, if_pos rfl] at ht
        obtain rfl := Option.some.inj ht
        exact hstop
      exact hbrief ((h.flagged k t₀ ht₀ hstop₀).resolve_right hnot) ht
    · rw [hget, if_neg hk] at ht
      exact (h.flagged k t ht hstop).resolve_left (hother hk)
  · rw [hget] at ht
    split at ht
    · obtain rfl := Option.some.inj ht
      exact (hw p hwait hp).2
    · exact Nat.lt_of_lt_of_le (h.known k t p ht hwait hp) h.bounded
  · -- what is new was promised later than all that was waited for
    rw [hget] at ht₁ ht₂
    split at ht₁ <;> split at ht₂
    · rename_i h₁ h₂
      exact h₂.trans h₁.symm
    · obtain rfl := Option.some.inj ht₁
      have hlt := h.known k₂ t₂ p ht₂ hw₂ hp
      have hge := (hw p hw₁ hp).1
      omega
    · obtain rfl := Option.some.inj ht₂
      have hlt := h.known k₁ t₁ p ht₁ hw₁ hp
      have hge := (hw p hw₂ hp).1
      omega
    · exact h.apart k₁ t₁ k₂ t₂ p hp ht₁ hw₁ ht₂ hw₂
  · obtain ⟨hlt, hb⟩ := h.cancelled p hp ho
    refine ⟨Nat.lt_of_lt_of_le hlt h.bounded, fun k t ht hwait => ?_⟩
    rw [hget] at ht
    split at ht
    · obtain rfl := Option.some.inj ht
      have hge := (hw p hwait hp).1
      omega
    · exact hb k t ht hwait

theorem harmless_unstop (n : Option Nat) (m : Nat) (e : Engine) : Harmless n st e
    { e with tasks := e.tasks.update m fun t => { t with cancelRequested := false } } where
  nextRef := Nat.le_refl _
  listens _ _ := .inl
  groups _ _ hk := hk.of_eq (Nat.le_refl _) rfl
  punctual hp := hp.of_eq (Nat.le_refl _) rfl
  charges _ := .inl
  tasks k t' ht' := by
    rw [Table.get?_update] at ht'
    split at ht'
    · obtain ⟨t, ht, rfl⟩ := Option.map_eq_some_iff.mp ht'
      exact .inl ⟨t, ht, rfl, fun hstop => by cases hstop⟩
    · exact .inl ⟨t', ht', rfl, .inl⟩
  cancelled _ := .inl
  ends _ _ := rfl

/-- A task that waits and was asked to stop is brief, and what it waits for is its own. -/
theorem Spared.parks {p : Ref} (h : Spared n since e) (hr : Running m e)
    (hn : n = none ∨ (n = some m ∧ Brief st ∧ p.sole = true)) :
    Harmless none [] (e.keep m st (some p)) (e.park m p st) := by
  have ha := agrees_listen p (.wake m) (e.keep m st (some p)) (by simp)
  have hlisten : Harmless none [] (e.keep m st (some p)) _ := harmless_tallies ha.toTallies
  unfold Engine.park
  simp only
  split
  · rename_i hstop
    obtain ⟨t, ht, hnil⟩ := hr
    have hflag : t.cancelRequested = true := by simpa [ht] using hstop
    have hbrief : Brief st ∧ p.sole = true := by
      rcases h.flagged m t ht hflag with hm | hb
      · rcases hn with rfl | ⟨_, hb⟩
        · cases hm
        · exact hb
      · have hframes := hb.frames
        rw [hnil] at hframes
        cases hframes
    have hcancel : Harmless none [] ((e.keep m st (some p)).listen p (.wake m))
        (((e.keep m st (some p)).listen p (.wake m)).cancel p).2 := by
      rw [Engine.cancel, cancelWithin_sole hbrief.2]
      split
      · exact .refl _
      · refine harmless_settle ?_ ?_ (fun _ => .inl ⟨m, ⟨st, some p, t.cancelRequested⟩, ?_, rfl, ?_⟩)
          fun _ _ => .inr rfl
        · rintro k rfl
          cases hbrief.2
        · rintro k rfl
          cases hbrief.2
        · rw [ha.tasks, Engine.keep, Table.get?_put_self, ht]
          rfl
        · exact ⟨hbrief.1, by rintro p' ⟨rfl⟩; exact hbrief.2⟩
    split
    · rename_i e' heq
      rw [heq] at hcancel
      exact (hlisten.trans hcancel).trans (harmless_unstop none m e')
    · rename_i e' heq
      rw [heq] at hcancel
      exact hlisten.trans hcancel
  · exact hlisten

/-- A task has ended. -/
theorem Spared.ended (h : Spared n since e) (hn : n = none ∨ n = some m) (o : Outcome) :
    Spared none since ({ e with tasks := e.tasks.erase m }.settle (.task m) o) := by
  have hnext : ({ e with tasks := e.tasks.erase m }.settle (.task m) o).nextRef = e.nextRef :=
    settle_nextRef _ _ _
  have hold {k : Nat} {t : Task}
      (ht : ({ e with tasks := e.tasks.erase m }.settle (.task m) o).tasks.get? k = some t) :
      k ≠ m ∧ e.tasks.get? k = some t := by
    rw [settle_tasks, Table.get?_erase] at ht
    split at ht
    · cases ht
    · rename_i hk
      exact ⟨hk, ht⟩
  have hother {k : Nat} (hk : k ≠ m) : n ≠ some k := by
    rintro rfl
    rcases hn with hn | hn
    · cases hn
    · exact hk (Option.some.inj hn)
  refine ⟨Nat.le_trans h.bounded (Nat.le_of_eq hnext.symm),
    fun k r hl => ?_, ?_,
    fun r hr => ?_, fun k t ht => ?_, fun k t ht hstop => ?_,
    fun k t p ht => h.known k t p (hold ht).2,
    fun k₁ t₁ k₂ t₂ p hp ht₁ hw₁ ht₂ => h.apart k₁ t₁ k₂ t₂ p hp (hold ht₁).2 hw₁ (hold ht₂).2,
    fun p hp ho => ?_, fun k t hk => by cases hk⟩
  · have hl : ({ e with tasks := e.tasks.erase m } : Engine).Listens k r := listens_settle hl
    exact Nat.lt_of_lt_of_eq (h.grouped k r hl) hnext.symm
  · have herased : ({ e with tasks := e.tasks.erase m } : Engine).Punctual :=
      h.punctual.of_eq (Nat.le_refl _) rfl
    exact herased.settle (by simp)
  · rw [Charge, settle_slots, settle_client] at hr
    obtain ⟨k, rfl, hlt, hb⟩ := h.charges r hr
    refine ⟨k, rfl, Nat.lt_of_lt_of_eq hlt hnext.symm, .inr fun t ht => ?_⟩
    obtain ⟨hk, ht⟩ := hold ht
    exact hb.resolve_left (hother hk) t ht
  · obtain ⟨hk, ht⟩ := hold ht
    obtain ⟨hlt, hopen⟩ := h.opened k t ht
    refine ⟨Nat.lt_of_lt_of_eq hlt hnext.symm, Eq.trans ?_ hopen⟩
    exact standing_settle_of_ne (by simpa using hk) o _
  · obtain ⟨hk, ht⟩ := hold ht
    exact .inr ((h.flagged k t ht hstop).resolve_left (hother hk))
  · have hne : p ≠ .task m := by
      rintro rfl
      cases hp
    rw [outcome?_settle_of_ne hne] at ho
    obtain ⟨hlt, hb⟩ := h.cancelled p hp ho
    exact ⟨hlt, fun k t ht => hb k t (hold ht).2⟩

/-- How a run comes to rest where only brief tasks are cut short. -/
inductive Lands (m : Nat) : Run → Engine → Prop where
  | ended {e : Engine} (o : Outcome) :
      Lands m (e, .done o) ({ e with tasks := e.tasks.erase m }.settle (.task m) o)
  | waits {e e' : Engine} {p : Ref} {frames : List Frame} :
      Harmless none [] (e.keep m frames (some p)) e' → Grows (e.keep m frames (some p)) e' →
      Lands m (e, .wait p frames) e'
  | pauses {e e' : Engine} {frames : List Frame} :
      Harmless none [] (e.keep m frames none) e' → Grows (e.keep m frames none) e' →
      Lands m (e, .pause frames) e'

/-- The state after the run of a task, and how the task comes to rest in it. -/
structure Ran (m : Nat) (t : Task) (n : Option Nat) (since : Nat) (run : Run) (e' : Engine) :
    Prop where
  spared : Spared n since (reached run).2
  running : Running m (reached run).2
  who : n = some m ∧ t.Brief ∨ n = none ∧ ¬ t.Brief
  briefly : t.Brief → Briefly run
  awaits : ∀ e p frames, run = (e, .wait p frames) → e.Awaits since p
  lands : Lands m run e'

theorem Spared.ran {t : Task} (h : Spared none e.nextRef e) (hc : Correlated ([], e))
    (ht : e.tasks.get? m = some t) (o : Outcome) : ∃ n, Ran m t n e.nextRef
      (unwind t.frames (if t.cancelRequested then .cancelled else o) (e.pick m))
      (e.runTask m t o) := by
  obtain ⟨n, hn⟩ : ∃ n, n = some m ∧ t.Brief ∨ n = none ∧ ¬ t.Brief := by
    by_cases hb : t.Brief
    · exact ⟨some m, .inl ⟨rfl, hb⟩⟩
    · exact ⟨none, .inr ⟨rfl, hb⟩⟩
  have hrests := rests_runTask m t o e
  generalize ho : (if t.cancelRequested then .cancelled else o : Outcome) = o' at hrests
  have hl := leads_unwind t.frames o' (e.pick m)
  have hb (hb : t.Brief) := briefly_unwind hb.frames o' (e.pick m)
  have hpick := hc.pick ht
  have hran : Spared n e.nextRef (reached (unwind t.frames o' (e.pick m))).2 :=
    (h.pick ht (hn.imp And.left id)).path (path_reached hl) hpick
  have hr := (running_pick m e).grows (Path.grows (path_reached hl) hpick.numbered)
  refine ⟨n, hran, hr, hn, hb, ?_, ?_⟩
  · intro e' p frames hrun
    rw [hrun] at hl
    exact hl.2
  · have hrun : e.runTask m t o = match unwind t.frames o' (e.pick m) with
        | (e, .done o) => { e with tasks := e.tasks.erase m }.settle (.task m) o
        | (e, .wait p frames) => e.park m p frames
        | (e, .pause frames) => (e.keep m frames none).enqueue (.step m) := by
      rw [← ho]
      rfl
    rw [hrun] at hrests ⊢
    generalize unwind t.frames o' (e.pick m) = run at *
    obtain ⟨e', o' | ⟨p, frames⟩ | frames⟩ := run
    · exact .ended o'
    · refine .waits (hran.parks hr (hn.symm.imp And.left fun ⟨hm, hbrief⟩ =>
        ⟨hm, (hb hbrief).2, (hb hbrief).1⟩)) ?_
      cases hrests with
      | waits ha hcancels _ => exact (Grows.of_tallies ha.toTallies).trans (.of_cancels hcancels)
    · have ht : Tallies (e'.keep m frames none) ((e'.keep m frames none).enqueue (.step m)) :=
        tallies_enqueue (by simp) _
      exact .pauses (harmless_tallies ht) (.of_tallies ht)

/-- A task runs, and no task is cut short by that but a brief one. -/
theorem Spared.runTask {t : Task} (h : Spared none e.nextRef e) (hc : Correlated ([], e))
    (ht : e.tasks.get? m = some t) (o : Outcome) :
    Spared none (e.runTask m t o).nextRef (e.runTask m t o) := by
  obtain ⟨n, hran, hr, hn, hb, hawaits, hlands⟩ := h.ran hc ht o
  have hwho : n = none ∨ n = some m := hn.symm.imp And.left And.left
  generalize unwind _ _ _ = run at *
  generalize e.runTask m t o = e' at *
  have hraise {e₁ e₂ : Engine} (h : Spared none e₁.nextRef e₁) (hs : Harmless none [] e₁ e₂) :
      Spared none e₂.nextRef e₂ := (h.harmless hs).raise hs.nextRef (Nat.le_refl _)
  cases hlands with
  | ended o' =>
    have hended := hran.ended hwho o'
    exact hended.raise hended.bounded (Nat.le_refl _)
  | @waits e₁ _ p frames hs =>
    refine hraise (hran.keep hr (hn.symm.imp And.left fun ⟨hm, hbrief⟩ =>
      ⟨hm, (hb hbrief).2, fun p' hp' => Option.some.inj hp' ▸ (hb hbrief).1⟩) fun p' hp' hsole => ?_) hs
    obtain rfl := Option.some.inj hp'
    rcases hawaits e₁ p frames rfl with ⟨_, hnumber⟩ | hreader
    · exact hnumber
    · obtain ⟨k, rfl, _⟩ := hran.charges p (.inr hreader)
      cases hsole
  | pauses hs =>
    exact hraise (hran.keep hr (hn.symm.imp And.left fun ⟨hm, hbrief⟩ => ⟨hm, hb hbrief, by simp⟩)
      (by simp)) hs

theorem Spared.runNext (h : Spared none e.nextRef e) (hc : Correlated ([], e)) :
    Spared none e.runNext.nextRef e.runNext := by
  obtain ⟨e₁, ha, hrun⟩ := runNext_cases e
  have hs : Harmless none [] e e₁ := harmless_tallies ha
  have hc₁ : Correlated ([], e₁) := hc.calm (calm_tallies ha) (.of_tallies ha) rfl
  have h₁ := (h.harmless hs).raise hs.nextRef (Nat.le_refl _)
  rcases hrun with hp | ⟨m, t, ht, heq⟩
  · have h₂ := h₁.path hp hc₁
    exact h₂.raise h₂.bounded (Nat.le_refl _)
  · rw [heq]
    exact h₁.runTask hc₁ ht _

/-- Actions by which the outside cancels nothing. -/
def Action.spares : Action → Bool
  | .cancel _ | .closeSession _ => false
  | _ => true

theorem Spared.act {a : Action} (h : Spared none e.nextRef e) (hc : Correlated ([], e))
    (ha : a.spares = true) : Spared none (e.act a).nextRef (e.act a) := by
  have hdone {e' : Engine} (h : Spared none e.nextRef e') : Spared none e'.nextRef e' :=
    h.raise h.bounded (Nat.le_refl _)
  have hinner {a : Action} (ha : a.inner = true) : Spared none (e.act a).nextRef (e.act a) :=
    hdone (h.path (path_act ha) hc)
  cases a with
  | run => exact h.runNext hc
  | «begin» op =>
    have hs : Harmless none [] e (e.spawn op).2 := harmless_spawn op e
    exact hdone (h.harmless hs)
  | cancel r => cases ha
  | failSends f =>
    have hs : Harmless none [] e (e.act (.failSends f)) :=
      harmless_of_eq (Nat.le_refl _) rfl rfl rfl rfl
    exact hdone (h.harmless hs)
  | addSession s =>
    have hs : Harmless none [] e (e.act (.addSession s)) :=
      harmless_of_eq (Nat.le_refl _) rfl rfl rfl rfl
    exact hdone (h.harmless hs)
  | scheduleChange doc text changes =>
    have hs : Harmless none [] e (e.scheduleChange doc text changes).2 :=
      h.scheduleChange doc text changes
    exact hdone (h.harmless hs)
  | viewChanged doc text changes =>
    have hs : Harmless none [] e (e.scheduleChange doc text changes).2 :=
      h.scheduleChange doc text changes
    exact hdone ((h.harmless hs).path (path_viewChanged doc text changes)
      (hc.act (.scheduleChange doc text changes)))
  | closeSession doc => cases ha
  | _ => exact hinner rfl

/-- As long as the outside cancels nothing, nothing but brief tasks is cut short. -/
theorem Spared.after (actions : List Action) (h : Spared none e.nextRef e) (hc : Correlated ([], e))
    (ha : ∀ a ∈ actions, a.spares = true) :
    Spared none (e.after actions).nextRef (e.after actions) := by
  induction actions generalizing e with
  | nil => exact h
  | cons a rest ih =>
    have ha' := ha a (List.mem_cons_self ..)
    exact ih (h.act hc ha') (hc.act a) fun b hb => ha b (List.mem_cons_of_mem _ hb)

theorem spared_create (options : ClientOptions) (script : ServerScript) :
    Spared none (create options script).nextRef (create options script) where
  bounded := Nat.le_refl _
  grouped _ _ h := by
    rcases h with ⟨_, h, _⟩ | h <;> cases h
  punctual := {
    numbered := fun _ _ h => by cases h
    ended := fun _ _ h => by cases h
    naps := fun _ _ h => by cases h }
  charges _ h := by rcases h with ⟨_, h⟩ | h <;> cases h
  opened _ _ h := by cases h
  flagged _ _ h := by cases h
  known _ _ _ h := by cases h
  apart _ _ _ _ _ _ h := by cases h
  cancelled _ _ h := by cases h
  running _ _ h := by cases h

end LanguageClient.Engine
