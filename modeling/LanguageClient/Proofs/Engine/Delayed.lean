import LanguageClient.Proofs.Engine.Sparing
import LanguageClient.Proofs.Engine.Stretches
import LanguageClient.Proofs.Engine.Undisturbed

/-!
Delayed work. Work that is scheduled waits in its slot until its delay ends, and is then begun outside the slot.
As long as nothing else is under way in the engine, a slot holds just the work that waits for it
(`Debounced.slots`): new work takes its place, and what was in the slot is cancelled and lost (`Vacates`). Each
task that goes on takes one of four courses (`TakesTurn`), and all others are left alone meanwhile (`Untouched`).

    scheduled ──▶ waits in the slot ──delay ends──▶ begun ──▶ done
                         │
                         └──scheduled anew, or cancelled──▶ lost
-/

namespace LanguageClient

namespace Engine

/-! ### Where delayed work stands -/

/-- The frames of work that stands in its delay, or before it. -/
inductive Delaying (slot : Nat) (work : Work) : List Frame → Prop where
  | begins (delay : Int) : Delaying slot work [.begin (.debounced slot delay work)]
  | delayed : Delaying slot work [.delayOver slot work]

/-- The task has not been asked to stop, nor has what it waits for been cancelled. -/
def Uncut (t : Task) (e : Engine) : Prop :=
  t.cancelRequested = false ∧ ∀ p, t.waiting = some p → e.standing p ≠ some (some .cancelled)

/-- The task is work that waits for its delay to end, and has not been cancelled. -/
def Waits (slot : Nat) (work : Work) (k : Nat) (e : Engine) : Prop :=
  ∃ t, e.tasks.get? k = some t ∧ Delaying slot work t.frames ∧ e.Uncut t

/-- The delay of the work ends: it goes on from there, be it as cancelled. -/
def DelayEnds (k : Nat) (e : Engine) : Prop :=
  ∃ t slot work, e.GoesOn k t ∧ t.frames = [.delayOver slot work]

/-- The delay of the work ends, and the work is begun. -/
def Undertakes (slot : Nat) (work : Work) (k : Nat) (e : Engine) : Prop :=
  ∃ t v, e.GoesOn k t ∧ t.frames = [.delayOver slot work] ∧ e.handed t = .value v

/-- Nothing but delayed work is under way. Each task waits for a promise that is its own, and one that has been
    cancelled has not been begun. -/
structure Tended (e : Engine) : Prop where
  opened : ∀ k t, e.tasks.get? k = some t → k < e.nextRef ∧ e.standing (.task k) = some none
  known : ∀ k t p, e.tasks.get? k = some t → t.waiting = some p → p.sole = true ∧ p.number < e.nextRef ∧
    (e.standing p = some none ∨ e.standing p = some (some (.value .nothing)) ∨
      e.standing p = some (some .cancelled))
  apart : ∀ k t k' t' p, e.tasks.get? k = some t → e.tasks.get? k' = some t' → t.waiting = some p →
    t'.waiting = some p → k = k'
  stands : ∀ k t, e.tasks.get? k = some t →
    (∃ slot work, Delaying slot work t.frames) ∨ Working t.frames ∧ e.Uncut t

/-- Besides, each slot holds what waits for it. -/
structure Debounced (e : Engine) : Prop extends Tended e where
  slots : ∀ slot r, e.slots.get? slot = some r ↔ ∃ work k, r = .task k ∧ e.Waits slot work k

/-- The task stands as it stood. What it waits for may have come, but has not been cancelled. -/
structure Untouched (k : Nat) (e e' : Engine) : Prop where
  task : e'.tasks.get? k = e.tasks.get? k
  ends : e'.standing (.task k) = e.standing (.task k)
  waits : ∀ t p, e.tasks.get? k = some t → t.waiting = some p →
    e'.standing p = e.standing p ∨ e.standing p = some none ∧ e'.standing p = some (some (.value .nothing))

/-- The task has gone on: it has ended with such an outcome, or stands at such frames and waits for a promise of
    its own, if it waits. All other tasks are left alone. -/
structure Turned (F : List Frame → Prop) (O : Outcome → Prop) (k : Nat) (e e' : Engine) : Prop where
  nextRef : e.nextRef ≤ e'.nextRef
  other : ∀ j ≠ k, e'.tasks.get? j = e.tasks.get? j
  standing : ∀ r, r ≠ .task k → r.number < e.nextRef → e'.standing r = e.standing r ∨
    e.standing r = some none ∧ ∃ o, r.Free o ∧ e'.standing r = some (some o)
  self : (∃ o, O o ∧ e'.tasks.get? k = none ∧ e'.standing (.task k) = some (some o)) ∨
    ∃ t, e'.tasks.get? k = some t ∧ F t.frames ∧ t.cancelRequested = false ∧
      e'.standing (.task k) = some none ∧ ∀ p, t.waiting = some p → Own e p e'

variable {e e' : Engine} {k j slot : Nat} {t : Task} {work : Work} {F : List Frame → Prop}
  {O : Outcome → Prop}

theorem Delaying.unique {slot' : Nat} {work' : Work} {st : List Frame} (h : Delaying slot work st)
    (h' : Delaying slot' work' st) : slot = slot' ∧ work = work' := by
  cases h <;> cases h' <;> exact ⟨rfl, rfl⟩

theorem Delaying.not_working {st : List Frame} (h : Delaying slot work st) : ¬ Working st := by
  cases h <;> exact nofun

/-- Work that waits is in its slot, so there is no other that does. -/
theorem Debounced.held (h : Debounced e) (hw : e.Waits slot work k) :
    e.slots.get? slot = some (.task k) :=
  (h.slots slot _).mpr ⟨work, k, rfl, hw⟩

theorem Debounced.waits_unique {work' : Work} (h : Debounced e) (hk : e.Waits slot work k)
    (hj : e.Waits slot work' j) : k = j :=
  Ref.task.inj (Option.some.inj ((h.held hk).symm.trans (h.held hj)))

/-- Whoever has not been cancelled goes on with a value, and whoever has goes on as cancelled. -/
theorem Tended.handed_cases (h : Tended e) (ht : e.tasks.get? k = some t) :
    e.Uncut t ∧ e.handed t = .value .nothing ∨ ¬ e.Uncut t ∧ e.handed t = .cancelled := by
  unfold handed
  cases hstop : t.cancelRequested with
  | true =>
    refine .inr ⟨fun hu => ?_, rfl⟩
    rw [hu.1] at hstop
    cases hstop
  | false =>
    cases hw : t.waiting with
    | none => exact .inl ⟨⟨hstop, by simp [hw]⟩, rfl⟩
    | some p =>
      have hcut : e.Uncut t ↔ e.standing p ≠ some (some .cancelled) := by
        refine ⟨fun hu => hu.2 p hw, fun hp => ⟨hstop, fun p' hp' => ?_⟩⟩
        obtain rfl : p = p' := Option.some.inj (hw.symm.trans hp')
        exact hp
      have hout : awaited (some p) e = (e.standing p).join.getD (.value .nothing) := by
        rw [awaited, Option.bind_some, outcome?_eq_join]
      rw [hcut, if_neg Bool.false_ne_true, hout]
      rcases (h.known k t p ht hw).2.2 with hp | hp | hp <;> rw [hp]
      · exact .inl ⟨by simp, rfl⟩
      · exact .inl ⟨by simp, rfl⟩
      · exact .inr ⟨fun hne => hne rfl, rfl⟩

/-! ### Tasks that are left alone -/

theorem Untouched.trans {e'' : Engine} (h : Untouched k e e') (h' : Untouched k e' e'') : Untouched k e e'' where
  task := h'.task.trans h.task
  ends := h'.ends.trans h.ends
  waits t p ht hp := by
    rcases h'.waits t p (h.task.trans ht) hp with heq | ⟨hopen, hcame⟩
    · rw [heq]
      exact h.waits t p ht hp
    · rcases h.waits t p ht hp with heq | ⟨_, hcame'⟩
      · exact .inr ⟨heq ▸ hopen, hcame⟩
      · rw [hcame'] at hopen
        cases hopen

theorem Untouched.uncut_iff (h : Untouched k e e') (ht : e.tasks.get? k = some t) :
    e'.Uncut t ↔ e.Uncut t := by
  have hiff (p : Ref) (hp : t.waiting = some p) :
      e'.standing p ≠ some (some .cancelled) ↔ e.standing p ≠ some (some .cancelled) := by
    rcases h.waits t p ht hp with heq | ⟨hopen, hcame⟩
    · rw [heq]
    · simp [hopen, hcame]
  exact ⟨fun hu => ⟨hu.1, fun p hp => (hiff p hp).mp (hu.2 p hp)⟩,
    fun hu => ⟨hu.1, fun p hp => (hiff p hp).mpr (hu.2 p hp)⟩⟩

theorem Untouched.waits_iff (h : Untouched k e e') : e'.Waits slot work k ↔ e.Waits slot work k := by
  unfold Waits
  rw [h.task]
  refine exists_congr fun t => and_congr_right fun ht => and_congr_right fun _ => h.uncut_iff ht

theorem Tended.untouched_of_standing (h : Tended e) (hk : k < e.nextRef)
    (htask : e'.tasks.get? k = e.tasks.get? k)
    (hs : ∀ r, r.number < e.nextRef → (∀ j, r = .task j → j = k) → e'.standing r = e.standing r ∨
      e.standing r = some none ∧ ∃ o, r.Free o ∧ e'.standing r = some (some o)) : Untouched k e e' where
  task := htask
  ends := (hs (.task k) hk fun _ hj => (Ref.task.inj hj).symm).elim id fun ⟨_, _, hfree, _⟩ => hfree.elim
  waits t p ht hp := by
    obtain ⟨hsole, hlt, _⟩ := h.known k t p ht hp
    have hne (j : Nat) : p ≠ .task j := by
      rintro rfl
      cases hsole
    refine (hs p hlt fun j hj => absurd hj (hne j)).imp id ?_
    rintro ⟨hopen, o, hfree, hcame⟩
    refine ⟨hopen, ?_⟩
    cases p with
    | nap | gate | arrival | closure =>
      obtain rfl : o = .value .nothing := hfree
      exact hcame
    | _ => cases hsole

theorem Tended.untouched (h : Tended e) (hu : Undisturbed e e') (hk : k < e.nextRef) :
    Untouched k e e' :=
  h.untouched_of_standing hk (by rw [hu.tasks]) fun r hr _ => hu.standing r hr

theorem Tended.untouched_turned (h : Tended e) (ht : Turned F O k e e') (hj : j < e.nextRef)
    (hne : j ≠ k) : Untouched j e e' :=
  h.untouched_of_standing hj (ht.other j hne) fun r hr hown =>
    ht.standing r (fun hr => hne (hown k hr).symm) hr

/-- All tasks but one are left alone, and no other is new. -/
structure Besides (k : Nat) (e e' : Engine) : Prop where
  nextRef : e.nextRef ≤ e'.nextRef
  untouched : ∀ j < e.nextRef, j ≠ k → Untouched j e e'
  fresh : ∀ j, e.nextRef ≤ j → j ≠ k → e'.tasks.get? j = none

/-- What a task may have come to, seen from the state before. -/
structure Allowed (k : Nat) (t : Task) (e e' : Engine) : Prop where
  opened : k < e'.nextRef ∧ e'.standing (.task k) = some none
  waits : ∀ p, t.waiting = some p → Own e p e' ∨
    (∃ t₀, e.tasks.get? k = some t₀ ∧ t₀.waiting = some p) ∧
      (e'.standing p = some none ∨ e'.standing p = some (some (.value .nothing)) ∨
        e'.standing p = some (some .cancelled))
  stands : (∃ slot work, Delaying slot work t.frames) ∨ Working t.frames ∧ e'.Uncut t

theorem Tended.fresh (h : Tended e) (hj : e.nextRef ≤ j) : e.tasks.get? j = none := by
  cases ht : e.tasks.get? j with
  | none => rfl
  | some t => exact absurd (h.opened j t ht).1 (Nat.not_lt.mpr hj)

theorem Tended.besides_turned (h : Tended e) (ht : Turned F O k e e') : Besides k e e' where
  nextRef := ht.nextRef
  untouched _ hj hne := h.untouched_turned ht hj hne
  fresh j hj hne := (ht.other j hne).trans (h.fresh hj)

theorem Tended.besides (h : Tended e) (hu : Undisturbed e e') (k : Nat) : Besides k e e' where
  nextRef := hu.nextRef
  untouched _ hj _ := h.untouched hu hj
  fresh j hj _ := by rw [hu.tasks, h.fresh hj]

theorem Besides.old (hb : Besides k e e') (hne : j ≠ k) (ht : e'.tasks.get? j = some t) :
    j < e.nextRef ∧ e.tasks.get? j = some t ∧ Untouched j e e' := by
  have hj : j < e.nextRef := by
    by_contra hge
    rw [hb.fresh j (Nat.not_lt.mp hge) hne] at ht
    cases ht
  have hu := hb.untouched j hj hne
  exact ⟨hj, hu.task.symm.trans ht, hu⟩

theorem Besides.waits_iff (hb : Besides k e e') (h : Tended e) (hne : j ≠ k) :
    e'.Waits slot work j ↔ e.Waits slot work j := by
  by_cases hj : j < e.nextRef
  · exact (hb.untouched j hj hne).waits_iff
  · have hge := Nat.not_lt.mp hj
    unfold Waits
    rw [hb.fresh j hge hne, h.fresh hge]
    simp

/-- One task may come to what is allowed, if the slots then hold what waits for them. -/
theorem Debounced.change (h : Debounced e) (hb : Besides k e e')
    (hself : ∀ t, e'.tasks.get? k = some t → Allowed k t e e')
    (hslots : ∀ slot r, e'.slots.get? slot = some r ↔ ∃ work k, r = .task k ∧ e'.Waits slot work k) :
    Debounced e' where
  opened j t ht := by
    by_cases hj : j = k
    · subst hj
      exact (hself t ht).opened
    · obtain ⟨hlt, hold, hu⟩ := hb.old hj ht
      exact ⟨Nat.lt_of_lt_of_le hlt hb.nextRef, hu.ends.trans (h.opened j t hold).2⟩
  known j t p ht hw := by
    by_cases hj : j = k
    · subst hj
      rcases (hself t ht).waits p hw with hown | ⟨⟨t₀, ht₀, hw₀⟩, hp⟩
      · exact ⟨hown.sole, hown.known, .inl hown.opened⟩
      · obtain ⟨hsole, hlt, _⟩ := h.known j t₀ p ht₀ hw₀
        exact ⟨hsole, Nat.lt_of_lt_of_le hlt hb.nextRef, hp⟩
    · obtain ⟨_, hold, hu⟩ := hb.old hj ht
      obtain ⟨hsole, hlt, hp⟩ := h.known j t p hold hw
      refine ⟨hsole, Nat.lt_of_lt_of_le hlt hb.nextRef, ?_⟩
      rcases hu.waits t p hold hw with heq | ⟨_, hcame⟩
      · rwa [heq]
      · exact .inr (.inl hcame)
  apart j₁ t₁ j₂ t₂ p ht₁ ht₂ hw₁ hw₂ := by
    -- what is new was promised later than all that was waited for
    have hnew {j : Nat} {t t' : Task} (hj : j ≠ k) (ht : e'.tasks.get? j = some t) (hw : t.waiting = some p)
        (ht' : e'.tasks.get? k = some t') (hw' : t'.waiting = some p) : j = k := by
      obtain ⟨_, hold, _⟩ := hb.old hj ht
      rcases (hself t' ht').waits p hw' with hown | ⟨⟨t₀, ht₀, hw₀⟩, _⟩
      · exact absurd (h.known j t p hold hw).2.1 (Nat.not_lt.mpr hown.since)
      · exact h.apart j t k t₀ p hold ht₀ hw hw₀
    by_cases h₁ : j₁ = k
    · by_cases h₂ : j₂ = k
      · rw [h₁, h₂]
      · subst h₁
        exact (hnew h₂ ht₂ hw₂ ht₁ hw₁).symm
    · by_cases h₂ : j₂ = k
      · subst h₂
        exact hnew h₁ ht₁ hw₁ ht₂ hw₂
      · exact h.apart j₁ t₁ j₂ t₂ p (hb.old h₁ ht₁).2.1 (hb.old h₂ ht₂).2.1 hw₁ hw₂
  stands j t ht := by
    by_cases hj : j = k
    · subst hj
      exact (hself t ht).stands
    · obtain ⟨_, hold, hu⟩ := hb.old hj ht
      exact (h.stands j t hold).imp id fun hwork => hwork.imp id (hu.uncut_iff hold).mpr
  slots := hslots

/-! ### What the slots hold -/

/-- The slots are left alone, and so is what waits. -/
theorem Debounced.slots_same (h : Debounced e) (hb : Besides k e e') (hs : e'.slots = e.slots)
    (hk : ∀ slot work, e'.Waits slot work k ↔ e.Waits slot work k) (slot : Nat) (r : Ref) :
    e'.slots.get? slot = some r ↔ ∃ work k, r = .task k ∧ e'.Waits slot work k := by
  rw [hs, h.slots slot r]
  refine exists_congr fun work => exists_congr fun j => and_congr_right fun _ => ?_
  by_cases hj : j = k
  · rw [hj, hk]
  · rw [hb.waits_iff h.toTended hj]

/-- A slot has been emptied, and what it held waits no more. -/
theorem Debounced.slots_erase {held : Nat} (h : Debounced e) (hb : Besides k e e')
    (hs : e'.slots = e.slots.erase held) (hw : e.Waits held work k) (hnot : ∀ slot work, ¬ e'.Waits slot work k)
    (slot : Nat) (r : Ref) : e'.slots.get? slot = some r ↔ ∃ work k, r = .task k ∧ e'.Waits slot work k := by
  rw [hs, Table.get?_erase]
  constructor
  · intro hr
    split at hr
    · cases hr
    · rename_i hslot
      obtain ⟨work', j, rfl, hj⟩ := (h.slots slot r).mp hr
      have hne : j ≠ k := by
        rintro rfl
        obtain ⟨t, ht, hd, _⟩ := hj
        obtain ⟨t', ht', hd', _⟩ := hw
        obtain rfl : t = t' := Option.some.inj (ht.symm.trans ht')
        exact hslot (hd.unique hd').1
      exact ⟨work', j, rfl, (hb.waits_iff h.toTended hne).mpr hj⟩
  · rintro ⟨work', j, rfl, hj⟩
    have hne : j ≠ k := by
      rintro rfl
      exact hnot _ _ hj
    have hold := (hb.waits_iff h.toTended hne).mp hj
    split
    · rename_i hslot
      subst hslot
      exact absurd (h.waits_unique hold hw) hne
    · exact h.held hold

/-- New work has been put into a slot for which nothing waited. -/
theorem Debounced.slots_put {into : Nat} (h : Debounced e) (hb : Besides k e e')
    (hs : e'.slots = e.slots.put into (.task k)) (hw : e'.Waits into work k) (hnew : e.tasks.get? k = none)
    (hnone : ∀ work j, ¬ e.Waits into work j) (slot : Nat) (r : Ref) :
    e'.slots.get? slot = some r ↔ ∃ work k, r = .task k ∧ e'.Waits slot work k := by
  have hold {slot : Nat} {work : Work} : ¬ e.Waits slot work k := by
    rintro ⟨t, ht, _⟩
    rw [hnew] at ht
    cases ht
  rw [hs, Table.get?_put]
  constructor
  · intro hr
    split at hr
    · rename_i hslot
      exact ⟨work, k, (Option.some.inj hr).symm, hslot ▸ hw⟩
    · obtain ⟨work', j, rfl, hj⟩ := (h.slots slot r).mp hr
      have hne : j ≠ k := by
        rintro rfl
        exact hold hj
      exact ⟨work', j, rfl, (hb.waits_iff h.toTended hne).mpr hj⟩
  · rintro ⟨work', j, rfl, hj⟩
    by_cases hjk : j = k
    · obtain ⟨t, ht, hd, _⟩ := hj
      obtain ⟨t', ht', hd', _⟩ := hw
      obtain rfl : t = t' := Option.some.inj (ht.symm.trans (hjk ▸ ht'))
      rw [if_pos (hd.unique hd').1, hjk]
    · have hwas := (hb.waits_iff h.toTended hjk).mp hj
      have hslot : slot ≠ into := by
        rintro rfl
        exact hnone work' j hwas
      rw [if_neg hslot, h.held hwas]

/-! ### What leaves all delayed work alone -/

theorem Debounced.undisturbed (h : Debounced e) (hu : Undisturbed e e') : Debounced e' := by
  have hb := h.besides hu e.nextRef
  have hnone : e'.tasks.get? e.nextRef = none := by rw [hu.tasks, h.fresh (Nat.le_refl _)]
  refine h.change hb (fun t ht => by rw [hnone] at ht; cases ht)
    (h.slots_same hb hu.slots fun slot work => ?_)
  unfold Waits
  rw [hnone, h.fresh (Nat.le_refl _)]
  simp

/-! ### Cancelling -/

/-- A task that waits is cancelled: it is asked to stop, or what it waits for is settled as cancelled. -/
theorem cancel_task (hk : k < e.nextRef) (hopen : e.standing (.task k) = some none)
    (ht : e.tasks.get? k = some t) (hsole : ∀ p, t.waiting = some p → p.sole = true) :
    e.cancel (.task k) = (true, e.requestCancel k) ∨
      ∃ p, t.waiting = some p ∧ e.outcome? p = none ∧ e.cancel (.task k) = (true, e.settle p .cancelled) := by
  obtain ⟨bound, hbound⟩ : ∃ bound, e.nextRef + 1 = bound + 2 := ⟨e.nextRef - 1, by omega⟩
  have hsettled : e.isSettled (.task k) = false := by rw [isSettled, outcome?_eq_join, hopen]; rfl
  rw [cancel, hbound]
  cases hw : t.waiting with
  | none => exact .inl (by simp [cancelWithin, hsettled, ht, hw])
  | some p =>
    have hp := cancelWithin_sole (hsole p hw) bound e
    rw [cancelWithin]
    cases ho : e.isSettled p with
    | true => exact .inl (by simp [hsettled, ht, hw, hp, ho])
    | false => exact .inr ⟨p, rfl, by simpa [isSettled] using ho, by simp [hsettled, ht, hw, hp, ho]⟩

/-- The task is lost: it has ended, or will end as soon as it goes on, and it has not been begun. -/
structure Lost (k : Nat) (e : Engine) : Prop where
  known : k < e.nextRef
  cut : ∀ t, e.tasks.get? k = some t → (∃ slot work, Delaying slot work t.frames) ∧ ¬ e.Uncut t

/-- A task that waited is cancelled, and no other. -/
structure CutShort (k : Nat) (e e' : Engine) : Prop where
  nextRef : e'.nextRef = e.nextRef
  slots : e'.slots = e.slots
  besides : Besides k e e'
  allowed : ∀ t, e'.tasks.get? k = some t → Allowed k t e e'
  lost : Lost k e'

theorem Tended.cutShort (h : Tended e) (hw : e.Waits slot work k) :
    (e.cancel (.task k)).1 = true ∧ CutShort k e (e.cancel (.task k)).2 := by
  obtain ⟨t, ht, hd, hu⟩ := hw
  obtain ⟨hk, hopen⟩ := h.opened k t ht
  have hsole (p : Ref) (hp : t.waiting = some p) : p.sole = true := (h.known k t p ht hp).1
  rcases cancel_task hk hopen ht hsole with heq | ⟨p, hp, ho, heq⟩
  · -- the task is asked to stop
    have hget (j : Nat) : (e.requestCancel k).tasks.get? j =
        if j = k then some { t with cancelRequested := true } else e.tasks.get? j := by
      rw [requestCancel, Table.get?_update]
      split
      · rename_i hj
        rw [hj, ht]
        rfl
      · rfl
    have hself {t' : Task} (ht' : (e.requestCancel k).tasks.get? k = some t') :
        { t with cancelRequested := true } = t' := by
      rw [hget, if_pos rfl] at ht'
      exact Option.some.inj ht'
    rw [heq]
    refine ⟨rfl, rfl, rfl, ⟨Nat.le_refl _, fun j _ hj => ?_, fun j hge hj => ?_⟩, fun t' ht' => ?_, hk,
      fun t' ht' => ?_⟩
    · exact ⟨by rw [hget, if_neg hj], rfl, fun _ _ _ _ => .inl rfl⟩
    · rw [hget, if_neg hj, h.fresh hge]
    · obtain rfl := hself ht'
      exact ⟨⟨hk, hopen⟩, fun p hp => .inr ⟨⟨t, ht, hp⟩, (h.known k t p ht hp).2.2⟩, .inl ⟨slot, work, hd⟩⟩
    · obtain rfl := hself ht'
      exact ⟨⟨slot, work, hd⟩, fun hu => Bool.noConfusion hu.1⟩
  · -- what it waits for is settled, and no other task waits for that
    obtain ⟨hsole, hlt, hstood⟩ := h.known k t p ht hp
    have hpopen : e.standing p = some none := by
      rcases hstood with hs | hs | hs
      · exact hs
      · rw [outcome?_eq_join, hs] at ho
        cases ho
      · exact absurd hs (hu.2 p hp)
    have hcut := standing_settle_self hpopen .cancelled
    have hother {r : Ref} (hr : r ≠ p) := standing_settle_of_ne hr .cancelled e
    have htask (j : Nat) : Ref.task j ≠ p := by
      rintro rfl
      cases hsole
    have hself {t' : Task} (ht' : (e.settle p .cancelled).tasks.get? k = some t') : t = t' := by
      rw [settle_tasks, ht] at ht'
      exact Option.some.inj ht'
    rw [heq]
    refine ⟨rfl, settle_nextRef _ _ _, settle_slots _ _ _, ⟨Nat.le_of_eq (settle_nextRef _ _ _).symm,
      fun j _ hj => ?_, fun j hge hj => ?_⟩, fun t' ht' => ?_, ?_, fun t' ht' => ?_⟩
    · refine ⟨by rw [settle_tasks], hother (htask j), fun t' p' ht' hp' => .inl (hother ?_)⟩
      rintro rfl
      exact hj (h.apart j t' k t p' ht' ht hp' hp)
    · rw [settle_tasks, h.fresh hge]
    · obtain rfl := hself ht'
      refine ⟨⟨?_, (hother (htask k)).trans hopen⟩, fun p' hp' => .inr ⟨⟨t, ht, hp'⟩, ?_⟩,
        .inl ⟨slot, work, hd⟩⟩
      · rwa [settle_nextRef]
      · obtain rfl : p = p' := Option.some.inj (hp.symm.trans hp')
        exact .inr (.inr hcut)
    · rwa [settle_nextRef]
    · obtain rfl := hself ht'
      exact ⟨⟨slot, work, hd⟩, fun hu => hu.2 p hp hcut⟩

/-- Slots do not matter to tasks. -/
theorem CutShort.of_slots {slots : Table Nat Ref} (h : CutShort k { e with slots } e') :
    Besides k e e' ∧ ∀ t, e'.tasks.get? k = some t → Allowed k t e e' := by
  refine ⟨⟨h.besides.nextRef, fun j hj hne => ?_, h.besides.fresh⟩, fun t ht => ?_⟩
  · have hu := h.besides.untouched j hj hne
    exact ⟨hu.task, hu.ends, hu.waits⟩
  · have ha := h.allowed t ht
    refine ⟨ha.opened, fun p hp => (ha.waits p hp).imp (fun hown => ?_) id, ha.stands⟩
    exact ⟨hown.sole, hown.since, hown.known, hown.opened⟩

theorem Lost.not_waits (h : Lost k e) : ¬ e.Waits slot work k := by
  rintro ⟨t, ht, _, hu⟩
  exact (h.cut t ht).2 hu

/-- Emptying a slot for which nothing waits does nothing. -/
theorem Debounced.cancelSlot_empty (h : Debounced e) (hnone : ∀ work k, ¬ e.Waits slot work k) :
    e.cancelSlot slot = (false, e) := by
  have hslot : e.slots.get? slot = none := by
    cases hr : e.slots.get? slot with
    | none => rfl
    | some r =>
      obtain ⟨work, k, _, hw⟩ := (h.slots slot r).mp hr
      exact absurd hw (hnone work k)
  rw [cancelSlot, hslot]

/-- Otherwise it cancels what waits for it. -/
theorem Debounced.cancelSlot_waits (h : Debounced e) (hw : e.Waits slot work k) :
    (e.cancelSlot slot).1 = true ∧ (e.cancelSlot slot).2.nextRef = e.nextRef ∧
      Debounced (e.cancelSlot slot).2 ∧ Besides k e (e.cancelSlot slot).2 ∧ Lost k (e.cancelSlot slot).2 := by
  let emptied : Engine := { e with slots := e.slots.erase slot }
  have htended : Tended emptied := ⟨h.opened, h.known, h.apart, h.stands⟩
  have hopen : emptied.standing (.task k) = some none := by
    obtain ⟨t, ht, _⟩ := hw
    exact (h.opened k t ht).2
  have hsettled : emptied.isSettled (.task k) = false := by
    rw [isSettled, outcome?_eq_join, hopen]
    rfl
  obtain ⟨_, hcut⟩ := htended.cutShort hw
  have heq : e.cancelSlot slot = (true, (emptied.cancel (.task k)).2) := by
    rw [cancelSlot, h.held hw]
    exact if_neg (by rw [hsettled]; exact Bool.false_ne_true)
  obtain ⟨hb, hallowed⟩ := hcut.of_slots
  rw [heq]
  exact ⟨rfl, hcut.nextRef, h.change hb hallowed
    (h.slots_erase hb hcut.slots hw fun _ _ => hcut.lost.not_waits), hb, hcut.lost⟩

/-- What waited for the slot is lost, and all other tasks are left alone. -/
structure Vacates (slot : Nat) (e e' : Engine) : Prop where
  nextRef : e.nextRef ≤ e'.nextRef
  untouched : ∀ j < e.nextRef, (∀ work, ¬ e.Waits slot work j) → Untouched j e e'
  lost : ∀ work j, e.Waits slot work j → Lost j e'

theorem Debounced.cancelSlot (h : Debounced e) (slot : Nat) :
    Debounced (e.cancelSlot slot).2 ∧ Vacates slot e (e.cancelSlot slot).2 ∧
      (e.cancelSlot slot).2.nextRef = e.nextRef ∧ ∀ work j, ¬ (e.cancelSlot slot).2.Waits slot work j := by
  by_cases hw : ∃ work k, e.Waits slot work k
  · obtain ⟨work, k, hw⟩ := hw
    obtain ⟨_, hn, hd, hb, hl⟩ := h.cancelSlot_waits hw
    have hone {work' : Work} {j : Nat} (hj : e.Waits slot work' j) : j = k := h.waits_unique hj hw
    refine ⟨hd, ⟨hb.nextRef, fun j hj hnot => hb.untouched j hj ?_, fun work' j hj => hone hj ▸ hl⟩, hn,
      fun work' j hj => ?_⟩
    · rintro rfl
      exact hnot work hw
    · by_cases hjk : j = k
      · exact hl.not_waits (hjk ▸ hj)
      · exact hjk (hone ((hb.waits_iff h.toTended hjk).mp hj))
  · have hnone (work : Work) (k : Nat) : ¬ e.Waits slot work k := fun hk => hw ⟨work, k, hk⟩
    rw [h.cancelSlot_empty hnone]
    exact ⟨h, ⟨Nat.le_refl _, fun j hj _ => h.untouched (.refl e) hj, fun work j hj => absurd hj (hnone work j)⟩,
      rfl, hnone⟩

theorem Lost.untouched (h : Lost k e) (hu : Untouched k e e') (hn : e.nextRef ≤ e'.nextRef) : Lost k e' where
  known := Nat.lt_of_lt_of_le h.known hn
  cut t ht := by
    rw [hu.task] at ht
    exact (h.cut t ht).imp id (mt (hu.uncut_iff ht).mp)

/-! ### Scheduling -/

/-- New work takes the place of what waits for the slot. -/
theorem Debounced.scheduleWork (h : Debounced e) (slot : Nat) (delay : Int) (work : Work) :
    Debounced (e.scheduleWork slot delay work).2 ∧ Vacates slot e (e.scheduleWork slot delay work).2 ∧
      (e.scheduleWork slot delay work).2.Waits slot work e.nextRef := by
  obtain ⟨hd, hv, hn, hnone⟩ := h.cancelSlot slot
  have heq : (e.scheduleWork slot delay work).2 =
      { ((e.cancelSlot slot).2.spawn (.debounced slot delay work)).2 with
        slots := (e.cancelSlot slot).2.slots.put slot (.task (e.cancelSlot slot).2.nextRef) } := rfl
  rw [heq, ← hn]
  generalize (e.cancelSlot slot).2 = e₁ at *
  let e₂ : Engine := { (e₁.spawn (.debounced slot delay work)).2 with slots := e₁.slots.put slot (.task e₁.nextRef) }
  have hget (j : Nat) : e₂.tasks.get? j = if j = e₁.nextRef then
      some { frames := [.begin (.debounced slot delay work)] } else e₁.tasks.get? j := Table.get?_put _ _ _ _
  have hstand (r : Ref) : e₂.standing r = if r = .task e₁.nextRef then some none else e₁.standing r :=
    standing_promise _ _ _
  have hsole {p : Ref} (hp : p.sole = true) : e₂.standing p = e₁.standing p := by
    rw [hstand, if_neg]
    rintro rfl
    cases hp
  have hb : Besides e₁.nextRef e₁ e₂ := by
    refine ⟨Nat.le_succ _, fun j hj hne => ⟨?_, ?_, fun t p ht hp => .inl ?_⟩, fun j hge hne => ?_⟩
    · rw [hget, if_neg hne]
    · rw [hstand, if_neg fun hr => hne (Ref.task.inj hr)]
    · exact hsole (hd.known j t p ht hp).1
    · rw [hget, if_neg hne, hd.fresh hge]
  have hself {t : Task} (ht : e₂.tasks.get? e₁.nextRef = some t) :
      { frames := [.begin (.debounced slot delay work)] } = t := by
    rw [hget, if_pos rfl] at ht
    exact Option.some.inj ht
  have hwaits : e₂.Waits slot work e₁.nextRef :=
    ⟨_, by rw [hget, if_pos rfl], .begins delay, rfl, fun p hp => by cases hp⟩
  refine ⟨hd.change hb (fun t ht => ?_)
    (hd.slots_put hb rfl hwaits (hd.fresh (Nat.le_refl _)) hnone), ⟨?_, ?_, ?_⟩, hwaits⟩
  · obtain rfl := hself ht
    refine ⟨⟨Nat.lt_succ_self _, ?_⟩, nofun, .inl ⟨slot, work, .begins delay⟩⟩
    rw [hstand, if_pos rfl]
  · exact Nat.le_trans hv.nextRef hb.nextRef
  · intro j hj hnot
    have hu := hv.untouched j hj hnot
    have hj' : j < e₁.nextRef := hn ▸ hj
    exact hu.trans (hb.untouched j hj' (Nat.ne_of_lt hj'))
  · intro work' j hj
    have hl := hv.lost work' j hj
    exact hl.untouched (hb.untouched j hl.known (Nat.ne_of_lt hl.known)) hb.nextRef

/-! ### Going on -/

/-- A job that lets no task go on disturbs no one. -/
theorem undisturbed_runNext (h : ∀ k t, ¬ e.GoesOn k t) : Undisturbed e e.runNext := by
  unfold runNext
  split
  · exact .refl e
  · rename_i job rest hready
    have hpop : Undisturbed e { e with ready := rest } := undisturbed_of_eq rfl rfl rfl (Nat.le_refl _)
    have hresume (n : Nat) (source : Option Ref) (hjob : job.wakes? = some (n, source)) :
        Undisturbed { e with ready := rest } (resumeTask n source { e with ready := rest }) := by
      unfold resumeTask
      split
      · exact .refl _
      · rename_i t ht
        split
        · rename_i hw
          exact absurd ⟨job, rest, hready, hw ▸ hjob, ht⟩ (h n t)
        · exact .refl _
    have hnap (n : Nat) : (Ref.nap n).Free (.value .nothing) := rfl
    refine hpop.trans ?_
    cases job with
    | step n => exact hresume n none rfl
    | call l source =>
      cases l with
      | wake n => exact hresume n (some source) rfl
      | release n => exact undisturbed_settle (hnap n) _
      | handshakeOver => exact undisturbed_tallies (agrees_handshakeOver source _).toTallies
      | backgroundOver doc => exact undisturbed_tallies (agrees_backgroundOver doc source _).toTallies
      | memberOver n => exact undisturbed_memberOver n source _
    | ring alarm =>
      cases alarm with
      | release n => exact undisturbed_settle (hnap n) _
      | deliver frame => exact undisturbed_arrive _ _

/-- In the midst of its run a task has no frames, and all else is still there. -/
structure Amid (k : Nat) (e e' : Engine) : Prop where
  nextRef : e.nextRef ≤ e'.nextRef
  tasks : ∀ j, e'.tasks.get? j = if j = k then some { frames := [] } else e.tasks.get? j
  standing : ∀ r, r.number < e.nextRef → e'.standing r = e.standing r ∨
    e.standing r = some none ∧ ∃ o, r.Free o ∧ e'.standing r = some (some o)
  opened : e'.standing (.task k) = some none

theorem Amid.ended {o : Outcome} (h : Amid k e e') (ho : O o) :
    Turned F O k e ({ e' with tasks := e'.tasks.erase k }.settle (.task k) o) where
  nextRef := by
    rw [settle_nextRef]
    exact h.nextRef
  other j hj := by rw [settle_tasks, Table.get?_erase, if_neg hj, h.tasks, if_neg hj]
  standing r hr hlt := by
    rw [standing_settle_of_ne hr]
    exact h.standing r hlt
  self := by
    have hopen : { e' with tasks := e'.tasks.erase k }.standing (.task k) = some none := h.opened
    exact .inl ⟨o, ho, by rw [settle_tasks, Table.get?_erase, if_pos rfl], standing_settle_self hopen o⟩

theorem Amid.keep (h : Amid k e e') (frames : List Frame) (waiting : Option Ref) (j : Nat) :
    (e'.keep k frames waiting).tasks.get? j = if j = k then some { frames, waiting } else e.tasks.get? j := by
  have hflag : ((e'.tasks.get? k).map (·.cancelRequested)).getD false = false := by
    rw [h.tasks, if_pos rfl]
    rfl
  simp only [Engine.keep, Table.get?_put, hflag]
  split
  · rfl
  · rename_i hj
    rw [h.tasks, if_neg hj]

theorem Amid.pauses {frames : List Frame} (h : Amid k e e') (hframes : F frames) :
    Turned F O k e ((e'.keep k frames none).enqueue (.step k)) where
  nextRef := h.nextRef
  other j hj := (h.keep frames none j).trans (if_neg hj)
  standing r _ hlt := h.standing r hlt
  self := .inr ⟨{ frames }, (h.keep frames none k).trans (if_pos rfl), hframes, rfl, h.opened, nofun⟩

theorem Amid.park {p : Ref} {frames : List Frame} (h : Amid k e e') :
    e'.park k p frames = (e'.keep k frames (some p)).listen p (.wake k) := by
  unfold Engine.park
  rw [h.tasks, if_pos rfl]
  rfl

theorem Amid.waits {p : Ref} {frames : List Frame} (h : Amid k e e') (hframes : F frames)
    (hown : Own e p e') : Turned F O k e ((e'.keep k frames (some p)).listen p (.wake k)) := by
  obtain ⟨_, _, htasks, _, _, _, hnext, _⟩ := listen_same p (.wake k) (e'.keep k frames (some p))
  have hget (j : Nat) := (congrArg (Table.get? j) htasks).trans (h.keep frames (some p) j)
  have hstand (r : Ref) := standing_listen p r (.wake k) (e'.keep k frames (some p))
  refine ⟨Nat.le_trans h.nextRef (Nat.le_of_eq hnext.symm), fun j hj => (hget j).trans (if_neg hj),
    fun r _ hlt => ?_, .inr ⟨{ frames, waiting := some p }, (hget k).trans (if_pos rfl), hframes, rfl,
      (hstand _).trans h.opened, fun p' hp' => ?_⟩⟩
  · rw [hstand]
    exact h.standing r hlt
  · obtain rfl := Option.some.inj hp'
    exact ⟨hown.sole, hown.since, Nat.lt_of_lt_of_eq hown.known hnext.symm, (hstand p).trans hown.opened⟩

/-- A task that goes on and minds its own business ends, or comes to stand elsewhere. It may find the slots changed
    when it starts. -/
theorem Tended.turned (h : Tended e) (hg : e.GoesOn k t) {slots : Table Nat Ref}
    (hrun : ∀ rest, Minds F O { Engine.pick k { e with ready := rest } with slots }
      (unwind t.frames (e.handed t) (Engine.pick k { e with ready := rest }))) :
    Turned F O k e e.runNext ∧ e.runNext.slots = slots := by
  obtain ⟨_, _, _, _, ht⟩ := id hg
  obtain ⟨hk, hopen⟩ := h.opened k t ht
  obtain ⟨rest, heq⟩ := runNext_of_goesOn hg
  have hamid {e₃ : Engine} (hu : Undisturbed { Engine.pick k { e with ready := rest } with slots } e₃) :
      Amid k e e₃ := by
    have hstand (r : Ref) (hr : r.number < e.nextRef) : e₃.standing r = e.standing r ∨
        e.standing r = some none ∧ ∃ o, r.Free o ∧ e₃.standing r = some (some o) := hu.standing r hr
    refine ⟨hu.nextRef, fun j => ?_, hstand, ?_⟩
    · rw [hu.tasks]
      exact Table.get?_put _ _ _ _
    · rcases hstand (.task k) hk with hs | ⟨_, _, hfree, _⟩
      · exact hs.trans hopen
      · exact hfree.elim
  have hrun := hrun rest
  rw [heq]
  rw [handed] at hrun
  generalize hresult : unwind _ _ _ = run at hrun
  obtain ⟨e₃, o | ⟨p, frames⟩ | frames⟩ := run
  · obtain ⟨ho, hu⟩ := hrun
    rw [runTask_done hresult]
    exact ⟨(hamid hu).ended ho, by rw [settle_slots]; exact hu.slots⟩
  · obtain ⟨hframes, hu, hown⟩ := hrun
    have hslots := (listen_same p (.wake k) (e₃.keep k frames (some p))).2.2.2.1
    have hown' : Own e p e₃ := ⟨hown.sole, hown.since, hown.known, hown.opened⟩
    rw [runTask_wait hresult, (hamid hu).park]
    exact ⟨(hamid hu).waits hframes hown', hslots.trans hu.slots⟩
  · obtain ⟨hframes, hu⟩ := hrun
    rw [runTask_pause hresult]
    exact ⟨(hamid hu).pauses hframes, hu.slots⟩

/-! ### What a turn comes to -/

/-- Whoever has been cancelled ends without having been begun. -/
theorem Tended.turn_lost (h : Tended e) (hg : e.GoesOn k t) (hcut : ¬ e.Uncut t) :
    Turned (fun _ => False) (· = .cancelled) k e e.runNext ∧ e.runNext.slots = e.slots := by
  obtain ⟨_, _, _, _, ht⟩ := id hg
  have hcancelled : e.handed t = .cancelled := ((h.handed_cases ht).resolve_left fun hu => hcut hu.1).2
  refine h.turned hg fun rest => ?_
  rw [hcancelled]
  rcases h.stands k t ht with ⟨slot, work, hd⟩ | ⟨_, hu⟩
  · have hends {st : List Frame} (hd : Delaying slot work st) (e : Engine) :
        unwind st .cancelled e = (e, .done .cancelled) := by
      cases hd <;> rfl
    rw [hends hd]
    exact ⟨rfl, .refl _⟩
  · exact absurd hu hcut

/-- The delay begins. -/
theorem Tended.turn_begins {delay : Int} (h : Tended e) (hg : e.GoesOn k t) (hu : e.Uncut t)
    (hframes : t.frames = [.begin (.debounced slot delay work)]) :
    Turned (· = [.delayOver slot work]) (fun _ => False) k e e.runNext ∧ e.runNext.slots = e.slots := by
  obtain ⟨_, _, _, _, ht⟩ := id hg
  have hvalue : e.handed t = .value .nothing := ((h.handed_cases ht).resolve_right fun hc => hc.1 hu).2
  refine h.turned hg fun rest => ?_
  rw [hvalue, hframes, unwind_singleton]
  refine (minds_sleep (F := (· = [])) (O := fun _ => False) delay _ rfl).andThen (fun _ _ => False.elim) ?_
  rintro frames rfl
  rfl

/-- The delay is over: the work leaves its slot and is begun. -/
theorem Tended.turn_delayed (h : Tended e) (hg : e.GoesOn k t) (hu : e.Uncut t)
    (hframes : t.frames = [.delayOver slot work]) :
    Turned Working (· = .value .nothing) k e e.runNext ∧ e.runNext.slots = e.slots.erase slot := by
  obtain ⟨_, _, _, _, ht⟩ := id hg
  have hvalue : e.handed t = .value .nothing := ((h.handed_cases ht).resolve_right fun hc => hc.1 hu).2
  refine h.turned hg fun rest => ?_
  rw [hvalue, hframes, unwind_singleton]
  exact works_doWork work _

/-- Work that has been begun goes on, or is done. -/
theorem Tended.turn_works (h : Tended e) (hg : e.GoesOn k t) (hw : Working t.frames) :
    Turned Working (· = .value .nothing) k e e.runNext ∧ e.runNext.slots = e.slots := by
  obtain ⟨_, _, _, _, ht⟩ := id hg
  have hu : e.Uncut t := by
    rcases h.stands k t ht with ⟨slot, work, hd⟩ | ⟨_, hu⟩
    · exact absurd hw hd.not_working
    · exact hu
  have hvalue : e.handed t = .value .nothing := ((h.handed_cases ht).resolve_right fun hc => hc.1 hu).2
  refine h.turned hg fun rest => ?_
  rw [hvalue]
  exact works_unwind hw (finished_value _) _

theorem Turned.uncut (ht : Turned F O k e e') (hget : e'.tasks.get? k = some t) : F t.frames ∧ e'.Uncut t := by
  rcases ht.self with ⟨_, _, hnone, _⟩ | ⟨t', ht', hframes, hflag, _, hown⟩
  · rw [hnone] at hget
    cases hget
  · obtain rfl : t' = t := Option.some.inj (ht'.symm.trans hget)
    refine ⟨hframes, hflag, fun p hp hcut => ?_⟩
    rw [(hown p hp).opened] at hcut
    cases hcut

theorem Turned.allowed (ht : Turned F O k e e') (hk : k < e.nextRef)
    (hF : ∀ st, F st → (∃ slot work, Delaying slot work st) ∨ Working st) (t : Task)
    (hget : e'.tasks.get? k = some t) : Allowed k t e e' := by
  obtain ⟨hframes, hu⟩ := ht.uncut hget
  rcases ht.self with ⟨_, _, hnone, _⟩ | ⟨t', ht', _, _, hopen, hown⟩
  · rw [hnone] at hget
    cases hget
  · obtain rfl : t' = t := Option.some.inj (ht'.symm.trans hget)
    exact ⟨⟨Nat.lt_of_lt_of_le hk ht.nextRef, hopen⟩, fun p hp => .inl (hown p hp),
      (hF _ hframes).imp id fun hw => ⟨hw, hu⟩⟩

/-- A task with such frames is no work that waits. -/
theorem Turned.not_waits (ht : Turned F O k e e') (hF : ∀ st, F st → Working st) : ¬ e'.Waits slot work k := by
  rintro ⟨t, hget, hd, _⟩
  exact hd.not_working (hF _ (ht.uncut hget).1)

/-- How a task goes on, by where it stands. -/
inductive TakesTurn (k : Nat) (e e' : Engine) : Prop where
  /-- It has been cancelled, and ends. -/
  | lost (hl : Lost k e) (ht : Turned (fun _ => False) (· = .cancelled) k e e') (hs : e'.slots = e.slots)
  /-- Its delay begins. -/
  | begins {slot : Nat} {work : Work} (hw : e.Waits slot work k) (hd : ¬ e.DelayEnds k)
      (ht : Turned (· = [.delayOver slot work]) (fun _ => False) k e e') (hs : e'.slots = e.slots)
  /-- Its delay is over, and its work is begun. -/
  | undertakes {slot : Nat} {work : Work} (hw : e.Waits slot work k) (hu : e.Undertakes slot work k)
      (ht : Turned Working (· = .value .nothing) k e e') (hs : e'.slots = e.slots.erase slot)
  /-- Its work goes on. -/
  | works (hw : ∀ t, e.tasks.get? k = some t → Working t.frames)
      (ht : Turned Working (· = .value .nothing) k e e') (hs : e'.slots = e.slots)

theorem Tended.takesTurn (h : Tended e) (hg : e.GoesOn k t) : TakesTurn k e e.runNext := by
  obtain ⟨_, _, _, _, ht⟩ := id hg
  have hself {t' : Task} (ht' : e.tasks.get? k = some t') : t = t' := Option.some.inj (ht.symm.trans ht')
  rcases h.stands k t ht with ⟨slot, work, hd⟩ | ⟨hw, _⟩
  · by_cases hu : e.Uncut t
    · have hwaits : e.Waits slot work k := ⟨t, ht, hd, hu⟩
      generalize hframes : t.frames = st at hd
      cases hd with
      | begins delay =>
        obtain ⟨hturned, hslots⟩ := h.turn_begins hg hu hframes
        refine .begins hwaits ?_ hturned hslots
        rintro ⟨t', slot', work', hg', hframes'⟩
        obtain ⟨_, rfl⟩ := hg.unique hg'
        rw [hframes] at hframes'
        cases hframes'
      | delayed =>
        obtain ⟨hturned, hslots⟩ := h.turn_delayed hg hu hframes
        have hvalue := ((h.handed_cases ht).resolve_right fun hc => hc.1 hu).2
        exact .undertakes hwaits ⟨t, _, hg, hframes, hvalue⟩ hturned hslots
    · obtain ⟨hturned, hslots⟩ := h.turn_lost hg hu
      refine .lost ⟨(h.opened k t ht).1, fun t' ht' => ?_⟩ hturned hslots
      obtain rfl := hself ht'
      exact ⟨⟨slot, work, hd⟩, hu⟩
  · obtain ⟨hturned, hslots⟩ := h.turn_works hg hw
    refine .works (fun t' ht' => ?_) hturned hslots
    obtain rfl := hself ht'
    exact hw

/-- Either no task goes on, or one does and takes its turn. -/
theorem Tended.runNext_cases (h : Tended e) : ((∀ k t, ¬ e.GoesOn k t) ∧ Undisturbed e e.runNext) ∨
    ∃ k t, e.GoesOn k t ∧ TakesTurn k e e.runNext := by
  by_cases hg : ∃ k t, e.GoesOn k t
  · obtain ⟨k, t, hg⟩ := hg
    exact .inr ⟨k, t, hg, h.takesTurn hg⟩
  · have hnone (k : Nat) (t : Task) : ¬ e.GoesOn k t := fun hgo => hg ⟨k, t, hgo⟩
    exact .inl ⟨hnone, undisturbed_runNext hnone⟩

theorem Waits.known (hw : e.Waits slot work k) (h : Tended e) : k < e.nextRef := by
  obtain ⟨t, ht, _⟩ := hw
  exact (h.opened k t ht).1

/-- Whatever course a task takes, the slots go on to hold what waits for them. -/
theorem TakesTurn.debounced (hc : TakesTurn k e e') (h : Debounced e) (hk : k < e.nextRef) : Debounced e' := by
  cases hc with
  | lost hl ht hs =>
    have hb := h.besides_turned ht
    have hnot (slot : Nat) (work : Work) : ¬ e'.Waits slot work k := ht.not_waits (fun _ => False.elim)
    exact h.change hb (ht.allowed hk fun _ => False.elim)
      (h.slots_same hb hs fun slot work => iff_of_false (hnot slot work) hl.not_waits)
  | begins hw hd ht hs =>
    rename_i slot work
    have hb := h.besides_turned ht
    refine h.change hb (ht.allowed hk ?_) (h.slots_same hb hs fun slot' work' => ?_)
    · rintro st rfl
      exact .inl ⟨slot, work, .delayed⟩
    · rcases ht.self with ⟨_, hfalse, _⟩ | ⟨t', ht', hframes, _⟩
      · exact hfalse.elim
      · obtain ⟨t, hget, hdelay, hu⟩ := hw
        have hd' : Delaying slot work t'.frames := hframes ▸ .delayed
        constructor
        · rintro ⟨t₁, ht₁, hd₁, _⟩
          obtain rfl : t' = t₁ := Option.some.inj (ht'.symm.trans ht₁)
          obtain ⟨rfl, rfl⟩ := hd₁.unique hd'
          exact ⟨t, hget, hdelay, hu⟩
        · rintro ⟨t₁, ht₁, hd₁, _⟩
          obtain rfl : t = t₁ := Option.some.inj (hget.symm.trans ht₁)
          obtain ⟨rfl, rfl⟩ := hd₁.unique hdelay
          exact ⟨t', ht', hd', (ht.uncut ht').2⟩
  | undertakes hw hu ht hs =>
    have hb := h.besides_turned ht
    exact h.change hb (ht.allowed hk fun _ => .inr)
      (h.slots_erase hb hs hw fun _ _ => ht.not_waits fun _ => id)
  | works hw ht hs =>
    have hb := h.besides_turned ht
    have hwas (slot : Nat) (work : Work) : ¬ e.Waits slot work k := by
      rintro ⟨t, hget, hd, _⟩
      exact hd.not_working (hw t hget)
    exact h.change hb (ht.allowed hk fun _ => .inr)
      (h.slots_same hb hs fun slot work => iff_of_false (ht.not_waits fun _ => id) (hwas slot work))

end Engine

end LanguageClient
