import LanguageClient.Proofs.Engine.Delayed

/-!
One slot through all that may happen to it. Work that is scheduled is followed from then on (`Fares`): it waits
until the slot is taken, by which it is lost, or until its delay ends, and then it is begun and out of reach.

    waits ──slot taken──▶ lost          never begun
      │
      └──delay ends──▶ begun            never cancelled, never begun again
-/

namespace LanguageClient

/-- What the outside and the connection may do while nothing but delayed work is under way. -/
def Engine.Action.patient : Engine.Action → Bool
  | .ring _ | .arrive _ | .block | .unblock | .failSends _ | .linger | .letGo | .closeChannel => true
  | _ => false

/-- What happens to delayed work: it is scheduled and cancelled, and the first job is run, by which a delay may
    end, or some work may be done. Meanwhile time may pass, and the connection may do what it likes. -/
inductive SlotStep where
  | schedule (slot : Nat) (delay : Int) (work : Work)
  | cancel (slot : Nat)
  | run
  | meanwhile (a : { a : Engine.Action // a.patient = true })

/-- Work is scheduled for the slot, or what waits for it is cancelled. -/
def SlotStep.takes (slot : Nat) : SlotStep → Bool
  | .schedule slot' _ _ | .cancel slot' => slot' == slot
  | .run | .meanwhile _ => false

namespace Engine

/-- The state after a step. -/
def undergo : SlotStep → Engine → Engine
  | .schedule slot delay work, e => (e.scheduleWork slot delay work).2
  | .cancel slot, e => (e.cancelSlot slot).2
  | .run, e => e.runNext
  | .meanwhile a, e => e.act a

/-- The state after some steps. -/
def through (steps : List SlotStep) (e : Engine) : Engine := steps.foldl (fun e s => e.undergo s) e

/-- In one of the steps the work was begun. -/
def UndertakenIn (slot : Nat) (work : Work) (k : Nat) (steps : List SlotStep) (e : Engine) : Prop :=
  ∃ early late, steps = early ++ .run :: late ∧ (e.through early).Undertakes slot work k

/-- One run waits for the slot at most, and that is what is told of the slot. -/
structure Single (slot : Nat) (e : Engine) : Prop where
  one : ∀ work k work' k', e.Waits slot work k → e.Waits slot work' k' → k = k'
  pending : e.slotPending slot = true ↔ ∃ work k, e.Waits slot work k
  cancels : (e.cancelSlot slot).1 = true ↔ ∃ work k, e.Waits slot work k

/-- What becomes of work that was scheduled for the slot as such a task in the steps since. It waits until the slot
    is taken, or its delay ends. It is begun then if the slot was not taken, and leaves the slot, which happens once
    at most. Work that has been begun is done whatever happens to slots, however it comes out, and it does not
    touch them. -/
structure Fares (slot : Nat) (work : Work) (k : Nat) (since : List SlotStep) (first : Engine) : Prop where
  waits : (first.through since).Waits slot work k ↔
    (∀ s ∈ since, s.takes slot = false) ∧ ¬ UndertakenIn slot work k since first
  begins : (first.through since).DelayEnds k →
    ((first.through since).Undertakes slot work k ↔ ∀ s ∈ since, s.takes slot = false)
  leaves : (first.through since).Undertakes slot work k →
    (first.through since).slots.get? slot = some (.task k) ∧
      (first.through since).runNext.slots = (first.through since).slots.erase slot
  once : UndertakenIn slot work k since first → ¬ (first.through since).DelayEnds k
  spared : UndertakenIn slot work k since first → ∀ s slot', s.takes slot' = true →
    Untouched k (first.through since) ((first.through since).undergo s)
  done : UndertakenIn slot work k since first →
    ∀ o, (first.through since).outcome? (.task k) = some o → o = .value .nothing
  aside : UndertakenIn slot work k since first → ∀ t, (first.through since).GoesOn k t →
    (first.through since).runNext.slots = (first.through since).slots

/-- The work has been begun: it goes on, or has been done. -/
structure Begun (k : Nat) (e : Engine) : Prop where
  known : k < e.nextRef
  works : ∀ t, e.tasks.get? k = some t → Working t.frames
  came : ∀ o, e.outcome? (.task k) = some o → o = .value .nothing

variable {e e' : Engine} {k slot : Nat} {work : Work} {steps : List SlotStep}

theorem undisturbed_patient {a : Action} (h : a.patient = true) (e : Engine) : Undisturbed e (e.act a) := by
  cases a with
  | ring time => exact undisturbed_tallies (agrees_ringAt time e).toTallies
  | arrive x => exact undisturbed_arrive x e
  | block => exact undisturbed_of_eq rfl rfl rfl (Nat.le_refl _)
  | unblock => exact undisturbed_unblock e
  | failSends f => exact undisturbed_of_eq rfl rfl rfl (Nat.le_refl _)
  | linger => exact undisturbed_of_eq rfl rfl rfl (Nat.le_refl _)
  | letGo => exact undisturbed_letGo e
  | closeChannel => exact undisturbed_closeChannel e
  | _ => cases h

/-- No step puts anything out of order. -/
theorem Debounced.undergo (h : Debounced e) (s : SlotStep) :
    Debounced (e.undergo s) ∧ e.nextRef ≤ (e.undergo s).nextRef := by
  cases s with
  | schedule slot delay work =>
    obtain ⟨hd, hv, _⟩ := h.scheduleWork slot delay work
    exact ⟨hd, hv.nextRef⟩
  | cancel slot =>
    obtain ⟨hd, hv, _⟩ := h.cancelSlot slot
    exact ⟨hd, hv.nextRef⟩
  | run =>
    rcases h.runNext_cases with ⟨_, hu⟩ | ⟨k, t, hg, hc⟩
    · exact ⟨h.undisturbed hu, hu.nextRef⟩
    · obtain ⟨_, _, _, _, ht⟩ := hg
      have hk := (h.opened k t ht).1
      refine ⟨hc.debounced h hk, ?_⟩
      cases hc with
      | lost _ ht | begins _ _ ht | undertakes _ _ ht | works _ ht => exact ht.nextRef
  | meanwhile a =>
    have hu := undisturbed_patient a.2 e
    exact ⟨h.undisturbed hu, hu.nextRef⟩

/-- A step leaves a task alone that does not go on, unless it waits for a slot that is taken. -/
theorem Debounced.untouched_undergo (h : Debounced e) (hk : k < e.nextRef) {s : SlotStep}
    (hrun : s = .run → ∀ t, ¬ e.GoesOn k t)
    (hwaits : ∀ slot work, s.takes slot = true → ¬ e.Waits slot work k) : Untouched k e (e.undergo s) := by
  cases s with
  | schedule slot delay work =>
    exact (h.scheduleWork slot delay work).2.1.untouched k hk fun work => hwaits slot work (beq_self_eq_true slot)
  | cancel slot =>
    exact (h.cancelSlot slot).2.1.untouched k hk fun work => hwaits slot work (beq_self_eq_true slot)
  | run =>
    rcases h.runNext_cases with ⟨_, hu⟩ | ⟨j, t, hg, hc⟩
    · exact h.untouched hu hk
    · have hne : k ≠ j := by
        rintro rfl
        exact hrun rfl t hg
      cases hc with
      | lost _ ht | begins _ _ ht | undertakes _ _ ht | works _ ht => exact h.untouched_turned ht hk hne
  | meanwhile a => exact h.untouched (undisturbed_patient a.2 e) hk

theorem Begun.untouched (h : Begun k e) (hu : Untouched k e e') (hn : e.nextRef ≤ e'.nextRef) : Begun k e' where
  known := Nat.lt_of_lt_of_le h.known hn
  works t ht := h.works t (hu.task.symm.trans ht)
  came o ho := by
    rw [outcome?_eq_join, hu.ends, ← outcome?_eq_join] at ho
    exact h.came o ho

theorem Begun.not_waits (h : Begun k e) : ¬ e.Waits slot work k := by
  rintro ⟨t, ht, hd, _⟩
  exact hd.not_working (h.works t ht)

/-- Work that has run is begun. -/
theorem Turned.begun (ht : Turned Working (· = .value .nothing) k e e') (hk : k < e.nextRef) : Begun k e' where
  known := Nat.lt_of_lt_of_le hk ht.nextRef
  works _ hget := (ht.uncut hget).1
  came o ho := by
    rcases ht.self with ⟨o', ho', _, hs⟩ | ⟨_, _, _, _, hopen, _⟩
    · rw [outcome?_of_standing hs] at ho
      exact Option.some.inj ho ▸ ho'
    · rw [outcome?_eq_join, hopen] at ho
      cases ho

/-! ### One task through all steps -/

theorem Lost.undergo (hl : Lost k e) (h : Debounced e) (s : SlotStep) : Lost k (e.undergo s) := by
  have hn := (h.undergo s).2
  by_cases hrun : s = .run ∧ ∃ t, e.GoesOn k t
  · obtain ⟨rfl, t, hg⟩ := hrun
    obtain ⟨_, _, _, _, ht⟩ := id hg
    cases h.takesTurn hg with
    | lost _ hturned =>
      refine ⟨Nat.lt_of_lt_of_le hl.known hn, fun t' ht' => ?_⟩
      exact (hturned.uncut ht').1.elim
    | begins hw => exact absurd hw hl.not_waits
    | undertakes hw => exact absurd hw hl.not_waits
    | works hw =>
      obtain ⟨⟨_, _, hd⟩, _⟩ := hl.cut t ht
      exact absurd (hw t ht) hd.not_working
  · refine hl.untouched (h.untouched_undergo hl.known (fun hs t hg => hrun ⟨hs, t, hg⟩) ?_) hn
    exact fun _ _ _ => hl.not_waits

theorem Begun.undergo (hb : Begun k e) (h : Debounced e) (s : SlotStep) : Begun k (e.undergo s) := by
  have hn := (h.undergo s).2
  by_cases hrun : s = .run ∧ ∃ t, e.GoesOn k t
  · obtain ⟨rfl, t, hg⟩ := hrun
    obtain ⟨_, _, _, _, ht⟩ := id hg
    exact (h.turn_works hg (hb.works t ht)).1.begun hb.known
  · refine hb.untouched (h.untouched_undergo hb.known (fun hs t hg => hrun ⟨hs, t, hg⟩) ?_) hn
    exact fun _ _ _ => hb.not_waits

theorem Lost.not_undertakes (hl : Lost k e) (h : Debounced e) : ¬ e.Undertakes slot work k := by
  rintro ⟨t, v, hg, _, hvalue⟩
  obtain ⟨_, _, _, _, ht⟩ := hg
  rcases h.handed_cases ht with ⟨hu, _⟩ | ⟨_, hc⟩
  · exact (hl.cut t ht).2 hu
  · rw [hc] at hvalue
    cases hvalue

theorem Begun.not_delayEnds (hb : Begun k e) : ¬ e.DelayEnds k := by
  rintro ⟨t, slot, work, hg, hframes⟩
  obtain ⟨_, _, _, _, ht⟩ := hg
  have hworks := hb.works t ht
  rw [hframes] at hworks
  cases hworks

theorem Undertakes.delayEnds (h : e.Undertakes slot work k) : e.DelayEnds k := by
  obtain ⟨t, _, hg, hframes, _⟩ := h
  exact ⟨t, slot, work, hg, hframes⟩

/-- What waits is begun when its delay ends. -/
theorem Waits.undertakes (hw : e.Waits slot work k) (h : Debounced e) (hd : e.DelayEnds k) :
    e.Undertakes slot work k := by
  obtain ⟨t, slot', work', hg, hframes⟩ := hd
  obtain ⟨_, _, _, _, ht⟩ := id hg
  obtain ⟨t', ht', hdelay, hu⟩ := hw
  obtain rfl : t = t' := Option.some.inj (ht.symm.trans ht')
  have hdelay' : Delaying slot' work' t.frames := hframes ▸ .delayed
  obtain ⟨rfl, rfl⟩ := hdelay.unique hdelay'
  exact ⟨t, _, hg, hframes, ((h.handed_cases ht).resolve_right fun hc => hc.1 hu).2⟩

/-- A step takes the slot, or begins the work, or what waits goes on to wait. -/
theorem Waits.undergo (hw : e.Waits slot work k) (h : Debounced e) (s : SlotStep) :
    (s.takes slot = true ∧ Lost k (e.undergo s)) ∨
    (s = .run ∧ e.Undertakes slot work k ∧ Begun k (e.undergo s)) ∨
    (s.takes slot = false ∧ ¬ (s = .run ∧ e.Undertakes slot work k) ∧ (e.undergo s).Waits slot work k) := by
  have hk := hw.known h.toTended
  cases htakes : s.takes slot with
  | true =>
    left
    refine ⟨rfl, ?_⟩
    cases s with
    | schedule slot' delay work' =>
      obtain rfl := beq_iff_eq.mp htakes
      exact (h.scheduleWork slot' delay work').2.1.lost work k hw
    | cancel slot' =>
      obtain rfl := beq_iff_eq.mp htakes
      exact (h.cancelSlot slot').2.1.lost work k hw
    | run => cases htakes
    | meanwhile a => cases htakes
  | false =>
    right
    by_cases hrun : s = .run ∧ ∃ t, e.GoesOn k t
    · obtain ⟨rfl, t, hg⟩ := hrun
      obtain ⟨t₀, ht₀, hd₀, _⟩ := id hw
      cases h.takesTurn hg with
      | lost hl => exact absurd hw hl.not_waits
      | begins hw' hd ht =>
        refine .inr ⟨rfl, fun hu => hd hu.2.delayEnds, ?_⟩
        obtain ⟨t₁, ht₁, hd₁, _⟩ := hw'
        obtain rfl : t₀ = t₁ := Option.some.inj (ht₀.symm.trans ht₁)
        obtain ⟨rfl, rfl⟩ := hd₀.unique hd₁
        rcases ht.self with ⟨_, hfalse, _⟩ | ⟨t', ht', hframes, _⟩
        · exact hfalse.elim
        · exact ⟨t', ht', hframes ▸ .delayed, (ht.uncut ht').2⟩
      | undertakes _ hu ht => exact .inl ⟨rfl, hw.undertakes h hu.delayEnds, ht.begun hk⟩
      | works hworks => exact absurd (hworks t₀ ht₀) hd₀.not_working
    · refine .inr ⟨rfl, fun hu => ?_, ?_⟩
      · obtain ⟨t, _, hg, _⟩ := hu.2
        exact hrun ⟨hu.1, t, hg⟩
      · refine (h.untouched_undergo hk (fun hs t hg => hrun ⟨hs, t, hg⟩) ?_).waits_iff.mpr hw
        rintro slot' work' hs ⟨t₁, ht₁, hd₁, _⟩
        obtain ⟨t₀, ht₀, hd₀, _⟩ := hw
        obtain rfl : t₀ = t₁ := Option.some.inj (ht₀.symm.trans ht₁)
        obtain ⟨rfl, -⟩ := hd₀.unique hd₁
        rw [hs] at htakes
        cases htakes

theorem undertakenIn_cons {s : SlotStep} : UndertakenIn slot work k (s :: steps) e ↔
    (s = .run ∧ e.Undertakes slot work k) ∨ UndertakenIn slot work k steps (e.undergo s) := by
  constructor
  · rintro ⟨early, late, heq, hu⟩
    cases early with
    | nil =>
      obtain ⟨rfl, _⟩ := List.cons.inj heq
      exact .inl ⟨rfl, hu⟩
    | cons s' early =>
      obtain ⟨rfl, rfl⟩ := List.cons.inj heq
      exact .inr ⟨early, late, rfl, hu⟩
  · rintro (⟨rfl, hu⟩ | ⟨early, late, rfl, hu⟩)
    · exact ⟨[], steps, rfl, hu⟩
    · exact ⟨s :: early, late, rfl, hu⟩

theorem not_undertakenIn_nil : ¬ UndertakenIn slot work k [] e := by
  rintro ⟨early, late, heq, _⟩
  cases early <;> cases heq

theorem Debounced.through (h : Debounced e) (steps : List SlotStep) : Debounced (e.through steps) := by
  induction steps generalizing e with
  | nil => exact h
  | cons s steps ih => exact ih (h.undergo s).1

/-- What is lost is never begun. -/
theorem Lost.through (hl : Lost k e) (h : Debounced e) (slot : Nat) (work : Work) (steps : List SlotStep) :
    Lost k (e.through steps) ∧ ¬ UndertakenIn slot work k steps e := by
  induction steps generalizing e with
  | nil => exact ⟨hl, not_undertakenIn_nil⟩
  | cons s steps ih =>
    obtain ⟨hlost, hnever⟩ := ih (hl.undergo h s) (h.undergo s).1
    refine ⟨hlost, fun hin => ?_⟩
    rcases undertakenIn_cons.mp hin with ⟨_, hu⟩ | hin
    · exact hl.not_undertakes h hu
    · exact hnever hin

theorem Begun.through (hb : Begun k e) (h : Debounced e) (steps : List SlotStep) :
    Begun k (e.through steps) := by
  induction steps generalizing e with
  | nil => exact hb
  | cons s steps ih => exact ih (hb.undergo h s) (h.undergo s).1

/-- What waited has gone on to wait in all steps, or is lost since the slot was taken, or has been begun. -/
inductive ComesTo (slot : Nat) (work : Work) (k : Nat) (steps : List SlotStep) (e : Engine) : Prop where
  | waits (hw : (e.through steps).Waits slot work k) (hnot : ∀ s ∈ steps, s.takes slot = false)
      (hnever : ¬ UndertakenIn slot work k steps e)
  | lost (hl : Lost k (e.through steps)) (htaken : ¬ ∀ s ∈ steps, s.takes slot = false)
      (hnever : ¬ UndertakenIn slot work k steps e)
  | begun (hb : Begun k (e.through steps)) (hin : UndertakenIn slot work k steps e)

theorem Waits.through (hw : e.Waits slot work k) (h : Debounced e) (steps : List SlotStep) :
    ComesTo slot work k steps e := by
  induction steps generalizing e with
  | nil => exact .waits hw (List.forall_mem_nil _) not_undertakenIn_nil
  | cons s steps ih =>
    have h' := (h.undergo s).1
    rcases hw.undergo h s with ⟨htakes, hl⟩ | ⟨rfl, hu, hb⟩ | ⟨htakes, hnow, hw'⟩
    · obtain ⟨hlost, hnever⟩ := hl.through h' slot work steps
      refine .lost hlost (fun hall => ?_) fun hin => (undertakenIn_cons.mp hin).elim ?_ hnever
      · rw [hall s (List.mem_cons_self ..)] at htakes
        cases htakes
      · rintro ⟨rfl, _⟩
        cases htakes
    · exact .begun (hb.through h' steps) (undertakenIn_cons.mpr (.inl ⟨rfl, hu⟩))
    · have hfirst (hnever : ¬ UndertakenIn slot work k steps (e.undergo s)) :
          ¬ UndertakenIn slot work k (s :: steps) e :=
        fun hin => (undertakenIn_cons.mp hin).elim hnow hnever
      cases ih hw' h' with
      | waits hw'' hnot hn => exact .waits hw'' (List.forall_mem_cons.mpr ⟨htakes, hnot⟩) (hfirst hn)
      | lost hl htaken hn => exact .lost hl (fun hall => htaken (List.forall_mem_cons.mp hall).2) (hfirst hn)
      | begun hb hin => exact .begun hb (undertakenIn_cons.mpr (.inr hin))

theorem Waits.fares (hw : e.Waits slot work k) (h : Debounced e) (steps : List SlotStep) :
    Fares slot work k steps e := by
  have hnow := h.through steps
  -- once begun, it is out of reach
  have hbegun (hin : UndertakenIn slot work k steps e) : Begun k (e.through steps) := by
    cases hw.through h steps with
    | waits _ _ hn => exact absurd hin hn
    | lost _ _ hn => exact absurd hin hn
    | begun hb => exact hb
  refine ⟨?_, fun hd => ?_, fun hu => ?_, fun hin => (hbegun hin).not_delayEnds, fun hin s slot' hs => ?_,
    fun hin => (hbegun hin).came, fun hin t hg => ?_⟩
  · cases hw.through h steps with
    | waits hw' hnot hn => exact iff_of_true hw' ⟨hnot, hn⟩
    | lost hl htaken => exact iff_of_false hl.not_waits fun hand => htaken hand.1
    | begun hb hin => exact iff_of_false hb.not_waits fun hand => hand.2 hin
  · cases hw.through h steps with
    | waits hw' hnot => exact iff_of_true (hw'.undertakes hnow hd) hnot
    | lost hl htaken => exact iff_of_false (hl.not_undertakes hnow) htaken
    | begun hb => exact absurd hd hb.not_delayEnds
  · have hw' : (e.through steps).Waits slot work k := by
      cases hw.through h steps with
      | waits hw' => exact hw'
      | lost hl => exact absurd hu (hl.not_undertakes hnow)
      | begun hb => exact absurd hu.delayEnds hb.not_delayEnds
    obtain ⟨t, _, hg, hframes, _⟩ := hu
    obtain ⟨t', ht', _, hcut⟩ := id hw'
    obtain ⟨_, _, _, _, ht⟩ := id hg
    obtain rfl : t = t' := Option.some.inj (ht.symm.trans ht')
    exact ⟨hnow.held hw', (hnow.turn_delayed hg hcut hframes).2⟩
  · have hb := hbegun hin
    refine hnow.untouched_undergo hb.known (fun hrun => ?_) fun _ _ _ => hb.not_waits
    rw [hrun] at hs
    cases hs
  · obtain ⟨_, _, _, _, ht⟩ := id hg
    exact (hnow.turn_works hg ((hbegun hin).works t ht)).2

theorem Debounced.single (h : Debounced e) (slot : Nat) : Single slot e := by
  refine ⟨fun _ _ _ _ => h.waits_unique, ?_, ?_⟩
  · unfold slotPending
    cases hr : e.slots.get? slot with
    | none =>
      refine iff_of_false Bool.false_ne_true ?_
      rintro ⟨work, k, hw⟩
      rw [h.held hw] at hr
      cases hr
    | some r =>
      obtain ⟨work, k, rfl, hw⟩ := (h.slots slot r).mp hr
      obtain ⟨t, ht, _⟩ := id hw
      refine iff_of_true ?_ ⟨work, k, hw⟩
      simp only [isSettled, outcome?_eq_join, (h.opened k t ht).2]
      rfl
  · constructor
    · intro hhit
      by_contra hnone
      rw [h.cancelSlot_empty fun work k hw => hnone ⟨work, k, hw⟩] at hhit
      cases hhit
    · rintro ⟨work, k, hw⟩
      exact (h.cancelSlot_waits hw).1

/-- Whatever is scheduled and cancelled, and however the delays and the work come to their ends in between: one run
    at most waits for a slot, which is what asking for it and cancelling it tell; and of all that is ever scheduled
    for the slot just that is begun which is not displaced before its delay ends, once, and then nothing done with
    slots reaches it. -/
theorem slots_single (ht : e.tasks = []) (hs : e.slots = []) (steps : List SlotStep) (slot : Nat) :
    Single slot (e.through steps) ∧
    ∀ before delay work since, steps = before ++ .schedule slot delay work :: since →
      Fares slot work (e.through before).nextRef since ((e.through before).undergo (.schedule slot delay work)) := by
  have hstart : Debounced e := by
    have hnone (k : Nat) : e.tasks.get? k = none := by rw [ht]; rfl
    refine ⟨⟨?_, ?_, ?_, ?_⟩, fun slot r => ?_⟩
    · simp [hnone]
    · simp [hnone]
    · simp [hnone]
    · simp [hnone]
    · simp [hs, Waits, hnone]
  refine ⟨(hstart.through steps).single slot, fun before delay work since _ => ?_⟩
  have hbefore := hstart.through before
  obtain ⟨hd, _, hw⟩ := hbefore.scheduleWork slot delay work
  exact hw.fares hd since

/-- Work that takes some time, and fails then. -/
def failing : Work := .rehearsal "failing" 5 (some (.runtime "out of order"))

/-- Other work has begun its delay. -/
def beforeFailing : List SlotStep := [.schedule 0 10 (.rehearsal "displaced" 5 none), .run]

/-- The work is begun, and more is scheduled and cancelled before it fails. -/
def sinceFailing : List SlotStep :=
  [.run, .run, .meanwhile ⟨.ring 10, rfl⟩, .run, .run, .run, .schedule 0 10 (.rehearsal "cancelled" 0 none), .run,
    .cancel 0, .meanwhile ⟨.ring 15, rfl⟩, .run, .run, .run]

theorem slots_single_failing :
    (create usual { capabilities := .null }).tasks = [] ∧ (create usual { capabilities := .null }).slots = [] ∧
      ((create usual { capabilities := .null }).through
        (beforeFailing ++ .schedule 0 10 failing :: sinceFailing)).rehearsals = [("failing", "start", 10)] ∧
      Single 0 ((create usual { capabilities := .null }).through
        (beforeFailing ++ .schedule 0 10 failing :: sinceFailing)) ∧
      Fares 0 failing ((create usual { capabilities := .null }).through beforeFailing).nextRef sinceFailing
        (((create usual { capabilities := .null }).through beforeFailing).undergo (.schedule 0 10 failing)) :=
  have hslots := slots_single (e := create usual { capabilities := .null }) rfl rfl
    (beforeFailing ++ .schedule 0 10 failing :: sinceFailing) 0
  ⟨rfl, rfl, rfl, hslots.1, hslots.2 beforeFailing 10 failing sinceFailing rfl⟩

end Engine

end LanguageClient
