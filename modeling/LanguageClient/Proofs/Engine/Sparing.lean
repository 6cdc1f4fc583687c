import LanguageClient.Proofs.Client.Correlation

/-!
Whom cancelling can reach. The engine cancels on its own only the work in a document's slot and the
reader (`Charge`), and their tasks stand so that this is soon done: each waits for a promise of its
own, or for its turn (`Brief`). A task that is cancelled takes note of it, or what it waits for is
settled as cancelled, and no other task waits for that (`Spared`). So whatever a step does
(`Harmless`), no other task is cut short.

    slot, reader ──cancel──▶ brief task ──▶ its own promise
-/

namespace LanguageClient

namespace Engine

/-- The frames of delayed work, and of the reader. -/
inductive Brief : List Frame → Prop where
  | begins (slot : Nat) (delay : Int) (work : Work) : Brief [.begin (.debounced slot delay work)]
  | delayed (slot : Nat) (work : Work) : Brief [.delayOver slot work]
  | sends (method : String) (message : Json) :
      Brief [.gate (.notify method) message, .changeSent, .workDone]
  | rehearses (name : String) (fails : Option Failure) : Brief [.rehearsed name fails, .workDone]
  | reads : Brief [.begin .read]
  | receives : Brief [.received]

end Engine

/-- A task of that kind, which waits for a promise of its own if it waits at all. -/
structure Task.Brief (t : Task) : Prop where
  frames : Engine.Brief t.frames
  waiting : ∀ p, t.waiting = some p → p.sole = true

theorem Task.Brief.of_place {t t' : Task} (h : t.Brief) (hp : t'.place = t.place) : t'.Brief := by
  obtain ⟨hframes, hwaiting⟩ := Prod.mk.inj hp
  exact ⟨hframes ▸ h.frames, fun p hw => h.waiting p (hwaiting ▸ hw)⟩

namespace Engine

variable {n : Option Nat} {since k : Nat} {st st' : List Frame} {c c' : Config} {e e' : Engine}

/-! ### Who may be cancelled -/

/-- The engine cancels this on its own: it stands in a slot, or is the reader. -/
def Charge (r : Ref) (e : Engine) : Prop :=
  (∃ slot, e.slots.get? slot = some r) ∨ e.client.reader = some r

/-- The task is brief, or it is the brief one that runs. -/
def Expendable (n : Option Nat) (k : Nat) (e : Engine) : Prop :=
  k < e.nextRef ∧ (n = some k ∨ ∀ t, e.tasks.get? k = some t → t.Brief)

/-- What a task with such a stack may see settled as cancelled: what a brief task waits for, the
    promise of a group, and the answer to its own request. -/
def Forgone (st : List Frame) (p : Ref) (e : Engine) : Prop :=
  (∃ k t, e.tasks.get? k = some t ∧ t.waiting = some p ∧ t.Brief) ∨
    (∃ group, p = .group group) ∨ ∃ id, p = .answer id ∧ id ∈ st.filterMap Frame.request?

/-- Groups that are promised have their numbers, and whoever is called about a group is called since it has
    ended. A nap comes to its end, or is cancelled. -/
structure Punctual (e : Engine) : Prop where
  numbered : ∀ k o, e.standing (.group k) = some o → k < e.nextRef
  ended : ∀ l k, .call l (.group k) ∈ e.ready → ∃ o, e.outcome? (.group k) = some o
  naps : ∀ k o, e.outcome? (.nap k) = some o → o = .value .nothing ∨ o = .cancelled

/-- Only brief tasks are cut short. The task that runs is named if it is a brief one. Groups that are
    told of something are there. -/
structure Spared (n : Option Nat) (since : Nat) (e : Engine) : Prop where
  bounded : since ≤ e.nextRef
  grouped : ∀ k r, e.Listens k r → k < e.nextRef
  punctual : e.Punctual
  charges : ∀ r, e.Charge r → ∃ k, r = .task k ∧ e.Expendable n k
  opened : ∀ k t, e.tasks.get? k = some t → k < e.nextRef ∧ e.standing (.task k) = some none
  flagged : ∀ k t, e.tasks.get? k = some t → t.cancelRequested = true → n = some k ∨ t.Brief
  known : ∀ k t p, e.tasks.get? k = some t → t.waiting = some p → p.sole = true → p.number < since
  apart : ∀ k t k' t' p, p.sole = true → e.tasks.get? k = some t → t.waiting = some p →
    e.tasks.get? k' = some t' → t'.waiting = some p → k' = k
  cancelled : ∀ p, p.sole = true → e.outcome? p = some .cancelled → p.number < since ∧
    ∀ k t, e.tasks.get? k = some t → t.waiting = some p → t.Brief
  running : ∀ k t, n = some k → e.tasks.get? k = some t → t.waiting = none

/-- How a group of tasks ends that nobody has asked to stop: with a value when all of them have ended, or as
    one of them that came to no value. -/
def Concludes (members : List Ref) (o : Outcome) (e : Engine) : Prop :=
  ((∃ v, o = .value v) ∧ ∀ r ∈ members, ∃ o, e.outcome? r = some o) ∨
    ∃ r ∈ members, e.outcome? r = some o ∧ ∀ v, o ≠ .value v

/-- How many of these have not ended. -/
def outstanding (members : List Ref) (e : Engine) : Nat := members.countP fun r => (e.outcome? r).isNone

/-- A group of tasks that nobody has asked to stop. It is told of no others, of each of them once at most,
    and it listens to those that have not ended. Of those that have, it has counted each, or is still to be told.
    It ends when it has counted them all, if not before. -/
structure Herded (k : Nat) (members : List Ref) (e : Engine) : Prop where
  known : k < e.nextRef
  group : ∃ group, e.groups.get? k = some group ∧ group.members = members ∧
    group.cancelRequested = false ∧ group.finished + e.pledges k ≤ members.length
  tasks : ∀ r ∈ members, ∃ m, r = .task m ∧ m < e.nextRef
  heard : ∀ r, e.Listens k r → r ∈ members
  watched : ∀ r ∈ members, e.outcome? r = none → e.Hears k r
  ended : ∀ o, e.outcome? (.group k) = some o → e.Concludes members o
  distinct : members.Nodup
  counted : ∀ group, e.groups.get? k = some group →
    members.length ≤ group.finished + e.ready.countP (Job.tells k) + e.outstanding members
  unended : ∀ group, e.groups.get? k = some group → e.standing (.group k) = some none → members ≠ [] →
    group.finished < members.length

/-- Nothing but brief tasks has been cut short. No task has ended, and those that are new have yet to
    begin. No group of tasks has been cut short either. -/
structure Harmless (n : Option Nat) (st : List Frame) (e e' : Engine) : Prop where
  nextRef : e.nextRef ≤ e'.nextRef
  listens : ∀ k r, e'.Listens k r → e.Listens k r ∨ k < e'.nextRef
  groups : ∀ k members, e.Herded k members → e'.Herded k members
  punctual : e.Punctual → e'.Punctual
  charges : ∀ r, e'.Charge r → e.Charge r ∨ ∃ k, r = .task k ∧ e.nextRef ≤ k ∧ k < e'.nextRef ∧
    ∀ t, e'.tasks.get? k = some t → t.Brief
  tasks : ∀ k t', e'.tasks.get? k = some t' →
    (∃ t, e.tasks.get? k = some t ∧ t'.place = t.place ∧
      (t'.cancelRequested = true → t.cancelRequested = true ∨ n = some k ∨ t.Brief)) ∨
    (e.nextRef ≤ k ∧ k < e'.nextRef ∧ e'.standing (.task k) = some none ∧ t'.waiting = none ∧
      (t'.cancelRequested = true → n = some k ∨ t'.Brief))
  cancelled : ∀ p, e'.outcome? p = some .cancelled → e.outcome? p = some .cancelled ∨ e.Forgone st p
  ends : ∀ k < e.nextRef, e'.standing (.task k) = e.standing (.task k)

/-- Where a task of old stands, it stood. -/
theorem Harmless.task {t' : Task} (h : Harmless n st e e') (hk : k < e.nextRef)
    (ht : e'.tasks.get? k = some t') : ∃ t, e.tasks.get? k = some t ∧ t'.place = t.place ∧
      (t'.cancelRequested = true → t.cancelRequested = true ∨ n = some k ∨ t.Brief) :=
  (h.tasks k t' ht).resolve_right fun hnew => absurd hk (Nat.not_lt.mpr hnew.1)

theorem Harmless.waited {t' : Task} {p : Ref} (h : Harmless n st e e') (ht : e'.tasks.get? k = some t')
    (hw : t'.waiting = some p) : ∃ t, e.tasks.get? k = some t ∧ t.waiting = some p ∧
      t'.place = t.place := by
  rcases h.tasks k t' ht with ⟨t, hold, hp, _⟩ | ⟨_, _, _, hnone, _⟩
  · have hsame : t'.waiting = t.waiting := congrArg Prod.snd hp
    exact ⟨t, hold, hsame.symm.trans hw, hp⟩
  · rw [hnone] at hw
    cases hw

theorem Forgone.harmless {p : Ref} (h : e'.Forgone st p) (hs : Harmless n st e e') :
    e.Forgone st p := by
  rcases h with ⟨k, t', ht', hw, hb⟩ | h
  · obtain ⟨t, ht, hw, hp⟩ := hs.waited ht' hw
    exact .inl ⟨k, t, ht, hw, hb.of_place hp.symm⟩
  · exact .inr h

theorem Harmless.trans {e₁ e₂ e₃ : Engine} (h : Harmless n st e₁ e₂) (h' : Harmless n st e₂ e₃) :
    Harmless n st e₁ e₃ where
  nextRef := Nat.le_trans h.nextRef h'.nextRef
  listens k r hl := by
    rcases h'.listens k r hl with hl | hk
    · exact (h.listens k r hl).imp id (Nat.lt_of_lt_of_le · h'.nextRef)
    · exact .inr hk
  groups k members hk := h'.groups k members (h.groups k members hk)
  punctual hp := h'.punctual (h.punctual hp)
  charges r hr := by
    rcases h'.charges r hr with hr | ⟨k, hk, hge, hlt, hb⟩
    · rcases h.charges r hr with hr | ⟨k, hk, hge, hlt, hb⟩
      · exact .inl hr
      · refine .inr ⟨k, hk, hge, Nat.lt_of_lt_of_le hlt h'.nextRef, fun t ht => ?_⟩
        obtain ⟨t', ht', hp, _⟩ := h'.task hlt ht
        exact (hb t' ht').of_place hp
    · exact .inr ⟨k, hk, Nat.le_trans h.nextRef hge, hlt, hb⟩
  tasks k t'' ht'' := by
    rcases h'.tasks k t'' ht'' with ⟨t', ht', hp', hflag'⟩ | ⟨hge, hlt, hopen, hw, hflag⟩
    · rcases h.tasks k t' ht' with ⟨t, ht, hp, hflag⟩ | ⟨hge, hlt, hopen, hw, hflag⟩
      · refine .inl ⟨t, ht, hp'.trans hp, fun hstop => ?_⟩
        rcases hflag' hstop with hstop | hrun | hb
        · exact hflag hstop
        · exact .inr (.inl hrun)
        · exact .inr (.inr (hb.of_place hp.symm))
      · have hsame : t''.waiting = t'.waiting := congrArg Prod.snd hp'
        refine .inr ⟨hge, Nat.lt_of_lt_of_le hlt h'.nextRef, (h'.ends k hlt).trans hopen,
          hsame.trans hw, fun hstop => ?_⟩
        rcases hflag' hstop with hstop | hrun | hb
        · exact (hflag hstop).imp id (·.of_place hp')
        · exact .inl hrun
        · exact .inr (hb.of_place hp')
    · exact .inr ⟨Nat.le_trans h.nextRef hge, hlt, hopen, hw, hflag⟩
  cancelled p hp := by
    rcases h'.cancelled p hp with hp | hp
    · exact h.cancelled p hp
    · exact .inr (hp.harmless h)
  ends k hk := (h'.ends k (Nat.lt_of_lt_of_le hk h.nextRef)).trans (h.ends k hk)

theorem Spared.harmless (h : Spared n since e) (hs : Harmless n st e e') : Spared n since e' where
  bounded := Nat.le_trans h.bounded hs.nextRef
  grouped k r hl := (hs.listens k r hl).elim
    (fun hl => Nat.lt_of_lt_of_le (h.grouped k r hl) hs.nextRef) id
  punctual := hs.punctual h.punctual
  charges r hr := by
    rcases hs.charges r hr with hr | ⟨k, hk, _, hlt, hb⟩
    · obtain ⟨k, hk, hlt, hb⟩ := h.charges r hr
      refine ⟨k, hk, Nat.lt_of_lt_of_le hlt hs.nextRef, hb.imp id fun hb t' ht' => ?_⟩
      obtain ⟨t, ht, hp, _⟩ := hs.task hlt ht'
      exact (hb t ht).of_place hp
    · exact ⟨k, hk, hlt, .inr hb⟩
  opened k t' ht' := by
    rcases hs.tasks k t' ht' with ⟨t, ht, _⟩ | ⟨_, hlt, hopen, _⟩
    · obtain ⟨hlt, hopen⟩ := h.opened k t ht
      exact ⟨Nat.lt_of_lt_of_le hlt hs.nextRef, (hs.ends k hlt).trans hopen⟩
    · exact ⟨hlt, hopen⟩
  flagged k t' ht' hstop := by
    rcases hs.tasks k t' ht' with ⟨t, ht, hp, hflag⟩ | ⟨_, _, _, _, hflag⟩
    · rcases hflag hstop with hstop | hrun | hb
      · exact (h.flagged k t ht hstop).imp id (·.of_place hp)
      · exact .inl hrun
      · exact .inr (hb.of_place hp)
    · exact hflag hstop
  known k t' p ht' hw hp := by
    obtain ⟨t, ht, hw, _⟩ := hs.waited ht' hw
    exact h.known k t p ht hw hp
  apart k t k' t' p hp ht hw ht' hw' := by
    obtain ⟨t₁, ht₁, hw₁, _⟩ := hs.waited ht hw
    obtain ⟨t₂, ht₂, hw₂, _⟩ := hs.waited ht' hw'
    exact h.apart k t₁ k' t₂ p hp ht₁ hw₁ ht₂ hw₂
  cancelled p hp hout := by
    rcases hs.cancelled p hout with hout | ⟨k₀, t₀, ht₀, hw₀, hb⟩ | ⟨group, rfl⟩ | ⟨id, rfl, _⟩
    · obtain ⟨hlt, hb⟩ := h.cancelled p hp hout
      refine ⟨hlt, fun k t' ht' hw => ?_⟩
      obtain ⟨t, ht, hw, hplace⟩ := hs.waited ht' hw
      exact (hb k t ht hw).of_place hplace
    · refine ⟨h.known k₀ t₀ p ht₀ hw₀ hp, fun k t' ht' hw => ?_⟩
      obtain ⟨t, ht, hw, hplace⟩ := hs.waited ht' hw
      obtain rfl := h.apart k₀ t₀ k t p hp ht₀ hw₀ ht hw
      obtain rfl : t = t₀ := Option.some.inj (ht.symm.trans ht₀)
      exact hb.of_place hplace
    · cases hp
    · cases hp
  running k t' hrun ht' := by
    rcases hs.tasks k t' ht' with ⟨t, ht, hp, _⟩ | ⟨_, _, _, hnone, _⟩
    · have hsame : t'.waiting = t.waiting := congrArg Prod.snd hp
      exact hsame.trans (h.running k t hrun ht)
    · exact hnone

/-! ### Groups -/

theorem Concludes.mono {members : List Ref} {o : Outcome} (h : e.Concludes members o)
    (hs : ∀ r ∈ members, ∀ o, e.outcome? r = some o → e'.outcome? r = some o) :
    e'.Concludes members o := by
  rcases h with ⟨hv, hall⟩ | ⟨r, hr, ho, hv⟩
  · refine .inl ⟨hv, fun r hr => ?_⟩
    obtain ⟨o, ho⟩ := hall r hr
    exact ⟨o, hs r hr o ho⟩
  · exact .inr ⟨r, hr, hs r hr o ho, hv⟩

theorem outstanding_congr {members : List Ref} (h : ∀ r ∈ members, e'.outcome? r = e.outcome? r) :
    e'.outstanding members = e.outstanding members :=
  List.countP_congr fun r hr => by rw [h r hr]

/-- If no more than one of them has ended since, no more than one is outstanding less. -/
theorem outstanding_le {members : List Ref} (hd : members.Nodup) {r : Ref}
    (h : ∀ r' ∈ members, r' ≠ r → e'.outcome? r' = e.outcome? r') :
    e.outstanding members ≤ e'.outstanding members + if r ∈ members then 1 else 0 := by
  induction members with
  | nil => exact Nat.zero_le _
  | cons a rest ih =>
    obtain ⟨hnot, hd⟩ := List.nodup_cons.mp hd
    have hrest := ih hd fun r' hr' => h r' (List.mem_cons_of_mem _ hr')
    simp only [outstanding, List.countP_cons] at hrest ⊢
    by_cases ha : a = r
    · subst ha
      rw [if_neg hnot] at hrest
      rw [if_pos (List.mem_cons_self ..)]
      split <;> split <;> omega
    · rw [h a (List.mem_cons_self ..) ha]
      simp only [List.mem_cons, Ne.symm ha, false_or]
      omega

/-- When a group is told of the last of its tasks, it listens to none any more. -/
theorem Herded.concludes {members : List Ref} {o : Outcome} (h : e.Herded k members)
    (hends : GroupEnds k o e) : e.Concludes members o := by
  obtain ⟨group, hgroup, hm, hflag, hcount⟩ := h.group
  rcases hends with ⟨v, group', r', rfl, hgroup', hlast, hcall⟩ | ⟨group', hgroup', hstop⟩ |
      ⟨r, hl, ho, hv⟩
  · obtain rfl : group = group' := Option.some.inj (hgroup.symm.trans hgroup')
    refine .inl ⟨⟨v, rfl⟩, fun r hr => ?_⟩
    have hone : 0 < e.ready.countP (Job.tells k) :=
      List.countP_pos_iff.mpr ⟨_, hcall, beq_self_eq_true k⟩
    cases ho : e.outcome? r with
    | some o => exact ⟨o, rfl⟩
    | none =>
      obtain ⟨p, hp, hpos⟩ := hears_iff.mp (h.watched r hr ho)
      have hle := Table.le_total (f := fun p : Promise => p.listeners.count (.memberOver k)) hp
      rw [Engine.pledges] at hcount
      rw [hm] at hlast
      omega
  · obtain rfl : group = group' := Option.some.inj (hgroup.symm.trans hgroup')
    rw [hflag] at hstop
    cases hstop
  · exact .inr ⟨r, h.heard r hl, ho, hv⟩

theorem Herded.of_eq {members : List Ref} (h : e.Herded k members) (hn : e.nextRef ≤ e'.nextRef)
    (hsame : (e'.groups, e'.promises, e'.ready) = (e.groups, e.promises, e.ready)) :
    e'.Herded k members := by
  simp only [Prod.mk.injEq] at hsame
  obtain ⟨hgroups, hpromises, hready⟩ := hsame
  have hout (r : Ref) : e'.outcome? r = e.outcome? r := by rw [outcome?, hpromises, outcome?]
  refine ⟨Nat.lt_of_lt_of_le h.known hn, ?_, fun r hr => ?_, fun r hl => h.heard r ?_, fun r hr ho => ?_,
    fun o ho => (h.ended o ((hout _).symm.trans ho)).mono fun r _ o ho => (hout r).trans ho, h.distinct,
    fun group hgroup => ?_, fun group hgroup hopen => h.unended group (hgroups ▸ hgroup) ?_⟩
  · rw [hgroups, pledges, hpromises, hready]
    exact h.group
  · obtain ⟨m, hm, hlt⟩ := h.tasks r hr
    exact ⟨m, hm, Nat.lt_of_lt_of_le hlt hn⟩
  · rwa [Listens, hpromises, hready] at hl
  · rw [Hears, hpromises]
    exact h.watched r hr ((hout r).symm.trans ho)
  · rw [hready, outstanding_congr fun r _ => hout r]
    exact h.counted group (hgroups ▸ hgroup)
  · rwa [standing, hpromises] at hopen

theorem Herded.tallies {members : List Ref} (h : e.Herded k members) (ht : Tallies e e') :
    e'.Herded k members := by
  obtain ⟨group, hgroup, hm, hflag, hcount⟩ := h.group
  obtain ⟨group', hgroup', hm', hflag'⟩ := ht.groups k h.known group hgroup
  refine ⟨Nat.lt_of_lt_of_le h.known ht.nextRef, ⟨group', hgroup', hm'.trans hm, hflag'.trans hflag,
    Nat.le_trans (ht.told k h.known group group' hgroup hgroup') hcount⟩,
    fun r hr => ?_, fun r hl => ?_, fun r hr ho => ht.hears k r (h.watched r hr (ht.outcome r ▸ ho)),
    fun o ho => ?_, h.distinct, fun group'' hgroup'' => ?_, fun group'' hgroup'' hopen hne => ?_⟩
  · obtain ⟨m, hm, hlt⟩ := h.tasks r hr
    exact ⟨m, hm, Nat.lt_of_lt_of_le hlt ht.nextRef⟩
  · rcases ht.listens k r hl with hl | ⟨_, group'', hgroup'', hr⟩
    · exact h.heard r hl
    · obtain rfl : group' = group'' := Option.some.inj (hgroup'.symm.trans hgroup'')
      rwa [hm', hm] at hr
  · rw [ht.outcome] at ho
    exact (h.ended o ho).mono fun r _ o hro => (ht.outcome r).trans hro
  · rw [outstanding_congr fun r _ => ht.outcome r]
    exact Nat.le_trans (h.counted group hgroup)
      (Nat.add_le_add_right (ht.counts k h.known group group'' hgroup hgroup'') _)
  · obtain rfl : group' = group'' := Option.some.inj (hgroup'.symm.trans hgroup'')
    rw [ht.standing] at hopen
    have hlt := ht.unended k h.known group group' hgroup hgroup' hopen (hm.symm ▸ h.unended group hgroup hopen hne)
    rwa [hm', hm] at hlt

/-- Those who are told of a promise that is settled have listened to it. -/
theorem listens_settle {r r' : Ref} {o : Outcome} (h : (e.settle r o).Listens k r') :
    e.Listens k r' := by
  unfold settle at h
  split at h
  · rename_i listeners hp
    rcases h with ⟨p, hget, hmem⟩ | hmem
    · rw [Table.get?_put] at hget
      split at hget
      · obtain rfl := Option.some.inj hget
        cases hmem
      · exact .inl ⟨p, hget, hmem⟩
    · rcases List.mem_append.mp hmem with hmem | hmem
      · exact .inr hmem
      · obtain ⟨l, hl, heq⟩ := List.mem_map.mp hmem
        obtain ⟨rfl, rfl⟩ := Job.call.inj heq
        exact .inl ⟨_, hp, hl⟩
  · exact h

/-- Those who listened are told. -/
theorem pledges_settle (k : Nat) (r : Ref) (o : Outcome) (e : Engine) :
    (e.settle r o).pledges k ≤ e.pledges k := by
  unfold settle
  split
  · rename_i listeners hp
    have htotal := Table.total_put (fun p : Promise => p.listeners.count (.memberOver k)) r
      ⟨some o, []⟩ e.promises
    have hcalls : ∀ ls : List Listener, (ls.map (Job.call · r)).countP (Job.tells k) =
        ls.count (.memberOver k) := by
      intro ls
      rw [List.countP_map, List.count]
      refine List.countP_congr fun l _ => ?_
      cases l <;> simp [Job.tells]
    simp only [hp, Option.map_some, Option.getD_some, List.count_nil] at htotal
    simp only [Engine.pledges, List.countP_append, hcalls]
    omega
  · exact Nat.le_refl _

/-- Whoever listens to a promise that stays open goes on listening. -/
theorem Hears.settle {r r' : Ref} {o : Outcome} (h : e.Hears k r')
    (ho : (e.settle r o).outcome? r' = none) : (e.settle r o).Hears k r' := by
  unfold Engine.settle at ho ⊢
  split
  · rename_i listeners hp
    by_cases hr : r' = r
    · subst hr
      simp [outcome?, hp] at ho
    · obtain ⟨p, hget, hmem⟩ := h
      exact ⟨p, (Table.get?_put_of_ne hr _ _).trans hget, hmem⟩
  · exact h

/-- A group is to be told of each of its tasks that ends. -/
theorem Herded.tells_settle {members : List Ref} (h : e.Herded k members) (r : Ref) (o : Outcome) :
    e.ready.countP (Job.tells k) + e.outstanding members ≤
      (e.settle r o).ready.countP (Job.tells k) + (e.settle r o).outstanding members := by
  have hle := outstanding_le h.distinct fun r' _ (hr : r' ≠ r) => outcome?_settle_of_ne hr o e
  by_cases hopen : ∃ listeners, e.promises.get? r = some ⟨none, listeners⟩
  · obtain ⟨listeners, hp⟩ := hopen
    have hready : (e.settle r o).ready = e.ready ++ listeners.map (Job.call · r) := by simp only [Engine.settle, hp]
    rw [hready, List.countP_append]
    by_cases hr : r ∈ members
    · obtain ⟨p, hp', hmem⟩ := h.watched r hr (by rw [outcome?, hp]; rfl)
      obtain rfl := Option.some.inj (hp.symm.trans hp')
      have hone : 0 < (listeners.map (Job.call · r)).countP (Job.tells k) :=
        List.countP_pos_iff.mpr ⟨_, List.mem_map.mpr ⟨_, hmem, rfl⟩, beq_self_eq_true k⟩
      rw [if_pos hr] at hle
      omega
    · rw [if_neg hr] at hle
      omega
  · have hsame : e.settle r o = e := by
      unfold Engine.settle
      split
      · rename_i listeners hp
        exact absurd ⟨listeners, hp⟩ hopen
      · rfl
    rw [hsame]

/-- A group that is settled has to be at its end. -/
theorem Herded.settle {members : List Ref} {r : Ref} {o : Outcome} (h : e.Herded k members)
    (hg : r = .group k → e.Concludes members o) : (e.settle r o).Herded k members := by
  have hkept {r' : Ref} {o' : Outcome} (ho : e.outcome? r' = some o') :
      (e.settle r o).outcome? r' = some o' := by
    rw [outcome?_eq_join] at ho ⊢
    rcases standing_settle r r' o e with hsame | ⟨rfl, hopen, _⟩
    · rw [hsame, ho]
    · rw [hopen] at ho
      cases ho
  obtain ⟨group, hgroup, hm, hflag, hcount⟩ := h.group
  refine ⟨Nat.lt_of_lt_of_eq h.known (settle_nextRef r o e).symm, ⟨group, settle_groups r o e ▸ hgroup, hm,
    hflag, Nat.le_trans (Nat.add_le_add_left (pledges_settle k r o e) _) hcount⟩,
    settle_nextRef r o e ▸ h.tasks, fun r' hl => h.heard r' (listens_settle hl), fun r' hr' ho => ?_,
    fun o' ho => ?_, h.distinct, fun group' hgroup' => ?_, fun group' hgroup' hopen hne => ?_⟩
  · refine (h.watched r' hr' ?_).settle ho
    cases ho' : e.outcome? r' with
    | none => rfl
    | some o' => exact absurd (hkept ho') (by simp [ho])
  · have hends : e.Concludes members o' := by
      rw [outcome?_eq_join] at ho
      rcases standing_settle r (.group k) o e with hsame | ⟨hr, _, hsettled⟩
      · rw [hsame, ← outcome?_eq_join] at ho
        exact h.ended o' ho
      · rw [hsettled] at ho
        exact Option.some.inj ho ▸ hg hr.symm
    exact hends.mono fun r' _ o' => hkept
  · rw [settle_groups] at hgroup'
    have hcounted := h.counted group' hgroup'
    have htells := h.tells_settle r o
    omega
  · rw [settle_groups] at hgroup'
    refine h.unended group' hgroup' ?_ hne
    rcases standing_settle r (.group k) o e with hsame | ⟨_, _, hsettled⟩
    · exact hsame.symm.trans hopen
    · rw [hsettled] at hopen
      cases hopen

/-- A promise that is made anew has nobody to tell. -/
theorem listens_promise {r r' : Ref} (h : (e.promise r).Listens k r') : e.Listens k r' := by
  refine h.imp ?_ id
  rintro ⟨p, hget, hmem⟩
  simp only [Engine.promise, Table.get?_put] at hget
  split at hget
  · obtain rfl := Option.some.inj hget
    cases hmem
  · exact ⟨p, hget, hmem⟩

theorem pledges_promise (k : Nat) (r : Ref) (e : Engine) : (e.promise r).pledges k ≤ e.pledges k := by
  have htotal := Table.total_put (fun p : Promise => p.listeners.count (.memberOver k)) r {} e.promises
  simp only [List.count_nil] at htotal
  simp only [Engine.pledges, Engine.promise]
  omega

theorem Herded.promise {members : List Ref} {r : Ref} (h : e.Herded k members)
    (hr : ∀ m, r = .task m → e.nextRef ≤ m) (hg : r ≠ .group k) : (e.promise r).Herded k members := by
  have hne : ∀ r' ∈ members, r' ≠ r := by
    rintro r' hr' rfl
    obtain ⟨m, rfl, hlt⟩ := h.tasks r' hr'
    exact absurd hlt (Nat.not_lt.mpr (hr m rfl))
  have hout : ∀ r' ∈ members, (e.promise r).outcome? r' = e.outcome? r' := fun r' hr' => by
    rw [outcome?_eq_join, standing_promise, if_neg (hne r' hr'), ← outcome?_eq_join]
  obtain ⟨group, hgroup, hm, hflag, hcount⟩ := h.group
  refine ⟨h.known, ⟨group, hgroup, hm, hflag,
    Nat.le_trans (Nat.add_le_add_left (pledges_promise k r e) _) hcount⟩, h.tasks,
    fun r' hl => h.heard r' (listens_promise hl), fun r' hr' ho => ?_, fun o ho => ?_, h.distinct,
    fun group' hgroup' => ?_, fun group' hgroup' hopen => h.unended group' hgroup' ?_⟩
  · obtain ⟨p, hp, hmem⟩ := h.watched r' hr' ((hout r' hr').symm.trans ho)
    exact ⟨p, (Table.get?_put_of_ne (hne r' hr') _ _).trans hp, hmem⟩
  · rw [outcome?_eq_join, standing_promise] at ho
    split at ho
    · cases ho
    · rw [← outcome?_eq_join] at ho
      exact (h.ended o ho).mono fun r' hr' o' ho' => (hout r' hr').trans ho'
  · rw [outstanding_congr hout]
    exact h.counted group' hgroup'
  · rwa [standing_promise, if_neg (Ne.symm hg)] at hopen

theorem listens_spawn {op : Operation} {r : Ref} (h : (e.spawn op).2.Listens k r) :
    e.Listens k r := by
  have hpromise : (e.promise (.task e.nextRef)).Listens k r :=
    h.imp id fun hmem => (List.mem_append.mp hmem).elim id (by simp)
  exact listens_promise hpromise

theorem Herded.spawn {members : List Ref} (h : e.Herded k members) (op : Operation) :
    (e.spawn op).2.Herded k members := by
  have hp : (e.promise (.task e.nextRef)).Herded k members :=
    h.promise (fun m hm => Nat.le_of_eq (Ref.task.inj hm)) (by simp)
  have hpledges : (e.spawn op).2.pledges k = (e.promise (.task e.nextRef)).pledges k := by
    simp only [Engine.pledges, Engine.spawn, newPromise, enqueue, List.countP_append, List.countP_singleton]
    rfl
  refine ⟨Nat.lt_succ_of_lt h.known, hpledges ▸ hp.group, fun r hr => ?_,
    fun r hl => h.heard r (listens_spawn hl), hp.watched, hp.ended, hp.distinct, fun group hgroup => ?_, hp.unended⟩
  · obtain ⟨m, hm, hlt⟩ := h.tasks r hr
    exact ⟨m, hm, Nat.lt_succ_of_lt hlt⟩
  · exact Nat.le_trans (hp.counted group hgroup)
      (Nat.add_le_add_right (Nat.add_le_add_left (List.countP_append ▸ Nat.le_add_right _ _) _) _)

theorem Punctual.of_eq (h : e.Punctual) (hn : e.nextRef ≤ e'.nextRef)
    (hsame : (e'.promises, e'.ready) = (e.promises, e.ready)) : e'.Punctual := by
  obtain ⟨hpromises, hready⟩ := Prod.mk.inj hsame
  refine ⟨fun k o ho => ?_, fun l k hl => ?_, fun k o ho => ?_⟩
  · rw [standing, hpromises] at ho
    exact Nat.lt_of_lt_of_le (h.numbered k o ho) hn
  · rw [hready] at hl
    rw [outcome?, hpromises]
    exact h.ended l k hl
  · rw [outcome?, hpromises] at ho
    exact h.naps k o ho

theorem Punctual.tallies (h : e.Punctual) (ht : Tallies e e') : e'.Punctual where
  numbered k o ho := Nat.lt_of_lt_of_le (h.numbered k o (ht.standing _ ▸ ho)) ht.nextRef
  ended l k hl := by
    rw [ht.outcome]
    exact (ht.calls l _ hl).elim (h.ended l k) id
  naps k o ho := h.naps k o (ht.outcome _ ▸ ho)

theorem Punctual.promise {r : Ref} (h : e.Punctual) (hr : ∀ k, r ≠ .group k) : (e.promise r).Punctual where
  numbered k o ho := by
    rw [standing_promise, if_neg (Ne.symm (hr k))] at ho
    exact h.numbered k o ho
  ended l k hl := by
    obtain ⟨o, ho⟩ := h.ended l k hl
    refine ⟨o, ?_⟩
    rwa [outcome?_eq_join, standing_promise, if_neg (Ne.symm (hr k)), ← outcome?_eq_join]
  naps k o ho := by
    rw [outcome?_eq_join, standing_promise] at ho
    split at ho
    · cases ho
    · exact h.naps k o ((outcome?_eq_join _ e).trans ho)

/-- Those who listened are called, and have listened for what is settled now. -/
theorem Punctual.settle {r : Ref} {o : Outcome} (h : e.Punctual)
    (hn : ∀ k, r = .nap k → o = .value .nothing ∨ o = .cancelled) : (e.settle r o).Punctual where
  numbered k o' ho := by
    rw [settle_nextRef]
    rcases standing_settle r (.group k) o e with hsame | ⟨_, hopen, _⟩
    · exact h.numbered k o' (hsame ▸ ho)
    · exact h.numbered k none (by rwa [‹Ref.group k = r›])
  ended l k hl := by
    have hkept (hl : .call l (.group k) ∈ e.ready) : ∃ o', (e.settle r o).outcome? (.group k) = some o' := by
      obtain ⟨o', ho⟩ := h.ended l k hl
      refine ⟨o', ?_⟩
      rw [outcome?_eq_join] at ho ⊢
      rcases standing_settle r (.group k) o e with hsame | ⟨hr, hopen, _⟩
      · rw [hsame, ho]
      · rw [hr, hopen] at ho
        cases ho
    unfold Engine.settle at hl
    split at hl
    · rename_i listeners hp
      rcases List.mem_append.mp hl with hl | hl
      · exact hkept hl
      · obtain ⟨_, _, heq⟩ := List.mem_map.mp hl
        obtain ⟨_, rfl⟩ := Job.call.inj heq
        refine ⟨o, outcome?_of_standing (standing_settle_self ?_ o)⟩
        rw [standing, hp]
        rfl
    · exact hkept hl
  naps k o' ho := by
    rcases standing_settle r (.nap k) o e with hsame | ⟨hr, _, hsettled⟩
    · exact h.naps k o' (outcome?_of_standing (hsame ▸ standing_of_outcome? ho))
    · obtain rfl : o = o' := by
        have hs := (standing_of_outcome? ho).symm.trans hsettled
        simpa using hs.symm
      exact hn k hr.symm

theorem Punctual.spawn (h : e.Punctual) (op : Operation) : (e.spawn op).2.Punctual := by
  have hp : (e.promise (.task e.nextRef)).Punctual := h.promise (by simp)
  refine ⟨fun k o ho => Nat.lt_succ_of_lt (hp.numbered k o ho), fun l k hl => hp.ended l k ?_, hp.naps⟩
  exact (List.mem_append.mp hl).elim id (by simp)

/-- A new group has a number that nobody can have been called about. -/
theorem Punctual.gather (h : e.Punctual) (members : List Ref) (tolerant : Bool) :
    (e.gather members tolerant).2.Punctual := by
  have hg := enlists_gather members tolerant e
  have hnext : (e.gather members tolerant).2.nextRef = e.nextRef + 1 := by
    have hsame := hg.same
    simp only [Prod.mk.injEq] at hsame
    exact hsame.2.2.2.2.2.2.1
  have hstanding (r : Ref) : (e.gather members tolerant).2.standing r =
      (e.promise (.group e.nextRef)).standing r := hg.standing r
  refine ⟨fun k o ho => ?_, fun l k hl => ?_, fun k o ho => h.naps k o ?_⟩
  · rw [hstanding, standing_promise] at ho
    split at ho
    · rename_i hk
      exact hnext ▸ Ref.group.inj hk ▸ Nat.lt_succ_self _
    · exact hnext ▸ Nat.lt_succ_of_lt (h.numbered k o ho)
  · rw [outcome?_eq_join, hstanding, ← outcome?_eq_join]
    refine (hg.calls l _ hl).elim (fun hl => ?_) id
    obtain ⟨o, ho⟩ := h.ended l k hl
    have hold : Ref.group k ≠ .group e.nextRef := by
      have hlt := h.numbered k (some o) (standing_of_outcome? ho)
      simpa using Nat.ne_of_lt hlt
    refine ⟨o, ?_⟩
    rwa [outcome?_eq_join, standing_promise, if_neg hold, ← outcome?_eq_join]
  · rwa [outcome?_eq_join, hstanding, standing_promise, if_neg (by simp), ← outcome?_eq_join] at ho

/-! ### What cuts no one short -/

/-- Tasks, slots and the reader are as they were, and so is what is promised. -/
theorem harmless_of_eq (hn : e.nextRef ≤ e'.nextRef) (ht : e'.tasks = e.tasks)
    (hs : e'.slots = e.slots) (hr : e'.client.reader = e.client.reader)
    (hsame : (e'.groups, e'.promises, e'.ready) = (e.groups, e.promises, e.ready)) :
    Harmless n st e e' := by
  have hgroups := fun k members (h : e.Herded k members) => h.of_eq hn hsame
  simp only [Prod.mk.injEq] at hsame
  obtain ⟨_, hpromises, hready⟩ := hsame
  refine ⟨hn, fun k r hl => ?_, hgroups, fun h => h.of_eq hn (by rw [hpromises, hready]), fun r h => ?_,
    fun k t h => ?_, fun p h => ?_, fun k _ => ?_⟩
  · exact .inl (by rwa [Listens, hpromises, hready] at hl)
  · exact .inl (by rwa [Charge, hs, hr] at h)
  · exact .inl ⟨t, ht ▸ h, rfl, .inl⟩
  · exact .inl (by rwa [outcome?, hpromises] at h)
  · rw [standing, hpromises, standing]

theorem Harmless.refl (e : Engine) : Harmless n st e e :=
  harmless_of_eq (Nat.le_refl _) rfl rfl rfl rfl

theorem harmless_tallies (h : Tallies e e') : Harmless n st e e' where
  nextRef := h.nextRef
  listens k r hl := (h.listens k r hl).imp id And.left
  groups _ _ hk := hk.tallies h
  punctual hp := hp.tallies h
  charges r hr := .inl (by rwa [Charge, h.slots, h.client] at hr)
  tasks k t ht := .inl ⟨t, h.tasks ▸ ht, rfl, .inl⟩
  cancelled p hp := .inl (by rwa [h.outcome] at hp)
  ends k _ := h.standing (.task k)

theorem harmless_note (event : Event) (e : Engine) : Harmless n st e (e.note event) :=
  harmless_of_eq (Nat.le_refl _) rfl rfl rfl rfl

theorem harmless_onClient {f : Client → Client} (h : (f e.client).reader = e.client.reader) :
    Harmless n st e (e.onClient f) :=
  harmless_of_eq (Nat.le_refl _) rfl rfl h rfl

theorem harmless_onDocument (doc : Nat) (f : Document → Document) (e : Engine) :
    Harmless n st e (e.onDocument doc f) :=
  harmless_of_eq (Nat.le_refl _) rfl rfl rfl rfl

theorem harmless_speak (doc : Nat) (message : Json) (e : Engine) :
    Harmless n st e (e.speak doc message) :=
  harmless_of_eq (Nat.le_refl _) rfl rfl rfl rfl

theorem harmless_retext (doc : Nat) (text : Option (List Char)) (e : Engine) :
    Harmless n st e (e.retext doc text) := by
  cases text <;> exact harmless_of_eq (Nat.le_refl _) rfl rfl rfl rfl

theorem harmless_preset (doc : Nat) (text : Option (List Char)) (e : Engine) :
    Harmless n st e (e.preset doc text) := by
  cases text <;> exact harmless_of_eq (Nat.le_refl _) rfl rfl rfl rfl

theorem harmless_promise {r : Ref} (h : ∀ k, r ≠ .task k) (hg : ∀ k, r ≠ .group k) (e : Engine) :
    Harmless n st e (e.promise r) where
  nextRef := Nat.le_refl _
  listens _ _ hl := .inl (listens_promise hl)
  groups k _ hk := hk.promise (fun m hm => absurd hm (h m)) (hg k)
  punctual hp := hp.promise hg
  charges _ := .inl
  tasks k t ht := .inl ⟨t, ht, rfl, .inl⟩
  cancelled p hp := by
    rw [outcome?_eq_join, standing_promise] at hp
    split at hp
    · cases hp
    · exact .inl ((outcome?_eq_join p e).trans hp)
  ends k _ := by rw [standing_promise, if_neg (Ne.symm (h k))]

theorem harmless_gather (members : List Ref) (tolerant : Bool) (e : Engine) :
    Harmless n st e (e.gather members tolerant).2 := by
  have hgrouped := (agrees_grouped members tolerant e).toTallies
  have hgathered := (agrees_gather members tolerant e).toTallies
  have hstanding (r : Ref) : (e.gather members tolerant).2.standing r =
      if r = .group e.nextRef then some none else e.standing r :=
    (hgathered.standing r).trans (standing_promise _ _ _)
  refine ⟨hgathered.nextRef, fun k r hl => ?_, fun k members' hk => ?_,
    fun hp => hp.gather members tolerant, fun r hr => .inl ?_, fun k t ht => .inl ⟨t, ?_, rfl, .inl⟩,
    fun p hp => .inl ?_, fun k _ => (hstanding _).trans (if_neg (by simp))⟩
  · exact (hgathered.listens k r hl).imp (fun hl => listens_promise hl) And.left
  · exact ((hk.tallies hgrouped).promise (by simp) (by simpa using Nat.ne_of_gt hk.known)).tallies hgathered
  · rwa [Charge, hgathered.slots, hgathered.client] at hr
  · rwa [hgathered.tasks] at ht
  · rw [outcome?_eq_join, hstanding] at hp
    split at hp
    · cases hp
    · exact (outcome?_eq_join p e).trans hp

/-- What a promise is settled with that is no task's, for a reason that was there before. -/
theorem harmless_settled {e₁ : Engine} {r : Ref} {o : Outcome} (ha : Tallies e e₁)
    (ht : ∀ k, r ≠ .task k) (hc : o = .cancelled → e.Forgone st r)
    (hg : ∀ k members, r = .group k → e.Herded k members → e.Concludes members o)
    (hn : ∀ k, r = .nap k → o = .value .nothing ∨ o = .cancelled) :
    Harmless n st e (e₁.settle r o) where
  nextRef := settle_nextRef r o e₁ ▸ ha.nextRef
  listens k r' hl := by
    rw [settle_nextRef]
    exact (ha.listens k r' (listens_settle hl)).imp id And.left
  groups k members hk := (hk.tallies ha).settle fun hr =>
    (hg k members hr hk).mono fun r' _ _ ho => (ha.outcome r').trans ho
  punctual hp := (hp.tallies ha).settle hn
  charges p hp := .inl (by rwa [Charge, settle_slots, settle_client, ha.slots, ha.client] at hp)
  tasks k t htask := .inl ⟨t, by rwa [settle_tasks, ha.tasks] at htask, rfl, .inl⟩
  cancelled p hp := by
    rw [outcome?_eq_join] at hp
    rcases standing_settle r p o e₁ with hsame | ⟨rfl, _, hsettled⟩
    · rw [hsame, ha.standing, ← outcome?_eq_join] at hp
      exact .inl hp
    · rw [hsettled] at hp
      exact .inr (hc (Option.some.inj hp))
  ends k _ := (standing_settle_of_ne (Ne.symm (ht k)) o e₁).trans (ha.standing _)

theorem harmless_settle {r : Ref} {o : Outcome} (ht : ∀ k, r ≠ .task k)
    (hg : ∀ k, r ≠ .group k) (hc : o = .cancelled → e.Forgone st r)
    (hn : ∀ k, r = .nap k → o = .value .nothing ∨ o = .cancelled) :
    Harmless n st e (e.settle r o) :=
  harmless_settled (.refl e) ht hc (fun k _ hk => absurd hk (hg k)) hn

theorem harmless_spawn (op : Operation) (e : Engine) : Harmless n st e (e.spawn op).2 where
  nextRef := Nat.le_succ _
  listens _ _ hl := .inl (listens_spawn hl)
  groups _ _ hk := hk.spawn op
  punctual hp := hp.spawn op
  charges _ := .inl
  tasks k t ht := by
    change (e.tasks.put e.nextRef { frames := [.begin op] }).get? k = some t at ht
    rw [Table.get?_put] at ht
    split at ht
    · rename_i hk
      obtain rfl := Option.some.inj ht
      have hs : (e.spawn op).2.standing (.task k) = _ := standing_promise (.task e.nextRef) _ e
      rw [hk, if_pos rfl] at hs
      exact .inr ⟨Nat.le_of_eq hk.symm, hk ▸ Nat.lt_succ_self _, hk ▸ hs, rfl, fun h => by cases h⟩
    · exact .inl ⟨t, ht, rfl, .inl⟩
  cancelled p hp := by
    have hs : (e.spawn op).2.standing p = _ := standing_promise (.task e.nextRef) p e
    rw [outcome?_eq_join, hs] at hp
    split at hp
    · cases hp
    · exact .inl ((outcome?_eq_join p e).trans hp)
  ends k hk := by
    have hs := standing_promise (.task e.nextRef) (.task k) e
    rw [if_neg (by simpa using Nat.ne_of_lt hk)] at hs
    exact hs

theorem harmless_settleAll (x : Failure) : ∀ {pending : Table Nat Ref} {e : Engine},
    (∀ entry ∈ pending, ∃ id, entry.2 = .answer id) →
    Harmless n st e (pending.foldl (fun e (_, answer) => e.settle answer (.failure x)) e)
  | [], e, _ => .refl e
  | entry :: rest, e, h => by
      obtain ⟨id, hid⟩ := h entry (List.mem_cons_self ..)
      have hfirst : Harmless n st e (e.settle entry.2 (.failure x)) :=
        harmless_settle (by simp [hid]) (by simp [hid]) (by simp) (by simp [hid])
      exact hfirst.trans (harmless_settleAll x fun entry' hmem =>
        h entry' (List.mem_cons_of_mem _ hmem))

theorem harmless_failPending (h : ∀ entry ∈ e.client.pending, ∃ id, entry.2 = .answer id) (x : Failure) :
    Harmless n st e (e.failPending x) := harmless_settleAll x h

/-- What a request waits for is its answer. -/
theorem Correlated.pending_answer (h : Correlated (st', e)) :
    ∀ entry ∈ e.client.pending, ∃ id, entry.2 = .answer id :=
  fun entry hmem => ⟨entry.1, h.refs entry.1 entry.2 (Table.get?_of_mem h.nodup hmem)⟩

theorem harmless_shutDown (h : ∀ entry ∈ e.client.pending, ∃ id, entry.2 = .answer id) :
    Harmless n st e e.shutDown := by
  have hc : Harmless n st e (e.onClient fun c => { c with ready := false, closed := true }) :=
    harmless_onClient rfl
  unfold shutDown
  refine (Harmless.trans ?_ (harmless_failPending ?_ _)).trans (harmless_note _ _)
  · split
    · exact hc.trans (harmless_spawn .disconnect _)
    · exact hc
  · split <;> exact h

theorem harmless_startHandshake (e : Engine) : Harmless n st e e.startHandshake.2 := by
  rcases startHandshake_cases e with ⟨_, heq⟩ | ⟨_, ha⟩
  · rw [heq]
    exact .refl e
  · have hs : Harmless n st e e.shaking := (harmless_spawn .handshake e).trans (harmless_onClient rfl)
    exact hs.trans (harmless_tallies ha.toTallies)

theorem harmless_register (r : Registration Subscriber) (e : Engine) :
    Harmless n st e (e.register r) := by
  have he : Harmless n st e (e.enlist r) := harmless_of_eq (Nat.le_refl _) rfl rfl rfl rfl
  rcases register_cases r e with heq | ⟨_, level, message, heq⟩
  · rw [heq]
    exact he
  · rw [heq]
    exact (he.trans (harmless_tallies (agrees_log level message _).toTallies)).trans (harmless_spawn _ _)

/-! ### What cancels -/

/-- The reader is a brief task from its beginning. -/
theorem harmless_startReader (e : Engine) : Harmless n st e e.startReader := by
  rcases startReader_cases e with ⟨_, heq⟩ | ⟨_, heq⟩
  · rw [heq]
    exact .refl e
  · rw [heq]
    have hs : Harmless n st e (e.spawn .read).2 := harmless_spawn .read e
    refine ⟨hs.nextRef, hs.listens, fun k members hk => ?_,
      fun hp => (hs.punctual hp).of_eq (Nat.le_refl _) rfl, fun r hr => ?_, hs.tasks, hs.cancelled, hs.ends⟩
    · exact (hs.groups k members hk).of_eq (Nat.le_refl _) rfl
    rcases hr with hslot | hreader
    · exact .inl (.inl hslot)
    · refine .inr ⟨e.nextRef, (Option.some.inj hreader).symm, Nat.le_refl _, Nat.lt_succ_self _, ?_⟩
      intro t ht
      change (e.tasks.put e.nextRef { frames := [.begin .read] }).get? e.nextRef = some t at ht
      rw [Table.get?_put_self] at ht
      obtain rfl := Option.some.inj ht
      exact ⟨.reads, fun p hp => by cases hp⟩

theorem harmless_eraseSlot (slot : Nat) (e : Engine) :
    Harmless n st e { e with slots := e.slots.erase slot } where
  nextRef := Nat.le_refl _
  listens _ _ := .inl
  groups _ _ hk := hk.of_eq (Nat.le_refl _) rfl
  punctual hp := hp.of_eq (Nat.le_refl _) rfl
  charges r hr := by
    refine .inl (hr.imp ?_ id)
    rintro ⟨slot', hslot⟩
    rw [Table.get?_erase] at hslot
    split at hslot
    · cases hslot
    · exact ⟨slot', hslot⟩
  tasks _ t ht := .inl ⟨t, ht, rfl, .inl⟩
  cancelled _ := .inl
  ends _ _ := rfl

theorem harmless_requestCancel (h : e.Expendable n k) : Harmless n st e (e.requestCancel k) where
  nextRef := Nat.le_refl _
  listens _ _ := .inl
  groups _ _ hk := hk.of_eq (Nat.le_refl _) rfl
  punctual hp := hp.of_eq (Nat.le_refl _) rfl
  charges _ := .inl
  tasks k' t' ht' := by
    rw [requestCancel, Table.get?_update] at ht'
    split at ht'
    · rename_i hk
      subst hk
      obtain ⟨t, ht, rfl⟩ := Option.map_eq_some_iff.mp ht'
      exact .inl ⟨t, ht, rfl, fun _ => .inr (h.2.imp id fun hb => hb t ht)⟩
    · exact .inl ⟨t', ht', rfl, .inl⟩
  cancelled _ := .inl
  ends _ _ := rfl

theorem cancelWithin_sole {p : Ref} (h : p.sole = true) (bound : Nat) (e : Engine) :
    cancelWithin (bound + 1) p e =
      if e.isSettled p then (false, e) else (true, e.settle p .cancelled) := by
  cases p with
  | nap k => simp [cancelWithin]
  | gate k => simp [cancelWithin]
  | arrival k => simp [cancelWithin]
  | closure k => simp [cancelWithin]
  | _ => cases h

/-- A task that is expendable is asked to stop, or what it waits for is settled as cancelled. -/
theorem harmless_cancel (h : e.Expendable n k)
    (hrun : ∀ t, n = some k → e.tasks.get? k = some t → t.waiting = none) :
    Harmless n st e (e.cancel (.task k)).2 := by
  obtain ⟨bound, hbound⟩ : ∃ bound, e.nextRef + 1 = bound + 2 := ⟨e.nextRef - 1, by have := h.1; omega⟩
  have hstop : Harmless n st e (e.requestCancel k) := harmless_requestCancel h
  rw [cancel, hbound]
  cases hsettled : e.isSettled (.task k) with
  | true => simpa [cancelWithin, hsettled] using Harmless.refl e
  | false =>
    cases hw : (e.tasks.get? k).bind (·.waiting) with
    | none => simpa [cancelWithin, hsettled, hw] using hstop
    | some p =>
      obtain ⟨t, ht, hw'⟩ := Option.bind_eq_some_iff.mp hw
      have hb : t.Brief := by
        rcases h.2 with hn | hb
        · rw [hrun t hn ht] at hw'
          cases hw'
        · exact hb t ht
      have hsole := hb.waiting p hw'
      have hnot : ∀ k', p ≠ .task k' := by
        rintro k' rfl
        cases hsole
      have hgroup : ∀ k', p ≠ .group k' := by
        rintro k' rfl
        cases hsole
      have hp := cancelWithin_sole hsole bound e
      cases hopen : e.isSettled p with
      | true => simpa [cancelWithin, hsettled, hw, hp, hopen] using hstop
      | false =>
        have hs : Harmless n st e (e.settle p .cancelled) :=
          harmless_settle hnot hgroup (fun _ => .inl ⟨k, t, ht, hw', hb⟩) fun _ _ => .inr rfl
        rw [cancelWithin]
        simpa [hsettled, hw, hp, hopen] using hs

theorem Spared.cancel {r : Ref} (h : Spared n since e) (hr : e.Charge r) :
    Harmless n st e (e.cancel r).2 := by
  obtain ⟨k, rfl, hk⟩ := h.charges r hr
  exact harmless_cancel hk fun t hn ht => h.running k t hn ht

/-- Emptying a slot cancels at most what stood there. -/
theorem Spared.cancelSlot (h : Spared n since e) (slot : Nat) :
    Harmless n st e (e.cancelSlot slot).2 := by
  unfold Engine.cancelSlot
  cases hs : e.slots.get? slot with
  | none => exact .refl e
  | some r =>
    have herase : Harmless n st e { e with slots := e.slots.erase slot } := harmless_eraseSlot slot e
    simp only
    split
    · exact herase
    · obtain ⟨k, rfl, hk⟩ := h.charges r (.inl ⟨slot, hs⟩)
      exact herase.trans (harmless_cancel hk fun t hn ht => h.running k t hn ht)

theorem Spared.scheduleFlush (h : Spared n since e) (doc : Nat) :
    Harmless n st e (e.scheduleFlush doc).2 := by
  let op : Operation := .debounced doc (((e.session? doc).map (·.delay)).getD 0) (.flush doc)
  have hs : Harmless n st e ((e.cancelSlot doc).2.spawn op).2 :=
    (h.cancelSlot doc).trans (harmless_spawn op _)
  refine ⟨hs.nextRef, hs.listens, fun k members hk => ?_,
    fun hp => (hs.punctual hp).of_eq (Nat.le_refl _) rfl, fun r hr => ?_, hs.tasks, hs.cancelled, hs.ends⟩
  · exact (hs.groups k members hk).of_eq (Nat.le_refl _) rfl
  have hput : (∃ slot, ((e.cancelSlot doc).2.slots.put doc
      (.task (e.cancelSlot doc).2.nextRef)).get? slot = some r) ∨
        (e.cancelSlot doc).2.client.reader = some r := hr
  have hc := cancels_cancelSlot doc e
  have hcharges : (e.cancelSlot doc).2.Charge r → e.Charge r := by
    intro hcharge
    have hcancel : Harmless n st e (e.cancelSlot doc).2 := h.cancelSlot doc
    rcases hcancel.charges r hcharge with hold | ⟨k, _, hge, hlt, _⟩
    · exact hold
    · rw [show (e.cancelSlot doc).2.nextRef = e.nextRef from hc.nextRef] at hlt
      omega
  rcases hput with ⟨slot, hslot⟩ | hreader
  · rw [Table.get?_put] at hslot
    split at hslot
    · obtain rfl := Option.some.inj hslot
      refine .inr ⟨_, rfl, Nat.le_of_eq hc.nextRef.symm, Nat.lt_succ_self _, fun t ht => ?_⟩
      change ((e.cancelSlot doc).2.tasks.put (e.cancelSlot doc).2.nextRef
        { frames := [.begin op] }).get? (e.cancelSlot doc).2.nextRef = some t at ht
      rw [Table.get?_put_self] at ht
      obtain rfl := Option.some.inj ht
      exact ⟨.begins _ _ _, fun p hp => by cases hp⟩
    · exact .inl (hcharges (.inl ⟨slot, hslot⟩))
  · exact .inl (hcharges (.inr hreader))

theorem Spared.scheduleChange (h : Spared n since e) (doc : Nat) (text : List Char)
    (changes : Option (List Change)) : Harmless n st e (e.scheduleChange doc text changes).2 := by
  obtain ⟨e₁, ha, heq⟩ := scheduleChange_eq doc text changes e
  have hd : Harmless n st e (e.edited doc text changes) :=
    (harmless_note _ e).trans (harmless_onDocument doc _ _)
  have h₁ := hd.trans (harmless_tallies ha.toTallies)
  rw [heq]
  exact h₁.trans ((h.harmless h₁).scheduleFlush doc)

theorem Spared.noteOpened (h : Spared n since e) (doc : Nat) (sent : List Char) :
    Harmless n st e (e.noteOpened doc sent) := by
  have hd : Harmless n st e (e.onDocument doc fun d => { d with opened := true }.resync sent) :=
    harmless_onDocument doc _ e
  unfold Engine.noteOpened
  simp only
  split
  · exact hd
  · split
    · have hf := hd.trans (harmless_onDocument doc (·.forget) _)
      exact hf.trans ((h.harmless hf).scheduleFlush doc)
    · exact hd

/-! ### Every step -/

theorem Spared.clears {doc : Nat} (h : Spared n since c.2) (hc : Clears doc c c') :
    Harmless n st c.2 c'.2 := by
  cases hc with
  | kept => exact .refl _
  | cancelled => exact h.cancelSlot doc
  | elapsed slot => exact harmless_eraseSlot slot _

theorem harmless_sends {doc : Nat} (h : Sends doc c c') : Harmless n st c.2 c'.2 := by
  cases h with
  | idle text => exact harmless_retext doc text _
  | told =>
    exact ((harmless_retext doc _ _).trans (harmless_onDocument doc _ _)).trans (harmless_speak doc _ _)
  | closed text d => exact (harmless_retext doc text _).trans (harmless_onDocument doc (fun _ => d) _)

theorem Spared.refreshes {doc : Nat} (h : Spared n since c.2) (hr : Refreshes doc c c') :
    Harmless n st c.2 c'.2 := by
  cases hr with
  | idle => exact h.cancelSlot doc
  | sends _ hs => exact (h.cancelSlot doc).trans (harmless_sends hs)

/-- Whatever a step does, it cuts no task short but a brief one. -/
theorem Step.harmless (hs : Step c c') (h : Spared n since c.2) (hc : Correlated c) :
    Harmless n c.1 c.2 c'.2 := by
  cases hs with
  | agree ha => exact harmless_tallies ha
  | @settle st e e₁ r o ha hfree hends hanswer =>
    refine harmless_settled ha.toTallies ?_ (fun ho => ?_) (fun k members hr hk => ?_) fun k hr => ?_
    · rintro k rfl
      exact hfree
    · subst ho
      cases r with
      | group k => exact .inr (.inl ⟨k, rfl⟩)
      | answer id => exact absurd rfl (hanswer id)
      | task k => exact hfree.elim
      | _ => cases hfree
    · exact hk.concludes (hends k hr)
    · subst hr
      exact .inl hfree
  | abandon hf _ _ ha =>
    refine harmless_settled ha.toTallies (by simp) (fun _ => ?_) (by simp) (by simp)
    exact .inr (.inr ⟨_, rfl, by simp [hf]⟩)
  | @late st e f doc generation feature members c' _ _ _ _ hr =>
    have hharmless : Harmless n st e c'.2 := Spared.refreshes (c := (f :: st, e)) h hr
    exact hharmless
  | promise hr =>
    refine harmless_promise ?_ ?_ _
    · rintro k rfl
      cases hr
    · rintro k rfl
      cases hr
  | gather members tolerant => exact harmless_gather members tolerant _
  | spawn => exact harmless_spawn _ _
  | register r => exact harmless_register r _
  | @call st st' e method params name =>
    have hc : Harmless n st e { e with client := (e.client.enroll name).2 } :=
      harmless_of_eq (Nat.le_refl _) rfl rfl rfl rfl
    have hp := hc.trans (harmless_promise (r := .answer (e.client.enroll name).1) (by simp) (by simp) _)
    exact (hp.trans (harmless_note _ _)).trans (harmless_note _ _)
  | @oblige st e e' m _ ha =>
    exact ((harmless_note _ e).trans (harmless_tallies ha.toTallies)).trans (harmless_spawn _ _)
  | @respond st e e' m _ hr =>
    have hnote : Harmless n (.received :: st) e (e.note (.taken m)) := harmless_note _ e
    rcases resolve_cases hr with ⟨ha, _⟩ | ⟨id, answer, o, _, hp, _, ho, rfl⟩
    · exact hnote.trans (harmless_tallies ha)
    · obtain rfl := hc.refs id answer hp
      refine hnote.trans (harmless_settle (by simp) (by simp) ?_ (by simp))
      rintro rfl
      rcases ho with ⟨_, _, ho⟩ | ⟨_, _, ho⟩ <;> cases ho
  | startReader => exact harmless_startReader _
  | handshake => exact harmless_startHandshake _
  | cancelReader hr => exact h.cancel (.inr hr)
  | joined => exact (harmless_failPending hc.pending_answer _).trans (harmless_note _ _)
  | shutDown => exact harmless_shutDown hc.pending_answer
  | @crash st e e' m _ ha =>
    have hsame : Harmless n (.received :: st) e e' :=
      (harmless_note _ e).trans (harmless_tallies ha.toTallies)
    exact hsame.trans (harmless_shutDown (by rw [ha.client]; exact hc.pending_answer))
  | preset doc text => exact harmless_preset doc text _
  | opened doc sent => exact h.noteOpened doc sent
  | edit text changes => exact h.scheduleChange _ text changes
  | rehearse slot => exact harmless_eraseSlot slot _
  | @unscheduled _ _ doc => exact h.cancelSlot doc
  | flush hclears hsends => exact (h.clears hclears).trans (harmless_sends hsends)
  | _ => exact harmless_of_eq (Nat.le_refl _) rfl rfl rfl rfl

theorem Spared.step (h : Spared n since c.2) (hs : Step c c') (hc : Correlated c) :
    Spared n since c'.2 := h.harmless (hs.harmless h hc)

theorem Spared.path (h : Spared n since c.2) (hp : Path c c') (hc : Correlated c) :
    Spared n since c'.2 := by
  induction hp with
  | refl => exact h
  | tail hp hs ih => exact ih.step hs (hc.path hp)

end Engine

end LanguageClient
