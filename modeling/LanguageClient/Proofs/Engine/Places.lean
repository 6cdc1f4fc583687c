import LanguageClient.Proofs.Engine.Route

/-!
Where tasks stand while others run. A run moves its own task, and what is new is to begin; all others
stand where they stood (`Stays`). A group that nobody asks to stop keeps to its tasks meanwhile: when it
ends, then with a value or as one of them did (`Herded.act`).

    task ──run──▶ other frames, or none        the others ──▶ the same frames
-/

namespace LanguageClient.Engine

variable {n : Option Nat} {k m since : Nat} {c c' : Config} {e e' : Engine} {members : List Ref}
  {run : Run}

/-! ### Places -/

/-- Where a run leaves its task, unless the task has ended. -/
def place? : Run → Option (List Frame × Option Ref)
  | (_, .done _) => none
  | (_, .wait p frames) => some (frames, some p)
  | (_, .pause frames) => some (frames, none)

/-- All tasks stand where they stood, apart from one that may be named, and from those that are to
    begin. -/
structure Stays (n : Option Nat) (e e' : Engine) : Prop where
  keeps : ∀ k place, n ≠ some k → e.places.get? k = some place → e'.places.get? k = some place
  comes : ∀ k place, n ≠ some k → e'.places.get? k = some place →
    e.places.get? k = some place ∨ ∃ op, place = ([.begin op], none)

theorem Stays.trans {e₁ e₂ e₃ : Engine} (h : Stays n e₁ e₂) (h' : Stays n e₂ e₃) : Stays n e₁ e₃ where
  keeps k place hk hp := h'.keeps k place hk (h.keeps k place hk hp)
  comes k place hk hp := (h'.comes k place hk hp).elim (h.comes k place hk) .inr

theorem Grows.stays (h : Grows e e') : Stays n e e' := by
  obtain ⟨_, ⟨new, hplaces, _⟩, _⟩ := h
  refine ⟨fun k place _ hp => ?_, fun k place _ hp => ?_⟩
  · rw [hplaces]
    exact Table.get?_append_of_some _ hp
  · rw [hplaces, Table.get?_append, Option.or_eq_some_iff] at hp
    rcases hp with hold | ⟨_, hnew⟩
    · exact .inl hold
    · obtain ⟨x, _, hx⟩ := List.mem_map.mp (Table.mem_of_get? hnew)
      exact .inr ⟨x.2, (congrArg Prod.snd hx).symm⟩

/-- Only the entry of the task that is named has changed. -/
theorem stays_of_ne (h : ∀ k, k ≠ m → e'.places.get? k = e.places.get? k) : Stays (some m) e e' where
  keeps k place hk hp := (h k (by simpa [eq_comm] using hk)).trans hp
  comes k place hk hp := .inl ((h k (by simpa [eq_comm] using hk)).symm.trans hp)

theorem place_of_get? {t : Task} (ht : e.tasks.get? m = some t) : e.places.get? m = some t.place := by
  rw [get?_places, ht, Option.map_some]

theorem mem_held_of_place {place : List Frame × Option Ref} {f : Frame}
    (hk : e.places.get? k = some place) (hf : f ∈ place.1) : f ∈ e.held := by
  rw [held_eq_flatMap_places]
  exact List.mem_flatMap.mpr ⟨_, Table.mem_of_get? hk, hf⟩

theorem places_pick (m k : Nat) (e : Engine) :
    (e.pick m).places.get? k = if k = m then some ([], none) else e.places.get? k := by
  rw [get?_places, get?_places, pick, Table.get?_put]
  split <;> rfl

theorem places_keep (m k : Nat) (frames : List Frame) (waiting : Option Ref) (e : Engine) :
    (e.keep m frames waiting).places.get? k =
      if k = m then some (frames, waiting) else e.places.get? k := by
  rw [get?_places, get?_places, keep, Table.get?_put]
  split <;> rfl

theorem places_ended (m k : Nat) (o : Outcome) (e : Engine) :
    ({ e with tasks := e.tasks.erase m }.settle (.task m) o).places.get? k =
      if k = m then none else e.places.get? k := by
  rw [get?_places, get?_places, settle_tasks, Table.get?_erase]
  split <;> rfl

/-- How a run comes to rest: its task stands where the run has left it, and the others where they
    stood. -/
theorem Rests.places (h : Rests m run e) (k : Nat) :
    e.places.get? k = if k = m then place? run else (reached run).2.places.get? k := by
  cases h with
  | ended o => exact places_ended m k o _
  | waits ha hc =>
    rw [hc.places, Engine.places, ha.tasks, ← Engine.places]
    exact places_keep ..
  | pauses ha =>
    rw [Engine.places, ha.tasks, ← Engine.places]
    exact places_keep ..

theorem aloof_keep (m : Nat) (frames : List Frame) (waiting : Option Ref) (e : Engine) :
    Aloof e (e.keep m frames waiting) := aloof_of_eq rfl rfl

theorem Rests.aloof (h : Rests m run e) : Aloof (reached run).2 e := by
  cases h with
  | @ended e o =>
    have herase : Aloof e { e with tasks := e.tasks.erase m } := aloof_of_eq rfl rfl
    exact herase.trans (aloof_settle _ _ _)
  | waits ha hc => exact ((aloof_keep ..).trans (aloof_tallies ha.toTallies)).trans (aloof_cancels hc)
  | pauses ha => exact (aloof_keep ..).trans (aloof_tallies ha)

/-- The run of a task, from where it stands. -/
abbrev runOf (m : Nat) (t : Task) (o : Outcome) (e : Engine) : Run :=
  unwind t.frames (if t.cancelRequested then .cancelled else o) (e.pick m)

/-- When a task runs, the others stand where they stood. -/
theorem Numbered.stays_runTask {t : Task} (hn : Numbered e) (ht : e.tasks.get? m = some t)
    (o : Outcome) : Stays (some m) e (e.runTask m t o) := by
  have hpick : Stays (some m) e (e.pick m) := stays_of_ne fun k hk => by rw [places_pick, if_neg hk]
  have hpath := path_reached (leads_unwind t.frames (if t.cancelRequested then .cancelled else o)
    (e.pick m))
  have hrest : Stays (some m) (reached (runOf m t o e)).2 (e.runTask m t o) :=
    stays_of_ne fun k hk => by rw [(rests_runTask m t o e).places, if_neg hk]
  exact (hpick.trans (Path.grows hpath (hn.pick ht)).stays).trans hrest

theorem place_runTask (m : Nat) (t : Task) (o : Outcome) (e : Engine) :
    (e.runTask m t o).places.get? m = place? (runOf m t o e) := by
  rw [(rests_runTask m t o e).places, if_pos rfl]

/-- A task that is started is to begin, and the others stand where they stood. -/
theorem Numbered.stays_spawn (hn : Numbered e) (op : Operation) : Stays n e (e.spawn op).2 := by
  refine ⟨fun k place _ hk => ?_, fun k place _ hk => ?_⟩
  · rw [hn.places_spawn op]
    exact Table.get?_append_of_some _ hk
  · rw [hn.places_spawn op, Table.get?_append, Option.or_eq_some_iff] at hk
    refine hk.imp id fun ⟨_, hnew⟩ => ⟨op, ?_⟩
    exact congrArg Prod.snd (List.mem_singleton.mp (Table.mem_of_get? hnew))

theorem Numbered.stays_spawnAll : ∀ (ops : List Operation) {e : Engine}, Numbered e →
    Stays n e (spawnAll ops e).2
  | [], _, _ => ⟨fun _ _ _ => id, fun _ _ _ => .inl⟩
  | op :: ops, _, hn => (hn.stays_spawn op).trans (Numbered.stays_spawnAll ops (hn.spawn op))

theorem nextRef_spawnAll : ∀ (ops : List Operation) (e : Engine), e.nextRef ≤ (spawnAll ops e).2.nextRef
  | [], _ => Nat.le_refl _
  | op :: ops, e => Nat.le_trans (Nat.le_succ _) (nextRef_spawnAll ops (e.spawn op).2)

theorem length_spawnAll : ∀ (ops : List Operation) (e : Engine), (spawnAll ops e).1.length = ops.length
  | [], _ => rfl
  | op :: ops, e => congrArg Nat.succ (length_spawnAll ops (e.spawn op).2)

/-- Tasks that are started together have the next numbers. -/
theorem fst_spawnAll : ∀ (ops : List Operation) (e : Engine),
    (spawnAll ops e).1 = (List.range' e.nextRef ops.length).map Ref.task
  | [], _ => rfl
  | op :: ops, e => congrArg (Ref.task e.nextRef :: ·) (fst_spawnAll ops (e.spawn op).2)

theorem nodup_spawnAll (ops : List Operation) (e : Engine) : (spawnAll ops e).1.Nodup := by
  rw [fst_spawnAll]
  exact List.Pairwise.map _ (fun _ _ hne heq => hne (Ref.task.inj heq)) List.nodup_range'

/-- Tasks that are started together are new, and each is to begin with an operation of its own. -/
theorem Numbered.places_spawnAll : ∀ (ops : List Operation) {e : Engine}, Numbered e →
    ∀ r ∈ (spawnAll ops e).1, ∃ k, ∃ op ∈ ops, r = .task k ∧ e.nextRef ≤ k ∧
      k < (spawnAll ops e).2.nextRef ∧ (spawnAll ops e).2.places.get? k = some ([.begin op], none)
  | [], _, _, r, hr => by cases hr
  | op :: ops, e, hn, r, hr => by
      have hspawned := hn.spawn op
      rcases List.mem_cons.mp hr with rfl | hr
      · refine ⟨e.nextRef, op, List.mem_cons_self .., rfl, Nat.le_refl _, ?_, ?_⟩
        · exact Nat.lt_of_lt_of_le (Nat.lt_succ_self _) (nextRef_spawnAll ops (e.spawn op).2)
        · refine (Numbered.stays_spawnAll (n := none) ops hspawned).keeps _ _ (by simp) ?_
          rw [get?_places, hn.tasks_spawn, ← Table.put_of_not_mem _ fun hmem =>
            Nat.lt_irrefl _ (hn.lt _ hmem), Table.get?_put_self]
          rfl
      · obtain ⟨k, op', hop, hk, hge, hlt, hplace⟩ := Numbered.places_spawnAll ops hspawned r hr
        exact ⟨k, op', List.mem_cons_of_mem _ hop, hk, Nat.le_of_succ_le hge, hlt, hplace⟩

/-- Each of the tasks that are started together is to begin with its own operation. -/
theorem Numbered.place_spawnAll : ∀ {ops : List Operation} {e : Engine} {i : Nat} {op : Operation}, Numbered e →
    ops[i]? = some op → (spawnAll ops e).2.places.get? (e.nextRef + i) = some ([.begin op], none)
  | [], _, _, _, _, h => by simp at h
  | op :: ops, e, 0, _, hn, h => by
      obtain rfl : op = _ := by simpa using h
      refine (Numbered.stays_spawnAll (n := none) ops (hn.spawn op)).keeps _ _ (by simp) ?_
      rw [Nat.add_zero, get?_places]
      exact congrArg (Option.map Task.place) (Table.get?_put_self ..)
  | op :: ops, e, i + 1, op', hn, h => by
      have hlater := Numbered.place_spawnAll (hn.spawn op) (i := i) (by simpa using h)
      rwa [show (e.spawn op).2.nextRef = e.nextRef + 1 from rfl, Nat.add_right_comm, Nat.add_assoc] at hlater

/-! ### Groups -/

theorem harmless_spawnAll : ∀ (ops : List Operation) (e : Engine), Harmless n [] e (spawnAll ops e).2
  | [], e => .refl e
  | op :: ops, e => (harmless_spawn op e).trans (harmless_spawnAll ops (e.spawn op).2)

theorem places_gather (members : List Ref) (tolerant : Bool) (e : Engine) :
    (e.gather members tolerant).2.places = e.places := by
  rw [Engine.places, (agrees_gather members tolerant e).tasks]
  rfl

theorem sessions_spawnAll : ∀ (ops : List Operation) (e : Engine), (spawnAll ops e).2.sessions = e.sessions
  | [], _ => rfl
  | op :: ops, e => sessions_spawnAll ops (e.spawn op).2

theorem sessions_gather (members : List Ref) (tolerant : Bool) (e : Engine) :
    (e.gather members tolerant).2.sessions = e.sessions := congrArg (·.2.1) (enlists_gather members tolerant e).same

theorem nextRef_gather (members : List Ref) (tolerant : Bool) (e : Engine) :
    (e.gather members tolerant).2.nextRef = e.nextRef + 1 :=
  congrArg (·.2.2.2.2.2.2.1) (enlists_gather members tolerant e).same

theorem groups_gather (members : List Ref) (tolerant : Bool) (e : Engine) :
    (e.gather members tolerant).2.groups = e.groups.put e.nextRef { members, tolerant } :=
  congrArg (·.2.2.2.2.2.2.2.1) (enlists_gather members tolerant e).same

theorem standing_gather (members : List Ref) (tolerant : Bool) (e : Engine) (r : Ref) :
    (e.gather members tolerant).2.standing r = if r = .group e.nextRef then some none else e.standing r :=
  ((enlists_gather members tolerant e).standing r).trans (standing_promise _ _ _)

/-- A group that listens to nothing is told of nothing. -/
theorem pledges_eq_zero (h : ∀ r, ¬ e.Listens k r) : e.pledges k = 0 := by
  have hpromises : e.promises.total (·.listeners.count (.memberOver k)) = 0 :=
    Table.total_eq_zero fun r p hp => List.count_eq_zero.mpr fun hmem => h r (.inl ⟨p, hp, hmem⟩)
  have hready : e.ready.countP (Job.tells k) = 0 := by
    refine List.countP_eq_zero.mpr fun job hjob htells => ?_
    unfold Job.tells at htells
    split at htells
    · rename_i n r
      obtain rfl := eq_of_beq htells
      exact h r (.inr hjob)
    · cases htells
  rw [Engine.pledges, hpromises, hready]

/-- A new group is told of its tasks alone, and has not ended. -/
theorem Spared.herded_gather {tolerant : Bool} (hsp : Spared n since e) (hd : members.Nodup)
    (hm : ∀ r ∈ members, ∃ m t, r = .task m ∧ e.tasks.get? m = some t) :
    (e.gather members tolerant).2.Herded e.nextRef members := by
  have h := enlists_gather members tolerant e
  have hnext := nextRef_gather members tolerant e
  have hgroups := groups_gather members tolerant e
  -- nobody could listen for a group that was not there
  have hnobody (r : Ref) : ¬ (e.gathering members tolerant).Listens e.nextRef r := fun hl => by
    have hold : e.Listens e.nextRef r := listens_promise hl
    exact absurd (hsp.grouped _ r hold) (Nat.lt_irrefl _)
  have hstanding := standing_gather members tolerant e
  refine ⟨hnext ▸ Nat.lt_succ_self _, ⟨{ members, tolerant }, hgroups ▸ Table.get?_put_self _ _ _, rfl, rfl, ?_⟩,
    fun r hr => ?_, fun r hl => ?_, fun r hr _ => ?_, fun o ho => ?_, hd, fun group hgroup => ?_,
    fun group hgroup _ hne => ?_⟩
  · have hpledges := h.pledges e.nextRef
    rw [pledges_eq_zero hnobody, if_pos rfl, Nat.zero_add] at hpledges
    exact (Nat.zero_add _).trans_le hpledges
  · obtain ⟨m, t, rfl, ht⟩ := hm r hr
    exact ⟨m, rfl, hnext ▸ Nat.lt_succ_of_lt (hsp.opened m t ht).1⟩
  · exact ((h.listens _ r hl).resolve_left (hnobody r)).2
  · obtain ⟨m, t, rfl, ht⟩ := hm r hr
    refine h.heard _ hr ((standing_promise _ _ _).trans ?_)
    rw [if_neg (by simp)]
    exact (hsp.opened m t ht).2
  · rw [outcome?_eq_join, hstanding, if_pos rfl] at ho
    cases ho
  · -- none of its tasks has ended
    have hall : (e.gather members tolerant).2.outstanding members = members.length := by
      refine List.countP_eq_length.mpr fun r hr => ?_
      obtain ⟨m, t, rfl, ht⟩ := hm r hr
      rw [outcome?_eq_join, hstanding, if_neg (by simp), (hsp.opened m t ht).2]
      rfl
    omega
  · rw [hgroups, Table.get?_put_self] at hgroup
    obtain rfl := Option.some.inj hgroup
    exact List.length_pos_iff.mpr hne

theorem Herded.path (h : c.2.Herded k members) (hsp : Spared n since c.2) (hc : Correlated c)
    (hp : Path c c') : c'.2.Herded k members := by
  induction hp with
  | refl => exact h
  | tail hp hs ih => exact (hs.harmless (hsp.path hp hc) (hc.path hp)).groups _ _ ih

theorem Lands.herded (h : Lands m run e) (hk : (reached run).2.Herded k members) :
    e.Herded k members := by
  cases h with
  | @ended e o =>
    have herase : ({ e with tasks := e.tasks.erase m } : Engine).Herded k members :=
      hk.of_eq (Nat.le_refl _) rfl
    exact herase.settle fun h => by cases h
  | waits hs _ | pauses hs _ => exact hs.groups _ _ (hk.of_eq (Nat.le_refl _) rfl)

theorem Herded.runTask {t : Task} (h : e.Herded k members) (hsp : Spared none e.nextRef e)
    (hc : Correlated ([], e)) (ht : e.tasks.get? m = some t) (o : Outcome) :
    (e.runTask m t o).Herded k members := by
  obtain ⟨n, _, _, hwho, _, _, hlands⟩ := hsp.ran hc ht o
  have hpicked : (e.pick m).Herded k members := h.of_eq (Nat.le_refl _) rfl
  have hpath := path_reached (leads_unwind t.frames (if t.cancelRequested then .cancelled else o)
    (e.pick m))
  exact hlands.herded (hpicked.path (hsp.pick ht (hwho.imp And.left id)) (hc.pick ht) hpath)

theorem Herded.runNext (h : e.Herded k members) (hsp : Spared none e.nextRef e)
    (hc : Correlated ([], e)) : e.runNext.Herded k members := by
  obtain ⟨e₁, ha, hrun⟩ := runNext_cases e
  have hs : Harmless none [] e e₁ := harmless_tallies ha
  have hc₁ : Correlated ([], e₁) := hc.calm (calm_tallies ha) (.of_tallies ha) rfl
  have hsp₁ := (hsp.harmless hs).raise hs.nextRef (Nat.le_refl _)
  have h₁ := h.tallies ha
  rcases hrun with hp | ⟨m, t, ht, heq⟩
  · exact h₁.path hsp₁ hc₁ hp
  · rw [heq]
    exact h₁.runTask hsp₁ hc₁ ht _

/-- Whatever is done, unless something is cancelled, nobody asks the group to stop. -/
theorem Herded.act {a : Action} (h : e.Herded k members) (hsp : Spared none e.nextRef e)
    (hc : Correlated ([], e)) (ha : a.spares = true) : (e.act a).Herded k members := by
  have hinner {a : Action} (ha : a.inner = true) : (e.act a).Herded k members :=
    h.path hsp hc (path_act ha)
  have hcalm {e' : Engine} (hs : Harmless none [] e e') : e'.Herded k members := hs.groups _ _ h
  cases a with
  | run => exact h.runNext hsp hc
  | «begin» op => exact hcalm (harmless_spawn op e)
  | cancel r => cases ha
  | failSends f => exact hcalm (harmless_of_eq (Nat.le_refl _) rfl rfl rfl rfl)
  | addSession s => exact hcalm (harmless_of_eq (Nat.le_refl _) rfl rfl rfl rfl)
  | scheduleChange doc text changes => exact hcalm (hsp.scheduleChange doc text changes)
  | viewChanged doc text changes =>
    have hs : Harmless none [] e (e.scheduleChange doc text changes).2 :=
      hsp.scheduleChange doc text changes
    have hedit : (e.scheduleChange doc text changes).2.Herded k members := hcalm hs
    exact hedit.path (hsp.harmless hs) (hc.act (.scheduleChange doc text changes))
      (path_viewChanged doc text changes)
  | closeSession doc => cases ha
  | _ => exact hinner rfl

end LanguageClient.Engine
