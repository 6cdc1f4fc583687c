import LanguageClient.Proofs.Client.Enduring
import LanguageClient.Proofs.Engine.Places

/-!
The stretches of a task. A task works from where it begins up to where it first waits, then up to
where it waits next, and so on; in between the others work and the outside does what it likes. What
a task has come to is what its stretches have come to, one after the other, as nothing else moves its
frames (`along_stretches`).

    task      begin ──stretch──▶ waits · · · ──stretch──▶ waits · · · ──stretch──▶ ended
    others                             ──▶ ──▶                  ──▶
-/

namespace LanguageClient

/-- The task that a job lets go on, and what for. -/
def Job.wakes? : Job → Option (Nat × Option Ref)
  | .step n => some (n, none)
  | .call (.wake n) r => some (n, some r)
  | _ => none

theorem Job.tells_of_wakes? {job : Job} {woken : Nat × Option Ref} (h : job.wakes? = some woken) (k : Nat) :
    job.tells k = false := by
  cases job with
  | step n => rfl
  | ring alarm => rfl
  | call l r =>
    cases l with
    | memberOver n => cases h
    | _ => rfl

namespace Engine

variable {k j : Nat} {t t' : Task} {e e' : Engine}

/-- One stretch of a task: the state that it finds, and its run up to where it waits or ends. -/
structure Stretch where
  found : Engine
  run : Run

namespace Stretch

/-- The state that a stretch leaves. -/
def left (s : Stretch) : Engine := s.run.1

/-- What the task ended with, if it has. -/
def ended? (s : Stretch) : Option Outcome :=
  match s.run.2 with
  | .done o => some o
  | _ => none

/-- What has happened. -/
def news (s : Stretch) : List Event := s.left.history.drop s.found.history.length

end Stretch

/-- The first job has been taken from the queue. -/
def popped (e : Engine) : Engine := { e with ready := e.ready.tail }

/-- The first job lets the task go on. -/
def GoesOn (k : Nat) (t : Task) (e : Engine) : Prop :=
  ∃ job rest, e.ready = job :: rest ∧ job.wakes? = some (k, t.waiting) ∧ e.tasks.get? k = some t

/-- With what a task goes on: with what it has waited for, unless it was asked to stop. -/
def handed (t : Task) (e : Engine) : Outcome :=
  if t.cancelRequested then .cancelled else awaited t.waiting e

/-- The stretch of a task that the first job of the queue lets it go through. -/
def stretch? (k : Nat) (e : Engine) : Option Stretch :=
  match e.ready with
  | [] => none
  | job :: rest =>
    match job.wakes?, e.tasks.get? k with
    | some (n, source), some t =>
      if n = k ∧ t.waiting = source then
        let e := { e with ready := rest }
        some ⟨e.pick k, runOf k t (awaited source e) e⟩
      else none
    | _, _ => none

/-- The stretches of a task while some actions are done. -/
def stretches (k : Nat) : List Action → Engine → List Stretch
  | [], _ => []
  | .run :: rest, e => (e.stretch? k).toList ++ stretches k rest (e.act .run)
  | a :: rest, e => stretches k rest (e.act a)

/-- The frames that a task keeps, unless it has ended. -/
def standing? (k : Nat) (e : Engine) : Option (List Frame) := (e.tasks.get? k).map (·.frames)

/-! ### Going on -/

theorem run_of_ended? {s : Stretch} (h : s.ended? = some o) : s.run.2 = .done o := by
  simp only [Stretch.ended?] at h
  split at h
  · rename_i heq
    rw [heq, Option.some.inj h]
  · cases h

theorem runNext_of_goesOn (h : e.GoesOn k t) : ∃ rest,
    e.runNext = runTask k t (awaited t.waiting e) { e with ready := rest } := by
  obtain ⟨job, rest, hready, hjob, ht⟩ := h
  refine ⟨rest, ?_⟩
  have hresume (source : Option Ref) (hw : source = t.waiting) :
      resumeTask k source { e with ready := rest } =
        runTask k t (awaited t.waiting e) { e with ready := rest } := by
    subst hw
    simp only [resumeTask, ht, if_true]
    rfl
  unfold runNext
  rw [hready]
  cases job with
  | step n =>
    obtain ⟨rfl, hw⟩ := Prod.mk.inj (Option.some.inj hjob)
    exact hresume none hw
  | call l source =>
    cases l with
    | wake n =>
      obtain ⟨rfl, hw⟩ := Prod.mk.inj (Option.some.inj hjob)
      exact hresume (some source) hw
    | _ => cases hjob
  | ring alarm => cases hjob

theorem GoesOn.unique (h : e.GoesOn k t) (h' : e.GoesOn j t') : k = j ∧ t = t' := by
  obtain ⟨job, rest, hready, hjob, ht⟩ := h
  obtain ⟨job', rest', hready', hjob', ht'⟩ := h'
  obtain rfl : job = job' := (List.cons.inj (hready.symm.trans hready')).1
  obtain rfl : k = j := (Prod.mk.inj (Option.some.inj (hjob.symm.trans hjob'))).1
  exact ⟨rfl, Option.some.inj (ht.symm.trans ht')⟩

/-! ### What moves no other task -/

theorem standing?_eq (k : Nat) (e : Engine) :
    e.standing? k = (e.places.get? k).map Prod.fst := by
  rw [get?_places, Option.map_map]
  rfl

/-- What is new stands apart. -/
theorem Grows.place_eq (h : Grows e e') (hk : k < e.nextRef) : e'.places.get? k = e.places.get? k := by
  obtain ⟨_, ⟨new, hplaces, _, hnumber, _⟩, _⟩ := h
  have hnone : Table.get? k (new.map fun x => (x.1, ([Frame.begin x.2], (none : Option Ref)))) =
      none := by
    rw [Table.get?_eq_none_iff]
    intro hmem
    obtain ⟨y, hy, heq⟩ := List.mem_map.mp hmem
    obtain ⟨x, hx, rfl⟩ := List.mem_map.mp hy
    have hge := (hnumber x hx).1
    have heq : x.1 = k := heq
    omega
  rw [hplaces, Table.get?_append, hnone, Option.or_none]

theorem Numbered.place_runTask_of_ne {m : Nat} {t : Task} (hn : Numbered e)
    (ht : e.tasks.get? m = some t) (hlt : k < e.nextRef) (hk : k ≠ m) (o : Outcome) :
    (e.runTask m t o).places.get? k = e.places.get? k := by
  have hpath := path_reached (leads_unwind t.frames (if t.cancelRequested then .cancelled else o)
    (e.pick m))
  rw [(rests_runTask m t o e).places, if_neg hk, (Path.grows hpath (hn.pick ht)).place_eq hlt, places_pick,
    if_neg hk]

/-- A job that lets no task go on moves none. -/
theorem Numbered.place_runJob {job : Job} {rest : List Job} (hn : Numbered e)
    (hlt : k < e.nextRef) (h : e.ready = job :: rest) (hj : job.wakes? = none) :
    ({ e with ready := rest }.runJob job).places.get? k = e.places.get? k := by
  have hn' : Numbered { e with ready := rest } := ⟨hn.nodup, hn.lt⟩
  have hnap (n : Nat) : (Ref.nap n).Free (.value .nothing) := rfl
  have hpath {e₂ : Engine} (hp : Path ([], { e with ready := rest }) ([], e₂)) :
      e₂.places.get? k = e.places.get? k := (Path.grows hp hn').place_eq hlt
  cases job with
  | step n => cases hj
  | call l source =>
    cases l with
    | wake n => cases hj
    | release n => exact hpath (.single (.settle_free (hnap n) (by simp) (by simp)))
    | handshakeOver => exact hpath (.single (.agree (agrees_handshakeOver source _)))
    | backgroundOver doc => exact hpath (.single (.agree (agrees_backgroundOver doc source _)))
    | memberOver n =>
      have hp : Path ([], e) ([], { e with ready := rest }.memberOver n source) :=
        path_memberOver h
      exact (Path.grows hp hn).place_eq hlt
  | ring alarm =>
    cases alarm with
    | release n => exact hpath (.single (.settle_free (hnap n) (by simp) (by simp)))
    | deliver frame => exact hpath (path_arrive _)

/-- What a job comes to for a task: a stretch of it, for which it has been called if it waited, or
    nothing. -/
theorem Numbered.stretch?_cases (hn : Numbered e) (hlt : k < e.nextRef) :
    (e.stretch? k = none ∧ e.runNext.places.get? k = e.places.get? k) ∨
      ∃ t job rest, e.ready = job :: rest ∧ e.tasks.get? k = some t ∧ job.wakes? = some (k, t.waiting) ∧
        e.stretch? k = some ⟨{ e with ready := rest }.pick k,
          runOf k t (awaited t.waiting { e with ready := rest }) { e with ready := rest }⟩ ∧
        e.runNext = { e with ready := rest }.runTask k t (awaited t.waiting { e with ready := rest }) := by
  unfold stretch? runNext
  cases hready : e.ready with
  | nil => exact .inl ⟨rfl, rfl⟩
  | cons job rest =>
    have hn' : Numbered { e with ready := rest } := ⟨hn.nodup, hn.lt⟩
    cases hj : job.wakes? with
    | none => exact .inl ⟨by simp [hj], hn.place_runJob hlt hready hj⟩
    | some woken =>
      obtain ⟨n, source⟩ := woken
      have hjob : ({ e with ready := rest } : Engine).runJob job =
          ({ e with ready := rest } : Engine).resumeTask n source := by
        cases job with
        | step m =>
          obtain ⟨rfl, rfl⟩ := Prod.mk.inj (Option.some.inj hj)
          rfl
        | call l r =>
          cases l with
          | wake m =>
            obtain ⟨rfl, rfl⟩ := Prod.mk.inj (Option.some.inj hj)
            rfl
          | _ => cases hj
        | ring alarm => cases hj
      simp only [hj, hjob]
      by_cases hk : n = k
      · subst hk
        unfold resumeTask
        cases ht : e.tasks.get? n with
        | none => exact .inl ⟨rfl, rfl⟩
        | some t =>
          by_cases hw : t.waiting = source
          · subst hw
            refine .inr ⟨t, job, rest, rfl, rfl, hj, by simp, ?_⟩
            simp only [if_true]
            rfl
          · exact .inl ⟨by simp [hw], by simp [hw, places]⟩
      · refine .inl ⟨?_, ?_⟩
        · split
          · rename_i n' source' t heq _
            obtain ⟨rfl, rfl⟩ := Prod.mk.inj (Option.some.inj heq)
            rw [if_neg fun h => hk h.1]
          · rfl
        · unfold resumeTask
          split
          · rfl
          · rename_i t ht
            split
            · exact hn'.place_runTask_of_ne ht hlt (Ne.symm hk) _
            · rfl

/-- A task goes on in a stretch of its own, or stays where it is. -/
theorem Numbered.goesOn_cases (hn : Numbered e) (hlt : k < e.nextRef) :
    (e.stretch? k = none ∧ (∀ t, ¬ e.GoesOn k t) ∧ e.runNext.places.get? k = e.places.get? k) ∨
      ∃ t, e.GoesOn k t ∧ e.runNext = e.popped.runTask k t (awaited t.waiting e) ∧
        e.stretch? k = some ⟨e.popped.pick k, unwind t.frames (e.handed t) (e.popped.pick k)⟩ := by
  rcases hn.stretch?_cases hlt with ⟨hnone, hsame⟩ | ⟨t, job, rest, hready, ht, hjob, hs, hran⟩
  · refine .inl ⟨hnone, ?_, hsame⟩
    rintro t ⟨job, rest, hready, hjob, ht⟩
    rw [stretch?, hready] at hnone
    simp [hjob, ht] at hnone
  · have hpopped : e.popped = { e with ready := rest } := by rw [popped, hready, List.tail_cons]
    refine .inr ⟨t, ⟨job, rest, hready, hjob, ht⟩, ?_, ?_⟩
    · rw [hpopped]
      exact hran
    · rw [hpopped]
      exact hs

/-- An action that lets no task go on moves none. -/
theorem Numbered.place_act {a : Action} (hn : Numbered e) (hlt : k < e.nextRef) (ha : a ≠ .run) :
    (e.act a).places.get? k = e.places.get? k := by
  cases hd : a.drives with
  | false => exact (hn.grows_act hd).place_eq hlt
  | true =>
    cases a with
    | run => exact absurd rfl ha
    | «begin» op =>
      have hne : k ≠ e.nextRef := Nat.ne_of_lt hlt
      rw [get?_places, get?_places]
      exact congrArg _ (Table.get?_put_of_ne hne _ _)
    | _ => cases hd

/-! ### Following a task -/

/-- Where a run leaves its task. -/
def leaves? : Run → Option (List Frame)
  | (_, .done _) => none
  | (_, .wait _ frames) | (_, .pause frames) => some frames

theorem standing?_runTask (t : Task) (o : Outcome) (e : Engine) :
    (e.runTask k t o).standing? k = leaves? (runOf k t o e) := by
  rw [standing?_eq, place_runTask]
  generalize runOf k t o e = run
  obtain ⟨e', _ | _ | _⟩ := run <;> rfl

theorem stretches_of_ne {a : Action} (ha : a ≠ .run) (actions : List Action) (e : Engine) :
    stretches k (a :: actions) e = stretches k actions (e.act a) := by
  cases a <;> first | rfl | exact absurd rfl ha

theorem mem_stretches {s : Stretch} : ∀ (actions : List Action) {e : Engine}, s ∈ stretches k actions e →
    ∃ early late, actions = early ++ .run :: late ∧ (e.after early).stretch? k = some s
  | [], _, h => by cases h
  | a :: rest, e, h => by
      have hlater (h : s ∈ stretches k rest (e.act a)) : ∃ early late,
          a :: rest = early ++ .run :: late ∧ (e.after early).stretch? k = some s := by
        obtain ⟨early, late, rfl, hs⟩ := mem_stretches rest h
        exact ⟨a :: early, late, rfl, hs⟩
      by_cases ha : a = .run
      · subst ha
        rcases List.mem_append.mp h with h | h
        · exact ⟨[], rest, rfl, Option.mem_toList.mp h⟩
        · exact hlater h
      · rw [stretches_of_ne ha] at h
        exact hlater h

/-- A task that goes through no stretch stays where it is. -/
theorem Correlated.place_after : ∀ (actions : List Action) {e : Engine}, Correlated ([], e) → k < e.nextRef →
    stretches k actions e = [] → (e.after actions).places.get? k = e.places.get? k
  | [], _, _, _, _ => rfl
  | a :: rest, e, hc, hlt, h => by
      have hlt' : k < (e.act a).nextRef := Nat.lt_of_lt_of_le hlt (lasts_act a e).nextRef
      by_cases ha : a = .run
      · subst ha
        obtain ⟨hnone, hrest⟩ := List.append_eq_nil_iff.mp h
        rcases hc.numbered.goesOn_cases hlt with ⟨_, _, hsame⟩ | ⟨t, _, _, hs⟩
        · exact ((hc.act .run).place_after rest hlt' hrest).trans hsame
        · simp [hs] at hnone
      · rw [stretches_of_ne ha] at h
        exact ((hc.act a).place_after rest hlt' h).trans (hc.numbered.place_act hlt ha)

/-- What each stretch keeps of the stretches so far and of where the task stands, all of them keep,
    whatever the task goes on with and whatever happens in between. Of the states that a stretch finds
    no more is known than what follows from what holds of all states. -/
theorem along_stretches {I J : Engine → Prop} {P : List Stretch → Option (List Frame) → Prop}
    (hact : ∀ a e, I e → I (e.act a)) (hfound : ∀ rest e, I e → J ({ e with ready := rest }.pick k))
    (h : ∀ past frames, P past (some frames) → ∀ (o : Outcome) (e : Engine), J e →
      P (past ++ [⟨e, unwind frames o e⟩]) (leaves? (unwind frames o e))) :
    ∀ (actions : List Action) {e : Engine} {past : List Stretch}, Correlated ([], e) →
      k < e.nextRef → I e → P past (e.standing? k) →
      P (past ++ stretches k actions e) ((e.after actions).standing? k)
  | [], _, past, _, _, _, hp => by
      rw [stretches, List.append_nil]
      exact hp
  | action :: actions, e, past, hc, hlt, hi, hp => by
      have hlt' : k < (e.act action).nextRef := Nat.lt_of_lt_of_le hlt (lasts_act action e).nextRef
      have hrest {past : List Stretch} (hp : P past ((e.act action).standing? k)) :=
        along_stretches hact hfound h actions (hc.act action) hlt' (hact action e hi) hp
      by_cases hrun : action = .run
      · subst hrun
        rw [stretches]
        rcases hc.numbered.stretch?_cases hlt with ⟨hnone, hsame⟩ | ⟨t, _, rest, _, ht, _, hs, hran⟩
        · have hact : (e.act .run).places.get? k = e.places.get? k := hsame
          rw [hnone]
          exact hrest (by rwa [standing?_eq, hact, ← standing?_eq])
        · generalize awaited t.waiting _ = o at hs hran
          have hact : (e.act .run).standing? k = leaves? (runOf k t o { e with ready := rest }) := by
            rw [← standing?_runTask, ← hran]
            rfl
          have hk : e.standing? k = some t.frames := by rw [standing?, ht, Option.map_some]
          have hstep := h past t.frames (hk ▸ hp)
            (if t.cancelRequested then .cancelled else o) _ (hfound rest e hi)
          rw [hs, Option.toList_some, ← List.append_assoc]
          exact hrest (hact ▸ hstep)
      · rw [stretches_of_ne hrun]
        exact hrest (by rwa [standing?_eq, hc.numbered.place_act hlt hrun, ← standing?_eq])

/-- A task that has ended goes through no more stretches. -/
theorem Correlated.stretches_ended (hc : Correlated ([], e)) (hk : k < e.nextRef) (h : e.standing? k = none)
    (actions : List Action) : e.stretches k actions = [] := by
  let P (past : List Stretch) (frames : Option (List Frame)) : Prop := past = [] ∧ frames = none
  have hstart : P [] (e.standing? k) := ⟨rfl, h⟩
  exact (along_stretches (I := fun _ => True) (J := fun _ => True) (fun _ _ => id) (fun _ _ => id)
    (fun past frames h => by cases h.2) actions hc hk trivial hstart).1

/-! ### Documents stay -/

theorem Aloof.documents (h : Aloof e e') : e.sessions.length ≤ e'.sessions.length := by
  simpa using h.outlooks.length_le

theorem length_onSession (doc : Nat) (f : Session → Session) (e : Engine) :
    (e.onSession doc f).sessions.length = e.sessions.length := List.length_modify _ _ _

/-- No step takes a document away. -/
theorem Step.documents {c c' : Config} (hs : Step c c') :
    c.2.sessions.length ≤ c'.2.sessions.length := by
  cases hs.inquiry with
  | aloof ha => exact ha.documents
  | pose => exact Nat.le_of_eq (length_onSession _ _ _).symm
  | late _ _ _ _ hrefresh => exact (aloof_refreshes hrefresh).documents
  | asks _ _ _ ha => exact ha.documents
  | remark => exact Nat.le_refl _
  | shown => exact Nat.le_of_eq (length_onSession _ _ _).symm

end Engine

end LanguageClient
