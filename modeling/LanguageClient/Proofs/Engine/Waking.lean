import LanguageClient.Proofs.Engine.Places
import LanguageClient.Proofs.Engine.Stretches

/-!
Waiting for a group. A task that waits for a group is to be told when the group has ended, and nothing that
happens forgets that (`Remembers`). So when there is nothing left to do, a task that still waits for a group waits
for one that has not ended, and one of its tasks has not ended either.

    waits ──▶ · · · ──the last of the tasks ends──▶ to be told ──▶ to go on ──▶ goes on
-/

namespace LanguageClient.Engine

variable {k m : Nat} {st : List Frame} {c c' : Config} {e e' : Engine} {t : Task} {actions : List Action}

/-- Who is to be told of the end of a group is still to be told. -/
structure Remembers (e e' : Engine) : Prop where
  nextRef : e.nextRef ≤ e'.nextRef
  wakes : ∀ m k, k < e.nextRef → e.Wakes m k → e'.Wakes m k

theorem Remembers.trans {e₁ e₂ e₃ : Engine} (h : Remembers e₁ e₂) (h' : Remembers e₂ e₃) : Remembers e₁ e₃ where
  nextRef := Nat.le_trans h.nextRef h'.nextRef
  wakes m k hk hw := h'.wakes m k (Nat.lt_of_lt_of_le hk h.nextRef) (h.wakes m k hk hw)

theorem remembers_of_eq (hn : e.nextRef ≤ e'.nextRef) (h : (e'.promises, e'.ready) = (e.promises, e.ready)) :
    Remembers e e' := ⟨hn, fun _ _ _ => wakes_of_eq h⟩

theorem Remembers.refl (e : Engine) : Remembers e e := remembers_of_eq (Nat.le_refl _) rfl

theorem remembers_agrees (h : Agrees e e') : Remembers e e' := ⟨h.nextRef, fun m k _ => h.wakes m k⟩

/-- Whoever listened is told. -/
theorem remembers_settle (r : Ref) (o : Outcome) (e : Engine) : Remembers e (e.settle r o) where
  nextRef := Nat.le_of_eq (settle_nextRef r o e).symm
  wakes m k _ hw := by
    unfold settle
    split
    · rename_i listeners hp
      rcases hw with ⟨listeners', hget, hmem⟩ | hmem
      · by_cases hr : .group k = r
        · subst hr
          obtain rfl : listeners = listeners' := by simpa using hp.symm.trans hget
          exact .inr (List.mem_append_right _ (List.mem_map.mpr ⟨_, hmem, rfl⟩))
        · exact .inl ⟨listeners', (Table.get?_put_of_ne hr _ _).trans hget, hmem⟩
      · exact .inr (List.mem_append_left _ hmem)
    · exact hw

theorem remembers_promise {r : Ref} (h : ∀ k, r = .group k → e.nextRef ≤ k) : Remembers e (e.promise r) where
  nextRef := Nat.le_refl _
  wakes m k hk hw := by
    refine hw.imp ?_ id
    rintro ⟨listeners, hget, hmem⟩
    have hne : Ref.group k ≠ r := fun hr => absurd hk (Nat.not_lt.mpr (h k hr.symm))
    exact ⟨listeners, (Table.get?_put_of_ne hne _ _).trans hget, hmem⟩

theorem remembers_spawn (op : Operation) (e : Engine) : Remembers e (e.spawn op).2 where
  nextRef := Nat.le_succ _
  wakes m k hk hw := by
    have hpromise : Remembers e (e.promise (.task e.nextRef)) := remembers_promise (by simp)
    exact (hpromise.wakes m k hk hw).imp id (List.mem_append_left _)

theorem remembers_gather (members : List Ref) (tolerant : Bool) (e : Engine) :
    Remembers e (e.gather members tolerant).2 := by
  have hpromise : Remembers (e.grouped members tolerant)
      ((e.grouped members tolerant).promise (.group e.nextRef)) :=
    remembers_promise fun k hk => Nat.le_of_eq (Ref.group.inj hk)
  exact ((remembers_agrees (agrees_grouped members tolerant e)).trans hpromise).trans
    (remembers_agrees (agrees_gather members tolerant e))

theorem remembers_settleAll (f : Failure) : ∀ (pending : Table Nat Ref) (e : Engine),
    Remembers e (pending.foldl (fun e (_, answer) => e.settle answer (.failure f)) e)
  | [], e => .refl e
  | entry :: rest, e => (remembers_settle entry.2 (.failure f) e).trans (remembers_settleAll f rest _)

theorem remembers_failPending (f : Failure) (e : Engine) : Remembers e (e.failPending f) :=
  remembers_settleAll f e.client.pending e

theorem remembers_note (event : Event) (e : Engine) : Remembers e (e.note event) :=
  remembers_of_eq (Nat.le_refl _) rfl

theorem remembers_shutDown (e : Engine) : Remembers e e.shutDown := by
  have hclosed : Remembers e (e.onClient fun c => { c with ready := false, closed := true }) :=
    remembers_of_eq (Nat.le_refl _) rfl
  unfold shutDown
  refine (Remembers.trans ?_ (remembers_failPending _ _)).trans (remembers_note _ _)
  split
  · exact hclosed.trans (remembers_spawn .disconnect _)
  · exact hclosed

theorem remembers_startHandshake (e : Engine) : Remembers e e.startHandshake.2 := by
  rcases startHandshake_cases e with ⟨_, heq⟩ | ⟨_, ha⟩
  · rw [heq]
    exact .refl e
  · have hshaking : Remembers (e.spawn .handshake).2 e.shaking := remembers_of_eq (Nat.le_refl _) rfl
    exact ((remembers_spawn .handshake e).trans hshaking).trans (remembers_agrees ha)

theorem remembers_startReader (e : Engine) : Remembers e e.startReader := by
  rcases startReader_cases e with ⟨_, heq⟩ | ⟨_, heq⟩
  · rw [heq]
    exact .refl e
  · have hreading : Remembers (e.spawn .read).2 e.reading := remembers_of_eq (Nat.le_refl _) rfl
    rw [heq]
    exact (remembers_spawn .read e).trans hreading

theorem remembers_register (r : Registration Subscriber) (e : Engine) : Remembers e (e.register r) := by
  have henlisted : Remembers e (e.enlist r) := remembers_of_eq (Nat.le_refl _) rfl
  rcases register_cases r e with heq | ⟨_, level, message, heq⟩
  · rw [heq]
    exact henlisted
  · rw [heq]
    exact (henlisted.trans (remembers_agrees (agrees_log level message _))).trans (remembers_spawn _ _)

/-! ### Cancelling -/

theorem remembers_members {bound : Nat} (h : ∀ (r : Ref) (e : Engine), Remembers e (cancelWithin bound r e).2) :
    ∀ (members : List Ref) (any : Bool) (e : Engine),
      Remembers e (members.foldl (fun (any, e) m =>
        let (hit, e) := cancelWithin bound m e
        (any || hit, e)) (any, e)).2
  | [], _, e => .refl e
  | m :: ms, _, e => (h m e).trans (remembers_members h ms _ _)

theorem remembers_cancelWithin : ∀ (bound : Nat) (r : Ref) (e : Engine), Remembers e (cancelWithin bound r e).2
  | 0, _, e => .refl e
  | bound + 1, r, e => by
      have ih := remembers_cancelWithin bound
      have hstop (n : Nat) (e : Engine) : Remembers e (e.requestCancel n) := remembers_of_eq (Nat.le_refl _) rfl
      unfold cancelWithin
      split
      · exact .refl e
      · split
        · split
          · exact hstop _ e
          · rename_i p _
            have hp := ih p e
            split
            · rename_i h
              rwa [h] at hp
            · rename_i h
              rw [h] at hp
              exact hp.trans (hstop _ _)
        · simp only
          have hm := remembers_members ih
          split
          · exact (hm _ _ e).trans (remembers_of_eq (Nat.le_refl _) rfl)
          · exact hm _ _ e
        · exact remembers_settle _ _ e

theorem remembers_cancel (r : Ref) (e : Engine) : Remembers e (e.cancel r).2 := remembers_cancelWithin _ r e

theorem remembers_cancelSlot (slot : Nat) (e : Engine) : Remembers e (e.cancelSlot slot).2 := by
  unfold cancelSlot
  split
  · exact .refl e
  · rename_i r _
    have herased : Remembers e { e with slots := e.slots.erase slot } := remembers_of_eq (Nat.le_refl _) rfl
    simp only
    split
    · exact herased
    · exact herased.trans (remembers_cancel r _)

theorem remembers_scheduleFlush (doc : Nat) (e : Engine) : Remembers e (e.scheduleFlush doc).2 :=
  ((remembers_cancelSlot doc e).trans (remembers_spawn _ _)).trans (remembers_of_eq (Nat.le_refl _) rfl)

theorem remembers_scheduleChange (doc : Nat) (text : List Char) (changes : Option (List Change)) (e : Engine) :
    Remembers e (e.scheduleChange doc text changes).2 := by
  obtain ⟨e₁, ha, heq⟩ := scheduleChange_eq doc text changes e
  have hedited : Remembers e (e.edited doc text changes) := remembers_of_eq (Nat.le_refl _) rfl
  rw [heq]
  exact (hedited.trans (remembers_agrees ha)).trans (remembers_scheduleFlush doc _)

theorem remembers_onDocument (doc : Nat) (f : Document → Document) (e : Engine) :
    Remembers e (e.onDocument doc f) := remembers_of_eq (Nat.le_refl _) rfl

theorem remembers_noteOpened (doc : Nat) (sent : List Char) (e : Engine) : Remembers e (e.noteOpened doc sent) := by
  have hopened := remembers_onDocument doc (fun d => { d with opened := true }.resync sent) e
  unfold noteOpened
  simp only
  split
  · exact hopened
  · split
    · exact (hopened.trans (remembers_onDocument doc (·.forget) _)).trans (remembers_scheduleFlush doc _)
    · exact hopened

theorem remembers_retext (doc : Nat) (text : Option (List Char)) (e : Engine) : Remembers e (e.retext doc text) := by
  cases text <;> exact remembers_of_eq (Nat.le_refl _) rfl

/-! ### Steps and runs -/

theorem Clears.remembers {doc : Nat} (h : Clears doc c c') : Remembers c.2 c'.2 := by
  cases h with
  | kept => exact .refl _
  | cancelled => exact remembers_cancelSlot doc _
  | elapsed => exact remembers_of_eq (Nat.le_refl _) rfl

theorem Sends.remembers {doc : Nat} (h : Sends doc c c') : Remembers c.2 c'.2 := by
  cases h with
  | idle text => exact remembers_retext doc text _
  | told => exact (remembers_retext doc _ _).trans (remembers_of_eq (Nat.le_refl _) rfl)
  | closed text d => exact (remembers_retext doc text _).trans (remembers_onDocument doc (fun _ => d) _)

theorem Refreshes.remembers {doc : Nat} (h : Refreshes doc c c') : Remembers c.2 c'.2 := by
  cases h with
  | idle => exact remembers_cancelSlot doc _
  | sends _ hs => exact (remembers_cancelSlot doc _).trans hs.remembers

/-- No step forgets a task that waits for a group. -/
theorem Step.remembers (hs : Step c c') : Remembers c.2 c'.2 := by
  cases hs with
  | agree ha => exact remembers_agrees ha
  | settle ha => exact (remembers_agrees ha).trans (remembers_settle _ _ _)
  | abandon _ _ _ ha => exact (remembers_agrees ha).trans (remembers_settle _ _ _)
  | @late st e f doc generation feature members c' _ _ _ _ hr =>
    have h : Remembers (f :: st, e).2 c'.2 := hr.remembers
    exact h
  | promise hr =>
    refine remembers_promise ?_
    rintro k rfl
    cases hr
  | gather members tolerant => exact remembers_gather members tolerant _
  | spawn => exact remembers_spawn _ _
  | register r => exact remembers_register r _
  | @call st st' e method params name =>
    have hclient : Remembers e { e with client := (e.client.enroll name).2 } := remembers_of_eq (Nat.le_refl _) rfl
    have hpromise := remembers_promise (e := { e with client := (e.client.enroll name).2 })
      (r := .answer (e.client.enroll name).1) (by simp)
    exact ((hclient.trans hpromise).trans (remembers_note _ _)).trans (remembers_note _ _)
  | @oblige st e e' m _ ha =>
    exact ((remembers_note _ e).trans (remembers_agrees ha)).trans (remembers_spawn _ _)
  | @respond st e e' m _ hr =>
    have hnote : Remembers e (e.note (.taken m)) := remembers_note _ e
    rcases resolve_cases hr with ⟨ha, _⟩ | ⟨_, answer, o, _, _, _, _, rfl⟩
    · exact hnote.trans (remembers_agrees ha)
    · exact hnote.trans (remembers_settle answer o _)
  | startReader => exact remembers_startReader _
  | handshake => exact remembers_startHandshake _
  | cancelReader => exact remembers_cancel _ _
  | joined => exact (remembers_failPending _ _).trans (remembers_note _ _)
  | shutDown => exact remembers_shutDown _
  | @crash st e e' m _ ha =>
    exact ((remembers_note _ e).trans (remembers_agrees ha)).trans (remembers_shutDown _)
  | preset doc text => cases text <;> exact remembers_of_eq (Nat.le_refl _) rfl
  | opened doc sent => exact remembers_noteOpened doc sent _
  | edit text changes => exact remembers_scheduleChange _ text changes _
  | @unscheduled _ _ doc => exact remembers_cancelSlot doc _
  | flush hclears hsends => exact hclears.remembers.trans hsends.remembers
  | _ => exact remembers_of_eq (Nat.le_refl _) rfl

theorem Path.remembers (h : Path c c') : Remembers c.2 c'.2 := by
  induction h with
  | refl => exact .refl _
  | tail _ hs ih => exact ih.trans hs.remembers

/-! ### Jobs and what is done -/

theorem remembers_enqueue (job : Job) (e : Engine) : Remembers e (e.enqueue job) :=
  ⟨Nat.le_refl _, fun _ _ _ hw => hw.imp id (List.mem_append_left _)⟩

/-- A task that has to wait, and is to be told, may have what it waits for cancelled. -/
theorem remembers_parked (n : Nat) (p : Ref) (frames : List Frame) (e : Engine) :
    Remembers ((e.keep n frames (some p)).listen p (.wake n)) (e.park n p frames) := by
  have hcancel := remembers_cancel p ((e.keep n frames (some p)).listen p (.wake n))
  unfold park
  simp only
  split
  · split
    · rename_i h
      rw [h] at hcancel
      exact hcancel.trans (remembers_of_eq (Nat.le_refl _) rfl)
    · rename_i h
      rwa [h] at hcancel
  · exact .refl _

/-- A task that comes to wait for a group that has not ended is to be told. -/
theorem wakes_park (h : e.standing (.group k) = some none) (hk : k < e.nextRef) (frames : List Frame) :
    (e.park m (.group k) frames).Wakes m k := by
  obtain ⟨p, hget, hopen⟩ := Option.map_eq_some_iff.mp h
  obtain ⟨outcome, listeners⟩ := p
  obtain rfl : outcome = none := hopen
  have hheard : ((e.keep m frames (some (.group k))).listen (.group k) (.wake m)).Wakes m k := by
    refine .inl ⟨listeners ++ [.wake m], ?_, by simp⟩
    have hget' : (e.keep m frames (some (.group k))).promises.get? (.group k) = some ⟨none, listeners⟩ := hget
    unfold listen
    rw [hget']
    exact Table.get?_put_self ..
  refine (remembers_parked m (.group k) frames e).wakes m k ?_ hheard
  have hlisten := (agrees_listen (.group k) (.wake m) (e.keep m frames (some (.group k))) (by simp)).nextRef
  exact Nat.lt_of_lt_of_le hk hlisten

theorem remembers_runTask (n : Nat) (t : Task) (o : Outcome) (e : Engine) : Remembers e (e.runTask n t o) := by
  have hpick : Remembers e (e.pick n) := remembers_of_eq (Nat.le_refl _) rfl
  have hran := hpick.trans (path_reached (leads_unwind t.frames (if t.cancelRequested then .cancelled else o)
    (e.pick n))).remembers
  have hkeep (e : Engine) (frames : List Frame) (waiting : Option Ref) : Remembers e (e.keep n frames waiting) :=
    remembers_of_eq (Nat.le_refl _) rfl
  cases hrun : unwind t.frames (if t.cancelRequested then .cancelled else o) (e.pick n) with
  | mk e' progress =>
    rw [hrun] at hran
    cases progress with
    | done o' =>
      have herase : Remembers e' { e' with tasks := e'.tasks.erase n } := remembers_of_eq (Nat.le_refl _) rfl
      rw [runTask_done hrun]
      exact (hran.trans herase).trans (remembers_settle _ _ _)
    | wait p frames =>
      have hlisten := remembers_agrees (agrees_listen p (.wake n) (e'.keep n frames (some p)) (by simp))
      rw [runTask_wait hrun]
      exact ((hran.trans (hkeep _ _ _)).trans hlisten).trans (remembers_parked n p frames e')
    | pause frames =>
      rw [runTask_pause hrun]
      exact (hran.trans (hkeep _ _ _)).trans (remembers_enqueue _ _)

/-- A job forgets a task that waits for a group only by telling it. -/
theorem wakes_runNext (hk : k < e.nextRef) (hw : e.Wakes m k)
    (hother : e.ready.head? ≠ some (.call (.wake m) (.group k))) : e.runNext.Wakes m k := by
  unfold runNext
  split
  · exact hw
  · rename_i job rest hready
    have hpopped : ({ e with ready := rest } : Engine).Wakes m k := by
      refine hw.imp id fun hmem => ?_
      rw [hready] at hmem hother
      exact (List.mem_cons.mp hmem).resolve_left fun hjob => hother (congrArg some hjob.symm)
    have hresume (n : Nat) (source : Option Ref) : (resumeTask n source { e with ready := rest }).Wakes m k := by
      rcases resumeTask_cases n source { e with ready := rest } with heq | ⟨t, _, heq⟩
      · rwa [heq]
      · rw [heq]
        exact (remembers_runTask n t _ _).wakes m k hk hpopped
    cases job with
    | step n => exact hresume n none
    | call l source =>
      cases l with
      | wake n => exact hresume n (some source)
      | release n => exact (remembers_settle _ _ _).wakes m k hk hpopped
      | handshakeOver => exact (agrees_handshakeOver source _).wakes m k hpopped
      | backgroundOver doc => exact (agrees_backgroundOver doc source _).wakes m k hpopped
      | memberOver n =>
        have hp : Path ([], e) ([], { e with ready := rest }.memberOver n source) := path_memberOver hready
        exact hp.remembers.wakes m k hk hw
    | ring alarm =>
      cases alarm with
      | release n => exact (remembers_settle _ _ _).wakes m k hk hpopped
      | deliver frame =>
        have hp : Path ([], { e with ready := rest }) ([], arrive (.frame frame) { e with ready := rest }) :=
          path_arrive _
        exact hp.remembers.wakes m k hk hpopped

theorem remembers_all : ∀ (rs : List Ref) (e : Engine), Remembers e (rs.foldl (fun e r => (e.cancel r).2) e)
  | [], e => .refl e
  | r :: rs, e => (remembers_cancel r e).trans (remembers_all rs _)

theorem remembers_closeSession (doc : Nat) (e : Engine) : Remembers e (e.closeSession doc) := by
  have hdetach (e : Engine) : Remembers e (e.detach (.document doc)) :=
    (@path_detach [] e (.document doc)).remembers
  unfold closeSession
  split
  · exact .refl e
  · split
    · exact .refl e
    · exact (((remembers_onDocument doc _ e).trans (remembers_cancelSlot doc _)).trans (remembers_all _ _)).trans
        (hdetach _)

/-- Nothing that is done makes anyone forget, unless a job is run. -/
theorem remembers_act {a : Action} (ha : a ≠ .run) (e : Engine) : Remembers e (e.act a) := by
  have hinner {a : Action} (ha : a.inner = true) : Remembers e (e.act a) := (path_act ha).remembers
  cases a with
  | run => exact absurd rfl ha
  | «begin» op => exact remembers_spawn op e
  | cancel r => exact remembers_cancel r e
  | failSends f => exact remembers_of_eq (Nat.le_refl _) rfl
  | addSession s => exact remembers_of_eq (Nat.le_refl _) rfl
  | scheduleChange doc text changes => exact remembers_scheduleChange doc text changes e
  | viewChanged doc text changes =>
    have hp : Path ([], (e.scheduleChange doc text changes).2) ([], (e.viewChanged doc text changes).2) :=
      path_viewChanged doc text changes
    exact (remembers_scheduleChange doc text changes e).trans hp.remembers
  | closeSession doc => exact remembers_closeSession doc e
  | _ => exact hinner rfl

/-- A task that waits for a group, and has not gone on, is still to be told. -/
theorem Correlated.wakes_after {frames : List Frame} (hc : Correlated ([], e)) (hk : k < e.nextRef)
    (hm : m < e.nextRef) (hplace : e.places.get? m = some (frames, some (.group k))) (hw : e.Wakes m k)
    (hstill : e.stretches m actions = []) : (e.after actions).Wakes m k := by
  induction actions generalizing e with
  | nil => exact hw
  | cons a rest ih =>
    have hnext := (lasts_act a e).nextRef
    have hk' := Nat.lt_of_lt_of_le hk hnext
    have hm' := Nat.lt_of_lt_of_le hm hnext
    by_cases ha : a = .run
    · subst ha
      obtain ⟨hnone, hrest⟩ := List.append_eq_nil_iff.mp hstill
      rcases hc.numbered.goesOn_cases hm with ⟨_, hnot, hsame⟩ | ⟨t, _, _, hs⟩
      · refine ih (hc.act .run) hk' hm' (hsame.trans hplace) (wakes_runNext hk hw fun hfirst => ?_) hrest
        rw [get?_places] at hplace
        obtain ⟨t, ht, hsame⟩ := Option.map_eq_some_iff.mp hplace
        obtain ⟨_, hwaiting⟩ := Prod.mk.inj hsame
        obtain ⟨rest, hready⟩ := List.head?_eq_some_iff.mp hfirst
        exact hnot t ⟨_, rest, hready, congrArg (fun w => some (m, w)) hwaiting.symm, ht⟩
      · simp [hs] at hnone
    · rw [stretches_of_ne ha] at hstill
      exact ih (hc.act a) hk' hm' ((hc.numbered.place_act hm ha).trans hplace)
        ((remembers_act ha e).wakes m k hk hw) hstill

/-- When there is nothing left to do, the group has not ended for which a task still waits. -/
theorem Wakes.open_of_idle (hw : e.Wakes m k) (hidle : e.ready = []) : e.standing (.group k) = some none := by
  rcases hw with ⟨listeners, hget, _⟩ | hmem
  · rw [standing, hget]
    rfl
  · rw [hidle] at hmem
    cases hmem

/-- When there is nothing left to do, a group that nobody asks to stop and that has not ended has a task that has
    not ended either. -/
theorem Herded.unfinished {members : List Ref} (h : e.Herded k members) (hidle : e.ready = [])
    (hopen : e.standing (.group k) = some none) (hne : members ≠ []) : ∃ r ∈ members, e.outcome? r = none := by
  obtain ⟨group, hgroup, _⟩ := h.group
  have hcounted := h.counted group hgroup
  have hless := h.unended group hgroup hopen hne
  rw [hidle, List.countP_nil] at hcounted
  have hsome : 0 < e.outstanding members := by omega
  obtain ⟨r, hr, hnone⟩ := List.countP_pos_iff.mp hsome
  exact ⟨r, hr, Option.isNone_iff_eq_none.mp hnone⟩

end LanguageClient.Engine
