import LanguageClient.Proofs.Document.Delivery

/-!
The server's copy of a document over whole runs. Either the connection is closed, or the document is
in step with the server and no edit of it is lost (`Kept`). Every step keeps this so, and so do the
moments at which a task begins to run and comes to rest; the task in the slot is the only one that
needs a look of its own, since it leaves the slot when it runs.

    job ──▶ pick ──▶ steps ──▶ rest          kept all along
    job ──▶ pick, slot's task ──▶ slot is empty ──▶ didChange is handed over ──▶ rest
-/

namespace LanguageClient.Engine

variable {c c' : Config} {st st' : List Frame} {e e' : Engine} {d d' : Document} {k : Nat}
  {n : Option Nat}

/-! ### Steps -/

/-- The only document is in step with the server, and no edit of it is lost unless it is excused. -/
structure Kept (k : Nat) (n : Option Nat) (d : Document) (c : Config) : Prop where
  sound : Sound k d c
  delivers : Excused d c.2 ∨ Delivers n d c

theorem Excused.lasts (h : Excused d e) (hl : Lasts e e') (hc : d.closed = true → d'.closed = true)
    (hi : d'.incremental = d.incremental) : Excused d' e' := by
  rcases h with h | ⟨hinc, capabilities, hmem, hobject⟩
  · exact .inl (hc h)
  · obtain ⟨more, hh⟩ := hl.history
    refine .inr ⟨hi.trans hinc, capabilities, ?_, hobject⟩
    rw [hh]
    exact List.mem_append_left _ hmem

theorem Sound.hooks (h : Sound k d c) : ∀ s ∈ c.2.sessions, s.hook = .none := by
  intro s hs
  have hcore : s.core ∈ c.2.sessions.map Session.core := List.mem_map_of_mem hs
  rw [h.session] at hcore
  exact congrArg Prod.snd (List.mem_singleton.mp hcore)

theorem Kept.step (h : Kept k n d c) (hk : k ≤ 1) (hc : Correlated c) (hs : Step c c') :
    c'.2.client.closed = true ∨
      ∃ d', Kept k n d' c' ∧ (Excused d c.2 → Excused d' c'.2) := by
  have hmoves := hs.moves hc (fun f hf => h.sound.orderly f (List.mem_append_left _ hf)) h.sound.hooks
  have hg := hs.grows hc.numbered
  rcases h.sound.moves hk hmoves hc.numbered hg with hclosed | ⟨d', hsound, hcl, hi⟩
  · exact .inl hclosed
  · have hex (hex : Excused d c.2) : Excused d' c'.2 := hex.lasts hs.lasts hcl hi
    rcases h.delivers with hd | hd
    · exact .inr ⟨d', ⟨hsound, .inl (hex hd)⟩, hex⟩
    · rcases hd.moves h.sound hk hmoves hc.numbered hg hsound.session with hclosed | hd
      · exact .inl hclosed
      · exact .inr ⟨d', ⟨hsound, hd⟩, hex⟩

theorem Kept.path (h : Kept k n d c) (hk : k ≤ 1) (hc : Correlated c) (hp : Path c c') :
    c'.2.client.closed = true ∨
      ∃ d', Kept k n d' c' ∧ (Excused d c.2 → Excused d' c'.2) := by
  induction hp with
  | refl => exact .inr ⟨d, h, id⟩
  | tail hp hs ih =>
    rcases ih with hclosed | ⟨d', hd', hex⟩
    · exact .inl (hs.lasts.closed hclosed)
    · rcases hd'.step hk (hc.path hp) hs with hclosed | ⟨d'', hd'', hex'⟩
      · exact .inl hclosed
      · exact .inr ⟨d'', hd'', fun h => hex' (hex h)⟩

/-! ### A task begins to run -/

/-- Frames may move between the task that runs and those that wait. -/
theorem Sound.move {tasks : Table Nat Task} (h : Sound k d (st, e))
    (hf : (frames (st', { e with tasks })).Perm (frames (st, e))) :
    Sound k d (st', { e with tasks }) := by
  refine ⟨h.session, h.slots, ?_, ?_, ?_, h.tracks⟩
  · intro f hmem
    exact h.orderly f (hf.mem_iff.mp hmem)
  · rw [hf.countP_eq]
    exact h.once
  · intro f hmem
    exact h.sent f (hf.mem_iff.mp hmem)

theorem Connected.pick {m : Nat} {t : Task} (h : Connected none d ([], e)) (hn : Numbered e)
    (ht : e.tasks.get? m = some t) : Connected (some m) d (t.frames, e.pick m) := by
  have hf := frames_pick hn ht
  refine ⟨?_, h.capabilities, ?_, ?_⟩
  · rintro (ho | ⟨f, hmem, hsent⟩)
    · exact h.ready (.inl ho)
    · exact h.ready (.inr ⟨f, hf.mem_iff.mp hmem, hsent⟩)
  · intro r hr
    obtain ⟨m', rfl, hlt, hv, hends⟩ := h.handshake r hr
    refine ⟨m', rfl, hlt, hv, ?_⟩
    by_cases hm : m' = m
    · exact .inl (by rw [hm])
    · right
      rw [Engine.pick, Table.get?_put_of_ne hm]
      exact hends.resolve_left (by simp)
  · intro m' hm'
    obtain rfl := Option.some.inj hm'
    refine ⟨hn.lt m (Table.mem_keys_iff.mpr ⟨t, ht⟩), ?_⟩
    intro t' ht'
    have hput : (e.pick m).tasks.get? m = some { frames := [] } := Table.get?_put_self _ _ _
    obtain rfl := Option.some.inj (hput.symm.trans ht')
    rfl

/-- The task that runs has not been asked to stop. -/
theorem Connected.unflagged {m : Nat} (h : Connected (some m) d (st, e)) :
    (e.tasks.get? m).map (·.cancelRequested) ≠ some true := by
  intro hflag
  obtain ⟨t, ht, htrue⟩ := Option.map_eq_some_iff.mp hflag
  have hfalse := (h.running m rfl).2 t ht
  rw [htrue] at hfalse
  cases hfalse

/-- A task that does not stand in the slot begins to run. -/
theorem Delivers.pick {m : Nat} {t : Task} (h : Delivers none d ([], e)) (hn : Numbered e)
    (ht : e.tasks.get? m = some t) (hm : e.slots.get? 0 ≠ some (.task m)) :
    Delivers (some m) d (t.frames, e.pick m) := by
  refine ⟨h.connected.pick hn ht, ?_, h.told⟩
  intro r hr
  obtain ⟨m', rfl, _, hd⟩ := h.slotted r hr
  have hne : m' ≠ m := by
    rintro rfl
    exact hm hr
  refine ⟨m', rfl, by simpa using Ne.symm hne, hd.transfer (Nat.le_refl _) rfl ?_ fun _ _ => .inl⟩
  exact Table.get?_put_of_ne hne _ _

/-! ### A task comes to rest -/

theorem Sound.cancels (h : Sound k d (st, e)) (hc : Cancels e e') : Sound k d (st, e') := by
  refine h.update (.refl st) (.of_cancels hc) (by rw [hc.sessions]; exact h.session) ?_ rfl
    (by rw [hc.history]) h.tracks
  rw [hc.slots]
  exact h.slots

theorem Sound.rests {m : Nat} {run : Run} (h : Sound k d (reached run))
    (hn : Numbered (reached run).2) (hr : Running m (reached run).2) (hrest : Rests m run e) :
    Sound k d ([], e) := by
  have hkeep {st : List Frame} {e₁ : Engine} (waiting : Option Ref) (h : Sound k d (st, e₁))
      (hn : Numbered e₁) (hr : Running m e₁) : Sound k d ([], e₁.keep m st waiting) :=
    h.move (held_keep hn hr st waiting)
  cases hrest with
  | @ended e' o =>
    have herase : Sound k d ([], { e' with tasks := e'.tasks.erase m }) :=
      h.move (held_erase hn hr)
    refine herase.update (.refl []) (grows_settle _ _ _) ?_ ?_ rfl ?_ herase.tracks
    · rw [settle_sessions]
      exact herase.session
    · rw [settle_slots]
      exact herase.slots
    · rw [settle_history]
  | waits ha hc =>
    exact ((hkeep _ h hn hr).idle (idles_tallies ha) (.refl []) (.of_tallies ha.toTallies)).cancels hc
  | pauses ha => exact (hkeep _ h hn hr).idle (idles_tallies ha) (.refl []) (.of_tallies ha)

/-- A task that has run keeps its frames. -/
theorem Connected.keep {m : Nat} (h : Connected (some m) d (st, e)) (hn : Numbered e)
    (hr : Running m e) (hshake : e.client.handshake = some (.task m) → EndsHandshake st)
    (waiting : Option Ref) : Connected none d ([], e.keep m st waiting) := by
  have hf := held_keep hn hr st waiting
  refine ⟨?_, h.capabilities, ?_, by simp⟩
  · rintro (ho | ⟨f, hmem, hsent⟩)
    · exact h.ready (.inl ho)
    · exact h.ready (.inr ⟨f, hf.mem_iff.mp hmem, hsent⟩)
  · intro r hr
    obtain ⟨m', rfl, hlt, hv, hends⟩ := h.handshake r hr
    refine ⟨m', rfl, hlt, hv, .inr ?_⟩
    intro t ht
    by_cases hm : m' = m
    · subst hm
      rw [Engine.keep, Table.get?_put_self] at ht
      obtain rfl := Option.some.inj ht
      exact hshake hr
    · rw [Engine.keep, Table.get?_put_of_ne hm] at ht
      exact hends.resolve_left (by simpa using Ne.symm hm) t ht

theorem Delivers.keep {m : Nat} (h : Delivers (some m) d (st, e)) (hn : Numbered e)
    (hr : Running m e) (hshake : e.client.handshake = some (.task m) → EndsHandshake st)
    (waiting : Option Ref) : Delivers none d ([], e.keep m st waiting) := by
  refine ⟨h.connected.keep hn hr hshake waiting, ?_, h.told⟩
  intro r hr
  obtain ⟨m', rfl, hne, hd⟩ := h.slotted r hr
  refine ⟨m', rfl, by simp, hd.transfer (Nat.le_refl _) rfl ?_ fun _ _ => .inl⟩
  exact Table.get?_put_of_ne (by simpa using Ne.symm hne) _ _

/-- A task that has ended leaves nothing behind. -/
theorem Delivers.ended {m : Nat} {o : Outcome} (h : Delivers (some m) d ([], e)) (hn : Numbered e)
    (hr : Running m e) (hshake : e.client.handshake = some (.task m) → Shakes (e, .done o)) :
    Delivers none d ([], { e with tasks := e.tasks.erase m }.settle (.task m) o) := by
  let e₁ : Engine := { e with tasks := e.tasks.erase m }
  have hf : ((e₁.settle (.task m) o).held).Perm e.held := by
    rw [held, settle_tasks]
    exact held_erase hn hr
  refine ⟨⟨?_, ?_, ?_, by simp⟩, ?_, ?_⟩
  · rw [settle_client]
    rintro (ho | ⟨f, hmem, hsent⟩)
    · exact h.connected.ready (.inl ho)
    · exact h.connected.ready (.inr ⟨f, hf.mem_iff.mp hmem, hsent⟩)
  · rw [settle_client, settle_history]
    exact h.connected.capabilities
  · intro r hr
    rw [settle_client] at hr
    obtain ⟨m', rfl, hlt, hv, hends⟩ := h.connected.handshake r hr
    refine ⟨m', rfl, by rw [settle_nextRef]; exact hlt, ?_, .inr ?_⟩
    · intro v hout
      rw [settle_client]
      rw [outcome?_eq_join] at hout
      rcases standing_settle (.task m) (.task m') o e₁ with hs | ⟨hm, _, hs⟩
      · rw [hs] at hout
        exact hv v ((outcome?_eq_join _ _).trans hout)
      · rw [hs] at hout
        obtain rfl : o = .value v := by simpa using hout
        obtain rfl : m' = m := by simpa using hm
        exact hshake hr
    · intro t ht
      rw [settle_tasks, Table.get?_erase] at ht
      split at ht
      · cases ht
      · rename_i hm
        exact hends.resolve_left (by simpa using Ne.symm hm) t ht
  · intro r hr
    rw [settle_slots] at hr
    obtain ⟨m', rfl, hne, hd⟩ := h.slotted r hr
    have hm : m' ≠ m := by simpa using Ne.symm hne
    refine ⟨m', rfl, by simp, hd.transfer (Nat.le_of_eq (settle_nextRef _ _ e₁).symm) ?_ ?_ ?_⟩
    · exact standing_settle_of_ne (by simpa using hm) o e₁
    · rw [settle_tasks, Table.get?_erase, if_neg hm]
    · intro nap o' hout
      rw [outcome?_eq_join, standing_settle_of_ne (by simp), ← outcome?_eq_join] at hout
      exact .inl hout
  · intro ho
    rw [settle_history, settle_slots]
    exact h.told ho

theorem Delivers.rests {m : Nat} {run : Run} (h : Delivers (some m) d (reached run))
    (hn : Numbered (reached run).2) (hr : Running m (reached run).2)
    (hshake : (reached run).2.client.handshake = some (.task m) → Shakes run)
    (hrest : Rests m run e) : Delivers none d ([], e) := by
  cases hrest with
  | ended o => exact h.ended hn hr hshake
  | waits ha _ hcalm =>
    rw [hcalm h.connected.unflagged]
    exact (h.keep hn hr hshake _).idle (idles_tallies ha) (.refl []) (.of_tallies ha.toTallies)
  | pauses ha =>
    exact (h.keep hn hr hshake _).idle (idles_tallies ha) (.refl []) (.of_tallies ha)

/-! ### The run of a task -/

/-- Either the connection is closed, or the document is kept. -/
def Upheld (k : Nat) (e : Engine) : Prop := e.client.closed = true ∨ ∃ d, Kept k none d ([], e)

theorem Kept.finish {m : Nat} {run : Run} (h : Kept k (some m) d c) (hk : k ≤ 1)
    (hc : Correlated c) (hr : Running m c.2) (hp : Path c (reached run))
    (hshake : Excused d c.2 ∨ ((reached run).2.client.handshake = some (.task m) → Shakes run))
    (hrest : Rests m run e) : Upheld k e := by
  have hn := (hc.path hp).numbered
  have hr := hr.grows (Path.grows hp hc.numbered)
  rcases h.path hk hc hp with hclosed | ⟨d', hkept, hex⟩
  · exact .inl (hrest.lasts.closed hclosed)
  · have hexcused (hd : Excused d' (reached run).2) : Excused d' e := hd.lasts hrest.lasts id rfl
    refine .inr ⟨d', hkept.sound.rests hn hr hrest, ?_⟩
    rcases hkept.delivers with hd | hd
    · exact .inl (hexcused hd)
    · rcases hshake with hd' | hshake
      · exact .inl (hexcused (hex hd'))
      · exact .inr (hd.rests hn hr hshake hrest)

theorem Connected.shaken (h : Connected n d c) : Shaken n c.2 := by
  intro r hr
  obtain ⟨m, hm, hlt, _, hends⟩ := h.handshake r hr
  exact ⟨m, hm, hlt, hends⟩

/-- The work in the slot begins with its delay. -/
theorem unwind_debounced (delay : Int) (e : Engine) :
    unwind [.begin (.debounced 0 delay (.flush 0))] (.value .nothing) e
        = (e, .pause [.delayOver 0 (.flush 0)]) ∨
      ∃ e₁ nap, unwind [.begin (.debounced 0 delay (.flush 0))] (.value .nothing) e
          = (e₁, .wait (.nap nap) [.delayOver 0 (.flush 0)]) ∧ Idles e e₁ ∧ Grows e e₁ ∧
        e₁.history = e.history ∧ e₁.outcome? (.nap nap) = none := by
  rw [unwind_singleton]
  change debounced 0 delay (.flush 0) e = _ ∨ ∃ e₁ nap, debounced 0 delay (.flush 0) e = _ ∧ _
  unfold debounced sleep
  split
  · exact .inl rfl
  · right
    have hnext : Tallies e { e with nextRef := e.nextRef + 1 } :=
      tallies_of_same (Nat.le_succ _) rfl
    have hnap : Idles e (e.newPromise .nap).2 :=
      (idles_tallies hnext).trans (idles_promise (.inl rfl) _)
    have htimer := agrees_setTimer delay (.release e.nextRef) (e.newPromise .nap).2
    refine ⟨((e.newPromise .nap).2.setTimer delay (.release e.nextRef)).2, e.nextRef, rfl,
      hnap.trans (idles_tallies htimer), ?_, rfl, ?_⟩
    · exact .of_tasks rfl (Nat.le_trans (Nat.le_succ _) htimer.nextRef) rfl
    · have hs := standing_promise (.nap e.nextRef) (.nap e.nextRef)
        { e with nextRef := e.nextRef + 1 }
      rw [if_pos rfl] at hs
      rw [htimer.outcome, outcome?_eq_join]
      exact congrArg Option.join hs

/-! ### The task in the slot -/

theorem Kept.tallies (h : Kept k n d (st, e)) (ha : Tallies e e') : Kept k n d (st, e') := by
  refine ⟨h.sound.idle (idles_tallies ha) (.refl st) (.of_tallies ha), ?_⟩
  rcases h.delivers with hd | hd
  · exact .inl (hd.lasts (.of_tallies ha) id rfl)
  · exact .inr (hd.idle (idles_tallies ha) (.refl st) (.of_tallies ha))

/-- The task in the slot rests in its delay. -/
theorem Kept.delaying {m : Nat} {waiting : Option Ref}
    (hs : Sound k d ([.delayOver 0 (.flush 0)], e))
    (hb : Connected (some m) d ([.delayOver 0 (.flush 0)], e)) (hn : Numbered e)
    (hr : Running m e) (hslot : e.slots.get? 0 = some (.task m))
    (hopen : e.standing (.task m) = some none) (hshake : e.client.handshake ≠ some (.task m))
    (hw : waiting = none ∨ ∃ nap, waiting = some (.nap nap) ∧ e.outcome? (.nap nap) = none) :
    Kept k none d ([], e.keep m [.delayOver 0 (.flush 0)] waiting) := by
  refine ⟨hs.move (held_keep hn hr _ _), .inr ⟨?_, ?_, fun _ => .inr ⟨_, hslot⟩⟩⟩
  · exact hb.keep hn hr (fun h => absurd h hshake) waiting
  · intro r hr'
    obtain rfl := Option.some.inj (hslot.symm.trans hr')
    obtain ⟨hlt, hflag⟩ := hb.running m rfl
    refine ⟨m, rfl, by simp, hlt, hopen, _, Table.get?_put_self _ _ _, ?_, .inr ⟨rfl, ?_⟩⟩
    · cases ht : e.tasks.get? m with
      | none => rfl
      | some t => exact hflag t ht
    · rcases hw with rfl | ⟨nap, rfl, hnone⟩
      · exact .inl rfl
      · refine .inr ⟨nap, rfl, ?_⟩
        intro o ho
        rw [show e.outcome? (.nap nap) = some o from ho] at hnone
        cases hnone

/-- The task in the slot stands before its delay, or goes on when that is over. -/
theorem Slotted.stands {m : Nat} {t : Task} (h : Slotted none e)
    (hslot : e.slots.get? 0 = some (.task m)) (ht : e.tasks.get? m = some t) :
    t.cancelRequested = false ∧ e.standing (.task m) = some none ∧
      ∃ v, awaited t.waiting e = .value v ∧
        ((v = .nothing ∧ ∃ delay, t.frames = [.begin (.debounced 0 delay (.flush 0))]) ∨
          t.frames = [.delayOver 0 (.flush 0)]) := by
  obtain ⟨m', hm, _, _, hopen, t', ht', hflag, hdelays⟩ := h _ hslot
  obtain rfl : m = m' := by simpa using hm
  obtain rfl := Option.some.inj (ht'.symm.trans ht)
  refine ⟨hflag, hopen, ?_⟩
  rcases hdelays with ⟨delay, hf, hw⟩ | ⟨hf, hw | ⟨nap, hw, hvalue⟩⟩
  · exact ⟨.nothing, by rw [hw]; rfl, .inl ⟨rfl, delay, hf⟩⟩
  · exact ⟨.nothing, by rw [hw]; rfl, .inr hf⟩
  · rw [hw, awaited, Option.bind_some]
    cases ho : e.outcome? (.nap nap) with
    | none => exact ⟨.nothing, rfl, .inr hf⟩
    | some o =>
      obtain ⟨v, rfl⟩ := hvalue o ho
      exact ⟨v, rfl, .inr hf⟩

/-- The delay of the work in the slot begins. -/
theorem Kept.begins {m : Nat} {t : Task} {delay : Int} (h : Sound k d ([], e))
    (hd : Delivers none d ([], e)) (hn : Numbered e) (ht : e.tasks.get? m = some t)
    (hslot : e.slots.get? 0 = some (.task m)) (hopen : e.standing (.task m) = some none)
    (hf : t.frames = [.begin (.debounced 0 delay (.flush 0))]) (hflag : t.cancelRequested = false) :
    Kept k none d ([], e.runTask m t (.value .nothing)) := by
  have hrest := rests_runTask m t (.value .nothing) e
  have hif : (if t.cancelRequested then .cancelled else .value .nothing) = Outcome.value .nothing := by
    rw [hflag]
    rfl
  have hshake : e.client.handshake ≠ some (.task m) := by
    intro hs
    obtain ⟨m', hm, _, _, hends⟩ := hd.connected.handshake _ hs
    obtain rfl : m = m' := by simpa using hm
    obtain ⟨f, hlast, hof⟩ := hends.resolve_left (by simp) t ht
    rw [hf] at hlast
    obtain rfl := Option.some.inj hlast
    cases hof
  have hst : Stays t.frames [.delayOver 0 (.flush 0)] := by
    rw [hf]
    exact (stays_tail _ _).trans (stays_cons rfl rfl _)
  have hlt : m < e.nextRef := hn.lt m (Table.mem_keys_iff.mpr ⟨t, ht⟩)
  have hsound := h.move (frames_pick hn ht)
  have hb := hd.connected.pick hn ht
  have hrun := running_pick m e
  have hn := hn.pick ht
  rw [hf, hif] at hrest
  rcases unwind_debounced delay (e.pick m) with heq | ⟨e₁, nap, heq, hi, hg, _, hnap⟩
  · rw [heq] at hrest
    cases hrest with
    | pauses ha =>
      have hi := idles_tallies (Agrees.refl (e.pick m)).toTallies
      exact (Kept.delaying (hsound.idle hi hst (.refl _)) (hb.idle hi hst (.refl _)) hn hrun hslot
        hopen hshake (.inl rfl)).tallies ha
  · rw [heq] at hrest
    have hrun := hrun.grows hg
    have hb := hb.idle hi hst hg
    cases hrest with
    | waits ha _ hcalm =>
      rw [hcalm hb.unflagged]
      refine (Kept.delaying (hsound.idle hi hst hg) hb (hn.grows hg) hrun ?_ ?_ ?_
        (.inr ⟨nap, rfl, hnap⟩)).tallies ha
      · rw [hi.slots]
        exact hslot
      · exact (hi.standing m hlt).trans hopen
      · rw [hi.handshake]
        exact hshake

/-- The delay is over: the task leaves the slot and sends the changes. From there on it is a task like
    any other. -/
theorem Kept.departs {m : Nat} {t : Task} (h : Sound k d ([], e)) (hd : Delivers none d ([], e))
    (hk : k ≤ 1) (hn : Numbered e) (ht : e.tasks.get? m = some t)
    (hf : t.frames = [.delayOver 0 (.flush 0)]) (v : Value) :
    ∃ c₀ c₁, Clears 0 (t.frames, e.pick m) c₀ ∧ Sends 0 c₀ c₁ ∧
      Path c₁ (reached (unwind t.frames (.value v) (e.pick m))) ∧
      (c₁.2.client.closed = true ∨ ∃ d', Kept k (some m) d' c₁) := by
  have hsound := h.move (frames_pick hn ht)
  have hb := hd.connected.pick hn ht
  rw [hf] at hsound hb ⊢
  rw [unwind_singleton]
  obtain ⟨c₁, hsends, hleads⟩ := @sends_delayOver [] (e.pick m) 0 0 v
  have hclears : Clears 0 ([.delayOver 0 (.flush 0)], e.pick m)
      ([.workDone], { e.pick m with slots := (e.pick m).slots.erase 0 }) := .elapsed 0
  have hcleared : Cleared 0 (some m) d
      ([.workDone], { e.pick m with slots := (e.pick m).slots.erase 0 }) :=
    ⟨hb.elapsed, slotted_of_none (by simp [Table.get?_erase]), absurd rfl⟩
  refine ⟨_, c₁, hclears, hsends, path_reached hleads, ?_⟩
  rcases (hsound.clears hclears).sends hk hsends with hcl | ⟨d', hsound', _⟩
  · exact .inl hcl
  · rcases hcleared.sends (hsound.clears hclears) hk hsends hsound'.session with hcl | hd'
    · exact .inl hcl
    · exact .inr ⟨d', hsound', hd'⟩

theorem Kept.sends {m : Nat} {t : Task} {v : Value} (h : Sound k d ([], e))
    (hd : Delivers none d ([], e)) (hk : k ≤ 1) (hc : Correlated ([], e))
    (ht : e.tasks.get? m = some t) (hf : t.frames = [.delayOver 0 (.flush 0)])
    (hflag : t.cancelRequested = false) : Upheld k (e.runTask m t (.value v)) := by
  have hrest := rests_runTask m t (.value v) e
  have hif : (if t.cancelRequested then .cancelled else .value v) = Outcome.value v := by
    rw [hflag]
    rfl
  have hshake := hd.connected.shaken.shakes (o := .value v) hc.numbered ht
  have hpick : Correlated (t.frames, e.pick m) :=
    hc.move (hc.numbered.pick ht) (frames_pick hc.numbered ht)
  rw [hif] at hrest
  obtain ⟨c₀, c₁, hclears, hsends, hpath, hkept⟩ := Kept.departs h hd hk hc.numbered ht hf v
  have hstep := Step.flush hclears hsends
  rcases hkept with hcl | ⟨d', hkept⟩
  · exact .inl (hrest.lasts.closed (hpath.lasts.closed hcl))
  · exact hkept.finish hk (hpick.step hstep)
      ((running_pick m e).grows (hstep.grows hpick.numbered)) hpath (.inr hshake) hrest

/-- Whichever task goes on, the document is kept. -/
theorem Kept.runTask {m : Nat} {t : Task} (h : Kept k none d ([], e)) (hk : k ≤ 1)
    (hc : Correlated ([], e)) (ht : e.tasks.get? m = some t) :
    Upheld k (e.runTask m t (awaited t.waiting e)) := by
  have hn := hc.numbered
  have hsound := h.sound.move (frames_pick hn ht)
  have hpick : Correlated (t.frames, e.pick m) := hc.move (hn.pick ht) (frames_pick hn ht)
  have hrest := rests_runTask m t (awaited t.waiting e) e
  have hpath := path_reached (leads_unwind t.frames
    (if t.cancelRequested then .cancelled else awaited t.waiting e) (e.pick m))
  rcases h.delivers with hex | hd
  · have hkept : Kept k (some m) d (t.frames, e.pick m) := ⟨hsound, .inl hex⟩
    exact hkept.finish hk hpick (running_pick m e) hpath (.inl hex) hrest
  · by_cases hslot : e.slots.get? 0 = some (.task m)
    · obtain ⟨hflag, hopen, v, hv, hstands⟩ := hd.slotted.stands hslot ht
      rw [hv]
      rcases hstands with ⟨rfl, delay, hf⟩ | hf
      · exact .inr ⟨d, Kept.begins h.sound hd hn ht hslot hopen hf hflag⟩
      · exact Kept.sends h.sound hd hk hc ht hf hflag
    · have hkept : Kept k (some m) d (t.frames, e.pick m) := ⟨hsound, .inr (hd.pick hn ht hslot)⟩
      exact hkept.finish hk hpick (running_pick m e) hpath
        (.inr (hd.connected.shaken.shakes hn ht)) hrest

end LanguageClient.Engine
