import LanguageClient.Proofs.Engine.Spared

/-!
Following one task. A task that is not brief is not cut short, so what it goes on with is a value or a
failure, never a cancellation. What its runs come to can then be told from its frames, and a kind of
frames to which its runs keep (`Route`) is kept until it ends, in whatever way the others run meanwhile
(`EnRoute.after`).

    frames of the kind ──run──▶ frames of the kind ──run──▶ … ──▶ an outcome of the kind
-/

namespace LanguageClient.Engine

variable {n : Option Nat} {k m since : Nat} {st : List Frame} {c c' : Config} {e e' : Engine}
  {I : Engine → Prop} {P : List Frame → Prop} {Q : Outcome → Prop}

/-- No answer that is hoped for has been given up. -/
def Hoped (st : List Frame) (e : Engine) : Prop :=
  ∀ f ∈ st, f.hopes = true → ∀ id, f.request? = some id →
    e.outcome? (.answer id) ≠ some .cancelled

theorem Hoped.of_no_request (h : ∀ f ∈ st, f.request? = none) (e : Engine) : Hoped st e := by
  intro f hf _ id hid
  rw [h f hf] at hid
  cases hid

theorem Hoped.append {rest : List Frame} (h : Hoped st e) (hr : ∀ f ∈ rest, f.request? = none) :
    Hoped (st ++ rest) e := by
  intro f hf hh id hid
  rcases List.mem_append.mp hf with hf | hf
  · exact h f hf hh id hid
  · rw [hr f hf] at hid
    cases hid

/-- A kind of frames to which a task keeps that is not cancelled, and how it ends. -/
structure Route (I : Engine → Prop) (P : List Frame → Prop) (Q : Outcome → Prop) : Prop where
  solid : ∀ {st}, P st → ¬ Brief st
  tallies : ∀ {e e'}, I e → Tallies e e' → I e'
  runs : ∀ {e m t} {o : Outcome}, I e → Correlated ([], e) → e.tasks.get? m = some t →
    P t.frames → Hoped t.frames e → o ≠ .cancelled →
    Yields (fun frames e => P frames ∧ Hoped frames e) (fun o _ => Q o) (unwind t.frames o (e.pick m))

/-- The task keeps to such frames, or it has ended so. -/
inductive EnRoute (P : List Frame → Prop) (Q : Outcome → Prop) (m : Nat) (e : Engine) : Prop where
  | goes {t : Task} : e.tasks.get? m = some t → P t.frames → Hoped t.frames e →
      (∀ p, t.waiting = some p → p.sole = true) → e.standing (.task m) = some none →
      EnRoute P Q m e
  | finished {o : Outcome} : m < e.nextRef → e.tasks.get? m = none →
      e.standing (.task m) = some (some o) → Q o → EnRoute P Q m e

/-- How a task of its route ends. -/
theorem EnRoute.ends {o : Outcome} (h : EnRoute P Q m e) (ho : e.outcome? (.task m) = some o) :
    Q o := by
  rw [outcome?_eq_join] at ho
  cases h with
  | goes _ _ _ _ hopen =>
    rw [hopen] at ho
    cases ho
  | finished _ _ hsettled hq =>
    rw [hsettled] at ho
    exact Option.some.inj ho ▸ hq

/-! ### The others -/

/-- No two tasks wait for the answer to one request. -/
theorem Correlated.request_apart {t : Task} {id : Nat} (h : Correlated (st, e))
    (ht : e.tasks.get? m = some t) (hid : id ∈ t.frames.filterMap Frame.request?) :
    id ∉ st.filterMap Frame.request? := by
  have hnodup := h.flight.nodup h.nodup
  rw [frames, List.filterMap_append, List.nodup_append] at hnodup
  intro hmem
  refine hnodup.2.2 id hmem id ?_ rfl
  obtain ⟨f, hf, hfid⟩ := List.mem_filterMap.mp hid
  exact List.mem_filterMap.mpr ⟨f, List.mem_flatMap.mpr ⟨_, Table.mem_of_get? ht, hf⟩, hfid⟩

/-- What the others do cuts no task short. -/
theorem EnRoute.harmless (h : EnRoute P Q m e) (hs : Harmless n st e e')
    (hg : ∀ t, e.tasks.get? m = some t → ∃ t', e'.tasks.get? m = some t' ∧ t'.place = t.place)
    (hn : Numbered e) (hst : ∀ t, e.tasks.get? m = some t →
      ∀ id ∈ t.frames.filterMap Frame.request?, id ∉ st.filterMap Frame.request?) :
    EnRoute P Q m e' := by
  cases h with
  | @goes t ht hp hhoped hw hopen =>
    have hlt : m < e.nextRef := hn.lt m (Table.mem_keys_iff.mpr ⟨t, ht⟩)
    obtain ⟨t', ht', hplace⟩ := hg t ht
    obtain ⟨hframes, hwaiting⟩ := Prod.mk.inj hplace
    change t'.frames = t.frames at hframes
    change t'.waiting = t.waiting at hwaiting
    refine .goes ht' (hframes ▸ hp) ?_ (fun p hp' => hw p (hwaiting ▸ hp'))
      ((hs.ends m hlt).trans hopen)
    intro f hf hh id hid hcancelled
    rw [hframes] at hf
    rcases hs.cancelled _ hcancelled with hold | ⟨_, t', _, hw', hb⟩ | ⟨_, heq⟩ | ⟨id', heq, hmem⟩
    · exact hhoped f hf hh id hid hold
    · have hsole := hb.waiting _ hw'
      cases hsole
    · cases heq
    · obtain rfl := Ref.answer.inj heq
      exact hst t ht id (List.mem_filterMap.mpr ⟨f, hf, hid⟩) hmem
  | finished hlt hnone hsettled hq =>
    refine .finished (Nat.lt_of_lt_of_le hlt hs.nextRef) ?_ ((hs.ends m hlt).trans hsettled) hq
    rw [← Option.not_isSome_iff_eq_none, Option.isSome_iff_exists]
    rintro ⟨t', ht'⟩
    obtain ⟨t, ht, _⟩ := hs.task hlt ht'
    rw [hnone] at ht
    cases ht

theorem EnRoute.path (h : EnRoute P Q m c.2) (hsp : Spared n since c.2) (hc : Correlated c)
    (hp : Path c c') : EnRoute P Q m c'.2 := by
  induction hp with
  | refl => exact h
  | tail hp hs ih =>
    have hc := hc.path hp
    exact ih.harmless (hs.harmless (hsp.path hp ‹_›) hc) (fun _ => (hs.grows hc.numbered).place) hc.numbered
      fun t ht id hid => hc.request_apart ht hid

/-- A change to the entry of another task. -/
theorem EnRoute.other {tasks : Table Nat Task} (h : EnRoute P Q m e)
    (ht : tasks.get? m = e.tasks.get? m) : EnRoute P Q m { e with tasks } := by
  cases h with
  | goes hget hp hh hw hopen => exact .goes (ht.trans hget) hp hh hw hopen
  | finished hlt hget hsettled hq => exact .finished hlt (ht.trans hget) hsettled hq

/-- The promise of a task does not change as long as it runs. -/
theorem Path.ends (hp : Path c c') (hsp : Spared n since c.2) (hc : Correlated c)
    (hk : k < c.2.nextRef) : c'.2.standing (.task k) = c.2.standing (.task k) := by
  induction hp with
  | refl => rfl
  | tail hp hs ih =>
    have hc' := hc.path hp
    have hlt := Nat.lt_of_lt_of_le hk (Path.lasts hp).nextRef
    exact ((hs.harmless (hsp.path hp hc) hc').ends k hlt).trans ih

/-- Another task has ended. -/
theorem EnRoute.ended {o : Outcome} (h : EnRoute P Q m e) (hk : k ≠ m) :
    EnRoute P Q m ({ e with tasks := e.tasks.erase k }.settle (.task k) o) := by
  have herase : (e.tasks.erase k).get? m = e.tasks.get? m := by
    rw [Table.get?_erase, if_neg (Ne.symm hk)]
  have hne : Ref.task m ≠ .task k := by simpa using Ne.symm hk
  have hs := standing_settle_of_ne hne o { e with tasks := e.tasks.erase k }
  cases h with
  | goes hget hp hh hw hopen =>
    refine .goes ?_ hp ?_ hw (hs.trans hopen)
    · rw [settle_tasks]
      exact herase.trans hget
    · intro f hf hhopes id hid
      rw [outcome?_settle_of_ne (by simp)]
      exact hh f hf hhopes id hid
  | finished hlt hget hsettled hq =>
    refine .finished ?_ ?_ (hs.trans hsettled) hq
    · rw [settle_nextRef]
      exact hlt
    · rw [settle_tasks]
      exact herase.trans hget

theorem Lands.other {run : Run} (h : Lands k run e) (hk : k ≠ m) (hn : Numbered (reached run).2)
    (hr : Running k (reached run).2) (he : EnRoute P Q m (reached run).2) : EnRoute P Q m e := by
  have hkeep {e : Engine} {st : List Frame} {waiting : Option Ref} (he : EnRoute P Q m e) :
      EnRoute P Q m (e.keep k st waiting) := he.other (Table.get?_put_of_ne (Ne.symm hk) _ _)
  cases h with
  | ended o => exact he.ended hk
  | waits hs hg => exact (hkeep he).harmless hs (fun _ => hg.place) (hn.keep hr _ _) (by simp)
  | pauses hs hg => exact (hkeep he).harmless hs (fun _ => hg.place) (hn.keep hr _ _) (by simp)

/-! ### The task itself -/

theorem Lands.self {run : Run} (h : Lands m run e) (hn : Numbered (reached run).2)
    (hr : Running m (reached run).2) (hopen : (reached run).2.standing (.task m) = some none)
    (hy : Yields (fun frames e => P frames ∧ Hoped frames e) (fun o _ => Q o) run) :
    EnRoute P Q m e := by
  obtain ⟨t₀, ht₀, _⟩ := id hr
  have hlt : m < (reached run).2.nextRef := hn.lt m (Table.mem_keys_iff.mpr ⟨t₀, ht₀⟩)
  cases h with
  | @ended e o =>
    have hopen : ({ e with tasks := e.tasks.erase m } : Engine).standing (.task m) = some none :=
      hopen
    refine .finished ?_ ?_ (standing_settle_self hopen o) hy
    · rw [settle_nextRef]
      exact hlt
    · rw [settle_tasks, Table.get?_erase, if_pos rfl]
  | @waits e _ p frames hs hg =>
    obtain ⟨hsole, hp, hh⟩ := hy
    have hkept : EnRoute P Q m (e.keep m frames (some p)) :=
      .goes (Table.get?_put_self _ _ _) hp hh (fun p' hp' => Option.some.inj hp' ▸ hsole) hopen
    exact hkept.harmless hs (fun _ => hg.place) (hn.keep hr _ _) (by simp)
  | @pauses e _ frames hs hg =>
    obtain ⟨hp, hh⟩ := hy
    have hkept : EnRoute P Q m (e.keep m frames none) :=
      .goes (Table.get?_put_self _ _ _) hp hh (by simp) hopen
    exact hkept.harmless hs (fun _ => hg.place) (hn.keep hr _ _) (by simp)

theorem EnRoute.runTask {t : Task} {o : Outcome} (h : EnRoute P Q m e) (hr : Route I P Q)
    (hI : I e) (hsp : Spared none e.nextRef e) (hc : Correlated ([], e))
    (ht : e.tasks.get? k = some t) (ho : k = m → o ≠ .cancelled) :
    EnRoute P Q m (e.runTask k t o) := by
  obtain ⟨n, hran, hrunning, hwho, _, _, hlands⟩ := hsp.ran hc ht o
  have hpick := hc.pick ht
  have hsp' : Spared n e.nextRef (e.pick k) := hsp.pick ht (hwho.imp And.left id)
  have hpath := path_reached (leads_unwind t.frames (if t.cancelRequested then .cancelled else o)
    (e.pick k))
  have hn := hpick.numbered.grows (Path.grows hpath hpick.numbered)
  by_cases hk : k = m
  · subst hk
    cases h with
    | @goes t' ht' hp hh _ hopen =>
      obtain rfl : t = t' := Option.some.inj (ht.symm.trans ht')
      have hflag : t.cancelRequested = false := by
        rw [← Bool.not_eq_true]
        intro hstop
        exact hr.solid hp ((hsp.flagged k t ht hstop).resolve_left (by simp)).frames
      have hopen' := Path.ends hpath hsp' hpick
        (hc.numbered.lt k (Table.mem_keys_iff.mpr ⟨t, ht⟩))
      have hy := hr.runs hI hc ht hp hh (ho rfl)
      rw [if_neg (by simp [hflag])] at hlands hn hrunning hopen'
      exact hlands.self hn hrunning (hopen'.trans hopen) hy
    | finished _ hnone _ _ =>
      rw [hnone] at ht
      cases ht
  · have hpicked : EnRoute P Q m (e.pick k) := h.other (Table.get?_put_of_ne (Ne.symm hk) _ _)
    exact hlands.other hk hn hrunning (hpicked.path hsp' hpick hpath)

/-- What a task goes on with that keeps to its route is no cancellation. -/
theorem EnRoute.awaited {t : Task} (h : EnRoute P Q m e) (hr : Route I P Q)
    (hsp : Spared none since e) (ht : e.tasks.get? m = some t) :
    Engine.awaited t.waiting e ≠ .cancelled := by
  cases h with
  | @goes t' ht' hp _ hw _ =>
    obtain rfl : t = t' := Option.some.inj (ht.symm.trans ht')
    unfold Engine.awaited
    cases hwait : t.waiting with
    | none => simp
    | some p =>
      cases ho : e.outcome? p with
      | none => simp [ho]
      | some o =>
        rintro hcancelled
        have hcancelled : e.outcome? p = some .cancelled := by
          rw [ho]
          simpa [ho] using hcancelled
        exact hr.solid hp ((hsp.cancelled p (hw p hwait) hcancelled).2 m t ht hwait).frames
  | finished _ hnone _ _ =>
    rw [hnone] at ht
    cases ht

theorem EnRoute.runNext (h : EnRoute P Q m e) (hr : Route I P Q) (hI : I e)
    (hsp : Spared none e.nextRef e) (hc : Correlated ([], e)) : EnRoute P Q m e.runNext := by
  obtain ⟨e₁, ha, hrun⟩ := runNext_cases e
  have hs : Harmless none [] e e₁ := harmless_tallies ha
  have hg := Grows.of_tallies ha
  have hc₁ : Correlated ([], e₁) := hc.calm (calm_tallies ha) hg rfl
  have hsp₁ := (hsp.harmless hs).raise hs.nextRef (Nat.le_refl _)
  have h₁ := h.harmless hs (fun _ => hg.place) hc.numbered (by simp)
  rcases hrun with hp | ⟨k, t, ht, heq⟩
  · exact h₁.path hsp₁ hc₁ hp
  · rw [heq]
    refine h₁.runTask hr (hr.tallies hI ha) hsp₁ hc₁ ht ?_
    rintro rfl
    exact h₁.awaited hr hsp₁ ht

/-- Whatever is done, the task keeps to its route. -/
theorem EnRoute.act {a : Action} (h : EnRoute P Q m e) (hr : Route I P Q) (hI : I e)
    (hsp : Spared none e.nextRef e) (hc : Correlated ([], e)) (ha : a.spares = true) :
    EnRoute P Q m (e.act a) := by
  have hinner {a : Action} (ha : a.inner = true) : EnRoute P Q m (e.act a) :=
    h.path hsp hc (path_act ha)
  have hcalm {e' : Engine} (hs : Harmless none [] e e') (hg : Grows e e') : EnRoute P Q m e' :=
    h.harmless hs (fun _ => hg.place) hc.numbered (by simp)
  cases a with
  | run => exact h.runNext hr hI hsp hc
  | «begin» op =>
    have hs : Harmless none [] e (e.spawn op).2 := harmless_spawn op e
    refine h.harmless hs (fun t ht => ⟨t, ?_, rfl⟩) hc.numbered (by simp)
    have hne : m ≠ e.nextRef := Nat.ne_of_lt (hc.numbered.lt m (Table.mem_keys_iff.mpr ⟨t, ht⟩))
    exact (Table.get?_put_of_ne hne _ _).trans ht
  | cancel r => cases ha
  | failSends f =>
    exact hcalm (harmless_of_eq (Nat.le_refl _) rfl rfl rfl rfl) (hc.numbered.grows_act rfl)
  | addSession s =>
    exact hcalm (harmless_of_eq (Nat.le_refl _) rfl rfl rfl rfl) (hc.numbered.grows_act rfl)
  | scheduleChange doc text changes =>
    exact hcalm (hsp.scheduleChange doc text changes) (hc.numbered.grows_act rfl)
  | viewChanged doc text changes =>
    have hs : Harmless none [] e (e.scheduleChange doc text changes).2 :=
      hsp.scheduleChange doc text changes
    have hedit := hcalm hs (hc.numbered.grows_scheduleChange doc text changes)
    exact hedit.path (hsp.harmless hs) (hc.act (.scheduleChange doc text changes))
      (path_viewChanged doc text changes)
  | closeSession doc => cases ha
  | _ => exact hinner rfl

/-- The task keeps to its route as long as the outside cancels nothing. -/
theorem EnRoute.after (hr : Route I P Q) : ∀ (actions : List Action) {e : Engine},
    EnRoute P Q m e → Spared none e.nextRef e → Correlated ([], e) →
    (∀ a ∈ actions, a.spares = true) → (∀ before after, actions = before ++ after → I (e.after before)) →
    EnRoute P Q m (e.after actions)
  | [], _, h, _, _, _, _ => h
  | a :: rest, e, h, hsp, hc, ha, hI => by
      have ha' := ha a (List.mem_cons_self ..)
      exact EnRoute.after hr rest (h.act hr (hI [] _ rfl) hsp hc ha') (hsp.act hc ha') (hc.act a)
        (fun b hb => ha b (List.mem_cons_of_mem _ hb)) fun before after heq =>
          hI (a :: before) after (by rw [heq, List.cons_append])

end LanguageClient.Engine
