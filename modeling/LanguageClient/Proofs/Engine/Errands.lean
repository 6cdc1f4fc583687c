import LanguageClient.Proofs.Engine.Run

/-!
The tasks that run the client's errands. The client knows the task of each errand from the moment it is
started (`Grows.errands`). As long as that task is there, its frames are of the errand's own kind
(`Stands`): it begins so, and whatever it comes to, it is left so. What a task of an errand does in a
run can then be read off its frames.

    started ──▶ [begin operation] ──run──▶ frames of that kind ──run──▶ … ──▶ ended
-/

namespace LanguageClient.Engine

variable {x : Errand} {P : List Frame → Prop} {n : Option Nat} {m : Nat} {st : List Frame}
  {e e' : Engine}

/-- A run that does not end leaves such frames. -/
def Leaves (P : List Frame → Prop) : Run → Prop
  | (_, .done _) => True
  | (_, .wait _ frames) => P frames
  | (_, .pause frames) => P frames

/-- The task of the errand, if it has been started, is the one that runs, or its frames are of that
    kind, or it has ended. -/
def Stands (x : Errand) (P : List Frame → Prop) (n : Option Nat) (e : Engine) : Prop :=
  ∀ r, x.ref? e.client = some r → ∃ k, r = .task k ∧ k < e.nextRef ∧
    (n = some k ∨ ∀ t, e.tasks.get? k = some t → P t.frames)

/-- Frames of that kind are those with which the errand begins, and those that its runs leave. -/
structure Abides (x : Errand) (P : List Frame → Prop) : Prop where
  begins : P [.begin x.operation]
  leaves : ∀ {st : List Frame} (o : Outcome) (e : Engine), P st → Leaves P (unwind st o e)

theorem Stands.grows (h : Stands x P n e) (hP : Abides x P) (hn : Numbered e) (hg : Grows e e') :
    Stands x P n e' := by
  have hn := hn.grows hg
  intro r hr
  rcases hg.errands x with hsame | ⟨k, _, hlt, hstarted, hplace⟩
  · obtain ⟨k, hk, hlt, hends⟩ := h r (hsame ▸ hr)
    refine ⟨k, hk, Nat.lt_of_lt_of_le hlt hg.nextRef, hends.imp id ?_⟩
    intro hends t' ht'
    rcases hg.task ht' with ⟨t, ht, hframes⟩ | ⟨hle, _⟩
    · rw [hframes]
      exact hends t ht
    · omega
  · obtain rfl := Option.some.inj (hstarted.symm.trans hr)
    refine ⟨k, rfl, hlt, .inr ?_⟩
    intro t ht
    have hget := Table.get?_of_mem (keys_places e' ▸ hn.nodup) hplace
    rw [get?_places, ht] at hget
    have hframes : t.frames = [.begin x.operation] := congrArg Prod.fst (Option.some.inj hget)
    rw [hframes]
    exact hP.begins

theorem Stands.pick (h : Stands x P none e) (m : Nat) : Stands x P (some m) (e.pick m) := by
  intro r hr
  obtain ⟨k, hk, hlt, hends⟩ := h r hr
  refine ⟨k, hk, hlt, ?_⟩
  by_cases hm : k = m
  · exact .inl (by rw [hm])
  · right
    rw [Engine.pick, Table.get?_put_of_ne hm]
    exact hends.resolve_left (by simp)

/-- The task of an errand is known by the frames with which it began to run. -/
theorem Stands.frames {t : Task} {o : Outcome} (h : Stands x P none e) (hn : Numbered e)
    (ht : e.tasks.get? m = some t)
    (hs : x.ref? (reached (unwind t.frames o (e.pick m))).2.client = some (.task m)) :
    P t.frames := by
  have hlt : m < e.nextRef := hn.lt m (Table.mem_keys_iff.mpr ⟨t, ht⟩)
  have hg := Path.grows (path_reached (leads_unwind t.frames o (e.pick m))) (hn.pick ht)
  rcases hg.errands x with hsame | ⟨k, hle, _, hstarted, _⟩
  · obtain ⟨k, hk, _, hends⟩ := h _ (hsame.symm.trans hs)
    obtain rfl : m = k := by simpa using hk
    exact hends.resolve_left (by simp) t ht
  · -- what was started meanwhile is another task
    obtain rfl : k = m := by simpa using hstarted.symm.trans hs
    exact absurd hlt (Nat.not_lt.mpr hle)

theorem Stands.keep (h : Stands x P (some m) e) (hs : x.ref? e.client = some (.task m) → P st)
    (waiting : Option Ref) : Stands x P none (e.keep m st waiting) := by
  intro r hr
  obtain ⟨k, rfl, hlt, hends⟩ := h r hr
  refine ⟨k, rfl, hlt, .inr ?_⟩
  intro t ht
  rw [Engine.keep, Table.get?_put] at ht
  split at ht
  · rename_i hm
    obtain rfl := Option.some.inj ht
    exact hs (hm ▸ hr)
  · rename_i hm
    exact hends.resolve_left (by simpa using Ne.symm hm) t ht

theorem Stands.erase (h : Stands x P (some m) e) :
    Stands x P none { e with tasks := e.tasks.erase m } := by
  intro r hr
  obtain ⟨k, rfl, hlt, hends⟩ := h r hr
  refine ⟨k, rfl, hlt, .inr ?_⟩
  intro t ht
  rw [Table.get?_erase] at ht
  split at ht
  · cases ht
  · rename_i hm
    exact hends.resolve_left (by simpa using Ne.symm hm) t ht

theorem Stands.rests {run : Run} (h : Stands x P (some m) (reached run).2) (hP : Abides x P)
    (hn : Numbered (reached run).2) (hr : Running m (reached run).2)
    (hs : x.ref? (reached run).2.client = some (.task m) → Leaves P run)
    (hrest : Rests m run e) : Stands x P none e := by
  cases hrest with
  | ended o => exact h.erase.grows hP (hn.erase m) (grows_settle _ _ _)
  | @waits _ e₁ _ p frames ha hc =>
    have hn := hn.keep hr frames (some p)
    have hkept := (h.keep hs (some p)).grows hP hn (.of_tallies ha.toTallies)
    exact hkept.grows hP (hn.grows (.of_tallies ha.toTallies)) (.of_cancels hc)
  | pauses ha => exact (h.keep hs none).grows hP (hn.keep hr _ _) (.of_tallies ha)

theorem Stands.runTask {t : Task} (h : Stands x P none e) (hP : Abides x P) (hn : Numbered e)
    (ht : e.tasks.get? m = some t) (o : Outcome) : Stands x P none (e.runTask m t o) := by
  have hpick := hn.pick ht
  have hg := Path.grows (path_reached (leads_unwind t.frames
    (if t.cancelRequested then .cancelled else o) (e.pick m))) hpick
  exact ((h.pick m).grows hP hpick hg).rests hP (hpick.grows hg) ((running_pick m e).grows hg)
    (fun hs => hP.leaves _ _ (h.frames hn ht hs)) (rests_runTask m t o e)

theorem Stands.act (h : Stands x P none e) (hP : Abides x P) (hn : Numbered e) (a : Action) :
    Stands x P none (e.act a) := by
  cases hd : a.drives with
  | false => exact h.grows hP hn (hn.grows_act hd)
  | true =>
    cases a with
    | run =>
      change Stands x P none e.runNext
      obtain ⟨e₁, ha, hrun⟩ := runNext_cases e
      have hg := Grows.of_tallies ha
      have hn₁ := hn.grows hg
      rcases hrun with hp | ⟨m, t, ht, heq⟩
      · exact (h.grows hP hn hg).grows hP hn₁ (Path.grows hp hn₁)
      · rw [heq]
        exact (h.grows hP hn hg).runTask hP hn₁ ht _
    | «begin» op =>
      intro r hr
      obtain ⟨k, hk, hlt, hends⟩ := h r hr
      refine ⟨k, hk, Nat.lt_succ_of_lt hlt, hends.imp id ?_⟩
      intro hends t ht
      change (e.tasks.put e.nextRef { frames := [.begin op] }).get? k = some t at ht
      rw [Table.get?_put_of_ne (Nat.ne_of_lt hlt)] at ht
      exact hends t ht
    | _ => cases hd

end LanguageClient.Engine
