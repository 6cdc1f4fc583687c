import LanguageClient.Proofs.Engine.Step

/-!
Groups of tasks. A group that is new listens to its tasks, and is to be told once of each of them
(`Enlists`); apart from that nothing has changed but that the group has been promised (`agrees_gather`).

    grouped ──promise──▶ promised ──listen, listen, …──▶ gathered
-/

namespace LanguageClient.Engine

/-- A group listens to some tasks that have not ended. Nothing else changes, and it is to be told of each of
    them once more. -/
structure Enlists (k : Nat) (rs : List Ref) (e e' : Engine) : Prop where
  same : (e'.client, e'.sessions, e'.tasks, e'.slots, e'.history, e'.channel, e'.nextRef, e'.groups,
    e'.turns) = (e.client, e.sessions, e.tasks, e.slots, e.history, e.channel, e.nextRef, e.groups,
    e.turns)
  standing : ∀ r, e'.standing r = e.standing r
  listens : ∀ k' r, e'.Listens k' r → e.Listens k' r ∨ (k' = k ∧ r ∈ rs)
  hears : ∀ k' r, e.Hears k' r → e'.Hears k' r
  heard : ∀ r ∈ rs, e.standing r = some none → e'.Hears k r
  calls : ∀ l r, .call l r ∈ e'.ready → .call l r ∈ e.ready ∨ ∃ o, e.outcome? r = some o
  pledges : ∀ k', e'.pledges k' ≤ e.pledges k' + if k' = k then rs.length else 0
  tells : ∀ k', e.ready.countP (Job.tells k') ≤ e'.ready.countP (Job.tells k')
  wakes : ∀ m k', e.Wakes m k' → e'.Wakes m k'

theorem Enlists.refl (k : Nat) (e : Engine) : Enlists k [] e e where
  same := rfl
  standing _ := rfl
  listens _ _ := .inl
  hears _ _ := id
  heard _ h := by cases h
  calls _ _ := .inl
  pledges _ := Nat.le_add_right _ _
  tells _ := Nat.le_refl _
  wakes _ _ := id

theorem Enlists.cons {k : Nat} {r : Ref} {rs : List Ref} {e₁ e₂ e₃ : Engine} (h : Enlists k [r] e₁ e₂)
    (h' : Enlists k rs e₂ e₃) : Enlists k (r :: rs) e₁ e₃ where
  same := h'.same.trans h.same
  standing r := (h'.standing r).trans (h.standing r)
  listens k' r' hl := by
    rcases h'.listens k' r' hl with hl | ⟨hk, hmem⟩
    · exact (h.listens k' r' hl).imp id fun ⟨hk, hmem⟩ =>
        ⟨hk, List.mem_singleton.mp hmem ▸ List.mem_cons_self ..⟩
    · exact .inr ⟨hk, List.mem_cons_of_mem _ hmem⟩
  hears k' r' hw := h'.hears k' r' (h.hears k' r' hw)
  heard r' hmem hopen := by
    rcases List.mem_cons.mp hmem with rfl | hmem
    · exact h'.hears k r' (h.heard r' (List.mem_singleton_self _) hopen)
    · exact h'.heard r' hmem ((h.standing r').trans hopen)
  calls l r' hl := by
    rcases h'.calls l r' hl with hl | ⟨o, ho⟩
    · exact h.calls l r' hl
    · exact .inr ⟨o, by rwa [outcome?_eq_join, h.standing, ← outcome?_eq_join] at ho⟩
  pledges k' := by
    have hfirst := h.pledges k'
    have hrest := h'.pledges k'
    by_cases hk : k' = k
    · simp only [if_pos hk, List.length_cons, List.length_nil] at hfirst hrest ⊢
      omega
    · simp only [if_neg hk] at hfirst hrest ⊢
      exact Nat.le_trans hrest hfirst
  tells k' := Nat.le_trans (h.tells k') (h'.tells k')
  wakes m k' hw := h'.wakes m k' (h.wakes m k' hw)

theorem hears_listen {k : Nat} {r : Ref} {e : Engine} (h : e.standing r = some none) :
    (e.listen r (.memberOver k)).Hears k r := by
  obtain ⟨⟨outcome, listeners⟩, hget, ho⟩ := Option.map_eq_some_iff.mp h
  obtain rfl : outcome = none := ho
  simp only [listen, hget]
  exact ⟨_, Table.get?_put_self _ _ _, by simp⟩

theorem enlists_listen (k : Nat) (r : Ref) (e : Engine) :
    Enlists k [r] e (e.listen r (.memberOver k)) where
  same := by
    obtain ⟨h₁, h₂, h₃, h₄, h₅, h₆, h₇, h₈, h₉⟩ := listen_same r (.memberOver k) e
    rw [h₁, h₂, h₃, h₄, h₅, h₆, h₇, h₈, h₉]
  standing r' := standing_listen r r' _ e
  listens k' r' hl := (listens_listen hl).imp id fun ⟨hk, hr⟩ =>
    ⟨(Listener.memberOver.inj hk).symm, List.mem_singleton.mpr hr⟩
  hears k' r' hw := by
    obtain ⟨p, hp, hmem⟩ := hw
    rcases listen_cases r (.memberOver k) e with h | ⟨listeners, hget, h⟩ | ⟨ho, h⟩
    · rw [h]
      exact ⟨p, hp, hmem⟩
    · rw [h]
      by_cases hr : r' = r
      · subst hr
        obtain rfl := Option.some.inj (hget.symm.trans hp)
        exact ⟨_, Table.get?_put_self _ _ _, List.mem_append_left _ hmem⟩
      · exact ⟨p, (Table.get?_put_of_ne hr _ _).trans hp, hmem⟩
    · rw [h]
      exact ⟨p, hp, hmem⟩
  heard r' hmem hopen := by
    obtain rfl := List.mem_singleton.mp hmem
    exact hears_listen hopen
  calls l r' hl := by
    rcases listen_cases r (.memberOver k) e with h | ⟨listeners, _, h⟩ | ⟨ho, h⟩
    · exact .inl (h ▸ hl)
    · rw [h] at hl
      exact .inl hl
    · rw [h] at hl
      refine (List.mem_append.mp hl).imp id fun hl => ?_
      obtain ⟨rfl, rfl⟩ := Job.call.inj (List.mem_singleton.mp hl)
      exact ho
  pledges k' := by
    have hone : (if (Listener.memberOver k == .memberOver k') = true then 1 else 0) =
        if k' = k then 1 else 0 := by
      simp only [beq_iff_eq, Listener.memberOver.injEq, @eq_comm _ k k']
    rcases listen_cases r (.memberOver k) e with h | ⟨listeners, hget, h⟩ | ⟨ho, h⟩
    · rw [h]
      exact Nat.le_add_right _ _
    · have htotal := Table.total_put (fun p : Promise => p.listeners.count (.memberOver k')) r
        ⟨none, listeners ++ [.memberOver k]⟩ e.promises
      simp only [hget, Option.map_some, Option.getD_some, List.count_append, List.count_singleton,
        hone] at htotal
      rw [h]
      simp only [Engine.pledges, List.length_singleton]
      omega
    · have hjob : (if (Job.call (.memberOver k) r).tells k' = true then 1 else 0) =
          if k' = k then 1 else 0 := by
        simp only [Job.tells, beq_iff_eq, @eq_comm _ k k']
      rw [h]
      simp only [Engine.pledges, enqueue, List.countP_append, List.countP_singleton, hjob,
        List.length_singleton, Nat.add_assoc, Nat.le_refl]
  tells k' := by
    rcases listen_cases r (.memberOver k) e with h | ⟨_, _, h⟩ | ⟨_, h⟩
    · rw [h]
    · rw [h]
    · rw [h]
      exact List.countP_append ▸ Nat.le_add_right _ _
  wakes _ _ hw := wakes_listen hw r _

theorem enlists_listenAll (k : Nat) : ∀ (rs : List Ref) (e : Engine),
    Enlists k rs e (rs.foldl (fun e r => e.listen r (.memberOver k)) e)
  | [], e => .refl k e
  | r :: rs, e => (enlists_listen k r e).cons (enlists_listenAll k rs _)

/-- A new group has been noted, which has no number yet. -/
def grouped (members : List Ref) (tolerant : Bool) (e : Engine) : Engine :=
  { e with groups := e.groups.put e.nextRef { members, tolerant } }

theorem agrees_grouped (members : List Ref) (tolerant : Bool) (e : Engine) :
    Agrees e (e.grouped members tolerant) := by
  have hsame {k : Nat} (hk : k < e.nextRef) :
      (e.grouped members tolerant).groups.get? k = e.groups.get? k :=
    Table.get?_put_of_ne (Nat.ne_of_lt hk) _ _
  refine ⟨⟨rfl, rfl, rfl, rfl, rfl, rfl, rfl, rfl, List.prefix_rfl, Nat.le_refl _, fun _ => rfl,
    fun k hk group hgroup => ⟨group, (hsame hk).trans hgroup, rfl, rfl⟩, fun _ _ => .inl, fun _ _ => id,
    fun _ _ => .inl, fun k hk group group' hgroup hgroup' => ?_, fun k hk group group' hgroup hgroup' => ?_,
    fun k hk group group' hgroup hgroup' _ hlt => ?_⟩, rfl, fun _ _ => wakes_of_eq rfl⟩ <;>
    obtain rfl : group = group' := Option.some.inj (hgroup.symm.trans ((hsame hk).symm.trans hgroup'))
  · exact Nat.le_refl _
  · exact Nat.le_refl _
  · exact hlt

/-- The state in which a group begins to listen to its tasks. -/
def gathering (members : List Ref) (tolerant : Bool) (e : Engine) : Engine :=
  { (e.grouped members tolerant).promise (.group e.nextRef) with nextRef := e.nextRef + 1 }

theorem enlists_gather (members : List Ref) (tolerant : Bool) (e : Engine) :
    Enlists e.nextRef members (e.gathering members tolerant) (e.gather members tolerant).2 :=
  enlists_listenAll e.nextRef members _

theorem agrees_gather (members : List Ref) (tolerant : Bool) (e : Engine) :
    Agrees ((e.grouped members tolerant).promise (.group e.nextRef)) (e.gather members tolerant).2 := by
  have h := enlists_gather members tolerant e
  have hsame := h.same
  simp only [Prod.mk.injEq] at hsame
  obtain ⟨hclient, hsessions, htasks, hslots, hhistory, hchannel, hnext, hgroups, hturns⟩ := hsame
  refine ⟨⟨hclient, by rw [hsessions]; rfl, by rw [hsessions]; rfl, htasks, hslots, hhistory,
    by rw [hchannel]; rfl, by rw [hchannel]; rfl, by rw [hchannel]; exact List.prefix_rfl,
    Nat.le_of_lt (Nat.lt_of_lt_of_eq (Nat.lt_succ_self _) hnext.symm), h.standing,
    fun k _ group hgroup => ⟨group, hgroups ▸ hgroup, rfl, rfl⟩, fun k r hl => ?_, h.hears,
    h.calls, fun k hk group group' hgroup hgroup' => ?_, fun k hk group group' hgroup hgroup' => ?_,
    fun k hk group group' hgroup hgroup' _ hlt => ?_⟩, hturns, h.wakes⟩
  · refine (h.listens k r hl).imp id ?_
    rintro ⟨rfl, hr⟩
    exact ⟨Nat.lt_of_lt_of_eq (Nat.lt_succ_self _) hnext.symm, { members, tolerant },
      by rw [hgroups]; exact Table.get?_put_self _ _ _, hr⟩
  · -- the new group has no number yet
    obtain rfl : group = group' := Option.some.inj (hgroup.symm.trans (hgroups ▸ hgroup'))
    have hold : k ≠ e.nextRef := Nat.ne_of_lt hk
    have hpledges := h.pledges k
    rw [if_neg hold] at hpledges
    exact Nat.add_le_add_left hpledges _
  · obtain rfl : group = group' := Option.some.inj (hgroup.symm.trans (hgroups ▸ hgroup'))
    exact Nat.add_le_add_left (h.tells k) _
  · obtain rfl : group = group' := Option.some.inj (hgroup.symm.trans (hgroups ▸ hgroup'))
    exact hlt

end LanguageClient.Engine
