import Mathlib.Data.List.Induction
import Mathlib.Data.List.Nodup
import LanguageClient.Registry

/-!
Who is attached, and in which order. A call concerns one member. A member is attached if the last call
that concerns it attached it (`Present`), and then it joined with the latest call that attached it
while it was not attached (`JoinedAt`). The registry holds those who are attached, each of them once,
in the order in which they joined.

    calls      attach a   attach b   attach a   detach a   attach a
    registry   a          a b        a b        b          b a
-/

namespace LanguageClient

/-- The member that a call concerns. -/
def Registration.member {α : Type} : Registration α → α
  | .attach x | .detach x => x

namespace Registry

variable {α : Type} [DecidableEq α] {x y : α} {r : Registration α} {rs : List (Registration α)}

/-- The registry after some calls. -/
def registered (s : Registry α) (rs : List (Registration α)) : Registry α := rs.foldl register s

/-- The last call that concerns the member attached it. -/
def Present (x : α) (rs : List (Registration α)) : Prop :=
  (rs.filter fun r => r.member = x).getLast? = some (.attach x)

/-- The member was attached by this call, while it was not attached, and by no later one. -/
def JoinedAt (x : α) (rs : List (Registration α)) (i : Nat) : Prop :=
  rs[i]? = some (.attach x) ∧ ¬ Present x (rs.take i) ∧
    ∀ j, i < j → rs[j]? = some (.attach x) → Present x (rs.take j)

theorem registered_concat (s : Registry α) (rs : List (Registration α)) (r : Registration α) :
    registered s (rs ++ [r]) = (registered s rs).register r := by
  rw [registered, List.foldl_append]
  rfl

/-! ### Who is attached -/

theorem present_concat :
    Present x (rs ++ [r]) ↔ r = .attach x ∨ (r.member ≠ x ∧ Present x rs) := by
  unfold Present
  rw [List.filter_append, List.filter_cons, List.filter_nil]
  by_cases hr : r.member = x
  · simp [hr]
  · have hne : r ≠ .attach x := by
      rintro rfl
      exact hr rfl
    simp [hr, hne]

theorem mem_register {s : Registry α} (hs : s.Nodup) :
    x ∈ s.register r ↔ r = .attach x ∨ (r.member ≠ x ∧ x ∈ s) := by
  cases r with
  | attach y =>
    simp only [register, attach, Registration.member, Registration.attach.injEq]
    split
    · rename_i hy
      by_cases hyx : y = x
      · simpa [hyx] using hyx ▸ hy
      · simp [hyx]
    · rw [List.mem_append, List.mem_singleton, eq_comm (a := x)]
      by_cases hyx : y = x <;> simp [hyx]
  | detach y =>
    simp only [register, detach, Registration.member, reduceCtorEq, false_or]
    split
    · rw [hs.mem_erase_iff, ne_comm]
    · rename_i hy
      refine ⟨fun hx => ⟨?_, hx⟩, fun h => h.2⟩
      rintro rfl
      exact hy hx

theorem nodup_register {s : Registry α} (hs : s.Nodup) (r : Registration α) :
    (s.register r).Nodup := by
  cases r with
  | attach y =>
    simp only [register, attach]
    split
    · exact hs
    · rename_i hy
      rw [List.nodup_append]
      refine ⟨hs, List.nodup_singleton y, ?_⟩
      rintro x hx z hz rfl
      exact hy (List.mem_singleton.mp hz ▸ hx)
  | detach y =>
    simp only [register, detach]
    split
    · exact hs.erase y
    · exact hs

/-- Whoever leaves nothing behind was there alone. -/
theorem eq_singleton_of_detach {s : Registry α} (h : (detach x s).1 = true)
    (hempty : (detach x s).2 = []) : s = [x] := by
  unfold detach at h hempty
  split at hempty
  · rename_i hx
    have hperm := List.perm_cons_erase hx
    rw [show List.erase s x = [] from hempty] at hperm
    exact List.perm_singleton.mp hperm
  · rename_i hx
    rw [if_neg hx] at h
    cases h

/-- Nothing is held twice. -/
theorem nodup_registered (rs : List (Registration α)) : (registered [] rs).Nodup := by
  induction rs using List.reverseRecOn with
  | nil => exact List.nodup_nil
  | append_singleton rs r ih =>
    rw [registered_concat]
    exact nodup_register ih r

/-- Those are held whom the last call that concerns them attached. -/
theorem mem_registered_iff : x ∈ registered [] rs ↔ Present x rs := by
  induction rs using List.reverseRecOn with
  | nil => simp [registered, Present]
  | append_singleton rs r ih =>
    rw [registered_concat, mem_register (nodup_registered rs), present_concat, ih]

/-! ### In which order -/

/-- A call that leaves it at that when the member joined. -/
theorem JoinedAt.concat {i : Nat} (h : JoinedAt x rs i) (hr : r = .attach x → Present x rs) :
    JoinedAt x (rs ++ [r]) i := by
  obtain ⟨hi, hnot, hlater⟩ := h
  have hlt : i < rs.length := (List.getElem?_eq_some_iff.mp hi).1
  refine ⟨by rw [List.getElem?_append_left hlt, hi], ?_, fun j hj hattach => ?_⟩
  · rwa [List.take_append_of_le_length (Nat.le_of_lt hlt)]
  · rcases Nat.lt_or_ge j rs.length with hjlt | hjge
    · rw [List.getElem?_append_left hjlt] at hattach
      rw [List.take_append_of_le_length (Nat.le_of_lt hjlt)]
      exact hlater j hj hattach
    · rw [List.getElem?_append_right hjge, List.getElem?_singleton] at hattach
      split at hattach
      · rename_i hzero
        obtain rfl : j = rs.length := by omega
        rw [List.take_left]
        exact hr (Option.some.inj hattach)
      · cases hattach

theorem joinedAt_attach (h : ¬ Present x rs) : JoinedAt x (rs ++ [.attach x]) rs.length := by
  refine ⟨by simp, by rwa [List.take_left], fun j hj hattach => ?_⟩
  have hlt := (List.getElem?_eq_some_iff.mp hattach).1
  rw [List.length_append, List.length_singleton] at hlt
  omega

theorem exists_joinedAt (h : Present x rs) : ∃ i, JoinedAt x rs i := by
  induction rs using List.reverseRecOn with
  | nil => cases h
  | append_singleton rs r ih =>
    rcases present_concat.mp h with rfl | ⟨hne, hpresent⟩
    · by_cases hpresent : Present x rs
      · obtain ⟨i, hi⟩ := ih hpresent
        exact ⟨i, hi.concat fun _ => hpresent⟩
      · exact ⟨_, joinedAt_attach hpresent⟩
    · obtain ⟨i, hi⟩ := ih hpresent
      exact ⟨i, hi.concat fun _ => hpresent⟩

/-- The one joined before the other. -/
def Precedes (rs : List (Registration α)) (x y : α) : Prop :=
  ∃ i j, JoinedAt x rs i ∧ JoinedAt y rs j ∧ i < j

theorem Precedes.concat (h : Precedes rs x y) (hx : r = .attach x → Present x rs)
    (hy : r = .attach y → Present y rs) : Precedes (rs ++ [r]) x y := by
  obtain ⟨i, j, hi, hj, hlt⟩ := h
  exact ⟨i, j, hi.concat hx, hj.concat hy, hlt⟩

/-- The order is that of joining. -/
theorem sorted_registered (rs : List (Registration α)) :
    (registered [] rs).Pairwise (Precedes rs) := by
  induction rs using List.reverseRecOn with
  | nil => exact List.Pairwise.nil
  | append_singleton rs r ih =>
    have hkept : (registered [] rs).Pairwise (Precedes (rs ++ [r])) := by
      refine ih.imp_of_mem fun {x y} hx hy h => ?_
      exact h.concat (fun _ => mem_registered_iff.mp hx) fun _ => mem_registered_iff.mp hy
    rw [registered_concat]
    cases r with
    | attach z =>
      simp only [register, attach]
      split
      · exact hkept
      · rename_i hz
        rw [List.pairwise_append]
        refine ⟨hkept, List.pairwise_singleton _ z, fun x hx y hy => ?_⟩
        obtain rfl := List.mem_singleton.mp hy
        have hpresent := mem_registered_iff.mp hx
        obtain ⟨i, hi⟩ := exists_joinedAt hpresent
        have hlt := (List.getElem?_eq_some_iff.mp hi.1).1
        exact ⟨i, rs.length, hi.concat fun _ => hpresent,
          joinedAt_attach fun h => hz (mem_registered_iff.mpr h), hlt⟩
    | detach z =>
      simp only [register, detach]
      split
      · exact hkept.sublist List.erase_sublist
      · exact hkept

/-- A member that leaves and comes back stands at the end. -/
example : registered [] [.attach 1, .attach 2, .attach 1, .detach 1, .attach 1] = [2, 1] := by decide

end Registry

end LanguageClient
