import Mathlib.Algebra.BigOperators.Group.Finset.Basic
import Mathlib.Algebra.Order.BigOperators.Group.Finset
import Mathlib.Data.List.Perm.Basic
import Mathlib.Data.List.Nodup
import LanguageClient.Table

/-!
What writing to a table changes. Looking up after a write sees the write under its own key and the
old table under every other. A table whose keys are distinct keeps them so, and everything that its
entries hold can be counted with one entry set apart (`flatMap_perm_of_get?`).
-/

namespace LanguageClient.Table

variable {κ α β : Type} [DecidableEq κ]

attribute [grind =] get? put

/-! ### Looking up -/

@[simp] theorem get?_nil (key : κ) : get? key ([] : Table κ α) = none := rfl

@[simp] theorem get?_put_self (key : κ) (value : α) (t : Table κ α) :
    get? key (put key value t) = some value := by
  induction t with
  | nil => simp [put, get?]
  | cons entry rest ih => by_cases h : entry.1 = key <;> simp [put, get?, h, ih]

theorem get?_put_of_ne {key other : κ} (h : other ≠ key) (value : α) (t : Table κ α) :
    get? other (put key value t) = get? other t := by
  induction t with
  | nil => simp [put, get?, h.symm]
  | cons entry rest ih =>
    by_cases hk : entry.1 = key
    · subst hk
      simp [put, get?, h.symm]
    · simp [put, get?, hk, ih]

theorem get?_put (key other : κ) (value : α) (t : Table κ α) :
    get? other (put key value t) = if other = key then some value else get? other t := by
  split
  · rename_i h
    rw [h, get?_put_self]
  · rename_i h
    exact get?_put_of_ne h value t

theorem get?_erase (key other : κ) (t : Table κ α) :
    get? other (erase key t) = if other = key then none else get? other t := by
  induction t with
  | nil => simp [erase]
  | cons entry rest ih =>
    obtain ⟨k, v⟩ := entry
    by_cases hk : k = key
    · subst hk
      by_cases ho : other = k
      · simpa [erase, ho] using ih
      · simpa [erase, get?, ho, Ne.symm ho, eq_comm] using ih
    · by_cases ho : k = other
      · subst ho
        simp [erase, get?, hk]
      · simpa [erase, get?, hk, ho] using ih

theorem get?_update (key other : κ) (f : α → α) (t : Table κ α) :
    get? other (update key f t) = if other = key then (get? other t).map f else get? other t := by
  induction t with
  | nil => simp [update]
  | cons entry rest ih =>
    obtain ⟨k, v⟩ := entry
    by_cases hk : k = key
    · subst hk
      by_cases ho : k = other
      · subst ho
        simp [update, get?]
      · simpa [update, get?, ho, Ne.symm ho, eq_comm] using ih
    · by_cases ho : k = other
      · subst ho
        simp [update, get?, hk]
      · simpa [update, get?, hk, ho] using ih

theorem get?_map (key : κ) (f : α → β) (t : Table κ α) :
    get? key (t.map fun entry => (entry.1, f entry.2)) = (get? key t).map f := by
  induction t with
  | nil => rfl
  | cons entry rest ih => by_cases hk : entry.1 = key <;> simp [get?, hk, ih]

theorem get?_append (key : κ) (more t : Table κ α) :
    get? key (t ++ more) = (get? key t).or (get? key more) := by
  induction t with
  | nil => rfl
  | cons entry rest ih => by_cases h : entry.1 = key <;> simp [get?, h, ih]

theorem get?_append_of_some {key : κ} {value : α} (more : Table κ α) {t : Table κ α}
    (h : get? key t = some value) : get? key (t ++ more) = some value := by
  rw [get?_append, h, Option.some_or]

/-! ### Keys -/

/-- The keys of a table in their order. -/
def keys (t : Table κ α) : List κ := t.map (·.1)

theorem get?_eq_none_iff {key : κ} {t : Table κ α} : get? key t = none ↔ key ∉ t.keys := by
  induction t with
  | nil => simp [keys]
  | cons entry rest ih =>
    by_cases h : entry.1 = key
    · simp [get?, keys, h]
    · simp only [get?, if_neg h, ih, keys, List.map_cons, List.mem_cons, not_or]
      exact ⟨fun hr => ⟨Ne.symm h, hr⟩, fun hr => hr.2⟩

theorem mem_keys_iff {key : κ} {t : Table κ α} : key ∈ t.keys ↔ ∃ v, get? key t = some v := by
  rw [← not_iff_not, ← get?_eq_none_iff]
  cases get? key t <;> simp

theorem mem_of_get? {key : κ} {value : α} {t : Table κ α} (h : get? key t = some value) :
    (key, value) ∈ t := by
  induction t with
  | nil => simp at h
  | cons entry rest ih =>
    obtain ⟨k, v⟩ := entry
    by_cases hk : k = key
    · obtain rfl : v = value := by simpa [get?, hk] using h
      exact hk ▸ List.mem_cons_self ..
    · exact List.mem_cons_of_mem _ (ih (by simpa [get?, hk] using h))

theorem mem_values_of_get? {key : κ} {value : α} {t : Table κ α} (h : get? key t = some value) :
    value ∈ t.map Prod.snd :=
  List.mem_map_of_mem (mem_of_get? h)

theorem get?_of_mem {key : κ} {value : α} {t : Table κ α} (hn : t.keys.Nodup)
    (h : (key, value) ∈ t) : get? key t = some value := by
  induction t with
  | nil => cases h
  | cons entry rest ih =>
    obtain ⟨k, v⟩ := entry
    simp only [keys, List.map_cons, List.nodup_cons] at hn
    rcases List.mem_cons.mp h with heq | hmem
    · obtain ⟨rfl, rfl⟩ := Prod.mk.inj heq
      simp [get?]
    · have hk : k ≠ key := by
        rintro rfl
        exact hn.1 (List.mem_map_of_mem hmem)
      rw [get?, if_neg hk]
      exact ih hn.2 hmem

theorem keys_put_of_mem {key : κ} (value : α) {t : Table κ α} (h : key ∈ t.keys) :
    (put key value t).keys = t.keys := by
  induction t with
  | nil => simp [keys] at h
  | cons entry rest ih =>
    obtain ⟨k, v⟩ := entry
    by_cases hk : k = key
    · simp [put, keys, hk]
    · have hrest : key ∈ keys rest := by
        simpa [keys, Ne.symm hk] using h
      have ih := ih hrest
      simp only [keys] at ih
      simp [put, keys, hk, ih]

theorem put_of_not_mem {key : κ} (value : α) {t : Table κ α} (h : key ∉ t.keys) :
    put key value t = t ++ [(key, value)] := by
  induction t with
  | nil => rfl
  | cons entry rest ih =>
    obtain ⟨k, v⟩ := entry
    simp only [keys, List.map_cons, List.mem_cons, not_or] at h
    rw [put, if_neg (Ne.symm h.1), ih h.2, List.cons_append]

theorem keys_put_of_not_mem {key : κ} (value : α) {t : Table κ α} (h : key ∉ t.keys) :
    (put key value t).keys = t.keys ++ [key] := by
  rw [put_of_not_mem value h, keys, List.map_append]
  rfl

theorem keys_erase (key : κ) (t : Table κ α) : (erase key t).keys = t.keys.filter (· ≠ key) := by
  simp only [keys, erase, List.filter_map]
  rfl

theorem nodup_keys_put {key : κ} {value : α} {t : Table κ α} (h : t.keys.Nodup) :
    (put key value t).keys.Nodup := by
  by_cases hk : key ∈ t.keys
  · rwa [keys_put_of_mem value hk]
  · rw [keys_put_of_not_mem value hk]
    exact List.nodup_append.mpr ⟨h, List.nodup_singleton key, by
      rintro a ha b hb rfl
      exact hk (List.mem_singleton.mp hb ▸ ha)⟩

theorem nodup_keys_erase {key : κ} {t : Table κ α} (h : t.keys.Nodup) : (erase key t).keys.Nodup := by
  rw [keys_erase]
  exact h.filter _

/-! ### Everything that the entries hold -/

theorem erase_of_not_mem {key : κ} {t : Table κ α} (h : key ∉ t.keys) : erase key t = t := by
  refine List.filter_eq_self.mpr fun entry he => ?_
  simp only [decide_eq_true_eq]
  rintro rfl
  exact h (List.mem_map_of_mem he)

/-- One entry set apart from all others. -/
theorem flatMap_perm_of_get? {key : κ} {value : α} (f : α → List β) {t : Table κ α}
    (hn : t.keys.Nodup) (h : get? key t = some value) :
    (t.flatMap fun entry => f entry.2).Perm
      (f value ++ (erase key t).flatMap fun entry => f entry.2) := by
  induction t with
  | nil => simp at h
  | cons entry rest ih =>
    obtain ⟨k, v⟩ := entry
    simp only [keys, List.map_cons, List.nodup_cons] at hn
    by_cases hk : k = key
    · subst hk
      obtain rfl : v = value := by simpa [get?] using h
      have herase : erase k ((k, v) :: rest) = rest := by
        rw [erase, List.filter_cons_of_neg (by simp)]
        exact erase_of_not_mem hn.1
      rw [List.flatMap_cons, herase]
    · have ih := ih hn.2 (by simpa [get?, hk] using h)
      have herase : erase key ((k, v) :: rest) = (k, v) :: erase key rest := by
        rw [erase, List.filter_cons_of_pos (by simpa using hk)]
        rfl
      rw [List.flatMap_cons, herase, List.flatMap_cons]
      exact (ih.append_left (f v)).trans (List.perm_append_comm_assoc _ _ _)

theorem erase_put (key : κ) (value : α) (t : Table κ α) :
    erase key (put key value t) = erase key t := by
  induction t with
  | nil => simp [put, erase]
  | cons entry rest ih =>
    by_cases hk : entry.1 = key
    · simp [put, erase, hk]
    · simpa [put, erase, hk] using ih

/-- What the entries hold after one of them has been written. -/
theorem flatMap_put_perm {key : κ} {value : α} (f : α → List β) {t : Table κ α}
    (hn : t.keys.Nodup) : ((put key value t).flatMap fun entry => f entry.2).Perm
      (f value ++ (erase key t).flatMap fun entry => f entry.2) := by
  have h := flatMap_perm_of_get? f (nodup_keys_put hn) (get?_put_self key value t)
  rwa [erase_put] at h

/-! ### Adding up -/

/-- What the values under all keys come to. -/
def total (f : α → Nat) (t : Table κ α) : Nat := ∑ key ∈ t.keys.toFinset, ((get? key t).map f).getD 0

/-- Other keys count for nothing. -/
theorem total_eq_sum (f : α → Nat) {t : Table κ α} {keys : Finset κ} (h : t.keys.toFinset ⊆ keys) :
    total f t = ∑ key ∈ keys, ((get? key t).map f).getD 0 := by
  refine Finset.sum_subset h fun key _ hkey => ?_
  rw [get?_eq_none_iff.mpr (by simpa using hkey)]
  rfl

theorem total_put (f : α → Nat) (key : κ) (value : α) (t : Table κ α) :
    total f (put key value t) + ((get? key t).map f).getD 0 = total f t + f value := by
  have hput : (put key value t).keys.toFinset ⊆ insert key t.keys.toFinset := by
    by_cases hk : key ∈ t.keys
    · rw [keys_put_of_mem value hk]
      exact Finset.subset_insert _ _
    · rw [keys_put_of_not_mem value hk]
      simp
  have hself : key ∈ insert key t.keys.toFinset := Finset.mem_insert_self ..
  rw [total_eq_sum f hput, total_eq_sum f (Finset.subset_insert key t.keys.toFinset),
    ← Finset.add_sum_erase _ _ hself, ← Finset.add_sum_erase _ _ hself, get?_put_self]
  have hrest : ∀ k ∈ (insert key t.keys.toFinset).erase key,
      ((get? k (put key value t)).map f).getD 0 = ((get? k t).map f).getD 0 := fun k hk => by
    rw [get?_put_of_ne (Finset.ne_of_mem_erase hk)]
  rw [Finset.sum_congr rfl hrest, Option.map_some, Option.getD_some]
  omega

theorem keys_update (key : κ) (g : α → α) (t : Table κ α) : (update key g t).keys = t.keys := by
  simp only [keys, update, List.map_map]
  refine List.map_congr_left fun entry _ => ?_
  simp only [Function.comp_apply]
  split <;> rfl

theorem total_update {f : α → Nat} {g : α → α} (h : ∀ v, f (g v) = f v) (key : κ) (t : Table κ α) :
    total f (update key g t) = total f t := by
  rw [total, keys_update]
  refine Finset.sum_congr rfl fun k _ => ?_
  rw [get?_update]
  split
  · rw [Option.map_map, show f ∘ g = f from funext h]
  · rfl

theorem le_total {f : α → Nat} {key : κ} {value : α} {t : Table κ α} (h : get? key t = some value) :
    f value ≤ total f t := by
  have hmem : key ∈ t.keys.toFinset := by simpa using mem_keys_iff.mpr ⟨value, h⟩
  have hle := Finset.single_le_sum (f := fun k => ((get? k t).map f).getD 0) (fun _ _ => Nat.zero_le _) hmem
  rwa [h] at hle

theorem total_eq_zero {f : α → Nat} {t : Table κ α} (h : ∀ key value, get? key t = some value → f value = 0) :
    total f t = 0 := by
  refine Finset.sum_eq_zero fun key _ => ?_
  cases hget : get? key t with
  | none => rfl
  | some value => exact h key value hget

end LanguageClient.Table
