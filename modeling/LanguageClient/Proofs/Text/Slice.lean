import Mathlib.Data.List.Infix
import Mathlib.Data.List.TakeWhile
import LanguageClient.Text.Slice

/-!
Cuts that lie inside a text, and the place where a word stands in it. A cut by offsets of the text is the
cut by those numbers; three cuts at the same two offsets make up the text. A scan back from the end of a
text cuts it in two. The offset that is found for a word is that of its first occurrence, and none is found
only if there is none.
-/

namespace LanguageClient.Text

section

variable {α : Type} {xs : List α} {start stop : Nat}

theorem clampIndex_natCast {length i : Nat} (h : i ≤ length) : clampIndex length i = i := by
  rw [clampIndex, if_neg (by omega), Int.toNat_natCast, Nat.min_eq_left h]

theorem slice_natCast (hs : start ≤ stop) (he : stop ≤ xs.length) :
    slice xs start stop = (xs.take stop).drop start := by
  rw [slice, clampIndex_natCast (Nat.le_trans hs he), clampIndex_natCast he, List.drop_take]

theorem sliceTo_natCast (h : stop ≤ xs.length) : sliceTo xs stop = xs.take stop := by
  rw [sliceTo, clampIndex_natCast h]

theorem sliceFrom_natCast (h : start ≤ xs.length) : sliceFrom xs start = xs.drop start := by
  rw [sliceFrom, clampIndex_natCast h]

/-- Two cuts of a text make three parts, which are the text. -/
theorem take_append_middle_append_drop (xs : List α) (h : start ≤ stop) :
    xs.take start ++ ((xs.take stop).drop start ++ xs.drop stop) = xs := by
  have hfront : xs.take start = (xs.take stop).take start := by rw [List.take_take, Nat.min_eq_left h]
  rw [hfront, ← List.append_assoc, List.take_append_drop, List.take_append_drop]

/-- A scan back from the end of a text passes a run at its end, and is stopped by what stands in front of
    the run. -/
theorem exists_scanned (p : α → Bool) (xs : List α) : ∃ front run, xs = front ++ run ∧
    run.length = (xs.reverse.takeWhile p).length ∧ (∀ x ∈ run, p x) ∧
    ∀ x, front.getLast? = some x → p x = false := by
  refine ⟨(xs.reverse.dropWhile p).reverse, (xs.reverse.takeWhile p).reverse, ?_, List.length_reverse,
    fun x hx => List.mem_takeWhile_imp (List.mem_reverse.mp hx), fun x hx => ?_⟩
  · rw [← List.reverse_append, List.takeWhile_append_dropWhile, List.reverse_reverse]
  · have hhead := List.head?_dropWhile_not p xs.reverse
    rw [← List.getLast?_reverse, hx] at hhead
    simpa using hhead

end

section

variable {word s : List Char} {c : Char}

/-- The word stands at an offset of the text, and at none before. -/
structure FirstAt (word s : List Char) (i : Nat) : Prop where
  le_length : i ≤ s.length
  stands : word <+: s.drop i
  first : ∀ j < i, ¬ word <+: s.drop j

theorem firstAt_cons_zero : FirstAt word (c :: s) 0 ↔ word <+: c :: s :=
  ⟨FirstAt.stands, fun h => ⟨Nat.zero_le _, h, fun j hj => absurd hj (Nat.not_lt_zero j)⟩⟩

theorem firstAt_cons_succ {i : Nat} :
    FirstAt word (c :: s) (i + 1) ↔ ¬ word <+: c :: s ∧ FirstAt word s i := by
  constructor
  · rintro ⟨hle, hstands, hfirst⟩
    exact ⟨hfirst 0 (Nat.succ_pos i), Nat.le_of_succ_le_succ hle, hstands,
      fun j hj => hfirst (j + 1) (Nat.succ_lt_succ hj)⟩
  · rintro ⟨hnot, hle, hstands, hfirst⟩
    refine ⟨Nat.succ_le_succ hle, hstands, fun j hj => ?_⟩
    cases j with
    | zero => exact hnot
    | succ j => exact hfirst j (Nat.lt_of_succ_lt_succ hj)

/-- The offset that is found is that of the first occurrence. -/
theorem find?_eq_some_iff : ∀ {s : List Char} {i : Nat}, find? word s = some i ↔ FirstAt word s i
  | [], i => by
      rw [find?]
      constructor
      · intro h
        split at h
        · rename_i hempty
          obtain rfl : 0 = i := Option.some.inj h
          exact ⟨Nat.le_refl 0, hempty ▸ List.nil_prefix, fun j hj => absurd hj (Nat.not_lt_zero j)⟩
        · cases h
      · rintro ⟨hle, hstands, -⟩
        obtain rfl : i = 0 := Nat.le_zero.mp hle
        rw [if_pos (List.prefix_nil.mp hstands)]
  | c :: rest, i => by
      rw [find?]
      simp only [List.isPrefixOf_iff_prefix]
      split
      · rename_i hhere
        constructor
        · intro h
          obtain rfl : 0 = i := Option.some.inj h
          exact firstAt_cons_zero.mpr hhere
        · intro h
          cases i with
          | zero => rfl
          | succ i => exact absurd hhere (firstAt_cons_succ.mp h).1
      · rename_i hnot
        rw [Option.map_eq_some_iff]
        constructor
        · rintro ⟨j, hj, rfl⟩
          exact firstAt_cons_succ.mpr ⟨hnot, find?_eq_some_iff.mp hj⟩
        · intro h
          cases i with
          | zero => exact absurd (firstAt_cons_zero.mp h) hnot
          | succ i => exact ⟨i, find?_eq_some_iff.mpr (firstAt_cons_succ.mp h).2, rfl⟩

end

end LanguageClient.Text
