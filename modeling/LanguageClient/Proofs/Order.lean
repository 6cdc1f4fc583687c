import Mathlib.Data.List.Sort
import LanguageClient.Order

/-!
What sorting keeps. The stable sort is insertion sort by "does not come after", so it gives the same
items in another order, and of two items in its result the first never comes after the second. It is
stable: what a test takes out of the result is what it takes out of the list, sorted on its own
(`sortStable_filter`).
-/

namespace LanguageClient

section

variable {α : Type} (before : α → α → Bool)

/-- The first item does not come after the second. -/
def NotAfter (a b : α) : Prop := before b a = false

instance : DecidableRel (NotAfter before) := fun a b =>
  inferInstanceAs (Decidable (before b a = false))

theorem insertStable_eq_orderedInsert (x : α) : ∀ items : List α,
    insertStable before x items = items.orderedInsert (NotAfter before) x
  | [] => rfl
  | y :: ys => by
      rw [insertStable, List.orderedInsert_cons, insertStable_eq_orderedInsert x ys]
      cases h : before y x <;> simp [NotAfter, h]

theorem sortStable_eq_insertionSort : ∀ items : List α,
    sortStable before items = items.insertionSort (NotAfter before)
  | [] => rfl
  | x :: xs => by
      rw [sortStable, List.insertionSort_cons, sortStable_eq_insertionSort xs,
        insertStable_eq_orderedInsert]

/-- Sorting gives the same items. -/
theorem sortStable_perm (items : List α) : (sortStable before items).Perm items := by
  rw [sortStable_eq_insertionSort]
  exact List.perm_insertionSort _ items

/-- Sorting by an order that tells which of two comes later puts no item after one that it comes
    before. -/
theorem sortStable_pairwise (items : List α)
    (total : ∀ a b, NotAfter before a b ∨ NotAfter before b a)
    (trans : ∀ a b c, NotAfter before a b → NotAfter before b c → NotAfter before a c) :
    (sortStable before items).Pairwise (NotAfter before) := by
  have : Std.Total (NotAfter before) := ⟨total⟩
  have : IsTrans α (NotAfter before) := ⟨trans⟩
  rw [sortStable_eq_insertionSort]
  exact List.pairwise_insertionSort _ items

variable {before}

/-- What stands in order is left as it is. -/
theorem sortStable_eq_self {items : List α} (h : items.Pairwise (NotAfter before)) :
    sortStable before items = items := by
  rw [sortStable_eq_insertionSort]
  exact h.insertionSort_eq

/-- Items that are told apart as their images are can be sorted before or after they are mapped. -/
theorem sortStable_map {β : Type} {before' : β → β → Bool} (f : α → β)
    (h : ∀ a b, before' (f a) (f b) = before a b) (items : List α) :
    sortStable before' (items.map f) = (sortStable before items).map f := by
  rw [sortStable_eq_insertionSort, sortStable_eq_insertionSort]
  refine (List.map_insertionSort _ _ f items fun a _ b _ => ?_).symm
  rw [NotAfter, NotAfter, h]

/-- An item that no item comes before is put in front. -/
theorem insertStable_of_forall {x : α} {items : List α} (h : ∀ y ∈ items, NotAfter before x y) :
    insertStable before x items = x :: items := by
  cases items with
  | nil => rfl
  | cons y ys => rw [insertStable, if_neg (Bool.eq_false_iff.mp (h y List.mem_cons_self))]

theorem filter_insertStable_of_not {p : α → Bool} {x : α} (hx : ¬ p x) (items : List α) :
    (insertStable before x items).filter p = items.filter p := by
  induction items with
  | nil => rw [insertStable, List.filter_cons_of_neg hx]
  | cons y ys ih =>
    rw [insertStable]
    split
    · rw [List.filter_cons, List.filter_cons, ih]
    · rw [List.filter_cons_of_neg hx]

theorem filter_insertStable {p : α → Bool} {x : α} (hx : p x) {items : List α}
    (trans : ∀ a b c, NotAfter before a b → NotAfter before b c → NotAfter before a c)
    (h : items.Pairwise (NotAfter before)) :
    (insertStable before x items).filter p = insertStable before x (items.filter p) := by
  induction items with
  | nil => rw [insertStable, List.filter_cons_of_pos hx, List.filter_nil, insertStable]
  | cons y ys ih =>
    obtain ⟨hy, hys⟩ := List.pairwise_cons.mp h
    cases hb : before y x with
    | true =>
      rw [insertStable, if_pos hb]
      by_cases hp : p y
      · rw [List.filter_cons_of_pos hp, List.filter_cons_of_pos hp, ih hys, insertStable, if_pos hb]
      · rw [List.filter_cons_of_neg hp, List.filter_cons_of_neg hp, ih hys]
    | false =>
      -- nothing that follows comes before `y`, so nothing comes before `x`
      have hall : ∀ z ∈ (y :: ys).filter p, NotAfter before x z := by
        intro z hz
        rcases List.mem_cons.mp (List.mem_of_mem_filter hz) with rfl | hz
        · exact hb
        · exact trans x y z hb (hy z hz)
      rw [insertStable_of_forall hall, insertStable, if_neg (by simp [hb]),
        List.filter_cons_of_pos hx]

/-- What is taken out of a list stands in the same order whether it is taken out before or after
    sorting. -/
theorem sortStable_filter (p : α → Bool)
    (total : ∀ a b, NotAfter before a b ∨ NotAfter before b a)
    (trans : ∀ a b c, NotAfter before a b → NotAfter before b c → NotAfter before a c) :
    ∀ items : List α, sortStable before (items.filter p) = (sortStable before items).filter p
  | [] => rfl
  | x :: xs => by
      have hsorted := sortStable_pairwise before xs total trans
      rw [sortStable]
      by_cases hx : p x
      · rw [List.filter_cons_of_pos hx, sortStable, sortStable_filter p total trans xs,
          filter_insertStable hx trans hsorted]
      · rw [List.filter_cons_of_neg hx, sortStable_filter p total trans xs,
          filter_insertStable_of_not hx]

end

/-- The order of pairs that does not put the first after the second. -/
theorem pairBefore_eq_false_iff {a b : Int × Int} :
    pairBefore b a = false ↔ a.1 < b.1 ∨ (a.1 = b.1 ∧ a.2 ≤ b.2) := by
  simp only [pairBefore, Bool.or_eq_false_iff, decide_eq_false_iff_not, Bool.and_eq_false_iff,
    beq_eq_false_iff_ne]
  omega

/-! ### Stages of a sort -/

section

variable {α : Type} {before : α → α → Bool}

/-- What passes a test is moved in front of the rest; on either side the order stays. -/
def toFront (p : α → Bool) (items : List α) : List α := items.filter p ++ items.filter (!p ·)

/-- First comes what passes a test; what the test does not tell apart is in another order. -/
def frontFirst (p : α → Bool) (before : α → α → Bool) (a b : α) : Bool :=
  if p a = p b then before a b else p a

theorem frontFirst_total (p : α → Bool)
    (total : ∀ a b, NotAfter before a b ∨ NotAfter before b a) (a b : α) :
    NotAfter (frontFirst p before) a b ∨ NotAfter (frontFirst p before) b a := by
  simp only [NotAfter, frontFirst] at total ⊢
  have := total a b
  cases ha : p a <;> cases hb : p b <;> simp [this]

theorem frontFirst_trans (p : α → Bool)
    (trans : ∀ a b c, NotAfter before a b → NotAfter before b c → NotAfter before a c)
    (a b c : α) : NotAfter (frontFirst p before) a b → NotAfter (frontFirst p before) b c →
      NotAfter (frontFirst p before) a c := by
  simp only [NotAfter, frontFirst] at trans ⊢
  have := trans a b c
  cases ha : p a <;> cases hb : p b <;> cases hc : p c <;> simp
  all_goals exact this

/-- An item is put behind what it comes after and in front of what it does not come after. -/
theorem insertStable_append {x : α} {front back : List α} (hf : ∀ y ∈ front, before y x = true) :
    insertStable before x (front ++ back) = front ++ insertStable before x back := by
  induction front with
  | nil => rfl
  | cons y ys ih =>
    obtain ⟨hy, hys⟩ := List.forall_mem_cons.mp hf
    rw [List.cons_append, insertStable, if_pos hy, ih hys, List.cons_append]

/-- An item is put among the first of two lists if the second has nothing that it comes after. -/
theorem insertStable_append_left {x : α} {front back : List α}
    (hb : ∀ y ∈ back, NotAfter before x y) :
    insertStable before x (front ++ back) = insertStable before x front ++ back := by
  induction front with
  | nil => rw [List.nil_append, insertStable_of_forall hb, insertStable, List.singleton_append]
  | cons y ys ih =>
    rw [List.cons_append, insertStable, insertStable, ih]
    split <;> rfl

/-- Insertion does not tell orders apart that agree on the item. -/
theorem insertStable_congr {before' : α → α → Bool} {x : α} {items : List α}
    (h : ∀ y ∈ items, before y x = before' y x) :
    insertStable before x items = insertStable before' x items := by
  induction items with
  | nil => rfl
  | cons y ys ih =>
    obtain ⟨hy, hys⟩ := List.forall_mem_cons.mp h
    rw [insertStable, insertStable, hy, ih hys]

/-- A test that decides before another order can be left to a second stage, which moves to the front
    what passes it. -/
theorem sortStable_frontFirst (p : α → Bool)
    (total : ∀ a b, NotAfter before a b ∨ NotAfter before b a)
    (trans : ∀ a b c, NotAfter before a b → NotAfter before b c → NotAfter before a c) :
    ∀ items : List α, sortStable (frontFirst p before) items = toFront p (sortStable before items)
  | [] => rfl
  | x :: xs => by
      have hsorted := sortStable_pairwise before xs total trans
      rw [sortStable, sortStable_frontFirst p total trans xs, sortStable, toFront, toFront]
      by_cases hx : p x
      · have hnot : ¬ (!p x) = true := by simp [hx]
        have hfront : ∀ y ∈ (sortStable before xs).filter p,
            frontFirst p before y x = before y x := by
          intro y hy
          rw [frontFirst, (List.mem_filter.mp hy).2, hx, if_pos rfl]
        have hback : ∀ y ∈ (sortStable before xs).filter (!p ·),
            NotAfter (frontFirst p before) x y := by
          intro y hy
          have hy : p y = false := by simpa using (List.mem_filter.mp hy).2
          simp [NotAfter, frontFirst, hx, hy]
        rw [insertStable_append_left hback, insertStable_congr hfront,
          filter_insertStable hx trans hsorted, filter_insertStable_of_not (p := (!p ·)) hnot]
      · have hnot : (!p x) = true := by simpa using hx
        have hx : p x = false := by simpa using hx
        have hfront : ∀ y ∈ (sortStable before xs).filter p, frontFirst p before y x = true := by
          intro y hy
          simp [frontFirst, hx, (List.mem_filter.mp hy).2]
        have hback : ∀ y ∈ (sortStable before xs).filter (!p ·),
            frontFirst p before y x = before y x := by
          intro y hy
          have hy : p y = false := by simpa using (List.mem_filter.mp hy).2
          rw [frontFirst, hy, hx, if_pos rfl]
        rw [insertStable_append hfront, insertStable_congr hback,
          filter_insertStable_of_not (by simp [hx]),
          filter_insertStable (p := (!p ·)) hnot trans hsorted]

/-- The stable sort and the library's merge sort agree. -/
theorem sortStable_eq_mergeSort
    (total : ∀ a b, NotAfter before a b ∨ NotAfter before b a)
    (trans : ∀ a b c, NotAfter before a b → NotAfter before b c → NotAfter before a c) :
    ∀ items : List α, sortStable before items = items.mergeSort fun a b => !before b a
  | [] => by rw [sortStable, List.mergeSort_nil]
  | x :: xs => by
      have htrans : ∀ a b c : α, (!before b a) = true → (!before c b) = true →
          (!before c a) = true := by
        simpa only [NotAfter, Bool.not_eq_true'] using trans
      have htotal : ∀ a b : α, (!before b a || !before a b) = true := by
        simpa only [NotAfter, Bool.or_eq_true, Bool.not_eq_true'] using total
      obtain ⟨front, back, hwhole, hparts, hfront⟩ := List.mergeSort_cons htrans htotal x xs
      have hsorted := List.pairwise_mergeSort htrans htotal (x :: xs)
      rw [hwhole] at hsorted
      have hback : ∀ y ∈ back, NotAfter before x y := by
        intro y hy
        have hcons := (List.pairwise_append.mp hsorted).2.1
        simpa [NotAfter] using (List.pairwise_cons.mp hcons).1 y hy
      rw [sortStable, sortStable_eq_mergeSort total trans xs, hparts, hwhole,
        insertStable_append fun y hy => by simpa using hfront y hy, insertStable_of_forall hback]

end

/-- The order of texts is the lexicographic order by code point. -/
theorem textBefore_iff {a b : List Char} : textBefore a b ↔ a < b := by
  have hchar : ∀ c d : Char, c.toNat < d.toNat ↔ c < d := fun _ _ => Iff.rfl
  fun_induction textBefore a b with
  | case1 s => simp
  | case2 c more => simp
  | case3 c as d bs h => simp [List.cons_lt_cons_iff, ← hchar, h]
  | case4 c as d bs h h' =>
    have hne : c ≠ d := fun he => by simp [he] at h'
    simp [List.cons_lt_cons_iff, ← hchar, h, hne]
  | case5 c as d bs h h' ih =>
    have he : c = d := Char.toNat_inj.mp (by omega)
    simp [he, ih]

theorem textBefore_total (a b : List Char) : NotAfter textBefore a b ∨ NotAfter textBefore b a := by
  simp only [NotAfter, ← Bool.not_eq_true, textBefore_iff, List.not_lt]
  exact List.le_total a b

theorem textBefore_trans (a b c : List Char) :
    NotAfter textBefore a b → NotAfter textBefore b c → NotAfter textBefore a c := by
  simp only [NotAfter, ← Bool.not_eq_true, textBefore_iff, List.not_lt]
  exact List.le_trans

end LanguageClient
