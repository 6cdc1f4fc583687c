import LanguageClient.Json.Basic

/-!
Equality of JSON values, decided. Two values are equal if they are written the same way: an integer is
not equal to a number with a fraction, and the order of members counts.
-/

namespace LanguageClient.Json

mutual

/-- Are two values equal? -/
def eqb : Json → Json → Bool
  | .null, .null => true
  | .bool a, .bool b => a == b
  | .int a, .int b => a == b
  | .float a, .float b => decide (a = b)
  | .str a, .str b => a == b
  | .arr xs, .arr ys => eqbItems xs ys
  | .obj ms, .obj ns => eqbMembers ms ns
  | _, _ => false

/-- Are two lists of values equal? -/
def eqbItems : List Json → List Json → Bool
  | [], [] => true
  | x :: xs, y :: ys => eqb x y && eqbItems xs ys
  | _, _ => false

/-- Are two lists of members equal? -/
def eqbMembers : List (String × Json) → List (String × Json) → Bool
  | [], [] => true
  | (k, x) :: ms, (l, y) :: ns => k == l && eqb x y && eqbMembers ms ns
  | _, _ => false

end

mutual

theorem eqb_refl : ∀ v : Json, eqb v v = true
  | .null => rfl
  | .bool _ | .int _ | .float _ | .str _ => by simp [eqb]
  | .arr xs => eqbItems_refl xs
  | .obj ms => eqbMembers_refl ms

theorem eqbItems_refl : ∀ xs : List Json, eqbItems xs xs = true
  | [] => rfl
  | x :: xs => by simp [eqbItems, eqb_refl x, eqbItems_refl xs]

theorem eqbMembers_refl : ∀ ms : List (String × Json), eqbMembers ms ms = true
  | [] => rfl
  | (_, x) :: ms => by simp [eqbMembers, eqb_refl x, eqbMembers_refl ms]

end

mutual

theorem eq_of_eqb {v w : Json} (h : eqb v w = true) : v = w := by
  cases v with
  | arr xs =>
    cases w with
    | arr ys => exact congrArg Json.arr (eq_of_eqbItems h)
    | _ => cases h
  | obj ms =>
    cases w with
    | obj ns => exact congrArg Json.obj (eq_of_eqbMembers h)
    | _ => cases h
  | _ => cases w <;> simp_all [eqb]

theorem eq_of_eqbItems {xs ys : List Json} (h : eqbItems xs ys = true) : xs = ys := by
  cases xs with
  | nil =>
    cases ys with
    | nil => rfl
    | cons y ys => cases h
  | cons x xs =>
    cases ys with
    | nil => cases h
    | cons y ys =>
      simp only [eqbItems, Bool.and_eq_true] at h
      rw [eq_of_eqb h.1, eq_of_eqbItems h.2]

theorem eq_of_eqbMembers {ms ns : List (String × Json)} (h : eqbMembers ms ns = true) : ms = ns := by
  cases ms with
  | nil =>
    cases ns with
    | nil => rfl
    | cons n ns => cases h
  | cons m ms =>
    cases ns with
    | nil => cases h
    | cons n ns =>
      simp only [eqbMembers, Bool.and_eq_true, beq_iff_eq] at h
      rw [Prod.ext h.1.1 (eq_of_eqb h.1.2), eq_of_eqbMembers h.2]

end

instance : DecidableEq Json := fun v w =>
  decidable_of_iff (eqb v w = true) ⟨eq_of_eqb, fun h => h ▸ eqb_refl v⟩

end LanguageClient.Json
