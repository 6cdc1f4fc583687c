import Mathlib.Algebra.Group.Int.Defs
import LanguageClient.Message
import LanguageClient.Proofs.Json.Scalar

/-!
Messages survive the wire. A value is read from its written form as it was, with its members in their
order, as far as the reader's limits go: lists and objects may be nested only so deep, and a whole
number may have only so many digits. What goes beyond is a fault, and never another value.

    value                         written                 nesting   longest number
    {"a": [1, null], "b": {}}     {"a":[1,null],"b":{}}   2         1

`reads_of_plain` is the induction over values: for each kind of value, what is read from the front of
a text that starts with its written form.
-/

namespace LanguageClient.Json

/-! ### Values without fractions -/

mutual

/-- Is the value made of null, truth values, whole numbers, texts, lists, and objects with distinct
    keys? -/
def plain : Json → Bool
  | .float _ => false
  | .arr xs => plainItems xs
  | .obj ms => decide (ms.map Prod.fst).Nodup && plainMembers ms
  | _ => true

def plainItems : List Json → Bool
  | [] => true
  | x :: xs => plain x && plainItems xs

def plainMembers : Members → Bool
  | [] => true
  | (_, v) :: ms => plain v && plainMembers ms

end

mutual

/-- How deep lists and objects are nested. -/
def nesting : Json → Nat
  | .arr xs => nestingItems xs + 1
  | .obj ms => nestingMembers ms + 1
  | _ => 0

def nestingItems : List Json → Nat
  | [] => 0
  | x :: xs => max (nesting x) (nestingItems xs)

def nestingMembers : Members → Nat
  | [] => 0
  | (_, v) :: ms => max (nesting v) (nestingMembers ms)

end

mutual

/-- The digits of the longest whole number. -/
def longest : Json → Nat
  | .int n => digitCount n
  | .arr xs => longestItems xs
  | .obj ms => longestMembers ms
  | _ => 0

def longestItems : List Json → Nat
  | [] => 0
  | x :: xs => max (longest x) (longestItems xs)

def longestMembers : Members → Nat
  | [] => 0
  | (_, v) :: ms => max (longest v) (longestMembers ms)

end

mutual

/-- The first place in a value that goes beyond the limits. -/
def fault? : Json → ReadLimits → Option ReadFault
  | .int n, limits => if limits.digits < digitCount n then some (.digits (digitCount n)) else none
  | .arr xs, limits =>
    match limits.nesting with
    | 0 => some (.depth .arr)
    | nesting + 1 => faultItems? xs { limits with nesting }
  | .obj ms, limits =>
    match limits.nesting with
    | 0 => some (.depth .obj)
    | nesting + 1 => faultMembers? ms { limits with nesting }
  | _, _ => none

def faultItems? : List Json → ReadLimits → Option ReadFault
  | [], _ => none
  | x :: xs, limits => (fault? x limits).or (faultItems? xs limits)

def faultMembers? : Members → ReadLimits → Option ReadFault
  | [], _ => none
  | (_, v) :: ms, limits => (fault? v limits).or (faultMembers? ms limits)

end

mutual

/-- A value without a fault is nested no deeper than the limits, and has no longer number. -/
theorem fault?_eq_none_iff : ∀ (v : Json) (limits : ReadLimits),
    v.fault? limits = none ↔ v.nesting ≤ limits.nesting ∧ v.longest ≤ limits.digits
  | .null, _ | .bool _, _ | .float _, _ | .str _, _ => by simp [fault?, nesting, longest]
  | .int n, limits => by simp [fault?, nesting, longest]
  | .arr xs, ⟨0, most⟩ => by simp [fault?, nesting]
  | .arr xs, ⟨depth + 1, most⟩ => by
      simp [fault?, nesting, longest, faultItems?_eq_none_iff xs ⟨depth, most⟩]
  | .obj ms, ⟨0, most⟩ => by simp [fault?, nesting]
  | .obj ms, ⟨depth + 1, most⟩ => by
      simp [fault?, nesting, longest, faultMembers?_eq_none_iff ms ⟨depth, most⟩]

theorem faultItems?_eq_none_iff : ∀ (xs : List Json) (limits : ReadLimits),
    faultItems? xs limits = none ↔
      nestingItems xs ≤ limits.nesting ∧ longestItems xs ≤ limits.digits
  | [], _ => by simp [faultItems?, nestingItems, longestItems]
  | x :: xs, limits => by
      rw [faultItems?, Option.or_eq_none_iff, fault?_eq_none_iff x limits,
        faultItems?_eq_none_iff xs limits, nestingItems, longestItems]
      omega

theorem faultMembers?_eq_none_iff : ∀ (ms : Members) (limits : ReadLimits),
    faultMembers? ms limits = none ↔
      nestingMembers ms ≤ limits.nesting ∧ longestMembers ms ≤ limits.digits
  | [], _ => by simp [faultMembers?, nestingMembers, longestMembers]
  | (_, v) :: ms, limits => by
      rw [faultMembers?, Option.or_eq_none_iff, fault?_eq_none_iff v limits,
        faultMembers?_eq_none_iff ms limits, nestingMembers, longestMembers]
      omega

end

mutual

/-- A fault is never one of the grammar. -/
theorem fault?_ne_grammar : ∀ (v : Json) (limits : ReadLimits), v.fault? limits ≠ some .grammar
  | .null, _ | .bool _, _ | .float _, _ | .str _, _ => by simp [fault?]
  | .int n, limits => by
      rw [fault?]
      split <;> simp
  | .arr _, ⟨0, _⟩ | .obj _, ⟨0, _⟩ => by simp [fault?]
  | .arr xs, ⟨depth + 1, most⟩ => faultItems?_ne_grammar xs ⟨depth, most⟩
  | .obj ms, ⟨depth + 1, most⟩ => faultMembers?_ne_grammar ms ⟨depth, most⟩

theorem faultItems?_ne_grammar : ∀ (xs : List Json) (limits : ReadLimits),
    faultItems? xs limits ≠ some .grammar
  | [], _ => by simp [faultItems?]
  | x :: xs, limits => by
      have hx := fault?_ne_grammar x limits
      have hxs := faultItems?_ne_grammar xs limits
      rw [faultItems?]
      cases h : x.fault? limits with
      | none => exact hxs
      | some fault => rwa [Option.some_or, ← h]

theorem faultMembers?_ne_grammar : ∀ (ms : Members) (limits : ReadLimits),
    faultMembers? ms limits ≠ some .grammar
  | [], _ => by simp [faultMembers?]
  | (_, v) :: ms, limits => by
      have hv := fault?_ne_grammar v limits
      have hms := faultMembers?_ne_grammar ms limits
      rw [faultMembers?]
      cases h : v.fault? limits with
      | none => exact hms
      | some fault => rwa [Option.some_or, ← h]

end

/-! ### Members -/

theorem put_of_not_mem {key : String} {value : Json} : ∀ {ms : Members},
    key ∉ ms.map Prod.fst → Members.put key value ms = ms ++ [(key, value)]
  | [], _ => rfl
  | (k, v) :: ms, h => by
      rw [List.map_cons, List.mem_cons, not_or] at h
      rw [Members.put, if_neg fun heq => h.1 heq.symm, put_of_not_mem h.2, List.cons_append]

/-- Members with distinct keys stay as they are when they are written in turn. -/
theorem ofList_of_nodup {ms : Members} (h : (ms.map Prod.fst).Nodup) : Members.ofList ms = ms := by
  have hfold : ∀ (rest first : Members), ((first ++ rest).map Prod.fst).Nodup →
      rest.foldl (fun ms m => Members.put m.1 m.2 ms) first = first ++ rest := by
    intro rest
    induction rest with
    | nil => simp
    | cons m rest ih =>
      obtain ⟨k, v⟩ := m
      intro first hn
      have hnew : k ∉ first.map Prod.fst := by
        intro hmem
        rw [List.map_append, List.nodup_append] at hn
        exact hn.2.2 k hmem k (by simp) rfl
      have hput : Members.put k v first = first ++ [(k, v)] := put_of_not_mem hnew
      simp only [List.foldl_cons, hput]
      rw [ih (first ++ [(k, v)]) (by simpa using hn), List.append_assoc, List.singleton_append]
  exact hfold ms [] h

/-! ### Reading what was written -/

/-- What is read, unless there is a fault. -/
def found {α : Type} (fault : Option ReadFault) (a : α) (rest : List Char) : ReadResult α :=
  match fault with
  | none => .ok (a, rest)
  | some fault => .error fault

/-- From the front of a text that starts with its written form a value is read, or its first
    fault. -/
def Reads (v : Json) : Prop := ∀ ⦃bound : Nat⦄ ⦃limits : ReadLimits⦄ ⦃rest : List Char⦄,
  v.render.length ≤ bound → AtEnd rest →
    readValue bound limits (v.render ++ rest) = found (v.fault? limits) v rest

/-- The written form of a value starts neither with a blank nor with a closing bracket. -/
theorem exists_render {v : Json} (h : v.plain = true) : ∃ c cs, v.render = c :: cs ∧
    isGap c = false ∧ c ≠ ']' := by
  cases v with
  | null => exact ⟨_, _, rfl, rfl, by decide⟩
  | bool b => cases b <;> exact ⟨_, _, rfl, rfl, by decide⟩
  | int n =>
    cases hs : renderInt n with
    | nil => exact absurd hs (renderInt_ne_nil n)
    | cons c cs =>
      refine ⟨c, cs, hs, ?_⟩
      rcases mem_renderInt (hs ▸ List.mem_cons_self : c ∈ renderInt n) with rfl | hdigit
      · exact ⟨rfl, by decide⟩
      · constructor
        · cases hgap : isGap c with
          | false => rfl
          | true =>
            simp only [isGap, Bool.or_eq_true, beq_iff_eq] at hgap
            rcases hgap with ((rfl | rfl) | rfl) | rfl <;> cases hdigit
        · rintro rfl
          cases hdigit
  | float x => cases h
  | str s => exact ⟨_, _, rfl, rfl, by decide⟩
  | arr xs => cases xs <;> exact ⟨_, _, rfl, rfl, by decide⟩
  | obj ms =>
    cases ms with
    | nil => exact ⟨_, _, rfl, rfl, by decide⟩
    | cons m ms => exact ⟨_, _, rfl, rfl, by decide⟩

theorem skipGap_cons {c : Char} {cs : List Char} (h : isGap c = false) :
    skipGap (c :: cs) = c :: cs := by
  rw [skipGap, List.dropWhile_cons, h]
  rfl

theorem skipGap_render {v : Json} (h : v.plain = true) (rest : List Char) :
    skipGap (v.render ++ rest) = v.render ++ rest := by
  obtain ⟨c, cs, hs, hgap, -⟩ := exists_render h
  rw [hs, List.cons_append, skipGap_cons hgap]

theorem atEnd_renderItems (xs : List Json) (rest : List Char) : AtEnd (renderItems xs ++ rest) := by
  cases xs <;> simp [renderItems, AtEnd]

theorem atEnd_renderMembers (ms : Members) (rest : List Char) :
    AtEnd (renderMembers ms ++ rest) := by
  cases ms <;> simp [renderMembers, AtEnd]

theorem reads_int (n : Int) : Reads (.int n) := by
  intro bound limits rest hb hr
  cases hs : renderInt n with
  | nil => exact absurd hs (renderInt_ne_nil n)
  | cons c cs =>
    have hnumber := readNumber_renderInt limits.digits n hr
    have hhead := mem_renderInt (hs ▸ List.mem_cons_self : c ∈ renderInt n)
    rw [render, hs, List.length_cons] at hb
    obtain ⟨bound, rfl⟩ : ∃ more, bound = more + 1 := ⟨bound - 1, by omega⟩
    rw [hs, List.cons_append] at hnumber
    rw [render, hs, List.cons_append, fault?]
    -- a sign or a digit starts no other kind of value
    unfold readValue
    split <;> rename_i heq
    case h_9 =>
      rw [hnumber]
      split <;> rfl
    all_goals
      rcases hhead with rfl | hdigit
      · simp at heq
      · rw [(List.cons.inj heq).1] at hdigit
        cases hdigit

theorem reads_str (s : String) : Reads (.str s) := by
  intro bound limits rest hb _
  rw [render, renderString, List.length_cons] at hb
  obtain ⟨bound, rfl⟩ : ∃ more, bound = more + 1 := ⟨bound - 1, by omega⟩
  rw [render, renderString, List.cons_append, List.append_assoc, List.singleton_append, readValue,
    readString_escaped, ofGrammar]
  simp [Except.map, fault?, found]

/-- The items of a list are read up to its closing bracket, if each of them is read. -/
theorem readItems_render {x : Json} (hx : Reads x) : ∀ {xs : List Json}, (∀ y ∈ xs, Reads y) →
    (∀ y ∈ xs, y.plain = true) → ∀ {bound : Nat} {limits : ReadLimits} {rest : List Char},
    (x.render ++ renderItems xs).length ≤ bound →
    readItems bound limits (x.render ++ (renderItems xs ++ rest)) =
      found (faultItems? (x :: xs) limits) (x :: xs) rest
  | xs, hxs, hp, bound, limits, rest, hb => by
      have hpos : 0 < (renderItems xs).length := by cases xs <;> simp [renderItems]
      rw [List.length_append] at hb
      obtain ⟨bound, rfl⟩ : ∃ more, bound = more + 1 := ⟨bound - 1, by omega⟩
      rw [readItems, hx (by omega) (atEnd_renderItems xs rest), faultItems?]
      cases x.fault? limits with
      | some fault => rfl
      | none =>
        simp only [found, Option.none_or]
        cases xs with
        | nil => simp [renderItems, skipGap_cons (show isGap ']' = false from rfl), faultItems?]
        | cons y ys =>
          obtain ⟨hy, hys⟩ := List.forall_mem_cons.mp hxs
          obtain ⟨hpy, hpys⟩ := List.forall_mem_cons.mp hp
          have hshort : (y.render ++ renderItems ys).length ≤ bound := by
            simp only [renderItems, List.length_cons] at hb
            omega
          have hrest : readItems bound limits (y.render ++ (renderItems ys ++ rest)) =
              found (faultItems? (y :: ys) limits) (y :: ys) rest :=
            readItems_render hy hys hpys hshort
          simp only [renderItems, List.cons_append, List.append_assoc,
            skipGap_cons (show isGap ',' = false from rfl), skipGap_render hpy, hrest]
          cases faultItems? (y :: ys) limits <;> rfl

/-- The members of an object are read up to its closing brace, if the value of each is read. -/
theorem readMembers_render {key : String} {v : Json} (hv : Reads v) (hpv : v.plain = true) :
    ∀ {ms : Members}, (∀ m ∈ ms, Reads m.2) → (∀ m ∈ ms, m.2.plain = true) →
    ∀ {bound : Nat} {limits : ReadLimits} {rest : List Char},
    (renderString key ++ ':' :: (v.render ++ renderMembers ms)).length ≤ bound →
    readMembers bound limits (renderString key ++ ':' :: (v.render ++ (renderMembers ms ++ rest))) =
      found (faultMembers? ((key, v) :: ms) limits) ((key, v) :: ms) rest
  | ms, hms, hp, bound, limits, rest, hb => by
      simp only [List.length_append, List.length_cons] at hb
      obtain ⟨bound, rfl⟩ : ∃ more, bound = more + 1 := ⟨bound - 1, by omega⟩
      rw [renderString, List.cons_append, List.append_assoc, List.singleton_append, readMembers,
        readString_escaped]
      simp only [skipGap_cons (show isGap ':' = false from rfl), skipGap_render hpv]
      rw [hv (by omega) (atEnd_renderMembers ms rest), faultMembers?]
      cases v.fault? limits with
      | some fault => rfl
      | none =>
        simp only [found, Option.none_or]
        cases ms with
        | nil =>
          simp [renderMembers, skipGap_cons (show isGap '}' = false from rfl), faultMembers?,
            String.ofList_toList]
        | cons m ms =>
          obtain ⟨key', w⟩ := m
          obtain ⟨hw, hms⟩ := List.forall_mem_cons.mp hms
          obtain ⟨hpw, hps⟩ := List.forall_mem_cons.mp hp
          have hshort :
              (renderString key' ++ ':' :: (w.render ++ renderMembers ms)).length ≤ bound := by
            simp only [renderMembers, List.length_append, List.length_cons] at hb ⊢
            omega
          have hrest : readMembers bound limits
              (renderString key' ++ ':' :: (w.render ++ (renderMembers ms ++ rest))) =
                found (faultMembers? ((key', w) :: ms) limits) ((key', w) :: ms) rest :=
            readMembers_render hw hpw hms hps hshort
          have hgap : skipGap (renderString key' ++ ':' :: (w.render ++ (renderMembers ms ++ rest)))
              = renderString key' ++ ':' :: (w.render ++ (renderMembers ms ++ rest)) :=
            skipGap_cons rfl
          simp only [renderMembers, List.cons_append, List.append_assoc,
            skipGap_cons (show isGap ',' = false from rfl), hgap, hrest, String.ofList_toList]
          cases faultMembers? ((key', w) :: ms) limits <;> rfl

theorem plain_of_mem_items : ∀ {xs : List Json}, plainItems xs = true → ∀ x ∈ xs, x.plain = true
  | [], _ => by simp
  | x :: xs, h => by
      rw [plainItems, Bool.and_eq_true] at h
      exact List.forall_mem_cons.mpr ⟨h.1, plain_of_mem_items h.2⟩

theorem plain_of_mem_members : ∀ {ms : Members}, plainMembers ms = true →
    ∀ m ∈ ms, m.2.plain = true
  | [], _ => by simp
  | (_, v) :: ms, h => by
      rw [plainMembers, Bool.and_eq_true] at h
      exact List.forall_mem_cons.mpr ⟨h.1, plain_of_mem_members h.2⟩

theorem reads_arr {xs : List Json} (hxs : ∀ x ∈ xs, Reads x) (hp : plainItems xs = true) :
    Reads (.arr xs) := by
  intro bound limits rest hb _
  obtain ⟨bound, rfl⟩ : ∃ more, bound = more + 1 := by
    refine ⟨bound - 1, ?_⟩
    cases xs <;> simp only [render, List.length_cons] at hb <;> omega
  obtain ⟨depth, most⟩ := limits
  cases depth with
  | zero => cases xs <;> rfl
  | succ depth =>
    cases xs with
    | nil => rfl
    | cons x xs =>
      obtain ⟨hx, hrest⟩ := List.forall_mem_cons.mp hxs
      obtain ⟨hpx, hps⟩ := List.forall_mem_cons.mp (plain_of_mem_items hp)
      rw [render, List.length_cons] at hb
      have hitems : readItems bound ⟨depth, most⟩ (x.render ++ (renderItems xs ++ rest)) =
          found (faultItems? (x :: xs) ⟨depth, most⟩) (x :: xs) rest :=
        readItems_render hx hrest hps (Nat.le_of_succ_le_succ hb)
      obtain ⟨c, cs, hs, hgap, hclose⟩ := exists_render hpx
      rw [render, List.cons_append, List.append_assoc]
      rw [readValue]
      simp only [skipGap_render hpx]
      split
      · rename_i heq
        rw [hs, List.cons_append] at heq
        exact absurd (List.cons.inj heq).1 hclose
      · rw [hitems]
        simp only [fault?]
        cases faultItems? (x :: xs) ⟨depth, most⟩ <;> rfl

theorem reads_obj {ms : Members} (hms : ∀ m ∈ ms, Reads m.2) (hp : plainMembers ms = true)
    (hn : (ms.map Prod.fst).Nodup) : Reads (.obj ms) := by
  intro bound limits rest hb _
  obtain ⟨bound, rfl⟩ : ∃ more, bound = more + 1 := by
    refine ⟨bound - 1, ?_⟩
    cases ms <;> simp only [render, List.length_cons] at hb <;> omega
  obtain ⟨depth, most⟩ := limits
  cases depth with
  | zero => cases ms <;> rfl
  | succ depth =>
    cases ms with
    | nil => rfl
    | cons m ms =>
      obtain ⟨key, v⟩ := m
      obtain ⟨hv, hrest⟩ := List.forall_mem_cons.mp hms
      obtain ⟨hpv, hps⟩ := List.forall_mem_cons.mp (plain_of_mem_members hp)
      rw [render, List.length_cons] at hb
      have hmembers : readMembers bound ⟨depth, most⟩
          (renderString key ++ ':' :: (v.render ++ (renderMembers ms ++ rest))) =
            found (faultMembers? ((key, v) :: ms) ⟨depth, most⟩) ((key, v) :: ms) rest :=
        readMembers_render hv hpv hrest hps (Nat.le_of_succ_le_succ hb)
      have hgap : skipGap (renderString key ++ ':' :: (v.render ++ (renderMembers ms ++ rest)))
          = renderString key ++ ':' :: (v.render ++ (renderMembers ms ++ rest)) :=
        skipGap_cons rfl
      rw [render]
      simp only [List.cons_append, List.append_assoc]
      rw [readValue]
      simp only [hgap]
      split
      · rename_i heq
        cases (List.cons.inj heq).1
      · rw [hmembers]
        simp only [fault?]
        cases hfault : faultMembers? ((key, v) :: ms) ⟨depth, most⟩ with
        | none => simp [found, Except.map, ofList_of_nodup hn]
        | some fault => rfl

mutual

/-- Every value without fractions is read from its written form. -/
theorem reads_of_plain : ∀ {v : Json}, v.plain = true → Reads v
  | .null, _ | .bool true, _ | .bool false, _ => by
      intro bound limits rest hb _
      obtain ⟨bound, rfl⟩ : ∃ more, bound = more + 1 :=
        ⟨bound - 1, by simp only [render, List.length_cons] at hb; omega⟩
      rfl
  | .int n, _ => reads_int n
  | .str s, _ => reads_str s
  | .arr _, h => reads_arr (reads_items h) h
  | .obj ms, h => by
      rw [plain, Bool.and_eq_true, decide_eq_true_eq] at h
      exact reads_obj (reads_members h.2) h.2 h.1

theorem reads_items : ∀ {xs : List Json}, plainItems xs = true → ∀ x ∈ xs, Reads x
  | [], _ => by simp
  | x :: xs, h => by
      rw [plainItems, Bool.and_eq_true] at h
      exact List.forall_mem_cons.mpr ⟨reads_of_plain h.1, reads_items h.2⟩

theorem reads_members : ∀ {ms : Members}, plainMembers ms = true → ∀ m ∈ ms, Reads m.2
  | [], _ => by simp
  | (_, v) :: ms, h => by
      rw [plainMembers, Bool.and_eq_true] at h
      exact List.forall_mem_cons.mpr ⟨reads_of_plain h.1, reads_members h.2⟩

end

mutual

/-- No control character is written. -/
theorem le_toNat_of_mem_render : ∀ {v : Json} {c : Char}, v.plain = true → c ∈ v.render →
    0x20 ≤ c.toNat
  | .null, c, _, hc | .bool true, c, _, hc | .bool false, c, _, hc | .arr [], c, _, hc
  | .obj [], c, _, hc => by
      simp only [render, List.mem_cons, List.not_mem_nil, or_false] at hc
      rcases hc with rfl | rfl | rfl | rfl | rfl <;> decide
  | .int n, c, _, hc => by
      rcases mem_renderInt hc with rfl | hdigit
      · decide
      · exact Nat.le_trans (by decide) (Char.isDigit_iff_toNat.mp hdigit).1
  | .str s, c, _, hc => le_toNat_of_mem_renderString hc
  | .arr (x :: xs), c, h, hc => by
      rw [plain, plainItems, Bool.and_eq_true] at h
      rw [render, List.mem_cons, List.mem_append] at hc
      rcases hc with rfl | hc | hc
      · decide
      · exact le_toNat_of_mem_render h.1 hc
      · exact le_toNat_of_mem_renderItems h.2 hc
  | .obj ((k, v) :: ms), c, h, hc => by
      rw [plain, plainMembers, Bool.and_eq_true, Bool.and_eq_true] at h
      rw [render, List.mem_cons, List.mem_append, List.mem_cons, List.mem_append] at hc
      rcases hc with rfl | hc | rfl | hc | hc
      · decide
      · exact le_toNat_of_mem_renderString hc
      · decide
      · exact le_toNat_of_mem_render h.2.1 hc
      · exact le_toNat_of_mem_renderMembers h.2.2 hc

theorem le_toNat_of_mem_renderItems : ∀ {xs : List Json} {c : Char}, plainItems xs = true →
    c ∈ renderItems xs → 0x20 ≤ c.toNat
  | [], c, _, hc => by
      rw [List.mem_singleton.mp hc]
      decide
  | x :: xs, c, h, hc => by
      rw [plainItems, Bool.and_eq_true] at h
      rw [renderItems, List.mem_cons, List.mem_append] at hc
      rcases hc with rfl | hc | hc
      · decide
      · exact le_toNat_of_mem_render h.1 hc
      · exact le_toNat_of_mem_renderItems h.2 hc

theorem le_toNat_of_mem_renderMembers : ∀ {ms : Members} {c : Char}, plainMembers ms = true →
    c ∈ renderMembers ms → 0x20 ≤ c.toNat
  | [], c, _, hc => by
      rw [List.mem_singleton.mp hc]
      decide
  | (k, v) :: ms, c, h, hc => by
      rw [plainMembers, Bool.and_eq_true] at h
      rw [renderMembers, List.mem_cons, List.mem_append, List.mem_cons, List.mem_append] at hc
      rcases hc with rfl | hc | rfl | hc | hc
      · decide
      · exact le_toNat_of_mem_renderString hc
      · decide
      · exact le_toNat_of_mem_render h.1 hc
      · exact le_toNat_of_mem_renderMembers h.2 hc

end

/-! ### Beyond the limits -/

/-- A list around a list, and so on. -/
def nested : Nat → Json
  | 0 => .arr []
  | n + 1 => .arr [nested n]

end LanguageClient.Json

namespace LanguageClient.Message

end LanguageClient.Message
