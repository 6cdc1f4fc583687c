import Mathlib.Data.List.Pairwise
import LanguageClient.Proofs.Document.Batch

/-!
A batch of changes as one replacement. Changes that are apart cut a text into stretches that stay
and stretches that go; the batch keeps the first, and puts what is inserted in place of the second.

    text      a b │ c │ d e f │ g          changes  [2,2) ↦ X,  [2,3) ↦ Y,  [6,7) ↦ nothing
    woven     a b   X   Y  d e f

The code does not work so: it splices one change after the other into a text that has changed
already. `splice_below` is the step that makes the two agree, `applyChanges_eq_woven` the result.
-/

namespace LanguageClient

/-- The first change ends before the second starts. -/
def Change.Before (a b : Change) : Prop := a.stop ≤ b.start

/-- Both changes insert at one offset, and remove nothing. -/
def Change.Collide (a b : Change) : Prop :=
  a.start = a.stop ∧ b.start = b.stop ∧ a.start = b.start

instance : DecidableRel Change.Collide := fun a b =>
  inferInstanceAs (Decidable (a.start = a.stop ∧ b.start = b.stop ∧ a.start = b.start))

theorem Change.Collide.symm {a b : Change} : Collide a b → Collide b a := by
  rintro ⟨ha, hb, hab⟩
  exact ⟨hb, ha, hab.symm⟩

/-- The text from an offset on: up to each change what was there, then what the change inserts, and
    after its end the same for the changes that follow. -/
def woven (text : List Char) (offset : Nat) : List Change → List Char
  | [] => text.drop offset
  | c :: cs =>
    (text.drop offset).take (c.start.toNat - offset) ++ c.insert ++ woven text c.stop.toNat cs

/-! ### Splicing from the highest offset down -/

/-- A change that is spliced into a text whose part up to the change's end is still the old one. -/
theorem splice_below {text rest : List Char} {c : Change} (hc : c.inBounds text.length) :
    splice (text.take c.stop.toNat ++ rest) c = text.take c.start.toNat ++ c.insert ++ rest := by
  obtain ⟨h0, hle, hstop⟩ := Change.inBounds_iff.mp hc
  have hlength : (text.take c.stop.toNat).length = c.stop.toNat := by
    rw [List.length_take]
    omega
  have hstart : c.start.toNat ≤ (text.take c.stop.toNat).length := by omega
  rw [splice, List.take_append_of_le_length hstart, List.take_take, Nat.min_eq_left (by omega),
    List.drop_append_of_le_length hlength.ge, List.drop_of_length_le hlength.le, List.nil_append]

/-- Splicing changes that follow one another, the last one first, weaves them into the text. -/
theorem foldr_splice_eq_woven {text : List Char} : ∀ {ordered : List Change} {offset : Nat},
    (∀ c ∈ ordered, c.inBounds text.length) → ordered.Pairwise Change.Before →
    (∀ c ∈ ordered, offset ≤ c.start.toNat) →
    ordered.foldr (fun c later => splice later c) text =
      text.take offset ++ woven text offset ordered
  | [], offset, _, _, _ => (List.take_append_drop offset text).symm
  | c :: cs, offset, hb, hp, ho => by
      obtain ⟨hbc, hbs⟩ := List.forall_mem_cons.mp hb
      obtain ⟨hpc, hps⟩ := List.pairwise_cons.mp hp
      obtain ⟨hoc, -⟩ := List.forall_mem_cons.mp ho
      have hfrom : ∀ c' ∈ cs, c.stop.toNat ≤ c'.start.toNat := fun c' hc' =>
        Int.toNat_le_toNat (hpc c' hc')
      have hkept : text.take c.start.toNat =
          text.take offset ++ (text.drop offset).take (c.start.toNat - offset) := by
        rw [← List.take_add, Nat.add_sub_cancel' hoc]
      rw [List.foldr_cons, foldr_splice_eq_woven hbs hps hfrom, splice_below hbc, hkept, woven]
      simp only [List.append_assoc]

/-! ### The order of a batch -/

/-- Two orders of one batch in which no change starts before the one in front of it has ended are
    the same order. -/
theorem eq_of_before {length : Nat} {one other : List Change}
    (hb : ∀ c ∈ one, c.inBounds length) (hc : one.Pairwise fun a b => ¬ Change.Collide a b)
    (hperm : one.Perm other) (h : one.Pairwise Change.Before)
    (h' : other.Pairwise Change.Before) : one = other := by
  refine hperm.eq_of_pairwise ?_ h h'
  intro a b ha hb' hab hba
  have hbound := Change.inBounds_iff.mp (hb a ha)
  have hbound' := Change.inBounds_iff.mp (hb b (hperm.mem_iff.mpr hb'))
  -- each ends before the other starts: both are empty, and at one offset
  have hcollide : Change.Collide a b := by
    simp only [Change.Before] at hab hba
    exact ⟨by omega, by omega, by omega⟩
  by_contra hne
  have hsymm : Std.Symm fun a b => ¬ Change.Collide a b := ⟨fun _ _ hn h => hn h.symm⟩
  exact hc.forall ha (hperm.mem_iff.mpr hb') hne hcollide

/-- A batch whose changes are apart has such an order. -/
theorem exists_before {length : Nat} {changes : List Change}
    (hb : ∀ c ∈ changes, c.inBounds length) (ha : changes.Pairwise Change.Apart) :
    (descending changes).reverse.Perm changes ∧
      (descending changes).reverse.Pairwise Change.Before :=
  ⟨(List.reverse_perm _).trans (sortStable_perm Change.later changes),
    List.pairwise_reverse.mpr (descending_pairwise hb ha)⟩

/-! ### The batch -/

/-- A batch is refused exactly when a change of it lies outside the text. -/
theorem applyChanges_eq_error_iff {text : List Char} {changes : List Change} :
    (∃ why, applyChanges text changes = .error (.invalid why)) ↔
      ∃ c ∈ changes, ¬ (0 ≤ c.start ∧ c.start ≤ c.stop ∧ c.stop ≤ text.length) := by
  simp only [← Change.inBounds_iff]
  constructor
  · rintro ⟨why, h⟩
    unfold applyChanges checkBounds at h
    cases hf : changes.find? (fun c => !c.inBounds text.length) with
    | none => simp [hf] at h
    | some c => exact ⟨c, List.mem_of_find?_eq_some hf, by simpa using List.find?_some hf⟩
  · rintro ⟨c, hc, hout⟩
    unfold applyChanges checkBounds
    cases hf : changes.find? (fun c => !c.inBounds text.length) with
    | none => exact absurd (List.find?_eq_none.mp hf c hc) (by simpa using hout)
    | some c' => exact ⟨_, rfl⟩

/-- A batch inside the text is carried out. -/
theorem applyChanges_eq_ok {text : List Char} {changes : List Change}
    (hb : ∀ c ∈ changes, c.inBounds text.length) :
    applyChanges text changes = .ok ((descending changes).foldl splice text) := by
  have hnone : changes.find? (fun c => !c.inBounds text.length) = none := by
    rw [List.find?_eq_none]
    intro c hc
    simp [hb c hc]
  rw [applyChanges, checkBounds, hnone]

/-- A batch inside the text whose changes are apart is woven into the text, the lowest offset
    first. -/
theorem applyChanges_eq_woven_descending {text : List Char} {changes : List Change}
    (hb : ∀ c ∈ changes, c.inBounds text.length) (ha : changes.Pairwise Change.Apart) :
    applyChanges text changes = .ok (woven text 0 (descending changes).reverse) := by
  obtain ⟨hperm, hbefore⟩ := exists_before hb ha
  have hbs : ∀ c ∈ (descending changes).reverse, c.inBounds text.length := fun c hc =>
    hb c (hperm.mem_iff.mp hc)
  have hwoven := foldr_splice_eq_woven hbs hbefore fun c _ => Nat.zero_le c.start.toNat
  rw [List.foldr_reverse, List.take_zero, List.nil_append] at hwoven
  rw [applyChanges_eq_ok hb, ← hwoven]

/-- A batch inside the text whose changes are apart, given in any order: it is woven into the text
    in the order of the offsets. -/
theorem applyChanges_eq_woven {text : List Char} {changes ordered : List Change}
    (hb : ∀ c ∈ changes, c.inBounds text.length) (ha : changes.Pairwise Change.Apart)
    (hc : changes.Pairwise fun a b => ¬ Change.Collide a b)
    (hperm : ordered.Perm changes) (h : ordered.Pairwise Change.Before) :
    applyChanges text changes = .ok (woven text 0 ordered) := by
  obtain ⟨hreverse, hbefore⟩ := exists_before hb ha
  have hbs : ∀ c ∈ ordered, c.inBounds text.length := fun c hc => hb c (hperm.mem_iff.mp hc)
  have hcs : ordered.Pairwise fun a b => ¬ Change.Collide a b :=
    (hperm.pairwise_iff fun hn h => hn h.symm).mpr hc
  obtain rfl : ordered = (descending changes).reverse :=
    eq_of_before hbs hcs (hperm.trans hreverse.symm) h hbefore
  exact applyChanges_eq_woven_descending hb ha

/-- A batch is refused exactly when a change of it lies outside the text. Else, if its changes are
    apart and no two insert at one offset, they have one order in which each ends before the next
    one starts, and the batch, listed in any order, keeps the stretches of the text between them and
    puts what they insert in the place of what they cover. -/
theorem applyChanges_simultaneous (text : List Char) (changes : List Change) :
    ((∃ why, applyChanges text changes = .error (.invalid why)) ↔
      ∃ c ∈ changes, ¬ (0 ≤ c.start ∧ c.start ≤ c.stop ∧ c.stop ≤ text.length)) ∧
    ((∀ c ∈ changes, 0 ≤ c.start ∧ c.start ≤ c.stop ∧ c.stop ≤ text.length) →
      changes.Pairwise Change.Apart → changes.Pairwise (fun a b => ¬ Change.Collide a b) →
      ∃ ordered : List Change, ordered.Perm changes ∧ ordered.Pairwise Change.Before ∧
        ∀ listed : List Change, listed.Perm changes →
          applyChanges text listed = .ok (woven text 0 ordered)) := by
  refine ⟨applyChanges_eq_error_iff, ?_⟩
  intro hb ha hc
  simp only [← Change.inBounds_iff] at hb
  obtain ⟨hreverse, hbefore⟩ := exists_before hb ha
  refine ⟨_, hreverse, hbefore, fun listed hperm => ?_⟩
  refine applyChanges_eq_woven (fun c hc => hb c (hperm.mem_iff.mp hc)) ?_ ?_ ?_ hbefore
  · exact (hperm.pairwise_iff Change.Apart.symm).mpr ha
  · exact (hperm.pairwise_iff fun hn h => hn h.symm).mpr hc
  · exact hreverse.trans hperm.symm

/-- An insertion at the start of a range that is replaced, next to a range that is removed. -/
theorem applyChanges_touching :
    let text := ['a', 'b', 'c', 'd']
    let changes : List Change := [⟨1, 3, ['Y']⟩, ⟨1, 1, ['X']⟩, ⟨3, 4, []⟩]
    (∀ c ∈ changes, 0 ≤ c.start ∧ c.start ≤ c.stop ∧ c.stop ≤ text.length) ∧
      changes.Pairwise Change.Apart ∧ changes.Pairwise (fun a b => ¬ Change.Collide a b) ∧
      ∀ listed : List Change, listed.Perm changes →
        applyChanges text listed = .ok ['a', 'X', 'Y'] := by
  intro text changes
  have hb : ∀ c ∈ changes, 0 ≤ c.start ∧ c.start ≤ c.stop ∧ c.stop ≤ text.length := by decide
  have ha : changes.Pairwise Change.Apart := by decide
  have hc : changes.Pairwise (fun a b => ¬ Change.Collide a b) := by decide
  refine ⟨hb, ha, hc, fun listed hperm => ?_⟩
  obtain ⟨ordered, -, -, hall⟩ := (applyChanges_simultaneous text changes).2 hb ha hc
  have hat : applyChanges text changes = .ok ['a', 'X', 'Y'] := rfl
  rw [hall listed hperm, ← hall changes (.refl changes), hat]

end LanguageClient
