import LanguageClient.Proofs.Edit.Parts

/-!
Where a batch leaves an offset. The code adds up what the changes that end up to the offset lengthen
the text by, in whatever order they come; the text itself is made by splicing from the highest offset
down. The two agree, since the changes up to the offset are spliced into the text before it and into
nothing else.

    text      a b c d e      changes  [0,1) ↦ nothing,  2 ↦ XY,  [4,5) ↦ Z
    before 2  a b            becomes  b X Y        2 + (0 - 1) + (2 - 0) = 3

`shiftOffset_between` says so for any offset that no change reaches across. `splice_around` takes a batch
apart at one of its changes.
-/

namespace LanguageClient

/-- An offset is shifted by what the changes that end up to it lengthen the text by. -/
theorem shiftOffset_eq (offset : Int) (changes : List Change) :
    shiftOffset offset changes = offset + totalGrowth (changes.filter (·.stop ≤ offset)) := by
  have h : ∀ (cs : List Change) (at' : Int),
      cs.foldl (fun at' c => if c.stop ≤ offset then at' + c.growth else at') at' =
        at' + totalGrowth (cs.filter (·.stop ≤ offset)) := by
    intro cs
    induction cs with
    | nil => simp [totalGrowth]
    | cons c cs ih =>
      intro at'
      rw [List.foldl_cons, ih, List.filter_cons]
      by_cases hc : c.stop ≤ offset
      · simp only [hc, if_true, decide_true, totalGrowth]
        omega
      · simp only [hc, if_false, decide_false, Bool.false_eq_true]
  exact h changes offset

/-- An offset is shifted alike by a batch in any order. -/
theorem shiftOffset_perm {one other : List Change} (offset : Int) (h : one.Perm other) :
    shiftOffset offset one = shiftOffset offset other := by
  rw [shiftOffset_eq, shiftOffset_eq, totalGrowth_perm (h.filter _)]

/-- Changes up to an offset turn the text before it into one that ends where the offset is shifted
    to. -/
theorem length_eq_shiftOffset {text before : List Char} {changes : List Change} {p : Int}
    (hp : 0 ≤ p ∧ p ≤ text.length) (hd : changes.Pairwise Change.Disjoint)
    (h : applyChanges (text.take p.toNat) (changes.filter (·.stop ≤ p)) = .ok before) :
    (before.length : Int) = shiftOffset p changes := by
  rw [length_of_applyChanges (hd.filter _) h, shiftOffset_eq, List.length_take]
  omega

/-- An offset that no change of a batch reaches across is shifted to the end of what the changes up to
    it make of the text before it; behind that stands what all other changes make of the text after it.
    In whatever order the batch is listed, the offset is shifted alike. -/
theorem shiftOffset_between {text : List Char} {changes : List Change} {offset : Nat}
    (ho : offset ≤ text.length) (hb : ∀ c ∈ changes, c.inBounds text.length)
    (hd : changes.Pairwise Change.Disjoint)
    (hclear : ∀ c ∈ changes, c.stop ≤ offset ∨ (offset : Int) ≤ c.start) : ∃ before after,
      applyChanges (text.take offset) (changes.filter (·.stop ≤ (offset : Int))) = .ok before ∧
      applyChanges (text.drop offset)
        ((changes.filter ((offset : Int) < ·.stop)).map (·.back offset)) = .ok after ∧
      applyChanges text changes = .ok (before ++ after) ∧
      shiftOffset offset changes = before.length ∧
      ∀ listed : List Change, listed.Perm changes →
        shiftOffset offset listed = shiftOffset offset changes := by
  obtain ⟨before, after, hbefore, hafter, hwhole⟩ := splice_parts ho hb hd hclear
  have hinside : 0 ≤ (offset : Int) ∧ (offset : Int) ≤ text.length := by omega
  refine ⟨before, after, hbefore, hafter, ?_, ?_, fun listed h => shiftOffset_perm offset h⟩
  · rw [applyChanges_eq_ok hb, hwhole]
  · exact (length_eq_shiftOffset hinside hd hbefore).symm

/-- An insertion at the offset, a range that starts there, and one before it. -/
theorem shiftOffset_between_touching :
    let text := ['a', 'b', 'c', 'd']
    let changes : List Change := [⟨2, 4, ['W']⟩, ⟨2, 2, ['Z']⟩, ⟨0, 1, ['X', 'Y']⟩]
    (∀ c ∈ changes, c.inBounds text.length) ∧ changes.Pairwise Change.Disjoint ∧
      (∀ c ∈ changes, c.stop ≤ (2 : Nat) ∨ ((2 : Nat) : Int) ≤ c.start) ∧
      applyChanges text changes = .ok (['X', 'Y', 'b', 'Z'] ++ ['W']) ∧
      shiftOffset 2 changes = 4 ∧ shiftOffset 2 changes.reverse = 4 := by
  intro text changes
  have ho : 2 ≤ text.length := by decide
  have hb : ∀ c ∈ changes, c.inBounds text.length := by decide
  have hd : changes.Pairwise Change.Disjoint := by decide
  have hclear : ∀ c ∈ changes, c.stop ≤ (2 : Nat) ∨ ((2 : Nat) : Int) ≤ c.start := by decide
  obtain ⟨before, after, hbefore, hafter, hwhole, hshift, horder⟩ :=
    shiftOffset_between ho hb hd hclear
  obtain rfl : ['X', 'Y', 'b', 'Z'] = before := Except.ok.inj hbefore
  obtain rfl : ['W'] = after := Except.ok.inj hafter
  exact ⟨hb, hd, hclear, hwhole, hshift, (horder _ (List.reverse_perm changes)).trans hshift⟩

/-! ### Around one change -/

section

variable {length : Nat} {main : Change} {extra : List Change}

/-- From the highest offset down: what follows a change, the change, and what ends up to its
    start. -/
theorem descending_around (hb : ∀ c ∈ main :: extra, c.inBounds length)
    (ha : (main :: extra).Pairwise Change.Apart) :
    descending (main :: extra) =
      descending (extra.filter (main.start < ·.stop)) ++
        main :: descending (extra.filter (·.stop ≤ main.start)) := by
  obtain ⟨hbm, hbe⟩ := List.forall_mem_cons.mp hb
  obtain ⟨ham, hae⟩ := List.pairwise_cons.mp ha
  have hmain := Change.inBounds_iff.mp hbm
  have hclear : ∀ c ∈ extra, c.stop ≤ main.start ∨ main.start ≤ c.start := by
    intro c hc
    have hapart := ham c hc
    simp only [Change.Apart] at hapart
    omega
  -- a change that starts with the main one and follows it ends later, so it is sorted before it
  have hhigh : ∀ c ∈ descending (extra.filter (main.start < ·.stop)),
      Change.later c main = true := by
    intro c hc
    obtain ⟨hmem, hq⟩ := List.mem_filter.mp ((sortStable_perm _ _).mem_iff.mp hc)
    have hbound := Change.inBounds_iff.mp (hbe c hmem)
    have hapart := ham c hmem
    have hnot := Change.notAfter_iff (a := main) (b := c)
    simp only [decide_eq_true_eq, Change.Apart] at hq hapart
    rw [NotAfter, ← Bool.not_eq_true] at hnot
    by_contra hlater
    have := hnot.mp hlater
    omega
  have hlow : ∀ c ∈ descending (extra.filter (·.stop ≤ main.start)),
      NotAfter Change.later main c := by
    intro c hc
    obtain ⟨hmem, hq⟩ := List.mem_filter.mp ((sortStable_perm _ _).mem_iff.mp hc)
    have hbound := Change.inBounds_iff.mp (hbe c hmem)
    rw [decide_eq_true_eq] at hq
    rw [Change.notAfter_iff]
    omega
  rw [descending, sortStable, ← descending, descending_parts hbe hclear, insertStable_append hhigh,
    insertStable_of_forall hlow]

end

/-- A batch seen from one of its changes: in front of what it inserts stands the text before it with
    the changes that end up to its start, and behind it the text after it with all others. What is
    inserted starts where its offset is shifted to. -/
theorem splice_around {text : List Char} {main : Change} {extra : List Change}
    (hb : ∀ c ∈ main :: extra, c.inBounds text.length)
    (ha : (main :: extra).Pairwise Change.Apart) : ∃ before after,
      applyChanges (text.take main.start.toNat) (extra.filter (·.stop ≤ main.start)) = .ok before ∧
      applyChanges (text.drop main.stop.toNat)
        ((extra.filter (main.start < ·.stop)).map (·.back main.stop.toNat)) = .ok after ∧
      (descending (main :: extra)).foldl splice text = before ++ main.insert ++ after ∧
      (before.length : Int) = shiftOffset main.start extra := by
  obtain ⟨hbm, hbe⟩ := List.forall_mem_cons.mp hb
  obtain ⟨ham, hae⟩ := List.pairwise_cons.mp ha
  obtain ⟨hzero, hle, hlength⟩ := Change.inBounds_iff.mp hbm
  have hde := hae.imp Change.Apart.disjoint
  have hlow : ∀ c ∈ extra.filter (·.stop ≤ main.start),
      c.inBounds (text.take main.start.toNat).length := inBounds_take hbe
  have hfrom : ∀ c ∈ extra.filter (main.start < ·.stop), (main.stop.toNat : Int) ≤ c.start := by
    intro c hc
    obtain ⟨hmem, hstop⟩ := List.mem_filter.mp hc
    have hapart := ham c hmem
    simp only [decide_eq_true_eq, Change.Apart] at hstop hapart
    omega
  have hupper : ∀ c ∈ extra.filter (main.start < ·.stop), c.inBounds text.length := fun c hc =>
    hbe c (List.mem_of_mem_filter hc)
  have hbefore := applyChanges_eq_ok hlow
  refine ⟨_, _, hbefore, applyChanges_eq_ok (inBounds_drop hupper hfrom), ?_,
    length_eq_shiftOffset (by omega) hde hbefore⟩
  rw [descending_around hb ha, List.foldl_append, List.foldl_cons,
    splice_behind (by omega) hupper hfrom, splice_below hbm, List.append_assoc,
    splice_inFront hlow (hde.filter _), ← List.append_assoc]

end LanguageClient
