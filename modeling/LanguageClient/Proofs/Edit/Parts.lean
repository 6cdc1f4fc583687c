import LanguageClient.Proofs.Document.Weave

/-!
A batch taken apart at an offset. If no change reaches across the offset, those that end up to it come
last from the highest offset down. They work on the text in front of the offset only, all others on the
text behind it.

    text       a b │ c d      changes  [0,1) ↦ XY,  2 ↦ Z,  [2,4) ↦ nothing
    behind           c d      becomes  nothing
    in front   a b            becomes  X Y b Z

What is carried out first must leave the rest its place (`LeavesRoom`). Changes need not be apart for
that: it is enough that no character is covered by two of them.
-/

namespace LanguageClient

namespace Change

/-- No character is covered by both changes. An insertion covers none, wherever it stands. -/
def Disjoint (a b : Change) : Prop := min a.stop b.stop ≤ max a.start b.start

instance : DecidableRel Disjoint := fun a b =>
  inferInstanceAs (Decidable (min a.stop b.stop ≤ max a.start b.start))

/-- What the first change removes, if it removes anything, starts behind the second. -/
def LeavesRoom (a b : Change) : Prop := a.stop = a.start ∨ b.stop ≤ a.start

theorem Disjoint.symm {a b : Change} (h : Disjoint a b) : Disjoint b a := by
  simp only [Disjoint] at h ⊢
  omega

theorem Apart.disjoint {a b : Change} (h : Apart a b) : Disjoint a b := by
  simp only [Apart, Disjoint] at h ⊢
  omega

end Change

/-- From the highest offset down, each change leaves those after it their place. -/
theorem descending_leavesRoom {length : Nat} {changes : List Change}
    (hb : ∀ c ∈ changes, c.inBounds length) (hd : changes.Pairwise Change.Disjoint) :
    (descending changes).Pairwise Change.LeavesRoom := by
  have hperm := sortStable_perm Change.later changes
  have hdisjoint : (descending changes).Pairwise Change.Disjoint :=
    (hperm.pairwise_iff Change.Disjoint.symm).mpr hd
  refine ((descending_sorted changes).and hdisjoint).imp_of_mem ?_
  rintro a b ha hb' ⟨hle, hab⟩
  have hbound := Change.inBounds_iff.mp (hb a (hperm.mem_iff.mp ha))
  rw [Change.notAfter_iff] at hle
  simp only [Change.Disjoint, Change.LeavesRoom] at hab ⊢
  omega

/-! ### The two parts of a batch -/

/-- If no item that fails a test is followed by one that passes it, the items that pass stand in
    front. -/
theorem filter_append_filter_not {α : Type} {q : α → Bool} : ∀ {items : List α},
    items.Pairwise (fun a b => q b → q a) → items.filter q ++ items.filter (!q ·) = items
  | [], _ => rfl
  | a :: rest, h => by
      obtain ⟨ha, hrest⟩ := List.pairwise_cons.mp h
      by_cases hq : q a
      · rw [List.filter_cons_of_pos hq, List.filter_cons_of_neg (by simp [hq]), List.cons_append,
          filter_append_filter_not hrest]
      · have hnone : ∀ b ∈ rest, ¬ q b := fun b hb hqb => hq (ha b hb hqb)
        rw [List.filter_cons_of_neg hq, List.filter_cons_of_pos (by simp [hq]),
          List.filter_eq_nil_iff.mpr hnone, List.filter_eq_self.mpr (by simpa using hnone),
          List.nil_append]

/-- A batch of which what passes a test comes first is sorted in two parts. -/
theorem descending_split {q : Change → Bool} {changes : List Change}
    (h : (descending changes).Pairwise fun a b => q b → q a) :
    descending changes = descending (changes.filter q) ++ descending (changes.filter (!q ·)) := by
  have hfilter (p : Change → Bool) : descending (changes.filter p) = (descending changes).filter p :=
    sortStable_filter p Change.notAfter_total Change.notAfter_trans changes
  rw [hfilter, hfilter, filter_append_filter_not h]

/-- From the highest offset down: what ends behind an offset, and what ends up to it. -/
theorem descending_parts {length : Nat} {changes : List Change} {offset : Int}
    (hb : ∀ c ∈ changes, c.inBounds length)
    (hclear : ∀ c ∈ changes, c.stop ≤ offset ∨ offset ≤ c.start) :
    descending changes = descending (changes.filter (offset < ·.stop)) ++
      descending (changes.filter (·.stop ≤ offset)) := by
  have hperm := sortStable_perm Change.later changes
  have hordered : (descending changes).Pairwise fun a b =>
      decide (offset < b.stop) → decide (offset < a.stop) := by
    refine (descending_sorted changes).imp_of_mem fun {a b} ha hb' hab hq => ?_
    have hbound := Change.inBounds_iff.mp (hb a (hperm.mem_iff.mp ha))
    have hside := hclear b (hperm.mem_iff.mp hb')
    rw [Change.notAfter_iff] at hab
    simp only [decide_eq_true_eq] at hq ⊢
    omega
  have hparts := descending_split hordered
  simp only [← decide_not, Int.not_lt] at hparts
  exact hparts

namespace Change

/-- A change, seen from an offset before it. -/
def back (p : Nat) (c : Change) : Change := { c with start := c.start - p, stop := c.stop - p }

theorem later_back (p : Nat) (a b : Change) : later (a.back p) (b.back p) = later a b := by
  have h : ∀ x y : Change, later (x.back p) (y.back p) = false ↔ later x y = false := by
    intro x y
    have hxy := notAfter_iff (a := y.back p) (b := x.back p)
    have hxy' := notAfter_iff (a := y) (b := x)
    rw [NotAfter] at hxy hxy'
    rw [hxy, hxy']
    simp only [back]
    omega
  rw [Bool.eq_iff_iff, ← Bool.not_eq_false, ← Bool.not_eq_false, h]

theorem descending_map_back (p : Nat) (changes : List Change) :
    descending (changes.map (back p)) = (descending changes).map (back p) :=
  sortStable_map (back p) (later_back p) changes

end Change

/-! ### By how much a text is lengthened -/

/-- By how much a batch lengthens the text. -/
def totalGrowth : List Change → Int
  | [] => 0
  | c :: cs => c.growth + totalGrowth cs

theorem totalGrowth_perm {one other : List Change} (h : one.Perm other) :
    totalGrowth one = totalGrowth other := by
  induction h with
  | nil => rfl
  | cons c _ ih => rw [totalGrowth, totalGrowth, ih]
  | swap c c' cs => simp only [totalGrowth, Int.add_left_comm]
  | trans _ _ ih ih' => exact ih.trans ih'

theorem length_splice {text : List Char} {c : Change} (h : c.inBounds text.length) :
    ((splice text c).length : Int) = text.length + c.growth := by
  have hbound := Change.inBounds_iff.mp h
  simp only [splice, List.length_append, List.length_take, List.length_drop, Change.growth]
  omega

/-- A change that is left its place lies inside the new text too. -/
theorem inBounds_splice {text : List Char} {a b : Change} (ha : a.inBounds text.length)
    (hb : b.inBounds text.length) (h : a.LeavesRoom b) : b.inBounds (splice text a).length := by
  have hlength := length_splice ha
  rw [Change.inBounds_iff] at ha hb ⊢
  simp only [Change.growth, Change.LeavesRoom] at hlength h
  omega

/-- Changes that leave each other their place lengthen the text by what each of them grows it. -/
theorem length_foldl_splice : ∀ {cs : List Change} {text : List Char},
    (∀ c ∈ cs, c.inBounds text.length) → cs.Pairwise Change.LeavesRoom →
    ((cs.foldl splice text).length : Int) = text.length + totalGrowth cs
  | [], _, _, _ => by rw [List.foldl_nil, totalGrowth, Int.add_zero]
  | c :: cs, text, hb, hp => by
      obtain ⟨hc, hcs⟩ := List.forall_mem_cons.mp hb
      obtain ⟨hroom, hrest⟩ := List.pairwise_cons.mp hp
      have hnext : ∀ c' ∈ cs, c'.inBounds (splice text c).length := fun c' hmem =>
        inBounds_splice hc (hcs c' hmem) (hroom c' hmem)
      rw [List.foldl_cons, length_foldl_splice hnext hrest, length_splice hc, totalGrowth,
        Int.add_assoc]

/-- A batch that is carried out lengthens the text by what its changes grow it. -/
theorem length_of_applyChanges {text after : List Char} {changes : List Change}
    (hd : changes.Pairwise Change.Disjoint) (h : applyChanges text changes = .ok after) :
    (after.length : Int) = text.length + totalGrowth changes := by
  obtain ⟨hb, rfl⟩ := inBounds_of_applyChanges h
  have hperm := sortStable_perm Change.later changes
  have hall : ∀ c ∈ descending changes, c.inBounds text.length := fun c hmem =>
    hb c (hperm.mem_iff.mp hmem)
  rw [length_foldl_splice hall (descending_leavesRoom hb hd), descending, totalGrowth_perm hperm]

/-! ### The two parts of a text -/

section

variable {front back : List Char}

/-- A change that lies in front of an offset leaves alone what stands behind it. -/
theorem splice_append_left {c : Change} (h : c.inBounds front.length) :
    splice (front ++ back) c = splice front c ++ back := by
  have hbound := Change.inBounds_iff.mp h
  rw [splice, splice, List.take_append_of_le_length (by omega),
    List.drop_append_of_le_length (by omega)]
  simp only [List.append_assoc]

/-- A change that starts behind an offset leaves alone what stands in front of it. -/
theorem splice_append_right {c : Change} (h : (front.length : Int) ≤ c.start ∧ c.start ≤ c.stop) :
    splice (front ++ back) c = front ++ splice back (c.back front.length) := by
  have hstart : c.start.toNat = front.length + (c.start - front.length).toNat := by omega
  have hstop : c.stop.toNat = front.length + (c.stop - front.length).toNat := by omega
  simp only [splice, Change.back]
  rw [hstart, hstop, List.take_length_add_append, List.drop_length_add_append]
  simp only [List.append_assoc]

theorem foldl_splice_append_left : ∀ {cs : List Change} {front : List Char},
    (∀ c ∈ cs, c.inBounds front.length) → cs.Pairwise Change.LeavesRoom →
    cs.foldl splice (front ++ back) = cs.foldl splice front ++ back
  | [], _, _, _ => rfl
  | c :: cs, front, hb, hp => by
      obtain ⟨hc, hcs⟩ := List.forall_mem_cons.mp hb
      obtain ⟨hroom, hrest⟩ := List.pairwise_cons.mp hp
      have hnext : ∀ c' ∈ cs, c'.inBounds (splice front c).length := fun c' hmem =>
        inBounds_splice hc (hcs c' hmem) (hroom c' hmem)
      rw [List.foldl_cons, List.foldl_cons, splice_append_left hc,
        foldl_splice_append_left hnext hrest]

theorem foldl_splice_append_right : ∀ {cs : List Change} {back : List Char},
    (∀ c ∈ cs, (front.length : Int) ≤ c.start ∧ c.start ≤ c.stop) →
    cs.foldl splice (front ++ back) = front ++ (cs.map (·.back front.length)).foldl splice back
  | [], _, _ => rfl
  | c :: cs, back, h => by
      obtain ⟨hc, hcs⟩ := List.forall_mem_cons.mp h
      rw [List.foldl_cons, splice_append_right hc, foldl_splice_append_right hcs, List.map_cons,
        List.foldl_cons]

end

section

variable {text : List Char} {changes : List Change} {offset : Nat}

/-- What ends up to an offset lies inside the text in front of it. -/
theorem inBounds_take {p : Int} (hb : ∀ c ∈ changes, c.inBounds text.length) :
    ∀ c ∈ changes.filter (·.stop ≤ p), c.inBounds (text.take p.toNat).length := by
  intro c hc
  obtain ⟨hmem, hstop⟩ := List.mem_filter.mp hc
  have hbound := Change.inBounds_iff.mp (hb c hmem)
  rw [decide_eq_true_eq] at hstop
  rw [Change.inBounds_iff, List.length_take]
  omega

/-- What starts from an offset on lies inside the text behind it, seen from there. -/
theorem inBounds_drop (hb : ∀ c ∈ changes, c.inBounds text.length)
    (hfrom : ∀ c ∈ changes, (offset : Int) ≤ c.start) :
    ∀ c ∈ changes.map (·.back offset), c.inBounds (text.drop offset).length := by
  intro c hc
  obtain ⟨moved, hmem, rfl⟩ := List.mem_map.mp hc
  have hbound := Change.inBounds_iff.mp (hb moved hmem)
  have hstart := hfrom moved hmem
  rw [Change.inBounds_iff, List.length_drop]
  simp only [Change.back]
  omega

/-- A batch that starts from an offset on is carried out on the text behind the offset. -/
theorem splice_behind (ho : offset ≤ text.length) (hb : ∀ c ∈ changes, c.inBounds text.length)
    (hfrom : ∀ c ∈ changes, (offset : Int) ≤ c.start) :
    (descending changes).foldl splice text = text.take offset ++
      (descending (changes.map (·.back offset))).foldl splice (text.drop offset) := by
  have hlength : (text.take offset).length = offset := List.length_take_of_le ho
  have hbehind : ∀ c ∈ descending changes,
      ((text.take offset).length : Int) ≤ c.start ∧ c.start ≤ c.stop := by
    intro c hc
    have hmem := (sortStable_perm _ _).mem_iff.mp hc
    have hbound := Change.inBounds_iff.mp (hb c hmem)
    rw [hlength]
    exact ⟨hfrom c hmem, hbound.2.1⟩
  calc (descending changes).foldl splice text
      = (descending changes).foldl splice (text.take offset ++ text.drop offset) := by
        rw [List.take_append_drop]
    _ = _ := by
        rw [foldl_splice_append_right hbehind, hlength, ← Change.descending_map_back]

/-- A batch in front of an offset leaves alone what stands behind the offset. -/
theorem splice_inFront {front back : List Char} (hb : ∀ c ∈ changes, c.inBounds front.length)
    (hd : changes.Pairwise Change.Disjoint) :
    (descending changes).foldl splice (front ++ back) =
      (descending changes).foldl splice front ++ back :=
  foldl_splice_append_left (fun c hc => hb c ((sortStable_perm _ _).mem_iff.mp hc))
    (descending_leavesRoom hb hd)

/-- A batch of which no change reaches across an offset: what ends up to the offset is carried out on
    the text in front of it, all else on the text behind it. -/
theorem splice_parts (ho : offset ≤ text.length) (hb : ∀ c ∈ changes, c.inBounds text.length)
    (hd : changes.Pairwise Change.Disjoint)
    (hclear : ∀ c ∈ changes, c.stop ≤ offset ∨ (offset : Int) ≤ c.start) : ∃ before after,
      applyChanges (text.take offset) (changes.filter (·.stop ≤ (offset : Int))) = .ok before ∧
      applyChanges (text.drop offset)
        ((changes.filter ((offset : Int) < ·.stop)).map (·.back offset)) = .ok after ∧
      (descending changes).foldl splice text = before ++ after := by
  have hlow : ∀ c ∈ changes.filter (·.stop ≤ (offset : Int)), c.inBounds (text.take offset).length :=
    inBounds_take hb
  have hupper : ∀ c ∈ changes.filter ((offset : Int) < ·.stop), c.inBounds text.length := fun c hc =>
    hb c (List.mem_of_mem_filter hc)
  have hfrom : ∀ c ∈ changes.filter ((offset : Int) < ·.stop), (offset : Int) ≤ c.start := by
    intro c hc
    obtain ⟨hmem, hstop⟩ := List.mem_filter.mp hc
    have hside := hclear c hmem
    rw [decide_eq_true_eq] at hstop
    omega
  refine ⟨_, _, applyChanges_eq_ok hlow, applyChanges_eq_ok (inBounds_drop hupper hfrom), ?_⟩
  rw [descending_parts hb hclear, List.foldl_append, splice_behind ho hupper hfrom,
    splice_inFront hlow (hd.filter _)]

end

end LanguageClient
