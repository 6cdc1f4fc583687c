import LanguageClient.Proofs.Edit.Parts
import LanguageClient.Proofs.Edit.Resolution

/-!
Insertions at one position. A batch is sorted from the highest offset down, and changes at one place
keep their order; then each is spliced into the text that the ones before it have made, so the last
of several insertions at one offset comes to stand in front of the others.

    text      x y            edits   0:1 ↦ A,  0:1 ↦ B,  [0:1, 0:2) ↦ Z
    sorted    [1,2) ↦ Z,  1 ↦ A,  1 ↦ B
    spliced   x Z,  x A Z,  x B A Z

`applyEdits_insertions` says so for any edits that are apart.
-/

namespace LanguageClient

namespace Change

/-- Does the change insert at an offset and remove nothing? -/
def insertsAt (p : Nat) (c : Change) : Bool := c.start = p && c.stop = p

/-- Does the change end up to an offset, and is it no insertion there? -/
def below (p : Nat) (c : Change) : Bool := c.stop ≤ p && !c.insertsAt p

/-- Does the change start from an offset on, and is it no insertion there? -/
def above (p : Nat) (c : Change) : Bool := p ≤ c.start && !c.insertsAt p

theorem insertsAt_iff {p : Nat} {c : Change} : c.insertsAt p ↔ c.start = p ∧ c.stop = p := by
  simp [insertsAt]

theorem below_iff {p : Nat} {c : Change} :
    c.below p ↔ c.stop ≤ p ∧ ¬ (c.start = p ∧ c.stop = p) := by
  simp only [below, insertsAt, Bool.and_eq_true, Bool.not_eq_true', decide_eq_true_eq,
    Bool.and_eq_false_iff, decide_eq_false_iff_not]
  omega

theorem above_iff {p : Nat} {c : Change} :
    c.above p ↔ (p : Int) ≤ c.start ∧ ¬ (c.start = p ∧ c.stop = p) := by
  simp only [above, insertsAt, Bool.and_eq_true, Bool.not_eq_true', decide_eq_true_eq,
    Bool.and_eq_false_iff, decide_eq_false_iff_not]
  omega

end Change

/-- Insertions at one offset are in order as they stand. -/
theorem descending_insertsAt {p : Nat} {changes : List Change} (h : ∀ c ∈ changes, c.insertsAt p) :
    descending changes = changes := by
  refine sortStable_eq_self (List.pairwise_of_forall_mem_list fun a ha b hb => ?_)
  have ha := Change.insertsAt_iff.mp (h a ha)
  have hb := Change.insertsAt_iff.mp (h b hb)
  rw [Change.notAfter_iff]
  omega

/-! ### Three parts of a batch -/

section

variable {length p : Nat} {changes : List Change}

/-- No change that is apart from an insertion reaches across it. -/
theorem clear_of_insertsAt (hb : ∀ c ∈ changes, c.inBounds length)
    (ha : changes.Pairwise Change.Apart) (hany : ∃ c ∈ changes, c.insertsAt p) :
    ∀ c ∈ changes, c.stop ≤ p ∨ (p : Int) ≤ c.start := by
  obtain ⟨i, hi, hinserts⟩ := hany
  intro c hc
  have hbound := Change.inBounds_iff.mp (hb c hc)
  have hat := Change.insertsAt_iff.mp hinserts
  by_cases heq : c = i
  · subst heq
    omega
  · have hsymm : Std.Symm Change.Apart := ⟨fun _ _ h => h.symm⟩
    have hap : Change.Apart c i := ha.forall hc hi heq
    simp only [Change.Apart] at hap
    omega

/-- What ends behind an offset that it does not reach across is above the offset. -/
theorem filter_lt_stop (hb : ∀ c ∈ changes, c.inBounds length)
    (hclear : ∀ c ∈ changes, c.stop ≤ p ∨ (p : Int) ≤ c.start) :
    changes.filter ((p : Int) < ·.stop) = changes.filter (·.above p) := by
  refine List.filter_congr fun c hc => ?_
  have hbound := Change.inBounds_iff.mp (hb c hc)
  have hside := hclear c hc
  rw [Bool.eq_iff_iff, Change.above_iff, decide_eq_true_eq]
  omega

/-- Of what ends up to an offset, the insertions there come first, as they stand. -/
theorem descending_upTo (hb : ∀ c ∈ changes, c.inBounds length) :
    descending (changes.filter (·.stop ≤ (p : Int))) =
      changes.filter (·.insertsAt p) ++ descending (changes.filter (·.below p)) := by
  have hordered : (descending (changes.filter (·.stop ≤ (p : Int)))).Pairwise fun a b =>
      b.insertsAt p → a.insertsAt p := by
    refine (descending_sorted _).imp_of_mem fun {a b} ha _ hab hq => ?_
    obtain ⟨hmem, hstop⟩ := List.mem_filter.mp ((sortStable_perm _ _).mem_iff.mp ha)
    have hbound := Change.inBounds_iff.mp (hb a hmem)
    rw [decide_eq_true_eq] at hstop
    rw [Change.notAfter_iff] at hab
    rw [Change.insertsAt_iff] at hq ⊢
    omega
  have hat : (changes.filter (·.stop ≤ (p : Int))).filter (·.insertsAt p) =
      changes.filter (·.insertsAt p) := by
    rw [List.filter_filter]
    refine List.filter_congr fun c _ => ?_
    rw [Bool.eq_iff_iff, Bool.and_eq_true, Change.insertsAt_iff, decide_eq_true_eq]
    omega
  have hbelow : (changes.filter (·.stop ≤ (p : Int))).filter (!·.insertsAt p) =
      changes.filter (·.below p) := by
    rw [List.filter_filter]
    exact List.filter_congr fun c _ => Bool.and_comm _ _
  rw [descending_split hordered, hat, hbelow,
    descending_insertsAt fun c hc => (List.mem_filter.mp hc).2]

/-- Insertions at the end of what stands in front, one after the other. -/
theorem foldl_splice_insertsAt {front : List Char} : ∀ {cs : List Change} {back : List Char},
    (∀ c ∈ cs, c.insertsAt front.length) →
    cs.foldl splice (front ++ back) = front ++ ((cs.map (·.insert)).reverse.flatten ++ back)
  | [], back, _ => by simp
  | c :: cs, back, h => by
      obtain ⟨hc, hcs⟩ := List.forall_mem_cons.mp h
      obtain ⟨hstart, hstop⟩ := Change.insertsAt_iff.mp hc
      have hsplice : splice (front ++ back) c = front ++ (c.insert ++ back) := by
        rw [splice, hstart, hstop, Int.toNat_natCast, List.take_left, List.drop_left,
          List.append_assoc]
      rw [List.foldl_cons, hsplice, foldl_splice_insertsAt hcs, List.map_cons, List.reverse_cons,
        List.flatten_append, List.flatten_singleton, List.append_assoc]

end

/-- A batch with insertions at an offset: the text before the offset with the changes below, what is
    inserted, the last insertion first, and the text after the offset with the changes above. -/
theorem splice_insertions {text : List Char} {changes : List Change} {p : Nat}
    (hb : ∀ c ∈ changes, c.inBounds text.length) (ha : changes.Pairwise Change.Apart)
    (hany : ∃ c ∈ changes, c.insertsAt p) : ∃ before after,
      applyChanges (text.take p) (changes.filter (·.below p)) = .ok before ∧
      applyChanges (text.drop p) ((changes.filter (·.above p)).map (·.back p)) = .ok after ∧
      (descending changes).foldl splice text =
        before ++ ((changes.filter (·.insertsAt p)).map (·.insert)).reverse.flatten ++ after := by
  have hclear := clear_of_insertsAt hb ha hany
  have hp : p ≤ text.length := by
    obtain ⟨i, hi, hinserts⟩ := hany
    have hbound := Change.inBounds_iff.mp (hb i hi)
    have hat := Change.insertsAt_iff.mp hinserts
    omega
  have hlow : ∀ c ∈ changes.filter (·.below p), c.inBounds (text.take p).length := by
    intro c hc
    obtain ⟨hmem, hbelow⟩ := List.mem_filter.mp hc
    exact inBounds_take hb c (List.mem_filter.mpr
      ⟨hmem, decide_eq_true (Change.below_iff.mp hbelow).1⟩)
  have hfrom : ∀ c ∈ changes.filter (·.above p), (p : Int) ≤ c.start := fun c hc =>
    (Change.above_iff.mp (List.mem_filter.mp hc).2).1
  have hupper : ∀ c ∈ changes.filter (·.above p), c.inBounds text.length := fun c hc =>
    hb c (List.mem_of_mem_filter hc)
  have hat : ∀ c ∈ changes.filter (·.insertsAt p), c.insertsAt (text.take p).length := fun c hc =>
    (List.length_take_of_le hp).symm ▸ (List.mem_filter.mp hc).2
  refine ⟨_, _, applyChanges_eq_ok hlow, applyChanges_eq_ok (inBounds_drop hupper hfrom), ?_⟩
  rw [descending_parts hb hclear, filter_lt_stop hb hclear, List.foldl_append,
    splice_behind hp hupper hfrom, descending_upTo hb, List.foldl_append, foldl_splice_insertsAt hat,
    splice_inFront hlow ((ha.imp Change.Apart.disjoint).filter _), ← List.append_assoc]

/-! ### The edits of a desk -/

/-- Edits that are apart, with insertions at one position among them: all of them are carried out,
    and what is inserted there stands between what the other edits make of the text before the
    position and of the text after it. It stands in the reverse of the order of the edits; it reads
    as it would in their order only if that makes no difference. -/
theorem applyEdits_insertions {d : Desk} {edits : List Json} {ts : List TextEdit} {pos : Position}
    {p : Nat} (hr : d.view.rejection = none) (hts : edits.mapM TextEdit.ofJson? = some ts)
    (hp : (Buffer.mk d.view.text).offset? pos = some p)
    (hany : ∃ t ∈ ts, t.start = pos ∧ t.stop = pos)
    (ha : (TextEdit.changes d.view.text ts).Pairwise Change.Apart) :
    ∃ before after : List Char,
      let changes := TextEdit.changes d.view.text ts
      let inserted := (changes.filter (·.insertsAt p)).map (·.insert)
      let done := Desk.editor.applyEdits edits d
      applyChanges (d.view.text.take p) (changes.filter (·.below p)) = .ok before ∧
        applyChanges (d.view.text.drop p) ((changes.filter (·.above p)).map (·.back p)) = .ok after ∧
        done.1 = .ok true ∧
        done.2.view.text = before ++ inserted.reverse.flatten ++ after ∧
        (done.2.view.text = before ++ inserted.flatten ++ after ↔
          inserted.reverse.flatten = inserted.flatten) := by
  have hne : ts ≠ [] := by
    rintro rfl
    simp at hany
  have hinserts : ∃ c ∈ TextEdit.changes d.view.text ts, c.insertsAt p := by
    obtain ⟨t, ht, hstart, hstop⟩ := hany
    refine ⟨_, List.mem_map_of_mem ht, Change.insertsAt_iff.mpr ?_⟩
    simp [TextEdit.change, hstart, hstop, Buffer.offsetOrZero, hp]
  obtain ⟨before, after, hbefore, hafter, htext⟩ :=
    splice_insertions (TextEdit.inBounds_of_mem_changes _ _) ha hinserts
  refine ⟨before, after, hbefore, hafter, ?_⟩
  rw [Desk.applyEdits_eq hr hts, if_neg hne]
  refine ⟨rfl, htext, ?_⟩
  simp only [Desk.after, htext, List.append_assoc, List.append_cancel_left_eq,
    List.append_cancel_right_eq]

/-- Two insertions in front of a character that is replaced. -/
theorem applyEdits_between :
    let text := ['x', 'y']
    let ts : List TextEdit :=
      [⟨⟨0, 1⟩, ⟨0, 1⟩, ['a']⟩, ⟨⟨0, 1⟩, ⟨0, 2⟩, ['c']⟩, ⟨⟨0, 1⟩, ⟨0, 1⟩, ['b']⟩]
    (∃ t ∈ ts, t.start = ⟨0, 1⟩ ∧ t.stop = ⟨0, 1⟩) ∧
      (TextEdit.changes text ts).Pairwise Change.Apart ∧
      (Desk.editor.applyEdits (ts.map TextEdit.toJson) { view := { text } }).2.view.text =
        ['x', 'b', 'a', 'c'] := by
  intro text ts
  have hany : ∃ t ∈ ts, t.start = ⟨0, 1⟩ ∧ t.stop = ⟨0, 1⟩ := by decide
  have ha : (TextEdit.changes text ts).Pairwise Change.Apart := by decide
  have hp : (Buffer.mk text).offset? ⟨0, 1⟩ = some 1 := by decide
  obtain ⟨before, after, hbefore, hafter, -, htext, -⟩ :=
    applyEdits_insertions (d := { view := { text } }) rfl (TextEdit.mapM_ofJson?_toJson ts) hp hany ha
  obtain rfl : ['x'] = before := Except.ok.inj hbefore
  obtain rfl : ['c'] = after := Except.ok.inj hafter
  exact ⟨hany, ha, htext⟩

/-- Two insertions into an empty document, which has one place for them. -/
theorem applyEdits_reversed :
    let ts : List TextEdit := [⟨⟨0, 0⟩, ⟨0, 0⟩, ['a']⟩, ⟨⟨0, 0⟩, ⟨0, 0⟩, ['b']⟩]
    (Desk.editor.applyEdits (ts.map TextEdit.toJson) {}).2.view.text = ['b', 'a'] ∧
      ts.flatMap (·.newText) = ['a', 'b'] := by
  intro ts
  rw [Desk.applyEdits_eq rfl (TextEdit.mapM_ofJson?_toJson ts), if_neg (by decide)]
  exact ⟨rfl, rfl⟩

end LanguageClient
