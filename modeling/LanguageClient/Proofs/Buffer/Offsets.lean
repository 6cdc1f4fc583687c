import LanguageClient.Proofs.Buffer.Lines

/-!
Positions and offsets are two names for one thing. A position on a line leads to an offset of that
line, and the offset leads back to it; an offset leads to a position, and only inside a CR LF does that
position lead nowhere. The order is the same on both sides, as a line ends before the next one starts.

    text       a   ␍   ␊   b
    offset     0   1   2   3   4
    position  0:0 0:1 0:2 1:0 1:1       0:2 leads nowhere, 2:0 and all after it to 4

`position_offset?` and `compare_offset?` are the two statements.
-/

namespace LanguageClient.Buffer

variable {b : Buffer} {i j offset : Nat} {s t : LineSpan} {p q : Position}

/-! ### Lines stand apart -/

theorem pairwise_lineSpans (start at' : Nat) (text : List Char) :
    (lineSpans start at' text).Pairwise fun s t => s.stop < t.start := by
  fun_induction lineSpans start at' text with
  | case1 => exact List.pairwise_singleton _ _
  | case2 start at' rest ih | case3 start at' c rest hne hc ih =>
    refine List.pairwise_cons.mpr ⟨fun t ht => ?_, ih⟩
    have hstart := le_start_of_mem_lineSpans (Nat.le_refl _) t ht
    simp only
    omega
  | case4 _ _ _ _ _ _ ih => exact ih

theorem stop_lt_start (hs : b.lines[i]? = some s) (ht : b.lines[j]? = some t) (h : i < j) :
    s.stop < t.start := by
  obtain ⟨hi, rfl⟩ := List.getElem?_eq_some_iff.mp hs
  obtain ⟨hj, rfl⟩ := List.getElem?_eq_some_iff.mp ht
  exact List.pairwise_iff_getElem.mp (pairwise_lineSpans 0 0 b.text) i j hi hj h

theorem start_le_stop (hs : b.lines[i]? = some s) : s.start ≤ s.stop :=
  start_le_stop_of_mem_lineSpans (Nat.le_refl 0) s (List.mem_of_getElem? hs)

theorem stop_le_length (hs : b.lines[i]? = some s) : s.stop ≤ b.length := by
  have h := stop_le_of_mem_lineSpans s (List.mem_of_getElem? hs)
  rwa [Nat.zero_add] at h

/-! ### The line of an offset, and its position -/

/-- An offset that stands on a line, its end included, is held by it. -/
theorem holds_of_le_stop (hs : b.lines[i]? = some s) (hle : s.start ≤ offset)
    (hstop : offset ≤ s.stop) : b.Holds offset i :=
  ⟨s, hs, hle, fun _ hnext => Nat.lt_of_le_of_lt hstop (stop_lt_start hs hnext (Nat.lt_succ_self i))⟩

/-- The line that holds an offset gives its position. -/
theorem position_of_holds (ho : offset ≤ b.length) (h : b.Holds offset i)
    (hs : b.lines[i]? = some s) : b.position offset = .ok ⟨i, (offset : Int) - s.start⟩ := by
  obtain ⟨span, before, after, hl⟩ := exists_located ho
  obtain rfl := (holds_iff_of_located hl i).mp h
  obtain rfl : span = s := Option.some.inj (hl.getElem?.symm.trans hs)
  exact position_of_located ho hl

theorem exists_holds (ho : offset ≤ b.length) : ∃ i, b.Holds offset i := by
  obtain ⟨span, before, after, h⟩ := exists_located ho
  exact ⟨_, (holds_iff_of_located h _).mpr rfl⟩

/-- A later offset is not on an earlier line. -/
theorem Holds.mono {offset' : Nat} (h : b.Holds offset i) (h' : b.Holds offset' j)
    (hle : offset ≤ offset') : i ≤ j := by
  obtain ⟨s, hs, hstart, -⟩ := h
  obtain ⟨t, -, -, hnext⟩ := h'
  by_contra hlt
  have hi := (List.getElem?_eq_some_iff.mp hs).1
  have hj : j + 1 < b.lines.length := by omega
  have hafter := hnext _ (List.getElem?_eq_getElem hj)
  -- the line after the one that holds the later offset starts no later than the earlier one
  rcases Nat.lt_or_eq_of_le (show j + 1 ≤ i by omega) with hlt' | rfl
  · have hapart := stop_lt_start (List.getElem?_eq_getElem hj) hs hlt'
    have hline := start_le_stop (List.getElem?_eq_getElem hj)
    omega
  · obtain rfl : _ = s := Option.some.inj ((List.getElem?_eq_getElem hj).symm.trans hs)
    omega

/-! ### The offset of a position -/

/-- A position leads to an offset of its line, or past the last line to the end of the document. -/
theorem offset?_eq_some_iff : b.offset? p = some offset ↔
    (∃ (i : Nat) (s : LineSpan), p.line = i ∧ b.lines[i]? = some s ∧ 0 ≤ p.character ∧
      s.start + p.character = offset ∧ offset ≤ s.stop) ∨
    ((b.lineCount : Int) ≤ p.line ∧ p.character = 0 ∧ offset = b.length) := by
  unfold offset?
  constructor
  · intro h
    split at h
    · cases h
    · rename_i hneg
      split at h
      · rename_i hnone
        split at h
        · rename_i hzero
          have hpast := List.getElem?_eq_none_iff.mp hnone
          rw [← lineCount] at hpast
          exact .inr ⟨by omega, hzero, (Option.some.inj h).symm⟩
        · cases h
      · rename_i s hs
        split at h
        · cases h
        · have ho := Option.some.inj h
          exact .inl ⟨_, s, by omega, hs, by omega, by omega, by omega⟩
  · rintro (⟨i, s, hi, hs, hc, ho, hle⟩ | ⟨hpast, hc, rfl⟩)
    · have hneg : ¬ (p.line < 0 ∨ p.character < 0) := by omega
      have hstop : ¬ (s.stop : Int) < s.start + p.character := by omega
      rw [if_neg hneg, hi, Int.toNat_natCast, hs]
      simp only [if_neg hstop, Option.some.injEq]
      omega
    · have hneg : ¬ (p.line < 0 ∨ p.character < 0) := by omega
      have hnone : b.lines[p.line.toNat]? = none := by
        rw [List.getElem?_eq_none_iff, ← lineCount]
        omega
      rw [if_neg hneg, hnone]
      exact if_pos hc

/-- A position on a line leads to an offset that the line holds, and that leads back to it. -/
theorem position_of_offset? (h : b.offset? p = some offset) (hp : p.line < b.lineCount) :
    b.position offset = .ok p ∧ ∃ s, b.line p.line = .ok s ∧ s.start ≤ offset ∧ offset ≤ s.stop := by
  rcases offset?_eq_some_iff.mp h with ⟨i, s, hi, hs, hc, ho, hle⟩ | ⟨hpast, _⟩
  · have hstart : s.start ≤ offset := by omega
    have hoffset := Nat.le_trans hle (stop_le_length hs)
    have hline := line_of_getElem? hs
    refine ⟨?_, s, by rw [hi, hline], hstart, hle⟩
    rw [position_of_holds hoffset (holds_of_le_stop hs hstart hle) hs]
    obtain ⟨line, character⟩ := p
    simp only [Except.ok.injEq, Position.mk.injEq]
    exact ⟨hi.symm, by simp only at ho; omega⟩
  · omega

/-- The position of an offset inside a CR LF is past the end of its line. -/
theorem offset?_of_insideBreak (ho : offset ≤ b.length) (hi : InsideBreak b.text offset)
    (hp : b.position offset = .ok p) : b.offset? p = none := by
  match offset, hi with
  | i + 1, hi =>
    have ho' := Nat.le_of_succ_le ho
    obtain ⟨q, hq⟩ := exists_position ho'
    obtain rfl : _ = p := Except.ok.inj ((position_succ_of_inside ho hi hq).symm.trans hp)
    exact offset?_succ_of_breakAt ho' (not_insideBreak_of_breakAt hi.1) (.inl hi.1) hq

/-- An offset has a position exactly when it lies in the document. The position leads back to the
    offset, except inside a CR LF, where it leads nowhere; and a position on a line that leads to an
    offset is the position of that offset, which stands on the line. -/
theorem position_offset? (b : Buffer) :
    (∀ o : Int, (∃ message, b.position o = .error (.invalid message)) ↔
      o < 0 ∨ (b.length : Int) < o) ∧
    (∀ o : Nat, o ≤ b.length → ∃ p, b.position o = .ok p ∧
      b.offset? p = if InsideBreak b.text o then none else some o) ∧
    (∀ (p : Position) (o : Nat), p.line < b.lineCount → b.offset? p = some o →
      b.position o = .ok p ∧ ∃ start stop, b.lineStart p.line = .ok start ∧
        b.lineEnd p.line = .ok stop ∧ start ≤ o ∧ o ≤ stop) := by
  refine ⟨fun o => ?_, fun o ho => ?_, fun p o hp h => ?_⟩
  · unfold position
    split
    · rename_i hout
      exact ⟨fun _ => hout, fun _ => ⟨_, rfl⟩⟩
    · rename_i hin
      simp [hin]
  · obtain ⟨p, hp⟩ := exists_position ho
    refine ⟨p, hp, ?_⟩
    split
    · rename_i hi
      exact offset?_of_insideBreak ho hi hp
    · rename_i hi
      exact offset?_position ho hi hp
  · obtain ⟨hback, s, hline, hstart, hstop⟩ := position_of_offset? h hp
    exact ⟨hback, s.start, s.stop, by rw [lineStart, hline]; rfl, by rw [lineEnd, hline]; rfl,
      hstart, hstop⟩

/-- An offset outside the document, one inside a CR LF, and a position that leads to an offset. -/
theorem position_offset?_crlf :
    let b : Buffer := ⟨['a', '\r', '\n', 'b']⟩
    (∃ message, b.position 5 = .error (.invalid message)) ∧
      (∃ p, b.position 2 = .ok p ∧ b.offset? p = none) ∧
      b.offset? ⟨1, 1⟩ = some 4 ∧ b.position 4 = .ok ⟨1, 1⟩ := by
  intro b
  obtain ⟨hout, hto, hfrom⟩ := position_offset? b
  obtain ⟨p, hp, hback⟩ := hto 2 (by decide)
  rw [if_pos (by decide)] at hback
  exact ⟨(hout 5).mpr (.inr (by decide)), ⟨p, hp, hback⟩, by decide, (hfrom ⟨1, 1⟩ 4 (by decide) (by decide)).1⟩

/-! ### The two orders -/

/-- Of two offsets the earlier one has the earlier position. -/
theorem compare_position {m n : Nat} (h : m < n) (hn : n ≤ b.length) :
    ∃ p q, b.position m = .ok p ∧ b.position n = .ok q ∧ p.compare q < 0 := by
  have hm : m ≤ b.length := by omega
  obtain ⟨i, hi⟩ := exists_holds hm
  obtain ⟨j, hj⟩ := exists_holds hn
  obtain ⟨s, hs, -⟩ := id hi
  obtain ⟨t, ht, -⟩ := id hj
  refine ⟨_, _, position_of_holds hm hi hs, position_of_holds hn hj ht, ?_⟩
  have hle := hi.mono hj (Nat.le_of_lt h)
  unfold Position.compare
  simp only
  split
  · omega
  · rename_i heq
    obtain rfl : i = j := by omega
    obtain rfl : s = t := Option.some.inj (hs.symm.trans ht)
    omega

/-- Of two positions that lead to offsets the earlier one leads to the earlier offset. Only past the
    last line do different positions lead to the same one, the end of the document. -/
theorem offset_le_of_compare {m n : Nat} (hp : b.offset? p = some m) (hq : b.offset? q = some n)
    (h : p.compare q ≤ 0) : m ≤ n ∧
      (p.compare q < 0 → p.line < b.lineCount → q.line < b.lineCount → m < n) := by
  have hm := offset?_le_length hp
  unfold Position.compare at h ⊢
  rcases offset?_eq_some_iff.mp hp with ⟨i, s, hi, hs, -, hs', hle⟩ | ⟨hpast, hc, rfl⟩
  · rcases offset?_eq_some_iff.mp hq with ⟨j, t, hj, ht, hc', ht', -⟩ | ⟨hpast', -, rfl⟩
    · by_cases heq : i = j
      · subst heq
        obtain rfl : s = t := Option.some.inj (hs.symm.trans ht)
        rw [hi, hj] at h ⊢
        simp only [ne_eq, not_true, if_false] at h ⊢
        omega
      · have hlines : p.line ≠ q.line := by omega
        rw [if_pos hlines] at h ⊢
        have hapart := stop_lt_start hs ht (by omega)
        omega
    · exact ⟨hm, fun _ _ _ => by omega⟩
  · -- a position past the last line is not followed by one on a line
    have hpast' : (b.lineCount : Int) ≤ q.line := by
      split at h <;> omega
    rcases offset?_eq_some_iff.mp hq with ⟨j, t, hj, ht, -⟩ | ⟨-, -, rfl⟩
    · have hj' := (List.getElem?_eq_some_iff.mp ht).1
      rw [← lineCount] at hj'
      omega
    · exact ⟨Nat.le_refl _, fun _ _ _ => by omega⟩

/-- The order of positions is that of offsets, in both directions. -/
theorem compare_offset? (b : Buffer) :
    (∀ m n : Nat, m < n → n ≤ b.length →
      ∃ p q, b.position m = .ok p ∧ b.position n = .ok q ∧ p.compare q < 0) ∧
    (∀ (p q : Position) (m n : Nat), b.offset? p = some m → b.offset? q = some n →
      p.compare q ≤ 0 → m ≤ n ∧
        (p.compare q < 0 → p.line < b.lineCount → q.line < b.lineCount → m < n)) :=
  ⟨fun _ _ => compare_position, fun _ _ _ _ => offset_le_of_compare⟩

/-- The offsets inside a CR LF and just after it, a position on the next line, and one past the last
    line. -/
theorem compare_offset?_crlf :
    let b : Buffer := ⟨['a', '\r', '\n', 'b']⟩
    (∃ p q, b.position 2 = .ok p ∧ b.position 3 = .ok q ∧ p.compare q < 0) ∧
      (b.offset? ⟨0, 1⟩ = some 1 ∧ b.offset? ⟨1, 0⟩ = some 3 ∧ 1 < 3) ∧
      (b.offset? ⟨1, 1⟩ = some 4 ∧ b.offset? ⟨7, 0⟩ = some 4 ∧ 4 ≤ 4) := by
  intro b
  obtain ⟨hpositions, hoffsets⟩ := compare_offset? b
  have hlines := hoffsets ⟨0, 1⟩ ⟨1, 0⟩ 1 3 (by decide) (by decide) (by decide)
  have hpast := hoffsets ⟨1, 1⟩ ⟨7, 0⟩ 4 4 (by decide) (by decide) (by decide)
  exact ⟨hpositions 2 3 (by decide) (by decide),
    ⟨by decide, by decide, hlines.2 (by decide) (by decide) (by decide)⟩,
    ⟨by decide, by decide, hpast.1⟩⟩

end LanguageClient.Buffer
