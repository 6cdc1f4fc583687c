import LanguageClient.Buffer

/-!
Offsets, positions and back. A position names a line and a character on it, so an offset has one
that leads back to it exactly when it does not stand between the two characters of a CR LF: such an
offset is past the end of its line and before the start of the next.

    text      a  ␍  ␊  b
    offset    0  1  2  3  4
    position  0:0 0:1 0:2 1:0 1:1        0:2 is past the end of line 0

The position of any other offset depends only on the text before it. Two texts that agree up to an
offset therefore give it the same position, and `offset?_position_iff` says when a position taken
in the one leads back to the offset in the other.
-/

namespace LanguageClient

/-! ### Inside a line break -/

/-- The offset stands between the two characters of a CR LF. -/
def InsideBreak (text : List Char) : Nat → Prop
  | 0 => False
  | i + 1 => text[i]? = some '\r' ∧ text[i + 1]? = some '\n'

instance (text : List Char) : ∀ offset, Decidable (InsideBreak text offset)
  | 0 => inferInstanceAs (Decidable False)
  | i + 1 => inferInstanceAs (Decidable (text[i]? = some '\r' ∧ text[i + 1]? = some '\n'))

@[simp] theorem insideBreak_zero (text : List Char) : ¬ InsideBreak text 0 := id

theorem insideBreak_succ (text : List Char) (i : Nat) :
    InsideBreak text (i + 1) ↔ text[i]? = some '\r' ∧ text[i + 1]? = some '\n' := Iff.rfl

/-- The character at an offset ends a line. -/
def BreakAt (text : List Char) (offset : Nat) : Prop :=
  text[offset]? = some '\r' ∨ text[offset]? = some '\n'

/-- Past a CR LF the offsets count on in the rest. -/
theorem insideBreak_crlf (rest : List Char) (k : Nat) :
    InsideBreak ('\r' :: '\n' :: rest) (k + 2) ↔ InsideBreak rest k := by
  cases k with
  | zero => simp [InsideBreak]
  | succ k => simp [InsideBreak]

/-- Past a character that does not start a CR LF the offsets count on in the rest. -/
theorem insideBreak_cons {c : Char} {rest : List Char}
    (h : ∀ tail, c = '\r' → rest = '\n' :: tail → False) (k : Nat) :
    InsideBreak (c :: rest) (k + 1) ↔ InsideBreak rest k := by
  cases k with
  | zero =>
    cases rest with
    | nil => simp [InsideBreak]
    | cons d tail =>
      simp only [InsideBreak, List.getElem?_cons_zero, Option.some.injEq,
        List.getElem?_cons_succ, iff_false, not_and]
      rintro rfl rfl
      exact h tail rfl rfl
  | succ k => simp [InsideBreak]

/-- The end of a text is not inside a line break. -/
theorem not_insideBreak_length (text : List Char) : ¬ InsideBreak text text.length := by
  cases text with
  | nil => exact insideBreak_zero []
  | cons c rest =>
    rw [List.length_cons, insideBreak_succ]
    simp

/-- Where an offset stands inside a line break, the one before it does not. -/
theorem not_insideBreak_of_breakAt {text : List Char} {i : Nat} (h : text[i]? = some '\r') :
    ¬ InsideBreak text i := by
  cases i with
  | zero => exact insideBreak_zero text
  | succ i =>
    rw [insideBreak_succ, h]
    simp

/-! ### The line that holds an offset -/

/-- The line of an offset `k` characters into the rest of a text: it starts at or before the offset,
    the lines before it too, and those after it start later. It ends at the offset or later, or one
    character earlier if the offset stands inside its line break. -/
structure Located (spans : List LineSpan) (offset : Nat) (inside atBreak : Prop) (span : LineSpan)
    (before after : List LineSpan) : Prop where
  split : spans = before ++ span :: after
  before_le : ∀ s ∈ before, s.start ≤ offset
  start_le : span.start ≤ offset
  after_lt : ∀ s ∈ after, offset < s.start
  stop_of_inside : inside → span.stop + 1 = offset
  le_stop : ¬ inside → offset ≤ span.stop
  stop_eq : ¬ inside → atBreak → span.stop = offset

/-- A line in front does not change where an offset after it is. -/
theorem Located.cons {spans before after : List LineSpan} {offset : Nat} {inside atBreak : Prop}
    {span first : LineSpan} (h : Located spans offset inside atBreak span before after)
    (hf : first.start ≤ offset) :
    Located (first :: spans) offset inside atBreak span (first :: before) after where
  split := by rw [h.split, List.cons_append]
  before_le := by
    intro s hs
    rcases List.mem_cons.mp hs with rfl | hs
    · exact hf
    · exact h.before_le s hs
  start_le := h.start_le
  after_lt := h.after_lt
  stop_of_inside := h.stop_of_inside
  le_stop := h.le_stop
  stop_eq := h.stop_eq

/-- The number of an offset's line is the number of lines before it. -/
theorem Located.getElem? {spans before after : List LineSpan} {offset : Nat}
    {inside atBreak : Prop} {span : LineSpan}
    (h : Located spans offset inside atBreak span before after) :
    spans[before.length]? = some span := by
  rw [h.split, List.getElem?_append_right (Nat.le_refl _), Nat.sub_self, List.getElem?_cons_zero]

/-- Every line of the rest starts where the line began in which the rest stands, or later. -/
theorem le_start_of_mem_lineSpans {start at' : Nat} {text : List Char} (h : start ≤ at') :
    ∀ s ∈ lineSpans start at' text, start ≤ s.start := by
  fun_induction lineSpans start at' text with
  | case1 start at' => simp
  | case2 start at' rest ih =>
    intro s hs
    rcases List.mem_cons.mp hs with rfl | hs
    · exact Nat.le_refl _
    · have := ih (Nat.le_refl _) s hs
      omega
  | case3 start at' c rest hne hc ih =>
    intro s hs
    rcases List.mem_cons.mp hs with rfl | hs
    · exact Nat.le_refl _
    · have := ih (Nat.le_refl _) s hs
      omega
  | case4 start at' c rest hne hc ih => exact ih (by omega)

/-- The first line of the rest is the one in which the rest stands; the others start after it. -/
theorem lineSpans_eq_cons (start at' : Nat) (text : List Char) :
    ∃ stop after, lineSpans start at' text = ⟨start, stop⟩ :: after ∧ at' ≤ stop ∧
      ∀ s ∈ after, stop < s.start := by
  fun_induction lineSpans start at' text with
  | case1 start at' => exact ⟨at', [], rfl, Nat.le_refl _, by simp⟩
  | case2 start at' rest ih =>
    refine ⟨at', _, rfl, Nat.le_refl _, fun s hs => ?_⟩
    have := le_start_of_mem_lineSpans (Nat.le_refl _) s hs
    omega
  | case3 start at' c rest hne hc ih =>
    refine ⟨at', _, rfl, Nat.le_refl _, fun s hs => ?_⟩
    have := le_start_of_mem_lineSpans (Nat.le_refl _) s hs
    omega
  | case4 start at' c rest hne hc ih =>
    obtain ⟨stop, after, h, hle, hlt⟩ := ih
    exact ⟨stop, after, h, by omega, hlt⟩

/-- An offset on a line that ends there or, with its line break, just after it. -/
theorem located_first {start at' offset next : Nat} {inside atBreak : Prop} {text : List Char}
    (hn : offset < next) (ha : start ≤ offset) (h1 : inside → at' + 1 = offset)
    (h2 : ¬ inside → offset = at') :
    Located (⟨start, at'⟩ :: lineSpans next next text) offset inside atBreak ⟨start, at'⟩ []
      (lineSpans next next text) where
  split := rfl
  before_le := by simp
  start_le := ha
  after_lt := by
    intro s hs
    have := le_start_of_mem_lineSpans (Nat.le_refl next) s hs
    omega
  stop_of_inside := h1
  le_stop := fun h => Nat.le_of_eq (h2 h)
  stop_eq := fun h _ => (h2 h).symm

/-- Every offset of a text is on one of its lines. -/
theorem located_lineSpans {start at' : Nat} {text : List Char} (hs : start ≤ at') :
    ∀ {k : Nat}, k ≤ text.length → ∃ span before after,
      Located (lineSpans start at' text) (at' + k) (InsideBreak text k) (BreakAt text k) span before
        after := by
  fun_induction lineSpans start at' text with
  | case1 start at' =>
    intro k hk
    obtain rfl : k = 0 := by simpa using hk
    exact ⟨⟨start, at'⟩, [], [], ⟨rfl, by simp, hs, by simp, by simp, by simp, by simp⟩⟩
  | case2 start at' rest ih =>
    intro k hk
    match k with
    | 0 => exact ⟨_, [], _, located_first (by omega) (by omega) (by simp) (by simp)⟩
    | 1 => exact ⟨_, [], _, located_first (by omega) (by omega) (by simp) (by simp [InsideBreak])⟩
    | k + 2 =>
      obtain ⟨span, before, after, h⟩ := ih (Nat.le_refl _) (k := k) (by simpa using hk)
      have hb : BreakAt ('\r' :: '\n' :: rest) (k + 2) = BreakAt rest k := by simp [BreakAt]
      rw [insideBreak_crlf, hb, show at' + (k + 2) = at' + 2 + k by omega]
      exact ⟨span, _, after, h.cons (by simp only; omega)⟩
  | case3 start at' c rest hne hc ih =>
    intro k hk
    match k with
    | 0 => exact ⟨_, [], _, located_first (by omega) (by omega) (by simp) (by simp)⟩
    | k + 1 =>
      obtain ⟨span, before, after, h⟩ := ih (Nat.le_refl _) (k := k) (by simpa using hk)
      have hb : BreakAt (c :: rest) (k + 1) = BreakAt rest k := by simp [BreakAt]
      rw [insideBreak_cons hne, hb, show at' + (k + 1) = at' + 1 + k by omega]
      exact ⟨span, _, after, h.cons (by simp only; omega)⟩
  | case4 start at' c rest hne hc ih =>
    intro k hk
    match k with
    | 0 =>
      -- the rest of the line gives no offset before itself, so its first line is looked up anew
      obtain ⟨stop, after, h, hle, hlt⟩ := lineSpans_eq_cons start (at' + 1) rest
      refine ⟨⟨start, stop⟩, [], after, ⟨h, by simp, hs, ?_, by simp, ?_, ?_⟩⟩
      · intro s hs
        have := hlt s hs
        omega
      · intro _
        simp only
        omega
      · intro _ hb
        simp only [BreakAt, List.getElem?_cons_zero, Option.some.injEq] at hb
        exact absurd hb hc
    | k + 1 =>
      obtain ⟨span, before, after, h⟩ := ih (by omega) (k := k) (by simpa using hk)
      have hb : BreakAt (c :: rest) (k + 1) = BreakAt rest k := by simp [BreakAt]
      rw [insideBreak_cons hne, hb, show at' + (k + 1) = at' + 1 + k by omega]
      exact ⟨span, before, after, h⟩

/-- No offset on a line, its end included, stands inside a line break. -/
theorem not_insideBreak_of_mem_lineSpans {start at' : Nat} {text : List Char} :
    ∀ {k : Nat}, ∀ s ∈ lineSpans start at' text, s.start ≤ at' + k → at' + k ≤ s.stop →
      ¬ InsideBreak text k := by
  fun_induction lineSpans start at' text with
  | case1 start at' =>
    intro k s hs _ hk
    obtain rfl : s = ⟨start, at'⟩ := by simpa using hs
    obtain rfl : k = 0 := by
      simp only at hk
      omega
    exact insideBreak_zero []
  | case2 start at' rest ih =>
    intro k s hs h1 h2
    rcases List.mem_cons.mp hs with rfl | hs
    · obtain rfl : k = 0 := by
        simp only at h2
        omega
      exact insideBreak_zero _
    · have := le_start_of_mem_lineSpans (Nat.le_refl _) s hs
      obtain ⟨k, rfl⟩ : ∃ j, k = j + 2 := ⟨k - 2, by omega⟩
      rw [insideBreak_crlf]
      exact ih s hs (by omega) (by omega)
  | case3 start at' c rest hne hc ih =>
    intro k s hs h1 h2
    rcases List.mem_cons.mp hs with rfl | hs
    · obtain rfl : k = 0 := by
        simp only at h2
        omega
      exact insideBreak_zero _
    · have := le_start_of_mem_lineSpans (Nat.le_refl _) s hs
      obtain ⟨k, rfl⟩ : ∃ j, k = j + 1 := ⟨k - 1, by omega⟩
      rw [insideBreak_cons hne]
      exact ih s hs (by omega) (by omega)
  | case4 start at' c rest hne hc ih =>
    intro k s hs h1 h2
    match k with
    | 0 => exact insideBreak_zero _
    | k + 1 =>
      rw [insideBreak_cons hne]
      exact ih s hs (by omega) (by omega)

/-- A line does not end before it starts. -/
theorem start_le_stop_of_mem_lineSpans {start at' : Nat} {text : List Char} (h : start ≤ at') :
    ∀ s ∈ lineSpans start at' text, s.start ≤ s.stop := by
  fun_induction lineSpans start at' text with
  | case1 start at' => simpa using h
  | case2 start at' rest ih =>
    intro s hs
    rcases List.mem_cons.mp hs with rfl | hs
    · exact h
    · exact ih (Nat.le_refl _) s hs
  | case3 start at' c rest hne hc ih =>
    intro s hs
    rcases List.mem_cons.mp hs with rfl | hs
    · exact h
    · exact ih (Nat.le_refl _) s hs
  | case4 start at' c rest hne hc ih => exact ih (by omega)

/-- A line ends inside the text. -/
theorem stop_le_of_mem_lineSpans {start at' : Nat} {text : List Char} :
    ∀ s ∈ lineSpans start at' text, s.stop ≤ at' + text.length := by
  fun_induction lineSpans start at' text with
  | case1 start at' => simp
  | case2 start at' rest ih | case3 start at' c rest hne hc ih =>
    intro s hs
    simp only [List.length_cons]
    rcases List.mem_cons.mp hs with rfl | hs
    · simp
    · have := ih s hs
      omega
  | case4 start at' c rest hne hc ih =>
    intro s hs
    have := ih s hs
    rw [List.length_cons]
    omega

/-! ### Lines that start up to an offset -/

theorem lineSpans_cons {start at' : Nat} {c : Char} {rest : List Char}
    (h : ∀ tail, c = '\r' → rest = '\n' :: tail → False) :
    lineSpans start at' (c :: rest) =
      if c = '\r' ∨ c = '\n' then ⟨start, at'⟩ :: lineSpans (at' + 1) (at' + 1) rest
      else lineSpans start (at' + 1) rest := by
  rw [lineSpans]
  exact h

/-- Where the lines start that do not start after an offset. -/
def startsUpTo (offset : Nat) (spans : List LineSpan) : List Nat :=
  (spans.map (·.start)).filter (· ≤ offset)

theorem startsUpTo_lineSpans_eq_nil {start at' offset : Nat} {text : List Char} (h : start ≤ at')
    (ho : offset < start) : startsUpTo offset (lineSpans start at' text) = [] := by
  simp only [startsUpTo, List.filter_eq_nil_iff, List.mem_map, decide_eq_true_eq]
  rintro _ ⟨s, hs, rfl⟩
  have := le_start_of_mem_lineSpans h s hs
  omega

/-- At the start of the rest only its own line has started. -/
theorem startsUpTo_lineSpans_self {start at' : Nat} (text : List Char) (h : start ≤ at') :
    startsUpTo at' (lineSpans start at' text) = [start] := by
  obtain ⟨stop, after, he, hle, hlt⟩ := lineSpans_eq_cons start at' text
  have hafter : (after.map (·.start)).filter (· ≤ at') = [] := by
    simp only [List.filter_eq_nil_iff, List.mem_map, decide_eq_true_eq]
    rintro _ ⟨s, hs, rfl⟩
    have := hlt s hs
    omega
  rw [he, startsUpTo, List.map_cons, List.filter_cons_of_pos (by simpa using h), hafter]

theorem startsUpTo_cons {offset : Nat} {span : LineSpan} {spans : List LineSpan}
    (h : span.start ≤ offset) :
    startsUpTo offset (span :: spans) = span.start :: startsUpTo offset spans := by
  rw [startsUpTo, List.map_cons, List.filter_cons_of_pos (by simpa using h)]
  rfl

/-- Which lines start up to an offset depends only on the text before it. -/
theorem startsUpTo_lineSpans_take {start at' : Nat} {text : List Char} (h : start ≤ at') :
    ∀ {k : Nat}, k ≤ text.length → ¬ InsideBreak text k →
      startsUpTo (at' + k) (lineSpans start at' text)
        = startsUpTo (at' + k) (lineSpans start at' (text.take k)) := by
  fun_induction lineSpans start at' text with
  | case1 start at' =>
    intro k _ _
    simp [lineSpans]
  | case2 start at' rest ih =>
    intro k hk hi
    match k with
    | 0 =>
      rw [startsUpTo_cons h, startsUpTo_lineSpans_eq_nil (Nat.le_refl _) (by omega)]
      exact (startsUpTo_lineSpans_self [] h).symm
    | 1 => exact absurd (by simp [InsideBreak]) hi
    | k + 2 =>
      rw [insideBreak_crlf] at hi
      have := ih (Nat.le_refl _) (k := k) (by simpa using hk) hi
      rw [show at' + (k + 2) = at' + 2 + k by omega, List.take_succ_cons, List.take_succ_cons,
        lineSpans, startsUpTo_cons (by simp only; omega), startsUpTo_cons (by simp only; omega), this]
  | case3 start at' c rest hne hc ih =>
    intro k hk hi
    match k with
    | 0 =>
      rw [startsUpTo_cons h, startsUpTo_lineSpans_eq_nil (Nat.le_refl _) (by omega)]
      exact (startsUpTo_lineSpans_self [] h).symm
    | k + 1 =>
      rw [insideBreak_cons hne] at hi
      have := ih (Nat.le_refl _) (k := k) (by simpa using hk) hi
      have hne' : ∀ tail, c = '\r' → rest.take k = '\n' :: tail → False := by
        intro tail hr ht
        have hrest : rest = '\n' :: (tail ++ rest.drop k) := by
          rw [← List.cons_append, ← ht, List.take_append_drop]
        exact hne _ hr hrest
      rw [show at' + (k + 1) = at' + 1 + k by omega, List.take_succ_cons, lineSpans_cons hne',
        if_pos hc, startsUpTo_cons (by simp only; omega), startsUpTo_cons (by simp only; omega),
        this]
  | case4 start at' c rest hne hc ih =>
    intro k hk hi
    match k with
    | 0 =>
      rw [List.take_zero, Nat.add_zero, startsUpTo_lineSpans_self [] h]
      have := startsUpTo_lineSpans_self (c :: rest) h
      rwa [lineSpans_cons hne, if_neg hc] at this
    | k + 1 =>
      rw [insideBreak_cons hne] at hi
      have := ih (by omega) (k := k) (by simpa using hk) hi
      have hne' : ∀ tail, c = '\r' → rest.take k = '\n' :: tail → False := by
        intro tail hr _
        exact hc (.inl hr)
      rw [show at' + (k + 1) = at' + 1 + k by omega, List.take_succ_cons, lineSpans_cons hne',
        if_neg hc, this]

/-! ### Positions -/

namespace Buffer

/-- The lines that start up to an offset give its position. -/
theorem position_eq_of_starts {b : Buffer} {offset : Nat} {starts : List Nat} {last : Nat}
    (ho : offset ≤ b.length) (hs : startsUpTo offset b.lines = starts ++ [last]) :
    b.position offset = .ok ⟨starts.length, (offset : Int) - last⟩ := by
  have hfilter : (b.lines.filter (fun span => (span.start : Int) ≤ offset)).map (·.start)
      = starts ++ [last] := by
    rw [← hs, startsUpTo, List.filter_map]
    congr 2
    funext span
    simp
  have hlength : (b.lines.filter (fun span => (span.start : Int) ≤ offset)).length
      = starts.length + 1 := by
    rw [← List.length_map (·.start), hfilter, List.length_append, List.length_singleton]
  have hlast : (b.lines.filter (fun span => (span.start : Int) ≤ offset)).getLast?.map (·.start)
      = some last := by
    rw [← List.getLast?_map, hfilter, List.getLast?_concat]
  obtain ⟨span, hspan, rfl⟩ := Option.map_eq_some_iff.mp hlast
  have hin : ¬ ((offset : Int) < 0 ∨ (b.length : Int) < offset) := by omega
  rw [position, if_neg hin]
  simp only [lineAt, hspan, hlength]
  simp

theorem startsUpTo_of_located {spans before after : List LineSpan} {offset : Nat}
    {inside atBreak : Prop} {span : LineSpan}
    (h : Located spans offset inside atBreak span before after) :
    startsUpTo offset spans = before.map (·.start) ++ [span.start] := by
  have hbefore : (before.map (·.start)).filter (· ≤ offset) = before.map (·.start) := by
    simpa using h.before_le
  have hafter : (after.map (·.start)).filter (· ≤ offset) = [] := by
    simpa using h.after_lt
  rw [startsUpTo, h.split, List.map_append, List.map_cons, List.filter_append, hbefore,
    List.filter_cons_of_pos (by simpa using h.start_le), hafter]

/-- The line that holds an offset gives its position. -/
theorem position_of_located {b : Buffer} {offset : Nat} {inside atBreak : Prop} {span : LineSpan}
    {before after : List LineSpan} (ho : offset ≤ b.length)
    (h : Located b.lines offset inside atBreak span before after) :
    b.position offset = .ok ⟨before.length, (offset : Int) - span.start⟩ := by
  rw [position_eq_of_starts ho (startsUpTo_of_located h), List.length_map]

/-- Every offset of a document is on one of its lines. -/
theorem exists_located {b : Buffer} {offset : Nat} (ho : offset ≤ b.length) :
    ∃ span before after,
      Located b.lines offset (InsideBreak b.text offset) (BreakAt b.text offset) span before after := by
  have h : ∃ span before after, Located (lineSpans 0 0 b.text) (0 + offset)
      (InsideBreak b.text offset) (BreakAt b.text offset) span before after :=
    located_lineSpans (Nat.le_refl 0) ho
  rwa [Nat.zero_add] at h

/-- Every offset of a document has a position. -/
theorem exists_position {b : Buffer} {offset : Nat} (ho : offset ≤ b.length) :
    ∃ p, b.position offset = .ok p := by
  obtain ⟨span, before, after, h⟩ := exists_located ho
  exact ⟨_, position_of_located ho h⟩

/-- The position of an offset leads back to it if the offset is on the line that holds it. -/
theorem offset?_position {b : Buffer} {offset : Nat} {p : Position} (ho : offset ≤ b.length)
    (hi : ¬ InsideBreak b.text offset) (hp : b.position offset = .ok p) :
    b.offset? p = some offset := by
  obtain ⟨span, before, after, h⟩ := exists_located ho
  obtain rfl : _ = p := Except.ok.inj ((position_of_located ho h).symm.trans hp)
  have hstart := h.start_le
  have hstop := h.le_stop hi
  have hneg : ¬ ((before.length : Int) < 0 ∨ (offset : Int) - span.start < 0) := by omega
  have hpast : ¬ (span.stop : Int) < span.start + ((offset : Int) - span.start) := by omega
  simp only [offset?, if_neg hneg, Int.toNat_natCast, h.getElem?, if_neg hpast, Option.some.injEq]
  omega

/-- No position leads inside a line break. -/
theorem not_insideBreak_of_offset? {b : Buffer} {offset : Nat} {p : Position}
    (h : b.offset? p = some offset) : ¬ InsideBreak b.text offset := by
  simp only [offset?] at h
  split at h
  · simp at h
  · rename_i hneg
    split at h
    · split at h
      · obtain rfl : b.length = offset := by simpa using h
        exact not_insideBreak_length b.text
      · simp at h
    · rename_i span hget
      split at h
      · simp at h
      · rename_i hle
        obtain rfl : span.start + p.character.toNat = offset := by simpa using h
        have hmem := List.mem_of_getElem? hget
        exact not_insideBreak_of_mem_lineSpans span hmem (by omega) (by omega)

/-- No position leads past the end. -/
theorem offset?_le_length {b : Buffer} {offset : Nat} {p : Position}
    (h : b.offset? p = some offset) : offset ≤ b.length := by
  simp only [offset?] at h
  split at h
  · simp at h
  · split at h
    · split at h
      · exact Nat.le_of_eq (Option.some.inj h).symm
      · simp at h
    · rename_i span hget
      split at h
      · simp at h
      · obtain rfl : span.start + p.character.toNat = offset := by simpa using h
        have hstop := stop_le_of_mem_lineSpans span (List.mem_of_getElem? hget)
        simp only [Nat.zero_add] at hstop
        rw [length]
        omega

/-- Texts that agree up to an offset give it the same position, unless it stands inside a line break
    of one of them. -/
theorem position_congr {b b' : Buffer} {offset : Nat} (ho : offset ≤ b.length)
    (ho' : offset ≤ b'.length) (ht : b.text.take offset = b'.text.take offset)
    (hi : ¬ InsideBreak b.text offset) (hi' : ¬ InsideBreak b'.text offset) :
    b.position offset = b'.position offset := by
  obtain ⟨span, before, after, h⟩ := exists_located ho'
  have hs : startsUpTo offset b.lines = startsUpTo offset b'.lines := by
    have e := startsUpTo_lineSpans_take (Nat.le_refl 0) ho hi
    have e' := startsUpTo_lineSpans_take (Nat.le_refl 0) ho' hi'
    rw [Nat.zero_add] at e e'
    exact e.trans (ht ▸ e'.symm)
  have hl := startsUpTo_of_located h
  rw [position_eq_of_starts ho (hs.trans hl), position_eq_of_starts ho' hl]

/-- No line starts inside a line break, so the position there counts on from the one before. -/
theorem position_succ_of_inside {b : Buffer} {i : Nat} {p : Position} (ho : i + 1 ≤ b.length)
    (hi : InsideBreak b.text (i + 1)) (hp : b.position i = .ok p) :
    b.position ((i + 1 : Nat) : Int) = .ok ⟨p.line, p.character + 1⟩ := by
  have hi' : i ≤ b.length := Nat.le_of_succ_le ho
  obtain ⟨span, before, after, h⟩ := exists_located hi'
  obtain rfl : _ = p := Except.ok.inj ((position_of_located hi' h).symm.trans hp)
  have hs : startsUpTo (i + 1) b.lines = startsUpTo i b.lines := by
    refine List.filter_congr fun start hmem => ?_
    obtain ⟨s, hs, rfl⟩ := List.mem_map.mp hmem
    have hle := start_le_stop_of_mem_lineSpans (Nat.le_refl 0) s hs
    have hne : s.start ≠ i + 1 := by
      intro he
      exact not_insideBreak_of_mem_lineSpans s hs (k := i + 1) (by omega) (by omega) hi
    simp only [decide_eq_decide]
    omega
  rw [position_eq_of_starts ho (hs.trans (startsUpTo_of_located h)), List.length_map]
  simp only [Except.ok.injEq, Position.mk.injEq, true_and]
  omega

/-- A position just past the character at which its line breaks off is outside the document. -/
theorem offset?_succ_of_breakAt {b : Buffer} {i : Nat} {p : Position} (ho : i ≤ b.length)
    (hi : ¬ InsideBreak b.text i) (hb : BreakAt b.text i) (hp : b.position i = .ok p) :
    b.offset? ⟨p.line, p.character + 1⟩ = none := by
  obtain ⟨span, before, after, h⟩ := exists_located ho
  obtain rfl : _ = p := Except.ok.inj ((position_of_located ho h).symm.trans hp)
  have hstart := h.start_le
  have hstop := h.stop_eq hi hb
  have hneg : ¬ ((before.length : Int) < 0 ∨ (i : Int) - span.start + 1 < 0) := by omega
  have hpast : (span.stop : Int) < span.start + ((i : Int) - span.start + 1) := by omega
  simp only [offset?, if_neg hneg, Int.toNat_natCast, h.getElem?, if_pos hpast]

/-- Of two texts that agree up to an offset, the position that the offset has in the one leads back
    to it in the other exactly when it stands inside no line break of either. -/
theorem offset?_position_iff {b b' : Buffer} {offset : Nat} {p : Position} (ho : offset ≤ b.length)
    (ho' : offset ≤ b'.length) (ht : b.text.take offset = b'.text.take offset)
    (hp : b.position offset = .ok p) :
    b'.offset? p = some offset ↔ ¬ InsideBreak b.text offset ∧ ¬ InsideBreak b'.text offset := by
  constructor
  · intro h
    refine ⟨fun hi => ?_, not_insideBreak_of_offset? h⟩
    match offset, hi with
    | i + 1, hi =>
      -- both texts have the CR just before the offset, and there the line of `b'` is over
      have hcr : b.text[i]? = some '\r' := hi.1
      have hcr' : b'.text[i]? = some '\r' := by
        rw [← hcr, ← List.getElem?_take_of_lt (Nat.lt_succ_self i), ← ht,
          List.getElem?_take_of_lt (Nat.lt_succ_self i)]
      have hi' : i ≤ b'.length := Nat.le_of_succ_le ho'
      have hn := not_insideBreak_of_breakAt hcr
      have hn' := not_insideBreak_of_breakAt hcr'
      have ht' : b.text.take i = b'.text.take i := by
        have := congrArg (List.take i) ht
        simpa [List.take_take] using this
      obtain ⟨q, hq⟩ := exists_position hi'
      have hq' : b.position i = .ok q :=
        (position_congr (Nat.le_of_succ_le ho) hi' ht' hn hn').trans hq
      obtain rfl : _ = p := Except.ok.inj ((position_succ_of_inside ho hi hq').symm.trans hp)
      rw [offset?_succ_of_breakAt hi' hn' (.inl hcr') hq] at h
      simp at h
  · rintro ⟨hi, hi'⟩
    rw [position_congr ho ho' ht hi hi'] at hp
    exact offset?_position ho' hi' hp

end Buffer

/-! ### Positions that are sent -/

/-- A position that was sent. -/
def Position.ofJson? (v : Json) : Option Position := do
  let line ← (← v.member? "line").number?
  let character ← (← v.member? "character").number?
  return ⟨line, character⟩

@[simp] theorem Position.ofJson?_toJson (p : Position) : Position.ofJson? p.toJson = some p := by
  simp [Position.ofJson?, Position.toJson, Json.member?, Members.get?, Json.number?]

end LanguageClient
