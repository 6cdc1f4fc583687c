import LanguageClient.Proofs.Buffer.Lines
import LanguageClient.Proofs.Completion.Token

/-!
The line that completion looks at. Its start is found by scanning back from the cursor for a CR or an LF,
one character at a time; the line index of the document knows whole breaks only. Between the two
characters of a CR LF the scan stops at once, while the index is still on the line that ends there.
Everywhere else they agree.

    text       a  b  ␍  ␊  c  .
    offset     0  1  2  3  4  5  6
    scan       0  0  0  3  4  4  4
    index      0  0  0  0  4  4  4

What completion finds is what it would find if the characters from that start to the cursor were the whole
text (`tokenBefore?_lineBefore`, `completionTrigger?_lineBefore`). `lineStartBefore_lineAt` says both.
-/

namespace LanguageClient

section

variable {text : List Char} {offset line : Nat}

/-! ### There is one line start -/

theorem isLineBreak_iff {c : Char} : isLineBreak c ↔ c = '\r' ∨ c = '\n' := by
  simp [isLineBreak, or_comm]

theorem unbroken_iff {cs : List Char} : Unbroken cs ↔ ∀ c ∈ cs, isLineBreak c = false := by
  simp only [← Bool.not_eq_true, isLineBreak_iff, Unbroken]
  constructor
  · rintro ⟨hcr, hlf⟩ c hc (rfl | rfl)
    · exact hcr hc
    · exact hlf hc
  · exact fun h => ⟨fun hcr => h _ hcr (.inl rfl), fun hlf => h _ hlf (.inr rfl)⟩

theorem breakAt_iff {k : Nat} : BreakAt text k ↔ ∃ c, text[k]? = some c ∧ isLineBreak c := by
  simp only [isLineBreak_iff, BreakAt]
  constructor
  · rintro (h | h)
    · exact ⟨_, h, .inl rfl⟩
    · exact ⟨_, h, .inr rfl⟩
  · rintro ⟨c, h, rfl | rfl⟩
    · exact .inl h
    · exact .inr h

/-- No line break stands from the line start up to the offset. -/
theorem LineStart.not_breakAt {k : Nat} (h : LineStart text offset line) (hk : line ≤ k)
    (hlt : k < offset) : ¬ BreakAt text k := by
  intro hbreak
  obtain ⟨c, hc, hends⟩ := breakAt_iff.mp hbreak
  have hmem : c ∈ (text.take offset).drop line := by
    refine List.mem_of_getElem? (i := k - line) ?_
    rw [List.getElem?_drop, Nat.add_sub_cancel' hk, List.getElem?_take_of_lt hlt, hc]
  rw [h.unbroken c hmem] at hends
  cases hends

theorem LineStart.le_of {other : Nat} (h : LineStart text offset line)
    (h' : LineStart text offset other) : line ≤ other := by
  by_contra hlt
  have hle := h.le
  rcases h.behind with hzero | hends
  · omega
  · exact h'.not_breakAt (by omega) (by omega) (breakAt_iff.mpr hends)

theorem lineStartBefore_eq (ho : offset ≤ text.length) (h : LineStart text offset line) :
    lineStartBefore text offset = line :=
  Nat.le_antisymm ((lineStart_lineStartBefore ho).le_of h) (h.le_of (lineStart_lineStartBefore ho))

/-- Right behind a line break a line starts, be it inside a CR LF. -/
theorem lineStart_self (h : BreakAt text (offset - 1)) : LineStart text offset offset where
  le := Nat.le_refl offset
  behind := .inr (breakAt_iff.mp h)
  unbroken := by
    rw [List.drop_eq_nil_of_le (List.length_take_le offset text)]
    simp

theorem lineStartBefore_of_insideBreak (ho : offset ≤ text.length) (h : InsideBreak text offset) :
    lineStartBefore text offset = offset := by
  cases offset with
  | zero => exact absurd h (insideBreak_zero text)
  | succ i => exact lineStartBefore_eq ho (lineStart_self (.inl h.1))

end

/-! ### The line start of the index -/

/-- A line of the rest is the one in which the rest starts, or starts behind a line break. -/
theorem breakAt_of_mem_lineSpans {start at' : Nat} {text : List Char} :
    ∀ s ∈ lineSpans start at' text, s.start = start ∨ ∃ k, s.start = at' + k + 1 ∧ BreakAt text k := by
  fun_induction lineSpans start at' text with
  | case1 start at' =>
    intro s hs
    exact .inl (by rw [List.mem_singleton.mp hs])
  | case2 start at' rest ih =>
    intro s hs
    rcases List.mem_cons.mp hs with rfl | hs
    · exact .inl rfl
    · rcases ih s hs with hfirst | ⟨k, hk, hbreak⟩
      · exact .inr ⟨1, by omega, .inr rfl⟩
      · exact .inr ⟨k + 2, by omega, hbreak⟩
  | case3 start at' c rest hne hc ih =>
    intro s hs
    rcases List.mem_cons.mp hs with rfl | hs
    · exact .inl rfl
    · rcases ih s hs with hfirst | ⟨k, hk, hbreak⟩
      · refine .inr ⟨0, by omega, ?_⟩
        simpa [BreakAt] using hc
      · exact .inr ⟨k + 1, by omega, hbreak⟩
  | case4 start at' c rest hne hc ih =>
    intro s hs
    rcases ih s hs with hfirst | ⟨k, hk, hbreak⟩
    · exact .inl hfirst
    · exact .inr ⟨k + 1, by omega, hbreak⟩

namespace Buffer

variable {b : Buffer} {offset : Nat}

/-- The line of an offset that is not inside a CR LF starts where the scan stops. -/
theorem lineStart_lineAt (ho : offset ≤ b.length) (hi : ¬ InsideBreak b.text offset) :
    LineStart b.text offset (b.lineAt offset).2 := by
  obtain ⟨span, before, after, h⟩ := exists_located ho
  have hmem : span ∈ b.lines := List.mem_of_getElem? h.getElem?
  rw [lineAt_of_located h]
  refine ⟨h.start_le, ?_, ?_⟩
  · rcases breakAt_of_mem_lineSpans span hmem with hfirst | ⟨k, hk, hbreak⟩
    · exact .inl hfirst
    · refine .inr (breakAt_iff.mp ?_)
      rwa [hk, Nat.zero_add, Nat.add_sub_cancel]
  · obtain ⟨hlines, -⟩ := cut_facts (b := b) (lineCut_iff.mpr rfl) rfl (Nat.zero_le _)
    have hunbroken := unbroken_iff.mp (hlines span hmem).2
    have hstop := h.le_stop hi
    intro c hc
    rw [List.drop_take] at hc
    exact hunbroken c ((List.take_prefix_take_left (by omega)).subset hc)

/-- The line of an offset inside a CR LF starts before it. -/
theorem lineAt_lt_of_insideBreak (ho : offset ≤ b.length) (hi : InsideBreak b.text offset) :
    (b.lineAt offset).2 < offset := by
  obtain ⟨span, before, after, h⟩ := exists_located ho
  have hle := start_le_stop_of_mem_lineSpans (Nat.le_refl 0) span (List.mem_of_getElem? h.getElem?)
  have hstop := h.stop_of_inside hi
  rw [lineAt_of_located h]
  simp only
  omega

/-- From its line's start to an offset, all offsets are on one line. -/
theorem lineAt_eq_of_le {k : Nat} (ho : offset ≤ b.length) (hk : (b.lineAt offset).2 ≤ k)
    (hle : k ≤ offset) : b.lineAt k = b.lineAt offset := by
  obtain ⟨span, before, after, h⟩ := exists_located ho
  obtain ⟨span', before', after', h'⟩ := exists_located (Nat.le_trans hle ho)
  rw [lineAt_of_located h] at hk ⊢
  obtain ⟨s, hs, -, hnext⟩ := (holds_iff_of_located h _).mpr rfl
  obtain rfl : span = s := Option.some.inj (h.getElem?.symm.trans hs)
  have hholds : b.Holds k before.length :=
    ⟨span, hs, hk, fun next hget => Nat.lt_of_le_of_lt hle (hnext next hget)⟩
  have hline := (holds_iff_of_located h' _).mp hholds
  rw [lineAt_of_located h', ← hline]
  obtain rfl : span = span' :=
    Option.some.inj (hs.symm.trans (hline ▸ h'.getElem?))
  rfl

/-- The characters in front of an offset on the line that holds it. -/
def lineUpTo (b : Buffer) (offset : Nat) : List Char := (b.text.take offset).drop (b.lineAt offset).2

end Buffer

/-! ### What stands in front of the cursor -/

/-- The characters from the line start that completion finds up to an offset. -/
def lineBefore (text : List Char) (offset : Nat) : List Char :=
  (text.take offset).drop (lineStartBefore text offset)

/-- A token as it stands in a text that has more characters in front. -/
def Token.forward (n : Nat) (t : Token) : Token := ⟨t.start + n, t.stop + n, t.text⟩

section

variable {text : List Char} {offset : Nat}

theorem length_lineBefore (ho : offset ≤ text.length) :
    (lineBefore text offset).length = offset - lineStartBefore text offset := by
  rw [lineBefore, List.length_drop, List.length_take_of_le ho]

/-- The characters are all of one line, and its first. -/
theorem lineStartBefore_lineBefore (ho : offset ≤ text.length) :
    lineStartBefore (lineBefore text offset) (lineBefore text offset).length = 0 := by
  refine lineStartBefore_eq (Nat.le_refl _) ⟨Nat.zero_le _, .inl rfl, ?_⟩
  rw [List.take_length, List.drop_zero]
  exact (lineStart_lineStartBefore ho).unbroken

theorem lineBefore_lineBefore (ho : offset ≤ text.length) :
    lineBefore (lineBefore text offset) (lineBefore text offset).length = lineBefore text offset := by
  rw [lineBefore, lineStartBefore_lineBefore ho, List.take_length, List.drop_zero]

/-- The character before the cursor is the last of them. -/
theorem charBefore?_eq (ho : offset ≤ text.length) :
    charBefore? text offset = .ok (lineBefore text offset).getLast? := by
  have hle := (lineStart_lineStartBefore ho).le
  rw [charBefore?, List.getLast?_eq_getElem?, length_lineBefore ho, lineBefore]
  by_cases hlt : lineStartBefore text offset < offset
  · have hindex : ((offset : Int) - 1).toNat = offset - 1 := by omega
    have hlast : lineStartBefore text offset + (offset - lineStartBefore text offset - 1) =
        offset - 1 := by omega
    have hin : offset - 1 < text.length := by omega
    rw [if_pos (by omega), hindex, List.getElem?_drop, hlast,
      List.getElem?_take_of_lt (by omega), List.getElem?_eq_getElem hin]
  · have hnone : (text.take offset).drop (lineStartBefore text offset) = [] :=
      List.drop_eq_nil_of_le (by rw [List.length_take]; omega)
    rw [if_neg (by omega), hnone, List.getElem?_nil]

theorem charBefore?_lineBefore (ho : offset ≤ text.length) :
    charBefore? text offset = charBefore? (lineBefore text offset) (lineBefore text offset).length := by
  rw [charBefore?_eq ho, charBefore?_eq (Nat.le_refl _), lineBefore_lineBefore ho]

/-- The token is the one that the characters have at their end. -/
theorem tokenBefore?_lineBefore (ho : offset ≤ text.length) (p : TokenPattern) :
    tokenBefore? text offset p =
      (tokenBefore? (lineBefore text offset) (lineBefore text offset).length p).map
        (·.forward (lineStartBefore text offset)) := by
  have hle := (lineStart_lineStartBefore ho).le
  have hlength := length_lineBefore ho
  have hstart : searchStart text offset = lineStartBefore text offset +
      searchStart (lineBefore text offset) (lineBefore text offset).length := by
    rw [searchStart, searchStart, lineStartBefore_lineBefore ho, hlength]
    omega
  have hsearched : ((lineBefore text offset).take (lineBefore text offset).length).drop
      (searchStart (lineBefore text offset) (lineBefore text offset).length) =
        (text.take offset).drop (searchStart text offset) := by
    rw [List.take_length, hstart, ← List.drop_drop, ← lineBefore]
  rw [tokenBefore?_eq ho, tokenBefore?_eq (Nat.le_refl _), hsearched, Option.map_map]
  refine congrArg (Option.map · _) (funext fun found => ?_)
  obtain ⟨n, s⟩ := found
  simp only [Function.comp_apply, Token.forward, Token.mk.injEq, and_true]
  omega

/-- Whether and why completion is requested is decided by the characters alone. -/
theorem completionTrigger?_lineBefore (ho : offset ≤ text.length) (triggers : Json)
    (explicit : Bool) (p : TokenPattern) :
    completionTrigger? text offset triggers explicit p =
      completionTrigger? (lineBefore text offset) (lineBefore text offset).length triggers explicit
        p := by
  simp only [completionTrigger?, charBefore?_lineBefore ho, tokenBefore?_lineBefore ho, Option.map_map]
  rfl

/-- Inside a CR LF too, what the index has on the line decides what completion has. -/
theorem lineBefore_lineUpTo {b : Buffer} (ho : offset ≤ b.length) :
    lineBefore b.text offset = lineBefore (b.lineUpTo offset) (b.lineUpTo offset).length := by
  by_cases hi : InsideBreak b.text offset
  · have hlt := Buffer.lineAt_lt_of_insideBreak ho hi
    have hlength : (b.lineUpTo offset).length = offset - (b.lineAt offset).2 := by
      rw [Buffer.lineUpTo, List.length_drop, List.length_take_of_le ho]
    have hcr : b.text[offset - 1]? = some '\r' := by
      cases offset with
      | zero => exact absurd hi (insideBreak_zero b.text)
      | succ i => exact hi.1
    have hends : (b.lineUpTo offset)[(b.lineUpTo offset).length - 1]? = some '\r' := by
      have hlast : (b.lineAt offset).2 + (offset - (b.lineAt offset).2 - 1) = offset - 1 := by omega
      rw [hlength, Buffer.lineUpTo, List.getElem?_drop, hlast,
        List.getElem?_take_of_lt (by omega), hcr]
    rw [lineBefore, lineBefore, lineStartBefore_of_insideBreak ho hi,
      lineStartBefore_eq (Nat.le_refl _) (lineStart_self (.inl hends)),
      List.drop_eq_nil_of_le (List.length_take_le _ _),
      List.drop_eq_nil_of_le (List.length_take_le _ _)]
  · have hsame : b.lineUpTo offset = lineBefore b.text offset := by
      rw [Buffer.lineUpTo, lineBefore, lineStartBefore_eq ho (Buffer.lineStart_lineAt ho hi)]
    rw [hsame, lineBefore_lineBefore ho]

/-- Completion takes the line of an offset to start where the line index does, except inside a CR LF:
    there it takes the offset itself. Between that start and the offset no break stands, all offsets are
    on the offset's line, and what completion finds is what it finds in those characters alone. So for
    two texts that have the same characters between the start of a line, either start, and an offset it
    finds the same. -/
theorem lineStartBefore_lineAt (ho : offset ≤ text.length) :
    let b : Buffer := ⟨text⟩
    let start := lineStartBefore text offset
    let line := lineBefore text offset
    (start = (b.lineAt offset).2 ↔ ¬ InsideBreak text offset) ∧
    (InsideBreak text offset → start = offset) ∧
    (∀ k, start ≤ k → k < offset → b.lineAt k = b.lineAt offset ∧ ¬ BreakAt text k) ∧
    (∀ p, tokenBefore? text offset p = (tokenBefore? line line.length p).map (·.forward start)) ∧
    (∀ triggers explicit p, completionTrigger? text offset triggers explicit p =
      completionTrigger? line line.length triggers explicit p) ∧
    ∀ (text' : List Char) (offset' : Nat), offset' ≤ text'.length →
      (lineBefore text' offset' = line ∨ (Buffer.mk text').lineUpTo offset' = b.lineUpTo offset) →
        (∀ p, (tokenBefore? text' offset' p).map (·.text) =
          (tokenBefore? text offset p).map (·.text)) ∧
        ∀ triggers explicit p, completionTrigger? text' offset' triggers explicit p =
          completionTrigger? text offset triggers explicit p := by
  intro b start line
  have hinside := lineStartBefore_of_insideBreak ho
  have houtside : ¬ InsideBreak text offset → start = (b.lineAt offset).2 := fun hi =>
    lineStartBefore_eq ho (Buffer.lineStart_lineAt (b := b) ho hi)
  refine ⟨⟨fun heq hi => ?_, houtside⟩, hinside, fun k hk hlt => ⟨?_, ?_⟩,
    tokenBefore?_lineBefore ho, completionTrigger?_lineBefore ho, fun text' offset' ho' hsame => ?_⟩
  · have hlt := Buffer.lineAt_lt_of_insideBreak (b := b) ho hi
    have hstart : start = offset := hinside hi
    omega
  · by_cases hi : InsideBreak text offset
    · have hstart : start = offset := hinside hi
      omega
    · exact Buffer.lineAt_eq_of_le ho (houtside hi ▸ hk) (Nat.le_of_lt hlt)
  · exact (lineStart_lineStartBefore ho).not_breakAt hk hlt
  · have hline : lineBefore text' offset' = line := by
      rcases hsame with hscan | hindex
      · exact hscan
      · have h := lineBefore_lineUpTo (b := b) ho
        have h' := lineBefore_lineUpTo (b := ⟨text'⟩) ho'
        rw [hindex] at h'
        exact h'.trans h.symm
    refine ⟨fun p => ?_, fun triggers explicit p => ?_⟩
    · rw [tokenBefore?_lineBefore ho', tokenBefore?_lineBefore ho, hline, Option.map_map,
        Option.map_map]
      rfl
    · rw [completionTrigger?_lineBefore ho', completionTrigger?_lineBefore ho, hline]

end

/-- An offset inside the CR LF, which is not the start of its line, and one behind a dot on the second
    line. In a text that has only that line in front of the cursor the dot is found as well. -/
theorem lineStartBefore_lineAt_crlf :
    let text := ['a', 'b', '\r', '\n', 'c', '.']
    let only := ['c', '.', '\n']
    let dot : Json := .arr [.str "."]
    (lineStartBefore text (3 : Nat) = 3 ∧ (Buffer.lineAt ⟨text⟩ (3 : Nat)).2 ≠ 3) ∧
      lineStartBefore text (6 : Nat) = (Buffer.lineAt ⟨text⟩ (6 : Nat)).2 ∧
      completionTrigger? text 6 dot false = .ok (some (.character '.')) ∧
      completionTrigger? only 2 dot false = .ok (some (.character '.')) := by
  intro text only dot
  have hthird : 3 ≤ text.length := by decide
  have hlast : 6 ≤ text.length := by decide
  obtain ⟨hinside, hat, -⟩ := lineStartBefore_lineAt hthird
  have hthree : lineStartBefore text (3 : Nat) = 3 := hat (by decide)
  rw [hthree] at hinside
  have hline : (Buffer.lineAt ⟨text⟩ (3 : Nat)).2 ≠ 3 := fun h => hinside.mp h.symm (by decide)
  obtain ⟨houtside, -, -, -, -, hsame⟩ := lineStartBefore_lineAt hlast
  obtain ⟨-, htrigger⟩ := hsame only 2 (by decide) (.inl rfl)
  have hdot : completionTrigger? text 6 dot false = .ok (some (.character '.')) := rfl
  exact ⟨⟨hthree, hline⟩, houtside.mpr (by decide), hdot, (htrigger dot false .standard).trans hdot⟩

end LanguageClient
