import Mathlib.Data.List.Chain
import LanguageClient.Proofs.Buffer.Position

/-!
The lines of a text. Between two lines there is a break, which is CR LF, CR or LF, and a CR is no break
of its own where an LF follows. So a text can be cut into lines in one way only (`lineCut_iff`), and
there is one line more than there are breaks.

    text      a  b  ␍  ␊  c  ␍  ␍  d
    line      ab ─────┐   c ─┐  ┐  d
    break             ␍␊     ␍  ␍         the third line is empty

`lines_cut` says what the line index of a document holds and which line it finds for an offset.
-/

namespace LanguageClient

/-! ### Cutting a text into lines -/

/-- The text holds neither CR nor LF. -/
def Unbroken (line : List Char) : Prop := '\r' ∉ line ∧ '\n' ∉ line

/-- What stands between two lines. -/
def IsBreak (gap : List Char) : Prop := gap = ['\r', '\n'] ∨ gap = ['\r'] ∨ gap = ['\n']

/-- The rest of a text, which starts at an offset, is cut into lines. -/
inductive LineCut : Nat → List Char → List LineSpan → Prop where
  | last {start : Nat} {line : List Char} : Unbroken line →
      LineCut start line [⟨start, start + line.length⟩]
  | line {start : Nat} {line gap rest : List Char} {spans : List LineSpan} : Unbroken line →
      IsBreak gap → (gap = ['\r'] → rest.head? ≠ some '\n') →
      LineCut (start + line.length + gap.length) rest spans →
      LineCut start (line ++ (gap ++ rest)) (⟨start, start + line.length⟩ :: spans)

variable {start : Nat} {text line gap rest : List Char} {spans : List LineSpan}

theorem IsBreak.length_pos (h : IsBreak gap) : 0 < gap.length := by
  rcases h with rfl | rfl | rfl <;> decide

/-- The characters of a line do not end it. -/
theorem lineSpans_unbroken (at' : Nat) (h : Unbroken line) (rest : List Char) :
    lineSpans start at' (line ++ rest) = lineSpans start (at' + line.length) rest := by
  induction line generalizing at' with
  | nil => rfl
  | cons c line ih =>
    obtain ⟨hcr, hlf⟩ := h
    rw [List.mem_cons, not_or] at hcr hlf
    have hc : ¬ (c = '\r' ∨ c = '\n') := fun h => h.elim (Ne.symm hcr.1) (Ne.symm hlf.1)
    rw [List.cons_append, lineSpans_cons fun _ hr _ => hc (.inl hr), if_neg hc,
      ih _ ⟨hcr.2, hlf.2⟩, List.length_cons, Nat.add_right_comm, Nat.add_assoc]

/-- A break ends the line, and the next one starts after it. -/
theorem lineSpans_break (at' : Nat) (h : IsBreak gap)
    (hlone : gap = ['\r'] → rest.head? ≠ some '\n') :
    lineSpans start at' (gap ++ rest) =
      ⟨start, at'⟩ :: lineSpans (at' + gap.length) (at' + gap.length) rest := by
  rcases h with rfl | rfl | rfl
  · rfl
  · have hnext : ∀ tail, '\r' = '\r' → rest = '\n' :: tail → False := by
      rintro tail - rfl
      exact hlone rfl rfl
    exact (lineSpans_cons hnext).trans (if_pos (.inl rfl))
  · exact (lineSpans_cons fun tail h => absurd h (by decide)).trans (if_pos (.inr rfl))

/-- What precedes on the line is put in front of the rest. -/
theorem lineCut_lineSpans (start at' : Nat) (text : List Char) :
    ∀ line : List Char, Unbroken line → at' = start + line.length →
      LineCut start (line ++ text) (lineSpans start at' text) := by
  fun_induction lineSpans start at' text with
  | case1 start at' =>
    rintro line hline rfl
    rw [List.append_nil]
    exact .last hline
  | case2 start at' rest ih =>
    rintro line hline rfl
    exact @LineCut.line start line ['\r', '\n'] rest _ hline (.inl rfl) (by simp)
      (ih [] ⟨List.not_mem_nil, List.not_mem_nil⟩ rfl)
  | case3 start at' c rest hne hc ih =>
    rintro line hline rfl
    refine @LineCut.line start line [c] rest _ hline ?_ ?_
      (ih [] ⟨List.not_mem_nil, List.not_mem_nil⟩ rfl)
    · rcases hc with rfl | rfl
      · exact .inr (.inl rfl)
      · exact .inr (.inr rfl)
    · rintro hcr hlf
      obtain rfl : c = '\r' := List.singleton_inj.mp hcr
      cases rest with
      | nil => cases hlf
      | cons d tail => exact hne tail rfl (by rw [Option.some.inj hlf])
  | case4 start at' c rest hne hc ih =>
    rintro line ⟨hcr, hlf⟩ rfl
    rw [not_or] at hc
    have hline : Unbroken (line ++ [c]) := by
      simp only [Unbroken, List.mem_append, List.mem_singleton, not_or]
      exact ⟨⟨hcr, Ne.symm hc.1⟩, hlf, Ne.symm hc.2⟩
    have h := ih (line ++ [c]) hline (by simp [Nat.add_assoc])
    rwa [List.append_assoc] at h

/-- A text is cut into lines in one way only. -/
theorem lineCut_iff : LineCut start text spans ↔ spans = lineSpans start start text := by
  constructor
  · intro h
    induction h with
    | @last start line hline =>
      have h := @lineSpans_unbroken start line start hline []
      rw [List.append_nil] at h
      exact h.symm
    | line hline hgap hlone _ ih =>
      rw [lineSpans_unbroken _ hline, lineSpans_break _ hgap hlone, ih]
  · rintro rfl
    exact lineCut_lineSpans start start text [] ⟨List.not_mem_nil, List.not_mem_nil⟩ rfl

theorem LineCut.eq_cons (h : LineCut start text spans) :
    ∃ stop after, spans = ⟨start, stop⟩ :: after := by
  cases h <;> exact ⟨_, _, rfl⟩

/-! ### Counting breaks -/

instance (text : List Char) (offset : Nat) : Decidable (BreakAt text offset) :=
  inferInstanceAs (Decidable (_ ∨ _))

/-- The number of breaks of a text: of the offsets at which there is a CR or an LF, those that are not
    inside a CR LF. -/
def breakCount (text : List Char) : Nat :=
  (List.range text.length).countP fun offset => BreakAt text offset ∧ ¬ InsideBreak text offset

/-- A character that starts no CR LF is looked at on its own. -/
theorem breakCount_cons {c : Char} (h : ∀ tail, c = '\r' → rest = '\n' :: tail → False) :
    breakCount (c :: rest) = breakCount rest + if c = '\r' ∨ c = '\n' then 1 else 0 := by
  have hrest : ((fun offset => decide (BreakAt (c :: rest) offset ∧
      ¬ InsideBreak (c :: rest) offset)) ∘ Nat.succ) =
      fun offset => decide (BreakAt rest offset ∧ ¬ InsideBreak rest offset) := by
    funext k
    simp only [Function.comp_apply, insideBreak_cons h, decide_eq_decide]
    exact Iff.rfl
  rw [breakCount, List.length_cons, List.range_succ_eq_map, List.countP_cons, List.countP_map, hrest]
  simp [BreakAt, breakCount]

/-- A CR LF counts once. -/
theorem breakCount_crlf (rest : List Char) :
    breakCount ('\r' :: '\n' :: rest) = breakCount rest + 1 := by
  have hrest : ((fun offset => decide (BreakAt ('\r' :: '\n' :: rest) offset ∧
      ¬ InsideBreak ('\r' :: '\n' :: rest) offset)) ∘ (Nat.succ ∘ Nat.succ)) =
      fun offset => decide (BreakAt rest offset ∧ ¬ InsideBreak rest offset) := by
    funext k
    simp only [Function.comp_apply, Nat.succ_eq_add_one, Nat.add_assoc, Nat.reduceAdd,
      insideBreak_crlf, decide_eq_decide]
    exact Iff.rfl
  rw [breakCount, List.length_cons, List.length_cons, List.range_succ_eq_map, List.countP_cons,
    List.range_succ_eq_map, List.map_cons, List.countP_cons, List.map_map, List.countP_map, hrest]
  simp [BreakAt, InsideBreak, breakCount]

/-- There is one line more than there are breaks. -/
theorem length_lineSpans (start at' : Nat) (text : List Char) :
    (lineSpans start at' text).length = breakCount text + 1 := by
  fun_induction lineSpans start at' text with
  | case1 => rfl
  | case2 start at' rest ih => rw [List.length_cons, ih, breakCount_crlf]
  | case3 start at' c rest hne hc ih => rw [List.length_cons, ih, breakCount_cons hne, if_pos hc]
  | case4 start at' c rest hne hc ih => rw [ih, breakCount_cons hne, if_neg hc]

namespace Buffer

variable {b : Buffer}

/-! ### The lines of a document -/

/-- The one line is followed by the other: the break between them is whole. -/
structure Followed (b : Buffer) (s next : LineSpan) : Prop where
  start_lt : s.start < next.start
  isBreak : IsBreak (b.spanText ⟨s.stop, next.start⟩)
  whole : b.spanText ⟨s.stop, next.start⟩ = ['\r'] → b.text[next.start]? ≠ some '\n'

/-- The texts of lines and the breaks between them, one after the other. -/
def woven (b : Buffer) : List LineSpan → List Char
  | [] => []
  | [s] => b.spanText s
  | s :: next :: rest => b.spanText s ++ (b.spanText ⟨s.stop, next.start⟩ ++ woven b (next :: rest))

theorem spanText_of_drop (h : b.text.drop start = line ++ rest) :
    b.spanText ⟨start, start + line.length⟩ = line := by
  rw [spanText, h, Nat.add_sub_cancel_left, List.take_left]

theorem drop_of_drop (h : b.text.drop start = line ++ rest) :
    b.text.drop (start + line.length) = rest := by
  rw [← List.drop_drop, h, List.drop_left]

/-- What the lines of a cut hold, what stands between them, and where the last one ends. -/
theorem cut_facts (h : LineCut start text spans) (hb : b.text.drop start = text)
    (hs : start ≤ b.length) :
    (∀ s ∈ spans, s.start ≤ s.stop ∧ Unbroken (b.spanText s)) ∧ spans.IsChain (Followed b) ∧
      b.woven spans = text ∧ spans.getLast?.map (·.stop) = some b.length := by
  induction h with
  | @last start line hline =>
    have htext : b.spanText ⟨start, start + line.length⟩ = line :=
      spanText_of_drop (hb.trans (List.append_nil line).symm)
    have hlength : start + line.length = b.length := by
      rw [← hb, List.length_drop, ← length]
      omega
    refine ⟨?_, List.isChain_singleton _, htext, by simp [hlength]⟩
    rintro s hmem
    obtain rfl := List.mem_singleton.mp hmem
    exact ⟨Nat.le_add_right _ _, htext.symm ▸ hline⟩
  | @line start line gap rest spans hline hgap hlone hcut ih =>
    have htext := spanText_of_drop hb
    have hafter := drop_of_drop hb
    have hbreak := spanText_of_drop hafter
    have hrest := drop_of_drop hafter
    have hlength : start + line.length + gap.length ≤ b.length := by
      have := congrArg List.length hb
      rw [List.length_drop, List.length_append, List.length_append, ← length] at this
      omega
    obtain ⟨hlines, hchain, hwoven, hlast⟩ := ih hrest hlength
    obtain ⟨stop, after, rfl⟩ := hcut.eq_cons
    refine ⟨?_, ?_, ?_, by rw [List.getLast?_cons_cons, hlast]⟩
    · rintro s hmem
      rcases List.mem_cons.mp hmem with rfl | hmem
      · exact ⟨Nat.le_add_right _ _, htext.symm ▸ hline⟩
      · exact hlines s hmem
    · refine List.isChain_cons_cons.mpr ⟨⟨?_, hbreak.symm ▸ hgap, fun hcr => ?_⟩, hchain⟩
      · have := hgap.length_pos
        simp only
        omega
      · rw [← List.head?_drop, hrest]
        exact hlone (hbreak.symm.trans hcr)
    · rw [woven, htext, hbreak, hwoven]

/-! ### The line of an offset -/

/-- The line starts at or before the offset, and the next one, if there is any, after it. -/
def Holds (b : Buffer) (offset i : Nat) : Prop :=
  ∃ span, b.lines[i]? = some span ∧ span.start ≤ offset ∧
    ∀ next, b.lines[i + 1]? = some next → offset < next.start

theorem lineAt_of_located {offset : Nat} {inside atBreak : Prop} {span : LineSpan}
    {before after : List LineSpan} (h : Located b.lines offset inside atBreak span before after) :
    b.lineAt offset = ((before.length : Int), span.start) := by
  have hbefore : before.filter (fun s => (s.start : Int) ≤ offset) = before :=
    List.filter_eq_self.mpr fun s hs => by simpa using h.before_le s hs
  have hafter : after.filter (fun s => (s.start : Int) ≤ offset) = [] :=
    List.filter_eq_nil_iff.mpr fun s hs => by simpa using h.after_lt s hs
  have hstarted : b.lines.filter (fun s => (s.start : Int) ≤ offset) = before ++ [span] := by
    rw [h.split, List.filter_append, hbefore,
      List.filter_cons_of_pos (by simpa using h.start_le), hafter]
  simp only [lineAt, hstarted, List.getLast?_concat, List.length_append, List.length_singleton]
  simp

/-- No other line holds the offset: one before is followed by a line that has started, and one after
    has not started. -/
theorem holds_iff_of_located {offset : Nat} {inside atBreak : Prop} {span : LineSpan}
    {before after : List LineSpan} (h : Located b.lines offset inside atBreak span before after)
    (i : Nat) : b.Holds offset i ↔ i = before.length := by
  constructor
  · rintro ⟨s, hs, hle, hnext⟩
    rcases Nat.lt_trichotomy i before.length with hlt | heq | hgt
    · exfalso
      rcases Nat.lt_or_eq_of_le hlt with hlt' | heq
      · have hmem : b.lines[i + 1]? = some before[i + 1] := by
          rw [h.split, List.getElem?_append_left hlt', List.getElem?_eq_getElem hlt']
        exact Nat.not_lt.mpr (h.before_le _ (List.getElem_mem hlt')) (hnext _ hmem)
      · have hfollow := hnext span (by rw [show i + 1 = before.length from heq, h.getElem?])
        have hstarted := h.start_le
        omega
    · exact heq
    · exfalso
      rw [h.split, List.getElem?_append_right (Nat.le_of_lt hgt)] at hs
      obtain ⟨k, hk⟩ : ∃ k, i - before.length = k + 1 := ⟨i - before.length - 1, by omega⟩
      rw [hk, List.getElem?_cons_succ] at hs
      have hlate := h.after_lt s (List.mem_of_getElem? hs)
      omega
  · rintro rfl
    refine ⟨span, h.getElem?, h.start_le, fun next hnext => h.after_lt next ?_⟩
    rw [h.split, List.getElem?_append_right (Nat.le_succ _), Nat.succ_sub (Nat.le_refl _),
      Nat.sub_self, List.getElem?_cons_succ] at hnext
    exact List.mem_of_getElem? hnext

theorem line_of_getElem? {i : Nat} {span : LineSpan} (h : b.lines[i]? = some span) :
    b.line i = .ok span := by
  have hitem : Text.item? b.lines i = some span := by
    rw [Text.item?, if_neg (by omega), Int.toNat_natCast, h]
  rw [line, hitem]

/-- The line index of a document is the one cut of its text into lines: there is one line more than
    there are breaks, none of them holds a CR or an LF, from each to the next there is a whole break,
    and together they make up the text, from its start to its end. For an offset in the document the
    only line is found that starts up to it and is the last to do so. -/
theorem lines_cut (b : Buffer) :
    b.lineCount = breakCount b.text + 1 ∧
    (∀ i, i < b.lineCount → ∃ s, b.lines[i]? = some s ∧ b.lineStart i = .ok s.start ∧
      b.lineEnd i = .ok s.stop ∧ b.lineText i = .ok (b.spanText s)) ∧
    b.lines.head?.map (·.start) = some 0 ∧ b.lines.getLast?.map (·.stop) = some b.length ∧
    (∀ s ∈ b.lines, s.start ≤ s.stop ∧ Unbroken (b.spanText s)) ∧
    b.lines.IsChain (Followed b) ∧ b.lines.Pairwise (fun s t => s.start < t.start) ∧
    b.woven b.lines = b.text ∧
    (∀ spans, LineCut 0 b.text spans ↔ spans = b.lines) ∧
    ∀ offset : Nat, offset ≤ b.length → ∃ (i : Nat) (span : LineSpan),
      b.lineAt offset = ((i : Int), span.start) ∧
      b.lines[i]? = some span ∧ ∀ j, b.Holds offset j ↔ j = i := by
  have hcut : LineCut 0 b.text b.lines := lineCut_iff.mpr rfl
  obtain ⟨hlines, hchain, hwoven, hlast⟩ := cut_facts (b := b) hcut rfl (Nat.zero_le _)
  obtain ⟨stop, after, hfirst⟩ := hcut.eq_cons
  have hstarts : (b.lines.map (·.start)).IsChain (· < ·) :=
    (List.isChain_map _).mpr (hchain.imp fun _ _ h => h.start_lt)
  refine ⟨length_lineSpans 0 0 b.text, fun i hi => ?_, by rw [hfirst]; rfl, hlast, hlines,
    hchain, ?_, hwoven, fun spans => lineCut_iff, fun offset ho => ?_⟩
  · have hline := line_of_getElem? (List.getElem?_eq_getElem hi)
    exact ⟨_, List.getElem?_eq_getElem hi, by rw [lineStart, hline]; rfl, by rw [lineEnd, hline]; rfl,
      by rw [lineText, hline]; rfl⟩
  · exact List.pairwise_map.mp (List.isChain_iff_pairwise.mp hstarts)
  · obtain ⟨span, before, rest, h⟩ := exists_located ho
    exact ⟨before.length, span, lineAt_of_located h, h.getElem?, holds_iff_of_located h⟩

/-- A text with all three breaks, of which the first two touch: its second line is empty. The offset is
    inside the CR LF, and still on the first line. -/
theorem lines_cut_touching :
    let b : Buffer := ⟨['a', '\r', '\n', '\r', 'b', '\n']⟩
    b.lineCount = 4 ∧ b.lineText 1 = .ok [] ∧ b.woven b.lines = b.text ∧
      LineCut 0 b.text [⟨0, 1⟩, ⟨3, 3⟩, ⟨4, 5⟩, ⟨6, 6⟩] ∧ b.lineAt 2 = (0, 0) := by
  intro b
  obtain ⟨hcount, hindex, -, -, -, -, -, hwoven, hcut, hoffset⟩ := lines_cut b
  have hcount : b.lineCount = 4 := hcount.trans (by decide)
  obtain ⟨s, hs, -, -, htext⟩ := hindex 1 (by rw [hcount]; decide)
  obtain rfl : ⟨3, 3⟩ = s := Option.some.inj hs
  obtain ⟨i, span, hat, hspan, honly⟩ := hoffset 2 (by decide)
  have hheld : b.Holds 2 0 := ⟨⟨0, 1⟩, rfl, by decide, by rintro next ⟨⟩; decide⟩
  obtain rfl : 0 = i := (honly 0).mp hheld
  obtain rfl : ⟨0, 1⟩ = span := Option.some.inj hspan
  exact ⟨hcount, htext, hwoven, (hcut _).mpr rfl, hat⟩

end Buffer

end LanguageClient
