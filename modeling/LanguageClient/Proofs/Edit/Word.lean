import LanguageClient.Proofs.Buffer.Offsets
import LanguageClient.Proofs.Edit.Ranges
import LanguageClient.Proofs.Text.Slice

/-!
The word at a position. A line is cut around a place into what stands before the word, the word, and what stands
after it (`WordCut`). Around a place there is one such cut only, and it is the same around each place of the word,
both ends included; so the word is found from these places and from no others.

    line      f o o ( b a r )
    place    0 1 2 3 4 5 6 7 8        at 4, 5, 6 and 7 `bar` is found, at 8 nothing

`wordRange_maximal` says what is answered for a position, and that the answer names the word in the text.
-/

namespace LanguageClient

/-! ### Cuts of a line around a word -/

/-- The line is cut around a run of word characters that cannot be made longer. The run may be empty. -/
structure WordCut (line front word back : List Char) : Prop where
  whole : line = front ++ (word ++ back)
  word : ∀ c ∈ word, Text.isWord c = true
  front : ∀ c, front.getLast? = some c → Text.isWord c = false
  back : ∀ c, back.head? = some c → Text.isWord c = false

/-- A word character stands just before or just after the place. -/
def TouchesWord (row : List Char) (place : Nat) : Prop :=
  (∃ i c, place = i + 1 ∧ row[i]? = some c ∧ Text.isWord c = true) ∨
    ∃ c, row[place]? = some c ∧ Text.isWord c = true

section

variable {row front word back : List Char} {place : Nat}

theorem takeWhile_eq_nil_of_head? {p : Char → Bool} :
    ∀ {s : List Char}, (∀ c, s.head? = some c → p c = false) → s.takeWhile p = []
  | [], _ => rfl
  | c :: s, h => by rw [List.takeWhile_cons, h c rfl]; rfl

/-- From every place of the word the word is found. -/
theorem WordCut.wordSpan (h : WordCut row front word back) (hs : front.length ≤ place)
    (he : place ≤ front.length + word.length) :
    Buffer.wordSpan row place = (front.length, front.length + word.length) := by
  -- the place cuts the word in two
  obtain ⟨k, rfl⟩ := Nat.exists_eq_add_of_le hs
  have hk : k ≤ word.length := by omega
  have htake : row.take (front.length + k) = front ++ word.take k := by
    rw [h.whole, List.take_length_add_append, List.take_append_of_le_length hk]
  have hdrop : row.drop (front.length + k) = word.drop k ++ back := by
    rw [h.whole, List.drop_length_add_append, List.drop_append_of_le_length hk]
  have hbefore : (row.take (front.length + k)).reverse.takeWhile Text.isWord = (word.take k).reverse := by
    have hword : ∀ c ∈ (word.take k).reverse, Text.isWord c = true :=
      fun c hc => h.word c (List.mem_of_mem_take (List.mem_reverse.mp hc))
    rw [htake, List.reverse_append, List.takeWhile_append_of_pos hword,
      takeWhile_eq_nil_of_head? (by simpa only [List.head?_reverse] using h.front), List.append_nil]
  have hafter : (row.drop (front.length + k)).takeWhile Text.isWord = word.drop k := by
    have hword : ∀ c ∈ word.drop k, Text.isWord c = true := fun c hc => h.word c (List.mem_of_mem_drop hc)
    rw [hdrop, List.takeWhile_append_of_pos hword, takeWhile_eq_nil_of_head? h.back, List.append_nil]
  simp only [Buffer.wordSpan, hbefore, hafter, List.length_reverse, List.length_take, List.length_drop,
    Prod.mk.injEq]
  omega

/-- Around every place of a line there is such a cut. -/
theorem exists_wordCut (h : place ≤ row.length) : ∃ front word back, WordCut row front word back ∧
    front.length ≤ place ∧ place ≤ front.length + word.length := by
  obtain ⟨front, left, hbefore, -, hleft, hfront⟩ := Text.exists_scanned Text.isWord (row.take place)
  have hbehind : row.drop place = (row.drop place).takeWhile Text.isWord ++
      (row.drop place).dropWhile Text.isWord := List.takeWhile_append_dropWhile.symm
  have hlength : front.length + left.length = place := by
    rw [← List.length_append, ← hbefore, List.length_take, Nat.min_eq_left h]
  refine ⟨front, left ++ (row.drop place).takeWhile Text.isWord, (row.drop place).dropWhile Text.isWord,
    ⟨?_, ?_, hfront, ?_⟩, by omega, by rw [List.length_append]; omega⟩
  · rw [List.append_assoc, ← hbehind, ← List.append_assoc, ← hbefore, List.take_append_drop]
  · intro c hc
    rcases List.mem_append.mp hc with hc | hc
    · exact hleft c hc
    · exact List.mem_takeWhile_imp hc
  · intro c hc
    have hhead := List.head?_dropWhile_not Text.isWord (row.drop place)
    rw [hc] at hhead
    exact Bool.eq_false_of_not_eq_true (by simpa using hhead)

/-- A place touches a word exactly if the word around it is not empty. -/
theorem WordCut.touches_iff (h : WordCut row front word back) (hs : front.length ≤ place)
    (he : place ≤ front.length + word.length) : TouchesWord row place ↔ word ≠ [] := by
  constructor
  · rintro htouches rfl
    obtain rfl : place = front.length := by simpa using Nat.le_antisymm he hs
    rcases htouches with ⟨i, c, hi, hc, hword⟩ | ⟨c, hc, hword⟩
    · have hlast : front.getLast? = some c := by
        rw [h.whole, List.getElem?_append_left (by omega)] at hc
        rw [List.getLast?_eq_getElem?, hi, Nat.add_sub_cancel, hc]
      exact absurd hword (by rw [h.front c hlast]; decide)
    · have hhead : back.head? = some c := by
        rw [h.whole, List.getElem?_append_right (Nat.le_refl _), Nat.sub_self, List.nil_append] at hc
        rw [List.head?_eq_getElem?, hc]
      exact absurd hword (by rw [h.back c hhead]; decide)
  · intro hne
    have hlength : 0 < word.length := List.length_pos_iff.mpr hne
    have hin (i : Nat) (hi : i < word.length) : row[front.length + i]? = some word[i] := by
      rw [h.whole, List.getElem?_append_right (Nat.le_add_right _ _), Nat.add_sub_cancel_left,
        List.getElem?_append_left hi, List.getElem?_eq_getElem hi]
    -- the place is before a character of the word, or behind its last one
    rcases Nat.lt_or_eq_of_le he with hlt | heq
    · obtain ⟨k, rfl⟩ := Nat.exists_eq_add_of_le hs
      have hk : k < word.length := by omega
      exact .inr ⟨word[k], hin k hk, h.word _ (List.getElem_mem hk)⟩
    · have hk : word.length - 1 < word.length := by omega
      exact .inl ⟨front.length + (word.length - 1), word[word.length - 1], by omega, hin _ hk,
        h.word _ (List.getElem_mem hk)⟩

end

namespace Buffer

variable {b : Buffer} {p : Position} {line front word back : List Char}

/-! ### What is answered -/

/-- The line of a position. -/
def lineOf? (b : Buffer) (p : Position) : Option (List Char) :=
  if p.line < 0 then none else (b.lines[p.line.toNat]?).map b.spanText

/-- The position is a place of its line, and touches a word there. -/
def Touches (b : Buffer) (p : Position) : Prop :=
  ∃ line, b.lineOf? p = some line ∧ 0 ≤ p.character ∧ p.character ≤ line.length ∧
    TouchesWord line p.character.toNat

theorem lineOf?_eq_some_iff : b.lineOf? p = some line ↔
    ∃ (i : Nat) (span : LineSpan), p.line = i ∧ b.lines[i]? = some span ∧ b.spanText span = line := by
  unfold lineOf?
  constructor
  · intro h
    split at h
    · cases h
    · obtain ⟨span, hspan, htext⟩ := Option.map_eq_some_iff.mp h
      exact ⟨p.line.toNat, span, by omega, hspan, htext⟩
  · rintro ⟨i, span, hi, hspan, htext⟩
    rw [if_neg (by omega), hi, Int.toNat_natCast, hspan, Option.map_some, htext]

theorem lineOf?_eq_none_iff : b.lineOf? p = none ↔ p.line < 0 ∨ (b.lineCount : Int) ≤ p.line := by
  unfold lineOf?
  split
  · simp [*]
  · rw [Option.map_eq_none_iff, List.getElem?_eq_none_iff, ← lineCount]
    omega

theorem lineText_of_lineOf? (h : b.lineOf? p = some line) : b.lineText p.line = .ok line := by
  obtain ⟨i, span, hi, hspan, htext⟩ := lineOf?_eq_some_iff.mp h
  rw [lineText, hi, line_of_getElem? hspan]
  exact congrArg Except.ok htext

/-- Without a line there is no word, nor past the ends of the line. -/
theorem wordAt?_eq (b : Buffer) (p : Position) : b.wordAt? p = (b.lineOf? p).bind fun line =>
    if p.character < 0 ∨ (line.length : Int) < p.character then none
    else
      let (start, stop) := wordSpan line p.character.toNat
      if start = stop then none else some (p.line, start, stop) := by
  unfold wordAt? lineOf?
  split
  · rfl
  · cases b.lines[p.line.toNat]? <;> rfl

/-- The word that touches a position is told as a range on its line. -/
theorem wordRange_eq (b : Buffer) (p : Position) :
    b.wordRange p.toJson = .ok (match b.wordAt? p with
      | none => .null
      | some (line, start, stop) => lineRange (.int line) (.nat start) (.nat stop)) := by
  have hline : p.toJson.require "line" = .ok (.int p.line) := rfl
  have hcharacter : p.toJson.require "character" = .ok (.int p.character) := rfl
  -- an end at the position itself is told as the position was, which is the same number here
  have hnamed (k : Nat) :
      (if (k : Int) = p.character then Json.int p.character else .int k) = .int k := by
    split
    · rename_i hk
      rw [hk]
    · rfl
  simp only [wordRange, hline, hcharacter, bind, Except.bind, Json.less_int, Json.nat, Json.atMost_int,
    pure, Except.pure, Json.number?]
  cases hl : b.lineOf? p with
  | none =>
    have hout : (decide (p.line < 0) || decide ((b.lineCount : Int) ≤ p.line)) = true := by
      simpa using lineOf?_eq_none_iff.mp hl
    rw [if_pos hout, wordAt?_eq, hl]
    rfl
  | some line =>
    have hin : ¬ (decide (p.line < 0) || decide ((b.lineCount : Int) ≤ p.line)) = true := by
      simpa using mt lineOf?_eq_none_iff.mpr (by simp [hl])
    simp only [if_neg hin, wordRangeIn, lineText_of_lineOf? hl, bind, Except.bind, Json.less_int, Json.nat,
      pure, Except.pure, Json.number?, hnamed]
    rw [wordAt?_eq, hl, Option.bind_some]
    simp only [Bool.or_eq_true, decide_eq_true_eq]
    split
    · rfl
    · generalize wordSpan line p.character.toNat = span
      obtain ⟨start, stop⟩ := span
      by_cases hempty : start = stop
      · simp only [if_pos hempty]
      · simp only [if_neg hempty]

/-- Where a position is a place of a word, the word is what is found there. -/
theorem wordRange_of_wordCut {character : Int} (hl : b.lineOf? p = some line)
    (h : WordCut line front word back) (hne : word ≠ []) (hs : front.length ≤ character)
    (he : character ≤ front.length + word.length) :
    b.wordRange (Position.toJson ⟨p.line, character⟩) =
      .ok (lineRange (.int p.line) (.nat front.length) (.nat (front.length + word.length))) := by
  have hlength : front.length + word.length ≤ line.length := by
    simp only [h.whole, List.length_append]
    omega
  have hplace : ¬ (character < 0 ∨ (line.length : Int) < character) := by omega
  have hspan : wordSpan line character.toNat = (front.length, front.length + word.length) :=
    h.wordSpan (by omega) (by omega)
  have hlong : ¬ front.length = front.length + word.length := by
    have := List.length_pos_iff.mpr hne
    omega
  have hl' : b.lineOf? ⟨p.line, character⟩ = some line := hl
  rw [wordRange_eq, wordAt?_eq, hl', Option.bind_some]
  simp only [if_neg hplace, hspan, if_neg hlong]

/-- A position that touches no word has none. -/
theorem wordRange_of_not_touches (h : ¬ b.Touches p) : b.wordRange p.toJson = .ok .null := by
  rw [wordRange_eq, wordAt?_eq]
  cases hl : b.lineOf? p with
  | none => rfl
  | some line =>
    rw [Option.bind_some]
    by_cases hplace : p.character < 0 ∨ (line.length : Int) < p.character
    · rw [if_pos hplace]
    · have hle : p.character.toNat ≤ line.length := by omega
      obtain ⟨front, word, back, hcut, hs, he⟩ := exists_wordCut hle
      obtain rfl : word = [] := by
        by_contra hne
        exact h ⟨line, hl, by omega, by omega, (hcut.touches_iff hs he).mpr hne⟩
      rw [if_neg hplace, hcut.wordSpan hs he]
      simp

/-- The word of a line is the text of its range, and does not end the line. -/
theorem rangeText?_of_wordCut (hl : b.lineOf? p = some line) (h : WordCut line front word back) :
    b.rangeText? (lineRange (.int p.line) (.nat front.length) (.nat (front.length + word.length))) =
      .ok (some word) ∧ Unbroken word := by
  obtain ⟨i, span, hi, hspan, htext⟩ := lineOf?_eq_some_iff.mp hl
  have horder := start_le_stop hspan
  have hstop := stop_le_length hspan
  have hlength : front.length + word.length ≤ span.stop - span.start := by
    have hline := congrArg List.length h.whole
    rw [← htext, spanText, List.length_take, List.length_drop, List.length_append, List.length_append,
      ← length] at hline
    omega
  have hoffset (k : Nat) (hk : k ≤ front.length + word.length) :
      b.offset? ⟨p.line, k⟩ = some (span.start + k) :=
    offset?_eq_some_iff.mpr (.inl ⟨i, span, hi, hspan, Int.natCast_nonneg k, rfl, by omega⟩)
  have hslice : b.slice (span.start + front.length : Nat) (span.start + (front.length + word.length) : Nat) =
      word := by
    have hdrop : b.text.drop span.start = front ++ (word ++ (back ++ b.text.drop span.stop)) := by
      have hsplit := List.take_append_drop (span.stop - span.start) (b.text.drop span.start)
      rw [show (b.text.drop span.start).take (span.stop - span.start) = line from htext, h.whole,
        List.drop_drop, Nat.add_sub_cancel' horder] at hsplit
      simpa only [List.append_assoc] using hsplit.symm
    rw [slice, Text.slice_natCast (by omega) (by rw [length] at hstop; omega), List.drop_take,
      drop_of_drop hdrop, ← Nat.add_assoc, Nat.add_sub_cancel_left, List.take_left]
  refine ⟨?_, ?_⟩
  · have hends := Json.ends?_lineRange p.line front.length (front.length + word.length : Nat)
    have htold := rangeText?_of_ends? hends (hoffset _ (Nat.le_add_right _ _)) (hoffset _ (Nat.le_refl _))
    rwa [hslice] at htold
  · have hcut : LineCut 0 b.text b.lines := lineCut_iff.mpr rfl
    obtain ⟨hcr, hlf⟩ := ((cut_facts hcut rfl (Nat.zero_le _)).1 span (List.mem_of_getElem? hspan)).2
    have hin (c : Char) (hc : c ∈ word) : c ∈ b.spanText span := by
      rw [htext, h.whole]
      exact List.mem_append_right _ (List.mem_append_left _ hc)
    exact ⟨fun hc => hcr (hin _ hc), fun hc => hlf (hin _ hc)⟩

/-- A position that touches no word has none. Any other position has a range on its line, between whose ends it
    stands: what stands there is the longest run of word characters, it is the text of the range and breaks no
    line, and from one end to the other every position has the same range. -/
theorem wordRange_maximal (b : Buffer) (p : Position) :
    (¬ b.Touches p ∧ b.wordRange p.toJson = .ok .null) ∨
    (b.Touches p ∧ ∃ line front word back, b.lineText p.line = .ok line ∧
      WordCut line front word back ∧ 0 < word.length ∧
      (front.length : Int) ≤ p.character ∧ p.character ≤ front.length + word.length ∧
      let range := lineRange (.int p.line) (.nat front.length) (.nat (front.length + word.length))
      b.wordRange p.toJson = .ok range ∧ b.rangeText? range = .ok (some word) ∧ Unbroken word ∧
      ∀ character : Int, front.length ≤ character → character ≤ front.length + word.length →
        b.wordRange (Position.toJson ⟨p.line, character⟩) = .ok range) := by
  by_cases h : b.Touches p
  · obtain ⟨line, hl, hpos, hle, htouches⟩ := id h
    have hplace : p.character.toNat ≤ line.length := by omega
    obtain ⟨front, word, back, hcut, hs, he⟩ := exists_wordCut hplace
    have hstart : (front.length : Int) ≤ p.character := by omega
    have hstop : p.character ≤ front.length + word.length := by omega
    have hne := (hcut.touches_iff hs he).mp htouches
    obtain ⟨htext, hunbroken⟩ := rangeText?_of_wordCut hl hcut
    refine .inr ⟨h, line, front, word, back, lineText_of_lineOf? hl, hcut, List.length_pos_iff.mpr hne,
      hstart, hstop, wordRange_of_wordCut hl hcut hne hstart hstop, htext, hunbroken,
      fun character => wordRange_of_wordCut hl hcut hne⟩
  · exact .inl ⟨h, wordRange_of_not_touches h⟩

end Buffer

end LanguageClient
