import LanguageClient.Proofs.Completion.Members
import LanguageClient.Proofs.Completion.Notation
import LanguageClient.Proofs.Text.Slice

/-!
The token before the cursor. The code puts what the candidates start with and go on with into two sets
and looks for the longest text that ends at the cursor, begins with a character of the first set and
goes on with characters of the second.

    candidates   main.rs  $count       first  word characters, $       rest  word characters, .
    line         let x = main.r│       token  main.r

`accepts_iff` says which texts the pattern takes, `tokenBefore?_eq_some_iff` which of them is the token.
-/

namespace LanguageClient

/-! ### Sets of characters -/

namespace CharSet

theorem mem_insertSorted {s t : List Char} : ∀ {texts : List (List Char)},
    t ∈ insertSorted s texts ↔ t = s ∨ t ∈ texts
  | [] => by simp [insertSorted]
  | u :: us => by
      rw [insertSorted]
      split
      · simp
      · split
        · rename_i h
          simp [h]
        · rw [List.mem_cons, mem_insertSorted, List.mem_cons, or_left_comm]

theorem mem_foldr_insertSorted {t : List Char} : ∀ {texts : List (List Char)},
    t ∈ texts.foldr insertSorted [] ↔ t ∈ texts
  | [] => Iff.rfl
  | s :: texts => by
      rw [List.foldr_cons, mem_insertSorted, mem_foldr_insertSorted, List.mem_cons]

/-- The set of some characters has each of them, and all word characters if one of them is one. -/
theorem mem_ofTexts_singletons {cs : List Char} {c : Char} :
    (ofTexts (cs.map fun c => [c])).mem c ↔
      c ∈ cs ∨ (Text.isWord c ∧ ∃ d ∈ cs, Text.isWord d) := by
  have hothers : (ofTexts (cs.map fun c => [c])).others.contains c ↔ c ∈ cs ∧ Text.isWord c = false := by
    simp only [ofTexts, List.contains_iff_mem, List.mem_flatMap, mem_foldr_insertSorted, List.mem_map,
      List.mem_filter, Bool.not_eq_true']
    constructor
    · rintro ⟨_, ⟨d, hd, rfl⟩, hc, hw⟩
      obtain rfl := List.mem_singleton.mp hc
      exact ⟨hd, hw⟩
    · rintro ⟨hc, hw⟩
      exact ⟨_, ⟨c, hc, rfl⟩, List.mem_singleton_self c, hw⟩
  have hword : (ofTexts (cs.map fun c => [c])).word ↔ ∃ d ∈ cs, Text.isWord d := by
    simp [ofTexts]
  rw [mem, Bool.or_eq_true, Bool.and_eq_true, hothers, hword]
  constructor
  · rintro (⟨⟨d, hd, hdw⟩, hc⟩ | ⟨hc, -⟩)
    · exact .inr ⟨hc, d, hd, hdw⟩
    · exact .inl hc
  · rintro (hc | ⟨hc, d, hd, hdw⟩)
    · cases hw : Text.isWord c with
      | true => exact .inl ⟨⟨c, hc, hw⟩, rfl⟩
      | false => exact .inr ⟨hc, rfl⟩
    · exact .inl ⟨⟨d, hd, hdw⟩, hc⟩

theorem items_ofTexts_ne_nil {cs : List Char} (h : cs ≠ []) :
    (ofTexts (cs.map fun c => [c])).items ≠ [] := by
  intro hnil
  obtain ⟨c, hc⟩ := List.exists_mem_of_ne_nil cs h
  have hany := any_items (ofTexts (cs.map fun c => [c])) c
  rw [hnil, mem_ofTexts_singletons.mpr (.inl hc)] at hany
  simp at hany

end CharSet

/-! ### What candidates look like -/

namespace Candidate

/-- The first characters of the candidates. -/
def firsts (items : List Json) : List Char := items.flatMap fun item => (shape item).take 1

/-- The other characters of the candidates. -/
def others (items : List Json) : List Char := items.flatMap fun item => (shape item).drop 1

/-- One of the characters, or a word character if one of them is. -/
def Widened (cs : List Char) (c : Char) : Prop :=
  c ∈ cs ∨ (Text.isWord c ∧ ∃ d ∈ cs, Text.isWord d)

/-- A text that is shaped like the candidates: it begins with a character that one of them begins with
    and goes on with characters that stand further inside them. -/
def Shaped (items : List Json) : List Char → Prop
  | [] => False
  | c :: more => Widened (firsts items) c ∧ ∀ d ∈ more, Widened (others items) d

/-- The pattern that the candidates give. -/
def pattern (items : List Json) : TokenPattern :=
  .candidates (.ofTexts ((firsts items).map fun c => [c]))
    (if others items = [] then none else some (.ofTexts ((others items).map fun c => [c])))

theorem candidateParts_eq {item : Json} (h : shapely item) :
    candidateParts item = .ok ((shape item).map fun c => .text [c]) := by
  rw [candidateParts, candidateText_eq h]
  cases hs : shape item with
  | nil => rfl
  | cons c more =>
    simp only [bind, Except.bind, Json.truthy_text, List.isEmpty_cons, Bool.not_false, Bool.not_true,
      Bool.false_eq_true, if_false, Json.item_text_zero, Json.items_text, pure, Except.pure,
      List.map_cons, List.drop_one, List.tail_cons]

theorem partText_text (s : List Char) : partText (.text s) = .ok s := by
  rw [Json.text, partText, String.toList_ofList]

theorem mapM_partText : ∀ cs : List Char,
    (cs.map fun c => Json.text [c]).mapM partText = .ok (cs.map fun c => [c])
  | [] => rfl
  | c :: cs => by
      simp only [List.map_cons, List.mapM_cons, mapM_partText cs, partText_text, bind, Except.bind, pure,
        Except.pure]

/-- Candidates that can be read give a pattern unless all their texts are empty. -/
theorem tokenPattern?_eq {items : List Json} (h : ∀ item ∈ items, shapely item) :
    tokenPattern? items = .ok (if firsts items = [] then none else some (pattern items)) := by
  have hparts : items.mapM candidateParts =
      .ok (items.map fun item => (shape item).map fun c => .text [c]) :=
    mapM_eq_ok fun item hitem => candidateParts_eq (h item hitem)
  have hfirst : (items.map fun item => (shape item).map fun c => Json.text [c]).flatMap (·.take 1) =
      (firsts items).map fun c => .text [c] := by
    simp only [firsts, List.flatMap_map, List.map_flatMap, List.map_take]
  have hrest : (items.map fun item => (shape item).map fun c => Json.text [c]).flatMap (·.drop 1) =
      (others items).map fun c => .text [c] := by
    simp only [others, List.flatMap_map, List.map_flatMap, List.map_drop]
  have hany : (items.map fun item => (shape item).map fun c => Json.text [c]).any (1 < ·.length) =
      decide (others items ≠ []) := by
    rw [Bool.eq_iff_iff]
    simp [others, List.flatMap_eq_nil_iff, List.drop_eq_nil_iff, -List.drop_one]
  rw [tokenPattern?, hparts]
  simp only [bind, Except.bind, patternOf, hfirst, hrest, hany, mapM_partText, List.isEmpty_map,
    List.isEmpty_iff, pure, Except.pure, pattern, decide_eq_true_eq, ite_not]
  split <;> rfl

theorem firsts_eq_nil_iff {items : List Json} :
    firsts items = [] ↔ ∀ item ∈ items, shape item = [] := by
  simp [firsts, List.flatMap_eq_nil_iff]

/-- The pattern takes the texts that are shaped like the candidates. -/
theorem accepts_iff {items : List Json} {s : List Char} :
    (pattern items).accepts s ↔ Shaped items s := by
  have hfirst (c : Char) : (CharSet.ofTexts ((firsts items).map fun c => [c])).mem c ↔
      Widened (firsts items) c := CharSet.mem_ofTexts_singletons
  have hothers (c : Char) : (CharSet.ofTexts ((others items).map fun c => [c])).mem c ↔
      Widened (others items) c := CharSet.mem_ofTexts_singletons
  rw [pattern]
  cases s with
  | nil => simp [TokenPattern.accepts, Shaped]
  | cons c more =>
    rw [Shaped]
    split
    · -- no candidate goes on, and neither does a text
      rename_i hnone
      have hno (d : Char) : ¬ Widened (others items) d := by simp [Widened, hnone]
      cases more with
      | nil => simp [TokenPattern.accepts, hfirst]
      | cons d more =>
        simp only [TokenPattern.accepts, Bool.false_eq_true, false_iff]
        exact fun h => hno d (h.2 d List.mem_cons_self)
    · simp [TokenPattern.accepts, hfirst, hothers]

/-- Written down and read back, the classes of the pattern name the characters that a text begins with
    and goes on with. -/
theorem read?_pattern {items : List Json} (h : firsts items ≠ []) :
    ∃ first more, SearchPattern.read? (pattern items).source = some (first, more) ∧
      (∀ c, first.any (·.has c) ↔ Widened (firsts items) c) ∧
      ∀ c, more.any (·.has c) ↔ Widened (others items) c := by
  have hwide {cs : List Char} (c : Char) :
      (CharSet.ofTexts (cs.map fun c => [c])).items.any (·.has c) ↔ Widened cs c := by
    rw [CharSet.any_items]
    exact CharSet.mem_ofTexts_singletons
  have hfirst := CharSet.items_ofTexts_ne_nil h
  rw [pattern]
  split
  · rename_i hnone
    refine ⟨_, _, TokenPattern.read?_source hfirst (by simp), hwide, fun c => ?_⟩
    simp [Widened, hnone]
  · rename_i hsome
    have hrest : ∀ s ∈ some (CharSet.ofTexts ((others items).map fun c => [c])), s.items ≠ [] := by
      intro s hs
      obtain rfl := Option.mem_some.mp hs
      exact CharSet.items_ofTexts_ne_nil hsome
    exact ⟨_, _, TokenPattern.read?_source hfirst hrest, hwide, hwide⟩

end Candidate

/-! ### The longest end -/

/-- The longest end with a property starts where no longer one has it. -/
theorem longestEnd?_eq_some_iff {accepts : List Char → Bool} {s found : List Char} :
    ∀ {n : Nat}, longestEnd? accepts s = some (n, found) ↔
      found = s.drop n ∧ n < s.length ∧ accepts (s.drop n) ∧ ∀ m < n, accepts (s.drop m) = false := by
  induction s with
  | nil => simp [longestEnd?]
  | cons c rest ih =>
    intro n
    rw [longestEnd?]
    by_cases hc : accepts (c :: rest)
    · rw [if_pos hc]
      constructor
      · rintro ⟨⟩
        exact ⟨rfl, by simp, hc, fun m hm => absurd hm (Nat.not_lt_zero m)⟩
      · rintro ⟨rfl, -, -, hleast⟩
        obtain rfl : n = 0 := by
          by_contra hn
          have hfirst := hleast 0 (Nat.pos_of_ne_zero hn)
          rw [List.drop_zero, hc] at hfirst
          exact absurd hfirst (by decide)
        rfl
    · rw [if_neg hc]
      have hfalse : accepts (c :: rest) = false := by simpa using hc
      cases n with
      | zero => simp [hfalse]
      | succ n =>
        rw [Option.map_eq_some_iff]
        constructor
        · rintro ⟨⟨m, e⟩, hfound, heq⟩
          obtain ⟨rfl, rfl⟩ : m = n ∧ e = found := by simpa using heq
          obtain ⟨rfl, hlt, hacc, hleast⟩ := ih.mp hfound
          refine ⟨rfl, by simpa using hlt, hacc, fun k hk => ?_⟩
          cases k with
          | zero => exact hfalse
          | succ k => exact hleast k (by omega)
        · rintro ⟨rfl, hlt, hacc, hleast⟩
          refine ⟨(n, rest.drop n), ih.mpr ⟨rfl, by simpa using hlt, hacc, fun k hk => ?_⟩, rfl⟩
          exact hleast (k + 1) (by omega)

theorem longestEnd?_eq_none_iff {accepts : List Char → Bool} {s : List Char} :
    longestEnd? accepts s = none ↔ ∀ n < s.length, accepts (s.drop n) = false := by
  induction s with
  | nil => simp [longestEnd?]
  | cons c rest ih =>
    rw [longestEnd?]
    by_cases hc : accepts (c :: rest)
    · rw [if_pos hc]
      simp only [reduceCtorEq, false_iff]
      exact fun hall => absurd (hall 0 (by simp)) (by simp [hc])
    · rw [if_neg hc, Option.map_eq_none_iff, ih]
      constructor
      · intro hall n hn
        cases n with
        | zero => simpa using hc
        | succ n => exact hall n (by simpa using hn)
      · exact fun hall n hn => hall (n + 1) (by simpa using hn)

/-! ### The line of the cursor -/

/-- The line of an offset starts behind the last line break before the offset. -/
structure LineStart (text : List Char) (offset line : Nat) : Prop where
  le : line ≤ offset
  behind : line = 0 ∨ ∃ c, text[line - 1]? = some c ∧ isLineBreak c
  unbroken : ∀ c ∈ (text.take offset).drop line, isLineBreak c = false

theorem sliceTo_eq_take {text : List Char} {offset : Nat} :
    Text.sliceTo text offset = text.take offset := by
  have hclamp : Text.clampIndex text.length offset = min offset text.length := by
    rw [Text.clampIndex, if_neg (by omega), Int.toNat_natCast]
  rw [Text.sliceTo, hclamp, ← List.take_eq_take_min]

theorem lineStart_lineStartBefore {text : List Char} {offset : Nat} (ho : offset ≤ text.length) :
    LineStart text offset (lineStartBefore text offset) := by
  -- what stands before the offset: up to the last line break, and behind it
  obtain ⟨front, line, hwhole, hscanned, hline, hfront⟩ :=
    Text.exists_scanned (fun c => !isLineBreak c) (text.take offset)
  have hlength : front.length + line.length = offset := by
    rw [← List.length_append, ← hwhole, List.length_take, Nat.min_eq_left ho]
  have hstart : lineStartBefore text offset = front.length := by
    rw [lineStartBefore, sliceTo_eq_take, ← hscanned, hwhole, List.length_append, Nat.add_sub_cancel]
  rw [hstart]
  refine ⟨by omega, ?_, ?_⟩
  · rcases List.eq_nil_or_concat front with hnil | ⟨most, c, rfl⟩
    · exact .inl (by rw [hnil, List.length_nil])
    · refine .inr ⟨c, ?_, by simpa using hfront c (by simp)⟩
      have hlast : (most.concat c).length - 1 < offset := by
        rw [List.length_concat] at hlength ⊢
        omega
      rw [← List.getElem?_take_of_lt hlast, hwhole]
      simp
  · rw [hwhole, List.drop_left]
    exact fun c hc => by simpa using hline c hc

/-! ### The token -/

/-- A token of the candidates may start at an offset: on the line of the cursor, no further back than
    is looked, and so that the text up to the cursor is shaped like the candidates. -/
structure TokenStart (items : List Json) (text : List Char) (line offset start : Nat) : Prop where
  onLine : line ≤ start
  near : (offset : Int) - tokenReach ≤ start
  shaped : Candidate.Shaped items ((text.take offset).drop start)

section

variable {items : List Json} {text : List Char} {offset : Nat}

/-- Where the search starts. -/
def searchStart (text : List Char) (offset : Nat) : Nat :=
  max (lineStartBefore text offset) (offset - 250)

theorem TokenStart.iff_searchStart {start : Nat} :
    TokenStart items text (lineStartBefore text offset) offset start ↔
      searchStart text offset ≤ start ∧ Candidate.Shaped items ((text.take offset).drop start) := by
  have hreach : tokenReach = 250 := rfl
  constructor
  · rintro ⟨hline, hnear, hshaped⟩
    rw [hreach] at hnear
    exact ⟨by rw [searchStart]; omega, hshaped⟩
  · rintro ⟨hstart, hshaped⟩
    rw [searchStart] at hstart
    exact ⟨by omega, by rw [hreach]; omega, hshaped⟩

/-- A token starts before the cursor. -/
theorem TokenStart.lt {line start : Nat} (h : TokenStart items text line offset start) :
    start < offset := by
  by_contra hge
  have hempty : (text.take offset).drop start = [] := by
    rw [List.drop_eq_nil_iff, List.length_take]
    omega
  have hshaped := h.shaped
  rw [hempty] at hshaped
  exact hshaped

theorem tokenBefore?_eq (ho : offset ≤ text.length) (p : TokenPattern) :
    tokenBefore? text offset p =
      (longestEnd? p.accepts ((text.take offset).drop (searchStart text offset))).map
        fun (n, s) => ⟨(searchStart text offset : Int) + n, offset, s⟩ := by
  have hle := (lineStart_lineStartBefore ho).le
  have hstart : max (lineStartBefore text offset : Int) (offset - tokenReach) =
      (searchStart text offset : Int) := by
    have hreach : tokenReach = 250 := rfl
    rw [searchStart, hreach]
    omega
  have hsearch : searchStart text offset ≤ offset := by
    rw [searchStart]
    omega
  rw [tokenBefore?, hstart, Text.slice_natCast hsearch ho]

/-- What is left of the searched text is the text up to the cursor. -/
theorem drop_searched (n : Nat) :
    ((text.take offset).drop (searchStart text offset)).drop n =
      (text.take offset).drop (searchStart text offset + n) := List.drop_drop

theorem length_searched (ho : offset ≤ text.length) :
    ((text.take offset).drop (searchStart text offset)).length = offset - searchStart text offset := by
  rw [List.length_drop, List.length_take, Nat.min_eq_left ho]

theorem accepts_drop_searched_iff (n : Nat) :
    (Candidate.pattern items).accepts
        (((text.take offset).drop (searchStart text offset)).drop n) ↔
      TokenStart items text (lineStartBefore text offset) offset (searchStart text offset + n) := by
  rw [drop_searched, Candidate.accepts_iff, TokenStart.iff_searchStart]
  exact ⟨fun h => ⟨Nat.le_add_right _ _, h⟩, And.right⟩

/-- The token is the text from the first offset on at which a token may start. -/
theorem tokenBefore?_eq_some_iff (ho : offset ≤ text.length) {t : Token} :
    tokenBefore? text offset (Candidate.pattern items) = some t ↔
      ∃ start : Nat, TokenStart items text (lineStartBefore text offset) offset start ∧
        (∀ other, TokenStart items text (lineStartBefore text offset) offset other → start ≤ other) ∧
        t = ⟨start, offset, (text.take offset).drop start⟩ := by
  rw [tokenBefore?_eq ho, Option.map_eq_some_iff]
  constructor
  · rintro ⟨⟨n, found⟩, hfound, rfl⟩
    obtain ⟨rfl, hlt, hacc, hleast⟩ := longestEnd?_eq_some_iff.mp hfound
    refine ⟨_, (accepts_drop_searched_iff n).mp hacc, fun other hother => ?_, ?_⟩
    · have hfrom := (TokenStart.iff_searchStart.mp hother).1
      by_contra hbefore
      have hnone := hleast (other - searchStart text offset) (by omega)
      rw [← Bool.not_eq_true, accepts_drop_searched_iff, Nat.add_sub_cancel' hfrom] at hnone
      exact hnone hother
    · rw [drop_searched]
      rfl
  · rintro ⟨start, hstart, hleast, rfl⟩
    have hfrom := (TokenStart.iff_searchStart.mp hstart).1
    refine ⟨(start - searchStart text offset, _), longestEnd?_eq_some_iff.mpr ⟨rfl, ?_, ?_, ?_⟩, ?_⟩
    · have := hstart.lt
      rw [length_searched ho]
      omega
    · rwa [accepts_drop_searched_iff, Nat.add_sub_cancel' hfrom]
    · intro m hm
      rw [← Bool.not_eq_true, accepts_drop_searched_iff]
      intro hother
      have := hleast _ hother
      omega
    · have hsum : (searchStart text offset : Int) + (start - searchStart text offset : Nat) = start := by
        omega
      rw [drop_searched, Nat.add_sub_cancel' hfrom]
      exact congrArg (Token.mk · _ _) hsum

/-- There is no token if none may start. -/
theorem tokenBefore?_eq_none_iff (ho : offset ≤ text.length) :
    tokenBefore? text offset (Candidate.pattern items) = none ↔
      ∀ start, ¬ TokenStart items text (lineStartBefore text offset) offset start := by
  rw [tokenBefore?_eq ho, Option.map_eq_none_iff, longestEnd?_eq_none_iff]
  constructor
  · intro hnone start hstart
    have hfrom := (TokenStart.iff_searchStart.mp hstart).1
    have hlt := hstart.lt
    have hacc := hnone (start - searchStart text offset) (by rw [length_searched ho]; omega)
    rw [← Bool.not_eq_true, accepts_drop_searched_iff, Nat.add_sub_cancel' hfrom] at hacc
    exact hacc hstart
  · intro hnone n hn
    rw [← Bool.not_eq_true, accepts_drop_searched_iff]
    exact hnone _

end

end LanguageClient
