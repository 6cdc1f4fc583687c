import LanguageClient.Completion.Token

/-!
Search patterns, read back. A pattern is written down as one or two classes of characters, and what
the server sends goes into them; a bracket, a caret or a dash that kept its meaning there would change
what the pattern finds. The reader below takes only text in which every character stands for itself,
and says which characters the classes name.

    written    [\w\-\^][\w\]]*$
    read       a word character, - or ^; then any number of word characters and ]

`read?_source` says that every pattern of candidates is such a text and names the candidates' sets.
-/

namespace LanguageClient

/-- What a class lists. -/
inductive ClassItem where
  /-- All word characters. -/
  | word
  | one (c : Char)
  deriving DecidableEq, Repr

def ClassItem.has : ClassItem → Char → Bool
  | .word, c => Text.isWord c
  | .one d, c => d == c

namespace SearchPattern

/-- Does the character mean something of its own in a class: an end, a range, a negation, an escape or
    a class inside the class? -/
def active (c : Char) : Bool := "[]\\^-&~|".toList.contains c

/-- The items of a class up to its end. An escape takes the meaning from a mark; of the letters it
    gives one a meaning. -/
def readItems : List Char → Option (List ClassItem × List Char)
  | [] => none
  | ']' :: rest => some ([], rest)
  | '\\' :: 'w' :: rest => (readItems rest).map fun (items, rest) => (.word :: items, rest)
  | '\\' :: c :: rest =>
    if Text.isWord c then none else (readItems rest).map fun (items, rest) => (.one c :: items, rest)
  | c :: rest =>
    if active c then none else (readItems rest).map fun (items, rest) => (.one c :: items, rest)

/-- A class, which is not empty. -/
def readClass : List Char → Option (List ClassItem × List Char)
  | '[' :: rest => (readItems rest).filter (!·.1.isEmpty)
  | _ => none

/-- One character of a class, and then any number of characters of another class if there is one, up
    to the end. -/
def read? (pattern : List Char) : Option (List ClassItem × List ClassItem) := do
  let (first, rest) ← readClass pattern
  if rest = ['$'] then return (first, [])
  let (more, rest) ← readClass rest
  if rest = ['*', '$'] then return (first, more) else none

end SearchPattern

namespace CharSet

/-- The items that a set is written as. -/
def items (s : CharSet) : List ClassItem := (if s.word then [.word] else []) ++ s.others.map .one

theorem any_items (s : CharSet) (c : Char) : s.items.any (·.has c) = s.mem c := by
  have hothers : (s.others.map ClassItem.one).any (·.has c) = s.others.contains c := by
    rw [List.any_map, List.contains_eq_any_beq]
    congr 1
    funext d
    exact Bool.beq_comm
  rw [items, mem, List.any_append, hothers]
  cases s.word <;> simp [ClassItem.has]

theorem special_of_active {c : Char} (h : SearchPattern.active c) : special.contains c := by
  have hall : "[]\\^-&~|".toList.all special.contains := by decide
  exact List.all_eq_true.mp hall c (List.contains_iff_mem.mp h)

theorem not_isWord_of_special {c : Char} (h : special.contains c) : Text.isWord c = false := by
  have hall : special.all (!Text.isWord ·) := by decide
  simpa using List.all_eq_true.mp hall c (List.contains_iff_mem.mp h)

/-- An escaped character is read as itself. -/
theorem readItems_escape (c : Char) (rest : List Char) :
    SearchPattern.readItems (escape c ++ rest) =
      (SearchPattern.readItems rest).map fun (items, rest) => (.one c :: items, rest) := by
  rw [escape]
  by_cases hc : special.contains c
  · have hw : c ≠ 'w' := by
      rintro rfl
      exact absurd hc (by decide)
    rw [if_pos hc, List.cons_append, List.singleton_append, SearchPattern.readItems]
    · simp [not_isWord_of_special hc]
    · exact hw
  · have hactive : ¬ SearchPattern.active c := fun h => hc (special_of_active h)
    have hend : c ≠ ']' := by
      rintro rfl
      exact hc (by decide)
    have hescape : c ≠ '\\' := by
      rintro rfl
      exact hc (by decide)
    rw [if_neg hc, List.singleton_append, SearchPattern.readItems]
    · rw [if_neg hactive]
    · exact hend
    · exact fun _ h => absurd h hescape
    · exact fun _ _ h => absurd h hescape

theorem readItems_flatMap_escape (rest : List Char) : ∀ others : List Char,
    SearchPattern.readItems (others.flatMap escape ++ ']' :: rest) =
      some (others.map .one, rest)
  | [] => by rw [List.flatMap_nil, List.nil_append, SearchPattern.readItems, List.map_nil]
  | c :: others => by
      rw [List.flatMap_cons, List.append_assoc, readItems_escape, readItems_flatMap_escape rest others]
      rfl

/-- A set that is not empty is read back from its class. -/
theorem readClass_source {s : CharSet} (hs : s.items ≠ []) (rest : List Char) :
    SearchPattern.readClass (s.source ++ rest) = some (s.items, rest) := by
  have hread : SearchPattern.readItems ((if s.word then ['\\', 'w'] else []) ++
      (s.others.flatMap escape ++ ']' :: rest)) = some (s.items, rest) := by
    rw [items]
    cases s.word with
    | true => simp [SearchPattern.readItems, readItems_flatMap_escape]
    | false => simp [readItems_flatMap_escape]
  have hne : (!s.items.isEmpty) = true := by simpa using hs
  rw [source, List.cons_append, List.append_assoc, List.append_assoc, List.singleton_append,
    SearchPattern.readClass, hread, Option.filter_some, if_pos hne]

end CharSet

/-- The pattern of candidates is read back as the items of its two sets. -/
theorem TokenPattern.read?_source {first : CharSet} {rest : Option CharSet}
    (hfirst : first.items ≠ []) (hrest : ∀ s ∈ rest, s.items ≠ []) :
    SearchPattern.read? (TokenPattern.candidates first rest).source =
      some (first.items, (rest.map CharSet.items).getD []) := by
  cases rest with
  | none =>
    have hsource : (candidates first none).source = first.source ++ [] ++ ['$'] := rfl
    rw [List.append_nil] at hsource
    rw [hsource, SearchPattern.read?, CharSet.readClass_source hfirst]
    rfl
  | some rest =>
    have hsource : (candidates first (some rest)).source =
        first.source ++ (rest.source ++ ['*']) ++ ['$'] := rfl
    rw [List.append_assoc, List.append_assoc, List.singleton_append] at hsource
    have hmore : SearchPattern.readClass (rest.source ++ ['*', '$']) = some (rest.items, ['*', '$']) :=
      CharSet.readClass_source (hrest rest rfl) _
    have hne : rest.source ++ ['*', '$'] ≠ ['$'] := by
      rw [CharSet.source, List.cons_append]
      exact fun h => absurd (List.cons.inj h).1 (by decide)
    rw [hsource, SearchPattern.read?, CharSet.readClass_source hfirst]
    simp only [bind, Option.bind_some, if_neg hne, hmore]
    rfl

/-- Marks that would mean something in a class. -/
example :
    let marks : TokenPattern := .candidates ⟨true, "-]^[\\".toList⟩ none
    SearchPattern.read? marks.source = some ([.word, .one '-', .one ']', .one '^', .one '[',
      .one '\\'], []) := by decide

end LanguageClient
