import LanguageClient.Proofs.Completion.Filtering
import LanguageClient.Proofs.Order

/-!
The order of candidates in stages. The code sorts once, by four things together. The same order comes
from four steps, each of which keeps what the steps before it have done where it decides nothing:

    sort by the text → underscores to the back → the language's favourites to the front
      → sort texts that begin with the token to the front

`rankItems_staged` says so.
-/

namespace LanguageClient

namespace Candidate

/-- What decides last: the sort text as it is, or the label in lower case. -/
def baseKey (item : Json) : List Char :=
  if (item.textAt "sortText").isEmpty then Text.lower (label item) else item.textAt "sortText"

/-- Does the label or the sort text start with an underscore? -/
def underscored (item : Json) : Bool :=
  (label item).head? == some '_' || (sortText item).head? == some '_'

/-- Is the candidate one that the language puts first? Python puts keyword arguments first, other
    languages prefer none. -/
def favoured (language : String) (item : Json) : Bool :=
  language != "python" || (label item).getLast? == some '='

/-- Does the sort text begin with the token as it was typed? -/
def exact (token : List Char) (item : Json) : Bool := token.isPrefixOf (sortText item)

/-- The ranking, one step after the other. -/
def staged (token : List Char) (language : String) (kept : List Json) : List Json :=
  toFront (exact token) <| toFront (favoured language) <| toFront (!underscored ·) <|
    kept.mergeSort fun a b => !textBefore (baseKey b) (baseKey a)

/-- Are two candidates alike in all that decides? -/
def alike (token : List Char) (language : String) (a b : Json) : Bool :=
  exact token a == exact token b && favoured language a == favoured language b &&
    underscored a == underscored b && baseKey a == baseKey b

/-- The order of the base keys. -/
def baseBefore (a b : Json) : Bool := textBefore (baseKey a) (baseKey b)

/-- The order of all four things together, the most important first. -/
def stagedBefore (token : List Char) (language : String) : Json → Json → Bool :=
  frontFirst (exact token) <| frontFirst (favoured language) <| frontFirst (!underscored ·) baseBefore

/-- The place of a candidate that can be read. Without a token the sort text does not count. -/
def rankOf (token : List Char) (language : String) (item : Json) : Rank where
  exact := (!(!token.isEmpty && exact token item)).toNat
  preference := (!favoured language item).toNat
  underscored := (underscored item).toNat
  text := .text (baseKey item)

/-! ### What the code finds out about a candidate -/

theorem exactness_eq (token : List Char) (item : Json) :
    exactness token (.text (sortText item)) =
      .ok (!(!token.isEmpty && exact token item)).toNat := by
  rw [exactness, exact]
  cases htoken : token.isEmpty with
  | true => rfl
  | false =>
    simp only [Bool.false_eq_true, if_false, Json.chars_text, bind, Except.bind, pure, Except.pure]
    cases List.isPrefixOf token (sortText item) <;> rfl

section

variable {item : Json} (h : legible item)

include h

theorem languagePreference_eq (language : String) :
    languagePreference language item = .ok (!favoured language item).toNat := by
  have hlabel := Json.getOr_of_mayHaveText (mayHaveText_label h)
  by_cases hl : language = "python"
  · simp only [languagePreference, favoured, hl, if_true, hlabel, bind, Except.bind, Json.chars_text,
      pure, Except.pure, label]
    by_cases hlast : (item.textAt "label").getLast? = some '=' <;> simp [hlast, beq_eq_decide]
  · have hne : (language != "python") = true := by simpa using hl
    rw [languagePreference, if_neg hl, favoured, hne]
    rfl

theorem isUnderscored_eq : isUnderscored item = .ok (underscored item) := by
  have hlabel := Json.getOr_of_mayHaveText (mayHaveText_label h)
  simp only [isUnderscored, hlabel, sortText_eq h, bind, Except.bind, Json.chars_text, pure,
    Except.pure, underscored, label]
  by_cases hu : (item.textAt "label").head? = some '_' <;> simp [hu, beq_eq_decide]

theorem rankText_eq : rankText item (.text (sortText item)) = .ok (.text (baseKey item)) := by
  rw [rankText, baseKey]
  rcases Json.get_of_mayHaveText (mayHaveText_sortText h) with ⟨hget, hnone⟩ | hget
  · simp [hget, hnone, bind, Except.bind, Json.truthy, Json.chars_text, pure, Except.pure, sortText,
      textOr]
  · simp only [hget, bind, Except.bind, Json.truthy_text, Json.chars_text, pure, Except.pure,
      sortText, textOr]
    cases hs : item.textAt "sortText" <;> simp

theorem rank_eq (token : List Char) (language : String) :
    rank token language item = .ok (rankOf token language item) := by
  have hunderscored : (if underscored item then 1 else 0) = (underscored item).toNat := by
    cases underscored item <;> rfl
  simp only [rank, sortText_eq h, exactness_eq, languagePreference_eq h, isUnderscored_eq h,
    rankText_eq h, bind, Except.bind, pure, Except.pure, rankOf, hunderscored]

end

theorem less_text (a b : List Char) : (Json.text a).less (.text b) = .ok (textBefore a b) := by
  simp [Json.text, Json.less]

/-- The order of two places that differ in what the tests say and in the text. -/
theorem before_mk {xa xb fa fb ua ub less : Bool} {ta tb : Json} (h : ta.less tb = .ok less) :
    Rank.before ⟨(!xa).toNat, (!fa).toNat, ua.toNat, ta⟩ ⟨(!xb).toNat, (!fb).toNat, ub.toNat, tb⟩ =
      if xa = xb then if fa = fb then if (!ua) = !ub then less else !ua else fa else xa := by
  cases xa <;> cases xb <;> cases fa <;> cases fb <;> cases ua <;> cases ub <;>
    simp [Rank.before, h]

/-- The code's order of places is the order of the four things together. -/
theorem before_rankOf (token : List Char) (language : String) (a b : Json) :
    (rankOf token language a).before (rankOf token language b) = stagedBefore token language a b := by
  rw [rankOf, rankOf, before_mk (less_text _ _)]
  simp only [stagedBefore, frontFirst, baseBefore]
  cases htoken : token.isEmpty with
  | false => simp
  | true =>
    have hall : ∀ item, exact token item = true := fun item => by
      rw [exact, List.isEmpty_iff.mp htoken, List.isPrefixOf]
    simp [hall]

theorem comparable_rankOf (token : List Char) (language : String) (a b : Json) :
    (rankOf token language a).comparable (rankOf token language b) = .ok () := by
  have hless : (rankOf token language a).text.less (rankOf token language b).text = .ok _ :=
    less_text _ _
  simp only [Rank.comparable, hless, bind, Except.bind, pure, Except.pure, ite_self]

theorem allComparable_map_rankOf (token : List Char) (language : String) (items : List Json) :
    Rank.allComparable (items.map (rankOf token language)) = .ok () := by
  induction items with
  | nil => rfl
  | cons item rest ih =>
    have hall : ∀ others : List Json, (others.map (rankOf token language)).forM
        (rankOf token language item).comparable = .ok () := by
      intro others
      induction others with
      | nil => rfl
      | cons other more ihm =>
        rw [List.map_cons, List.forM, comparable_rankOf]
        exact ihm
    rw [List.map_cons, Rank.allComparable, hall]
    exact ih

/-! ### The order of the whole -/

theorem baseBefore_total (a b : Json) : NotAfter baseBefore a b ∨ NotAfter baseBefore b a :=
  textBefore_total _ _

theorem baseBefore_trans (a b c : Json) :
    NotAfter baseBefore a b → NotAfter baseBefore b c → NotAfter baseBefore a c :=
  textBefore_trans _ _ _

/-- One sort by all four things is the sort by the text followed by three moves to the front. -/
theorem sortStable_stagedBefore (token : List Char) (language : String) (items : List Json) :
    sortStable (stagedBefore token language) items = staged token language items := by
  have total₁ := frontFirst_total (!underscored ·) baseBefore_total
  have trans₁ := frontFirst_trans (!underscored ·) baseBefore_trans
  have total₂ := frontFirst_total (favoured language) total₁
  have trans₂ := frontFirst_trans (favoured language) trans₁
  rw [stagedBefore, sortStable_frontFirst _ total₂ trans₂, sortStable_frontFirst _ total₁ trans₁,
    sortStable_frontFirst _ baseBefore_total baseBefore_trans,
    sortStable_eq_mergeSort baseBefore_total baseBefore_trans]
  rfl

/-- Candidates that are alike stand in the order in which they came. -/
theorem staged_filter_alike (token : List Char) (language : String) (item : Json)
    (items : List Json) : (staged token language items).filter (alike token language item) =
      items.filter (alike token language item) := by
  have total := frontFirst_total (exact token) <| frontFirst_total (favoured language) <|
    frontFirst_total (!underscored ·) baseBefore_total
  have trans := frontFirst_trans (exact token) <| frontFirst_trans (favoured language) <|
    frontFirst_trans (!underscored ·) baseBefore_trans
  have hrefl : ∀ s, textBefore s s = false := fun s => (textBefore_total s s).elim id id
  rw [← sortStable_stagedBefore, stagedBefore, ← sortStable_filter _ total trans]
  refine sortStable_eq_self (List.pairwise_of_forall_mem_list fun a ha b hb => ?_)
  have ha := (List.mem_filter.mp ha).2
  have hb := (List.mem_filter.mp hb).2
  simp only [alike, Bool.and_eq_true, beq_iff_eq] at ha hb
  obtain ⟨⟨⟨hx, hf⟩, hu⟩, ht⟩ := ha
  obtain ⟨⟨⟨hx', hf'⟩, hu'⟩, ht'⟩ := hb
  simp [NotAfter, frontFirst, baseBefore, ← hx, ← hx', ← hf, ← hf', ← hu, ← hu', ← ht, ← ht', hrefl]

theorem staged_perm (token : List Char) (language : String) (items : List Json) :
    (staged token language items).Perm items := by
  rw [← sortStable_stagedBefore]
  exact sortStable_perm _ items

/-- Candidates that can be read are shown in the order of the four steps. -/
theorem rankItems_eq {items kept : List Json} {token : List Char} (language : String)
    (hkept : filterItems items token = .ok kept) (h : ∀ item ∈ kept, legible item) :
    rankItems items token language = .ok (staged token language kept) := by
  have hranks : (kept.mapM fun item => do return (← rank token language item, item) :
      Except Failure (List (Rank × Json))) =
        .ok (kept.map fun item => (rankOf token language item, item)) :=
    mapM_eq_ok fun item hitem => by
      simp only [rank_eq (h item hitem), bind, Except.bind, pure, Except.pure]
  have hsort : sortStable (fun a b : Rank × Json => a.1.before b.1)
      (kept.map fun item => (rankOf token language item, item)) = _ :=
    sortStable_map (fun item => (rankOf token language item, item)) (before_rankOf token language) kept
  rw [rankItems, hkept]
  change ((kept.mapM _ : Except Failure (List (Rank × Json))) >>= _) = _
  rw [hranks]
  simp only [bind, Except.bind, hsort, pure, Except.pure, List.map_map, Function.comp_def,
    List.map_id', allComparable_map_rankOf, sortStable_stagedBefore]

end Candidate

/-- The candidates that a token leaves are shown in the order of the four steps. They are the same
    candidates, and those that are alike in all that decides stay in the order in which they came. -/
theorem rankItems_staged {items : List Json} (h : ∀ item ∈ items, Candidate.legible item)
    (token : List Char) (language : String) :
    ∃ kept, filterItems items token = .ok kept ∧
      rankItems items token language = .ok (Candidate.staged token language kept) ∧
      (Candidate.staged token language kept).Perm kept ∧
      ∀ item, (Candidate.staged token language kept).filter (Candidate.alike token language item) =
        kept.filter (Candidate.alike token language item) := by
  have hkept := filterItems_eq h token
  refine ⟨_, hkept, Candidate.rankItems_eq _ hkept fun item hitem => ?_, Candidate.staged_perm .., ?_⟩
  · exact h item (List.mem_of_mem_filter hitem)
  · exact fun item => Candidate.staged_filter_alike token language item _

/-- A name with an underscore, two names that differ in case only, a keyword argument, and a name that
    begins with the token. -/
theorem rankItems_mixed :
    let named (s : String) : Json := .obj [("label", .str s)]
    let hidden : Json := .obj [("label", .str "_f"), ("filterText", .str "f")]
    let items := [hidden, named "foo", named "FOO", named "f=", named "Fa"]
    (∀ item ∈ items, Candidate.legible item) ∧ filterItems items ['F'] = .ok items ∧
      Candidate.staged ['F'] "python" items =
        [named "Fa", named "FOO", named "f=", named "foo", hidden] := by
  intro named hidden items
  have h : ∀ item ∈ items, Candidate.legible item := by decide
  have hall : filterItems items ['F'] = .ok items := by rfl
  have hranked : rankItems items ['F'] "python" =
      .ok [named "Fa", named "FOO", named "f=", named "foo", hidden] := by rfl
  obtain ⟨kept, hkept, hstaged, -⟩ := rankItems_staged h ['F'] "python"
  obtain rfl : items = kept := Except.ok.inj (hall.symm.trans hkept)
  exact ⟨h, hall, Except.ok.inj (hstaged.symm.trans hranked)⟩

end LanguageClient
