import LanguageClient.Proofs.Completion.Ranking
import LanguageClient.Proofs.Completion.Token

/-!
The candidates for a cursor. The token is looked for, the candidates that it leaves are ranked and made
ready to be shown, and the result says where the token starts.

    line    let x = fo│       candidates   bar  foo  for       result   starts at `f`, foo  for

`build_eq` says what the result is for candidates that can be read and shown.
-/

namespace LanguageClient

namespace Candidate

theorem completionKind_int (n : Int) : ∃ type, completionKind (.int n) = .ok type := by
  rw [completionKind]
  split
  · exact ⟨_, rfl⟩
  · simp only [Json.asKey, Json.equalNumber?, Json.number?, bind, Except.bind, pure, Except.pure]
    split <;> exact ⟨_, rfl⟩

/-- A candidate that can be shown is shown. -/
theorem ofItem_of_presentable {item : Json} (h : presentable item) (allowHtml : Bool) :
    ∃ c, Completion.ofItem allowHtml item = .ok c ∧ c.item = item := by
  simp only [presentable, Bool.and_eq_true] at h
  obtain ⟨⟨hlabel, hkind⟩, hdetails⟩ := h
  obtain ⟨ms, rfl⟩ : ∃ ms, item = .obj ms := by
    cases item <;> simp [Json.member?] at hlabel ⊢
  obtain ⟨label, hlabel⟩ := Option.isSome_iff_exists.mp hlabel
  obtain ⟨type, htype⟩ :
      ∃ type, completionKind (((Json.obj ms).member? "kind").getD .null) = .ok type := by
    cases hk : (Json.obj ms).member? "kind" with
    | none => exact ⟨.null, rfl⟩
    | some kind =>
      cases kind with
      | int n => exact completionKind_int n
      | _ => simp [hk] at hkind
  obtain ⟨details, hdetails⟩ : ∃ details,
      (((Json.obj ms).member? "labelDetails").getD .null).orElse (.obj []) = .obj details := by
    cases hd : (Json.obj ms).member? "labelDetails" with
    | none => exact ⟨[], rfl⟩
    | some v =>
      cases v with
      | obj details => exact ⟨details, by cases details <;> rfl⟩
      | _ => simp [hd] at hdetails
  have hget (key : String) : (Json.obj ms).get key = .ok (((Json.obj ms).member? key).getD .null) := rfl
  have hdetail : (Json.obj details).get "detail" =
    .ok (((Json.obj details).member? "detail").getD .null) := rfl
  have hrequire : (Json.obj ms).require "label" = .ok label := by
    simp only [Json.require, Json.member?] at hlabel ⊢
    rw [hlabel]
  simp only [Completion.ofItem, hget, hdetails, hdetail, hrequire, htype, bind, Except.bind, pure,
    Except.pure]
  split <;> exact ⟨_, rfl, rfl⟩

/-- Candidates that can be shown are shown in their order. -/
theorem mapM_ofItem (allowHtml : Bool) : ∀ {items : List Json}, (∀ item ∈ items, presentable item) →
    ∃ options, items.mapM (Completion.ofItem allowHtml) = .ok options ∧ options.map (·.item) = items
  | [], _ => ⟨[], rfl, rfl⟩
  | item :: rest, h => by
      obtain ⟨hitem, hrest⟩ := List.forall_mem_cons.mp h
      obtain ⟨c, hc, rfl⟩ := ofItem_of_presentable hitem allowHtml
      obtain ⟨options, hoptions, hmap⟩ := mapM_ofItem allowHtml hrest
      refine ⟨c :: options, ?_, by rw [List.map_cons, hmap]⟩
      simp only [List.mapM_cons, hc, hoptions, bind, Except.bind, pure, Except.pure]

/-- A candidate of which all that the engine asks can be read and shown. -/
def complete (item : Json) : Bool := legible item && shapely item && presentable item

end Candidate

/-- The token of some candidates before the cursor. -/
def tokenOf? (items : List Json) (text : List Char) (offset : Int) : Option Token :=
  if Candidate.firsts items = [] then none else tokenBefore? text offset (Candidate.pattern items)

section

variable {items : List Json} {text : List Char}

/-- The text up to the cursor from where the token starts is the token, and stands on one line. -/
theorem tokenOf?_start (items : List Json) {offset : Nat} (ho : offset ≤ text.length) :
    ∃ start : Nat, start ≤ offset ∧
      ((tokenOf? items text offset).map (·.start)).getD (offset : Int) = (start : Int) ∧
      ((tokenOf? items text offset).map (·.text)).getD [] = (text.take offset).drop start ∧
      ∀ c ∈ (text.take offset).drop start, isLineBreak c = false := by
  cases ht : tokenOf? items text offset with
  | none =>
    have hempty : (text.take offset).drop offset = [] := by
      rw [List.drop_eq_nil_iff, List.length_take]
      exact Nat.min_le_left ..
    exact ⟨offset, Nat.le_refl _, rfl, hempty.symm, by simp [hempty]⟩
  | some t =>
    rw [tokenOf?] at ht
    split at ht
    · simp at ht
    · obtain ⟨start, hstart, -, rfl⟩ := (tokenBefore?_eq_some_iff ho).mp ht
      refine ⟨start, hstart.lt.le, rfl, rfl, fun c hc => ?_⟩
      have hline := (lineStart_lineStartBefore ho).unbroken c
      refine hline ?_
      have hsplit : (text.take offset).drop start =
          ((text.take offset).drop (lineStartBefore text offset)).drop
            (start - lineStartBefore text offset) := by
        rw [List.drop_drop, Nat.add_sub_cancel' hstart.onLine]
      rw [hsplit] at hc
      exact List.mem_of_mem_drop hc

/-- The result for candidates that can be read and shown starts where the token does, or else at the
    cursor, and has the candidates that the token leaves, ranked. -/
theorem CompletionResult.build_eq (h : ∀ item ∈ items, Candidate.complete item) {offset : Nat}
    (ho : offset ≤ text.length) (language : String) (allowHtml : Bool) :
    ∃ (r : CompletionResult) (start : Nat),
      build items text (.int offset) language allowHtml = .ok r ∧ r.start = .int start ∧
      start ≤ offset ∧ ((tokenOf? items text offset).map (·.start)).getD (offset : Int) = (start : Int) ∧
      (∀ c ∈ (text.take offset).drop start, isLineBreak c = false) ∧
      r.options.map (·.item) = Candidate.staged ((text.take offset).drop start) language
        (items.filter (Candidate.passes ((text.take offset).drop start))) := by
  simp only [Candidate.complete, Bool.and_eq_true] at h
  obtain ⟨start, hle, hstart, htext, hline⟩ := tokenOf?_start items ho
  have hkept := filterItems_eq (fun item hitem => (h item hitem).1.1)
    ((text.take offset).drop start)
  have hranked := Candidate.rankItems_eq language hkept fun item hitem =>
    (h item (List.mem_of_mem_filter hitem)).1.1
  have hshown : ∀ item ∈ Candidate.staged ((text.take offset).drop start) language
      (items.filter (Candidate.passes ((text.take offset).drop start))),
      Candidate.presentable item := fun item hitem =>
    (h item (List.mem_of_mem_filter ((Candidate.staged_perm ..).mem_iff.mp hitem))).2
  obtain ⟨options, hoptions, hmap⟩ := Candidate.mapM_ofItem allowHtml hshown
  refine ⟨⟨.int start, options⟩, start, ?_, rfl, hle, hstart, hline, hmap⟩
  have hplace : ((tokenOf? items text offset).map (Json.int ·.start)).getD (.int offset) =
      .int start := by
    rw [← hstart]
    cases tokenOf? items text offset <;> rfl
  rw [build, Candidate.tokenPattern?_eq fun item hitem => (h item hitem).1.2]
  by_cases hnone : Candidate.firsts items = []
  · rw [tokenOf?, if_pos hnone] at hplace htext
    simp only [if_pos hnone, bind, Except.bind, pure, Except.pure, hplace, htext, hranked, hoptions]
  · rw [tokenOf?, if_neg hnone] at hplace htext
    simp only [if_neg hnone, bind, Except.bind, pure, Except.pure, Json.offset, Json.number?, hplace,
      htext, hranked, hoptions]

end

/-- The pattern of candidates names, as it is written, the characters that they begin with and those
    that they go on with, and there is none only if they have no text. With it the token is the
    longest end of the line up to the cursor, within reach, that is shaped like the candidates, if any
    is. A result starts where the token does, or else at the cursor, and the text from there up to the
    cursor, which has no line break, is what the candidates are filtered by. -/
theorem tokenBefore?_longest {items : List Json} (h : ∀ item ∈ items, Candidate.shapely item)
    {text : List Char} {offset : Nat} (ho : offset ≤ text.length) :
    ∃ found line, tokenPattern? items = .ok found ∧ LineStart text offset line ∧
      (found = none ↔ ∀ item ∈ items, Candidate.shape item = []) ∧
      (∀ pattern, found = some pattern →
        (∃ first more, SearchPattern.read? pattern.source = some (first, more) ∧
          (∀ c, first.any (·.has c) ↔ Candidate.Widened (Candidate.firsts items) c) ∧
          ∀ c, more.any (·.has c) ↔ Candidate.Widened (Candidate.others items) c) ∧
        (∀ t, tokenBefore? text offset pattern = some t ↔
          ∃ start : Nat, TokenStart items text line offset start ∧
            (∀ other, TokenStart items text line offset other → start ≤ other) ∧
            t = ⟨start, offset, (text.take offset).drop start⟩) ∧
        (tokenBefore? text offset pattern = none ↔
          ∀ start, ¬ TokenStart items text line offset start)) ∧
      ((∀ item ∈ items, Candidate.complete item) → ∀ language allowHtml,
        ∃ (r : CompletionResult) (start : Nat) (kept : List Json),
          CompletionResult.build items text (.int offset) language allowHtml = .ok r ∧
          r.start = .int start ∧
          (((found.bind (tokenBefore? text offset)).map (·.start)).getD (offset : Int) = (start : Int)) ∧
          (∀ c ∈ (text.take offset).drop start, isLineBreak c = false) ∧
          filterItems items ((text.take offset).drop start) = .ok kept ∧
          (r.options.map (·.item)).Perm kept) := by
  refine ⟨_, _, Candidate.tokenPattern?_eq h, lineStart_lineStartBefore ho, ?_, ?_, ?_⟩
  · rw [← Candidate.firsts_eq_nil_iff]
    simp
  · intro pattern hpattern
    split at hpattern
    · simp at hpattern
    · rename_i hsome
      obtain rfl := Option.some.inj hpattern
      exact ⟨Candidate.read?_pattern hsome, fun _ => tokenBefore?_eq_some_iff ho,
        tokenBefore?_eq_none_iff ho⟩
  · intro hcomplete language allowHtml
    obtain ⟨r, start, hr, hstart, -, hplace, hline, hoptions⟩ :=
      CompletionResult.build_eq hcomplete ho language allowHtml
    have hlegible : ∀ item ∈ items, Candidate.legible item := fun item hitem => by
      have hitem := hcomplete item hitem
      simp only [Candidate.complete, Bool.and_eq_true] at hitem
      exact hitem.1.1
    refine ⟨r, start, _, hr, hstart, ?_, hline, filterItems_eq hlegible _, ?_⟩
    · rw [← hplace, tokenOf?]
      split <;> rfl
    · rw [hoptions]
      exact Candidate.staged_perm ..

/-- Candidates with marks that mean something in a pattern, behind a line break. -/
theorem tokenBefore?_marks :
    let items := ["a]b", "^-]c"].map fun s => Json.obj [("label", .str s)]
    let text := "b]\n^a]]".toList
    (∀ item ∈ items, Candidate.shapely item) ∧ 7 ≤ text.length ∧
      ∃ pattern line, tokenPattern? items = .ok (some pattern) ∧ LineStart text 7 line ∧
        tokenBefore? text 7 pattern = some ⟨3, 7, "^a]]".toList⟩ ∧
        ∀ other, TokenStart items text line 7 other → 3 ≤ other := by
  intro items text
  have h : ∀ item ∈ items, Candidate.shapely item := by decide
  have ho : 7 ≤ text.length := by decide
  have hpattern : tokenPattern? items =
      .ok (some (.candidates ⟨true, ['^']⟩ (some ⟨true, ['-', ']']⟩))) := by rfl
  have htoken : tokenBefore? text 7 (.candidates ⟨true, ['^']⟩ (some ⟨true, ['-', ']']⟩)) =
      some ⟨3, 7, "^a]]".toList⟩ := by decide
  obtain ⟨found, line, hfound, hline, -, hsome, -⟩ := tokenBefore?_longest h ho
  obtain rfl := Except.ok.inj (hpattern.symm.trans hfound)
  obtain ⟨start, -, hleast, ht⟩ := ((hsome _ rfl).2.1 _).mp htoken
  have hstart : (3 : Int) = start := congrArg Token.start ht
  exact ⟨h, ho, _, line, hpattern, hline, htoken, fun other hother => by
    have := hleast other hother
    omega⟩

/-- Filtering keeps the order. A candidate whose filter text begins with the token is kept, unless the
    token is a word that ends in a capital sigma which stands inside a word of the filter text. The
    same holds of a result and what stands before the cursor. -/
theorem filterItems_begun {items : List Json} (h : ∀ item ∈ items, Candidate.legible item)
    (token : List Char) :
    ∃ kept, filterItems items token = .ok kept ∧ kept.Sublist items ∧
      (∀ item ∈ items, ∀ rest, Candidate.filterText item = token ++ rest →
        (item ∈ kept ↔ ¬ (isWordToken token ∧ Text.sigmaTurns [] token rest))) ∧
      ∀ (text : List Char) (offset : Nat), offset ≤ text.length →
        (∀ item ∈ items, Candidate.complete item) → ∀ language allowHtml,
        ∃ (r : CompletionResult) (start : Nat),
          CompletionResult.build items text (.int offset) language allowHtml = .ok r ∧
          r.start = .int start ∧
          ∀ item ∈ items, ∀ rest, Candidate.filterText item = (text.take offset).drop start ++ rest →
            (item ∈ r.options.map (·.item) ↔ ¬ (isWordToken ((text.take offset).drop start) ∧
              Text.sigmaTurns [] ((text.take offset).drop start) rest)) := by
  have hkept {token : List Char} {item : Json} (hitem : item ∈ items) (rest : List Char)
      (hbegun : Candidate.filterText item = token ++ rest) :
      item ∈ items.filter (Candidate.passes token) ↔
        ¬ (isWordToken token ∧ Text.sigmaTurns [] token rest) := by
    rw [List.mem_filter, Candidate.passes_of_prefix hbegun, Bool.not_eq_true', Bool.and_eq_false_iff,
      not_and_or, Bool.not_eq_true, Bool.not_eq_true]
    exact and_iff_right hitem
  refine ⟨_, filterItems_eq h token, List.filter_sublist, fun item hitem => hkept hitem, ?_⟩
  intro text offset ho hcomplete language allowHtml
  obtain ⟨r, start, hr, hstart, -, -, -, hoptions⟩ :=
    CompletionResult.build_eq hcomplete ho language allowHtml
  refine ⟨r, start, hr, hstart, fun item hitem rest hbegun => ?_⟩
  rw [hoptions, (Candidate.staged_perm ..).mem_iff]
  exact hkept hitem rest hbegun

/-- A word that ends in a sigma, before another word. -/
theorem filterItems_begun_word :
    let item := Json.obj [("label", .str "ΤΕΛΟΣ Α")]
    Candidate.legible item ∧ Candidate.filterText item = "ΤΕΛΟΣ".toList ++ " Α".toList ∧
      ∃ kept, filterItems [item] "ΤΕΛΟΣ".toList = .ok kept ∧ item ∈ kept := by
  intro item
  have h : ∀ x ∈ [item], Candidate.legible x := by decide
  have hbegun : Candidate.filterText item = "ΤΕΛΟΣ".toList ++ " Α".toList := by decide
  obtain ⟨kept, hkept, -, hall, -⟩ := filterItems_begun h "ΤΕΛΟΣ".toList
  refine ⟨h item (List.mem_singleton_self item), hbegun, kept, hkept, ?_⟩
  exact (hall item (List.mem_singleton_self item) _ hbegun).mpr (by decide +kernel)

/-- A sigma that stands inside a word of the candidate and ends the token: the candidate begins with
    the token and is not kept. -/
theorem filterItems_lost :
    let item := Json.obj [("label", .str "ΑΣΑ")]
    "ΑΣ".toList <+: Candidate.filterText item ∧ filterItems [item] "ΑΣ".toList = .ok [] ∧
      ∃ r : CompletionResult,
        CompletionResult.build [item] "ΑΣ".toList (.int 2) "" false = .ok r ∧ r.start = .int 0 ∧
          r.options.map (·.item) = [] := by
  intro item
  refine ⟨by decide, by rfl, ⟨.int 0, []⟩, by rfl, rfl, rfl⟩

end LanguageClient
