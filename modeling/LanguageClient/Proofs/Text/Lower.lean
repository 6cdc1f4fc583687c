import Mathlib.Data.List.TakeWhile
import LanguageClient.Text.Lower

/-!
Lower case of a text that begins with another one. Each character is mapped on its own, so a beginning
stays a beginning, but for the capital sigma: its form depends on what stands around it, and what
follows a beginning is not there when the beginning is mapped alone.

    beginning   Α Σ       α ς       the sigma ends the word
    text        Α Σ Α     α σ α     the sigma stands inside it

`lower_isPrefix_iff` says that this is the only way in which a beginning is lost.
-/

namespace LanguageClient.Text

/-- Lower case of a text that stands between what precedes it (nearest character first) and what
    follows it. -/
def lowerBetween (before : List Char) : List Char → List Char → List Char
  | [], _ => []
  | c :: text, rest =>
    (if c = 'Σ' then [lowerSigma before (text ++ rest)] else lowerChar c) ++
      lowerBetween (c :: before) text rest

/-- Does the text end in a capital sigma that ends a word there and no longer does once the rest
    follows? What is looked through at the end of a word may stand behind the sigma. -/
def sigmaTurns (before text rest : List Char) : Bool :=
  match text.reverse.dropWhile caseIgnorableRanges.has with
  | c :: front => c == 'Σ' && (meetsCased (front ++ before) && meetsCased rest)
  | [] => false

theorem lowerAfter_append (rest : List Char) : ∀ before text : List Char,
    lowerAfter before (text ++ rest) =
      lowerBetween before text rest ++ lowerAfter (text.reverse ++ before) rest
  | _, [] => rfl
  | before, c :: text => by
      rw [List.cons_append, lowerAfter, lowerAfter_append rest (c :: before) text, lowerBetween,
        List.reverse_cons, List.append_assoc, List.append_assoc]
      rfl

theorem lowerAfter_eq_lowerBetween (before text : List Char) :
    lowerAfter before text = lowerBetween before text [] := by
  have h := lowerAfter_append [] before text
  rwa [List.append_nil, lowerAfter, List.append_nil] at h

/-- What follows changes forms, but not how many characters there are. -/
theorem length_lowerBetween (rest : List Char) : ∀ before text : List Char,
    (lowerBetween before text rest).length = (lowerBetween before text []).length
  | _, [] => rfl
  | before, c :: text => by
      rw [lowerBetween, lowerBetween, List.length_append, List.length_append,
        length_lowerBetween rest (c :: before) text]
      split <;> rfl

/-- Behind a text with a character that is not looked through, nothing is looked at. -/
theorem meetsCased_append (text rest : List Char) :
    meetsCased (text ++ rest) =
      if text.all caseIgnorableRanges.has then meetsCased rest else meetsCased text := by
  split
  · rename_i h
    rw [meetsCased, List.dropWhile_append_of_pos (List.all_eq_true.mp h), meetsCased]
  · rename_i h
    cases hd : text.dropWhile caseIgnorableRanges.has with
    | nil => exact absurd (List.all_eq_true.mpr (List.dropWhile_eq_nil_iff.mp hd)) h
    | cons c more => simp [meetsCased, List.dropWhile_append, hd]

theorem meetsCased_nil : meetsCased [] = false := rfl

/-- The two forms of a sigma between the same characters before it. -/
theorem lowerSigma_eq_iff {before after other : List Char} :
    lowerSigma before after = lowerSigma before other ↔
      (meetsCased before → meetsCased after = meetsCased other) := by
  simp only [lowerSigma]
  cases meetsCased before <;> cases meetsCased after <;> cases meetsCased other <;> simp

/-- The form of a character depends on what follows only if it is a sigma. -/
theorem form_eq_iff {before text rest : List Char} {c : Char} :
    (if c = 'Σ' then [lowerSigma before (text ++ rest)] else lowerChar c) =
        (if c = 'Σ' then [lowerSigma before (text ++ [])] else lowerChar c) ↔
      ¬ (c = 'Σ' ∧ text.all caseIgnorableRanges.has ∧ meetsCased before ∧ meetsCased rest) := by
  by_cases hc : c = 'Σ'
  · simp only [hc, if_true, List.cons.injEq, and_true, true_and, lowerSigma_eq_iff,
      meetsCased_append, meetsCased_nil]
    cases text.all caseIgnorableRanges.has <;> simp
  · simp [hc]

theorem sigma_not_ignorable : caseIgnorableRanges.has 'Σ' = false := by decide +kernel

theorem sigmaTurns_of_all {before text rest : List Char}
    (h : text.all caseIgnorableRanges.has) : sigmaTurns before text rest = false := by
  have hd : text.reverse.dropWhile caseIgnorableRanges.has = [] :=
    List.dropWhile_eq_nil_iff.mpr fun x hx => List.all_eq_true.mp h x (List.mem_reverse.mp hx)
  rw [sigmaTurns, hd]

/-- A sigma in front turns if everything behind it is looked through, another one does as before. -/
theorem sigmaTurns_cons {before text rest : List Char} {c : Char} :
    sigmaTurns before (c :: text) rest =
      if text.all caseIgnorableRanges.has then c == 'Σ' && (meetsCased before && meetsCased rest)
      else sigmaTurns (c :: before) text rest := by
  split
  · rename_i h
    have hall : ∀ x ∈ text.reverse, caseIgnorableRanges.has x := fun x hx =>
      List.all_eq_true.mp h x (List.mem_reverse.mp hx)
    rw [sigmaTurns, List.reverse_cons, List.dropWhile_append_of_pos hall, List.dropWhile_cons]
    by_cases hc : c = 'Σ'
    · simp [hc, sigma_not_ignorable]
    · cases caseIgnorableRanges.has c <;> simp [hc]
  · rename_i h
    cases hd : text.reverse.dropWhile caseIgnorableRanges.has with
    | nil =>
      rw [List.dropWhile_eq_nil_iff] at hd
      exact absurd (List.all_eq_true.mpr fun x hx => hd x (List.mem_reverse.mpr hx)) h
    | cons x front => simp [sigmaTurns, List.dropWhile_append, hd]

/-- What follows a text changes its lower case exactly when a sigma turns. -/
theorem lowerBetween_eq_iff (rest : List Char) : ∀ before text : List Char,
    lowerBetween before text rest = lowerBetween before text [] ↔
      sigmaTurns before text rest = false
  | _, [] => by simp [lowerBetween, sigmaTurns]
  | before, c :: text => by
      have hlength : (if c = 'Σ' then [lowerSigma before (text ++ rest)] else lowerChar c).length =
          (if c = 'Σ' then [lowerSigma before (text ++ [])] else lowerChar c).length := by
        split <;> rfl
      have happend : lowerBetween before (c :: text) rest = lowerBetween before (c :: text) [] ↔
          _ ∧ lowerBetween (c :: before) text rest = lowerBetween (c :: before) text [] :=
        ⟨fun h => List.append_inj h hlength, fun h => by rw [lowerBetween, lowerBetween, h.1, h.2]⟩
      rw [happend, form_eq_iff, lowerBetween_eq_iff rest (c :: before) text, sigmaTurns_cons]
      cases hall : text.all caseIgnorableRanges.has with
      | false => simp
      | true => simp [sigmaTurns_of_all hall]

/-- The lower case of a text begins with that of its beginning, unless a sigma that ends a word at
    the end of the beginning stands inside a word of the text. -/
theorem lower_isPrefixOf_iff (text rest : List Char) :
    (lower text).isPrefixOf (lower (text ++ rest)) ↔ sigmaTurns [] text rest = false := by
  rw [List.isPrefixOf_iff_prefix, lower, lower, lowerAfter_append, lowerAfter_eq_lowerBetween,
    ← lowerBetween_eq_iff]
  constructor
  · intro h
    obtain ⟨more, hmore⟩ := h
    exact (List.append_inj_left hmore (length_lowerBetween rest [] text).symm).symm
  · intro h
    rw [h]
    exact List.prefix_append _ _

end LanguageClient.Text
