import Mathlib.Logic.Basic
import Mathlib.Logic.Relation
import LanguageClient.Proofs.Framing.Chunking

/-!
Does cutting off messages come to an end? Each cut that gives a message leaves fewer bytes, with one
exception: a header block whose size is so far below zero that the end of the message is the front
of the stream. Such a block gives an empty message and stays where it is.

    Content-Length: -23 ␍␊ ␍␊        the block has 23 bytes, so the message ends at offset 0
    └────── 23 bytes ───────┘        cut: an empty message, and the same 23 bytes are left

`Stuck` says which streams these are, `cut_stuck` and `cut_progress` what one cut does, and
`feed_ends_iff` that the cuts go on for ever exactly when they come to such a stream.
-/

namespace LanguageClient.Framing

/-! ### One cut -/

/-- The end of the first message lies at the front of the stream or before it. An end before the
    front is counted from the end of the stream, so only one that is farther away than the stream is
    long is moved to the front. -/
def Stuck (bs : Bytes) : Prop :=
  ∃ block size rest, splitHeader? bs = some (block, rest) ∧ contentLength block = .ok (some size) ∧
    (block.length + 4 + size = 0 ∨ block.length + 4 + size ≤ -bs.length)

/-- A try to cut a message off asks for more bytes, fails, or leaves fewer bytes. -/
def Progresses (bs : Bytes) : Prop :=
  (∃ kept, cut bs = (.waiting, kept)) ∨ (∃ cause kept, cut bs = (.failed cause, kept)) ∨
    ∃ text rest, cut bs = (.message text rest, rest) ∧ rest.length < bs.length

/-- The place at which an offset that is moved to the front lies. -/
theorem clampIndex_eq_zero_iff {length : Nat} {i : Int} (h : 0 < length) :
    Text.clampIndex length i = 0 ↔ i = 0 ∨ i ≤ -length := by
  unfold Text.clampIndex
  split <;> omega

/-- What dropping blocks leaves is the stream itself or shorter. -/
theorem dropJunk_length {bs kept : Bytes} {front : Front} (e : dropJunk bs = (front, kept)) :
    kept = bs ∨ kept.length < bs.length := by
  fun_induction dropJunk bs with
  | case1 => exact .inl (Prod.ext_iff.mp e).2.symm
  | case2 => exact .inl (Prod.ext_iff.mp e).2.symm
  | case3 => exact .inl (Prod.ext_iff.mp e).2.symm
  | case4 bs block rest hs hc hlt ih =>
    rcases ih e with rfl | hshort
    · exact .inr hlt
    · exact .inr (by omega)

/-- The sized block that dropping stops at is the first block of what is left. -/
theorem splitHeader?_of_sized {bs kept block rest : Bytes} {size : Int}
    (e : dropJunk bs = (.sized block size rest, kept)) :
    splitHeader? kept = some (block, rest) ∧ contentLength block = .ok (some size) := by
  fun_induction dropJunk bs with
  | case1 => simp at e
  | case2 => simp at e
  | case3 bs block' rest' hs size' hc =>
    obtain ⟨⟨rfl, rfl, rfl⟩, rfl⟩ : (block' = block ∧ size' = size ∧ rest' = rest) ∧ bs = kept := by
      simpa using e
    exact ⟨hs, hc⟩
  | case4 _ _ _ _ _ _ ih => exact ih e

/-- The bytes after a message are not more than those of the stream, and fewer unless the message
    ends at the front of the stream. -/
theorem bodyOf_length {bs block rest : Bytes} {size : Int}
    (hs : splitHeader? bs = some (block, rest)) :
    (bodyOf bs block size rest).2.length ≤ bs.length ∧
      (¬ (block.length + 4 + size = 0 ∨ block.length + 4 + size ≤ -bs.length) →
        (bodyOf bs block size rest).2.length < bs.length) := by
  have hlength := splitHeader?_length hs
  unfold bodyOf
  split
  · simp only [List.length_drop]
    omega
  · simp only [Text.sliceFrom, List.length_drop]
    refine ⟨Nat.sub_le _ _, fun hend => ?_⟩
    rw [← clampIndex_eq_zero_iff (by omega)] at hend
    omega

/-- A message that ends at the front of the stream is empty, and leaves the whole stream. -/
theorem cut_stuck {bs : Bytes} (h : Stuck bs) : cut bs = (.message [] bs, bs) := by
  obtain ⟨block, size, rest, hs, hc, hend⟩ := h
  have hlength := splitHeader?_length hs
  have hneg : ¬ 0 ≤ size := by omega
  have hfront : Text.clampIndex bs.length (block.length + 4 + size) = 0 :=
    (clampIndex_eq_zero_iff (by omega)).mpr hend
  have hbody : bodyOf bs block size rest = ([], bs) := by
    simp [bodyOf, hneg, Text.slice, Text.sliceFrom, hfront]
  have hwait : ¬ (rest.length : Int) < size := by omega
  have hempty : decodeText? [] = some [] := rfl
  simp only [cut, dropJunk_of_split hs, hc, if_neg hwait, hbody, hempty]

theorem cut_progress {bs : Bytes} (h : ¬ Stuck bs) : Progresses bs := by
  unfold Progresses cut
  match hd : dropJunk bs with
  | (.noHeader, kept) => exact .inl ⟨kept, rfl⟩
  | (.bad cause, kept) => exact .inr (.inl ⟨cause, kept, rfl⟩)
  | (.sized block size rest, kept) =>
    obtain ⟨hs, hc⟩ := splitHeader?_of_sized hd
    by_cases hlt : (rest.length : Int) < size
    · exact .inl ⟨kept, by simp [hlt]⟩
    · simp only [if_neg hlt]
      cases decodeText? (bodyOf kept block size rest).1 with
      | none => exact .inr (.inl ⟨_, _, rfl⟩)
      | some text =>
        refine .inr (.inr ⟨text, _, rfl, ?_⟩)
        obtain ⟨hle, hend⟩ : (bodyOf kept block size rest).2.length ≤ kept.length ∧ _ :=
          bodyOf_length hs
        rcases dropJunk_length hd with rfl | hkept
        · exact hend fun hfront => h ⟨block, size, rest, hs, hc, hfront⟩
        · omega

/-! ### A run of cuts -/

/-- A message is cut off a stream and leaves another one. -/
def Leaves (bs rest : Bytes) : Prop := ∃ text, cut bs = (.message text rest, rest)

theorem leaves_of_stuck {bs : Bytes} (h : Stuck bs) : Leaves bs bs := ⟨[], cut_stuck h⟩

/-- A message is cut off a stream that is not stuck: fewer bytes are left. -/
theorem Leaves.length_lt {bs rest : Bytes} (h : Leaves bs rest) (hs : ¬ Stuck bs) :
    rest.length < bs.length := by
  obtain ⟨text, h⟩ := h
  rcases cut_progress hs with ⟨kept, hw⟩ | ⟨cause, kept, hf⟩ | ⟨text', rest', hm, hlt⟩
  · simp [hw] at h
  · simp [hf] at h
  · obtain ⟨⟨-, rfl⟩, -⟩ : (text' = text ∧ rest' = rest) ∧ rest' = rest := by simpa [hm] using h
    exact hlt

/-- What is left once a message is cut off is told twice, and alike. -/
theorem leaves_of_message {bs rest kept : Bytes} {text : List Char}
    (h : cut bs = (.message text rest, kept)) : Leaves bs rest := by
  by_cases hs : Stuck bs
  · obtain ⟨⟨rfl, rfl⟩, rfl⟩ : ([] = text ∧ bs = rest) ∧ bs = kept := by
      simpa [cut_stuck hs] using h
    exact leaves_of_stuck hs
  · rcases cut_progress hs with ⟨_, hw⟩ | ⟨_, _, hf⟩ | ⟨text', rest', hm, -⟩
    · simp [hw] at h
    · simp [hf] at h
    · obtain ⟨⟨rfl, rfl⟩, rfl⟩ : (text' = text ∧ rest' = rest) ∧ rest' = kept := by
        simpa [hm] using h
      exact ⟨text', hm⟩

/-- A cut leaves one stream only. -/
theorem Leaves.unique {bs rest rest' : Bytes} (h : Leaves bs rest) (h' : Leaves bs rest') :
    rest = rest' := by
  obtain ⟨text, h⟩ := h
  obtain ⟨text', h'⟩ := h'
  rw [h] at h'
  exact (Prod.ext_iff.mp h').2

/-- There is no endless run of cuts from a stream exactly when none of them is stuck. -/
theorem acc_leaves_iff {bs : Bytes} :
    Acc (flip Leaves) bs ↔ ∀ last, Relation.ReflTransGen Leaves bs last → ¬ Stuck last := by
  constructor
  · intro hacc
    induction hacc with
    | intro bs hall ih =>
      intro last hrun hstuck
      rcases hrun.cases_head with rfl | ⟨rest, hfirst, hrest⟩
      · -- a stuck stream leaves itself, and would be below itself
        exact ih _ (leaves_of_stuck hstuck) _ .refl hstuck
      · exact ih rest hfirst last hrest hstuck
  · intro hall
    induction hn : bs.length using Nat.strongRecOn generalizing bs with
    | ind n ih =>
    subst hn
    constructor
    intro rest hleaves
    have hlt : rest.length < bs.length := hleaves.length_lt (hall bs .refl)
    exact ih rest.length hlt (fun last hrun => hall last (.head hleaves hrun)) rfl

/-- Only a try that gives a message is followed by another one. -/
theorem not_stuck_of_no_message {bs : Bytes} (h : ∀ rest, ¬ Leaves bs rest) :
    ¬ ∃ last, Relation.ReflTransGen Leaves bs last ∧ Stuck last := by
  rintro ⟨last, hrun, hstuck⟩
  rcases hrun.cases_head with rfl | ⟨rest, hfirst, -⟩
  · exact h _ (leaves_of_stuck hstuck)
  · exact h rest hfirst

/-- The run of cuts is called endless exactly when it comes to a stuck stream. -/
theorem cutAll_endless_iff {bs : Bytes} :
    (cutAll bs).ending = .endless ↔ ∃ last, Relation.ReflTransGen Leaves bs last ∧ Stuck last := by
  fun_induction cutAll bs with
  | case1 bs kept hcut =>
    have hnone := @not_stuck_of_no_message bs fun rest ⟨text, h⟩ => by simp [hcut] at h
    simp [hnone]
  | case2 bs cause kept hcut =>
    have hnone := @not_stuck_of_no_message bs fun rest ⟨text, h⟩ => by simp [hcut] at h
    simp [hnone]
  | case3 bs text rest kept hcut hlt run ih =>
    have hleaves := leaves_of_message hcut
    rw [show ({ run with messages := text :: run.messages } : Run).ending = (cutAll rest).ending
      from rfl, ih]
    constructor
    · rintro ⟨last, hrun, hstuck⟩
      exact ⟨last, .head hleaves hrun, hstuck⟩
    · rintro ⟨last, hrun, hstuck⟩
      rcases hrun.cases_head with rfl | ⟨rest', hfirst, hrest⟩
      · obtain rfl := hleaves.unique (leaves_of_stuck hstuck)
        omega
      · obtain rfl := hleaves.unique hfirst
        exact ⟨last, hrest, hstuck⟩
  | case4 bs text rest kept hcut hge =>
    have hstuck : Stuck bs := not_not.mp fun hs => hge ((leaves_of_message hcut).length_lt hs)
    exact iff_of_true rfl ⟨bs, .refl, hstuck⟩

/-- Bytes that are fed are cut up in finitely many tries exactly when no stuck stream is come to.
    Each try at a stream that is not stuck asks for more bytes, fails, or leaves fewer bytes; at a
    stuck one it gives an empty message and leaves the stream as it was. -/
theorem feed_ends_iff (kept fed : Bytes) :
    (Acc (flip Leaves) (kept ++ fed) ↔
      ∀ bs, Relation.ReflTransGen Leaves (kept ++ fed) bs → ¬ Stuck bs) ∧
    ((feed kept fed).ending = .endless ↔ ¬ Acc (flip Leaves) (kept ++ fed)) ∧
    ∀ bs, (¬ Stuck bs → Progresses bs) ∧ (Stuck bs → cut bs = (.message [] bs, bs)) := by
  refine ⟨acc_leaves_iff, ?_, fun bs => ⟨cut_progress, cut_stuck⟩⟩
  rw [feed, cutAll_endless_iff, acc_leaves_iff]
  simp only [not_forall, not_not, exists_prop]

/-- A header block that takes back as many bytes as it has. -/
def backwards : Bytes := "Content-Length: -23\r\n\r\n".toList.map byteOf

/-- The block is cut off for ever: an empty message each time, and not a byte less. -/
theorem feed_backwards :
    Stuck backwards ∧ ¬ Progresses backwards ∧ ¬ Acc (flip Leaves) ([] ++ backwards) ∧
      (feed [] backwards).ending = .endless := by
  have hstuck : Stuck backwards :=
    ⟨"Content-Length: -23".toList.map byteOf, -23, [], by decide +kernel, by rfl, by decide +kernel⟩
  have hcut := cut_stuck hstuck
  refine ⟨hstuck, ?_, ?_, ?_⟩
  · rintro (⟨kept, hw⟩ | ⟨cause, kept, hf⟩ | ⟨text, rest, hm, hlt⟩)
    · simp [hcut] at hw
    · simp [hcut] at hf
    · obtain ⟨⟨-, rfl⟩, -⟩ : (_ ∧ backwards = rest) ∧ backwards = rest := by simpa [hcut] using hm
      omega
  · rw [List.nil_append, acc_leaves_iff]
    exact fun hall => hall backwards .refl hstuck
  · rw [feed, List.nil_append, cutAll_endless_iff]
    exact ⟨backwards, .refl, hstuck⟩

end LanguageClient.Framing
