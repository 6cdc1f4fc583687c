import LanguageClient.Proofs.Framing.Progress

/-!
Any stream in pieces, well formed or not. A stream that is fed as a whole, on which nothing fails and
no header block gives a size below zero, is steady (`steady_of_unfailing`): blocks without a size are
dropped, messages are cut off, and in the end bytes are lacking. So it may be cut anywhere.

    whole    kept ++ piece₁ ++ piece₂ ++ … ──▶ messages | left
    pieces   kept ++ piece₁ ──▶ messages₁ | kept₁ ++ piece₂ ──▶ messages₂ | …
-/

namespace LanguageClient.Framing

/-! ### The sizes of a stream -/

/-- On the way through a stream a header block is met that gives this size. -/
def Meets (bs : Bytes) (size : Int) : Prop :=
  ∃ reached block rest kept, Relation.ReflTransGen Leaves bs reached ∧
    dropJunk reached = (.sized block size rest, kept)

theorem meets_of_front {bs block rest kept : Bytes} {size : Int}
    (h : dropJunk bs = (.sized block size rest, kept)) : Meets bs size :=
  ⟨bs, block, rest, kept, .refl, h⟩

theorem Meets.head {bs rest : Bytes} {size : Int} (h : Leaves bs rest) (hm : Meets rest size) :
    Meets bs size := by
  obtain ⟨reached, block, tail, kept, hrun, hd⟩ := hm
  exact ⟨reached, block, tail, kept, .head h hrun, hd⟩

/-- Only a size below zero can keep a stream from getting shorter. -/
theorem not_stuck_of_sizes {bs : Bytes} (h : ∀ size, Meets bs size → 0 ≤ size) : ¬ Stuck bs := by
  rintro ⟨block, size, rest, hs, hc, hend⟩
  have hfront : dropJunk bs = (.sized block size rest, bs) := by rw [dropJunk_of_split hs, hc]
  have hsize := h size (meets_of_front hfront)
  have hlength := splitHeader?_length hs
  omega

/-- A steady stream gives no size below zero. -/
theorem Steady.size_nonneg {bs left : Bytes} {messages : List (List Char)}
    (h : Steady bs messages left) {size : Int} (hm : Meets bs size) : 0 ≤ size := by
  induction h with
  | waits hw =>
    obtain ⟨reached, block, rest, kept, hrun, hd⟩ := hm
    rcases hrun.cases_head with rfl | ⟨next, ⟨text, hcut⟩, -⟩
    · rcases hw with hw | ⟨block', size', rest', hw, hlt⟩
      · simp [hw] at hd
      · obtain ⟨⟨rfl, rfl, rfl⟩, -⟩ :
            (block' = block ∧ size' = size ∧ rest' = rest) ∧ _ = kept := by simpa [hw] using hd
        omega
    · simp [hw.cut] at hcut
  | @cuts bs after left text messages hc _ ih =>
    obtain ⟨reached, block, rest, kept, hrun, hd⟩ := hm
    rcases hrun.cases_head with rfl | ⟨next, hleaves, hrest⟩
    · obtain ⟨block', size', rest', kept', hc, hsize, -⟩ := hc
      obtain ⟨⟨rfl, rfl, rfl⟩, -⟩ :
          (block' = block ∧ size' = size ∧ rest' = rest) ∧ kept' = kept := by simpa [hc] using hd
      exact hsize
    · obtain rfl := hleaves.unique ⟨text, hc.cut⟩
      exact ih ⟨reached, block, rest, kept, hrest, hd⟩

/-! ### Streams on which nothing fails -/

/-- A try that asks for more bytes lacks them. -/
theorem waits_of_cut {bs kept : Bytes} (h : cut bs = (.waiting, kept)) : Waits bs kept := by
  unfold cut at h
  match hd : dropJunk bs with
  | (.noHeader, kept') =>
    obtain rfl : kept' = kept := by simpa [hd] using h
    exact .inl hd
  | (.bad cause, kept') => simp [hd] at h
  | (.sized block size rest, kept') =>
    by_cases hlt : (rest.length : Int) < size
    · obtain rfl : kept' = kept := by simpa [hd, hlt] using h
      exact .inr ⟨block, size, rest, hd, hlt⟩
    · simp only [hd, if_neg hlt] at h
      split at h <;> simp at h

/-- A message that is cut off has a size, and stands behind the header block that gives it. -/
theorem cuts_of_cut {bs rest kept : Bytes} {text : List Char}
    (h : cut bs = (.message text rest, kept)) (hs : ∀ size, Meets bs size → 0 ≤ size) :
    Cuts bs text rest := by
  unfold cut at h
  match hd : dropJunk bs with
  | (.noHeader, kept') => simp [hd] at h
  | (.bad cause, kept') => simp [hd] at h
  | (.sized block size tail, kept') =>
    have hsize := hs size (meets_of_front hd)
    by_cases hlt : (tail.length : Int) < size
    · simp [hd, hlt] at h
    · simp only [hd, if_neg hlt, bodyOf, if_pos hsize] at h
      cases hdec : decodeText? (tail.take size.toNat) with
      | none => simp [hdec] at h
      | some text' =>
        obtain ⟨⟨rfl, rfl⟩, -⟩ : (text' = text ∧ tail.drop size.toNat = rest) ∧ _ = kept := by
          simpa [hdec] using h
        exact ⟨block, size, tail, kept', hd, hsize, by omega, hdec, rfl⟩

/-- A stream on which nothing fails and that gives no size below zero is steady. -/
theorem steady_of_unfailing {bs : Bytes} (hf : ∀ cause, (cutAll bs).ending ≠ .failed cause)
    (hs : ∀ size, Meets bs size → 0 ≤ size) : Steady bs (cutAll bs).messages (cutAll bs).left := by
  fun_induction cutAll bs with
  | case1 bs kept hcut => exact .waits (waits_of_cut hcut)
  | case2 bs cause kept hcut => exact absurd rfl (hf cause)
  | case3 bs text rest kept hcut hlt run ih =>
    exact .cuts (cuts_of_cut hcut hs) (ih hf fun size hm => hs size (hm.head (leaves_of_message hcut)))
  | case4 bs text rest kept hcut hge =>
    exact absurd ((leaves_of_message hcut).length_lt (not_stuck_of_sizes hs)) hge

/-! ### Any number of pieces -/

/-- Bytes that can be fed as a whole, with nothing failing and no size below zero met, can be fed in
    pieces: nothing fails either, and all pieces together give the same messages in the same order
    and leave the same bytes, whatever was kept from before and wherever the bytes are cut. -/
theorem feedAll_eq_feed (kept stream piece : Bytes) (pieces : List Bytes)
    (hcut : (piece :: pieces).flatten = stream)
    (hf : ∀ cause, (feed kept stream).ending ≠ .failed cause)
    (hs : ∀ size, Meets (kept ++ stream) size → 0 ≤ size) :
    (∀ run ∈ (feedAll kept (piece :: pieces)).1, run.ending = .waiting) ∧
      (feedAll kept (piece :: pieces)).1.flatMap (·.messages) = (feed kept stream).messages ∧
      (feedAll kept (piece :: pieces)).2 = (feed kept stream).left := by
  subst hcut
  exact feedAll_of_steady (List.cons_ne_nil _ _) (steady_of_unfailing hf hs)

/-- The beginning of a line that gives a size. -/
def lineHead : Bytes := "content-L".toList.map byteOf

/-- The rest of that line, a line with another size, which does not count, and the message; an empty
    line, a block without a size, and a message of which two bytes are lacking. -/
def untidy : Bytes :=
  ("ength:  +2 \r\nContent-Length: 9\r\n\r\nab\r\n\r\nX: 1\r\n\r\n".toList ++
    "CONTENT-LENGTH: 4\r\n\r\nab".toList).map byteOf

theorem steady_untidy : Steady (lineHead ++ untidy) [['a', 'b']] (untidy.drop 48) := by
  have hfirst : splitHeader? (lineHead ++ untidy) =
      some ("content-Length:  +2 \r\nContent-Length: 9".toList.map byteOf, untidy.drop 34) := by
    decide +kernel
  have hempty : splitHeader? (untidy.drop 36) = some ([], untidy.drop 40) := by decide +kernel
  have hjunk : splitHeader? (untidy.drop 40) = some ("X: 1".toList.map byteOf, untidy.drop 48) := by
    decide +kernel
  have hlast : splitHeader? (untidy.drop 48) =
      some ("CONTENT-LENGTH: 4".toList.map byteOf, "ab".toList.map byteOf) := by decide +kernel
  have hleft : dropJunk (untidy.drop 36) =
      (.sized ("CONTENT-LENGTH: 4".toList.map byteOf) 4 ("ab".toList.map byteOf), untidy.drop 48) := by
    rw [dropJunk_of_split hempty, show contentLength [] = .ok none by rfl,
      dropJunk_of_split hjunk, show contentLength ("X: 1".toList.map byteOf) = .ok none by rfl,
      dropJunk_of_split hlast,
      show contentLength ("CONTENT-LENGTH: 4".toList.map byteOf) = .ok (some 4) by rfl]
  have hmessage : dropJunk (lineHead ++ untidy) =
      (.sized ("content-Length:  +2 \r\nContent-Length: 9".toList.map byteOf) 2 (untidy.drop 34),
        lineHead ++ untidy) := by
    rw [dropJunk_of_split hfirst, show contentLength
      ("content-Length:  +2 \r\nContent-Length: 9".toList.map byteOf) = .ok (some 2) by rfl]
  have hcuts : Cuts (lineHead ++ untidy) ['a', 'b'] (untidy.drop 36) :=
    ⟨_, 2, _, _, hmessage, by decide, by decide +kernel, by decide +kernel, by decide +kernel⟩
  have hwaits : Waits (untidy.drop 36) (untidy.drop 48) := .inr ⟨_, 4, _, hleft, by decide +kernel⟩
  exact .cuts hcuts (.waits hwaits)

/-- Cut within an empty line and within the message that is not complete. -/
theorem feedAll_untidy :
    let pieces := [(untidy.drop 32).take 38, untidy.drop 70]
    (untidy.take 32 :: pieces).flatten = untidy ∧
      (∀ cause, (feed lineHead untidy).ending ≠ .failed cause) ∧
      (∀ size, Meets (lineHead ++ untidy) size → 0 ≤ size) ∧
      (feedAll lineHead (untidy.take 32 :: pieces)).1.flatMap (·.messages) = [['a', 'b']] := by
  intro pieces
  have hcut : (untidy.take 32 :: pieces).flatten = untidy := by decide +kernel
  have hrun : feed lineHead untidy = ⟨[['a', 'b']], .waiting, untidy.drop 48⟩ :=
    steady_untidy.cutAll
  have hf : ∀ cause, (feed lineHead untidy).ending ≠ .failed cause := by simp [hrun]
  have hs : ∀ size, Meets (lineHead ++ untidy) size → 0 ≤ size :=
    fun _ hm => steady_untidy.size_nonneg hm
  refine ⟨hcut, hf, hs, ?_⟩
  rw [(feedAll_eq_feed lineHead untidy (untidy.take 32) pieces hcut hf hs).2.1, hrun]

end LanguageClient.Framing
