import LanguageClient.Proofs.Framing.Pieces

/-!
Streams with a fault: a size that is no number, or a message that is no text. A run of cuts stops at
the fault, and what it has cut off up to there in the same call is given to no one. So it depends on
the pieces in which the stream arrives what is had of the messages in front of the fault.

    stream    message₁  message₂  fault …
    pieces    └───────────┘└──────────┘        message₁ is given, message₂ is lost
    pieces    └────────────────────┘└─┘        both are given

`Faulty` describes such streams, `Faulty.split` takes one apart into two pieces, and
`obtainable_of_failed` says what can be had of it.
-/

namespace LanguageClient.Framing

/-! ### Streams that end at a fault -/

/-- A fault stands at the front: a size that is no number, or a message of a size not below zero that
    is complete and no text. -/
def Breaks (bs : Bytes) (cause : Failure) (kept : Bytes) : Prop :=
  dropJunk bs = (.bad cause, kept) ∨
    ∃ block size rest, dropJunk bs = (.sized block size rest, kept) ∧ 0 ≤ size ∧
      size ≤ rest.length ∧ decodeText? (rest.take size.toNat) = none ∧
      cause = .undecodable "invalid UTF-8"

/-- The messages of a stream are cut off one after the other until there is a fault; no block up to
    there gives a size below zero. -/
inductive Faulty : Bytes → List (List Char) → Failure → Bytes → Prop where
  | breaks {bs kept : Bytes} {cause : Failure} : Breaks bs cause kept → Faulty bs [] cause kept
  | cuts {bs after left : Bytes} {text : List Char} {messages : List (List Char)}
      {cause : Failure} :
      Cuts bs text after → Faulty after messages cause left → Faulty bs (text :: messages) cause left

theorem Breaks.cut {bs kept : Bytes} {cause : Failure} (h : Breaks bs cause kept) :
    cut bs = (.failed cause, kept) := by
  rcases h with h | ⟨block, size, rest, h, h0, hle, hd, rfl⟩
  · simp [Framing.cut, h]
  · have hlt : ¬ (rest.length : Int) < size := by omega
    simp [Framing.cut, h, hlt, bodyOf, h0, hd]

/-- A fault stays a fault when more bytes follow, and all of them are kept. -/
theorem Breaks.append {bs kept : Bytes} {cause : Failure} (h : Breaks bs cause kept) (ys : Bytes) :
    Breaks (bs ++ ys) cause (kept ++ ys) := by
  rcases h with h | ⟨block, size, rest, h, h0, hle, hd, rfl⟩
  · exact .inl (dropJunk_append ys h (by simp))
  · refine .inr ⟨block, size, rest ++ ys, dropJunk_append ys h (by simp), h0, ?_, ?_, rfl⟩
    · rw [List.length_append]
      omega
    · rw [List.take_append_of_le_length (by omega), hd]

/-- What is kept at a fault begins with it. -/
theorem Breaks.kept {bs kept : Bytes} {cause : Failure} (h : Breaks bs cause kept) :
    Breaks kept cause kept := by
  rcases h with h | ⟨block, size, rest, h, hsized⟩
  · exact .inl (dropJunk_kept h)
  · exact .inr ⟨block, size, rest, dropJunk_kept h, hsized⟩

/-- Only what stands at the front matters. -/
theorem Faulty.congr {xs ys left : Bytes} {messages : List (List Char)} {cause : Failure}
    (h : Faulty xs messages cause left) (e : dropJunk xs = dropJunk ys) :
    Faulty ys messages cause left := by
  cases h with
  | breaks h => exact .breaks (by rwa [Breaks, e] at h)
  | cuts h ht => exact .cuts (by rwa [Cuts, e] at h) ht

/-- The run of cuts on a faulty stream. -/
theorem Faulty.cutAll {bs left : Bytes} {messages : List (List Char)} {cause : Failure}
    (h : Faulty bs messages cause left) : cutAll bs = ⟨messages, .failed cause, left⟩ := by
  induction h with
  | breaks h => rw [Framing.cutAll, h.cut]
  | cuts h _ ih =>
    rw [Framing.cutAll, h.cut]
    simp only [h.length_lt, if_true, ih]

/-- What is left of a faulty stream begins with the fault. -/
theorem Faulty.left_breaks {bs left : Bytes} {messages : List (List Char)} {cause : Failure}
    (h : Faulty bs messages cause left) : Breaks left cause left := by
  induction h with
  | breaks h => exact h.kept
  | cuts _ _ ih => exact ih

/-- A faulty stream that is cut into two pieces: either the first piece is steady, and the bytes kept
    from it are faulty together with the second piece, or the first piece is faulty itself. -/
theorem Faulty.split {xs ys left : Bytes} {messages : List (List Char)} {cause : Failure}
    (h : Faulty (xs ++ ys) messages cause left) :
    (∃ first second kept, Steady xs first kept ∧ Faulty (kept ++ ys) second cause left ∧
      messages = first ++ second) ∨ ∃ left', Faulty xs messages cause left' := by
  -- strong induction on the first piece, as for a steady stream
  induction hn : xs.length using Nat.strongRecOn generalizing xs messages with
  | ind n ih =>
  subst hn
  match hd : dropJunk xs with
  | (.noHeader, kept) =>
    exact .inl ⟨[], messages, kept, .waits (.inl hd), h.congr (dropJunk_append_noHeader ys hd), rfl⟩
  | (.bad cause', kept) =>
    have hb := dropJunk_append ys hd (by simp)
    cases h with
    | breaks h =>
      rcases h with h | ⟨_, _, _, h, _⟩
      · obtain ⟨rfl, -⟩ : cause' = cause ∧ kept ++ ys = left := by simpa [hb, Front.extend] using h
        exact .inr ⟨kept, .breaks (.inl hd)⟩
      · simp [hb, Front.extend] at h
    | cuts h _ =>
      obtain ⟨_, _, _, _, h, _⟩ := h
      simp [hb, Front.extend] at h
  | (.sized block size rest, kept) =>
    have hb := dropJunk_append ys hd (by simp)
    have hkept : dropJunk (xs ++ ys) = dropJunk (kept ++ ys) := by
      rw [hb, dropJunk_append ys (dropJunk_kept hd) (by simp)]
    by_cases hlt : (rest.length : Int) < size
    · exact .inl ⟨[], messages, kept, .waits (.inr ⟨block, size, rest, hd, hlt⟩), h.congr hkept, rfl⟩
    · have hsize : size.toNat ≤ rest.length := by omega
      cases h with
      | breaks h =>
        rcases h with h | ⟨_, _, _, h, h0, -, hdec, rfl⟩
        · simp [hb, Front.extend] at h
        · simp only [hb, Front.extend, Prod.mk.injEq, Front.sized.injEq] at h
          obtain ⟨⟨rfl, rfl, rfl⟩, rfl⟩ := h
          rw [List.take_append_of_le_length hsize] at hdec
          exact .inr ⟨kept, .breaks (.inr ⟨block, size, rest, hd, h0, by omega, hdec, rfl⟩)⟩
      | cuts h ht =>
        obtain ⟨_, _, _, _, h, h0, hle, hdec, rfl⟩ := h
        simp only [hb, Front.extend, Prod.mk.injEq, Front.sized.injEq] at h
        obtain ⟨⟨rfl, rfl, rfl⟩, rfl⟩ := h
        rw [List.take_append_of_le_length hsize] at hdec
        rw [List.drop_append_of_le_length hsize] at ht
        have hcuts : Cuts xs _ (rest.drop size.toNat) :=
          ⟨block, size, rest, kept, hd, h0, by omega, hdec, rfl⟩
        rcases ih _ hcuts.length_lt ht rfl with
          ⟨first, second, kept', hfirst, hsecond, rfl⟩ | ⟨left', hfaulty⟩
        · exact .inl ⟨_ :: first, second, kept', .cuts hcuts hfirst, hsecond, rfl⟩
        · exact .inr ⟨left', .cuts hcuts hfaulty⟩

/-! ### Streams on which something fails -/

/-- A try that fails has come to a fault. -/
theorem breaks_of_cut {bs kept : Bytes} {cause : Failure} (h : cut bs = (.failed cause, kept))
    (hs : ∀ size, Meets bs size → 0 ≤ size) : Breaks bs cause kept := by
  unfold cut at h
  match hd : dropJunk bs with
  | (.noHeader, kept') => simp [hd] at h
  | (.bad cause', kept') =>
    obtain ⟨rfl, rfl⟩ : cause' = cause ∧ kept' = kept := by simpa [hd] using h
    exact .inl hd
  | (.sized block size tail, kept') =>
    have hsize := hs size (meets_of_front hd)
    by_cases hlt : (tail.length : Int) < size
    · simp [hd, hlt] at h
    · simp only [hd, if_neg hlt, bodyOf, if_pos hsize] at h
      cases hdec : decodeText? (tail.take size.toNat) with
      | none =>
        obtain ⟨rfl, rfl⟩ : .undecodable "invalid UTF-8" = cause ∧ kept' = kept := by
          simpa [hdec] using h
        exact .inr ⟨block, size, tail, hd, hsize, by omega, hdec, rfl⟩
      | some text => simp [hdec] at h

/-- A stream on which something fails and that gives no size below zero is faulty. -/
theorem faulty_of_failed {bs : Bytes} {cause : Failure} (hf : (cutAll bs).ending = .failed cause)
    (hs : ∀ size, Meets bs size → 0 ≤ size) :
    Faulty bs (cutAll bs).messages cause (cutAll bs).left := by
  fun_induction cutAll bs with
  | case1 bs kept hcut => simp at hf
  | case2 bs cause' kept hcut =>
    obtain rfl : cause' = cause := by simpa using hf
    exact .breaks (breaks_of_cut hcut hs)
  | case3 bs text rest kept hcut hlt run ih =>
    exact .cuts (cuts_of_cut hcut hs) (ih hf fun size hm => hs size (hm.head (leaves_of_message hcut)))
  | case4 bs text rest kept hcut hge => simp at hf

/-- A try that has failed fails again on what it has kept. -/
theorem cut_kept {bs kept : Bytes} {cause : Failure} (h : cut bs = (.failed cause, kept)) :
    cut kept = (.failed cause, kept) := by
  have hfront : (dropJunk bs).2 = kept := by
    unfold cut at h
    split at h
    · simp at h
    · rename_i hd
      rw [hd]
      exact (Prod.ext_iff.mp h).2
    · rename_i hd
      rw [hd]
      split at h
      · simp at h
      · simp only at h
        split at h
        · simp at h
        · exact (Prod.ext_iff.mp h).2
  have hagain : dropJunk kept = dropJunk bs := by
    rw [← hfront]
    exact dropJunk_kept rfl
  unfold cut at h ⊢
  rw [hagain, h]

/-- A faulty stream gives no size below zero. -/
theorem Faulty.size_nonneg {bs left : Bytes} {messages : List (List Char)} {cause : Failure}
    (h : Faulty bs messages cause left) {size : Int} (hm : Meets bs size) : 0 ≤ size := by
  induction h with
  | breaks hb =>
    obtain ⟨reached, block, rest, kept, hrun, hd⟩ := hm
    rcases hrun.cases_head with rfl | ⟨next, ⟨text, hcut⟩, -⟩
    · rcases hb with hb | ⟨block', size', rest', hb, hsize, -⟩
      · simp [hb] at hd
      · obtain ⟨⟨rfl, rfl, rfl⟩, -⟩ :
            (block' = block ∧ size' = size ∧ rest' = rest) ∧ _ = kept := by simpa [hb] using hd
        exact hsize
    · simp [hb.cut] at hcut
  | cuts hc _ ih =>
    obtain ⟨reached, block, rest, kept, hrun, hd⟩ := hm
    rcases hrun.cases_head with rfl | ⟨next, hleaves, hrest⟩
    · obtain ⟨block', size', rest', kept', hc, hsize, -⟩ := hc
      obtain ⟨⟨rfl, rfl, rfl⟩, -⟩ :
          (block' = block ∧ size' = size ∧ rest' = rest) ∧ kept' = kept := by simpa [hc] using hd
      exact hsize
    · obtain rfl := hleaves.unique ⟨_, hc.cut⟩
      exact ih ⟨reached, block, rest, kept, hrest, hd⟩

/-- Where a run of cuts has failed, the next try fails at once. -/
theorem cutAll_left_of_failed {bs : Bytes} {cause : Failure}
    (hf : (cutAll bs).ending = .failed cause) : (cutAll (cutAll bs).left).messages = [] := by
  fun_induction cutAll bs with
  | case1 bs kept hcut => simp at hf
  | case2 bs cause' kept hcut => rw [cutAll, cut_kept hcut]
  | case3 bs text rest kept hcut hlt run ih => exact ih hf
  | case4 bs text rest kept hcut hge => simp at hf

/-! ### Any number of pieces -/

/-- What a caller gets of a run: all messages, but nothing if the run fails. -/
def Run.given (run : Run) : List (List Char) :=
  match run.ending with
  | .failed _ => []
  | _ => run.messages

/-- What can be had of pieces that are fed one after the other: what is given, and what can still be
    cut off the bytes kept in the end. -/
def obtainable (kept : Bytes) (pieces : List Bytes) : List (List Char) :=
  (feedAll kept pieces).1.flatMap Run.given ++ (cutAll (feedAll kept pieces).2).messages

theorem obtainable_cons (kept piece : Bytes) (pieces : List Bytes) :
    obtainable kept (piece :: pieces) =
      (feed kept piece).given ++ obtainable (feed kept piece).left pieces := by
  simp only [obtainable, feedAll, List.flatMap_cons, List.append_assoc]

/-- Nothing more is had where the bytes kept begin with a fault. -/
theorem feedAll_of_breaks {cause : Failure} : ∀ (pieces : List Bytes) {kept : Bytes},
    Breaks kept cause kept →
    (∀ run ∈ (feedAll kept pieces).1, run.ending = .failed cause) ∧ obtainable kept pieces = []
  | [], kept, h => by
      simp [obtainable, feedAll, (Faulty.breaks h).cutAll]
  | piece :: pieces, kept, h => by
      have happend := h.append piece
      have hrun : feed kept piece = ⟨[], .failed cause, kept ++ piece⟩ :=
        (Faulty.breaks happend).cutAll
      obtain ⟨hends, hnone⟩ := feedAll_of_breaks pieces happend.kept
      refine ⟨?_, ?_⟩
      · intro run hr
        rw [feedAll, hrun] at hr
        rcases List.mem_cons.mp hr with rfl | hr
        · rfl
        · exact hends run hr
      · rw [obtainable_cons, hrun]
        exact hnone

/-- A stream that lacks bytes has no fault. -/
theorem Waits.not_faulty {bs kept left : Bytes} {messages : List (List Char)} {cause : Failure}
    (h : Waits bs kept) (hf : Faulty bs messages cause left) : False := by
  have hends := congrArg Run.ending (hf.cutAll.symm.trans (Steady.waits h).cutAll)
  simp at hends

/-- However a faulty stream is cut into pieces: up to some piece none fails, from there on all do. The
    messages of the first that fails are lost, and only those. -/
theorem feedAll_of_faulty {cause : Failure} : ∀ {pieces : List Bytes} {kept left : Bytes}
    {messages : List (List Char)}, pieces ≠ [] →
    Faulty (kept ++ pieces.flatten) messages cause left →
    ∃ before run later, (feedAll kept pieces).1 = before ++ run :: later ∧
      (∀ r ∈ before, r.ending = .waiting) ∧ (∀ r ∈ run :: later, r.ending = .failed cause) ∧
      obtainable kept pieces ++ run.messages = messages
  | [], _, _, _, hne, _ => absurd rfl hne
  | piece :: pieces, kept, left, messages, _, h => by
      rw [List.flatten_cons, ← List.append_assoc] at h
      rcases h.split with ⟨first, second, kept', hfirst, hsecond, rfl⟩ | ⟨left', hfaulty⟩
      · have hrun : feed kept piece = ⟨first, .waiting, kept'⟩ := hfirst.cutAll
        have hne : pieces ≠ [] := by
          rintro rfl
          rw [List.flatten_nil, List.append_nil] at hsecond
          exact hfirst.left_waits.not_faulty hsecond
        obtain ⟨before, run, later, hruns, hwaits, hfails, hmessages⟩ := feedAll_of_faulty hne hsecond
        refine ⟨⟨first, .waiting, kept'⟩ :: before, run, later, ?_, ?_, hfails, ?_⟩
        · rw [feedAll]
          simp only [hrun, hruns, List.cons_append]
        · exact List.forall_mem_cons.mpr ⟨rfl, hwaits⟩
        · rw [obtainable_cons, hrun, List.append_assoc, hmessages]
          rfl
      · have hrun : feed kept piece = ⟨messages, .failed cause, left'⟩ := hfaulty.cutAll
        obtain ⟨hends, hnone⟩ := feedAll_of_breaks pieces hfaulty.left_breaks
        refine ⟨[], ⟨messages, .failed cause, left'⟩, (feedAll left' pieces).1, ?_, by simp, ?_, ?_⟩
        · rw [feedAll]
          simp only [hrun, List.nil_append]
        · exact List.forall_mem_cons.mpr ⟨rfl, hends⟩
        · rw [obtainable_cons, hrun, hnone]
          rfl

/-- Bytes on which feeding fails. Fed at once, all messages in front of the fault are lost. Fed in
    pieces, with no size below zero met, the first pieces wait and the others fail; what is lost is
    what the first failing piece has completed, so all messages in front of the fault are had exactly
    if that piece completes none of them. -/
theorem obtainable_of_failed {kept stream : Bytes} {cause : Failure}
    (hf : (feed kept stream).ending = .failed cause) :
    obtainable kept [stream] = [] ∧
      ((∀ size, Meets (kept ++ stream) size → 0 ≤ size) →
        ∀ piece pieces, (piece :: pieces).flatten = stream →
          ∃ before run later, (feedAll kept (piece :: pieces)).1 = before ++ run :: later ∧
            (∀ r ∈ before, r.ending = .waiting) ∧ (∀ r ∈ run :: later, r.ending = .failed cause) ∧
            obtainable kept (piece :: pieces) ++ run.messages = (feed kept stream).messages ∧
            (obtainable kept (piece :: pieces) = (feed kept stream).messages ↔
              run.messages = [])) := by
  refine ⟨?_, fun hs piece pieces hcut => ?_⟩
  · have hgiven : (feed kept stream).given = [] := by rw [Run.given, hf]
    rw [obtainable_cons, hgiven]
    exact cutAll_left_of_failed hf
  · subst hcut
    obtain ⟨before, run, later, hruns, hwaits, hfails, hmessages⟩ :=
      feedAll_of_faulty (List.cons_ne_nil piece pieces) (faulty_of_failed hf hs)
    refine ⟨before, run, later, hruns, hwaits, hfails, hmessages, ?_⟩
    rw [feed, ← hmessages]
    exact List.self_eq_append_right

/-- A message. -/
def sound : Bytes := "Content-Length: 2\r\n\r\n\x7b\x7d".toList.map byteOf

/-- A block whose size is no number. -/
def broken : Bytes := "Content-Length: x\r\n\r\n".toList.map byteOf

theorem cuts_sound (ys : Bytes) : Cuts (sound ++ ys) ['\x7b', '\x7d'] ys := by
  have hsplit : splitHeader? sound =
      some ("Content-Length: 2".toList.map byteOf, [123, 125]) := by decide +kernel
  have hfront : dropJunk (sound ++ ys) = (.sized ("Content-Length: 2".toList.map byteOf) 2
      ([123, 125] ++ ys), sound ++ ys) := by
    rw [dropJunk_of_split (splitHeader?_append ys hsplit),
      show contentLength ("Content-Length: 2".toList.map byteOf) = .ok (some 2) by rfl]
  have htext : decodeText? [123, 125] = some ['\x7b', '\x7d'] := by decide +kernel
  refine ⟨_, 2, _, _, hfront, by decide, ?_, htext, rfl⟩
  rw [List.length_append, List.length_cons, List.length_singleton]
  omega

theorem breaks_broken :
    Breaks broken (.invalid "invalid literal for int() with base 10: 'x'") broken := by
  have hsplit : splitHeader? broken = some ("Content-Length: x".toList.map byteOf, []) := by
    decide +kernel
  refine .inl ?_
  rw [dropJunk_of_split hsplit, show contentLength ("Content-Length: x".toList.map byteOf) =
    .error (.invalid "invalid literal for int() with base 10: 'x'") by rfl]

/-- A message with a fault behind it. -/
theorem faulty_broken : Faulty (sound ++ broken) [['\x7b', '\x7d']]
    (.invalid "invalid literal for int() with base 10: 'x'") broken :=
  .cuts (cuts_sound broken) (.breaks breaks_broken)

/-- Fed up to the fault and from there on, all is had. -/
theorem obtainable_apart :
    (feed [] (sound ++ broken)).ending =
        .failed (.invalid "invalid literal for int() with base 10: 'x'") ∧
      (∀ size, Meets ([] ++ (sound ++ broken)) size → 0 ≤ size) ∧
      obtainable [] [sound, broken] = [['\x7b', '\x7d']] := by
  have hwhole : feed [] (sound ++ broken) = _ := faulty_broken.cutAll
  have hf : (feed [] (sound ++ broken)).ending = _ := congrArg Run.ending hwhole
  have hs : ∀ size, Meets ([] ++ (sound ++ broken)) size → 0 ≤ size :=
    fun _ hm => faulty_broken.size_nonneg hm
  have hsound : feed [] sound = ⟨[['\x7b', '\x7d']], .waiting, []⟩ := by
    have hcuts := cuts_sound []
    rw [List.append_nil] at hcuts
    exact (Steady.cuts hcuts (.waits (.inl (by simp [dropJunk, splitHeader?])))).cutAll
  have hbroken : feed [] broken = ⟨[], _, broken⟩ := (Faulty.breaks breaks_broken).cutAll
  obtain ⟨before, run, later, hruns, -, hfails, -, hiff⟩ :=
    (obtainable_of_failed hf).2 hs sound [broken] (by simp)
  simp only [feedAll, hsound, hbroken] at hruns
  refine ⟨hf, hs, (hiff.mpr ?_).trans (by rw [hwhole])⟩
  -- the first piece does not fail, so the second one does, and it completes nothing
  rcases List.cons_eq_append_iff.mp hruns with ⟨-, hrun⟩ | ⟨rest, rfl, hrest⟩
  · have hends := hfails run List.mem_cons_self
    obtain ⟨rfl, -⟩ := List.cons.inj hrun
    simp at hends
  · rcases List.cons_eq_append_iff.mp hrest with ⟨-, hrun⟩ | ⟨_, -, hnone⟩
    · obtain ⟨rfl, -⟩ := List.cons.inj hrun
      rfl
    · simp at hnone

/-- In one piece the message is lost. -/
theorem obtainable_together :
    (feed [] (sound ++ broken)).messages = [['\x7b', '\x7d']] ∧
      obtainable [] [sound ++ broken] = [] := by
  have hwhole : feed [] (sound ++ broken) = _ := faulty_broken.cutAll
  refine ⟨by rw [hwhole], ?_⟩
  rw [obtainable_cons, hwhole]
  exact (feedAll_of_breaks [] faulty_broken.left_breaks).2

end LanguageClient.Framing
