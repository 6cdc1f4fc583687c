import LanguageClient.Framing

/-!
Cutting a stream that arrives in pieces. A run of cuts on the first bytes of a stream goes on where
it stopped once the other bytes are there: the messages cut off already stay as they are, and the
bytes that were kept stand in front of the new ones.

    stream   xs ─────────────▶ ys
    run      messages | kept ++ ys ──▶ more messages | left

This holds as long as no block gives a size below zero, because only then may a cut reach back into
bytes that were read before (`Steady`). The main statements are `Steady.split`, which takes a stream
apart into two pieces, and `feedAll_of_steady`, which puts any number of them together.
-/

namespace LanguageClient.Framing

/-! ### Header blocks of a longer stream -/

/-- More bytes do not change the first header block. -/
theorem splitHeader?_append {xs h r : Bytes} (ys : Bytes) (e : splitHeader? xs = some (h, r)) :
    splitHeader? (xs ++ ys) = some (h, r ++ ys) := by
  fun_induction splitHeader? xs generalizing h r with
  | case1 => simp at e
  | case2 rest =>
    obtain ⟨rfl, rfl⟩ : [] = h ∧ rest = r := by simpa using e
    rfl
  | case3 b rest hb ih =>
    simp only [Option.map_eq_some_iff, Prod.mk.injEq, Prod.exists] at e
    obtain ⟨h', r', he, rfl, rfl⟩ := e
    have hlen := splitHeader?_length he
    have hrest : splitHeader? (b :: (rest ++ ys))
        = (splitHeader? (rest ++ ys)).map fun found => (b :: found.1, found.2) := by
      -- the separator found in `rest` leaves no room for one that starts at `b`
      rw [splitHeader?]
      rintro tail rfl htail
      have hlong : [10, 13, 10].length ≤ rest.length := by
        rw [hlen]
        simp only [List.length_cons, List.length_nil]
        omega
      obtain ⟨w, rfl⟩ : [10, 13, 10] <+: rest :=
        List.prefix_of_prefix_length_le ⟨tail, htail.symm⟩ (List.prefix_append rest ys) hlong
      exact hb w rfl rfl
    rw [List.cons_append, hrest, ih he]
    rfl

/-- How a stream whose first block is complete goes on. -/
theorem dropJunk_of_split {bs block rest : Bytes} (hs : splitHeader? bs = some (block, rest)) :
    dropJunk bs = match contentLength block with
      | .error e => (.bad e, bs)
      | .ok (some size) => (.sized block size rest, bs)
      | .ok none => dropJunk rest := by
  rw [dropJunk]
  split
  · rename_i hn
    simp [hn] at hs
  · rename_i block' rest' hn
    obtain ⟨rfl, rfl⟩ : block' = block ∧ rest' = rest := by simpa [hn] using hs
    rfl

/-- What stands at the front of a stream when more bytes follow. -/
def Front.extend (ys : Bytes) : Front → Front
  | .noHeader => .noHeader
  | .sized block size rest => .sized block size (rest ++ ys)
  | .bad cause => .bad cause

/-- Where no header block is complete, dropping starts again from the bytes that were kept. -/
theorem dropJunk_append_noHeader {xs kept : Bytes} (ys : Bytes)
    (e : dropJunk xs = (.noHeader, kept)) : dropJunk (xs ++ ys) = dropJunk (kept ++ ys) := by
  fun_induction dropJunk xs with
  | case1 bs hs =>
    obtain rfl : bs = kept := by simpa using e
    rfl
  | case2 => simp at e
  | case3 => simp at e
  | case4 bs block rest hs hc _ ih =>
    rw [← ih e, dropJunk_of_split (splitHeader?_append ys hs), hc]

/-- A front that is found stays when more bytes follow. -/
theorem dropJunk_append {xs kept : Bytes} {front : Front} (ys : Bytes)
    (e : dropJunk xs = (front, kept)) (hf : front ≠ .noHeader) :
    dropJunk (xs ++ ys) = (front.extend ys, kept ++ ys) := by
  fun_induction dropJunk xs with
  | case1 bs hs =>
    obtain ⟨rfl, -⟩ : Front.noHeader = front ∧ bs = kept := by simpa using e
    exact absurd rfl hf
  | case2 bs block rest hs cause hc =>
    obtain ⟨rfl, rfl⟩ : Front.bad cause = front ∧ bs = kept := by simpa using e
    rw [dropJunk_of_split (splitHeader?_append ys hs), hc]
    rfl
  | case3 bs block rest hs size hc =>
    obtain ⟨rfl, rfl⟩ : Front.sized block size rest = front ∧ bs = kept := by simpa using e
    rw [dropJunk_of_split (splitHeader?_append ys hs), hc]
    rfl
  | case4 bs block rest hs hc _ ih =>
    rw [← ih e, dropJunk_of_split (splitHeader?_append ys hs), hc]

/-- Dropping stops where it would stop at once. -/
theorem dropJunk_kept {xs kept : Bytes} {front : Front} (e : dropJunk xs = (front, kept)) :
    dropJunk kept = (front, kept) := by
  fun_induction dropJunk xs with
  | case1 bs hs =>
    obtain ⟨rfl, rfl⟩ : Front.noHeader = front ∧ bs = kept := by simpa using e
    rw [dropJunk]
    split
    · rfl
    · rename_i hn
      simp [hn] at hs
  | case2 bs block rest hs cause hc =>
    obtain ⟨rfl, rfl⟩ : Front.bad cause = front ∧ bs = kept := by simpa using e
    rw [dropJunk_of_split hs, hc]
  | case3 bs block rest hs size hc =>
    obtain ⟨rfl, rfl⟩ : Front.sized block size rest = front ∧ bs = kept := by simpa using e
    rw [dropJunk_of_split hs, hc]
  | case4 _ _ _ _ _ _ ih => exact ih e

/-- The bytes after a sized block are fewer than those of the stream. -/
theorem dropJunk_sized_length {xs kept block rest : Bytes} {size : Int}
    (e : dropJunk xs = (.sized block size rest, kept)) : rest.length < xs.length := by
  fun_induction dropJunk xs with
  | case1 => simp at e
  | case2 => simp at e
  | case3 bs block' rest' hs size' hc =>
    obtain ⟨⟨rfl, rfl, rfl⟩, rfl⟩ : (block' = block ∧ size' = size ∧ rest' = rest) ∧ bs = kept := by
      simpa using e
    have := splitHeader?_length hs
    omega
  | case4 bs block' rest' hs hc hlt ih =>
    have := ih e
    omega

/-! ### Streams that end for want of bytes -/

/-- More bytes are needed: there is no complete header block, or the message is not complete. -/
def Waits (bs kept : Bytes) : Prop :=
  dropJunk bs = (.noHeader, kept) ∨
    ∃ block size rest, dropJunk bs = (.sized block size rest, kept) ∧ (rest.length : Int) < size

/-- A message of a size not below zero stands at the front. -/
def Cuts (bs : Bytes) (text : List Char) (after : Bytes) : Prop :=
  ∃ block size rest kept, dropJunk bs = (.sized block size rest, kept) ∧ 0 ≤ size ∧
    size ≤ rest.length ∧ decodeText? (rest.take size.toNat) = some text ∧
    after = rest.drop size.toNat

/-- The messages of a stream are cut off one after the other until bytes are lacking; no block gives
    a size below zero. -/
inductive Steady : Bytes → List (List Char) → Bytes → Prop where
  | waits {bs kept : Bytes} : Waits bs kept → Steady bs [] kept
  | cuts {bs after left : Bytes} {text : List Char} {messages : List (List Char)} :
      Cuts bs text after → Steady after messages left → Steady bs (text :: messages) left

theorem Waits.cut {bs kept : Bytes} (h : Waits bs kept) : cut bs = (.waiting, kept) := by
  rcases h with h | ⟨block, size, rest, h, hlt⟩
  · simp [Framing.cut, h]
  · simp [Framing.cut, h, hlt]

theorem Cuts.cut {bs after : Bytes} {text : List Char} (h : Cuts bs text after) :
    cut bs = (.message text after, after) := by
  obtain ⟨block, size, rest, kept, h, h0, hle, hd, rfl⟩ := h
  have hlt : ¬ (rest.length : Int) < size := by omega
  simp [Framing.cut, h, hlt, bodyOf, h0, hd]

theorem Cuts.length_lt {bs after : Bytes} {text : List Char} (h : Cuts bs text after) :
    after.length < bs.length := by
  obtain ⟨block, size, rest, kept, h, -, -, -, rfl⟩ := h
  have := dropJunk_sized_length h
  rw [List.length_drop]
  omega

/-- The run of cuts on a steady stream. -/
theorem Steady.cutAll {bs left : Bytes} {messages : List (List Char)}
    (h : Steady bs messages left) : cutAll bs = ⟨messages, .waiting, left⟩ := by
  induction h with
  | waits h => rw [Framing.cutAll, h.cut]
  | cuts h _ ih =>
    rw [Framing.cutAll, h.cut]
    simp only [h.length_lt, if_true, ih]

/-- What is left of a steady stream lacks bytes itself. -/
theorem Steady.left_waits {bs left : Bytes} {messages : List (List Char)}
    (h : Steady bs messages left) : Waits left left := by
  induction h with
  | waits h =>
    rcases h with h | ⟨block, size, rest, h, hlt⟩
    · exact .inl (dropJunk_kept h)
    · exact .inr ⟨block, size, rest, dropJunk_kept h, hlt⟩
  | cuts _ _ ih => exact ih

/-- Only what stands at the front matters. -/
theorem Steady.congr {xs ys left : Bytes} {messages : List (List Char)}
    (h : Steady xs messages left) (e : dropJunk xs = dropJunk ys) : Steady ys messages left := by
  cases h with
  | waits h => exact .waits (by rwa [Waits, e] at h)
  | cuts h ht => exact .cuts (by rwa [Cuts, e] at h) ht

/-- A steady stream that is cut into two pieces: the first piece is steady, and so are the bytes kept
    from it together with the second piece. -/
theorem Steady.split {xs ys left : Bytes} {messages : List (List Char)}
    (h : Steady (xs ++ ys) messages left) :
    ∃ first second kept, Steady xs first kept ∧ Steady (kept ++ ys) second left ∧
      messages = first ++ second := by
  -- strong induction on the first piece: each message that is complete in it makes it shorter
  induction hn : xs.length using Nat.strongRecOn generalizing xs messages with
  | ind n ih =>
  subst hn
  match hd : dropJunk xs with
  | (.noHeader, kept) =>
    exact ⟨[], messages, kept, .waits (.inl hd), h.congr (dropJunk_append_noHeader ys hd), rfl⟩
  | (.bad cause, kept) =>
    have hb := dropJunk_append ys hd (by simp)
    cases h with
    | waits h => rcases h with h | ⟨_, _, _, h, _⟩ <;> simp [hb, Front.extend] at h
    | cuts h _ =>
      obtain ⟨_, _, _, _, h, _⟩ := h
      simp [hb, Front.extend] at h
  | (.sized block size rest, kept) =>
    have hb := dropJunk_append ys hd (by simp)
    have hkept : dropJunk (xs ++ ys) = dropJunk (kept ++ ys) := by
      rw [hb, dropJunk_append ys (dropJunk_kept hd) (by simp)]
    by_cases hlt : (rest.length : Int) < size
    · exact ⟨[], messages, kept, .waits (.inr ⟨block, size, rest, hd, hlt⟩), h.congr hkept, rfl⟩
    · cases h with
      | waits h =>
        rcases h with h | ⟨_, _, _, h, hlong⟩
        · simp [hb, Front.extend] at h
        · simp only [hb, Front.extend, Prod.mk.injEq, Front.sized.injEq] at h
          obtain ⟨⟨rfl, rfl, rfl⟩, rfl⟩ := h
          rw [List.length_append] at hlong
          omega
      | cuts h ht =>
        obtain ⟨_, _, _, _, h, h0, hle, hdec, rfl⟩ := h
        simp only [hb, Front.extend, Prod.mk.injEq, Front.sized.injEq] at h
        obtain ⟨⟨rfl, rfl, rfl⟩, rfl⟩ := h
        have hsize : size.toNat ≤ rest.length := by omega
        rw [List.take_append_of_le_length hsize] at hdec
        rw [List.drop_append_of_le_length hsize] at ht
        have hcuts : Cuts xs _ (rest.drop size.toNat) :=
          ⟨block, size, rest, kept, hd, h0, by omega, hdec, rfl⟩
        obtain ⟨first, second, kept', hfirst, hsecond, rfl⟩ := ih _ hcuts.length_lt ht rfl
        exact ⟨_ :: first, second, kept', .cuts hcuts hfirst, hsecond, rfl⟩

/-! ### Any number of pieces -/

/-- Feeds pieces one after the other: the run of each, and the bytes kept in the end. -/
def feedAll (kept : Bytes) : List Bytes → List Run × Bytes
  | [] => ([], kept)
  | piece :: pieces =>
    let run := feed kept piece
    let (runs, left) := feedAll run.left pieces
    (run :: runs, left)

/-- However a steady stream is cut into pieces, no piece fails, and all of them together give the
    messages and leave the bytes of the whole stream. -/
theorem feedAll_of_steady : ∀ {pieces : List Bytes} {kept left : Bytes}
    {messages : List (List Char)}, pieces ≠ [] →
    Steady (kept ++ pieces.flatten) messages left →
    (∀ run ∈ (feedAll kept pieces).1, run.ending = .waiting) ∧
      (feedAll kept pieces).1.flatMap (·.messages) = messages ∧ (feedAll kept pieces).2 = left
  | [], _, _, _, hne, _ => absurd rfl hne
  | [piece], kept, left, messages, _, h => by
      have hrun : feed kept piece = ⟨messages, .waiting, left⟩ := by
        simpa [feed] using h.cutAll
      simp [feedAll, hrun]
  | piece :: next :: pieces, kept, left, messages, _, h => by
      rw [List.flatten_cons, ← List.append_assoc] at h
      obtain ⟨first, second, kept', hfirst, hsecond, rfl⟩ := h.split
      have hrun : feed kept piece = ⟨first, .waiting, kept'⟩ := hfirst.cutAll
      obtain ⟨hend, hmsg, hleft⟩ := feedAll_of_steady (by simp) hsecond
      rw [feedAll]
      simp only [hrun]
      refine ⟨?_, ?_, hleft⟩
      · intro run hr
        rcases List.mem_cons.mp hr with rfl | hr
        · rfl
        · exact hend run hr
      · rw [List.flatMap_cons, hmsg]

end LanguageClient.Framing
