import LanguageClient.Proofs.Framing.Chunking
import LanguageClient.Proofs.Framing.Header
import LanguageClient.Transport.Pipe

/-!
Messages that are framed, sent in pieces and read again. A stream is any row of blocks: messages
framed by `encode`, messages under header lines of the sender's own choice, and header blocks that
give no size and are to be skipped.

    blocks  ──bytes──▶  stream  ──cut anywhere──▶  pieces  ──feed / receive──▶  payloads
-/

namespace LanguageClient.Framing

/-- A text is read back from its bytes. -/
theorem decodeText?_encodeText (s : List Char) : decodeText? (encodeText s) = some s := by
  have h : (encodeText s).toByteArray.utf8Decode? = some s.toArray := List.utf8Decode?_utf8Encode
  rw [decodeText?, h]
  rfl

/-- A part of a stream as a sender may write it. -/
inductive Block where
  /-- A message with the header that `encode` gives it. -/
  | plain (payload : List Char)
  /-- A message under header lines, one of which gives its size. -/
  | headed (front : List Bytes) (sizeLine : Bytes) (back : List Bytes) (payload : List Char)
  /-- Header lines that give no size, and no message. -/
  | junk (lines : List Bytes)

namespace Block

def bytes : Block → Bytes
  | .plain s => encode s
  | .headed front sizeLine back s => block (front ++ sizeLine :: back) ++ encodeText s
  | .junk lines => block lines

def payload? : Block → Option (List Char)
  | .plain s => some s
  | .headed _ _ _ s => some s
  | .junk _ => none

/-- Exactly one line of a message's block gives a size, and it gives that of the payload in bytes,
    in no more digits than a number may have. -/
def WellFormed : Block → Prop
  | .plain s => (encodeText s).length < 10 ^ Text.digitLimit
  | .headed front sizeLine back s =>
    (∀ l ∈ front ++ sizeLine :: back, IsHeaderLine l) ∧
      IsLengthLine (encodeText s).length sizeLine ∧ (∀ l ∈ front ++ back, ¬ GivesLength l) ∧
      (encodeText s).length < 10 ^ Text.digitLimit
  | .junk lines => (∀ l ∈ lines, IsHeaderLine l) ∧ ∀ l ∈ lines, ¬ GivesLength l

end Block

/-! ### The stream of some blocks -/

/-- The name of the line that `encode` puts in front of a message. -/
def sizeName : Bytes := "Content-Length:".toList.map byteOf

/-- The line that `encode` puts in front of a message. -/
def sizeLine (size : Nat) : Bytes := sizeName ++ 32 :: decimal size

theorem header_eq_block (size : Nat) : header size = block [sizeLine size] := by
  have hname : "Content-Length: ".toList.map byteOf = sizeName ++ [32] := by decide +kernel
  have hend : "\r\n\r\n".toList.map byteOf = [13, 10, 13, 10] := by decide +kernel
  rw [header, String.toList_append, String.toList_append, List.map_append, List.map_append, hname,
    hend, block, List.intercalate_singleton, sizeLine, ← decimal]
  simp

theorem isLengthLine_sizeLine (size : Nat) : IsLengthLine size (sizeLine size) :=
  ⟨sizeName, 1, 0, by simp [sizeLine], by decide +kernel⟩

theorem isHeaderLine_sizeLine (size : Nat) : IsHeaderLine (sizeLine size) := by
  have hname : 13 ∉ sizeName ∧ 10 ∉ sizeName := by decide +kernel
  have hdigit : ∀ b ∈ decimal size, (headerChar b).isDigit := by
    intro b hb
    apply Text.isDigit_of_mem (n := size)
    rw [← headerText_decimal, headerText_eq_map]
    exact List.mem_map_of_mem hb
  have hcr : 13 ∉ decimal size := fun h => absurd (hdigit 13 h) (by decide)
  have hlf : 10 ∉ decimal size := fun h => absurd (hdigit 10 h) (by decide)
  exact ⟨by simp [sizeLine], by simp [sizeLine, hname.1, hcr], by simp [sizeLine, hname.2, hlf]⟩

/-- A message framed by `encode` is a message under the one line that gives its size. -/
theorem encode_eq_bytes (s : List Char) :
    encode s = (Block.headed [] (sizeLine (encodeText s).length) [] s).bytes := by
  rw [encode, header_eq_block]
  rfl

theorem Cuts.of_headed {front back : List Bytes} {sizeLine : Bytes} {s : List Char}
    (h : (Block.headed front sizeLine back s).WellFormed) (rest : Bytes) :
    Cuts ((Block.headed front sizeLine back s).bytes ++ rest) s rest := by
  obtain ⟨hlines, hsize, hother, hdigits⟩ := h
  have hsplit := splitHeader?_block _ (encodeText s ++ rest) hlines
  have hlength := contentLength_of_lengthLine (fun l hl => (hlines l hl).2.1)
    (fun l hl => hother l (List.mem_append_left _ hl)) hsize hdigits
  have hle : ((encodeText s).length : Int) ≤ (encodeText s ++ rest).length := by
    rw [List.length_append]
    omega
  have hfront : dropJunk ((Block.headed front sizeLine back s).bytes ++ rest) = (.sized
      (List.intercalate [13, 10] (front ++ sizeLine :: back)) (encodeText s).length
      (encodeText s ++ rest), block (front ++ sizeLine :: back) ++ (encodeText s ++ rest)) := by
    rw [Block.bytes, List.append_assoc, dropJunk_of_split hsplit, hlength]
  refine ⟨_, _, _, _, hfront, by omega, hle, ?_, ?_⟩
  · rw [Int.toNat_natCast, List.take_left, decodeText?_encodeText]
  · rw [Int.toNat_natCast, List.drop_left]

theorem dropJunk_junk {lines : List Bytes} (h : (Block.junk lines).WellFormed) (rest : Bytes) :
    dropJunk ((Block.junk lines).bytes ++ rest) = dropJunk rest := by
  obtain ⟨hlines, hother⟩ := h
  rw [Block.bytes, dropJunk_of_split (splitHeader?_block lines rest hlines),
    contentLength_of_junk (fun l hl => (hlines l hl).2.1) hother]

/-- The messages of a stream are its payloads, and nothing is left of it. -/
theorem steady_stream : ∀ (blocks : List Block), (∀ b ∈ blocks, b.WellFormed) →
    Steady (blocks.flatMap Block.bytes) (blocks.filterMap Block.payload?) []
  | [], _ => .waits (.inl (by rw [List.flatMap_nil, dropJunk]; rfl))
  | b :: blocks, h => by
      have ih := steady_stream blocks (fun x hx => h x (List.mem_cons_of_mem _ hx))
      have hb := h b (by simp)
      rw [List.flatMap_cons]
      cases b with
      | plain s =>
        have hs : (Block.headed [] (sizeLine (encodeText s).length) [] s).WellFormed :=
          ⟨by simpa using isHeaderLine_sizeLine _, isLengthLine_sizeLine _, by simp, hb⟩
        have hcut := Cuts.of_headed hs (blocks.flatMap Block.bytes)
        rw [← encode_eq_bytes] at hcut
        exact .cuts hcut ih
      | headed front sizeLine back s => exact .cuts (Cuts.of_headed hb _) ih
      | junk lines => exact ih.congr (dropJunk_junk hb _).symm

end LanguageClient.Framing

namespace LanguageClient.Transport.Pipe

open Framing

/-! ### Reading frame by frame -/

/-- The answers of some calls of `receive` in a row. -/
def receives : Nat → Pipe → List (Except Failure (Option (List Char)))
  | 0, _ => []
  | n + 1, p => p.receive.1 :: receives n p.receive.2

/-- A row of frames still to come: those that wait already, then the messages that the pieces still
    to be read complete. -/
structure Owes (p : Pipe) (frames : List (List Char)) : Prop where
  isOpen : p.closed = false
  process : ∃ process, p.process = some process ∧ (∀ piece ∈ process.output, piece ≠ []) ∧
    ∃ messages left, Waits p.kept p.kept ∧ Steady (p.kept ++ process.output.flatten) messages left ∧
      frames = p.frames ++ messages

/-- A stream at rest gives nothing until more bytes arrive. -/
theorem eq_nil_of_waits {bs kept left : Bytes} {messages : List (List Char)} (hw : Waits bs kept)
    (h : Steady bs messages left) : messages = [] := by
  cases h with
  | waits _ => rfl
  | cuts h _ =>
    have := hw.cut
    rw [h.cut] at this
    simp at this

theorem readFrame_cons_of_feed {kept piece kept' : Bytes} {frame : List Char}
    {more : List (List Char)} (pieces : List Bytes) (hne : piece ≠ [])
    (h : feed kept piece = ⟨frame :: more, .waiting, kept'⟩) :
    readFrame kept (piece :: pieces) = (.ok (some frame), more, kept', pieces) := by
  rw [readFrame, h]
  exact hne

theorem readFrame_nil_of_feed {kept piece kept' : Bytes} (pieces : List Bytes) (hne : piece ≠ [])
    (h : feed kept piece = ⟨[], .waiting, kept'⟩) :
    readFrame kept (piece :: pieces) = readFrame kept' pieces := by
  rw [readFrame, h]
  exact hne

/-- Reading until there is a frame: the first of the messages still to come, and the others stay to
    come. -/
theorem readFrame_of_steady : ∀ {pieces : List Bytes} {kept left : Bytes}
    {messages : List (List Char)}, (∀ piece ∈ pieces, piece ≠ []) → Waits kept kept →
    Steady (kept ++ pieces.flatten) messages left →
    ∃ more later kept' pieces', readFrame kept pieces = (.ok messages.head?, more, kept', pieces') ∧
      (∀ piece ∈ pieces', piece ≠ []) ∧ Waits kept' kept' ∧
      Steady (kept' ++ pieces'.flatten) later left ∧ messages.tail = more ++ later
  | [], kept, left, messages, hne, hw, h => by
      rw [List.flatten_nil, List.append_nil] at h
      obtain rfl := eq_nil_of_waits hw h
      exact ⟨[], [], kept, [], rfl, hne, hw, by simpa using h, rfl⟩
  | piece :: pieces, kept, left, messages, hne, hw, h => by
      have hpiece : piece ≠ [] := hne piece (by simp)
      have hrest : ∀ p ∈ pieces, p ≠ [] := fun p hp => hne p (List.mem_cons_of_mem _ hp)
      rw [List.flatten_cons, ← List.append_assoc] at h
      obtain ⟨first, second, kept', hfirst, hsecond, rfl⟩ := h.split
      have hrun : feed kept piece = ⟨first, .waiting, kept'⟩ := hfirst.cutAll
      cases first with
      | nil =>
        obtain ⟨more, later, kept'', pieces', hr, hp, hw', hs, ht⟩ :=
          readFrame_of_steady hrest hfirst.left_waits hsecond
        rw [readFrame_nil_of_feed pieces hpiece hrun]
        exact ⟨more, later, kept'', pieces', hr, hp, hw', hs, ht⟩
      | cons frame more =>
        rw [readFrame_cons_of_feed pieces hpiece hrun]
        exact ⟨more, second, kept', pieces, rfl, hrest, hfirst.left_waits, hsecond, rfl⟩

/-- A call of `receive` answers with the first frame still to come, and the others stay to come. -/
theorem Owes.receive {p : Pipe} {frames : List (List Char)} (h : p.Owes frames) :
    p.receive.1 = .ok frames.head? ∧ p.receive.2.Owes frames.tail := by
  obtain ⟨hopen, process, hp, hne, messages, left, hw, hs, rfl⟩ := h
  cases hf : p.frames with
  | cons frame more =>
    have hr : p.receive = (.ok (some frame), { p with frames := more }) := by
      rw [Pipe.receive, hf]
    rw [hr]
    exact ⟨rfl, hopen, process, hp, hne, messages, left, hw, hs, rfl⟩
  | nil =>
    obtain ⟨more, later, kept', pieces', hread, hne', hw', hs', ht⟩ :=
      readFrame_of_steady hne hw hs
    have hr : p.receive = (.ok messages.head?, { p with
        frames := more, kept := kept', process := some { process with output := pieces' } }) := by
      rw [Pipe.receive, hf]
      simp only [hopen, hp, hread]
    rw [hr]
    exact ⟨rfl, hopen, _, rfl, hne', later, left, hw', hs', ht⟩

/-- Calls in a row answer with the frames still to come in order, and with none after the last. -/
theorem receives_of_owes : ∀ (n : Nat) {p : Pipe} {frames : List (List Char)}, p.Owes frames →
    p.receives n = (List.range n).map fun i => .ok frames[i]?
  | 0, _, _, _ => rfl
  | n + 1, p, frames, h => by
      obtain ⟨hr, ht⟩ := h.receive
      rw [receives, hr, receives_of_owes n ht, List.range_succ_eq_map, List.map_cons, List.map_map]
      congr 1
      · cases frames <;> rfl
      · apply List.map_congr_left
        intro i _
        cases frames <;> simp

end LanguageClient.Transport.Pipe

namespace LanguageClient.Framing

/-- However the stream of some blocks is cut into pieces, feeding the pieces gives exactly the
    payloads in order, fails nowhere and keeps nothing; and a process that writes the pieces and then
    ends is read as exactly these payloads, one per call, and as none from then on. -/
theorem payloads_of_pieces (blocks : List Block) (pieces : List Bytes)
    (hblocks : ∀ b ∈ blocks, b.WellFormed) (hpieces : ∀ piece ∈ pieces, piece ≠ [])
    (hstream : pieces.flatten = blocks.flatMap Block.bytes) :
    (∀ run ∈ (feedAll [] pieces).1, run.ending = .waiting) ∧
      (feedAll [] pieces).1.flatMap (·.messages) = blocks.filterMap Block.payload? ∧
      (feedAll [] pieces).2 = [] ∧
      ∀ (p : Transport.Pipe) (process : Transport.Program), p.closed = false →
        p.process = some process → process.output = pieces → p.kept = [] → p.frames = [] →
        ∀ n, p.receives n = (List.range n).map fun i => .ok (blocks.filterMap Block.payload?)[i]? := by
  have hsteady : Steady ([] ++ pieces.flatten) (blocks.filterMap Block.payload?) [] := by
    rw [List.nil_append, hstream]
    exact steady_stream blocks hblocks
  have hrest : Waits [] [] := (steady_stream [] (by simp)).left_waits
  have hfeed : (∀ run ∈ (feedAll [] pieces).1, run.ending = .waiting) ∧
      (feedAll [] pieces).1.flatMap (·.messages) = blocks.filterMap Block.payload? ∧
      (feedAll [] pieces).2 = [] := by
    by_cases hne : pieces = []
    · subst hne
      have hnil := Transport.Pipe.eq_nil_of_waits hrest hsteady
      exact ⟨by simp [feedAll], hnil.symm, rfl⟩
    · exact feedAll_of_steady hne hsteady
  refine ⟨hfeed.1, hfeed.2.1, hfeed.2.2, ?_⟩
  rintro p process hopen hp rfl hkept hframes n
  apply Transport.Pipe.receives_of_owes
  exact ⟨hopen, process, hp, hpieces, _, [], by rw [hkept]; exact hrest,
    by rw [hkept]; exact hsteady, by rw [hframes]; rfl⟩

/-- A message under header lines of its own, a block to skip and a framed message; the first message
    is one character of two bytes, and the stream is cut between them. -/
def accentBlocks : List Block :=
  [.headed [[88, 58, 49]] ("CONTENT-length:".toList.map byteOf ++ [32, 50, 32]) [] ['é'],
    .junk [[89]], .plain ['a', 'b']]

theorem payloads_of_accentBlocks :
    (∀ b ∈ accentBlocks, b.WellFormed) ∧
      ([(accentBlocks.flatMap Block.bytes).take 28, (accentBlocks.flatMap Block.bytes).drop 28]).flatten
        = accentBlocks.flatMap Block.bytes ∧
      ((feedAll [] [(accentBlocks.flatMap Block.bytes).take 28,
        (accentBlocks.flatMap Block.bytes).drop 28]).1.flatMap (·.messages)) = [['é'], ['a', 'b']] := by
  have hsmall : 2 < 10 ^ Text.digitLimit := by decide +kernel
  have hline : IsLengthLine 2 ("CONTENT-length:".toList.map byteOf ++ [32, 50, 32]) :=
    ⟨"CONTENT-length:".toList.map byteOf, 1, 1, by decide +kernel, by decide +kernel⟩
  have hblocks : ∀ b ∈ accentBlocks, b.WellFormed := by
    simp only [accentBlocks, List.forall_mem_cons]
    exact ⟨⟨by decide +kernel, hline, by decide +kernel, hsmall⟩,
      ⟨by decide +kernel, by decide +kernel⟩, hsmall, by simp⟩
  have hcut : ([(accentBlocks.flatMap Block.bytes).take 28,
      (accentBlocks.flatMap Block.bytes).drop 28]).flatten = accentBlocks.flatMap Block.bytes := by
    simp
  exact ⟨hblocks, hcut, (payloads_of_pieces _ _ hblocks (by decide +kernel) hcut).2.1⟩

end LanguageClient.Framing
