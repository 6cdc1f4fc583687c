import Mathlib.Algebra.Group.Nat.Defs
import Mathlib.Data.List.TakeWhile
import LanguageClient.Framing

/-!
Header blocks as a sender may write them: lines that are not empty and hold neither CR nor LF,
joined by CR LF and closed by an empty line. One line may give the size of the message that follows,
its name in any case of letters and blanks around the number.

    Content-Type: x ␍␊ CONTENT-length:  17 ␍␊ ␍␊
    └── a line ───┘    └── gives the size ┘

The main statements say what the reader finds in such a block: its end (`splitHeader?_block`) and
its size (`contentLength_of_lengthLine`, `contentLength_of_junk`).
-/

namespace LanguageClient

namespace Text

/-! ### Decimal numbers are read back -/

theorem digitValue?_of_isDigit {c : Char} (hc : c.isDigit) :
    digitValue? c = some (c.toNat - '0'.toNat) := by
  simp only [Char.isDigit, Bool.and_eq_true, decide_eq_true_eq] at hc
  obtain ⟨hlo, hhi⟩ := hc
  have hlo : 48 ≤ c.toNat := UInt32.le_iff_toNat_le.mp hlo
  have hhi : c.toNat ≤ 57 := UInt32.le_iff_toNat_le.mp hhi
  simp [digitValue?, zeroDigits, hlo, hhi]

theorem readDigits_of_isDigit : ∀ {s : List Char} (acc : Nat), (∀ c ∈ s, c.isDigit) →
    readDigits acc s = some (Nat.ofDigitChars 10 s acc)
  | [], acc, _ => by simp [readDigits]
  | c :: s, acc, h => by
      have hc := h c (by simp)
      have hne : c ≠ '_' := by rintro rfl; simp at hc
      rw [readDigits, digitValue?_of_isDigit hc]
      · simp only
        rw [readDigits_of_isDigit _ (fun x hx => h x (List.mem_cons_of_mem _ hx)),
          Nat.ofDigitChars_cons, Nat.mul_comm]
      · rintro _ _ rfl
        exact absurd rfl hne

theorem readUnsigned?_toDigits (n : Nat) : readUnsigned? (Nat.toDigits 10 n) = some n := by
  have hdigit : ∀ c ∈ Nat.toDigits 10 n, c.isDigit := fun c hc =>
    Nat.isDigit_of_mem_toDigits (by decide) (by decide) hc
  have hvalue := Nat.ofDigitChars_ten_toDigits (n := n)
  match h : Nat.toDigits 10 n with
  | [] => simp at h
  | c :: s =>
    rw [h] at hdigit hvalue
    rw [readUnsigned?, digitValue?_of_isDigit (hdigit c (by simp))]
    simp only
    rw [readDigits_of_isDigit _ (fun x hx => hdigit x (List.mem_cons_of_mem _ hx))]
    simpa [Nat.ofDigitChars_cons] using hvalue

/-- A digit is no white space, and neither a sign nor an underscore. -/
theorem isBlank_of_isDigit {c : Char} (hc : c.isDigit) : isBlank c = false := by
  simp only [Char.isDigit, Bool.and_eq_true, decide_eq_true_eq] at hc
  obtain ⟨hlo, hhi⟩ := hc
  have hlo : 48 ≤ c.toNat := UInt32.le_iff_toNat_le.mp hlo
  have hhi : c.toNat ≤ 57 := UInt32.le_iff_toNat_le.mp hhi
  have h1 : ¬ c.toNat ≤ 32 := by omega
  have h2 : c.toNat < 133 := by omega
  have h3 : ¬ c.toNat ≤ 13 := by omega
  have h4 : ¬ c.toNat < 9 := by omega
  have h5 : ¬ c.toNat < 28 := by omega
  simp [isBlank, Ranges.has, blankRanges, Ranges.mem, h1, h2, h3, h4, h5]

/-- White space at both ends of a number is dropped. -/
theorem trim_number {before number after : List Char} (hb : ∀ c ∈ before, isBlank c)
    (ha : ∀ c ∈ after, isBlank c) (hne : number ≠ []) (hn : ∀ c ∈ number, isBlank c = false) :
    trim (before ++ number ++ after) = number := by
  have hfront : (before ++ number ++ after).dropWhile isBlank = number ++ after := by
    rw [List.append_assoc, List.dropWhile_append_of_pos hb]
    cases number with
    | nil => exact absurd rfl hne
    | cons c rest => simp [hn c (by simp)]
  have hback : (number ++ after).reverse.dropWhile isBlank = number.reverse := by
    rw [List.reverse_append, List.dropWhile_append_of_pos (by simpa using ha)]
    cases h : number.reverse with
    | nil => simp at h; exact absurd h hne
    | cons c rest =>
      have hc : c ∈ number := by
        rw [← List.mem_reverse, h]
        simp
      simp [hn c hc]
  rw [trim, hfront, trimEnd, hback, List.reverse_reverse]

theorem isDigit_of_mem {n : Nat} {c : Char} (hc : c ∈ Nat.toDigits 10 n) : c.isDigit :=
  Nat.isDigit_of_mem_toDigits (by decide) (by decide) hc

theorem not_isNumberGap {n : Nat} {c : Char} (hc : c ∈ Nat.toDigits 10 n) : ¬ isNumberGap c := by
  simp [isNumberGap, isBlank_of_isDigit (isDigit_of_mem hc)]

theorem head?_toDigits_ne {n : Nat} {c : Char} (hc : ¬ c.isDigit) :
    (Nat.toDigits 10 n).head? ≠ some c := fun h => hc (isDigit_of_mem (List.mem_of_mem_head? h))

theorem dropWhile_toDigits (n : Nat) :
    (Nat.toDigits 10 n).dropWhile isNumberGap = Nat.toDigits 10 n := by
  rw [List.dropWhile_eq_self_iff]
  exact fun hl => not_isNumberGap (List.getElem_mem hl)

theorem readSigned?_toDigits (n : Nat) : readSigned? (Nat.toDigits 10 n) = some (n : Int) := by
  rw [readSigned?]
  · rw [readUnsigned?_toDigits]
    rfl
  · intro rest h
    exact head?_toDigits_ne (n := n) (c := '-') (by decide) (by rw [h]; rfl)
  · intro rest h
    exact head?_toDigits_ne (n := n) (c := '+') (by decide) (by rw [h]; rfl)

theorem integer?_toDigits (n : Nat) : integer? (Nat.toDigits 10 n) = some (n : Int) := by
  have hback : (Nat.toDigits 10 n).reverse.dropWhile isNumberGap = (Nat.toDigits 10 n).reverse := by
    rw [List.dropWhile_eq_self_iff]
    exact fun hl => not_isNumberGap (List.mem_reverse.mp (List.getElem_mem hl))
  rw [integer?, dropWhile_toDigits, hback, List.reverse_reverse, readSigned?_toDigits]

theorem leadingDigits_toDigits (n : Nat) :
    leadingDigits (Nat.toDigits 10 n) = (Nat.toDigits 10 n).length := by
  have hm := head?_toDigits_ne (n := n) (c := '-') (by decide)
  have hp := head?_toDigits_ne (n := n) (c := '+') (by decide)
  have hrun : (Nat.toDigits 10 n).takeWhile (fun c => (digitValue? c).isSome || c == '_')
      = Nat.toDigits 10 n := by
    rw [List.takeWhile_eq_self_iff]
    intro c hc
    simp [digitValue?_of_isDigit (isDigit_of_mem hc)]
  have hplain : (Nat.toDigits 10 n).filter (· ≠ '_') = Nat.toDigits 10 n := by
    rw [List.filter_eq_self]
    intro c hc
    have hne : c ≠ '_' := by
      rintro rfl
      exact Nat.underscore_not_in_toDigits hc
    simpa using hne
  simp only [leadingDigits, dropWhile_toDigits, hm, hp, decide_false, Bool.or_self,
    Bool.false_eq_true, if_false, hrun, hplain, readUnsigned?_toDigits, Option.isSome_some, if_true]

/-- A number in decimal is read back, if it has no more digits than are read. -/
theorem readInteger_toDigits {n : Nat} (h : n < 10 ^ digitLimit) :
    readInteger (Nat.toDigits 10 n) = .ok n := by
  have hlimit : ¬ digitLimit < (Nat.toDigits 10 n).length := by
    have hpos : 0 < digitLimit := by decide
    have := (Nat.length_toDigits_le_iff (b := 10) (n := n) (by decide) hpos).mpr h
    omega
  rw [readInteger]
  simp only [leadingDigits_toDigits, hlimit, if_false, integer?_toDigits]

end Text

namespace Framing

/-! ### Header lines -/

/-- A header line: not empty, and free of CR and LF. -/
def IsHeaderLine (line : Bytes) : Prop := line ≠ [] ∧ 13 ∉ line ∧ 10 ∉ line

instance (line : Bytes) : Decidable (IsHeaderLine line) := inferInstanceAs (Decidable (_ ∧ _ ∧ _))

/-- A letter in lower case; other bytes stay as they are. -/
def lowerByte (b : UInt8) : UInt8 := if 65 ≤ b ∧ b ≤ 90 then b + 32 else b

/-- The name of the line that gives the size, with its colon. -/
def lengthName : Bytes := "content-length:".toList.map byteOf

/-- Does a line have that name, in any case of letters? -/
def GivesLength (line : Bytes) : Prop := lengthName <+: line.map lowerByte

instance (line : Bytes) : Decidable (GivesLength line) := inferInstanceAs (Decidable (_ <+: _))

/-- A number in decimal. -/
def decimal (n : Nat) : Bytes := (toString n).toList.map byteOf

/-- A line that gives a size: the name in any case of letters, then the size in decimal, with blanks
    around it. -/
def IsLengthLine (size : Nat) (line : Bytes) : Prop :=
  ∃ name before after, line = name ++ (List.replicate before 32 ++ decimal size ++
    List.replicate after 32) ∧ name.map lowerByte = lengthName

/-- The bytes of a block of header lines, with the empty line that ends it. -/
def block (lines : List Bytes) : Bytes := List.intercalate [13, 10] lines ++ [13, 10, 13, 10]

/-- A byte of a header as a character. -/
def headerChar (b : UInt8) : Char := if b < 128 then Char.ofNat b.toNat else Char.ofNat 0xFFFD

theorem headerText_eq_map (bs : Bytes) : headerText bs = bs.map headerChar := rfl

/-- A fact about all bytes that can be checked byte by byte. -/
theorem forall_byte {p : UInt8 → Prop} (h : ∀ n < 256, p (UInt8.ofNat n)) (b : UInt8) : p b := by
  have := h b.toNat b.toNat_lt
  rwa [UInt8.ofNat_toNat] at this

theorem toLower_headerChar (b : UInt8) : (headerChar b).toLower = headerChar (lowerByte b) := by
  revert b
  exact forall_byte (by decide +kernel)

/-- A byte stands for a character below 128 only if it is the byte of that character. -/
theorem headerChar_eq_iff {c : Char} (hc : c.toNat < 128) (b : UInt8) :
    headerChar b = c ↔ b = byteOf c := by
  have hbyte : (byteOf c).toNat = c.toNat := by
    rw [byteOf, Nat.toUInt8, UInt8.toNat_ofNat']
    omega
  by_cases hb : b < 128
  · have hlow : b.toNat < 128 := UInt8.lt_iff_toNat_lt.mp hb
    have hchar : (Char.ofNat b.toNat).toNat = b.toNat := by
      rw [Char.ofNat, dif_pos (.inl (by omega))]
      rfl
    rw [headerChar, if_pos hb, ← Char.toNat_inj, hchar, ← UInt8.toNat_inj, hbyte]
  · have hhigh : ¬ b.toNat < 128 := fun h => hb (UInt8.lt_iff_toNat_lt.mpr h)
    rw [headerChar, if_neg hb]
    constructor
    · rintro rfl
      exact absurd hc (by decide)
    · rintro rfl
      omega

theorem cr_notMem_headerText {line : Bytes} (h : 13 ∉ line) : '\r' ∉ headerText line := by
  rw [headerText_eq_map, List.mem_map]
  rintro ⟨b, hb, hc⟩
  obtain rfl : b = 13 := (headerChar_eq_iff (by decide) b).mp hc
  exact h hb

theorem map_toLower_headerText (line : Bytes) :
    (headerText line).map Char.toLower = headerText (line.map lowerByte) := by
  simp [headerText_eq_map, toLower_headerChar]

/-- A word of characters below 128 stands at the front of the text exactly if its bytes stand at the
    front of the line. -/
theorem isPrefixOf_headerText : ∀ (name : List Char) (line : Bytes), (∀ c ∈ name, c.toNat < 128) →
      (name.isPrefixOf (headerText line) ↔ name.map byteOf <+: line)
  | [], line, _ => by simp
  | c :: name, [], _ => by simp [headerText]
  | c :: name, b :: line, h => by
      have ih := isPrefixOf_headerText name line (fun x hx => h x (List.mem_cons_of_mem _ hx))
      have hc := headerChar_eq_iff (h c List.mem_cons_self) b
      simp only [headerText_eq_map] at ih ⊢
      rw [List.map_cons, List.map_cons, List.isPrefixOf, List.cons_prefix_cons, Bool.and_eq_true,
        ih, beq_iff_eq, eq_comm, hc, eq_comm]

theorem toNat_lt_of_mem_name : ∀ c ∈ "content-length:".toList, c.toNat < 128 := by
  have hall : ("content-length:".toList.all fun c => c.toNat < 128) = true := by decide +kernel
  exact fun c hc => of_decide_eq_true (List.all_eq_true.mp hall c hc)

theorem lengthField?_eq_none {line : Bytes} (h : ¬ GivesLength line) :
    lengthField? (headerText line) = none := by
  have hp := isPrefixOf_headerText "content-length:".toList (line.map lowerByte)
    toNat_lt_of_mem_name
  rw [lengthField?, map_toLower_headerText]
  simp only [hp]
  exact if_neg h

theorem lengthField?_of_name {name field : Bytes} (h : name.map lowerByte = lengthName) :
    lengthField? (headerText (name ++ field)) = some (headerText field) := by
  have hp := isPrefixOf_headerText "content-length:".toList ((name ++ field).map lowerByte)
    toNat_lt_of_mem_name
  have hpre : lengthName <+: (name ++ field).map lowerByte :=
    ⟨field.map lowerByte, by rw [List.map_append, h]⟩
  have hlen : "content-length:".toList.length = name.length := by
    calc "content-length:".toList.length = lengthName.length := (List.length_map byteOf).symm
      _ = name.length := by rw [← h, List.length_map]
  have hdrop : (headerText (name ++ field)).drop name.length = headerText field := by
    simp [headerText_eq_map]
  rw [lengthField?, map_toLower_headerText]
  simp only [hp, hlen, hdrop]
  exact if_pos hpre

/-! ### The size that a block gives -/

theorem headerLines_of_notMem : ∀ (line : List Char), '\r' ∉ line → headerLines line = [line]
  | [], _ => rfl
  | c :: line, h => by
      have ih := headerLines_of_notMem line (fun hm => h (List.mem_cons_of_mem _ hm))
      rw [headerLines, ih]
      rintro rest rfl -
      exact h (by simp)

theorem headerLines_append : ∀ (line rest : List Char), '\r' ∉ line →
    headerLines (line ++ '\r' :: '\n' :: rest) = line :: headerLines rest
  | [], rest, _ => rfl
  | c :: line, rest, h => by
      have ih := headerLines_append line rest (fun hm => h (List.mem_cons_of_mem _ hm))
      rw [List.cons_append, headerLines, ih]
      rintro _ rfl -
      exact h (by simp)

/-- The lines of a block are found again. -/
theorem headerLines_block : ∀ (lines : List Bytes), lines ≠ [] → (∀ l ∈ lines, 13 ∉ l) →
    headerLines (headerText (List.intercalate [13, 10] lines)) = lines.map headerText
  | [], hne, _ => absurd rfl hne
  | [line], _, h => by
      rw [List.intercalate_singleton]
      exact headerLines_of_notMem _ (cr_notMem_headerText (h line (by simp)))
  | line :: next :: lines, _, h => by
      have ih := headerLines_block (next :: lines) (by simp)
        (fun l hl => h l (List.mem_cons_of_mem _ hl))
      have hsplit : headerText (List.intercalate [13, 10] (line :: next :: lines))
          = headerText line ++ '\r' :: '\n' ::
            headerText (List.intercalate [13, 10] (next :: lines)) := by
        rw [List.intercalate_cons_cons]
        simp only [headerText_eq_map, List.map_append, List.append_assoc]
        rfl
      rw [hsplit, headerLines_append _ _ (cr_notMem_headerText (h line (by simp))), ih]
      rfl

/-- A block without a line that gives a size. -/
theorem contentLength_of_junk {lines : List Bytes} (h : ∀ l ∈ lines, 13 ∉ l)
    (hn : ∀ l ∈ lines, ¬ GivesLength l) :
    contentLength (List.intercalate [13, 10] lines) = .ok none := by
  have hnone : (headerLines (headerText (List.intercalate [13, 10] lines))).findSome? lengthField?
      = none := by
    by_cases hne : lines = []
    · subst hne
      rfl
    · rw [headerLines_block lines hne h, List.findSome?_map, List.findSome?_eq_none_iff]
      exact fun l hl => lengthField?_eq_none (hn l hl)
  rw [contentLength, hnone]

theorem headerText_decimal (n : Nat) : headerText (decimal n) = Nat.toDigits 10 n := by
  have hchar : ∀ c : Char, c.isDigit → headerChar (byteOf c) = c := by
    intro c hc
    simp only [Char.isDigit, Bool.and_eq_true, decide_eq_true_eq] at hc
    have hhi : c.toNat ≤ 57 := UInt32.le_iff_toNat_le.mp hc.2
    exact (headerChar_eq_iff (by omega) _).mpr rfl
  have hmap : (Nat.toDigits 10 n).map (headerChar ∘ byteOf) = (Nat.toDigits 10 n).map id :=
    List.map_congr_left fun c hc => hchar c (Text.isDigit_of_mem hc)
  rw [decimal, Nat.toString_eq_ofList_toDigits, String.toList_ofList, headerText_eq_map,
    List.map_map, hmap, List.map_id]

/-- The number of a line that gives a size is read back. -/
theorem readInteger_field {size before after : Nat} (h : size < 10 ^ Text.digitLimit) :
    Text.readInteger (Text.trim (headerText (List.replicate before 32 ++ decimal size ++
      List.replicate after 32))) = .ok size := by
  have hblank : ∀ n, ∀ c ∈ headerText (List.replicate n 32), Text.isBlank c := by
    intro n c hc
    rw [headerText_eq_map, List.map_replicate] at hc
    rw [List.eq_of_mem_replicate hc]
    decide
  have htext : headerText (List.replicate before 32 ++ decimal size ++ List.replicate after 32)
      = headerText (List.replicate before 32) ++ Nat.toDigits 10 size
        ++ headerText (List.replicate after 32) := by
    rw [← headerText_decimal]
    simp [headerText_eq_map]
  rw [htext, Text.trim_number (hblank before) (hblank after) (by simp)
    (fun c hc => Text.isBlank_of_isDigit (Text.isDigit_of_mem hc)), Text.readInteger_toDigits h]

/-- A block in which one line gives a size, and none before it does. -/
theorem contentLength_of_lengthLine {front back : List Bytes} {line : Bytes} {size : Nat}
    (h : ∀ l ∈ front ++ line :: back, 13 ∉ l) (hfront : ∀ l ∈ front, ¬ GivesLength l)
    (hline : IsLengthLine size line) (hsize : size < 10 ^ Text.digitLimit) :
    contentLength (List.intercalate [13, 10] (front ++ line :: back)) = .ok (some size) := by
  obtain ⟨name, before, after, rfl, hname⟩ := hline
  have hnone : (front.map headerText).findSome? lengthField? = none := by
    rw [List.findSome?_map, List.findSome?_eq_none_iff]
    exact fun l hl => lengthField?_eq_none (hfront l hl)
  rw [contentLength, headerLines_block _ (by simp) h, List.map_append, List.findSome?_append, hnone,
    List.map_cons, List.findSome?_cons, lengthField?_of_name hname]
  simp only [Option.none_or, readInteger_field hsize]

/-! ### The end of a block -/

theorem splitHeader?_append_of_notMem : ∀ (line rest : Bytes), 13 ∉ line →
    splitHeader? (line ++ rest) = (splitHeader? rest).map fun (h, r) => (line ++ h, r)
  | [], rest, _ => by simp
  | b :: line, rest, h => by
      have ih := splitHeader?_append_of_notMem line rest
        (fun hm => h (List.mem_cons_of_mem _ hm))
      rw [List.cons_append, splitHeader?, ih, Option.map_map]
      · rfl
      · rintro _ rfl -
        exact h (by simp)

/-- The line break between two lines is not the end of a block. -/
theorem splitHeader?_lineBreak {b : UInt8} {rest : Bytes} (h : b ≠ 13) :
    splitHeader? (13 :: 10 :: b :: rest)
      = (splitHeader? (b :: rest)).map fun (h, r) => (13 :: 10 :: h, r) := by
  rw [splitHeader?, splitHeader?, Option.map_map]
  · rfl
  · rintro _ h10 -
    exact absurd h10 (by decide)
  · rintro _ - htail
    simp only [List.cons.injEq] at htail
    exact h htail.2.1

/-- A block ends at its empty line. -/
theorem splitHeader?_block : ∀ (lines : List Bytes) (rest : Bytes), (∀ l ∈ lines, IsHeaderLine l) →
    splitHeader? (block lines ++ rest) = some (List.intercalate [13, 10] lines, rest)
  | [], rest, _ => rfl
  | [line], rest, h => by
      rw [block, List.intercalate_singleton, List.append_assoc,
        splitHeader?_append_of_notMem _ _ (h line (by simp)).2.1]
      simp [splitHeader?]
  | line :: next :: lines, rest, h => by
      have ih := splitHeader?_block (next :: lines) rest
        (fun l hl => h l (List.mem_cons_of_mem _ hl))
      have hsplit : block (line :: next :: lines) ++ rest
          = line ++ 13 :: 10 :: (block (next :: lines) ++ rest) := by
        simp [block, List.intercalate_cons_cons]
      -- the next line starts with a byte that is no CR
      obtain ⟨hne, hcr, -⟩ := h next (by simp)
      obtain ⟨b, tail, rfl⟩ := List.exists_cons_of_ne_nil hne
      have hb : b ≠ 13 := fun hb => hcr (by simp [hb])
      obtain ⟨tail', htail⟩ : ∃ tail', block ((b :: tail) :: lines) ++ rest = b :: tail' := by
        cases lines <;> exact ⟨_, rfl⟩
      rw [hsplit, splitHeader?_append_of_notMem _ _ (h line (by simp)).2.1, htail,
        splitHeader?_lineBreak hb, ← htail, ih]
      simp [List.intercalate_cons_cons]

end Framing

end LanguageClient
