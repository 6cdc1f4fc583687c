import LanguageClient.Json.Parser
import LanguageClient.Json.Printer

/-!
Strings and whole numbers are read as they were written. A string ends at its first quote that is not
escaped, and a whole number at the first character that is no digit; what comes next must not look
like a fraction or an exponent (`AtEnd`).

    " a ⏎ b "    written   " a \ n b "
    "\x00\x00"   written   " \u0000 \u0000 "    two units, which are no surrogate pair
-/

namespace LanguageClient.Json

/-! ### Strings -/

theorem hexUnit?_control : ∀ n < 0x20,
    hexUnit? '0' '0' (hexDigit (n / 16)) (hexDigit (n % 16)) = some n := by decide

/-- A character is written by a short escape, as a unit, or as it is. -/
theorem escapeChar_cases (c : Char) :
    (∃ e, escapeChar c = ['\\', e] ∧ unescape? e = some c) ∨
      (c.toNat < 0x20 ∧ escapeChar c =
        ['\\', 'u', '0', '0', hexDigit (c.toNat / 16), hexDigit (c.toNat % 16)]) ∨
      (escapeChar c = [c] ∧ c ≠ '"' ∧ c ≠ '\\' ∧ 0x20 ≤ c.toNat) := by
  by_cases hshort : c ∈ ['"', '\\', '\n', '\r', '\t', '\x08', '\x0c']
  · simp only [List.mem_cons, List.not_mem_nil, or_false] at hshort
    rcases hshort with rfl | rfl | rfl | rfl | rfl | rfl | rfl <;> exact .inl ⟨_, rfl, rfl⟩
  · simp only [List.mem_cons, List.not_mem_nil, or_false, not_or] at hshort
    by_cases hlow : c.toNat < 0x20
    · exact .inr (.inl ⟨hlow, by simp [escapeChar, hshort, hlow]⟩)
    · exact .inr (.inr ⟨by simp [escapeChar, hshort, hlow], hshort.1, hshort.2.1, by omega⟩)

theorem readString_short {c e : Char} {t : List Char} (h : unescape? e = some c) :
    readString ('\\' :: e :: t) = (readString t).map fun (s, r) => (c :: s, r) := by
  have hu : e ≠ 'u' := by
    rintro rfl
    cases h
  rw [readString]
  · simp [h]
  all_goals simp_all

/-- A unit below U+0020 is a character of its own, whatever unit comes next. -/
theorem readString_unit {c : Char} {t : List Char} (hc : c.toNat < 0x20)
    (ht : ∀ e f g h rest, t = '\\' :: 'u' :: e :: f :: g :: h :: rest →
      (hexUnit? e f g h).isSome) :
    readString ('\\' :: 'u' :: '0' :: '0' :: hexDigit (c.toNat / 16) :: hexDigit (c.toNat % 16) :: t)
      = (readString t).map fun (s, r) => (c :: s, r) := by
  have hunit := hexUnit?_control c.toNat hc
  have hchar : ofUnit c.toNat = c := by
    rw [ofUnit, if_neg (by omega), Char.ofNat_toNat]
  by_cases hnext : ∃ e f g h rest, t = '\\' :: 'u' :: e :: f :: g :: h :: rest
  · obtain ⟨e, f, g, h, rest, rfl⟩ := hnext
    obtain ⟨v, hv⟩ := Option.isSome_iff_exists.mp (ht e f g h rest rfl)
    rw [readString, hunit, hv]
    simp only [hchar]
    rw [if_neg (by omega)]
  · rw [readString]
    · simp only [hunit, hchar]
    · exact fun e f g h rest heq => hnext ⟨e, f, g, h, rest, heq⟩

theorem readString_plain {c : Char} {t : List Char} (hq : c ≠ '"') (hb : c ≠ '\\')
    (h : 0x20 ≤ c.toNat) :
    readString (c :: t) = (readString t).map fun (s, r) => (c :: s, r) := by
  rw [readString]
  · rw [if_neg (by omega)]
  all_goals simp_all

/-- Where the rest of a string is written as a unit, it is one. -/
theorem isSome_hexUnit?_of_escaped {s rest tail : List Char} {e f g h : Char}
    (heq : s.flatMap escapeChar ++ '"' :: rest = '\\' :: 'u' :: e :: f :: g :: h :: tail) :
    (hexUnit? e f g h).isSome := by
  cases s with
  | nil => simp at heq
  | cons c cs =>
    rw [List.flatMap_cons] at heq
    rcases escapeChar_cases c with ⟨e', hc, hshort⟩ | ⟨hlow, hc⟩ | ⟨hc, -, hb, -⟩
    · simp only [hc, List.cons_append, List.cons.injEq, true_and] at heq
      rw [heq.1] at hshort
      cases hshort
    · simp only [hc, List.cons_append, List.cons.injEq, true_and] at heq
      obtain ⟨rfl, rfl, rfl, rfl, -⟩ := heq
      rw [hexUnit?_control _ hlow]
      rfl
    · simp only [hc, List.cons_append, List.cons.injEq] at heq
      exact absurd heq.1 hb

/-- A string is read up to its closing quote as it was written. -/
theorem readString_escaped : ∀ s rest : List Char,
    readString (s.flatMap escapeChar ++ '"' :: rest) = some (s, rest)
  | [], rest => by rw [List.flatMap_nil, List.nil_append, readString]
  | c :: cs, rest => by
      have ih := readString_escaped cs rest
      rw [List.flatMap_cons, List.append_assoc]
      rcases escapeChar_cases c with ⟨e, hc, hshort⟩ | ⟨hlow, hc⟩ | ⟨hc, hq, hb, hhigh⟩
      · rw [hc, List.cons_append, List.singleton_append, readString_short hshort, ih]
        rfl
      · simp only [hc, List.cons_append, List.nil_append]
        rw [readString_unit hlow fun e f g h tail => isSome_hexUnit?_of_escaped, ih]
        rfl
      · rw [hc, List.singleton_append, readString_plain hq hb hhigh, ih]
        rfl

/-- No control character is written. -/
theorem le_toNat_of_mem_escapeChar {c d : Char} (h : d ∈ escapeChar c) : 0x20 ≤ d.toNat := by
  rcases escapeChar_cases c with ⟨e, hc, hshort⟩ | ⟨hlow, hc⟩ | ⟨hc, -, -, hhigh⟩
  · have he : 0x20 ≤ e.toNat := by
      unfold unescape? at hshort
      split at hshort <;> first | decide | cases hshort
    rw [hc] at h
    rcases List.mem_cons.mp h with rfl | h
    · decide
    · rwa [List.mem_singleton.mp h]
  · have hdigit : ∀ n < 0x20, 0x20 ≤ (hexDigit n).toNat := by decide
    have hhigh := hdigit (c.toNat / 16) (by omega)
    have hrest := hdigit (c.toNat % 16) (by omega)
    simp only [hc, List.mem_cons, List.not_mem_nil, or_false] at h
    rcases h with rfl | rfl | rfl | rfl | rfl | rfl <;> first | decide | assumption
  · rw [hc] at h
    rwa [List.mem_singleton.mp h]

theorem le_toNat_of_mem_renderString {s : String} {d : Char} (h : d ∈ renderString s) :
    0x20 ≤ d.toNat := by
  rw [renderString, List.mem_cons, List.mem_append, List.mem_flatMap] at h
  rcases h with rfl | ⟨c, -, hc⟩ | h
  · decide
  · exact le_toNat_of_mem_escapeChar hc
  · rw [List.mem_singleton.mp h]
    decide

/-! ### Whole numbers -/

/-- What follows a value inside a list or an object, or after the whole text. -/
def AtEnd (rest : List Char) : Prop := ∀ c ∈ rest.head?, c = ',' ∨ c = ']' ∨ c = '}'

/-- The value of digits is the number that they were written for. -/
theorem ofDigits_toDigits (n : Nat) : ofDigits (Nat.toDigits 10 n) = n := by
  have h := Nat.ofDigitChars_ten_toDigits (n := n)
  simp only [Nat.ofDigitChars, Nat.mul_comm 10] at h
  exact h

/-- Only zero is written with a zero in front. -/
theorem eq_zero_of_head?_toDigits (n : Nat) (h : (Nat.toDigits 10 n).head? = some '0') : n = 0 := by
  induction n using Nat.strongRecOn with
  | ind n ih =>
    by_cases hn : n < 10
    · rw [Nat.toDigits_of_lt_base hn] at h
      have hzero : ∀ n < 10, n.digitChar = '0' → n = 0 := by decide
      exact hzero n hn (Option.some.inj h)
    · rw [Nat.toDigits_of_base_le (by decide) (by omega),
        List.head?_append, Option.or_of_isSome (by simp [Nat.toDigits_ne_nil])] at h
      have := ih (n / 10) (by omega) h
      omega

theorem digits_append {ds rest : List Char} (hd : ∀ c ∈ ds, c.isDigit) (hr : AtEnd rest) :
    digits (ds ++ rest) = (ds, rest) := by
  have hstop : rest.takeWhile Char.isDigit = [] ∧ rest.dropWhile Char.isDigit = rest := by
    cases rest with
    | nil => exact ⟨rfl, rfl⟩
    | cons c cs => rcases hr c rfl with rfl | rfl | rfl <;> exact ⟨rfl, rfl⟩
  rw [digits, List.takeWhile_append_of_pos hd, List.dropWhile_append_of_pos hd, hstop.1, hstop.2,
    List.append_nil]

theorem readWhole_toDigits (n : Nat) {rest : List Char} (hr : AtEnd rest) :
    readWhole (Nat.toDigits 10 n ++ rest) = some (Nat.toDigits 10 n, rest) := by
  have hdigits := digits_append (fun c hc =>
    Nat.isDigit_of_mem_toDigits (b := 10) (n := n) (by decide) (by decide) hc) hr
  by_cases hn : n = 0
  · rw [hn]
    rfl
  · have hhead := mt (eq_zero_of_head?_toDigits n) hn
    cases hs : Nat.toDigits 10 n with
    | nil => exact absurd hs Nat.toDigits_ne_nil
    | cons d ds =>
      rw [hs] at hhead hdigits
      unfold readWhole
      split
      · rename_i heq
        rw [List.cons_append, List.cons.injEq] at heq
        exact absurd (congrArg some heq.1) hhead
      · rw [hdigits]

/-- A number is whole where neither a point nor an exponent follows. -/
theorem readFraction_atEnd {rest : List Char} (hr : AtEnd rest) :
    readFraction rest = ([], rest) ∧ readExponent rest = none := by
  cases rest with
  | nil => exact ⟨rfl, rfl⟩
  | cons c cs => rcases hr c rfl with rfl | rfl | rfl <;> exact ⟨rfl, rfl⟩

theorem readUnsigned_toDigits (limit : Nat) (negative : Bool) (n : Nat) {rest : List Char}
    (hr : AtEnd rest) :
    readUnsigned limit negative (Nat.toDigits 10 n ++ rest) =
      if limit < (Nat.toDigits 10 n).length then .error (.digits (Nat.toDigits 10 n).length)
      else .ok (.int (if negative then -(n : Int) else n), rest) := by
  obtain ⟨hfraction, hexponent⟩ := readFraction_atEnd hr
  simp only [readUnsigned, readWhole_toDigits n hr, hfraction, hexponent, ofDigits_toDigits]

/-- How many digits a whole number is written with. -/
def digitCount (n : Int) : Nat := (Nat.toDigits 10 n.natAbs).length

/-- A whole number is read as it was written, unless it has too many digits. -/
theorem readNumber_renderInt (limit : Nat) (n : Int) {rest : List Char} (hr : AtEnd rest) :
    readNumber limit (renderInt n ++ rest) =
      if limit < digitCount n then .error (.digits (digitCount n)) else .ok (.int n, rest) := by
  have hdigit : ∀ c ∈ Nat.toDigits 10 n.natAbs, c.isDigit := fun c hc =>
    Nat.isDigit_of_mem_toDigits (by decide) (by decide) hc
  unfold renderInt digitCount
  by_cases hn : n < 0
  · have hword : expect? "Infinity".toList (Nat.toDigits 10 n.natAbs ++ rest) = none := by
      unfold expect?
      rw [if_neg]
      rw [List.isPrefixOf_iff_prefix]
      rintro ⟨tail, htail⟩
      cases hs : Nat.toDigits 10 n.natAbs with
      | nil => exact absurd hs Nat.toDigits_ne_nil
      | cons d ds =>
        rw [hs] at htail hdigit
        obtain rfl : 'I' = d := (List.cons.inj htail).1
        exact absurd (hdigit 'I' List.mem_cons_self) (by decide)
    rw [if_pos hn, List.cons_append, readNumber, hword]
    simp only [readUnsigned_toDigits limit true n.natAbs hr, if_true]
    rw [show -(n.natAbs : Int) = n by omega]
  · rw [if_neg hn]
    have hsign : readNumber limit (Nat.toDigits 10 n.natAbs ++ rest) =
        readUnsigned limit false (Nat.toDigits 10 n.natAbs ++ rest) := by
      unfold readNumber
      split
      · rename_i heq
        cases hs : Nat.toDigits 10 n.natAbs with
        | nil => exact absurd hs Nat.toDigits_ne_nil
        | cons d ds =>
          rw [hs] at heq hdigit
          obtain rfl : d = '-' := (List.cons.inj heq).1
          exact absurd (hdigit '-' List.mem_cons_self) (by decide)
      · rfl
    rw [hsign, readUnsigned_toDigits limit false n.natAbs hr]
    simp only [Bool.false_eq_true, if_false]
    rw [show (n.natAbs : Int) = n by omega]

/-- The characters of a whole number. -/
theorem mem_renderInt {n : Int} {c : Char} (h : c ∈ renderInt n) : c = '-' ∨ c.isDigit := by
  unfold renderInt at h
  split at h
  · rcases List.mem_cons.mp h with rfl | h
    · exact .inl rfl
    · exact .inr (Nat.isDigit_of_mem_toDigits (by decide) (by decide) h)
  · exact .inr (Nat.isDigit_of_mem_toDigits (by decide) (by decide) h)

theorem renderInt_ne_nil (n : Int) : renderInt n ≠ [] := by
  unfold renderInt
  split
  · exact List.cons_ne_nil _ _
  · exact Nat.toDigits_ne_nil

end LanguageClient.Json
