import LanguageClient.Edit
import LanguageClient.Proofs.Document.Weave

/-!
Edits that are well formed. Each tells a range, whose ends may be any whole numbers, and a text. The
code resolves the range against the text before the batch, sorts what it has found as values, and
checks it again as whole offsets; for well formed edits none of that can fail.

    sent       {range: {start: 0:1, end: 9:9}, newText: X}      9:9 lies outside
    resolved   [1, 1) ↦ X

`applyEdits_eq` says what becomes of a desk.
-/

namespace LanguageClient

/-! ### Whole numbers as values -/

theorem Binary64.fraction_ofInt (n : Int) : fraction (n < 0) n.natAbs 0 = (n, 1) := by
  have hn : (if decide (n < 0) then -(n.natAbs : Int) else (n.natAbs : Int)) = n := by
    split
    · rename_i h
      have := of_decide_eq_true h
      omega
    · rename_i h
      have : ¬ n < 0 := fun hn => h (decide_eq_true hn)
      omega
  simp only [fraction, Int.lt_irrefl, if_false, hn]
  simp

theorem Binary64.less_ofInt (m n : Int) : (ofInt m).less (ofInt n) = decide (m < n) := by
  simp only [ofInt, less, fraction_ofInt, Int.natCast_one, Int.mul_one]

theorem Binary64.equal_ofInt (m n : Int) : (ofInt m).equal (ofInt n) = (m == n) := by
  simp only [ofInt, equal, fraction_ofInt, Int.natCast_one, Int.mul_one]

namespace Json

theorem less_int (m n : Int) : (int m).less (int n) = .ok (decide (m < n)) := by
  simp only [less, binary?, number?, Option.map_some, Binary64.less_ofInt]

theorem atMost_int (m n : Int) : (int m).atMost (int n) = .ok (decide (m ≤ n)) := by
  simp only [atMost, binary?, number?, Option.map_some, Binary64.less_ofInt, Binary64.equal_ofInt]
  congr 1
  rw [Bool.eq_iff_iff]
  simp only [Bool.or_eq_true, decide_eq_true_eq, beq_iff_eq]
  omega

theorem same_int (m n : Int) : (int m).same (int n) = (m == n) := by
  simp only [same]

theorem require_of_member? {key : String} {v w : Json} (h : v.member? key = some w) :
    v.require key = .ok w := by
  cases v <;> simp_all [member?, require]

/-- The text. -/
def str? : Json → Option String
  | .str s => some s
  | _ => none

/-- The items of a list. -/
def arr? : Json → Option (List Json)
  | .arr xs => some xs
  | _ => none

theorem eq_str_of_str? {v : Json} {s : String} (h : v.str? = some s) : v = .str s := by
  cases v <;> simp_all [str?]

theorem eq_arr_of_arr? {v : Json} {xs : List Json} (h : v.arr? = some xs) : v = .arr xs := by
  cases v <;> simp_all [arr?]

end Json

/-! ### Well formed edits -/

/-- An edit of a document: the characters from one position up to another are replaced by a text. -/
structure TextEdit where
  start : Position
  stop : Position
  newText : List Char
  deriving DecidableEq, Repr

namespace TextEdit

/-- An edit as it is sent. -/
def ofJson? (v : Json) : Option TextEdit := do
  let range ← v.member? "range"
  let start ← Position.ofJson? (← range.member? "start")
  let stop ← Position.ofJson? (← range.member? "end")
  return ⟨start, stop, (← (← v.member? "newText").str?).toList⟩

def toJson (t : TextEdit) : Json :=
  .obj [("range", .obj [("start", t.start.toJson), ("end", t.stop.toJson)]),
    ("newText", .text t.newText)]

/-- The change that an edit asks for. A position outside the document counts as offset zero, and an
    end before the start is moved onto the start. -/
def change (b : Buffer) (t : TextEdit) : Change where
  start := b.offsetOrZero t.start
  stop := max (b.offsetOrZero t.start) (b.offsetOrZero t.stop)
  insert := t.newText

end TextEdit

/-- A change as it is sent. -/
def Change.sent (c : Change) : SentChange := ⟨.int c.start, .int c.stop, .text c.insert⟩

/-! ### Resolving -/

theorem TextEdit.ofJson?_toJson (t : TextEdit) : ofJson? t.toJson = some t := by
  simp [ofJson?, toJson, Json.member?, Members.get?, Position.ofJson?_toJson, Json.text, Json.str?]

theorem TextEdit.mapM_ofJson?_toJson : ∀ ts : List TextEdit,
    (ts.map toJson).mapM ofJson? = some ts
  | [] => rfl
  | t :: ts => by
      rw [List.map_cons, List.mapM_cons, ofJson?_toJson, mapM_ofJson?_toJson ts]
      rfl

theorem Buffer.resolveOrZero_of_ofJson? {b : Buffer} {v : Json} {p : Position}
    (h : Position.ofJson? v = some p) : b.resolveOrZero v = .ok (.int (b.offsetOrZero p)) := by
  simp only [Position.ofJson?, bind, Option.bind_eq_some_iff, pure, Option.some.injEq] at h
  obtain ⟨x, hx, line, hline, y, hy, character, hcharacter, rfl⟩ := h
  simp only [resolveOrZero, resolve?, Json.require_of_member? hx, Json.require_of_member? hy, hline,
    hcharacter, bind, Except.bind, pure, Except.pure, offsetOrZero]
  cases b.offset? ⟨line, character⟩ <;> rfl

/-- A range resolves to its offsets, the end moved onto the start if it comes before. -/
theorem resolveRange_of_ofJson? {range sentStart sentStop : Json} {start stop : Position} (b : Buffer)
    (hs : range.member? "start" = some sentStart) (hstart : Position.ofJson? sentStart = some start)
    (he : range.member? "end" = some sentStop) (hstop : Position.ofJson? sentStop = some stop) :
    resolveRange b range = .ok (.int (b.offsetOrZero start),
      .int (max (b.offsetOrZero start) (b.offsetOrZero stop))) := by
  simp only [resolveRange, Json.require_of_member? hs, Json.require_of_member? he, bind,
    Except.bind, Buffer.resolveOrZero_of_ofJson? hstart, Buffer.resolveOrZero_of_ofJson? hstop,
    Json.less_int, pure, Except.pure, decide_eq_true_eq]
  congr 2
  split <;> congr 1 <;> omega

theorem Buffer.offsetOrZero_le_length (b : Buffer) (p : Position) :
    b.offsetOrZero p ≤ b.length := by
  rw [offsetOrZero]
  cases h : b.offset? p with
  | none => exact Nat.zero_le _
  | some offset => exact offset?_le_length h

namespace TextEdit

theorem inBounds_change (text : List Char) (t : TextEdit) :
    (t.change ⟨text⟩).inBounds text.length := by
  have hstart := Buffer.offsetOrZero_le_length ⟨text⟩ t.start
  have hstop := Buffer.offsetOrZero_le_length ⟨text⟩ t.stop
  simp only [Buffer.length] at hstart hstop
  rw [Change.inBounds_iff]
  simp only [change]
  omega

theorem resolveEdit_of_ofJson? {b : Buffer} {v : Json} {t : TextEdit} (h : ofJson? v = some t) :
    resolveEdit b v = .ok (t.change b).sent := by
  simp only [ofJson?, bind, Option.bind_eq_some_iff, pure, Option.some.injEq] at h
  obtain ⟨range, hrange, sentStart, hs, start, hstart, sentStop, he, stop, hstop, inserted, hi,
    newText, hinserted, rfl⟩ := h
  have hresolved := resolveRange_of_ofJson? b hs hstart he hstop
  simp only [resolveEdit, Json.require_of_member? hrange, Json.require_of_member? hi, bind,
    Except.bind, hresolved, pure, Except.pure, Json.eq_str_of_str? hinserted, Change.sent, change, Json.text, String.ofList_toList]

end TextEdit

/-- Items that are all read are read one by one. -/
theorem forall₂_of_mapM_eq_some {α β : Type} {f : α → Option β} :
    ∀ {items : List α} {read : List β}, items.mapM f = some read →
      List.Forall₂ (fun a b => f a = some b) items read
  | [], read, h => by
      obtain rfl : [] = read := by simpa using h
      exact .nil
  | a :: rest, read, h => by
      simp only [List.mapM_cons, bind, Option.bind_eq_some_iff, pure, Option.some.injEq] at h
      obtain ⟨b, hb, bs, hbs, rfl⟩ := h
      exact .cons hb (forall₂_of_mapM_eq_some hbs)

/-- What is read off each item as well formed is worked out item by item. -/
theorem mapM_eq_ok_of_mapM_eq_some {α β γ ε : Type} {f : α → Option β} {g : α → Except ε γ}
    {k : β → γ} (hk : ∀ a b, f a = some b → g a = .ok (k b)) {items : List α} {read : List β}
    (h : items.mapM f = some read) : items.mapM g = .ok (read.map k) := by
  have hread := forall₂_of_mapM_eq_some h
  clear h
  induction hread with
  | nil => rfl
  | cons hb _ ih =>
    simp only [List.mapM_cons, bind, Except.bind, hk _ _ hb, ih, pure, Except.pure, List.map_cons]

/-! ### Sorting and checking what was resolved -/

theorem SentChange.later_sent (a b : Change) : later a.sent b.sent = Change.later a b := by
  simp only [later, below, Change.sent, Json.binary?, Json.number?, Option.map_some,
    Binary64.less_ofInt, Json.same_int, Change.later, pairBefore]

theorem SentChange.descending_map_sent (changes : List Change) :
    descending (changes.map Change.sent) = (LanguageClient.descending changes).map Change.sent :=
  sortStable_map Change.sent later_sent changes

theorem SentChange.typed_sent (c : Change) : c.sent.typed = .ok c := by
  simp only [typed, Change.sent, Json.offset, Json.number?, bind, Except.bind, Json.text, Json.joined,
    String.toList_ofList, pure, Except.pure]

theorem SentChange.inBounds_sent {length : Nat} {c : Change} (h : c.inBounds length) :
    c.sent.inBounds length = .ok true := by
  obtain ⟨hzero, hle, hlength⟩ := Change.inBounds_iff.mp h
  simp only [inBounds, Change.sent, Json.atMost_int, Json.nat, bind, Except.bind, hzero, hle, hlength,
    decide_true, Bool.not_true, Bool.false_eq_true, if_false]

theorem SentChange.checkBounds_map_sent {length : Nat} :
    ∀ {changes : List Change}, (∀ c ∈ changes, c.inBounds length) →
      checkBounds length (changes.map Change.sent) = .ok ()
  | [], _ => rfl
  | c :: cs, h => by
      obtain ⟨hc, hcs⟩ := List.forall_mem_cons.mp h
      simp only [List.map_cons, checkBounds, bind, Except.bind, inBounds_sent hc, if_true,
        checkBounds_map_sent hcs]

theorem SentChange.mapM_typed_sent : ∀ changes : List Change,
    (changes.map Change.sent).mapM typed = .ok changes
  | [] => rfl
  | c :: cs => by
      simp only [List.map_cons, List.mapM_cons, bind, Except.bind, typed_sent, mapM_typed_sent cs, pure,
        Except.pure]

theorem SentChange.checked_map_sent {length : Nat} {changes : List Change}
    (h : ∀ c ∈ changes, c.inBounds length) :
    checked length (changes.map Change.sent) = .ok changes := by
  simp only [checked, bind, Except.bind, checkBounds_map_sent h, mapM_typed_sent]

/-! ### What becomes of a desk -/

/-- The changes that edits ask for, in the order of the edits. -/
def TextEdit.changes (text : List Char) (ts : List TextEdit) : List Change :=
  ts.map (change ⟨text⟩)

theorem TextEdit.inBounds_of_mem_changes (text : List Char) (ts : List TextEdit) :
    ∀ c ∈ changes text ts, c.inBounds text.length := by
  intro c hc
  obtain ⟨t, -, rfl⟩ := List.mem_map.mp hc
  exact inBounds_change text t

theorem resolveEdits_of_ofJson? {b : Buffer} {edits : List Json} {ts : List TextEdit}
    (h : edits.mapM TextEdit.ofJson? = some ts) :
    resolveEdits b edits = .ok ((descending (TextEdit.changes b.text ts)).map Change.sent) := by
  have hresolved : edits.mapM (resolveEdit b) = .ok (ts.map fun t => (t.change b).sent) :=
    mapM_eq_ok_of_mapM_eq_some (fun _ _ => TextEdit.resolveEdit_of_ofJson?) h
  simp only [resolveEdits, hresolved, bind, Except.bind, pure, Except.pure,
    ← SentChange.descending_map_sent, TextEdit.changes, List.map_map, Function.comp_def]

namespace Desk

/-- The desk after a batch. -/
def after (changes : List Change) (d : Desk) : Desk :=
  let text := changes.foldl splice d.view.text
  { d with view := { d.view with text }, batches := d.batches ++ [(text, changes)] }

/-- A desk that refuses nothing carries out a batch that stands in order, lies inside the text and
    was sent as whole offsets. -/
theorem applyChanges_sent {d : Desk} {changes : List Change} (hr : d.view.rejection = none)
    (hb : ∀ c ∈ changes, c.inBounds d.view.text.length) :
    d.applyChanges ((descending changes).map Change.sent) =
      (.ok (), d.after (descending changes)) := by
  have hbounds : ∀ c ∈ descending changes, c.inBounds d.view.text.length := fun c hc =>
    hb c ((sortStable_perm Change.later changes).mem_iff.mp hc)
  have hprepared : d.view.prepare ((descending changes).map Change.sent) =
      .ok (descending changes, (descending changes).foldl splice d.view.text) := by
    simp only [View.prepare, hr, bind, Except.bind, pure, Except.pure,
      SentChange.checked_map_sent hbounds, applyChanges_eq_ok hbounds, descending_descending]
  simp only [Desk.applyChanges, hprepared, after]

/-- Well formed edits are carried out as one batch, unless there are none. -/
theorem applyEdits_eq {d : Desk} {edits : List Json} {ts : List TextEdit}
    (hr : d.view.rejection = none) (hts : edits.mapM TextEdit.ofJson? = some ts) :
    editor.applyEdits edits d = if ts = [] then (.ok false, d)
      else (.ok true, d.after (descending (TextEdit.changes d.view.text ts))) := by
  have hbatch := applyChanges_sent hr (TextEdit.inBounds_of_mem_changes d.view.text ts)
  have hresolved := resolveEdits_of_ofJson? (b := ⟨d.view.text⟩) hts
  have hlength := (sortStable_perm Change.later (TextEdit.changes d.view.text ts)).length_eq
  cases hs : (descending (TextEdit.changes d.view.text ts)).map Change.sent with
  | nil =>
    obtain rfl : ts = [] := by
      rw [List.map_eq_nil_iff] at hs
      rw [← descending, hs, TextEdit.changes, List.length_map, List.length_nil] at hlength
      exact List.length_eq_zero_iff.mp hlength.symm
    simp only [Editor.applyEdits, editor, hresolved, hs, if_true]
  | cons c cs =>
    have hne : ts ≠ [] := by
      rintro rfl
      simp [TextEdit.changes, descending, sortStable] at hs
    rw [hs] at hbatch
    simp only [Editor.applyEdits, editor, hresolved, hs, hbatch, if_neg hne]

end Desk

end LanguageClient
