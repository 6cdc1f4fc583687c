import LanguageClient.Document
import LanguageClient.Proofs.Buffer.Position
import LanguageClient.Proofs.Order

/-!
A batch of changes told range by range. All ranges are taken from the text before the batch; a
server looks each of them up in the text that it has when its turn comes. Going from the highest
offset down, the text before a range is still the old one, so the lookup fails only where an end of
the range stands inside a CR LF: in the old text, or in the text that the later ranges have made.

    old text   ␍ x            changes  [1,2) ↦ ␊,  [0,1) ↦ nothing
    event 1    1:0 – 1:1      found [1,2), the text becomes ␍ ␊
    event 2    0:0 – 1:0      found [0,2): line 1 has moved

`follow_iff` says so for one list of changes from the highest offset down, `follow_noteBatch_iff`
for a batch that a document has taken note of.
-/

namespace LanguageClient

/-! ### The server's side -/

/-- The offsets that an event names in the text that the server has. -/
def ContentChange.find? (b : Buffer) (c : ContentChange) : Option (Nat × Nat) :=
  match c.range with
  | none => some (0, b.length)
  | some (start, stop) => do return (← b.offset? start, ← b.offset? stop)

/-- A server carries out events one after the other: the offsets that it finds for each of them,
    and the text that it has in the end. -/
def follow (text : List Char) : List ContentChange → Option (List (Nat × Nat) × List Char)
  | [] => some ([], text)
  | c :: cs => do
    let (start, stop) ← c.find? ⟨text⟩
    let (found, last) ← follow (text.take start ++ c.text ++ text.drop stop) cs
    return ((start, stop) :: found, last)

/-- A run that finds given offsets finds the first of them first. -/
theorem follow_cons_iff {text last : List Char} {c : ContentChange} {cs : List ContentChange}
    {start stop : Nat} {found : List (Nat × Nat)} :
    follow text (c :: cs) = some ((start, stop) :: found, last) ↔
      c.find? ⟨text⟩ = some (start, stop) ∧
        follow (text.take start ++ c.text ++ text.drop stop) cs = some (found, last) := by
  simp only [follow, bind, Option.bind_eq_some_iff, Prod.exists, pure, Option.some.injEq,
    Prod.mk.injEq, List.cons.injEq]
  constructor
  · rintro ⟨start', stop', hfind, found', last', hfollow, ⟨⟨rfl, rfl⟩, rfl⟩, rfl⟩
    exact ⟨hfind, hfollow⟩
  · rintro ⟨hfind, hfollow⟩
    exact ⟨start, stop, hfind, found, last, hfollow, ⟨⟨rfl, rfl⟩, rfl⟩, rfl⟩

/-! ### Batches -/

namespace Change

/-- The offsets of a change. -/
def span (c : Change) : Nat × Nat := (c.start.toNat, c.stop.toNat)

/-- One of the changes ends before the other starts. -/
def Apart (a b : Change) : Prop := a.stop ≤ b.start ∨ b.stop ≤ a.start

instance : DecidableRel Apart := fun a b =>
  inferInstanceAs (Decidable (a.stop ≤ b.start ∨ b.stop ≤ a.start))

theorem Apart.symm {a b : Change} (h : Apart a b) : Apart b a := Or.symm h

end Change

/-- No end of a change stands inside a CR LF, neither in the old text nor in the text at its turn. -/
def KeepsBreaks (old : List Char) : List Char → List Change → Prop
  | _, [] => True
  | text, c :: cs =>
    (¬ InsideBreak old c.start.toNat ∧ ¬ InsideBreak text c.start.toNat) ∧
      (¬ InsideBreak old c.stop.toNat ∧ ¬ InsideBreak text c.stop.toNat) ∧
      KeepsBreaks old (splice text c) cs

instance (old : List Char) : ∀ text changes, Decidable (KeepsBreaks old text changes)
  | _, [] => inferInstanceAs (Decidable True)
  | text, c :: cs =>
    have := instDecidableKeepsBreaks old (splice text c) cs
    inferInstanceAs (Decidable (_ ∧ _ ∧ _))

theorem Change.inBounds_iff {length : Nat} {c : Change} :
    c.inBounds length = true ↔ 0 ≤ c.start ∧ c.start ≤ c.stop ∧ c.stop ≤ length := by
  simp [inBounds, and_assoc]

namespace Change

theorem notAfter_iff {a b : Change} :
    NotAfter later a b ↔ b.start < a.start ∨ (b.start = a.start ∧ b.stop ≤ a.stop) :=
  pairBefore_eq_false_iff

theorem notAfter_total (a b : Change) : NotAfter later a b ∨ NotAfter later b a := by
  simp only [notAfter_iff]
  omega

theorem notAfter_trans (a b c : Change) :
    NotAfter later a b → NotAfter later b c → NotAfter later a c := by
  simp only [notAfter_iff]
  omega

end Change

/-- No change of a batch is followed by one that is to come before it. -/
theorem descending_sorted (changes : List Change) :
    (descending changes).Pairwise (NotAfter Change.later) :=
  sortStable_pairwise Change.later changes Change.notAfter_total Change.notAfter_trans

/-- A batch from the highest offset down stays as it is when it is sorted again. -/
theorem descending_descending (changes : List Change) :
    descending (descending changes) = descending changes :=
  sortStable_eq_self (descending_sorted changes)

/-- From the highest offset down, each of the changes that are apart ends before the one before it
    starts. -/
theorem descending_pairwise {length : Nat} {changes : List Change}
    (hb : ∀ c ∈ changes, c.inBounds length) (ha : changes.Pairwise Change.Apart) :
    (descending changes).Pairwise fun c c' => c'.stop ≤ c.start := by
  have hperm := sortStable_perm Change.later changes
  have hapart : (descending changes).Pairwise Change.Apart :=
    (hperm.pairwise_iff Change.Apart.symm).mpr ha
  have hall : ∀ c ∈ descending changes, c.inBounds length := fun c hc => hb c (hperm.mem_iff.mp hc)
  refine ((descending_sorted changes).and hapart).imp_of_mem ?_
  rintro c c' hc hc' ⟨hle, hap⟩
  have h := Change.inBounds_iff.mp (hall c hc)
  have h' := Change.inBounds_iff.mp (hall c' hc')
  rw [Change.notAfter_iff] at hle
  rcases hap with hap | hap <;> omega

/-- What a batch that is carried out has passed. -/
theorem inBounds_of_applyChanges {text after : List Char} {changes : List Change}
    (h : applyChanges text changes = .ok after) :
    (∀ c ∈ changes, c.inBounds text.length) ∧ after = (descending changes).foldl splice text := by
  unfold applyChanges checkBounds at h
  cases hf : changes.find? (fun c => !c.inBounds text.length) with
  | some c => simp [hf] at h
  | none =>
    simp only [hf, Except.ok.injEq] at h
    refine ⟨fun c hc => ?_, h.symm⟩
    simpa using List.find?_eq_none.mp hf c hc

/-! ### Looking the ranges up -/

/-- The event of a change names the positions of its ends. -/
theorem ofChange_eq_ok_iff {b : Buffer} {c : Change} {e : ContentChange} :
    ContentChange.ofChange b c = .ok e ↔ ∃ p q, b.position c.start = .ok p ∧
      b.position c.stop = .ok q ∧ e = ⟨some (p, q), c.insert⟩ := by
  simp only [ContentChange.ofChange, bind, Except.bind, pure, Except.pure]
  cases b.position c.start with
  | error cause => simp
  | ok p =>
    cases b.position c.stop with
    | error cause => simp
    | ok q => simp [eq_comm]

/-- On a text that agrees with the old one up to the end of a change, the event of the change names
    the change's own offsets exactly when no end of it stands inside a line break. -/
theorem find?_ofChange_iff {b : Buffer} {text : List Char} {c : Change} {e : ContentChange}
    (hc : c.inBounds b.length) (hl : c.stop.toNat ≤ text.length)
    (ht : b.text.take c.stop.toNat = text.take c.stop.toNat)
    (he : ContentChange.ofChange b c = .ok e) :
    e.find? ⟨text⟩ = some c.span ↔
      (¬ InsideBreak b.text c.start.toNat ∧ ¬ InsideBreak text c.start.toNat) ∧
        ¬ InsideBreak b.text c.stop.toNat ∧ ¬ InsideBreak text c.stop.toNat := by
  obtain ⟨p, q, hp, hq, rfl⟩ := ofChange_eq_ok_iff.mp he
  obtain ⟨h0, hle, hstop⟩ := Change.inBounds_iff.mp hc
  have hs : ((c.start.toNat : Nat) : Int) = c.start := Int.toNat_of_nonneg h0
  have he : ((c.stop.toNat : Nat) : Int) = c.stop := Int.toNat_of_nonneg (by omega)
  have hts : b.text.take c.start.toNat = text.take c.start.toNat := by
    have := congrArg (List.take c.start.toNat) ht
    rwa [List.take_take, List.take_take, Nat.min_eq_left (by omega)] at this
  have hlength : b.length = b.text.length := rfl
  rw [← hs] at hp
  rw [← he] at hq
  have hstart : Buffer.offset? ⟨text⟩ p = some c.start.toNat ↔ _ :=
    Buffer.offset?_position_iff (by omega) (Nat.le_trans (by omega) hl) hts hp
  have hend : Buffer.offset? ⟨text⟩ q = some c.stop.toNat ↔ _ :=
    Buffer.offset?_position_iff (by omega) hl ht hq
  rw [← hstart, ← hend]
  simp only [ContentChange.find?, bind, Option.bind_eq_some_iff, pure, Option.some.injEq,
    Change.span, Prod.mk.injEq]
  constructor
  · rintro ⟨s, hs, t, ht, rfl, rfl⟩
    exact ⟨hs, ht⟩
  · rintro ⟨hs, ht⟩
    exact ⟨_, hs, _, ht, rfl, rfl⟩

/-- Carrying a change out keeps the text before it. -/
theorem take_splice {text : List Char} {c : Change} (h : c.start.toNat ≤ text.length) :
    (splice text c).take c.start.toNat = text.take c.start.toNat := by
  have hl : c.start.toNat ≤ (text.take c.start.toNat).length := by
    rw [List.length_take]
    omega
  rw [splice, List.append_assoc, List.take_append_of_le_length hl, List.take_take, Nat.min_self]

theorem le_length_splice {text : List Char} {c : Change} (h : c.start.toNat ≤ text.length) :
    c.start.toNat ≤ (splice text c).length := by
  simp only [splice, List.length_append, List.length_take]
  omega

/-- A server that is told changes from the highest offset down finds each change's own offsets, and
    ends with the text that the changes make, exactly when they keep the line breaks whole. -/
theorem follow_iff {b : Buffer} : ∀ {changes : List Change} {events : List ContentChange}
    {text : List Char}, (∀ c ∈ changes, c.inBounds b.length) →
    changes.Pairwise (fun c c' => c'.stop ≤ c.start) →
    (∀ c ∈ changes, c.stop.toNat ≤ text.length ∧
      b.text.take c.stop.toNat = text.take c.stop.toNat) →
    changes.mapM (ContentChange.ofChange b) = .ok events →
    (follow text events = some (changes.map Change.span, changes.foldl splice text) ↔
      KeepsBreaks b.text text changes)
  | [], events, text, _, _, _, he => by
      obtain rfl : [] = events := by simpa [pure, Except.pure] using he
      simp [follow, KeepsBreaks]
  | c :: cs, events, text, hb, hd, ht, he => by
      obtain ⟨hbc, hbs⟩ := List.forall_mem_cons.mp hb
      obtain ⟨hdc, hds⟩ := List.pairwise_cons.mp hd
      obtain ⟨⟨hl, htake⟩, hts⟩ := List.forall_mem_cons.mp ht
      obtain ⟨h0, hle, -⟩ := Change.inBounds_iff.mp hbc
      obtain ⟨e, es, hce, hcs, rfl⟩ : ∃ e es, ContentChange.ofChange b c = .ok e ∧
          cs.mapM (ContentChange.ofChange b) = .ok es ∧ events = e :: es := by
        rw [List.mapM_cons] at he
        cases hce : ContentChange.ofChange b c with
        | error cause => simp [hce, bind, Except.bind] at he
        | ok e =>
          cases hcs : cs.mapM (ContentChange.ofChange b) with
          | error cause => simp [hce, hcs, bind, Except.bind] at he
          | ok es =>
            simp only [hce, hcs, bind, Except.bind, pure, Except.pure, Except.ok.injEq] at he
            exact ⟨e, es, rfl, rfl, he.symm⟩
      have htext : e.text = c.insert := by
        obtain ⟨p, q, -, -, rfl⟩ := ofChange_eq_ok_iff.mp hce
        rfl
      have hstart : c.start.toNat ≤ text.length := by omega
      -- the changes still to come end before this one starts, where the text is as it was
      have hrest : ∀ c' ∈ cs, c'.stop.toNat ≤ (splice text c).length ∧
          b.text.take c'.stop.toNat = (splice text c).take c'.stop.toNat := by
        intro c' hc'
        have hlow : c'.stop.toNat ≤ c.start.toNat := by
          have := hdc c' hc'
          omega
        refine ⟨Nat.le_trans hlow (le_length_splice hstart), ?_⟩
        have hkeep := congrArg (List.take c'.stop.toNat) (take_splice hstart)
        rw [List.take_take, List.take_take, Nat.min_eq_left hlow] at hkeep
        rw [hkeep, (hts c' hc').2]
      have ih := follow_iff hbs hds hrest hcs
      rw [List.map_cons, List.foldl_cons, Change.span, follow_cons_iff, htext, KeepsBreaks, ← ih]
      rw [← and_assoc, ← find?_ofChange_iff hbc hl htake hce]
      rfl

/-- A text without CR has no offset inside a line break. -/
theorem not_insideBreak_of_not_mem {text : List Char} (h : '\r' ∉ text) (offset : Nat) :
    ¬ InsideBreak text offset := by
  cases offset with
  | zero => exact insideBreak_zero text
  | succ i =>
    rintro ⟨hcr, -⟩
    exact h (List.mem_of_getElem? hcr)

/-- Where no CR is, none is taken apart. -/
theorem keepsBreaks_of_not_mem {old : List Char} (ho : '\r' ∉ old) :
    ∀ {changes : List Change} {text : List Char}, '\r' ∉ text →
      (∀ c ∈ changes, '\r' ∉ c.insert) → KeepsBreaks old text changes
  | [], _, _, _ => trivial
  | c :: cs, text, ht, hc => by
      obtain ⟨hi, hcs⟩ := List.forall_mem_cons.mp hc
      have hsplice : '\r' ∉ splice text c := by
        simp only [splice, List.mem_append, not_or]
        exact ⟨⟨fun h => ht (List.mem_of_mem_take h), hi⟩, fun h => ht (List.mem_of_mem_drop h)⟩
      have hold := not_insideBreak_of_not_mem ho
      have htext := not_insideBreak_of_not_mem ht
      exact ⟨⟨hold _, htext _⟩, ⟨hold _, htext _⟩, keepsBreaks_of_not_mem ho hsplice hcs⟩

/-! ### Batches that a document takes note of -/

/-- What a document does with a batch that it accepts. -/
theorem noteBatch_accepted {d d' : Document} {b : Buffer} {events : List ContentChange}
    {changes : List Change} (h : d.noteBatch b events changes = (true, d')) :
    ∃ more, applyChanges b.text changes = .ok d.text ∧
      (descending changes).mapM (ContentChange.ofChange b) = .ok more ∧
      d' = { d with shadow := some ⟨d.text⟩, unsent := some (events ++ more) } := by
  unfold Document.noteBatch at h
  cases ha : applyChanges b.text changes with
  | error cause => simp [ha] at h
  | ok after =>
    simp only [ha] at h
    split at h
    · simp at h
    · rename_i heq
      obtain rfl : after = d.text := not_not.mp heq
      cases hm : (descending changes).mapM (ContentChange.ofChange b) with
      | error cause => simp [hm] at h
      | ok more =>
        simp only [hm, Prod.mk.injEq, true_and] at h
        exact ⟨more, rfl, rfl, h.symm⟩

theorem noteBatch_refused {d : Document} {b : Buffer} {events : List ContentChange}
    {changes : List Change} (h : (d.noteBatch b events changes).1 = false) :
    (d.noteBatch b events changes).2 = d.forget := by
  unfold Document.noteBatch at h ⊢
  cases happly : applyChanges b.text changes with
  | error cause => rfl
  | ok after =>
    simp only [happly] at h ⊢
    split
    · rfl
    · rename_i htext
      rw [if_neg htext] at h
      cases hmore : (descending changes).mapM (ContentChange.ofChange b) with
      | error cause => rfl
      | ok more => simp [hmore] at h

/-- The events of a batch that a document has accepted, as a server finds them that has the text
    before the batch. -/
theorem noteBatch_found {d d' : Document} {b : Buffer} {events : List ContentChange}
    {changes : List Change} (ha : changes.Pairwise Change.Apart)
    (h : d.noteBatch b events changes = (true, d')) :
    ∃ more, d' = { d with shadow := some ⟨d.text⟩, unsent := some (events ++ more) } ∧
      applyChanges b.text changes = .ok d.text ∧
      (follow b.text more = some ((descending changes).map Change.span, d.text) ↔
        KeepsBreaks b.text b.text (descending changes)) := by
  obtain ⟨more, happly, hmore, rfl⟩ := noteBatch_accepted h
  obtain ⟨hb, hafter⟩ := inBounds_of_applyChanges happly
  have hbs : ∀ c ∈ descending changes, c.inBounds b.length := fun c hc =>
    hb c ((sortStable_perm Change.later changes).mem_iff.mp hc)
  refine ⟨more, rfl, happly, ?_⟩
  rw [hafter]
  refine follow_iff hbs (descending_pairwise hb ha) (fun c hc => ⟨?_, rfl⟩) hmore
  have hc := Change.inBounds_iff.mp (hbs c hc)
  have hlength : b.length = b.text.length := rfl
  omega

/-- A batch of changes that are apart, of which a document has taken note: a server that has the
    text before the batch finds for each event the offsets of its change, and ends with the text
    after the batch, exactly when no end of a change stands inside a CR LF. -/
theorem follow_noteBatch_iff {d d' : Document} {b : Buffer} {events : List ContentChange}
    {changes : List Change} (ha : changes.Pairwise Change.Apart)
    (h : d.noteBatch b events changes = (true, d')) :
    ∃ more after, d'.unsent = some (events ++ more) ∧ applyChanges b.text changes = .ok after ∧
      (follow b.text more = some ((descending changes).map Change.span, after) ↔
        KeepsBreaks b.text b.text (descending changes)) := by
  obtain ⟨more, rfl, happly, hiff⟩ := noteBatch_found ha h
  exact ⟨more, d.text, rfl, happly, hiff⟩

/-- A document in incremental mode with the given newest text. -/
def Document.shadowed (text : List Char) : Document :=
  { uri := "file:///doc", language := "plain", incremental := true, text }

/-- A CR LF that is kept whole while the lines around it change. -/
theorem follow_mixedBreaks :
    let b : Buffer := ⟨['a', '\r', '\n', 'b', '\r', 'c']⟩
    let changes : List Change := [⟨1, 1, ['x', '\n']⟩, ⟨3, 5, ['\r', '\n']⟩]
    let after := ['a', 'x', '\n', '\r', '\n', '\r', '\n', 'c']
    let d := Document.shadowed after
    changes.Pairwise Change.Apart ∧ d.noteBatch b [] changes = (true, (d.noteBatch b [] changes).2) ∧
      ∃ more, (d.noteBatch b [] changes).2.unsent = some more ∧
        follow b.text more = some ([(3, 5), (1, 1)], after) := by
  intro b changes after d
  have ha : changes.Pairwise Change.Apart := by decide
  have hn : d.noteBatch b [] changes = (true, (d.noteBatch b [] changes).2) :=
    Prod.ext (by decide +kernel) rfl
  refine ⟨ha, hn, ?_⟩
  obtain ⟨more, after', hunsent, happly, hiff⟩ := follow_noteBatch_iff ha hn
  refine ⟨more, hunsent, ?_⟩
  obtain rfl : after' = after := by
    have : applyChanges b.text changes = .ok after := rfl
    exact Except.ok.inj (happly.symm.trans this)
  exact hiff.mpr (by decide +kernel)

/-- Two changes of which the first makes a CR LF at the end of the second: the server finds for the
    second one a character too many. -/
theorem follow_movedLine :
    let b : Buffer := ⟨['\r', 'x']⟩
    let changes : List Change := [⟨0, 1, []⟩, ⟨1, 2, ['\n']⟩]
    let noted := (Document.shadowed ['\n']).noteBatch b [] changes
    changes.Pairwise Change.Apart ∧ (∀ c ∈ changes, c.inBounds b.length) ∧ noted.1 = true ∧
      applyChanges b.text changes = .ok ['\n'] ∧
      ∃ more, noted.2.unsent = some more ∧ follow b.text more = some ([(1, 2), (0, 2)], []) := by
  refine ⟨by decide, by decide, by decide +kernel, rfl, ?_⟩
  exact ⟨[⟨some (⟨1, 0⟩, ⟨1, 1⟩), ['\n']⟩, ⟨some (⟨0, 0⟩, ⟨1, 0⟩), []⟩], by decide +kernel,
    by decide +kernel⟩

end LanguageClient
