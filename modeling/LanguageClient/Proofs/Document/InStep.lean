import LanguageClient.Proofs.Document.Convergence

/-!
A document over everything that its user does. The user opens it at most once, edits it, has its
changes sent and closes it, in any order and at any moment; the connection holds up messages and lets
them go; time passes. The one thing asked of an edit that says how it came about is that it cannot
mislead the server (`Careful`).

    open   edit   flush   close   start   arrivals   delays        in any order
      └──────┴──────┴──────┴────────┴────────┴─────────┴──▶ in step, or the rest waits in the slot
-/

namespace LanguageClient

/-- What the server says it can do is an object. -/
def Event.legible : Event → Bool
  | .agreed (.obj _) => true
  | .agreed _ => false
  | _ => true

namespace Engine

variable {e e' : Engine} {d d' : Document} {k : Nat}

/-! ### What the user does -/

/-- Does the action open a document? -/
def Action.opens : Action → Bool
  | .begin (.openDocument ..) => true
  | _ => false

/-- A batch that is given for the only document is careful. -/
def CarefulEdit (e : Engine) (text : List Char) (changes : Option (List Change)) : Prop :=
  ∀ batch ∈ changes, ∀ s ∈ e.session? 0, s.document.Careful text batch

/-- What the user of the only document may do. Nobody cancels its tasks or speaks for it, its
    messages are accepted, and its batches are careful. -/
def Action.Fits (e : Engine) : Action → Prop
  | .begin op => op.orderly = true
  | .scheduleChange doc text changes => doc = 0 ∧ CarefulEdit e text changes
  | .viewChanged doc text changes => doc = 0 ∧ CarefulEdit e text changes
  | .cancel _ => False
  | .failSends _ => False
  | .addSession _ => False
  | _ => True

/-- Every action fits the state in which it is taken. -/
def Fitting : Engine → List Action → Prop
  | _, [] => True
  | e, a :: rest => a.Fits e ∧ Fitting (e.act a) rest

instance (d : Document) (text : List Char) (changes : List Change) :
    Decidable (d.Careful text changes) :=
  decidable_of_iff (∀ b ∈ d.shadow, ∀ events ∈ d.unsent, d.incremental = true →
      ({ d with text }.noteBatch b events changes).1 = true →
      changes.Pairwise Change.Apart ∧ KeepsBreaks b.text b.text (descending changes))
    ⟨fun h b events hi hb hu => h b hb events hu hi, fun h b hb events hu hi => h b events hi hb hu⟩

instance (e : Engine) (text : List Char) (changes : Option (List Change)) :
    Decidable (CarefulEdit e text changes) :=
  inferInstanceAs (Decidable (∀ batch ∈ changes, ∀ s ∈ e.session? 0, s.document.Careful text batch))

instance (e : Engine) : ∀ a : Action, Decidable (a.Fits e)
  | .begin op => inferInstanceAs (Decidable (op.orderly = true))
  | .scheduleChange doc text changes =>
    inferInstanceAs (Decidable (doc = 0 ∧ CarefulEdit e text changes))
  | .viewChanged doc text changes =>
    inferInstanceAs (Decidable (doc = 0 ∧ CarefulEdit e text changes))
  | .cancel _ | .failSends _ | .addSession _ => .isFalse id
  | .run | .ring _ | .start | .arrive _ | .block | .unblock | .linger | .letGo | .closeChannel
  | .attachSink .. | .detach _ | .editView .. | .closeSession _ | .tell .. => .isTrue trivial

instance : ∀ (actions : List Action) (e : Engine), Decidable (Fitting e actions)
  | [], _ => .isTrue trivial
  | a :: rest, e =>
    have := instDecidableFitting rest (e.act a)
    inferInstanceAs (Decidable (a.Fits e ∧ Fitting (e.act a) rest))

/-- A document that nobody has been told of. -/
structure Fresh (s : Session) : Prop where
  unopened : s.document.opened = false
  shadow : s.document.shadow = none
  unsent : s.document.unsent = none
  hook : s.hook = .none

/-- A new client with one document that nobody has been told of. -/
def Begins (e : Engine) : Prop :=
  ∃ options script s, Fresh s ∧ e = (create options script).addSession s

/-! ### Beginning an operation -/

theorem Sound.spawn {op : Operation} (h : Sound k d ([], e)) (hn : Numbered e)
    (ho : op.orderly = true) :
    Sound (k + if (Frame.begin op).opens then 1 else 0) d ([], (e.spawn op).2) := by
  have hframes : frames ([], (e.spawn op).2) = e.held ++ [.begin op] := hn.held_spawn op
  refine ⟨h.session, h.slots, ?_, ?_, ?_, h.tracks⟩
  · intro f hf
    rw [hframes, List.mem_append, List.mem_singleton] at hf
    rcases hf with hf | rfl
    · exact h.orderly f hf
    · exact ho
  · have honce := h.once
    rw [show frames ([], e) = e.held from rfl] at honce
    rw [hframes, List.countP_append, List.countP_singleton]
    omega
  · intro f hf text htext
    rw [hframes, List.mem_append, List.mem_singleton] at hf
    rcases hf with hf | rfl
    · exact h.sent f hf text htext
    · cases htext

theorem Kept.spawn {op : Operation} (h : Kept k none d ([], e)) (hn : Numbered e)
    (ho : op.orderly = true) :
    Kept (k + if (Frame.begin op).opens then 1 else 0) none d ([], (e.spawn op).2) :=
  ⟨h.sound.spawn hn ho,
    h.delivers.imp (fun hex => hex.lasts (lasts_spawn op e) id rfl) fun hd => hd.spawn hn op⟩

/-! ### Editing -/

theorem edited_same (text : List Char) (changes : Option (List Change)) (d : Document) :
    (d.edited text changes).2.opened = d.opened ∧ (d.edited text changes).2.closed = d.closed ∧
      (d.edited text changes).2.incremental = d.incremental := by
  unfold Document.edited
  simp only
  split
  · unfold Document.noteBatch
    split
    · exact ⟨rfl, rfl, rfl⟩
    · split
      · exact ⟨rfl, rfl, rfl⟩
      · split <;> exact ⟨rfl, rfl, rfl⟩
  · exact ⟨rfl, rfl, rfl⟩

/-- An edit is noted: what it leaves to be told leads from the server's text to the new one. -/
theorem Sound.scheduleChange {text : List Char} {changes : Option (List Change)}
    (h : Sound k d ([], e)) (hn : Numbered e)
    (hc : ∀ batch, changes = some batch → d.Careful text batch) :
    Sound k (d.edited text changes).2 ([], (e.scheduleChange 0 text changes).2) := by
  obtain ⟨hopened, _, _⟩ := edited_same text changes d
  obtain ⟨e₁, ha, heq⟩ := scheduleChange_eq 0 text changes e
  have hg : Grows e (e.edited 0 text changes) := .of_tasks rfl (Nat.le_refl _) rfl
  have hn₁ := (hn.grows hg).grows (.of_tallies ha.toTallies)
  have hnoted := h.texted 0 text
  have hedit : Sound k (d.edited text changes).2 ([], e.edited 0 text changes) :=
    hnoted.update (.refl []) (.of_tasks rfl (Nat.le_refl _) rfl)
      (cores_onDocument_zero _ hnoted.session) hnoted.slots hopened rfl
      (hnoted.tracks.edited hc)
  have hsound := hedit.idle (idles_tallies ha) (.refl []) (.of_tallies ha.toTallies)
  exact heq ▸ hsound.scheduleFlush (hn₁.grows_scheduleFlush 0)

/-- What an edit leaves to be told waits in the slot. -/
theorem Kept.edited {text : List Char} {changes : Option (List Change)}
    (h : Kept k none d ([], e)) (hn : Numbered e)
    (hc : ∀ batch, changes = some batch → d.Careful text batch) :
    Kept k none (d.edited text changes).2 ([], (e.scheduleChange 0 text changes).2) := by
  obtain ⟨hopened, hclosed, hincremental⟩ := edited_same text changes d
  obtain ⟨e₁, ha, heq⟩ := scheduleChange_eq 0 text changes e
  have hg : Grows e (e.edited 0 text changes) := .of_tasks rfl (Nat.le_refl _) rfl
  have hn₁ := (hn.grows hg).grows (.of_tallies ha.toTallies)
  refine ⟨h.sound.scheduleChange hn hc, ?_⟩
  rcases h.delivers with hex | hd
  · exact .inl (hex.lasts (lasts_scheduleChange 0 text changes e) hclosed.trans hincremental)
  · have hconnected : Connected none (d.edited text changes).2
        ([], e.edited 0 text changes) := by
      refine hd.connected.steady
        (steady_of_eq rfl (fun _ => mem_lasts (lasts_note (.texted 0 text) e)) rfl rfl rfl) ?_
      rw [hopened]
      exact id
    have hslotted : Slotted none (e.edited 0 text changes) := hd.slotted
    have hagrees := hconnected.idle (idles_tallies ha) (.refl []) (.of_tallies ha.toTallies)
    exact .inr (heq ▸ hagrees.scheduleFlush (hslotted.idle (idles_tallies ha))
      (hn₁.grows_scheduleFlush 0))

/-! ### Closing -/

/-- The document is marked, and what waits for it is cancelled. -/
theorem Sound.closing {doc : Nat} {s : Session} (h : Sound k d ([], e))
    (hs : e.session? doc = some s)
    (hc : Cancels ((e.onDocument doc fun d => { d with closed := true }).cancelSlot doc).2 e') :
    Sound k { d with closed := true } ([], e') := by
  obtain ⟨rfl, _⟩ := session?_of_cores h.session hs
  have hmarked : Sound k { d with closed := true }
      ([], e.onDocument 0 fun d => { d with closed := true }) :=
    h.update (.refl []) (.of_tasks rfl (Nat.le_refl _) rfl)
      (cores_onDocument_zero _ h.session) h.slots rfl rfl h.tracks.close
  exact (hmarked.cancelSlot 0).cancels hc

theorem Kept.closeSession (h : Kept k none d ([], e)) (hk : k ≤ 1) (hc : Correlated ([], e))
    (doc : Nat) : Upheld k (e.closeSession doc) := by
  rcases closeSession_cases doc e with ⟨heq, _⟩ | ⟨s, e₁, hs, _, hcancels, heq⟩
  · rw [heq]
    exact .inr ⟨d, h⟩
  · -- nothing is promised of a closed document but that it knows what the server has
    have hkept : Kept k none { d with closed := true } ([], e₁) :=
      ⟨h.sound.closing hs hcancels, .inl (.inl rfl)⟩
    rw [heq]
    exact (hkept.path hk (hc.closing hcancels) (path_detach _)).imp id fun ⟨d', hd', _⟩ => ⟨d', hd'⟩

/-! ### Every action -/

theorem Kept.runNext (h : Kept k none d ([], e)) (hk : k ≤ 1) (hc : Correlated ([], e)) :
    Upheld k e.runNext := by
  obtain ⟨e₁, ha, hrun⟩ := runNext_cases e
  have h₁ := h.tallies ha
  have hc₁ : Correlated ([], e₁) := hc.calm (calm_tallies ha) (.of_tallies ha) rfl
  rcases hrun with hp | ⟨n, t, ht, heq⟩
  · exact (h₁.path hk hc₁ hp).imp id fun ⟨d', hd', _⟩ => ⟨d', hd'⟩
  · rw [heq]
    exact h₁.runTask hk hc₁ ht

theorem Kept.act {a : Action} (h : Kept k none d ([], e)) (hc : Correlated ([], e))
    (hk : k + (if a.opens then 1 else 0) ≤ 1) (ha : a.Fits e) :
    Upheld (k + if a.opens then 1 else 0) (e.act a) := by
  have hk' : k ≤ 1 := by omega
  have hedit {text : List Char} {changes : Option (List Change)}
      (hcareful : CarefulEdit e text changes) :
      Kept k none (d.edited text changes).2 ([], (e.scheduleChange 0 text changes).2) := by
    obtain ⟨s, hs, hd⟩ := session?_zero h.sound.session
    exact h.edited hc.numbered fun batch hbatch => hd ▸ hcareful batch hbatch s hs
  have hinner {a : Action} (hi : a.inner = true) : Upheld k (e.act a) :=
    (h.path hk' hc (path_act hi)).imp id fun ⟨d', hd', _⟩ => ⟨d', hd'⟩
  cases a with
  | run => exact h.runNext hk' hc
  | «begin» op =>
    have hop : (Action.begin op).opens = (Frame.begin op).opens := by cases op <;> rfl
    rw [hop]
    exact .inr ⟨d, h.spawn hc.numbered ha⟩
  | scheduleChange doc text changes =>
    obtain ⟨rfl, hcareful⟩ := ha
    exact .inr ⟨_, hedit hcareful⟩
  | viewChanged doc text changes =>
    obtain ⟨rfl, hcareful⟩ := ha
    have hcor := hc.act (.scheduleChange 0 text changes)
    exact ((hedit hcareful).path hk' hcor (path_viewChanged 0 text changes)).imp id
      fun ⟨d', hd', _⟩ => ⟨d', hd'⟩
  | closeSession doc => exact h.closeSession hk' hc doc
  | cancel r => exact ha.elim
  | failSends f => exact ha.elim
  | addSession s => exact ha.elim
  | _ => exact hinner rfl

theorem Upheld.after : ∀ (actions : List Action) {e : Engine} {k : Nat}, Upheld k e →
    Correlated ([], e) → k + actions.countP Action.opens ≤ 1 → Fitting e actions →
    Upheld (k + actions.countP Action.opens) (e.after actions)
  | [], _, _, h, _, _, _ => h
  | a :: rest, e, k, h, hc, hk, hf => by
      have hcount : k + (a :: rest).countP Action.opens
          = k + (if a.opens then 1 else 0) + rest.countP Action.opens := by
        rw [List.countP_cons]
        omega
      rw [hcount] at hk ⊢
      refine Upheld.after rest ?_ (hc.act a) hk hf.2
      rcases h with hclosed | ⟨d, hkept⟩
      · exact .inl ((lasts_act a e).closed hclosed)
      · exact hkept.act hc (by omega) hf.1

theorem Begins.upheld (h : Begins e) : Upheld 0 e := by
  obtain ⟨options, script, s, h, rfl⟩ := h
  have htracks : Tracks none s.document := by
    refine ⟨fun _ => ⟨h.shadow, h.unsent⟩, ?_, fun _ => ⟨h.shadow, h.unsent⟩, ?_⟩
    · intro ho
      rw [h.unopened] at ho
      cases ho
    · intro events hu
      rw [h.unsent] at hu
      cases hu
  refine .inr ⟨s.document, ⟨?_, fun _ _ => rfl, ?_, ?_, ?_, htracks⟩, .inr ⟨?_, ?_, ?_⟩⟩
  · exact congrArg (fun hook => [(s.document, hook)]) h.hook
  · intro f hf
    cases hf
  · rw [h.unopened]
    exact Nat.le_refl 0
  · intro f hf
    cases hf
  · refine ⟨?_, .inl rfl, ?_, by simp⟩
    · rintro (ho | ⟨f, hf, _⟩)
      · rw [h.unopened] at ho
        cases ho
      · cases hf
    · intro r hr
      cases hr
  · intro r hr
    cases hr
  · exact told_of_unopened h.unopened

theorem Begins.correlated (h : Begins e) : Correlated ([], e) := by
  obtain ⟨options, script, s, _, rfl⟩ := h
  exact (correlated_create options script).act (.addSession s)

theorem slotPending_of_slotted {r : Ref} (h : Slotted none e) (hr : e.slots.get? 0 = some r) :
    e.slotPending 0 = true := by
  obtain ⟨m, rfl, _, hd⟩ := h r hr
  simp [slotPending, hr, hd.unsettled]

/-- The server has said what it can do in a form that can be read. A document that sends the whole
    text does not ask. -/
def Answered (d : Document) (e : Engine) : Prop :=
  d.incremental = true → ∀ event ∈ e.history, event.legible = true

instance (d : Document) (e : Engine) : Decidable (Answered d e) :=
  inferInstanceAs (Decidable (d.incremental = true → ∀ event ∈ e.history, event.legible = true))

theorem Answered.not_excused (h : Answered d e) (hc : d.closed = false) : ¬ Excused d e := by
  rintro (hclosed | ⟨hi, capabilities, hmem, hobject⟩)
  · rw [hc] at hclosed
    cases hclosed
  · have hlegible := h hi _ hmem
    cases capabilities with
    | obj members => exact hobject members rfl
    | _ => cases hlegible

/-- Whatever the user of a document does, as long as the connection stays open: an open document has
    the text that the server has, or the rest waits to be sent; changes that are noted lead from the
    server's text to the document's, which is the shadow; and a document that sends the whole text
    notes none. -/
theorem document_inStep (hb : Begins e) (actions : List Action) (hf : Fitting e actions)
    (ho : actions.countP Action.opens ≤ 1) (hopen : (e.after actions).client.closed = false) :
    ∃ d, ((e.after actions).session? 0).map (·.document) = some d ∧
      (d.opened = true → d.closed = false → Answered d (e.after actions) →
        mirror (e.after actions).history = some d.text ∨ (e.after actions).slotPending 0 = true) ∧
      (∀ events, d.unsent = some events → ∃ b text, d.shadow = some b ∧ b.text = d.text ∧
        mirror (e.after actions).history = some text ∧ followed text events = some d.text) ∧
      (d.incremental = false → d.shadow = none ∧ d.unsent = none) := by
  rcases hb.upheld.after actions hb.correlated (by omega) hf with hclosed | ⟨d, hkept⟩
  · rw [hopen] at hclosed
    cases hclosed
  · obtain ⟨s, hs, rfl⟩ := session?_zero hkept.sound.session
    refine ⟨s.document, by rw [hs, Option.map_some], ?_, hkept.sound.tracks.unsent,
      hkept.sound.tracks.full⟩
    intro hopened hc hanswered
    have hd := hkept.delivers.resolve_left (hanswered.not_excused hc)
    exact (hd.told hopened).imp id fun ⟨r, hr⟩ => slotPending_of_slotted hd.slotted hr

/-- A server that takes changes of ranges, and a document that sends them. -/
def ranged (text : List Char) : Engine :=
  (create usual { capabilities := .obj [("textDocumentSync", .int 2)] }).addSession
    { document := { uri := "file:///doc", language := "python", incremental := true, text }
      view := { text } }

/-- The document is edited while its opening is being sent; then that edit is sent, and a batch of two
    changes on both sides of a CR LF. -/
def editedAlong : List Action :=
  [[.begin (.openDocument 0 none)], runs 7, [.block], runs 2,
    [.scheduleChange 0 ['a', '\r', '\n', 'b', 'c'] none, .unblock], runs 3,
    [.begin (.flushPending 0)], runs 3,
    [.scheduleChange 0 ['x', 'a', '\r', '\n', 'b'] (some [⟨0, 0, ['x']⟩, ⟨4, 5, []⟩]),
      .begin (.flushPending 0)], runs 3].flatten

theorem editedAlong_inStep :
    let e := ranged ['a', '\r', '\n', 'b']
    Begins e ∧ Fitting e editedAlong ∧ editedAlong.countP Action.opens ≤ 1 ∧
      (e.after editedAlong).client.closed = false ∧
      ∃ d, ((e.after editedAlong).session? 0).map (·.document) = some d ∧
        d.text = ['x', 'a', '\r', '\n', 'b'] ∧ d.opened = true ∧ d.closed = false ∧
        Answered d (e.after editedAlong) ∧
        (mirror (e.after editedAlong).history = some d.text ∨
          (e.after editedAlong).slotPending 0 = true) := by
  intro e
  have hb : Begins e := ⟨_, _, _, ⟨rfl, rfl, rfl, rfl⟩, rfl⟩
  have ho : editedAlong.countP Action.opens ≤ 1 := by decide
  -- one run serves all that is computed
  obtain ⟨hf, hopen, hd⟩ : Fitting e editedAlong ∧ (e.after editedAlong).client.closed = false ∧
      ∀ d ∈ ((e.after editedAlong).session? 0).map (·.document),
        d.text = ['x', 'a', '\r', '\n', 'b'] ∧ d.opened = true ∧ d.closed = false ∧
          Answered d (e.after editedAlong) := by
    decide +kernel
  obtain ⟨d, hmem, htold, _⟩ := document_inStep hb editedAlong hf ho hopen
  obtain ⟨htext, hopened, hclosed, hanswered⟩ := hd d hmem
  exact ⟨hb, hf, ho, hopen, d, hmem, htext, hopened, hclosed, hanswered,
    htold hopened hclosed hanswered⟩

/-- A batch that changes the LF of a CR LF is taken note of and sent, and the server cannot carry it
    out: the document is open and nothing waits, but the server has lost the text. -/
theorem document_insideBreak :
    let actions : List Action := [[.begin (.openDocument 0 none)], runs 10,
      [.scheduleChange 0 ['a', '\r', 'x', 'b'] (some [⟨2, 3, ['x']⟩]), .begin (.flushPending 0)],
      runs 3].flatten
    let e := (ranged ['a', '\r', '\n', 'b']).after actions
    actions.countP Action.opens = 1 ∧ e.client.closed = false ∧ e.client.ready = true ∧
      (e.session? 0).map (fun s => (s.document.text, s.document.opened, s.document.closed))
        = some (['a', '\r', 'x', 'b'], true, false) ∧
      mirror e.history = none ∧ e.slotPending 0 = false := by
  decide +kernel

end Engine

end LanguageClient
