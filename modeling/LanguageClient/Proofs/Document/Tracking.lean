import LanguageClient.Proofs.Document.Moves

/-!
A document and the server's copy of it. A document that has changes noted (`unsent`) knows that they
lead from the server's copy to its own text (`Tracks`); each operation of a document keeps that so.
Over a run it takes three more things: that the document is opened only once, that whoever has sent
the text knows which one it was, and that nobody else speaks for the document (`Sound`).
-/

namespace LanguageClient

/-! ### One document -/

/-- The document knows how far the server has been told of it. -/
structure Tracks (mirror : Option (List Char)) (d : Document) : Prop where
  unopened : d.opened = false → d.shadow = none ∧ d.unsent = none
  opened : d.opened = true → ∃ text, mirror = some text
  full : d.incremental = false → d.shadow = none ∧ d.unsent = none
  unsent : ∀ events, d.unsent = some events → ∃ b text, d.shadow = some b ∧ b.text = d.text ∧
    mirror = some text ∧ followed text events = some d.text

namespace Tracks

variable {m : Option (List Char)} {d : Document}

/-- A document whose next message will carry the whole text. -/
theorem forget (h : Tracks m d) (text : List Char) : Tracks m { d with text }.forget where
  unopened ho := ⟨(h.unopened ho).1, rfl⟩
  opened := h.opened
  full hi := ⟨(h.full hi).1, rfl⟩
  unsent _ hu := by cases hu

theorem preset (h : Tracks m d) (ho : d.opened = false) (text : List Char) :
    Tracks m { d with text } where
  unopened := h.unopened
  opened := h.opened
  full := h.full
  unsent events hu := by
    have hnone := (h.unopened ho).2
    rw [show d.unsent = some events from hu] at hnone
    cases hnone

/-- What the server has does not matter before the document is opened. -/
theorem of_unopened {m' : Option (List Char)} (h : Tracks m d) (ho : d.opened = false) :
    Tracks m' d where
  unopened := h.unopened
  opened hopened := by
    rw [ho] at hopened
    cases hopened
  full := h.full
  unsent events hu := by
    have hnone := (h.unopened ho).2
    rw [hu] at hnone
    cases hnone

theorem replaced (h : Tracks m d) (text : List Char) : Tracks m (d.replaced text) := by
  unfold Document.replaced
  split
  · exact h.forget text
  · exact h

theorem close (h : Tracks m d) : Tracks m { d with closed := true } :=
  ⟨h.unopened, h.opened, h.full, h.unsent⟩

/-- Starting afresh from the text that the server has. -/
theorem resync (ho : d.opened = true) : Tracks (some d.text) (d.resync d.text) := by
  unfold Document.resync
  split
  · rename_i hi
    refine ⟨?_, fun _ => ⟨_, rfl⟩, ?_, ?_⟩
    · intro hn
      simp [ho] at hn
    · intro hf
      simp [hi] at hf
    · intro events hu
      obtain rfl := Option.some.inj hu
      exact ⟨⟨d.text⟩, d.text, rfl, rfl, rfl, followed_nil _⟩
  · refine ⟨fun _ => ⟨rfl, rfl⟩, fun _ => ⟨_, rfl⟩, fun _ => ⟨rfl, rfl⟩, ?_⟩
    intro events hu
    cases hu

/-- A document that was edited while it was being opened. -/
theorem reopen {sent : List Char} (ho : d.opened = true) :
    Tracks (some sent) (d.resync sent).forget := by
  unfold Document.resync
  split
  · rename_i hi
    refine ⟨?_, fun _ => ⟨_, rfl⟩, ?_, ?_⟩
    · intro hn
      simp [Document.forget, ho] at hn
    · intro hf
      simp [Document.forget, hi] at hf
    · intro events hu
      cases hu
  · refine ⟨fun _ => ⟨rfl, rfl⟩, fun _ => ⟨_, rfl⟩, fun _ => ⟨rfl, rfl⟩, ?_⟩
    intro events hu
    cases hu

/-- What is sent brings the server's copy up to date. -/
theorem followed_contentChanges {text : List Char} (h : Tracks m d) (hm : m = some text)
    (ranges : Bool) : followed text (d.contentChanges ranges) = some d.text := by
  unfold Document.contentChanges
  split
  · rename_i c cs hu
    split
    · obtain ⟨_, text', _, _, hm', hf⟩ := h.unsent _ hu
      obtain rfl : text' = text := Option.some.inj (hm'.symm.trans hm)
      exact hf
    · exact followed_whole _ _
  · exact followed_whole _ _

end Tracks

/-! ### Edits -/

/-- No batch is taken note of that could mislead the server: its changes are apart, and none of their
    ends stands inside a CR LF. -/
def Document.Careful (d : Document) (text : List Char) (changes : List Change) : Prop :=
  ∀ b events, d.incremental = true → d.shadow = some b → d.unsent = some events →
    ({ d with text }.noteBatch b events changes).1 = true →
    changes.Pairwise Change.Apart ∧ KeepsBreaks b.text b.text (descending changes)

theorem Tracks.edited {m : Option (List Char)} {d : Document} {text : List Char}
    {changes : Option (List Change)} (h : Tracks m d)
    (hc : ∀ batch, changes = some batch → d.Careful text batch) :
    Tracks m (d.edited text changes).2 := by
  unfold Document.edited
  simp only
  split
  · rename_i batch b events hi hs hu
    have hcareful := hc batch rfl b events hi hs hu
    have hrefused : (({ d with text } : Document).noteBatch b events batch).1 = false →
        (({ d with text } : Document).noteBatch b events batch).2 = { d with text }.forget :=
      noteBatch_refused
    generalize hn : ({ d with text } : Document).noteBatch b events batch = noted at *
    obtain ⟨fits, d'⟩ := noted
    cases fits with
    | false =>
      rw [hrefused rfl]
      exact h.forget text
    | true =>
      obtain ⟨ha, hk⟩ := hcareful rfl
      obtain ⟨more, rfl, _, hiff⟩ := noteBatch_found ha hn
      obtain ⟨b', before, hs', hbt, hm, hf⟩ := h.unsent events hu
      obtain rfl : b = b' := Option.some.inj (hs.symm.trans hs')
      refine ⟨?_, h.opened, ?_, ?_⟩
      · intro ho
        have hnone := (h.unopened ho).2
        rw [show d.unsent = some events from hu] at hnone
        cases hnone
      · intro hf
        rw [show d.incremental = true from hi] at hf
        cases hf
      · intro events' hu'
        obtain rfl := Option.some.inj hu'
        refine ⟨⟨text⟩, before, rfl, rfl, hm, ?_⟩
        rw [followed_append, hf, ← hbt, Option.bind_some, followed, hiff.mpr hk]
        rfl
  · exact h.forget text

namespace Engine

variable {c c' : Config} {st st' : List Frame} {e e' : Engine} {d d' : Document} {k : Nat}

/-! ### The only document -/

theorem session?_of_cores {doc : Nat} {s : Session} {hook : EditHook}
    (h : e.sessions.map Session.core = [(d, hook)]) (hs : e.session? doc = some s) :
    doc = 0 ∧ s.document = d ∧ s.hook = hook := by
  have hget : (e.sessions.map Session.core)[doc]? = some s.core := by
    rw [List.getElem?_map, show e.sessions[doc]? = some s from hs]
    rfl
  rw [h] at hget
  cases doc with
  | zero =>
    obtain ⟨rfl, rfl⟩ := Prod.mk.inj (Option.some.inj hget)
    exact ⟨rfl, rfl, rfl⟩
  | succ n => cases hget

theorem session?_zero {hook : EditHook} (h : e.sessions.map Session.core = [(d, hook)]) :
    ∃ s, e.session? 0 = some s ∧ s.document = d := by
  obtain ⟨s, hs, hcore⟩ := List.map_eq_singleton_iff.mp h
  refine ⟨s, ?_, congrArg Prod.fst hcore⟩
  simp [session?, hs]

theorem cores_onDocument_zero {hook : EditHook} (f : Document → Document)
    (h : e.sessions.map Session.core = [(d, hook)]) :
    (e.onDocument 0 f).sessions.map Session.core = [(f d, hook)] := by
  obtain ⟨s, hs, hcore⟩ := List.map_eq_singleton_iff.mp h
  obtain ⟨rfl, rfl⟩ := Prod.mk.inj hcore
  simp [onDocument, onSession, hs, Session.core]

theorem onDocument_of_ne {doc : Nat} {hook : EditHook} (f : Document → Document)
    (h : e.sessions.map Session.core = [(d, hook)]) (hdoc : doc ≠ 0) : e.onDocument doc f = e := by
  have hlen : e.sessions.length = 1 := by simpa using congrArg List.length h
  rw [onDocument, onSession, List.modify_eq_self (by omega)]

/-! ### The invariant -/

/-- The only document of an engine is in step with what the server has been sent, and at most a given
    number of times it was, or will be, opened. -/
structure Sound (k : Nat) (d : Document) (c : Config) : Prop where
  session : c.2.sessions.map Session.core = [(d, .none)]
  slots : ∀ doc, doc ≠ 0 → c.2.slots.get? doc = none
  orderly : ∀ f ∈ frames c, f.orderly = true
  once : (frames c).countP Frame.opens + (if d.opened then 1 else 0) ≤ k
  sent : ∀ f ∈ frames c, ∀ text, f.sent? = some text → mirror c.2.history = some text
  tracks : Tracks (mirror c.2.history) d

theorem mem_frames_grows {f : Frame} (hg : Grows e e') (hf : f ∈ frames (st', e')) :
    f ∈ st' ∨ f ∈ e.held ∨ (f.orderly = true ∧ f.sent? = none) := by
  obtain ⟨ops, hheld, hown, _⟩ := hg.held
  rw [frames, hheld, List.mem_append, List.mem_append] at hf
  rcases hf with hf | hf | hf
  · exact .inl hf
  · exact .inr (.inl hf)
  · obtain ⟨op, hop, rfl⟩ := List.mem_map.mp hf
    exact .inr (.inr ⟨Operation.orderly_of_own (hown op hop), rfl⟩)

theorem countP_frames_grows (hg : Grows e e') (st' : List Frame) :
    (frames (st', e')).countP Frame.opens = st'.countP Frame.opens + e.held.countP Frame.opens := by
  obtain ⟨ops, hheld, hown, _⟩ := hg.held
  have hops : (ops.map Frame.begin).countP Frame.opens = 0 := by
    rw [List.countP_eq_zero]
    intro f hf
    obtain ⟨op, hop, rfl⟩ := List.mem_map.mp hf
    simp [Frame.opens_begin_of_own (hown op hop)]
  rw [frames, hheld, List.countP_append, List.countP_append, hops, Nat.add_zero]

theorem sent_of_stays {f : Frame} (hst : Stays st st') (hg : Grows e e')
    (hf : f ∈ frames (st', e')) (hsent : f.sent? ≠ none) : f ∈ frames (st, e) := by
  rcases mem_frames_grows hg hf with hf | hf | hf
  · rcases hst.mem _ hf with hf | hf
    · exact List.mem_append_left _ hf
    · exact absurd hf.2 hsent
  · exact List.mem_append_right _ hf
  · exact absurd hf.2 hsent

theorem countP_of_stays (hst : Stays st st') (hg : Grows e e') :
    (frames (st', e')).countP Frame.opens ≤ (frames (st, e)).countP Frame.opens := by
  rw [countP_frames_grows hg, frames, List.countP_append]
  exact Nat.add_le_add_right hst.opens _

theorem Sound.orderly_of_stays (h : Sound k d (st, e)) (hst : Stays st st') (hg : Grows e e') :
    ∀ f ∈ frames (st', e'), f.orderly = true := by
  intro f hf
  rcases mem_frames_grows hg hf with hf | hf | hf
  · rcases hst.mem f hf with hf | hf
    · exact h.orderly f (List.mem_append_left _ hf)
    · exact hf.1
  · exact h.orderly f (List.mem_append_right _ hf)
  · exact hf.1

/-- The document may change as long as it is still tracked. -/
theorem Sound.update (h : Sound k d (st, e)) (hst : Stays st st') (hg : Grows e e')
    (hsession : e'.sessions.map Session.core = [(d', .none)])
    (hslots : ∀ doc, doc ≠ 0 → e'.slots.get? doc = none) (ho : d'.opened = d.opened)
    (hm : mirror e'.history = mirror e.history) (ht : Tracks (mirror e.history) d') :
    Sound k d' (st', e') := by
  refine ⟨hsession, hslots, h.orderly_of_stays hst hg, ?_, ?_, hm ▸ ht⟩
  · rw [ho]
    exact Nat.le_trans (Nat.add_le_add_right (countP_of_stays hst hg) _) h.once
  · intro f hf text htext
    rw [hm]
    exact h.sent f (sent_of_stays hst hg hf (by simp [htext])) text htext

theorem Idles.mirror (h : Idles e e') :
    LanguageClient.mirror e'.history = LanguageClient.mirror e.history := by
  obtain ⟨more, hh, hmute⟩ := h.history
  rw [hh, mirror_append_of_mute _ hmute]

theorem Sound.idle (h : Sound k d (st, e)) (hi : Idles e e') (hst : Stays st st')
    (hg : Grows e e') : Sound k d (st', e') := by
  refine h.update hst hg ?_ ?_ rfl hi.mirror h.tracks
  · rw [hi.sessions]
    exact h.session
  · rw [hi.slots]
    exact h.slots

/-- Frames that put nothing out of order do not matter. -/
theorem Sound.stays (h : Sound k d (st, e)) (hst : Stays st st') : Sound k d (st', e) :=
  h.idle (idles_tallies (.refl e)) hst (.refl e)

/-- The server is told nothing by the note of a text. -/
theorem Sound.texted (h : Sound k d (st, e)) (doc : Nat) (text : List Char) :
    Sound k d (st, e.note (.texted doc text)) :=
  h.update (.refl st) (.of_tasks rfl (Nat.le_refl _) rfl) h.session h.slots rfl (mirror_concat _ _)
    h.tracks

/-! ### The handshake -/

theorem Sound.handshake (h : Sound k d (st, e)) (hg : Grows e e.startHandshake.2) :
    Sound k d (st, e.startHandshake.2) := by
  obtain ⟨hs, hslots, hh⟩ := startHandshake_same e
  refine h.update (.refl st) hg (hs.trans h.session) ?_ rfl (by rw [hh]) h.tracks
  rw [hslots]
  exact h.slots

theorem Sound.agreed (h : Sound k d (st, e)) (hst : Stays st st') (capabilities : Json) :
    Sound k d (st', (e.agree capabilities).note (.handed initialized)) := by
  have hagreed : Sound k d (st', e.agree capabilities) :=
    h.update hst (.of_tasks rfl (Nat.le_refl _) rfl) h.session h.slots rfl (mirror_concat _ _) h.tracks
  exact hagreed.idle (idles_note rfl _) (.refl _) (.of_tasks rfl (Nat.le_refl _) rfl)

/-! ### Opening -/

/-- Whoever still has to open the document finds it unopened. -/
theorem Sound.unopened {f : Frame} (h : Sound k d (f :: st, e)) (hk : k ≤ 1) (hf : f.opens = true) :
    d.opened = false ∧ (frames (st, e)).countP Frame.opens = 0 := by
  have honce := h.once
  have hcount : (frames (f :: st, e)).countP Frame.opens
      = (frames (st, e)).countP Frame.opens + 1 := by
    simp [frames, hf]
  cases hd : d.opened with
  | false =>
    simp only [hcount, hd, Bool.false_eq_true, if_false] at honce
    exact ⟨rfl, by omega⟩
  | true =>
    simp only [hcount, hd, if_true] at honce
    omega

/-- The document that is to be opened gets its text. -/
theorem Sound.preset {doc : Nat} {text : Option (List Char)}
    (h : Sound k d (.begin (.openDocument doc text) :: st, e)) (hk : k ≤ 1) :
    ∃ d', Sound k d' (.readyToOpen doc :: st, e.preset doc text) ∧ d'.opened = false ∧
      d'.closed = d.closed ∧ d'.incremental = d.incremental := by
  obtain ⟨ho, _⟩ := h.unopened hk rfl
  have hst : Stays (.begin (.openDocument doc text) :: st) (.readyToOpen doc :: st) := by
    constructor
    · intro f hf
      rcases List.mem_cons.mp hf with rfl | hf
      · exact .inr ⟨rfl, rfl⟩
      · exact .inl (List.mem_cons_of_mem _ hf)
    · rw [List.countP_cons_of_pos rfl, List.countP_cons_of_pos rfl]
  have hsame : Sound k d (.readyToOpen doc :: st, e) :=
    h.update hst (.refl e) h.session h.slots rfl rfl h.tracks
  cases text with
  | none => exact ⟨d, hsame, ho, rfl, rfl⟩
  | some text =>
    by_cases hdoc : doc = 0
    · subst hdoc
      refine ⟨{ d with text }, ?_, ho, rfl, rfl⟩
      have hnoted := hsame.texted 0 text
      exact hnoted.update (.refl _) (.of_tasks rfl (Nat.le_refl _) rfl)
        (cores_onDocument_zero _ hnoted.session) hnoted.slots rfl rfl (hnoted.tracks.preset ho text)
    · have hnoted := hsame.texted doc text
      refine ⟨d, ?_, ho, rfl, rfl⟩
      rw [Engine.preset, onDocument_of_ne _ hnoted.session hdoc]
      exact hnoted

/-- The message that opens the document is handed over. -/
theorem Sound.opening {doc : Nat} {s : Session} (h : Sound k d (.readyToOpen doc :: st, e))
    (hk : k ≤ 1) (hs : e.session? doc = some s) :
    Sound k d (.gate (.notify "textDocument/didOpen") (didOpen s.document)
        :: .openSent doc s.document.text :: st,
      e.speak doc (didOpen s.document)) := by
  obtain ⟨ho, hnone⟩ := h.unopened hk rfl
  obtain ⟨rfl, rfl, _⟩ := session?_of_cores h.session hs
  refine ⟨h.session, h.slots, ?_, ?_, ?_, h.tracks.of_unopened ho⟩
  · intro f hf
    rcases List.mem_cons.mp hf with rfl | hf
    · rfl
    · rcases List.mem_cons.mp hf with rfl | hf
      · rfl
      · exact h.orderly f (List.mem_cons_of_mem _ hf)
  · have hnew : (frames (.openSent 0 s.document.text :: st, e)).countP Frame.opens
        = (frames (.readyToOpen 0 :: st, e)).countP Frame.opens := by
      rw [frames, List.cons_append, List.countP_cons_of_pos rfl, frames, List.cons_append,
        List.countP_cons_of_pos rfl]
    exact Nat.le_trans (Nat.add_le_add_right (Nat.le_of_eq hnew) _) h.once
  · intro f hf text htext
    rw [mirror_speak, mirror_didOpen]
    rcases List.mem_cons.mp hf with rfl | hf
    · cases htext
    · rcases List.mem_cons.mp hf with rfl | hf
      · exact htext
      · have hopens : f.opens = true := by
          cases hf' : f.opens with
          | true => rfl
          | false =>
            rw [Frame.sent?_of_opens hf'] at htext
            cases htext
        exact absurd hopens (List.countP_eq_zero.mp hnone f hf)

/-- What putting work into a slot changes. -/
theorem scheduleFlush_same (doc : Nat) (e : Engine) :
    (e.scheduleFlush doc).2.sessions = e.sessions ∧ (e.scheduleFlush doc).2.history = e.history ∧
      (e.scheduleFlush doc).2.slots = (e.slots.erase doc).put doc (.task e.nextRef) := by
  have hc := cancels_cancelSlot doc e
  have hn : (e.cancelSlot doc).2.nextRef = e.nextRef := hc.nextRef
  refine ⟨hc.sessions, hc.history, ?_⟩
  change (e.cancelSlot doc).2.slots.put doc (.task (e.cancelSlot doc).2.nextRef) = _
  rw [hc.slots, hn]

theorem Sound.scheduleFlush (h : Sound k d (st, e)) (hg : Grows e (e.scheduleFlush 0).2) :
    Sound k d (st, (e.scheduleFlush 0).2) := by
  obtain ⟨hs, hh, hslots⟩ := scheduleFlush_same 0 e
  refine h.update (.refl st) hg (by rw [hs]; exact h.session) ?_ rfl (by rw [hh]) h.tracks
  intro doc hdoc
  rw [hslots, Table.get?_put_of_ne hdoc, Table.get?_erase, if_neg hdoc]
  exact h.slots doc hdoc

/-- The server has been told of the document: it has the text that was sent. -/
theorem noteOpened_cases (h : e.sessions.map Session.core = [(d, .none)]) (doc : Nat)
    (sent : List Char) :
    (doc ≠ 0 ∧ e.noteOpened doc sent = e) ∨
    (doc = 0 ∧ d.text = sent ∧
      e.noteOpened doc sent = e.onDocument 0 fun d => { d with opened := true }.resync sent) ∨
    (doc = 0 ∧ d.text ≠ sent ∧ e.noteOpened doc sent =
      (((e.onDocument 0 fun d => { d with opened := true }.resync sent).onDocument 0
        (·.forget)).scheduleFlush 0).2) := by
  by_cases hdoc : doc = 0
  · subst hdoc
    have hcore := cores_onDocument_zero (fun d => { d with opened := true }.resync sent) h
    obtain ⟨s, hs, hd⟩ := session?_zero hcore
    have htext : s.document.text = d.text := by
      rw [hd, Document.resync]
      split <;> rfl
    by_cases hsent : d.text = sent
    · refine .inr (.inl ⟨rfl, hsent, ?_⟩)
      simp only [noteOpened, hs]
      rw [if_neg (by rw [htext]; exact not_not.mpr hsent)]
    · refine .inr (.inr ⟨rfl, hsent, ?_⟩)
      simp only [noteOpened, hs]
      rw [if_pos (by rw [htext]; exact hsent)]
  · refine .inl ⟨hdoc, ?_⟩
    have hsame := onDocument_of_ne (fun d => { d with opened := true }.resync sent) h hdoc
    have hnone : e.session? doc = none := by
      cases hs : e.session? doc with
      | none => rfl
      | some s => exact absurd (session?_of_cores h hs).1 hdoc
    simp only [noteOpened, hsame, hnone]

theorem resync_opened (sent : List Char) (d : Document) :
    ({ d with opened := true }.resync sent).opened = true ∧
      ({ d with opened := true }.resync sent).closed = d.closed ∧
      ({ d with opened := true }.resync sent).incremental = d.incremental ∧
      ({ d with opened := true }.resync sent).text = d.text := by
  unfold Document.resync
  split <;> exact ⟨rfl, rfl, rfl, rfl⟩

/-- The frame that was to open the document is gone, and the document is open. -/
theorem Sound.afterOpening {f : Frame} (h : Sound k d (f :: st, e)) (hk : k ≤ 1)
    (hf : f.opens = true) (hd : d'.opened = true)
    (hsession : e'.sessions.map Session.core = [(d', .none)])
    (hslots : e'.slots = e.slots) (hh : e'.history = e.history) (htasks : e'.tasks = e.tasks)
    (ht : Tracks (mirror e.history) d') : Sound k d' (st, e') := by
  obtain ⟨ho, hnone⟩ := h.unopened hk hf
  have hframes : frames (st, e') = frames (st, e) := by
    rw [frames, held, htasks]
    rfl
  have hmem (g : Frame) (hg : g ∈ frames (st, e)) : g ∈ frames (f :: st, e) :=
    List.mem_cons_of_mem _ hg
  refine ⟨hsession, hslots ▸ h.slots, ?_, ?_, ?_, hh ▸ ht⟩
  · rw [hframes]
    exact fun g hg => h.orderly g (hmem g hg)
  · have honce := h.once
    rw [frames, List.cons_append, List.countP_cons_of_pos hf, ho] at honce
    rw [hframes, hd, hnone]
    simp only [Bool.false_eq_true, if_false] at honce
    simp only [if_true]
    omega
  · rw [hframes, hh]
    exact fun g hg => h.sent g (hmem g hg)

theorem Sound.opened {doc : Nat} {sent : List Char} (h : Sound k d (.openSent doc sent :: st, e))
    (hk : k ≤ 1) (hn : Numbered e) :
    ∃ d', Sound k d' (st, e.noteOpened doc sent) ∧ (d.closed = true → d'.closed = true) ∧
      d'.incremental = d.incremental := by
  have hmirror : LanguageClient.mirror e.history = some sent :=
    h.sent _ (List.mem_cons_self ..) sent rfl
  obtain ⟨ho, hc, hi, ht⟩ := resync_opened sent d
  rcases noteOpened_cases h.session doc sent with ⟨_, heq⟩ | ⟨rfl, htext, heq⟩ | ⟨rfl, htext, heq⟩
  · rw [heq]
    exact ⟨d, h.idle (idles_tallies (.refl e)) (stays_tail _ _) (.refl e), id, rfl⟩
  · rw [heq]
    refine ⟨{ d with opened := true }.resync sent, ?_, fun hd => hc.trans hd, hi⟩
    refine h.afterOpening hk rfl ho (cores_onDocument_zero _ h.session) rfl rfl rfl ?_
    rw [hmirror, ← htext]
    exact Tracks.resync (d := { d with opened := true }) rfl
  · rw [heq]
    refine ⟨({ d with opened := true }.resync sent).forget, ?_, fun hd => hc.trans hd, hi⟩
    have hopen : Sound k ({ d with opened := true }.resync sent).forget
        (st, (e.onDocument 0 fun d => { d with opened := true }.resync sent).onDocument 0
          (·.forget)) := by
      refine h.afterOpening hk rfl ho
        (cores_onDocument_zero _ (cores_onDocument_zero _ h.session)) rfl rfl rfl ?_
      rw [hmirror]
      exact Tracks.reopen rfl
    have hn' : Numbered ((e.onDocument 0 fun d => { d with opened := true }.resync sent).onDocument 0
        (·.forget)) := ⟨hn.nodup, hn.lt⟩
    exact hopen.scheduleFlush (hn'.grows_scheduleFlush 0)

/-! ### Sending changes -/

/-- Emptying slots is none of the document's business. -/
theorem Sound.slots_of_erase (h : Sound k d c) {slots : Table Nat Ref} {slot : Nat}
    (hs : slots = c.2.slots.erase slot) : ∀ doc, doc ≠ 0 → slots.get? doc = none := by
  intro doc hdoc
  rw [hs, Table.get?_erase]
  split
  · rfl
  · exact h.slots doc hdoc

theorem Sound.cancelSlot (h : Sound k d (st, e)) (doc : Nat) :
    Sound k d (st, (e.cancelSlot doc).2) := by
  have hc := cancels_cancelSlot doc e
  exact h.update (.refl st) (grows_cancelSlot doc e) (by rw [hc.sessions]; exact h.session)
    (h.slots_of_erase hc.slots) rfl (by rw [hc.history]) h.tracks

theorem Sound.clears {doc : Nat} (h : Sound k d c) (hc : Clears doc c c') : Sound k d c' := by
  cases hc with
  | kept => exact h
  | cancelled => exact h.cancelSlot doc
  | @elapsed st e slot =>
    exact h.update ((stays_tail _ st).trans (stays_cons rfl rfl st)) (.of_tasks rfl (Nat.le_refl _) rfl)
      h.session (h.slots_of_erase rfl) rfl rfl h.tracks

/-- The document after a text was given for it. -/
def retexted (doc : Nat) (text : Option (List Char)) (d : Document) : Document :=
  match doc, text with
  | 0, some text => d.replaced text
  | _, _ => d

theorem replaced_same (text : List Char) (d : Document) : (d.replaced text).opened = d.opened ∧
    (d.replaced text).closed = d.closed ∧ (d.replaced text).incremental = d.incremental := by
  unfold Document.replaced
  split <;> exact ⟨rfl, rfl, rfl⟩

theorem retexted_same (doc : Nat) (text : Option (List Char)) (d : Document) :
    (retexted doc text d).opened = d.opened ∧ (retexted doc text d).closed = d.closed ∧
      (retexted doc text d).incremental = d.incremental := by
  unfold retexted
  split
  · exact replaced_same _ d
  · exact ⟨rfl, rfl, rfl⟩

theorem Sound.retext (h : Sound k d (st, e)) (doc : Nat) (text : Option (List Char)) :
    Sound k (retexted doc text d) (st, e.retext doc text) := by
  cases text with
  | none =>
    cases doc with
    | zero => exact h
    | succ doc => exact h
  | some text =>
    cases doc with
    | zero =>
      have hnoted := h.texted 0 text
      exact hnoted.update (.refl st) (.of_tasks rfl (Nat.le_refl _) rfl)
        (cores_onDocument_zero _ hnoted.session) hnoted.slots (replaced_same text d).1 rfl
        (hnoted.tracks.replaced text)
    | succ doc =>
      have hnoted := h.texted (doc + 1) text
      rw [Engine.retext, onDocument_of_ne _ hnoted.session (Nat.succ_ne_zero doc)]
      exact hnoted

theorem beginFlush_same (ranges : Bool) (d : Document) :
    (d.beginFlush ranges).2.opened = d.opened ∧ (d.beginFlush ranges).2.closed = d.closed ∧
      (d.beginFlush ranges).2.incremental = d.incremental ∧
      (d.beginFlush ranges).2.text = d.text := by
  unfold Document.beginFlush Document.resync
  simp only
  split <;> exact ⟨rfl, rfl, rfl, rfl⟩

/-- After the changes have been handed over, the server's copy is up to date. -/
theorem Sound.told {doc : Nat} {s : Session} (h : Sound k d (st, e)) (d'' : Document) (hk : k ≤ 1)
    (hs : e.session? doc = some s) (ho : s.document.opened = true) (ranges : Bool) :
    Sound k (d.beginFlush ranges).2 (.gate (.notify "textDocument/didChange")
          (didChange d'' (s.document.beginFlush ranges).1) :: .changeSent :: st,
        (e.onDocument doc fun _ => (s.document.beginFlush ranges).2).speak doc
          (didChange d'' (s.document.beginFlush ranges).1)) ∧
      LanguageClient.mirror ((e.onDocument doc fun _ => (s.document.beginFlush ranges).2).speak doc
          (didChange d'' (s.document.beginFlush ranges).1)).history = some d.text := by
  obtain ⟨rfl, rfl, _⟩ := session?_of_cores h.session hs
  obtain ⟨text, hm⟩ := h.tracks.opened ho
  have hmirror : LanguageClient.mirror ((e.onDocument 0 fun _ => (s.document.beginFlush ranges).2).speak
      0 (didChange d'' (s.document.beginFlush ranges).1)).history = some s.document.text := by
    rw [mirror_speak, mirror_didChange]
    change (LanguageClient.mirror e.history).bind _ = _
    rw [hm]
    exact h.tracks.followed_contentChanges hm ranges
  obtain ⟨hopened, _, _, _⟩ := beginFlush_same ranges s.document
  have hno : (frames (st, e)).countP Frame.opens = 0 := by
    have honce := h.once
    simp only [ho, if_true] at honce
    omega
  have hsession := cores_onDocument_zero (fun _ => (s.document.beginFlush ranges).2) h.session
  refine ⟨⟨hsession, h.slots, ?_, ?_, ?_, ?_⟩, hmirror⟩
  · intro f hf
    rcases List.mem_cons.mp hf with rfl | hf
    · rfl
    · rcases List.mem_cons.mp hf with rfl | hf
      · rfl
      · exact h.orderly f hf
  · rw [hopened]
    exact h.once
  · intro f hf text' htext
    rcases List.mem_cons.mp hf with rfl | hf
    · cases htext
    · rcases List.mem_cons.mp hf with rfl | hf
      · cases htext
      · have hopens : f.opens = false := by simpa using List.countP_eq_zero.mp hno f hf
        rw [Frame.sent?_of_opens hopens] at htext
        cases htext
  · rw [hmirror]
    exact Tracks.resync (d := { s.document with version := s.document.version + 1 }) ho

/-! ### Every move -/

theorem Sound.sends {doc : Nat} (h : Sound k d c) (hk : k ≤ 1) (hs : Sends doc c c') :
    c'.2.client.closed = true ∨ ∃ d', Sound k d' c' ∧ d'.closed = d.closed ∧
      d'.incremental = d.incremental := by
  cases hs with
  | idle text =>
    obtain ⟨_, hclosed, hi⟩ := retexted_same doc text d
    exact .inr ⟨_, h.retext doc text, hclosed, hi⟩
  | @told st e text s ranges hs _ ho =>
    obtain ⟨_, hclosed, hi⟩ := retexted_same doc text d
    obtain ⟨_, hclosed', hi', _⟩ := beginFlush_same ranges (retexted doc text d)
    exact .inr ⟨_, ((h.retext doc text).told _ hk hs ho ranges).1, hclosed'.trans hclosed,
      hi'.trans hi⟩
  | closed text d hclosed =>
    refine .inl ?_
    change (Engine.retext doc text _).client.closed = true
    rw [retext_client]
    exact hclosed

theorem Sound.moves (h : Sound k d c) (hk : k ≤ 1) (hm : Moves c c') (hn : Numbered c.2)
    (hg : Grows c.2 c'.2) : c'.2.client.closed = true ∨ ∃ d', Sound k d' c' ∧
      (d.closed = true → d'.closed = true) ∧ d'.incremental = d.incremental := by
  cases hm with
  | idle hi hst => exact .inr ⟨d, h.idle hi hst hg, id, rfl⟩
  | closed hc => exact .inl hc
  | handshake => exact .inr ⟨d, h.handshake hg, id, rfl⟩
  | agreed capabilities hst => exact .inr ⟨d, h.agreed hst capabilities, id, rfl⟩
  | preset doc text =>
    obtain ⟨d', hd', _, hc, hi⟩ := h.preset hk
    exact .inr ⟨d', hd', fun hd => hc.trans hd, hi⟩
  | opening _ hs => exact .inr ⟨d, h.opening hk hs, id, rfl⟩
  | opened doc sent => exact .inr (h.opened hk hn)
  | unscheduled hst => exact .inr ⟨d, (h.stays hst).cancelSlot _, id, rfl⟩
  | flush hst hc hs =>
    rcases ((h.stays hst).clears hc).sends hk hs with hc | ⟨d', hd', hc, hi⟩
    · exact .inl hc
    · exact .inr ⟨d', hd', fun hd => hc.trans hd, hi⟩

end Engine

end LanguageClient
