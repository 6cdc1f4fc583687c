import LanguageClient.Proofs.Document.InStep

/-!
What the messages of a document mean to say. The history tells which text a document had at every
moment (`wording`). Each message that carries text is meant to bring the server to the text that the
document has when the message is handed over, and does so if the server reads all that was handed over
before (`Faithful`). That does not depend on what comes of the messages: the connection may refuse
them, and tasks may be cancelled.

    texted t₁ ── handed didOpen ── texted t₂ ── texted t₃ ── handed didChange
                 mirror: t₁                                  mirror: t₃
-/

namespace LanguageClient

/-! ### The text of a document -/

/-- The text of a document after an event. -/
def Event.worded (doc : Nat) (text : List Char) : Event → List Char
  | .texted doc' text' => if doc' = doc then text' else text
  | _ => text

/-- The text of a document after all that has happened, of which the first text is given. -/
def wording (doc : Nat) (first : List Char) (history : List Event) : List Char :=
  history.foldl (Event.worded doc) first

/-- Messages that carry the text of a document. -/
def Message.carriesText (m : Json) : Bool :=
  isOf "textDocument/didOpen" m || isOf "textDocument/didChange" m

/-- With every message that carries text the server gets to the text that the document has then. -/
def Faithful (first : List Char) (history : List Event) : Prop :=
  ∀ before m after, history = before ++ .handed m :: after → Message.carriesText m = true →
    mirror (before ++ [.handed m]) = some (wording 0 first before)

section

variable {first : List Char} {history more : List Event}

theorem wording_append (doc : Nat) (first : List Char) (history more : List Event) :
    wording doc first (history ++ more) = wording doc (wording doc first history) more :=
  List.foldl_append

theorem Event.worded_of_mute {event : Event} (h : event.mute = true) (doc : Nat)
    (text : List Char) : event.worded doc text = text := by
  cases event with
  | texted doc' text' => cases h
  | _ => rfl

theorem wording_of_mute (doc : Nat) : ∀ {more : List Event} (text : List Char),
    (∀ event ∈ more, event.mute = true) → wording doc text more = text
  | [], _, _ => rfl
  | event :: rest, text, h => by
      have hevent := Event.worded_of_mute (h event (List.mem_cons_self ..)) doc text
      have hrest := wording_of_mute doc text fun event hmem => h event (List.mem_cons_of_mem _ hmem)
      rw [wording, List.foldl_cons, hevent]
      exact hrest

theorem Message.not_carriesText_of_mute {m : Json} (h : (Event.handed m).mute = true) :
    carriesText m = false := by
  simp only [Event.mute, Bool.and_eq_true, Bool.not_eq_true'] at h
  simp [carriesText, h.1, h.2]

theorem faithful_nil : Faithful first [] := by
  intro before m after h
  simp at h

/-- One more event has to be looked at only if it is a message that carries text. -/
theorem Faithful.concat {event : Event} (h : Faithful first history)
    (he : ∀ m, event = .handed m → Message.carriesText m = true →
      mirror (history ++ [event]) = some (wording 0 first history)) :
    Faithful first (history ++ [event]) := by
  intro before m after hsplit hm
  rcases List.eq_nil_or_concat after with rfl | ⟨init, last, rfl⟩
  · obtain ⟨rfl, hevent⟩ := List.append_inj' hsplit rfl
    obtain rfl := List.singleton_inj.mp hevent
    exact he m rfl hm
  · rw [List.concat_eq_append, ← List.cons_append, ← List.append_assoc] at hsplit
    obtain ⟨rfl, _⟩ := List.append_inj' hsplit rfl
    exact h before m init rfl hm

theorem Faithful.mutes : ∀ {more history : List Event}, Faithful first history →
    (∀ event ∈ more, event.mute = true) → Faithful first (history ++ more)
  | [], _, h, _ => by rwa [List.append_nil]
  | event :: rest, history, h, hm => by
      have hevent : Faithful first (history ++ [event]) := by
        refine h.concat ?_
        rintro m rfl hcarries
        rw [Message.not_carriesText_of_mute (hm _ (List.mem_cons_self ..))] at hcarries
        cases hcarries
      rw [← List.singleton_append, ← List.append_assoc]
      exact hevent.mutes fun event hmem => hm event (List.mem_cons_of_mem _ hmem)

end

namespace Engine

variable {c c' : Config} {st st' : List Frame} {e e' : Engine} {d d' : Document} {k : Nat}
  {first : List Char}

/-! ### The invariant -/

/-- The document is in step with what was handed over for it, and every message said what it was
    meant to say. -/
structure Phrases (first : List Char) (k : Nat) (d : Document) (c : Config) : Prop where
  sound : Sound k d c
  worded : d.text = wording 0 first c.2.history
  faithful : Faithful first c.2.history

/-- Nothing has happened that concerns the text. -/
theorem Phrases.mutes {k' : Nat} {more : List Event} (h : Phrases first k d c)
    (hs : Sound k' d' c') (ht : d'.text = d.text) (hh : c'.2.history = c.2.history ++ more)
    (hm : ∀ event ∈ more, event.mute = true) : Phrases first k' d' c' := by
  refine ⟨hs, ?_, ?_⟩
  · rw [ht, h.worded, hh, wording_append, wording_of_mute 0 _ hm]
  · rw [hh]
    exact h.faithful.mutes hm

theorem Phrases.same {k' : Nat} (h : Phrases first k d c) (hs : Sound k' d' c')
    (ht : d'.text = d.text) (hh : c'.2.history = c.2.history) : Phrases first k' d' c' :=
  h.mutes hs ht (by rw [hh, List.append_nil]) (by simp)

/-- The document is given a text, which is not told yet. -/
theorem Phrases.texted {doc : Nat} {text : List Char} (h : Phrases first k d c)
    (hs : Sound k d' c') (hh : c'.2.history = c.2.history ++ [.texted doc text])
    (ht : d'.text = if doc = 0 then text else d.text) : Phrases first k d' c' := by
  refine ⟨hs, ?_, ?_⟩
  · rw [hh, wording_append, ht, h.worded]
    rfl
  · rw [hh]
    refine h.faithful.concat ?_
    intro m hm
    cases hm

/-- A message is handed over that brings the server to the text of the document. -/
theorem Phrases.spoken {doc : Nat} {m : Json} {st' : List Frame} (h : Phrases first k d (st, e))
    (hs : Sound k d' (st', e')) (ht : d'.text = d.text)
    (hh : e'.history = (e.speak doc m).history)
    (hm : mirror (e.speak doc m).history = some d.text) : Phrases first k d' (st', e') := by
  have hhistory : (e.speak doc m).history = (e.history ++ [.told doc m]) ++ [.handed m] := rfl
  refine ⟨hs, ?_, ?_⟩
  · rw [hh, hhistory, wording_append, wording_append, ht, h.worded]
    rfl
  · rw [hh, hhistory]
    refine Faithful.concat (h.faithful.mutes (by simp [Event.mute])) ?_
    intro m' _ _
    rw [← hhistory, hm, wording_append, h.worded]
    rfl

/-! ### Every step -/

theorem replaced_text (text : List Char) (d : Document) : (d.replaced text).text = text := by
  unfold Document.replaced
  split
  · rfl
  · rename_i h
    exact (not_not.mp h).symm

theorem Phrases.retext (h : Phrases first k d (st, e)) (doc : Nat) (text : Option (List Char)) :
    Phrases first k (retexted doc text d) (st, e.retext doc text) := by
  have hs := h.sound.retext doc text
  cases text with
  | none =>
    cases doc with
    | zero => exact h
    | succ doc => exact h
  | some text =>
    cases doc with
    | zero => exact h.texted hs rfl (replaced_text text d)
    | succ doc => exact h.texted hs rfl rfl

theorem Phrases.clears {doc : Nat} (h : Phrases first k d c) (hc : Clears doc c c') :
    Phrases first k d c' := by
  refine h.same (h.sound.clears hc) rfl ?_
  cases hc with
  | kept => rfl
  | cancelled => exact (cancels_cancelSlot doc _).history
  | elapsed => rfl

theorem Phrases.sends {doc : Nat} (h : Phrases first k d c) (hk : k ≤ 1) (hs : Sends doc c c') :
    c'.2.client.closed = true ∨ ∃ d', Phrases first k d' c' := by
  cases hs with
  | idle text => exact .inr ⟨_, h.retext doc text⟩
  | @told st e text s ranges hs _ ho =>
    have hre := h.retext doc text
    obtain ⟨hsound, hmirror⟩ := hre.sound.told (s.document.beginFlush ranges).2 hk hs ho ranges
    exact .inr ⟨_, hre.spoken hsound (beginFlush_same ranges _).2.2.2 rfl hmirror⟩
  | @closed st e text d hclosed =>
    left
    change (e.retext doc text).client.closed = true
    rw [retext_client]
    exact hclosed

/-- Whoever is to open the document gives it a text, or leaves it the one it has. -/
theorem Phrases.preset {doc : Nat} {text : Option (List Char)}
    (h : Phrases first k d (.begin (.openDocument doc text) :: st, e))
    (hs : Sound k d' (.readyToOpen doc :: st, e.preset doc text)) :
    Phrases first k d' (.readyToOpen doc :: st, e.preset doc text) := by
  cases text with
  | none =>
    obtain rfl := only_document h.sound.session hs.session
    exact h.same hs rfl rfl
  | some text =>
    refine h.texted hs rfl ?_
    have hsession := h.sound.session
    by_cases hdoc : doc = 0
    · subst hdoc
      have hcore := cores_onDocument_zero (fun d => { d with text }) hsession
      obtain rfl := only_document hcore hs.session
      rfl
    · have hnoted : (e.note (.texted doc text)).sessions.map Session.core = [(d, .none)] := hsession
      have hsame : e.preset doc (some text) = e.note (.texted doc text) := by
        rw [Engine.preset, onDocument_of_ne _ hnoted hdoc]
      have hnew := hs.session
      simp only [hsame] at hnew
      obtain rfl := only_document hnoted hnew
      rw [if_neg hdoc]

/-- That the document is open does not change its text. -/
theorem noteOpened_text {doc : Nat} {sent : List Char}
    (h : e.sessions.map Session.core = [(d, .none)])
    (h' : (e.noteOpened doc sent).sessions.map Session.core = [(d', .none)]) : d'.text = d.text := by
  rcases noteOpened_cases h doc sent with ⟨_, heq⟩ | ⟨_, _, heq⟩ | ⟨_, _, heq⟩
  · rw [heq] at h'
    rw [only_document h h']
  · rw [heq] at h'
    rw [← only_document (cores_onDocument_zero _ h) h']
    exact (resync_opened sent d).2.2.2
  · rw [heq, (scheduleFlush_same 0 _).1] at h'
    rw [← only_document (cores_onDocument_zero _ (cores_onDocument_zero _ h)) h']
    exact (resync_opened sent d).2.2.2

theorem noteOpened_history (doc : Nat) (sent : List Char) (e : Engine) :
    (e.noteOpened doc sent).history = e.history := by
  unfold noteOpened
  simp only
  split
  · rfl
  · split
    · exact (scheduleFlush_same doc _).2.1
    · rfl

theorem Phrases.moves (h : Phrases first k d c) (hk : k ≤ 1) (hm : Moves c c')
    (hn : Numbered c.2) (hg : Grows c.2 c'.2) :
    c'.2.client.closed = true ∨ ∃ d', Phrases first k d' c' := by
  cases hm with
  | idle hi hst =>
    obtain ⟨more, hh, hmute⟩ := hi.history
    exact .inr ⟨d, h.mutes (h.sound.idle hi hst hg) rfl hh hmute⟩
  | closed hc => exact .inl hc
  | handshake => exact .inr ⟨d, h.same (h.sound.handshake hg) rfl (startHandshake_same _).2.2⟩
  | @agreed st st' e capabilities hst =>
    have hagreed : (e.agree capabilities).history = e.history ++ [.agreed capabilities] := rfl
    refine .inr ⟨d, h.sound.agreed hst capabilities, ?_, ?_⟩
    · change d.text = wording 0 first ((e.agree capabilities).history ++ [.handed initialized])
      rw [hagreed, wording_append, wording_append, h.worded]
      rfl
    · change Faithful first ((e.agree capabilities).history ++ [.handed initialized])
      rw [hagreed]
      refine Faithful.mutes (h.faithful.concat ?_) (by simp; rfl)
      intro m hm
      cases hm
  | preset doc text =>
    obtain ⟨d', hs, _, _⟩ := h.sound.preset hk
    exact .inr ⟨d', h.preset hs⟩
  | @opening st e doc s v _ hs =>
    obtain ⟨rfl, rfl, _⟩ := session?_of_cores h.sound.session hs
    refine .inr ⟨s.document, h.spoken (h.sound.opening hk hs) rfl rfl ?_⟩
    rw [mirror_speak, mirror_didOpen]
  | @opened st e doc sent =>
    obtain ⟨d', hs, _⟩ := h.sound.opened hk hn
    exact .inr ⟨d', h.same hs (noteOpened_text h.sound.session hs.session) (noteOpened_history ..)⟩
  | unscheduled hst =>
    exact .inr ⟨d, h.same ((h.sound.stays hst).cancelSlot _) rfl (cancels_cancelSlot _ _).history⟩
  | flush hst hc hs =>
    have hstays : Phrases first k d _ := h.same (h.sound.stays hst) rfl rfl
    exact (hstays.clears hc).sends hk hs

theorem Phrases.path (h : Phrases first k d c) (hk : k ≤ 1) (hc : Correlated c)
    (hp : Path c c') : c'.2.client.closed = true ∨ ∃ d', Phrases first k d' c' := by
  induction hp with
  | refl => exact .inr ⟨d, h⟩
  | tail hp hs ih =>
    rcases ih with hclosed | ⟨d', h'⟩
    · exact .inl (hs.lasts.closed hclosed)
    · have hc := hc.path hp
      have horderly := fun f hf => h'.sound.orderly f (List.mem_append_left _ hf)
      exact h'.moves hk (hs.moves hc horderly h'.sound.hooks) hc.numbered (hs.grows hc.numbered)

/-! ### Every action -/

/-- What may happen to the only document: nobody speaks for it, and its batches are careful. Its
    messages may be refused, and its tasks may be cancelled. -/
def Action.Befits (e : Engine) : Action → Prop
  | .cancel _ | .failSends _ => True
  | a => a.Fits e

/-- Every action befits the state in which it is taken. -/
def Befitting : Engine → List Action → Prop
  | _, [] => True
  | e, a :: rest => a.Befits e ∧ Befitting (e.act a) rest

instance (e : Engine) : ∀ a : Action, Decidable (a.Befits e)
  | .cancel _ | .failSends _ => .isTrue trivial
  | .begin op => inferInstanceAs (Decidable ((Action.begin op).Fits e))
  | .scheduleChange doc text changes =>
    inferInstanceAs (Decidable ((Action.scheduleChange doc text changes).Fits e))
  | .viewChanged doc text changes =>
    inferInstanceAs (Decidable ((Action.viewChanged doc text changes).Fits e))
  | .addSession _ => .isFalse id
  | .run | .ring _ | .start | .arrive _ | .block | .unblock | .linger | .letGo | .closeChannel
  | .attachSink .. | .detach _ | .editView .. | .closeSession _ | .tell .. => .isTrue trivial

instance : ∀ (actions : List Action) (e : Engine), Decidable (Befitting e actions)
  | [], _ => .isTrue trivial
  | a :: rest, e =>
    have := instDecidableBefitting rest (e.act a)
    inferInstanceAs (Decidable (a.Befits e ∧ Befitting (e.act a) rest))

/-- Either the connection is closed, or every message said what it was meant to say. -/
def Phrased (first : List Char) (k : Nat) (e : Engine) : Prop :=
  e.client.closed = true ∨ ∃ d, Phrases first k d ([], e)

theorem Phrases.runTask {m : Nat} {t : Task} (h : Phrases first k d ([], e)) (hk : k ≤ 1)
    (hc : Correlated ([], e)) (ht : e.tasks.get? m = some t) (o : Outcome) :
    Phrased first k (e.runTask m t o) := by
  have hn := hc.numbered
  have hpick : Correlated (t.frames, e.pick m) := hc.move (hn.pick ht) (frames_pick hn ht)
  have hrest := rests_runTask m t o e
  have hpath := path_reached (leads_unwind t.frames
    (if t.cancelRequested then .cancelled else o) (e.pick m))
  have hpicked : Phrases first k d (t.frames, e.pick m) :=
    h.same (h.sound.move (frames_pick hn ht)) rfl rfl
  rcases hpicked.path hk hpick hpath with hclosed | ⟨d', h'⟩
  · exact .inl (hrest.lasts.closed hclosed)
  · have hrun := (running_pick m e).grows (Path.grows hpath hpick.numbered)
    have hs := h'.sound.rests (hpick.path hpath).numbered hrun hrest
    exact .inr ⟨d', h'.same hs rfl hrest.history⟩

theorem Phrases.runNext (h : Phrases first k d ([], e)) (hk : k ≤ 1) (hc : Correlated ([], e)) :
    Phrased first k e.runNext := by
  obtain ⟨e₁, ha, hrun⟩ := runNext_cases e
  have hs := h.sound.idle (idles_tallies ha) (.refl []) (.of_tallies ha)
  have h₁ : Phrases first k d ([], e₁) := h.same hs rfl ha.history
  have hc₁ : Correlated ([], e₁) := hc.calm (calm_tallies ha) (.of_tallies ha) rfl
  rcases hrun with hp | ⟨n, t, ht, heq⟩
  · exact h₁.path hk hc₁ hp
  · rw [heq]
    exact h₁.runTask hk hc₁ ht _

theorem edited_text (text : List Char) (changes : Option (List Change)) (d : Document) :
    (d.edited text changes).2.text = text := by
  unfold Document.edited
  simp only
  split
  · unfold Document.noteBatch
    split
    · rfl
    · split
      · rfl
      · split <;> rfl
  · rfl

theorem Phrases.scheduleChange {text : List Char} {changes : Option (List Change)}
    (h : Phrases first k d ([], e)) (hn : Numbered e) (hc : CarefulEdit e text changes) :
    Phrases first k (d.edited text changes).2 ([], (e.scheduleChange 0 text changes).2) := by
  obtain ⟨s, hs, rfl⟩ := session?_zero h.sound.session
  obtain ⟨e₁, ha, heq⟩ := scheduleChange_eq 0 text changes e
  have hsound := h.sound.scheduleChange hn fun batch hbatch => hc batch hbatch s hs
  have hhistory : (e.scheduleChange 0 text changes).2.history
      = e.history ++ [.texted 0 text] := by
    rw [heq, (scheduleFlush_same 0 e₁).2.1, ha.history]
    rfl
  exact h.texted hsound hhistory (by rw [if_pos rfl, edited_text])

theorem Phrases.closeSession (h : Phrases first k d ([], e)) (hk : k ≤ 1)
    (hc : Correlated ([], e)) (doc : Nat) : Phrased first k (e.closeSession doc) := by
  rcases closeSession_cases doc e with ⟨heq, _⟩ | ⟨s, e₁, hs, _, hcancels, heq⟩
  · rw [heq]
    exact .inr ⟨d, h⟩
  · have hhistory := hcancels.history.trans (cancels_cancelSlot doc _).history
    have hclosed : Phrases first k { d with closed := true } ([], e₁) :=
      h.same (h.sound.closing hs hcancels) rfl hhistory
    rw [heq]
    exact hclosed.path hk (hc.closing hcancels) (path_detach _)

theorem Phrases.act {a : Action} (h : Phrases first k d ([], e)) (hc : Correlated ([], e))
    (hk : k + (if a.opens then 1 else 0) ≤ 1) (ha : a.Befits e) :
    Phrased first (k + if a.opens then 1 else 0) (e.act a) := by
  have hk' : k ≤ 1 := by omega
  have hinner {a : Action} (hi : a.inner = true) : Phrased first k (e.act a) :=
    h.path hk' hc (path_act hi)
  cases a with
  | run => exact h.runNext hk' hc
  | «begin» op =>
    have hop : (Action.begin op).opens = (Frame.begin op).opens := by cases op <;> rfl
    rw [hop]
    exact .inr ⟨d, h.same (h.sound.spawn hc.numbered ha) rfl rfl⟩
  | scheduleChange doc text changes =>
    obtain ⟨rfl, hcareful⟩ := ha
    exact .inr ⟨_, h.scheduleChange hc.numbered hcareful⟩
  | viewChanged doc text changes =>
    obtain ⟨rfl, hcareful⟩ := ha
    exact (h.scheduleChange hc.numbered hcareful).path hk'
      (hc.act (.scheduleChange 0 text changes)) (path_viewChanged 0 text changes)
  | closeSession doc => exact h.closeSession hk' hc doc
  | cancel r =>
    have hcancel := cancels_cancel r e
    exact .inr ⟨d, h.same (h.sound.cancels hcancel) rfl hcancel.history⟩
  | failSends f =>
    have hi : Idles e (e.onChannel fun c => { c with sendFailure := f.map (·.val) }) :=
      idles_onChannel _ e
    have hs := h.sound.idle hi (.refl []) (.of_tasks rfl (Nat.le_refl _) rfl)
    exact .inr ⟨d, h.same hs rfl rfl⟩
  | addSession s => exact ha.elim
  | _ => exact hinner rfl

theorem Phrased.after : ∀ (actions : List Action) {e : Engine} {k : Nat}, Phrased first k e →
    Correlated ([], e) → k + actions.countP Action.opens ≤ 1 → Befitting e actions →
    Phrased first (k + actions.countP Action.opens) (e.after actions)
  | [], _, _, h, _, _, _ => h
  | a :: rest, e, k, h, hc, hk, hf => by
      have hcount : k + (a :: rest).countP Action.opens
          = k + (if a.opens then 1 else 0) + rest.countP Action.opens := by
        rw [List.countP_cons]
        omega
      rw [hcount] at hk ⊢
      refine Phrased.after rest ?_ (hc.act a) hk hf.2
      rcases h with hclosed | ⟨d, hd⟩
      · exact .inl ((lasts_act a e).closed hclosed)
      · exact hd.act hc (by omega) hf.1

theorem Begins.phrased {s : Session} (h : Begins e) (hs : e.session? 0 = some s) :
    Phrased s.document.text 0 e := by
  rcases h.upheld with hclosed | ⟨d, hd⟩
  · exact .inl hclosed
  · obtain ⟨_, rfl, _⟩ := session?_of_cores hd.sound.session hs
    obtain ⟨options, script, s', _, rfl⟩ := h
    have hhistory : ((create options script).addSession s').history
        = [] ++ [.registered (.attach (.document 0))] := rfl
    refine .inr ⟨_, hd.sound, ?_, ?_⟩
    · simp only [hhistory]
      rfl
    · simp only [hhistory]
      exact faithful_nil.mutes (by simp [Event.mute])

end Engine

end LanguageClient
