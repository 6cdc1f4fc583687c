import Mathlib.Data.List.Induction
import LanguageClient.Proofs.Client.Consent
import LanguageClient.Proofs.Document.Generations
import LanguageClient.Proofs.Document.Refusals

/-!
What the server knows of a document when it is asked about it. A question is put on the stack until the
changes of its document have been sent, so at that moment the server has the document's text; and
every later message that carries text brings it to the text that the document has by then. When the
question is asked, the server has a text that the document had after the question was begun (`Heeds`).

    posed ── texted t ── handed didChange ── texted t' ── asked
             the document has t    the server has t
-/

namespace LanguageClient

/-- The method of the request by which a question is asked. -/
def Feature.method? : Feature → Option String
  | .hover => some "textDocument/hover"
  | .completion => some "textDocument/completion"
  | .signatureHelp => some "textDocument/signatureHelp"
  | _ => none

/-- Since the question was begun there was a moment at which the server had the text of the document. -/
def Heeds (first : List Char) (feature : Feature) (generation : Nat) (history : List Event) : Prop :=
  ∃ before after, history = before ++ after ∧ .posed 0 feature generation ∈ before ∧
    mirror before = some (wording 0 first before)

section

variable {first : List Char} {feature : Feature} {generation : Nat} {history more : List Event}

theorem Heeds.append (h : Heeds first feature generation history) (more : List Event) :
    Heeds first feature generation (history ++ more) := by
  obtain ⟨before, after, rfl, hrest⟩ := h
  exact ⟨before, after ++ more, by rw [List.append_assoc], hrest⟩

theorem Faithful.before (h : Faithful first (history ++ more)) : Faithful first history := by
  intro before m after hsplit
  refine h before m (after ++ more) ?_
  rw [hsplit, List.append_assoc]
  rfl

/-- Once the server has had the text of the document, it has a text that the document had then or later. -/
theorem Faithful.follows (h : mirror history = some (wording 0 first history)) (more : List Event)
    (hf : Faithful first (history ++ more)) : ∃ before after, more = before ++ after ∧
      mirror (history ++ more) = some (wording 0 first (history ++ before)) := by
  induction more using List.reverseRecOn with
  | nil => exact ⟨[], [], rfl, by simpa using h⟩
  | append_singleton more event ih =>
    have hinit : Faithful first ((history ++ more) ++ [event]) := by rwa [List.append_assoc]
    obtain ⟨before, after, hmore, hmirror⟩ := ih hinit.before
    by_cases hcarries : ∃ m, event = .handed m ∧ Message.carriesText m = true
    · obtain ⟨m, rfl, hm⟩ := hcarries
      refine ⟨more, [.handed m], rfl, ?_⟩
      rw [← List.append_assoc]
      exact hf (history ++ more) m [] (List.append_assoc ..).symm hm
    · refine ⟨before, after ++ [event], by rw [hmore, List.append_assoc], ?_⟩
      rw [← List.append_assoc, mirror_concat, ← hmirror]
      cases event with
      | handed m =>
        have hm : Message.carriesText m = false := by
          rw [← Bool.not_eq_true]
          exact fun hm => hcarries ⟨m, rfl, hm⟩
        exact serverReads_of_not_carriesText hm _
      | _ => rfl

/-- A question that is heeded and was begun after some moment: the server has a text that the document
    had since. -/
theorem Heeds.since (h : Heeds first feature generation (history ++ more))
    (hf : Faithful first (history ++ more)) (hnew : .posed 0 feature generation ∉ history) :
    ∃ earlier since later,
      history ++ more = history ++ earlier ++ .posed 0 feature generation :: (since ++ later) ∧
      mirror (history ++ more)
        = some (wording 0 first (history ++ earlier ++ .posed 0 feature generation :: since)) := by
  obtain ⟨before, after, hsplit, hposed, hmirror⟩ := h
  rw [hsplit] at hf ⊢
  obtain ⟨read, unread, rfl, htext⟩ := Faithful.follows hmirror after hf
  obtain ⟨first', since, rfl⟩ := List.append_of_mem hposed
  rw [List.append_assoc, List.cons_append] at hsplit
  rcases split_append hsplit with ⟨mid, hmid, _⟩ | ⟨earlier, rfl, _⟩
  · exact absurd (by rw [hmid]; simp) hnew
  · refine ⟨earlier, since ++ read, unread, by simp, ?_⟩
    rw [htext]
    simp

end

namespace Engine

variable {c c' : Config} {st st' : List Frame} {e e' : Engine} {d d' : Document} {k : Nat}
  {n : Option Nat} {first : List Char} {past : List Event}

/-! ### Questions since a moment -/

/-- Of the questions that were begun since the past: those that wait to be asked are heeded, and those
    that have been asked were when that happened. -/
structure Heeding (first : List Char) (past : List Event) (c : Config) : Prop where
  waiting : ∀ f ∈ frames c, ∀ feature generation, f.question? = some (0, feature, generation) →
    .posed 0 feature generation ∉ past → Heeds first feature generation c.2.history
  asked : ∀ before feature generation after,
    c.2.history = before ++ .asked 0 feature generation :: after → past.length ≤ before.length →
    .posed 0 feature generation ∉ past → Heeds first feature generation before

/-- What is asked has waited for that, and what waits has waited before or is heeded. -/
theorem Heeding.next {more : List Event} (h : Heeding first past c)
    (hh : c'.2.history = c.2.history ++ more)
    (hframes : ∀ f ∈ frames c', ∀ feature generation, f.question? = some (0, feature, generation) →
      f ∈ frames c ∨ Heeds first feature generation c'.2.history)
    (hasked : ∀ feature generation, .asked 0 feature generation ∈ more →
      more = [.asked 0 feature generation] ∧
        ∃ f ∈ frames c, f.question? = some (0, feature, generation)) :
    Heeding first past c' := by
  constructor
  · intro f hf feature generation hq hnew
    rcases hframes f hf feature generation hq with hf | hheeds
    · rw [hh]
      exact (h.waiting f hf feature generation hq hnew).append more
    · exact hheeds
  · intro before feature generation after hsplit hlen hnew
    rw [hh] at hsplit
    rcases split_append hsplit with ⟨mid, hmid, _⟩ | ⟨mid, rfl, hmore⟩
    · exact h.asked before feature generation mid hmid hlen hnew
    · obtain ⟨hone, f, hf, hq⟩ := hasked feature generation (by rw [hmore]; simp)
      obtain rfl : mid = [] := by
        rw [hone] at hmore
        cases mid with
        | nil => rfl
        | cons event mid => simp at hmore
      rw [List.append_nil]
      exact h.waiting f hf feature generation hq hnew

/-- Nothing is asked, and nothing new waits. -/
theorem Heeding.quiet {more : List Event} (h : Heeding first past c)
    (hh : c'.2.history = c.2.history ++ more) (hm : ∀ event ∈ more, event.probes = false)
    (hframes : ∀ f ∈ frames c', f.probes = true → f ∈ frames c) : Heeding first past c' := by
  refine h.next hh ?_ ?_
  · intro f hf feature generation hq
    exact .inl (hframes f hf (Frame.probes_of_question hq))
  · intro feature generation hmem
    cases hm _ hmem

theorem Heeding.aloof (h : Heeding first past (st, e)) (ha : Aloof e e') (hg : Grows e e')
    (hst : Unprobed st st') : Heeding first past (st', e') := by
  obtain ⟨more, hh, hm⟩ := ha.history
  exact h.quiet hh hm fun f hf hp => mem_frames_probes hg hst hf hp

/-- Every step is looked at but the one by which a question is put on the stack. -/
theorem Heeding.step (h : Heeding first past c) (hs : Step c c') (hn : Numbered c.2)
    (hlate : ∀ f feature generation members, f.question? = some (0, feature, generation) →
      .posed 0 feature generation ∈ c.2.history → c.2.client.capabilities = .obj members →
      Refreshes 0 (f :: c.1, c.2) c' → Heeds first feature generation c'.2.history) :
    Heeding first past c' := by
  have hg := hs.grows hn
  cases hs.inquiry with
  | aloof ha hst => exact h.aloof ha hg hst
  | @pose st e doc s feature hsession =>
    have hheld : (e.beginGeneration doc feature).2.held = e.held := rfl
    refine h.next (history_beginGeneration feature hsession) ?_ (by simp)
    intro f hf _ _ _
    exact .inl (by rwa [frames, hheld] at hf)
  | @late st e f doc generation feature members c' hf hposed _ hc hr =>
    obtain ⟨more, hh, hm⟩ := (aloof_refreshes hr).history
    refine h.next hh ?_ ?_
    · intro g hg' feature' generation' hq
      have hmem := mem_frames_probes hg (unprobed_refreshes hr) hg' (Frame.probes_of_question hq)
      rcases List.mem_cons.mp hmem with rfl | hmem
      · obtain ⟨rfl, rfl, rfl⟩ : doc = 0 ∧ feature = feature' ∧ generation = generation' := by
          simpa using hf.symm.trans hq
        exact .inr (hlate g feature generation members hf hposed hc hr)
      · exact .inl hmem
    · intro _ _ hmem
      cases hm _ hmem
  | @asks st st' e e' f f' q hf hf' hst ha =>
    obtain ⟨more, hh, hm⟩ := ha.history
    refine h.next hh ?_ ?_
    · intro g hg' feature generation hq
      have hmem : g ∈ frames (f' :: st, e) :=
        mem_frames_probes hg hst hg' (Frame.probes_of_question hq)
      rcases List.mem_cons.mp hmem with rfl | hmem
      · rw [question?_of_answers hf'] at hq
        cases hq
      · exact .inl (List.mem_cons_of_mem _ hmem)
    · intro _ _ hmem
      cases hm _ hmem
  | @remark st e event hr =>
    refine h.next rfl (fun f hf _ _ _ => .inl hf) ?_
    intro feature generation hmem
    obtain rfl := List.mem_singleton.mp hmem
    cases hr with
    | asked hf => exact ⟨rfl, _, List.mem_cons_self .., hf⟩
  | @shown st e doc superseding presented _ =>
    refine h.next rfl (fun f hf _ _ _ => .inl hf) ?_
    simp

/-! ### How far a document has come -/

/-- The connection is closed, or the document has come so far. -/
def Came (p : Document → Prop) (doc : Nat) (c : Config) : Prop :=
  c.2.client.closed = true ∨ ∃ s, c.2.session? doc = some s ∧ p s.document

/-- A document comes no less far by being opened or closed. -/
def Advances (p : Document → Prop) : Prop :=
  ∀ d d' : Document, (d.opened = true → d'.opened = true) → (d.closed = true → d'.closed = true) →
    p d → p d'

theorem advances_opened : Advances fun d => d.opened = true := fun _ _ ho _ h => ho h

theorem advances_closed : Advances fun d => d.closed = true := fun _ _ _ hc h => hc h

section

variable {p : Document → Prop} {doc : Nat}

theorem Came.silent {st₁ : List Frame} (hp : Advances p) (h : Came p doc (st, e))
    (hs : Silent e e') : Came p doc (st₁, e') := by
  refine h.imp hs.closed ?_
  rintro ⟨s, hsession, hd⟩
  have hrel := hs.sessions doc
  rw [hsession] at hrel
  cases hs' : e'.session? doc with
  | none =>
    rw [hs'] at hrel
    cases hrel
  | some s' =>
    rw [hs'] at hrel
    cases hrel with
    | some halike => exact ⟨s', rfl, hp _ _ (fun ho => halike.opened.trans ho) halike.closed hd⟩

theorem Came.onDocument {st₁ : List Frame} {doc' : Nat} {f : Document → Document} (hp : Advances p)
    (h : Came p doc (st, e)) (hf : ∀ s, e.session? doc' = some s →
      (s.document.opened = true → (f s.document).opened = true) ∧
      (s.document.closed = true → (f s.document).closed = true)) :
    Came p doc (st₁, e.onDocument doc' f) := by
  refine h.imp id ?_
  rintro ⟨s, hsession, hd⟩
  change ∃ s', (e.onDocument doc' f).session? doc = some s' ∧ _
  rw [session?_onDocument]
  split
  · rename_i hdoc
    subst hdoc
    obtain ⟨ho, hc⟩ := hf s hsession
    exact ⟨_, by rw [hsession]; rfl, hp _ _ ho hc hd⟩
  · exact ⟨s, hsession, hd⟩

theorem stable_came (hp : Advances p) (doc : Nat) : Stable (Came p doc) where
  turn {c c'} h ht _ := by
    cases ht with
    | silent hs => exact h.silent hp hs
    | @handshake st e =>
      rcases startHandshake_cases e with ⟨_, heq⟩ | ⟨_, ha⟩
      · rw [heq]
        exact h
      · have hs : Came p doc (st, e.shaking) := h
        exact hs.silent hp (silent_tallies ha.toTallies)
    | preset doc' text => exact h.silent hp (silent_preset doc' text _)
    | @opened st e doc' sent =>
      have hopened : Came p doc
          (st, e.onDocument doc' fun d => { d with opened := true }.resync sent) := by
        refine h.onDocument hp fun s _ => ?_
        have hd := Document.alike_resync sent { s.document with opened := true }
        exact ⟨fun _ => hd.opened, hd.closed⟩
      exact hopened.silent hp (silent_noteOpened doc' sent e)
    | @told st st₁ e e₁ doc' s ranges f hs _ hsession =>
      have h₁ : Came p doc (st, e₁) := h.silent hp hs
      have h₂ : Came p doc (st, e₁.onDocument doc' fun _ => (s.document.beginFlush ranges).2) := by
        refine h₁.onDocument hp fun s' hs' => ?_
        obtain rfl : s = s' := Option.some.inj (hsession.symm.trans hs')
        obtain ⟨hopened, hclosed, _⟩ := beginFlush_same ranges s.document
        exact ⟨fun ho => hopened.trans ho, fun hc => hclosed.trans hc⟩
      exact h₂
    | closed hclosed hclient => exact .inl (hclient ▸ hclosed)
    | _ => exact h
  move h _ := h
  ends {e m o} h _ := by
    change (e.settle (.task m) o).client.closed = true ∨
      ∃ s, (e.settle (.task m) o).session? doc = some s ∧ _
    rw [settle_client, session?, settle_sessions]
    exact h

theorem Came.act {a : Action} (hp : Advances p) (h : Came p doc ([], e)) (hc : Correlated ([], e))
    (hs : Shaken none e) (ha : a.Fits e) : Came p doc ([], e.act a) := by
  cases hb : a.brings with
  | false => exact (stable_came hp doc).act h hc hs hb
  | true =>
    cases a with
    | «begin» op => exact h
    | addSession s => exact ha.elim
    | _ => cases hb

end

/-- When a task rests, no question has been put on the stack by that. -/
theorem Rests.probes {m : Nat} {run : Run} (h : Rests m run e) (hn : Numbered (reached run).2)
    (hr : Running m (reached run).2) {f : Frame} (hf : f ∈ frames ([], e)) (hp : f.probes = true) :
    f ∈ frames (reached run) := by
  have hkeep {st : List Frame} {e e' : Engine} {waiting : Option Ref} (hn : Numbered e)
      (hr : Running m e) (hg : Grows (e.keep m st waiting) e') (hf : f ∈ frames ([], e')) :
      f ∈ frames (st, e) :=
    (held_keep hn hr st waiting).mem_iff.mp (mem_frames_probes hg (.refl []) hf hp)
  cases h with
  | ended o =>
    rw [frames, held, settle_tasks] at hf
    exact (held_erase hn hr).mem_iff.mp hf
  | waits ha hc => exact hkeep hn hr ((Grows.of_tallies ha.toTallies).trans (.of_cancels hc)) hf
  | pauses ha => exact hkeep hn hr (.of_tallies ha) hf

theorem Heeding.rests {m : Nat} {run : Run} (h : Heeding first past (reached run))
    (hn : Numbered (reached run).2) (hr : Running m (reached run).2) (hrest : Rests m run e) :
    Heeding first past ([], e) :=
  h.quiet (hrest.history.trans (List.append_nil _).symm) (by simp)
    fun _ hf hp => hrest.probes hn hr hf hp

/-! ### Steps -/

theorem sends_slots {doc : Nat} (h : Sends doc c c') : c'.2.slots = c.2.slots := by
  cases h with
  | idle text => cases text <;> rfl
  | @told st e text => cases text <;> rfl
  | @closed st e text => cases text <;> rfl

/-- When the changes of a document have been sent, nothing of it waits. -/
theorem refreshes_slots {doc : Nat} (h : Refreshes doc c c') : c'.2.slots.get? doc = none := by
  have hnone (e : Engine) : (e.cancelSlot doc).2.slots.get? doc = none := by
    rw [(cancels_cancelSlot doc e).slots]
    simp [Table.get?_erase]
  cases h with
  | idle => exact hnone _
  | sends _ hs =>
    rw [sends_slots hs]
    exact hnone _

theorem refreshes_capabilities {doc : Nat} (h : Refreshes doc c c') :
    c'.2.client.capabilities = c.2.client.capabilities := by
  have hslot (e : Engine) := congrArg Client.capabilities (client_cancelSlot doc e)
  have hretext (text : Option (List Char)) (e : Engine) :=
    congrArg Client.capabilities (retext_client doc text e)
  cases h with
  | idle => exact hslot _
  | sends _ hs =>
    cases hs with
    | idle text => exact (hretext text _).trans (hslot _)
    | told => exact (hretext _ _).trans (hslot _)
    | closed text => exact (hretext text _).trans (hslot _)

/-- A question is put on the stack when the server has the text of its document. -/
theorem heeds_refreshes {f : Frame} {feature : Feature} {generation : Nat} {members : Members}
    (hk : Kept k n d c') (hp : Phrases first k d c') (hcon : Consents c') (ho : d.opened = true)
    (hc : d.closed = false) (hposed : .posed 0 feature generation ∈ e.history)
    (hcapabilities : e.client.capabilities = .obj members) (hr : Refreshes 0 (f :: st, e) c') :
    Heeds first feature generation c'.2.history := by
  have hsame : c'.2.client.capabilities = .obj members :=
    (refreshes_capabilities hr).trans hcapabilities
  have hd : Delivers n d c' := by
    refine hk.delivers.resolve_left ?_
    rintro (hclosed | ⟨_, capabilities, hagreed, hobject⟩)
    · rw [hc] at hclosed
      cases hclosed
    · have heq := hcon.agreed_eq hagreed (by rw [hsame]; simp)
      exact hobject members (heq.trans hsame)
  have hmirror : mirror c'.2.history = some d.text := by
    refine (hd.told ho).resolve_right ?_
    rintro ⟨r, hr'⟩
    rw [refreshes_slots hr] at hr'
    cases hr'
  obtain ⟨more, hh, _⟩ := (aloof_refreshes hr).history
  refine ⟨c'.2.history, [], (List.append_nil _).symm, ?_, hmirror.trans (congrArg some hp.worded)⟩
  rw [hh]
  exact List.mem_append_left _ hposed

/-- Unless the document is closed, the questions since the past are heeded. -/
def Watches (first : List Char) (past : List Event) (c : Config) : Prop :=
  Came (fun d => d.closed = true) 0 c ∨ Heeding first past c

theorem Watches.path (h : Watches first past c) (hk : k ≤ 1) (hkept : Kept k n d c)
    (hp : Phrases first k d c) (hcon : Consented c) (ho : Came (fun d => d.opened = true) 0 c)
    (hc : Correlated c) (hpath : Path c c') : Watches first past c' := by
  induction hpath with
  | refl => exact h
  | @tail c₁ c₂ hpath hs ih =>
    have hc₁ := hc.path hpath
    have hpath₂ := hpath.tail hs
    rcases ih with hclosed | h₁
    · exact .inl ((stable_came advances_closed 0).path hclosed hc₁ (.single hs))
    rcases hkept.path hk hc hpath₂ with hcl | ⟨d₂, hkept₂, _⟩
    · exact .inl (.inl hcl)
    rcases hp.path hk hc hpath₂ with hcl | ⟨d₂', hp₂⟩
    · exact .inl (.inl hcl)
    rcases stable_consented.path hcon hc hpath₂ with hcl | hcon₂
    · exact .inl (.inl hcl)
    rcases (stable_came advances_opened 0).path ho hc hpath₂ with hcl | ⟨s, hsession, hopened⟩
    · exact .inl (.inl hcl)
    obtain rfl := only_document hkept₂.sound.session hp₂.sound.session
    obtain ⟨_, rfl, _⟩ := session?_of_cores hkept₂.sound.session hsession
    cases hclosed : s.document.closed with
    | true => exact .inl (.inr ⟨s, hsession, hclosed⟩)
    | false =>
      refine .inr (h₁.step hs hc₁.numbered ?_)
      intro f feature generation members _ hposed hobject hr
      exact heeds_refreshes hkept₂ hp₂ hcon₂ hopened hclosed hposed hobject hr

/-! ### Whole runs -/

/-- All that is known of the only document of a client that is used in an orderly way. -/
structure Served (first : List Char) (k : Nat) (e : Engine) : Prop where
  upheld : Upheld k e
  phrased : Phrased first k e
  consented : Consented ([], e)
  correlated : Correlated ([], e)
  shaken : Shaken none e

theorem Served.act {a : Action} (h : Served first k e) (hk : k + (if a.opens then 1 else 0) ≤ 1)
    (ha : a.Fits e) (hs : a.shakes = false) :
    Served first (k + if a.opens then 1 else 0) (e.act a) where
  upheld := h.upheld.elim (fun hcl => .inl ((lasts_act a e).closed hcl))
    fun ⟨_, hkept⟩ => hkept.act h.correlated hk ha
  phrased := by
    have hbefits : a.Befits e := by
      cases a with
      | cancel r => exact ha.elim
      | failSends f => exact ha.elim
      | _ => exact ha
    exact h.phrased.elim (fun hcl => .inl ((lasts_act a e).closed hcl))
      fun ⟨_, hp⟩ => hp.act h.correlated hk hbefits
  consented := h.consented.act h.correlated h.shaken hs
  correlated := h.correlated.act a
  shaken := h.shaken.act h.correlated.numbered a

/-- The work in the slot only begins its delay. -/
theorem Heeding.delays {m : Nat} {delay : Int}
    (h : Heeding first past ([.begin (.debounced 0 delay (.flush 0))], e.pick m))
    (hg : Grows (e.pick m)
      (reached (unwind [.begin (.debounced 0 delay (.flush 0))] (.value .nothing) (e.pick m))).2) :
    Heeding first past
      (reached (unwind [.begin (.debounced 0 delay (.flush 0))] (.value .nothing) (e.pick m))) := by
  have hst : Unprobed [.begin (.debounced 0 delay (.flush 0))] [.delayOver 0 (.flush 0)] :=
    (unprobed_tail _ _).cons rfl
  rcases unwind_debounced delay (e.pick m) with heq | ⟨e₁, nap, heq, _, _, hh, _⟩
  · rw [heq] at hg ⊢
    exact h.quiet (List.append_nil _).symm (by simp)
      fun f hf hp => mem_frames_probes hg hst hf hp
  · rw [heq] at hg ⊢
    exact h.quiet (hh.trans (List.append_nil _).symm) (by simp)
      fun f hf hp => mem_frames_probes hg hst hf hp

/-- The task has left the slot and sent the changes, and goes on. -/
theorem Watches.departed {c₀ c₁ : Config} (h : Heeding first past c) (hclears : Clears 0 c c₀)
    (hsends : Sends 0 c₀ c₁) (hk : k ≤ 1) (hkept : Kept k n d' c₁) (hp : Phrases first k d c)
    (hcon : Consented c) (ho : Came (fun d => d.opened = true) 0 c) (hc : Correlated c)
    (hpath : Path c₁ c') : Watches first past c' := by
  have hstep := Step.flush hclears hsends
  have h₁ : Heeding first past c₁ := h.aloof ((aloof_clears hclears).trans (aloof_sends hsends))
    (hstep.grows hc.numbered) ((unprobed_clears hclears).trans (unprobed_sends hsends))
  rcases (hp.clears hclears).sends hk hsends with hcl | ⟨d'', hp₁⟩
  · exact .inl (.inl (hpath.lasts.closed hcl))
  · obtain rfl := only_document hkept.sound.session hp₁.sound.session
    exact Watches.path (.inr h₁) hk hkept hp₁ (stable_consented.path hcon hc (.single hstep))
      ((stable_came advances_opened 0).path ho hc (.single hstep)) (hc.step hstep) hpath

theorem Watches.runTask {m : Nat} {t : Task} (h : Watches first past ([], e)) (hk : k ≤ 1)
    (hkept : Kept k none d ([], e)) (hp : Phrases first k d ([], e)) (hcon : Consented ([], e))
    (ho : Came (fun d => d.opened = true) 0 ([], e)) (hc : Correlated ([], e))
    (hs : Shaken none e) (ht : e.tasks.get? m = some t) :
    Watches first past ([], e.runTask m t (awaited t.waiting e)) := by
  have hn := hc.numbered
  have hframes := frames_pick hn ht
  have hpick : Correlated (t.frames, e.pick m) := hc.move (hn.pick ht) hframes
  have hrest := rests_runTask m t (awaited t.waiting e) e
  have hshakes := hs.shakes hn ht (o := if t.cancelRequested then .cancelled else awaited t.waiting e)
  have hpath := path_reached (leads_unwind t.frames
    (if t.cancelRequested then .cancelled else awaited t.waiting e) (e.pick m))
  have hgrows := Path.grows hpath hpick.numbered
  have hrun := (running_pick m e).grows hgrows
  rcases h with hclosed | h
  · exact .inl ((stable_came advances_closed 0).runTask hclosed hc hs ht _)
  have hpicked : Heeding first past (t.frames, e.pick m) :=
    h.quiet (List.append_nil _).symm (by simp) fun f hf _ => hframes.mem_iff.mp hf
  have hp : Phrases first k d (t.frames, e.pick m) := hp.same (hp.sound.move hframes) rfl rfl
  have hcon : Consented (t.frames, e.pick m) := stable_consented.move hcon hframes
  have ho : Came (fun d => d.opened = true) 0 (t.frames, e.pick m) := ho
  have hreached : Watches first past (reached (unwind t.frames
      (if t.cancelRequested then .cancelled else awaited t.waiting e) (e.pick m))) := by
    have hfrom (hkept : Kept k (some m) d (t.frames, e.pick m)) :=
      Watches.path (.inr hpicked) hk hkept hp hcon ho hpick hpath
    rcases hkept.delivers with hex | hd
    · exact hfrom ⟨hkept.sound.move hframes, .inl hex⟩
    by_cases hslot : e.slots.get? 0 = some (.task m)
    · obtain ⟨hflag, _, v, hv, hstands⟩ := hd.slotted.stands hslot ht
      rw [hflag, hv, if_neg Bool.false_ne_true] at hgrows ⊢
      rcases hstands with ⟨rfl, delay, hf⟩ | hf
      · rw [hf] at hpicked hgrows ⊢
        exact .inr (hpicked.delays hgrows)
      · obtain ⟨c₀, c₁, hclears, hsends, hpath₁, hkept₁⟩ :=
          Kept.departs hkept.sound hd hk hn ht hf v
        have hstep := Step.flush hclears hsends
        rcases hkept₁ with hcl | ⟨d₁, hkept₁⟩
        · exact .inl (.inl (hpath₁.lasts.closed hcl))
        · exact Watches.departed hpicked hclears hsends hk hkept₁ hp hcon ho hpick hpath₁
    · exact hfrom ⟨hkept.sound.move hframes, .inr (hd.pick hn ht hslot)⟩
  rcases hreached with hclosed | hheeds
  · exact .inl ((stable_came advances_closed 0).rests hclosed (hpick.path hpath).numbered hrun
      hshakes hrest)
  · exact .inr (hheeds.rests (hpick.path hpath).numbered hrun hrest)

theorem Watches.runNext (h : Watches first past ([], e)) (hk : k ≤ 1) (hkept : Kept k none d ([], e))
    (hp : Phrases first k d ([], e)) (hcon : Consented ([], e))
    (ho : Came (fun d => d.opened = true) 0 ([], e)) (hc : Correlated ([], e)) (hs : Shaken none e) :
    Watches first past ([], e.runNext) := by
  obtain ⟨e₁, ha, hrun⟩ := runNext_cases e
  have hg := Grows.of_tallies ha
  have hsilent := silent_tallies ha
  have h₁ : Watches first past ([], e₁) := h.imp (fun hcl => hcl.silent advances_closed hsilent)
    fun h => h.aloof (aloof_tallies ha) hg (.refl _)
  have hc₁ : Correlated ([], e₁) := hc.calm (calm_tallies ha) hg rfl
  have hsound := hp.sound.idle (idles_tallies ha) (.refl []) hg
  have hp₁ : Phrases first k d ([], e₁) := hp.same hsound rfl ha.history
  have hcon₁ := stable_consented.silent hcon hsilent hg
  have ho₁ : Came (fun d => d.opened = true) 0 ([], e₁) := ho.silent advances_opened hsilent
  rcases hrun with hpath | ⟨m, t, ht, heq⟩
  · exact h₁.path hk (hkept.tallies ha) hp₁ hcon₁ ho₁ hc₁ hpath
  · rw [heq]
    exact h₁.runTask hk (hkept.tallies ha) hp₁ hcon₁ ho₁ hc₁ (hs.grows hc.numbered hg) ht

/-- Closing the only document closes it. -/
theorem came_closeSession {doc : Nat} {s : Session} (hs : e.session? doc = some s)
    (hc : Correlated ([], e)) : Came (fun d => d.closed = true) doc ([], e.closeSession doc) := by
  rcases closeSession_cases doc e with ⟨heq, hclosed⟩ | ⟨s', e₁, hs', _, hcancels, heq⟩
  · rw [heq]
    exact .inr ⟨s, hs, hclosed s hs⟩
  · rw [heq]
    have hmarked : Came (fun d => d.closed = true) doc
        ([], e.onDocument doc fun d => { d with closed := true }) := by
      refine .inr ⟨{ s with document := { s.document with closed := true } }, ?_, rfl⟩
      change (e.onDocument doc fun d => { d with closed := true }).session? doc = _
      rw [session?_onDocument, if_pos rfl, hs]
      rfl
    have hslot := (silent_cancelSlot doc _).trans (silent_cancels hcancels)
    exact (stable_came advances_closed doc).path (hmarked.silent advances_closed hslot)
      (hc.closing hcancels) (path_detach _)

theorem Watches.act {a : Action} (h : Watches first past ([], e)) (hserved : Served first k e)
    (hk : k + (if a.opens then 1 else 0) ≤ 1) (ha : a.Fits e) (hshakes : a.shakes = false)
    (ho : Came (fun d => d.opened = true) 0 ([], e)) : Watches first past ([], e.act a) := by
  obtain ⟨hupheld, hphrased, hcon, hc, hs⟩ := hserved
  have hlasts := lasts_act a e
  rcases hupheld with hcl | ⟨d, hkept⟩
  · exact .inl (.inl (hlasts.closed hcl))
  rcases hphrased with hcl | ⟨d', hp⟩
  · exact .inl (.inl (hlasts.closed hcl))
  obtain rfl := only_document hkept.sound.session hp.sound.session
  rcases h with hclosed | h
  · exact .inl (hclosed.act advances_closed hc hs ha)
  have hk' : k ≤ 1 := by omega
  have hinner {a : Action} (hi : a.inner = true) : Watches first past ([], e.act a) :=
    Watches.path (.inr h) hk' hkept hp hcon ho hc (path_act hi)
  have hedit (text : List Char) (changes : Option (List Change)) :
      Heeding first past ([], (e.scheduleChange 0 text changes).2) :=
    h.aloof (aloof_scheduleChange 0 text changes e) (hc.numbered.grows_scheduleChange 0 text changes)
      (.refl _)
  cases a with
  | run => exact Watches.runNext (.inr h) hk' hkept hp hcon ho hc hs
  | «begin» op =>
    refine .inr (h.quiet (List.append_nil _).symm (by simp) fun f hf hprobes => ?_)
    change f ∈ (e.spawn op).2.held at hf
    rw [hc.numbered.held_spawn op, List.mem_append, List.mem_singleton] at hf
    rcases hf with hf | rfl
    · exact hf
    · cases hprobes
  | scheduleChange doc text changes =>
    obtain ⟨rfl, _⟩ := ha
    exact .inr (hedit text changes)
  | viewChanged doc text changes =>
    obtain ⟨rfl, hcareful⟩ := ha
    have hfits : (Action.scheduleChange 0 text changes).Fits e := ⟨rfl, hcareful⟩
    have hserved₁ := Served.act ⟨.inr ⟨d, hkept⟩, .inr ⟨d, hp⟩, hcon, hc, hs⟩
      (a := .scheduleChange 0 text changes) hk hfits rfl
    have ho₁ := ho.act advances_opened hc hs hfits
    rcases hserved₁.upheld with hcl | ⟨d₁, hkept₁⟩
    · exact .inl (.inl ((path_viewChanged 0 text changes).lasts.closed hcl))
    rcases hserved₁.phrased with hcl | ⟨d₁', hp₁⟩
    · exact .inl (.inl ((path_viewChanged 0 text changes).lasts.closed hcl))
    obtain rfl := only_document hkept₁.sound.session hp₁.sound.session
    exact Watches.path (.inr (hedit text changes)) hk hkept₁ hp₁ hserved₁.consented ho₁
      hserved₁.correlated (path_viewChanged 0 text changes)
  | closeSession doc =>
    cases hsession : e.session? doc with
    | none =>
      have hsame : e.closeSession doc = e := by simp [closeSession, hsession]
      change Watches first past ([], e.closeSession doc)
      rw [hsame]
      exact .inr h
    | some s =>
      obtain ⟨rfl, _⟩ := session?_of_cores hkept.sound.session hsession
      exact .inl (came_closeSession hsession hc)
  | cancel r => exact ha.elim
  | failSends f => exact ha.elim
  | addSession s => exact ha.elim
  | _ => exact hinner rfl

/-- Whatever is done with a document that is open, the questions that are begun from then on are heeded
    until the document is closed. -/
theorem Watches.after : ∀ (actions : List Action) {e : Engine} {k : Nat},
    Watches first past ([], e) → Served first k e → k + actions.countP Action.opens ≤ 1 →
    Fitting e actions → (∀ a ∈ actions, a.shakes = false) →
    Came (fun d => d.opened = true) 0 ([], e) →
    Watches first past ([], e.after actions)
  | [], _, _, h, _, _, _, _, _ => h
  | a :: rest, e, k, h, hserved, hk, hf, hs, ho => by
      have hcount : k + (a :: rest).countP Action.opens
          = k + (if a.opens then 1 else 0) + rest.countP Action.opens := by
        rw [List.countP_cons]
        omega
      rw [hcount] at hk
      have ha := hs a (List.mem_cons_self ..)
      exact Watches.after rest (h.act hserved (by omega) hf.1 ha ho)
        (hserved.act (by omega) hf.1 ha) hk hf.2 (fun b hb => hs b (List.mem_cons_of_mem _ hb))
        (ho.act advances_opened hserved.correlated hserved.shaken hf.1)

/-! ### Asking -/

/-- Where a run has come to, the history has only grown. -/
theorem Leads.history {run : Run} (h : Leads c [] run) :
    ∃ more, run.1.history = c.2.history ++ more := by
  have hlasts := (path_reached h).lasts
  obtain ⟨e, _ | _ | _⟩ := run <;> exact hlasts.history

theorem requestMethod_of_method {feature : Feature} {name : String}
    (h : feature.method? = some name) : Message.requestMethod (.str name) = .ok name := by
  cases feature <;> cases h <;> rfl

/-- A question is asked by a request that is handed over at once. -/
theorem history_ask {doc generation : Nat} {feature : Feature} {name : String} {s : Session}
    {params : Document → Members} {f : Frame} {next : Outcome → Engine → Run}
    (hmethod : feature.method? = some name) (hs : e.session? doc = some s)
    (hopen : e.client.closed = false) (hn : ∀ o e, Leads ([f], e) [] (next o e)) (v : Value) :
    ∃ id more, (ask doc feature generation name params f next (.value v) e).1.history =
      e.history ++ .asked doc feature generation :: .called id name ::
        .handed (Message.request (.nat id) (.str name) (.obj (params s.document))) :: more := by
  have hname := requestMethod_of_method hmethod
  let asked := e.note (.asked doc feature generation)
  let message := Message.request (.nat (asked.enroll name).1) (.str name) (.obj (params s.document))
  have hask : ask doc feature generation name params f next (.value v) e =
      andThen (((asked.enroll name).2.note (.handed message)).pass
        (.request (asked.enroll name).1 name asked.client.options.limit) message) f next := by
    simp [ask, withSession, hs, requestFor, hopen, request, hname, asked, message, note, send]
  have hleads (purpose : Purpose) (m : Json) (e₁ : Engine) :
      Leads ([.gate purpose m, f], e₁) [] (andThen (e₁.pass purpose m) f next) :=
    Leads.andThen (leads_pass _ _) hn
  obtain ⟨more, hh⟩ := Leads.history (hleads _ _ _)
  refine ⟨(asked.enroll name).1, more, ?_⟩
  rw [hask]
  exact hh.trans (by simp [asked, message, enroll, promise, note])

/-- What waits to be asked is asked by a request of its own method. -/
theorem history_resume {doc generation : Nat} {feature : Feature} {f : Frame} {s : Session}
    (hf : f.question? = some (doc, feature, generation)) (hs : e.session? doc = some s)
    (hopen : e.client.closed = false) (v : Value) : ∃ id name params more,
      feature.method? = some name ∧ (resume f (.value v) e).1.history =
        e.history ++ .asked doc feature generation :: .called id name ::
          .handed (Message.request (.nat id) (.str name) params) :: more := by
  cases f with
  | hoverFlushed doc generation pos =>
    cases hf
    obtain ⟨id, more, hh⟩ := @history_ask e doc generation .hover _ s (·.positionParams pos)
      (.hoverAnswered doc generation pos) (hoverAnswered doc generation pos) rfl hs hopen
      (fun o _ => leads_hoverAnswered doc generation pos o) v
    exact ⟨id, _, _, more, rfl, hh⟩
  | completionFlushed doc generation pos kind character =>
    cases hf
    obtain ⟨id, more, hh⟩ := @history_ask e doc generation .completion _ s
      (fun d => d.positionParams pos ++ [("context", completionContext kind character)])
      (.completionAnswered doc generation pos) (completionAnswered doc generation pos) rfl hs hopen
      (fun o _ => leads_completionAnswered doc generation pos o) v
    exact ⟨id, _, _, more, rfl, hh⟩
  | signatureFlushed doc generation pos character =>
    cases hf
    obtain ⟨id, more, hh⟩ := @history_ask e doc generation .signatureHelp _ s
      (fun d => d.positionParams pos ++ [("context", signatureContext character)])
      (.signatureAnswered doc generation pos) (signatureAnswered doc generation pos) rfl hs hopen
      (fun o _ => leads_signatureAnswered doc generation pos o) v
    exact ⟨id, _, _, more, rfl, hh⟩
  | _ => cases hf

/-! ### Every question -/

/-- At the moment from which on questions are looked at, those that wait have been begun before. -/
theorem heeding_start (h : Counts ([], e)) : Heeding first e.history ([], e) where
  waiting f hf feature generation hq hnew :=
    absurd (h.begun f hf 0 feature generation (.inl hq)) hnew
  asked before feature generation after hsplit hlen _ := by
    have hlength := congrArg List.length hsplit
    simp only [List.length_append, List.length_cons] at hlength
    omega

theorem Begins.served {s : Session} (h : Begins e) (hs : e.session? 0 = some s) :
    Served s.document.text 0 e where
  upheld := h.upheld
  phrased := h.phrased hs
  consented := by
    obtain ⟨options, script, s, _, rfl⟩ := h
    exact .inr ⟨Nat.zero_le _, .inl rfl⟩
  correlated := h.correlated
  shaken := by
    obtain ⟨options, script, s, _, rfl⟩ := h
    intro r hr
    cases hr

theorem Served.after : ∀ (actions : List Action) {e : Engine} {k : Nat}, Served first k e →
    k + actions.countP Action.opens ≤ 1 → Fitting e actions →
    (∀ a ∈ actions, a.shakes = false) →
      Served first (k + actions.countP Action.opens) (e.after actions)
  | [], _, _, h, _, _, _ => h
  | a :: rest, e, k, h, hk, hf, hs => by
      have hcount : k + (a :: rest).countP Action.opens
          = k + (if a.opens then 1 else 0) + rest.countP Action.opens := by
        rw [List.countP_cons]
        omega
      rw [hcount] at hk ⊢
      exact Served.after rest (h.act (by omega) hf.1 (hs a (List.mem_cons_self ..))) hk hf.2
        fun b hb => hs b (List.mem_cons_of_mem _ hb)

theorem fitting_append : ∀ {past more : List Action} {e : Engine}, Fitting e (past ++ more) →
    Fitting e past ∧ Fitting (e.after past) more
  | [], _, _, h => ⟨trivial, h⟩
  | _ :: _, _, _, h => ⟨⟨h.1, (fitting_append h.2).1⟩, (fitting_append h.2).2⟩

theorem Begins.counts (h : Begins e) (actions : List Action) : Counts ([], e.after actions) := by
  obtain ⟨options, script, s, _, rfl⟩ := h
  exact enduring_counts.after (.addSession s :: actions) (counts_create options script)
    (attended_create options script)

/-- All that happens after a moment in which a document is open, until the document or the connection is
    closed: the history tells which text the document had at every moment. A question that waits is
    asked by a request that is handed over at once. And when a question is asked that was begun after
    that moment, the server has read, of all that was handed over before, a text that the document
    had when the question had been begun. -/
theorem asked_uptodate {s : Session} (hb : Begins e) (hs : e.session? 0 = some s)
    (past more : List Action) (hf : Fitting e (past ++ more))
    (ho : (past ++ more).countP Action.opens ≤ 1) (hshakes : ∀ a ∈ past ++ more, a.shakes = false)
    (hopened : ((e.after past).session? 0).map (·.document.opened) = some true)
    (hclosed : ((e.after (past ++ more)).session? 0).map (·.document.closed) = some false)
    (hopen : (e.after (past ++ more)).client.closed = false) :
    ((e.after (past ++ more)).session? 0).map (·.document.text)
        = some (wording 0 s.document.text (e.after (past ++ more)).history) ∧
    (∀ (e : Engine) f doc feature generation s v, f.question? = some (doc, feature, generation) →
      e.session? doc = some s → e.client.closed = false →
      ∃ id name params later, feature.method? = some name ∧ (resume f (.value v) e).1.history =
        e.history ++ .asked doc feature generation :: .called id name ::
          .handed (Message.request (.nat id) (.str name) params) :: later) ∧
    ∀ before feature generation after,
      (e.after (past ++ more)).history = before ++ .asked 0 feature generation :: after →
      (e.after past).history.length ≤ before.length →
      .posed 0 feature generation ∈ (e.after past).history ∨
      ∃ earlier since later,
        before = (e.after past).history ++ earlier ++ .posed 0 feature generation :: (since ++ later) ∧
        mirror before = some (wording 0 s.document.text
          ((e.after past).history ++ earlier ++ .posed 0 feature generation :: since)) := by
  have hpast : (past ++ more).countP Action.opens
      = past.countP Action.opens + more.countP Action.opens := List.countP_append
  obtain ⟨hfpast, hfmore⟩ := fitting_append hf
  have hserved := Served.after past (hb.served hs) (by omega) hfpast
    fun a ha => hshakes a (List.mem_append_left _ ha)
  have hwatches : Watches s.document.text (e.after past).history ([], (e.after past).after more) := by
    obtain ⟨s', hs', ho'⟩ := Option.map_eq_some_iff.mp hopened
    exact Watches.after more (.inr (heeding_start (hb.counts past))) hserved (by omega) hfmore
      (fun a ha => hshakes a (List.mem_append_right _ ha)) (.inr ⟨s', hs', ho'⟩)
  have hserved := Served.after (past ++ more) (hb.served hs) (by omega) hf hshakes
  rw [← after_append] at hwatches
  obtain ⟨later, hlater⟩ := (lasts_after more (e.after past)).history
  rw [← after_append] at hlater
  generalize e.after (past ++ more) = now at *
  obtain ⟨s', hs', hclosed⟩ := Option.map_eq_some_iff.mp hclosed
  have hheeding : Heeding s.document.text (e.after past).history ([], now) := by
    refine hwatches.resolve_left ?_
    rintro (hcl | ⟨s'', hs'', hc⟩)
    · rw [hopen] at hcl
      cases hcl
    · obtain rfl := Option.some.inj (hs'.symm.trans hs'')
      rw [hclosed] at hc
      cases hc
  obtain ⟨d, hp⟩ := hserved.phrased.resolve_left (by rw [hopen]; simp)
  obtain ⟨_, rfl, _⟩ := session?_of_cores hp.sound.session hs'
  refine ⟨by rw [hs', Option.map_some, hp.worded], ?_, ?_⟩
  · intro e f doc feature generation s v hq hs hopen
    exact history_resume hq hs hopen v
  · intro before feature generation after hsplit hlen
    by_cases hold : .posed 0 feature generation ∈ (e.after past).history
    · exact .inl hold
    · have hheeds := hheeding.asked before feature generation after hsplit hlen hold
      have hfaithful := hp.faithful
      rw [hsplit] at hfaithful
      rcases split_append (hlater.symm.trans hsplit) with ⟨mid, hmid, _⟩ | ⟨mid, rfl, _⟩
      · have hlength := congrArg List.length hmid
        simp only [List.length_append, List.length_cons] at hlength
        omega
      · exact .inr (hheeds.since hfaithful.before hold)

/-- A server that takes changes of ranges and answers questions about places, and a document that sends
    them. -/
def answering (text : List Char) : Engine :=
  (create usual { capabilities := .obj [("textDocumentSync", .int 2), ("hoverProvider", .bool true)] }).addSession
    { document := { uri := "file:///doc", language := "python", incremental := true, text }
      view := { text } }

/-- The document is edited, and a question is begun while messages are held up; before the change can
    pass the document is edited once more. -/
def askedMeanwhile : List Action :=
  [[.scheduleChange 0 ['x', 'a', 'b'] (some [⟨0, 0, ['x']⟩]), .block,
    .begin (.hover 0 (.obj [("line", .int 0), ("character", .int 0)]))], runs 3,
    [.scheduleChange 0 ['x', 'a', 'b', 'y'] (some [⟨3, 3, ['y']⟩]), .unblock], runs 3].flatten

/-- Is the event that of asking what is under the cursor? -/
def asksHover : Event → Bool
  | .asked 0 .hover _ => true
  | _ => false

/-- A question that is asked later, where none had been begun. -/
theorem exists_asked {first : List Char} {start history : List Event}
    (h : ∀ before feature generation after,
      history = before ++ .asked 0 feature generation :: after → start.length ≤ before.length →
      .posed 0 feature generation ∈ start ∨ ∃ earlier since later,
        before = start ++ earlier ++ .posed 0 feature generation :: (since ++ later) ∧
        mirror before
          = some (wording 0 first (start ++ earlier ++ .posed 0 feature generation :: since)))
    (hnone : posings 0 .hover start = [])
    (hsome : (history.drop start.length).any asksHover = true) :
    ∃ generation earlier since later after,
      history = start ++ earlier ++ .posed 0 .hover generation :: (since ++ later)
        ++ .asked 0 .hover generation :: after ∧
      mirror (start ++ earlier ++ .posed 0 .hover generation :: (since ++ later))
        = some (wording 0 first (start ++ earlier ++ .posed 0 .hover generation :: since)) := by
  obtain ⟨event, hmem, hevent⟩ := List.any_eq_true.mp hsome
  obtain ⟨generation, rfl⟩ : ∃ generation, event = .asked 0 .hover generation := by
    unfold asksHover at hevent
    split at hevent
    · exact ⟨_, rfl⟩
    · cases hevent
  obtain ⟨waited, after, hdrop⟩ := List.append_of_mem hmem
  have hlen : start.length ≤ history.length := by
    by_contra hlt
    rw [List.drop_eq_nil_of_le (by omega)] at hmem
    cases hmem
  have hsplit : history = (history.take start.length ++ waited)
      ++ .asked 0 .hover generation :: after := by
    rw [List.append_assoc, ← hdrop, List.take_append_drop]
  have hbefore : start.length ≤ (history.take start.length ++ waited).length := by
    rw [List.length_append, List.length_take, Nat.min_eq_left hlen]
    exact Nat.le_add_right _ _
  rcases h _ .hover generation after hsplit hbefore with hold | ⟨earlier, since, later, heq, htext⟩
  · rw [← mem_posings, hnone] at hold
    cases hold
  · rw [heq] at hsplit htext
    exact ⟨generation, earlier, since, later, after, hsplit, htext⟩

theorem askedMeanwhile_uptodate :
    let e := answering ['a', 'b']
    let past := .begin (.openDocument 0 none) :: runs 10
    Begins e ∧ Fitting e (past ++ askedMeanwhile) ∧
      (past ++ askedMeanwhile).countP Action.opens ≤ 1 ∧
      (∀ a ∈ past ++ askedMeanwhile, a.shakes = false) ∧
      ((e.after past).session? 0).map (·.document.opened) = some true ∧
      ((e.after (past ++ askedMeanwhile)).session? 0).map (·.document.closed) = some false ∧
      (e.after (past ++ askedMeanwhile)).client.closed = false ∧
      ∃ generation earlier since later after, (e.after (past ++ askedMeanwhile)).history =
        (e.after past).history ++ earlier ++ .posed 0 .hover generation :: (since ++ later)
          ++ .asked 0 .hover generation :: after ∧
        mirror ((e.after past).history ++ earlier
            ++ .posed 0 .hover generation :: (since ++ later))
          = some (wording 0 ['a', 'b']
            ((e.after past).history ++ earlier ++ .posed 0 .hover generation :: since)) := by
  intro e past
  have hb : Begins e := ⟨_, _, _, ⟨rfl, rfl, rfl, rfl⟩, rfl⟩
  have hf : Fitting e (past ++ askedMeanwhile) := by decide +kernel
  have ho : (past ++ askedMeanwhile).countP Action.opens ≤ 1 := by decide
  have hshakes : ∀ a ∈ past ++ askedMeanwhile, a.shakes = false := by decide
  obtain ⟨hopened, hclosed, hopen, hnone, hsome⟩ :
      ((e.after past).session? 0).map (·.document.opened) = some true ∧
      ((e.after (past ++ askedMeanwhile)).session? 0).map (·.document.closed) = some false ∧
      (e.after (past ++ askedMeanwhile)).client.closed = false ∧
      posings 0 .hover (e.after past).history = [] ∧
      ((e.after (past ++ askedMeanwhile)).history.drop (e.after past).history.length).any
        asksHover = true := by decide +kernel
  obtain ⟨s, hs, hfirst⟩ : ∃ s, e.session? 0 = some s ∧ s.document.text = ['a', 'b'] :=
    ⟨_, rfl, rfl⟩
  obtain ⟨_, _, hasked⟩ :=
    asked_uptodate hb hs past askedMeanwhile hf ho hshakes hopened hclosed hopen
  rw [hfirst] at hasked
  exact ⟨hb, hf, ho, hshakes, hopened, hclosed, hopen, exists_asked hasked hnone hsome⟩

end Engine

end LanguageClient
