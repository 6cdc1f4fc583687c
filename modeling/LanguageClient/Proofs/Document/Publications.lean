import LanguageClient.Proofs.Document.Fetches
import LanguageClient.Proofs.Document.Generations
import LanguageClient.Proofs.Engine.Places

/-!
What is published for a document, and who may show it. Each publication has the number under which the
placing of its diagnostics was begun (`publications`). Only a task that presents the document's
diagnostics publishes or shows any: whatever else is done passes them by (`Attended.passes_act`).

    published 1 ── published 2 ── shown 2 ── published 3 ── shown 3
                                   └ 1 is not shown any more
-/

namespace LanguageClient

/-! ### Histories -/

/-- Diagnostics that are published: for which document, how they were sent, and how they read. -/
structure Publication where
  uri : String
  sent : List Json
  read : List Diagnostic

/-- Diagnostics as a server publishes them. -/
def Publication.ofJson? (v : Json) : Option Publication := do
  let uri ← (← v.member? "uri").str?
  let sent ← (← v.member? "diagnostics").arr?
  return { uri, sent, read := ← sent.mapM Diagnostic.ofJson? }

/-- Events of the diagnostics of a document. -/
def Event.displays (doc : Nat) : Event → Bool
  | .posed doc' feature _ => doc' = doc && feature = .diagnostics
  | .published doc' .. | .shown doc' .. => doc' = doc
  | _ => false

/-- The diagnostics that an event publishes for a document, with their number. -/
def Event.publication? (doc : Nat) : Event → Option (Nat × List Json)
  | .published doc' generation sent => if doc' = doc then some (generation, sent) else none
  | _ => none

/-- What was published for a document so far, oldest first. -/
def publications (doc : Nat) (history : List Event) : List (Nat × List Json) :=
  history.filterMap (Event.publication? doc)

/-- Whenever diagnostics of a document are shown, they are those of its newest publication, and of a
    later one than all that were shown before. -/
def ShownInOrder (doc : Nat) (history : List Event) : Prop :=
  ∀ before superseding presented after,
    history = before ++ .shown doc superseding presented :: after →
    ∃ generation sent, superseding = .after generation ∧
      (publications doc before).getLast? = some (generation, sent) ∧
      ∀ earlier shown, .shown doc (.after earlier) shown ∈ before → earlier < generation

section

variable {doc generation : Nat} {history more : List Event} {sent : List Json}

theorem Event.displays_of_unprobed {event : Event} (h : event.probes = false) (doc : Nat) :
    event.displays doc = false := by
  cases event <;> first | rfl | cases h

theorem publications_append (doc : Nat) (history more : List Event) :
    publications doc (history ++ more) = publications doc history ++ publications doc more :=
  List.filterMap_append

theorem publications_of_undisplayed (h : ∀ event ∈ more, event.displays doc = false) :
    publications doc more = [] := by
  rw [publications, List.filterMap_eq_nil_iff]
  intro event hmem
  have hevent := h event hmem
  cases event with
  | published doc' generation sent =>
    have hne : doc' ≠ doc := by simpa [Event.displays] using hevent
    simp [Event.publication?, hne]
  | _ => rfl

theorem posings_of_undisplayed (h : ∀ event ∈ more, event.displays doc = false) :
    posings doc .diagnostics more = [] := by
  rw [posings, List.filterMap_eq_nil_iff]
  intro event hmem
  have hevent := h event hmem
  cases event with
  | posed doc' feature generation =>
    have hne : ¬ (doc' = doc ∧ feature = .diagnostics) := by simpa [Event.displays] using hevent
    simp [Event.posing?, hne]
  | _ => rfl

theorem not_shown_of_undisplayed (h : ∀ event ∈ more, event.displays doc = false)
    (superseding : Superseding) (presented : List PresentedDiagnostic) :
    .shown doc superseding presented ∉ more := by
  intro hmem
  have hevent := h _ hmem
  simp [Event.displays] at hevent

/-- Nothing has been shown since. -/
theorem ShownInOrder.append (h : ShownInOrder doc history)
    (hm : ∀ superseding presented, .shown doc superseding presented ∉ more) :
    ShownInOrder doc (history ++ more) := by
  intro before superseding presented after hsplit
  rcases split_append hsplit with ⟨mid, hmid, _⟩ | ⟨mid, rfl, rfl⟩
  · exact h before superseding presented mid hmid
  · exact absurd (by simp) (hm superseding presented)

/-- The newest publication is shown, and it has not been shown before, nor has a later one. -/
theorem ShownInOrder.shown (h : ShownInOrder doc history)
    (hlast : (publications doc history).getLast? = some (generation, sent))
    (hearlier : ∀ earlier shown, .shown doc (.after earlier) shown ∈ history → earlier < generation)
    (presented : List PresentedDiagnostic) :
    ShownInOrder doc (history ++ [.shown doc (.after generation) presented]) := by
  intro before superseding presented' after hsplit
  rcases split_append hsplit with ⟨mid, hmid, _⟩ | ⟨mid, rfl, hmid⟩
  · exact h before superseding presented' mid hmid
  · cases mid with
    | nil =>
      cases hmid
      rw [List.append_nil]
      exact ⟨generation, sent, rfl, hlast, hearlier⟩
    | cons event mid => simp at hmid

/-- What has been shown had been published. -/
theorem ShownInOrder.published {superseding : Superseding} {presented : List PresentedDiagnostic}
    (h : ShownInOrder doc history) (hmem : .shown doc superseding presented ∈ history) :
    ∃ generation, superseding = .after generation ∧
      generation ∈ (publications doc history).map Prod.fst := by
  obtain ⟨before, after, rfl⟩ := List.append_of_mem hmem
  obtain ⟨generation, sent, rfl, hlast, _⟩ := h before superseding presented after rfl
  refine ⟨generation, rfl, List.mem_map.mpr ⟨(generation, sent), ?_, rfl⟩⟩
  rw [publications_append]
  exact List.mem_append_left _ (List.mem_of_getLast? hlast)

end

/-- What a document shows of its diagnostics, and how it tells whether they are still wanted. -/
def Session.display (s : Session) : Nat × Bool × Features × List PresentedDiagnostic :=
  (s.generation .diagnostics, s.staleGuard, s.features, s.view.diagnostics)

namespace Engine

variable {doc m : Nat} {c c' : Config} {st : List Frame} {e e' : Engine} {o : Outcome}

/-! ### Who may show diagnostics -/

/-- Nothing has happened to the diagnostics of the document. -/
structure Discreet (doc : Nat) (e e' : Engine) : Prop where
  display : ∀ s, e.session? doc = some s →
    ∃ s', e'.session? doc = some s' ∧ s'.display = s.display
  history : ∃ more, e'.history = e.history ++ more ∧ ∀ event ∈ more, event.displays doc = false

theorem Discreet.trans {e₁ e₂ e₃ : Engine} (h : Discreet doc e₁ e₂) (h' : Discreet doc e₂ e₃) :
    Discreet doc e₁ e₃ where
  display s hs := by
    obtain ⟨s', hs', hsame⟩ := h.display s hs
    obtain ⟨s'', hs'', hsame'⟩ := h'.display s' hs'
    exact ⟨s'', hs'', hsame'.trans hsame⟩
  history := added_trans h.history h'.history

theorem Aloof.discreet (h : Aloof e e') : Discreet doc e e' where
  display s hs := by
    obtain ⟨s', hs', hlook⟩ := h.session hs
    simp only [Session.outlook, Prod.mk.injEq] at hlook
    obtain ⟨hgeneration, hguard, hfeatures, hview⟩ := hlook
    exact ⟨s', hs', by simp only [Session.display, hgeneration, hguard, hfeatures, hview]⟩
  history := by
    obtain ⟨more, hh, hm⟩ := h.history
    exact ⟨more, hh, fun event hmem => Event.displays_of_unprobed (hm event hmem) doc⟩

theorem discreet_of_eq (hs : e'.sessions = e.sessions) (hh : e'.history = e.history) :
    Discreet doc e e' := (aloof_of_eq hs hh).discreet

theorem Discreet.publications (h : Discreet doc e e') :
    publications doc e'.history = publications doc e.history := by
  obtain ⟨more, hh, hm⟩ := h.history
  rw [hh, publications_append, publications_of_undisplayed hm, List.append_nil]

theorem Discreet.posings (h : Discreet doc e e') :
    posings doc .diagnostics e'.history = posings doc .diagnostics e.history := by
  obtain ⟨more, hh, hm⟩ := h.history
  rw [hh, posings_append, posings_of_undisplayed hm, List.append_nil]

theorem Discreet.of_shown {superseding : Superseding} {presented : List PresentedDiagnostic}
    (h : Discreet doc e e') (hmem : .shown doc superseding presented ∈ e'.history) :
    .shown doc superseding presented ∈ e.history := by
  obtain ⟨more, hh, hm⟩ := h.history
  rw [hh, List.mem_append] at hmem
  exact hmem.resolve_right (not_shown_of_undisplayed hm _ _)

theorem Discreet.order (h : Discreet doc e e') (ho : ShownInOrder doc e.history) :
    ShownInOrder doc e'.history := by
  obtain ⟨more, hh, hm⟩ := h.history
  rw [hh]
  exact ho.append (not_shown_of_undisplayed hm)

theorem Discreet.refl (e : Engine) : Discreet doc e e := discreet_of_eq rfl rfl

theorem discreet_note {event : Event} (h : event.displays doc = false) (e : Engine) :
    Discreet doc e (e.note event) := ⟨fun s hs => ⟨s, hs, rfl⟩, [event], rfl, by simpa using h⟩

/-- The diagnostics of another document are shown. -/
theorem discreet_showDiagnostics {doc' : Nat} (h : doc' ≠ doc) (superseding : Superseding)
    (presented : List PresentedDiagnostic) (e : Engine) :
    Discreet doc e (e.showDiagnostics doc' superseding presented) := by
  refine ⟨fun s hs => ⟨s, ?_, rfl⟩, [_], rfl, by simpa [Event.displays] using h⟩
  simpa only [showDiagnostics, onView, onSession, note, session?, List.getElem?_modify, if_neg h, id_map']
    using hs

/-- Only a task that presents the diagnostics of the document does anything to them. -/
theorem Step.discreet (hs : Step c c') (hp : ¬ Presenting doc c.1) : Discreet doc c.2 c'.2 := by
  have hother {doc' : Nat} (hpresents : Presenting doc' c.1) : doc' ≠ doc := by
    rintro rfl
    exact hp hpresents
  cases hs.inquiry with
  | aloof ha _ => exact ha.discreet
  | asks _ _ _ ha => exact ha.discreet
  | late _ _ _ _ hr =>
    have ha := aloof_refreshes hr
    exact ha.discreet
  | remark hr =>
    refine discreet_note ?_ _
    cases hr with
    | published doc' generation sent hpresents => simpa [Event.displays] using hother hpresents
    | _ => rfl
  | @pose st e doc' s feature hsession hpresents =>
    have hne : ¬ (doc' = doc ∧ feature = .diagnostics) := by
      rintro ⟨rfl, rfl⟩
      exact hp (hpresents rfl)
    refine ⟨fun s' hs' => ?_, [_], history_beginGeneration feature hsession, ?_⟩
    · change ∃ s'', (e.beginGeneration doc' feature).2.session? doc = some s'' ∧ _
      rw [session?_beginGeneration feature hsession]
      split
      · rename_i hdoc
        subst hdoc
        obtain rfl : s = s' := Option.some.inj (hsession.symm.trans hs')
        have hfeature : Feature.diagnostics ≠ feature := fun h => hne ⟨rfl, h.symm⟩
        exact ⟨_, rfl, by simp [Session.display, hfeature]⟩
      · exact ⟨s', hs', rfl⟩
    · simpa [Event.displays] using hne
  | shown presented _ hpresents => exact discreet_showDiagnostics (hother hpresents) _ presented _

theorem Step.presenting (hs : Step c c') (hp : Presenting doc c'.1) : Presenting doc c.1 := by
  obtain ⟨f, hf, hdoc⟩ := hp
  have hnone (h : f.presents? = none) : Presenting doc c.1 := by
    rw [h] at hdoc
    cases hdoc
  cases hs.stems f hf with
  | kept hf => exact ⟨f, hf, hdoc⟩
  | bare hbare =>
    refine hnone ?_
    simp only [Frame.bare, Bool.and_eq_true, Option.isNone_iff_eq_none] at hbare
    exact hbare.2
  | calls _ h _ => exact hnone h
  | pursues _ _ h => exact hnone h
  | @presents doc' hpresents _ hdoc' =>
    obtain rfl : doc' = doc := Option.some.inj (hdoc'.symm.trans hdoc)
    exact hpresents

theorem Path.discreet (h : Path c c') (hp : ¬ Presenting doc c.1) :
    Discreet doc c.2 c'.2 ∧ ¬ Presenting doc c'.1 := by
  induction h with
  | refl => exact ⟨.refl _, hp⟩
  | tail _ hs ih =>
    obtain ⟨hd, hnot⟩ := ih
    exact ⟨hd.trans (hs.discreet hnot), fun hp' => hnot (hs.presenting hp')⟩

/-! ### What passes the diagnostics by -/

instance (doc : Nat) (st : List Frame) : Decidable (Presenting doc st) :=
  inferInstanceAs (Decidable (∃ f ∈ st, f.presents? = some doc))

theorem not_presenting_nil : ¬ Presenting doc [] := by
  rintro ⟨f, hf, _⟩
  cases hf

/-- Nothing has happened to the diagnostics of the document, and the tasks that may show them stand
    where they stood. New ones are to begin. -/
structure Passes (doc : Nat) (e e' : Engine) : Prop extends Discreet doc e e' where
  keeps : ∀ k place, e.places.get? k = some place → Presenting doc place.1 →
    e'.places.get? k = some place
  comes : ∀ k place, e'.places.get? k = some place → Presenting doc place.1 →
    e.places.get? k = some place ∨ ∃ op, place = ([.begin op], none)

theorem Passes.trans {e₁ e₂ e₃ : Engine} (h : Passes doc e₁ e₂) (h' : Passes doc e₂ e₃) :
    Passes doc e₁ e₃ where
  toDiscreet := h.toDiscreet.trans h'.toDiscreet
  keeps k place hk hp := h'.keeps k place (h.keeps k place hk hp) hp
  comes k place hk hp := (h'.comes k place hk hp).elim (fun hk => h.comes k place hk hp) .inr

theorem Discreet.passes (hd : Discreet doc e e') (hg : Stays none e e') : Passes doc e e' where
  toDiscreet := hd
  keeps k place hk _ := hg.keeps k place (by simp) hk
  comes k place hk _ := hg.comes k place (by simp) hk

theorem passes_tallies (h : Tallies e e') : Passes doc e e' :=
  (aloof_tallies h).discreet.passes (Grows.of_tallies h).stays

theorem passes_path (h : Path ([], e) ([], e')) (hn : Numbered e) : Passes doc e e' :=
  (Path.discreet h not_presenting_nil).1.passes (Path.grows h hn).stays

theorem fst_of_place? {run : Run} {place : List Frame × Option Ref} (h : place? run = some place) :
    place.1 = (reached run).1 := by
  obtain ⟨e, _ | _ | _⟩ := run
  · cases h
  · obtain rfl := Option.some.inj h
    rfl
  · obtain rfl := Option.some.inj h
    rfl

/-- A task runs that does not present the diagnostics of the document. -/
theorem passes_runTask {t : Task} (hn : Numbered e) (ht : e.tasks.get? m = some t)
    (hp : ¬ Presenting doc t.frames) (o : Outcome) : Passes doc e (e.runTask m t o) := by
  have hpick : Discreet doc e (e.pick m) := discreet_of_eq rfl rfl
  obtain ⟨hpath, hnot⟩ := Path.discreet (path_reached (leads_unwind t.frames
    (if t.cancelRequested then .cancelled else o) (e.pick m))) hp
  have hstays := hn.stays_runTask ht o
  refine ⟨(hpick.trans hpath).trans (rests_runTask m t o e).aloof.discreet, ?_, ?_⟩
  · intro k place hk hpresents
    refine hstays.keeps k place ?_ hk
    rintro ⟨rfl⟩
    obtain rfl := Option.some.inj ((place_of_get? ht).symm.trans hk)
    exact hp hpresents
  · intro k place hk hpresents
    refine hstays.comes k place ?_ hk
    rintro ⟨rfl⟩
    rw [place_runTask] at hk
    exact hnot (fst_of_place? hk ▸ hpresents)

/-- A job lets a task go on that presents the diagnostics of the document, or passes them by. -/
theorem Numbered.passes_runNext (hn : Numbered e) (doc : Nat) : Passes doc e e.runNext ∨
    ∃ e₁ m t, Tallies e e₁ ∧ e₁.sessions = e.sessions ∧ e₁.tasks.get? m = some t ∧
      Presenting doc t.frames ∧ e.runNext = e₁.runTask m t (awaited t.waiting e₁) := by
  obtain ⟨e₁, ha, hsessions, hrun⟩ := runNext_same e
  have hn₁ := hn.grows (.of_tallies ha)
  rcases hrun with hp | ⟨m, t, ht, heq⟩
  · exact .inl ((passes_tallies ha).trans (passes_path hp hn₁))
  · by_cases hp : Presenting doc t.frames
    · exact .inr ⟨e₁, m, t, ha, hsessions, ht, hp, heq⟩
    · rw [heq]
      exact .inl ((passes_tallies ha).trans (passes_runTask hn₁ ht hp _))

/-- What the outside does passes the diagnostics by. -/
theorem Attended.passes_act {a : Action} (h : Attended e) (ha : a ≠ .run) (doc : Nat) :
    Passes doc e (e.act a) := by
  have hn := h.correlated.numbered
  have hd : Discreet doc e (e.act a) := by
    obtain ⟨e₁, haside, _, hp⟩ := h.correlated.act_cases ha
    exact haside.aloof.discreet.trans (Path.discreet hp not_presenting_nil).1
  cases hdrives : a.drives with
  | false => exact hd.passes (hn.grows_act hdrives).stays
  | true =>
    cases a with
    | run => exact absurd rfl ha
    | «begin» op =>
      exact hd.passes (hn.stays_spawn op)
    | _ => cases hdrives

end Engine

end LanguageClient
