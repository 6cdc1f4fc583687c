import LanguageClient.Proofs.Document.Presenting

/-!
What a document shows of what is published for it. The newest publication waits for its code actions,
which are all on their way, or it is shown (`Current`). As long as the outside cancels nothing, no code
actions are lost on the way, so what waits is shown in the end, well-formed diagnostics one and all.

    begin n ──▶ newest waits ──▶ newest shown ──▶ begin n + 1 ──▶ newest waits ──▶ …
-/

namespace LanguageClient

/-- Diagnostics that were sent, as a document shows them: placed in a text that it has had, each with the
    actions of an answer or without any, and under the language that it had where no source was sent. -/
def Placed (W : Session → Prop) (S : Json → Prop) (sent : List Json)
    (presented : List PresentedDiagnostic) : Prop :=
  ∃ read answers begun now, sent.mapM Diagnostic.ofJson? = some read ∧ answers.length = sent.length ∧
    (∀ answer ∈ answers, answer = .null ∨ S answer) ∧ W begun ∧ W now ∧
    presented = List.zipWith
      (Diagnostic.presented ⟨now.view.text⟩ (.str begun.document.language)) read answers

/-- Diagnostics are all well formed, so each of them is. -/
theorem Diagnostic.read_of_mem : ∀ {sent : List Json} {read : List Diagnostic},
    sent.mapM ofJson? = some read → ∀ v ∈ sent, ∃ d, ofJson? v = some d
  | [], _, _, _, hv => by cases hv
  | _ :: _, _, h, v, hv => by
      simp only [List.mapM_cons, bind, Option.bind_eq_some_iff] at h
      obtain ⟨d, hd, _, hrest, _⟩ := h
      rcases List.mem_cons.mp hv with rfl | hv
      · exact ⟨d, hd⟩
      · exact read_of_mem hrest v hv

namespace Engine

variable {W : Session → Prop} {S : Json → Prop} {doc k m generation : Nat}
  {e e' r : Engine} {s : Session} {sent : List Json} {o : Outcome} {t : Task} {fetches : List Ref}

/-! ### The newest publication -/

/-- The code actions of diagnostics that are well formed are on their way. -/
def Fetched (S : Json → Prop) (doc : Nat) (fetches : List Ref) (e : Engine) : Prop :=
  ∀ r ∈ fetches, ∃ k v d, r = .task k ∧ Diagnostic.ofJson? v = some d ∧
    EnRoute (Fetching doc v) (Supplied S) k e

/-- A task waits for the code actions of a publication. -/
def Expects (W : Session → Prop) (S : Json → Prop) (doc generation : Nat) (sent : List Json)
    (e : Engine) : Prop :=
  ∃ k fetches group s read, W s ∧ sent.mapM Diagnostic.ofJson? = some read ∧
    fetches.length = sent.length ∧ e.Herded group fetches ∧ Fetched S doc fetches e ∧
    e.places.get? k = some ([.actionsGathered doc sent fetches (.str s.document.language)
      (.after generation)], some (.group group))

/-- The document shows the diagnostics of a publication. -/
def Shows (W : Session → Prop) (S : Json → Prop) (doc generation : Nat) (sent : List Json)
    (e : Engine) : Prop :=
  ∃ s, e.session? doc = some s ∧ Placed W S sent s.view.diagnostics ∧
    .shown doc (.after generation) s.view.diagnostics ∈ e.history

/-- The newest publication is shown, or waits for its code actions. -/
def Current (W : Session → Prop) (S : Json → Prop) (doc : Nat) (e : Engine) : Prop :=
  ∀ generation sent, (publications doc e.history).getLast? = some (generation, sent) →
    Expects W S doc generation sent e ∨ Shows W S doc generation sent e

theorem Shows.discreet (h : Shows W S doc generation sent e) (hd : Discreet doc e e') :
    Shows W S doc generation sent e' := by
  obtain ⟨s, hs, hplaced, hshown⟩ := h
  obtain ⟨s', hs', hsame⟩ := hd.display s hs
  obtain ⟨more, hh, _⟩ := hd.history
  obtain ⟨-, -, -, hview⟩ : _ ∧ _ ∧ _ ∧ s'.view.diagnostics = s.view.diagnostics := by
    simpa only [Session.display, Prod.mk.injEq] using hsame
  exact ⟨s', hs', hview ▸ hplaced, hview ▸ hh ▸ List.mem_append_left _ hshown⟩

/-- Diagnostics are shown, and nothing happens to them any more. -/
theorem shows_shown {presented : List PresentedDiagnostic} (hs : r.session? doc = some s)
    (hp : Placed W S sent presented)
    (hd : Discreet doc (r.showDiagnostics doc (.after generation) presented) e') :
    Shows W S doc generation sent e' := by
  refine Shows.discreet ⟨{ s with view := s.view.setDiagnostics presented }, ?_, hp, ?_⟩ hd
  · simp only [session?, showDiagnostics, note, onView, onSession, List.getElem?_modify_eq]
    rw [show r.sessions[doc]? = some s from hs]
    rfl
  · exact List.mem_append_right _ (List.mem_singleton_self _)

/-- Nothing happens to the newest publication. -/
theorem Current.keeps (h : Current W S doc e) (hd : Discreet doc e e')
    (hplaces : ∀ k place generation sent,
      (publications doc e.history).getLast? = some (generation, sent) →
      Gathers doc k generation sent e → e.places.get? k = some place → e'.places.get? k = some place)
    (hherded : ∀ k members, e.Herded k members → e'.Herded k members)
    (hfetched : ∀ fetches, Fetched S doc fetches e → Fetched S doc fetches e') :
    Current W S doc e' := by
  intro generation sent hlast
  rw [hd.publications] at hlast
  rcases h generation sent hlast with ⟨k, fetches, group, s, read, hw, hread, hlen, hh, hf, hk⟩ | hshows
  · exact .inl ⟨k, fetches, group, s, read, hw, hread, hlen, hherded _ _ hh, hfetched _ hf,
      hplaces k _ generation sent hlast ⟨fetches, _, _, hk⟩ hk⟩
  · exact .inr (hshows.discreet hd)

/-! ### States in which nothing has been cut short -/

/-- What is known of a state before which the outside has cancelled nothing. -/
structure Untroubled (W : Session → Prop) (S : Json → Prop) (doc : Nat) (e : Engine) : Prop where
  correlated : Correlated ([], e)
  counts : Counts ([], e)
  spared : Spared none e.nextRef e
  advised : Advised S e
  guarded : Guarded doc e
  lined : Lined doc e
  seen : ∀ s, e.session? doc = some s → W s

theorem Untroubled.tallies (h : Untroubled W S doc e) (ht : Tallies e e') (hs : e'.sessions = e.sessions) :
    Untroubled W S doc e' := by
  have hsame : Harmless none [] e e' := harmless_tallies ht
  have hguarded := h.guarded.tallies ht
  exact {
    correlated := h.correlated.calm (calm_tallies ht) (.of_tallies ht) rfl
    counts := enduring_counts.persists.tallies h.counts ht
    spared := (h.spared.harmless hsame).raise hsame.nextRef (Nat.le_refl _)
    advised := h.advised.tallies ht
    guarded := hguarded
    lined := h.lined.passes (passes_tallies ht) hguarded
    seen := fun s hs' => h.seen s (by rwa [session?, hs] at hs') }

theorem Current.tallies (h : Current W S doc e) (hst : Untroubled W S doc e) (ht : Tallies e e') :
    Current W S doc e' := by
  have hsame : Harmless none [] e e' := harmless_tallies ht
  refine h.keeps (aloof_tallies ht).discreet (fun k place _ _ _ _ hk => ?_) (fun _ _ hh => hh.tallies ht)
    fun fetches hf r hr => ?_
  · rwa [places, ht.tasks]
  · obtain ⟨k, v, d, rfl, hd, hroute⟩ := hf r hr
    exact ⟨k, v, d, rfl, hd, hroute.harmless hsame (fun _ => (Grows.of_tallies ht).place)
      hst.correlated.numbered (by simp)⟩

/-- What passes the diagnostics by leaves the newest publication where it is. -/
theorem Current.passes {a : Action} (h : Current W S doc e) (hst : Untroubled W S doc e)
    (ha : a.spares = true) (hp : Passes doc e (e.act a)) : Current W S doc (e.act a) := by
  refine h.keeps hp.toDiscreet (fun k place _ _ _ hg hk => hp.keeps k place hk (hg.presenting hk))
    (fun _ _ hh => hh.act hst.spared hst.correlated ha) fun fetches hf r hr => ?_
  obtain ⟨k, v, d, rfl, hd, hroute⟩ := hf r hr
  exact ⟨k, v, d, rfl, hd, hroute.act (route_fetches doc S hd) hst.advised hst.spared hst.correlated ha⟩

/-! ### Runs -/

/-- Nothing that is on its way is lost when another task runs. -/
theorem Fetched.runTask (h : Fetched S doc fetches e) (hst : Untroubled W S doc e)
    (ht : e.tasks.get? m = some t) :
    Fetched S doc fetches (e.runTask m t (awaited t.waiting e)) := by
  intro r hr
  obtain ⟨k, v, d, rfl, hd, hroute⟩ := h r hr
  have hfetches := route_fetches doc S hd
  refine ⟨k, v, d, rfl, hd, hroute.runTask hfetches hst.advised hst.spared hst.correlated ht ?_⟩
  rintro rfl
  exact hroute.awaited hfetches hst.spared ht

/-- A task has ended that does not wait for the newest publication. -/
theorem Current.ended (h : Current W S doc e) (hst : Untroubled W S doc e) (ht : e.tasks.get? m = some t)
    (hd : Discreet doc (e.pick m) r) (hrun : runOf m t (awaited t.waiting e) e = (r, .done o))
    (hno : ∀ generation sent, (publications doc e.history).getLast? = some (generation, sent) →
      ¬ Gathers doc m generation sent e) :
    Current W S doc (e.runTask m t (awaited t.waiting e)) := by
  have hrests : Aloof (reached (runOf m t (awaited t.waiting e) e)).2 _ := (rests_runTask m t _ e).aloof
  rw [hrun] at hrests
  have hpicked : Discreet doc e (e.pick m) := discreet_of_eq rfl rfl
  refine h.keeps ((hpicked.trans hd).trans hrests.discreet) (fun k place generation sent hlast hg hk => ?_)
    (fun _ _ hh => hh.runTask hst.spared hst.correlated ht _) fun _ hf => hf.runTask hst ht
  refine (hst.correlated.numbered.stays_runTask ht _).keeps k place ?_ hk
  rintro ⟨rfl⟩
  exact hno generation sent hlast hg

/-- What is there of the code actions of a diagnostic is nothing, or an answer. -/
theorem Fetched.answered {answer : Json} (h : Fetched S doc fetches e)
    (hmem : answer ∈ fetches.map (Engine.answered e)) : answer = .null ∨ S answer := by
  obtain ⟨r, hr, rfl⟩ := List.mem_map.mp hmem
  obtain ⟨k, v, d, rfl, _, hroute⟩ := h r hr
  unfold Engine.answered
  split
  · rename_i w ho
    obtain ⟨w', hw', hsupplied⟩ := hroute.ends ho
    obtain rfl := Outcome.value.inj hw'
    exact hsupplied
  · exact .inl rfl

/-- A group whose tasks are all on their way ends with a value, if it has ended. -/
theorem Fetched.awaited (h : Fetched S doc fetches e) (hh : e.Herded k fetches) :
    ∃ v, Engine.awaited (some (.group k)) e = .value v := by
  unfold Engine.awaited
  rw [Option.bind_some]
  cases ho : e.outcome? (.group k) with
  | none => exact ⟨.nothing, rfl⟩
  | some o =>
    rcases hh.ended o ho with ⟨⟨v, rfl⟩, _⟩ | ⟨r, hr, hro, _⟩
    · exact ⟨v, rfl⟩
    · obtain ⟨n, v, d, rfl, _, hroute⟩ := h r hr
      obtain ⟨w, rfl, _⟩ := hroute.ends hro
      exact ⟨w, rfl⟩

/-- The code actions of the newest publication are there, and it is shown. -/
theorem Untroubled.completes {read : List Diagnostic} {begun : Session} (hst : Untroubled W S doc e)
    (hS : ∀ answer, S answer → answer.offersActions = true) (ht : e.tasks.get? m = some t)
    (hlast : (publications doc e.history).getLast? = some (generation, sent))
    (hw : W begun) (hread : sent.mapM Diagnostic.ofJson? = some read)
    (hlen : fetches.length = sent.length) (hh : e.Herded k fetches) (hf : Fetched S doc fetches e)
    (hframes : t.frames = [.actionsGathered doc sent fetches (.str begun.document.language)
      (.after generation)]) (hwaiting : t.waiting = some (.group k)) :
    Current W S doc (e.runTask m t (awaited t.waiting e)) := by
  obtain ⟨v, hv⟩ := hf.awaited hh
  rw [← hwaiting] at hv
  have hflag : t.cancelRequested = false := by
    rw [← Bool.not_eq_true]
    intro hstop
    have hbrief := ((hst.spared.flagged m t ht hstop).resolve_left (by simp)).frames
    rw [hframes] at hbrief
    cases hbrief
  obtain ⟨s, hs, _⟩ := hst.lined.posed hst.counts (List.mem_of_getLast? hlast)
  have hs' : (e.pick m).session? doc = some s := hs
  have hwanted : ¬ Stale doc .diagnostics generation (e.pick m) :=
    (hst.lined.pick m).wanted (hst.counts.pick hst.correlated.numbered ht) hlast
  have hanswers : ∀ answer ∈ fetches.map (answered (e.pick m)), answer = .null ∨ S answer :=
    fun answer hmem => hf.answered hmem
  have hoffers : ∀ answer ∈ fetches.map (answered (e.pick m)), answer.offersActions = true := by
    intro answer hmem
    rcases hanswers answer hmem with rfl | hanswer
    · rfl
    · exact hS answer hanswer
  have hplaces := PresentedDiagnostic.placeAll_of_ofJson? ⟨(e.pick m).viewText doc⟩
    (.str begun.document.language) hread hoffers
  have hrun := (runOf_gathers hframes m (awaited t.waiting e) e).resolve_left (by simp [hflag, hv])
  rcases placeDiagnostics_cases doc sent (fetches.map (answered (e.pick m)))
    (.str begun.document.language) generation (e.pick m) with
    ⟨hstale, _⟩ | ⟨_, ⟨f, herror, _⟩ | ⟨presented, hpresented, heq⟩⟩
  · exact absurd hstale hwanted
  · rw [hplaces] at herror
    cases herror
  · rw [hplaces] at hpresented
    have hplaced : Placed W S sent presented := by
      refine ⟨read, _, begun, s, hread, by simp [hlen], hanswers, hw, hst.seen s hs, ?_⟩
      rw [← Except.ok.inj hpresented, viewText, hs']
      rfl
    have hrests : Aloof (reached (runOf m t (awaited t.waiting e) e)).2 _ :=
      (rests_runTask m t _ e).aloof
    rw [hrun, heq] at hrests
    intro generation' sent' hlast'
    rw [hrests.discreet.publications] at hlast'
    change (publications doc ((e.pick m).showDiagnostics doc (.after generation) presented).history).getLast?
      = _ at hlast'
    rw [publications_showDiagnostics, show (e.pick m).history = e.history from rfl, hlast] at hlast'
    cases hlast'
    exact .inr (shows_shown hs' hplaced hrests.discreet)

/-- The code actions that a task waited for are there: if it is those of the newest publication, it is
    shown, and if not, nothing is. -/
theorem Current.gathered {fallback : Json} (h : Current W S doc e) (hst : Untroubled W S doc e)
    (hS : ∀ answer, S answer → answer.offersActions = true) (ht : e.tasks.get? m = some t)
    (hframes : t.frames = [.actionsGathered doc sent fetches fallback (.after generation)]) :
    Current W S doc (e.runTask m t (awaited t.waiting e)) := by
  have hplace := place_of_get? ht
  have hgathers : Gathers doc m generation sent e :=
    ⟨fetches, fallback, t.waiting, by rw [hplace, Task.place, hframes]⟩
  obtain ⟨hmem, hnot⟩ := hst.lined.pending m generation sent hgathers
  by_cases hstale : Stale doc .diagnostics generation e
  · have hno : ∀ generation' sent', (publications doc e.history).getLast? = some (generation', sent') →
        ¬ Gathers doc m generation' sent' e := by
      rintro generation' sent' hlast ⟨_, _, _, hk⟩
      rw [hplace, Task.place, hframes] at hk
      simp only [Option.some.injEq, Prod.mk.injEq, List.cons.injEq, Frame.actionsGathered.injEq,
        Superseding.after.injEq, and_true, true_and] at hk
      obtain ⟨⟨_, _, _, rfl⟩, _⟩ := hk
      exact hst.lined.wanted hst.counts hlast hstale
    rcases runOf_gathers hframes m (awaited t.waiting e) e with ⟨_, o', hrun⟩ | hrun
    · exact h.ended hst ht (.refl _) hrun hno
    · rcases placeDiagnostics_cases doc sent (fetches.map (answered (e.pick m))) fallback generation
        (e.pick m) with ⟨_, r, heq, hd, _⟩ | ⟨hwanted, _⟩
      · exact h.ended hst ht hd (hrun.trans heq) hno
      · exact absurd hstale hwanted
  · have hlast := hst.lined.latest hst.counts hst.guarded hmem hstale
    rcases h generation sent hlast with
      ⟨k, fetches', group, begun, read, hw, hread, hlen, hh, hf, hk⟩ | ⟨_, _, _, hshown⟩
    · -- the task that waits for the newest publication is this one
      obtain rfl := hst.lined.apart k m generation sent sent ⟨_, _, _, hk⟩ hgathers
      obtain ⟨hframes', hwaiting⟩ := Prod.mk.inj (Option.some.inj (hplace.symm.trans hk))
      exact hst.completes hS ht hlast hw hread hlen hh hf hframes' hwaiting
    · exact absurd hshown (hnot _)

/-- Code actions that are fetched together are on their way. -/
theorem fetched_begun {since : Nat} {read : List Diagnostic} (hn : Numbered e)
    (hsp : Spared none since e')
    (hread : sent.mapM Diagnostic.ofJson? = some read)
    (hplaces : ∀ k place, e.nextRef ≤ k → (fetching doc sent e).2.places.get? k = some place →
      e'.places.get? k = some place) :
    Fetched S doc (fetching doc sent e).1 e' := by
  intro r hr
  obtain ⟨k, op, hop, rfl, hge, _, hplace⟩ := hn.places_spawnAll _ r hr
  obtain ⟨v, hv, rfl⟩ := List.mem_map.mp hop
  obtain ⟨d, hd⟩ := Diagnostic.read_of_mem hread v hv
  have hk := hplaces k _ hge hplace
  rw [get?_places] at hk
  obtain ⟨t, ht, htp⟩ := Option.map_eq_some_iff.mp hk
  obtain ⟨hframes, hwaiting⟩ := Prod.mk.inj htp
  change t.frames = _ at hframes
  change t.waiting = none at hwaiting
  refine ⟨k, v, d, rfl, hd, .goes ht (hframes ▸ .begins) ?_ (by simp [hwaiting]) (hsp.opened k t ht).2⟩
  exact Hoped.of_no_request (by simp [hframes, Frame.request?]) e'

/-- The newest publication is the one that has just begun. -/
theorem current_publish (hs : e.session? doc = some s)
    (hd : publications doc e'.history = publications doc (e.publish doc sent).history)
    (h : Expects W S doc (s.generation .diagnostics + 1) sent e' ∨
      Shows W S doc (s.generation .diagnostics + 1) sent e') : Current W S doc e' := by
  intro generation sent' hlast
  rw [hd, publications_publish hs, List.getLast?_concat] at hlast
  cases hlast
  exact h

/-- A publication without diagnostics begins, and is shown at once. -/
theorem Untroubled.begins_nil {place : Json} (hst : Untroubled W S doc e) (hs : e.session? doc = some s)
    (hrun : runOf m t o e = ((e.pick m).publish doc []).present doc []
      .server place (.after (s.generation .diagnostics + 1))) :
    Current W S doc (e.runTask m t o) := by
  have hs' : (e.pick m).session? doc = some s := hs
  have hrests : Aloof (reached (runOf m t o e)).2 _ := (rests_runTask m t o e).aloof
  rw [hrun, present_nil rfl (not_stale_publish hs' [])] at hrests
  obtain ⟨s₁, hs₁, _⟩ := session?_publish hs' []
  have hplaced : Placed W S [] [] := ⟨[], [], s, s, rfl, rfl, by simp, hst.seen s hs, hst.seen s hs, rfl⟩
  refine current_publish hs' ?_ (.inr (shows_shown hs₁ hplaced hrests.discreet))
  exact hrests.discreet.publications.trans (publications_showDiagnostics ..)

/-- A publication begins, and waits for its code actions. -/
theorem Untroubled.begins_cons {read : List Diagnostic} (hst : Untroubled W S doc e)
    (hs : e.session? doc = some s) (hne : sent ≠ [])
    (hread : sent.mapM Diagnostic.ofJson? = some read) (ht : e.tasks.get? m = some t)
    (hrun : runOf m t o e = ((e.pick m).publish doc sent).present doc sent
      .server (.str s.document.language) (.after (s.generation .diagnostics + 1))) :
    Current W S doc (e.runTask m t o) := by
  have hs' : (e.pick m).session? doc = some s := hs
  have hrests : Rests m (runOf m t o e) _ := rests_runTask m t o e
  have hself := place_runTask m t o e
  obtain ⟨n, hran⟩ := hst.spared.ran hst.correlated ht o
  have hlands : Lands m (runOf m t o e) _ := hran.lands
  have hsame : Harmless n [] (e.pick m) ((e.pick m).publish doc sent) :=
    harmless_of_eq (Nat.le_refl _) rfl rfl rfl rfl
  have hpublished : Spared n e.nextRef ((e.pick m).publish doc sent) :=
    (hst.spared.pick ht (hran.who.imp And.left id)).harmless hsame
  have hn : Numbered ((e.pick m).publish doc sent) :=
    (hst.correlated.pick ht).numbered.grows (.of_tasks rfl (Nat.le_refl _) rfl)
  rw [hrun, present_cons hne] at hrests hself hlands
  have hd : Discreet doc ((e.pick m).publish doc sent) _ :=
    (Path.discreet (path_fetching doc sent _) not_presenting_nil).1.trans hrests.aloof.discreet
  refine current_publish hs' hd.publications (.inl ⟨m, _, _, s, read, hst.seen s hs, hread, ?_, ?_, ?_, hself⟩)
  · rw [length_spawnAll, List.length_map]
  · refine hlands.herded ((hpublished.harmless (harmless_spawnAll _ _)).herded_gather (nodup_spawnAll _ _) fun r hr => ?_)
    obtain ⟨k, _, _, hk, _, _, hplace⟩ := hn.places_spawnAll _ r hr
    obtain ⟨t, ht, _⟩ := Option.map_eq_some_iff.mp ((get?_places ..).symm.trans hplace)
    exact ⟨k, t, hk, ht⟩
  · refine fetched_begun hn (hst.spared.runTask hst.correlated ht o) hread fun k place hge hk => ?_
    have hkm : k ≠ m := by
      rintro rfl
      have hlt := hst.correlated.numbered.lt k (Table.mem_keys_iff.mpr ⟨t, ht⟩)
      exact absurd hlt (Nat.not_lt.mpr hge)
    rw [hrests.places, if_neg hkm]
    exact (congrArg (Table.get? k) (places_gather ..)).trans hk

/-- A task runs that presents the diagnostics of the document. -/
theorem Current.runTask (h : Current W S doc e) (hst : Untroubled W S doc e)
    (hS : ∀ answer, S answer → answer.offersActions = true) (ht : e.tasks.get? m = some t)
    (hp : Presenting doc t.frames) : Current W S doc (e.runTask m t (awaited t.waiting e)) := by
  have hplace := place_of_get? ht
  rcases hst.lined.stands m t.place hplace hp with
    ⟨params, hframes⟩ | ⟨sent, fetches, fallback, generation, hframes⟩
  · have hmem : .begin (.processDiagnostics doc params) ∈ e.held :=
      mem_held_of_place hplace (hframes ▸ List.mem_singleton_self _)
    change t.frames = _ at hframes
    obtain ⟨_, x, heq, hx⟩ := hst.guarded.publishes hmem rfl
    cases heq
    rcases runOf_begins hx (fun s hs => (hst.guarded.session s hs).2) hframes m
      (awaited t.waiting e) with ⟨o', hrun⟩ | ⟨s, hs, hrun⟩
    · refine h.ended hst ht (.refl _) hrun ?_
      rintro generation sent _ ⟨_, _, _, hk⟩
      rw [hplace, Task.place, hframes] at hk
      simp at hk
    · obtain ⟨_, _, _, hread⟩ := Publication.get_of_ofJson? hx
      by_cases hnil : x.sent = []
      · rw [hnil] at hrun
        exact hst.begins_nil hs hrun
      · exact hst.begins_cons hs hnil hread ht hrun
  · exact h.gathered hst hS ht hframes

/-! ### All that happens -/

/-- As long as the outside cancels nothing, the newest publication is shown, or waits to be. -/
theorem Current.act {a : Action} (h : Current W S doc e) (hst : Untroubled W S doc e) (hat : Attended e)
    (hS : ∀ answer, S answer → answer.offersActions = true) (ha : a.spares = true) :
    Current W S doc (e.act a) := by
  by_cases hrun : a = .run
  · subst hrun
    rcases hst.correlated.numbered.passes_runNext doc with hp | ⟨e₁, m, t, ht, hsessions, hget, hp, heq⟩
    · exact h.passes hst rfl hp
    · change Current W S doc e.runNext
      rw [heq]
      exact (h.tallies hst ht).runTask (hst.tallies ht hsessions) hS hget hp
  · exact h.passes hst ha (hat.passes_act hrun doc)

theorem current_create (options : ClientOptions) (script : ServerScript) :
    Current W S doc (create options script) := by
  intro generation sent hlast
  cases hlast

theorem Current.after (hS : ∀ answer, S answer → answer.offersActions = true) :
    ∀ (actions : List Action) {e : Engine}, Current W S doc e → Attended e →
    (∀ a ∈ actions, a.spares = true) →
    (∀ before after, actions = before ++ after → Untroubled W S doc (e.after before)) →
    Current W S doc (e.after actions)
  | [], _, h, _, _, _ => h
  | a :: rest, e, h, hat, ha, hst => by
      have hact := h.act (hst [] _ rfl) hat hS (ha a (List.mem_cons_self ..))
      exact Current.after hS rest hact (hat.act a) (fun b hb => ha b (List.mem_cons_of_mem _ hb))
        fun before after heq => hst (a :: before) after (by rw [heq, List.cons_append])

/-- The document guards against what is out of date in every state on the way. -/
def GuardedAlong (doc : Nat) : Engine → List Action → Prop
  | e, [] => Guarded doc e
  | e, a :: rest => Guarded doc e ∧ GuardedAlong doc (e.act a) rest

instance (doc : Nat) : ∀ (e : Engine) (actions : List Action), Decidable (GuardedAlong doc e actions)
  | e, [] => inferInstanceAs (Decidable (Guarded doc e))
  | e, a :: rest =>
    have := instDecidableGuardedAlong doc (e.act a) rest
    inferInstanceAs (Decidable (Guarded doc e ∧ GuardedAlong doc (e.act a) rest))

theorem GuardedAlong.first : ∀ {actions : List Action} {e : Engine}, GuardedAlong doc e actions →
    Guarded doc e
  | [], _, h => h
  | _ :: _, _, h => h.1

theorem GuardedAlong.last : ∀ (actions : List Action) {e : Engine}, GuardedAlong doc e actions →
    Guarded doc (e.after actions)
  | [], _, h => h
  | _ :: rest, _, h => GuardedAlong.last rest h.2

theorem GuardedAlong.start : ∀ {before after : List Action} {e : Engine},
    GuardedAlong doc e (before ++ after) → GuardedAlong doc e before
  | [], _, _, h => h.first
  | _ :: _, _, _, h => ⟨h.1, GuardedAlong.start h.2⟩

/-- In a document that guards against what is out of date, diagnostics are shown in order. -/
theorem Lined.after : ∀ (actions : List Action) {e : Engine}, Lined doc e → Counts ([], e) →
    Attended e → GuardedAlong doc e actions → Lined doc (e.after actions)
  | [], _, h, _, _, _ => h
  | a :: rest, _, h, hcounts, ha, hg =>
      Lined.after rest (h.act hcounts ha hg.1 hg.2.first) (enduring_counts.act hcounts ha a) (ha.act a) hg.2

/-- What the server has suggested stays suggested. -/
theorem mem_suggestions_after {answer : Json} (actions : List Action) (ha : Attended e)
    (hanswering : Answering ([], e)) (h : answer ∈ e.suggestions) :
    answer ∈ (e.after actions).suggestions := by
  obtain ⟨id, v, hcalled, ho, hanswer⟩ := mem_suggestions.mp h
  have hs := standing_of_outcome? ho
  have hfirm : Firm id (.value v) ([], e) := ⟨hanswering.known id _ hs, hs⟩
  obtain ⟨more, hh⟩ := (lasts_after actions e).history
  exact mem_suggestions.mpr ⟨id, v, hh ▸ List.mem_append_left _ hcalled,
    outcome?_of_standing ((enduring_firm id (.value v)).after actions hfirm ha).settled, hanswer⟩

/-- The document stands so at some time on the way. -/
def Passed (doc : Nat) (e : Engine) (actions : List Action) (s : Session) : Prop :=
  ∃ before after, actions = before ++ after ∧ (e.after before).session? doc = some s

/-- All that happens to a document that shows diagnostics and guards against what is out of date, as long as
    what is published for it is well formed. A publication for another document changes nothing, and one
    for the document becomes its newest. Publications are numbered as they begin, and whatever is shown
    is the newest publication at that time, and later than all that was shown before. If the outside
    cancels nothing, and the server answers calls for code actions with nothing or with actions, then
    once no task presents diagnostics any more, the document shows those of its newest publication. -/
theorem published_newest (options : ClientOptions) (script : ServerScript) (actions : List Action)
    (doc : Nat) (hguarded : GuardedAlong doc (create options script) actions) :
    let e := (create options script).after actions
    (∀ s params x, e.session? doc = some s → Publication.ofJson? params = some x →
      (x.uri ≠ s.document.uri →
        e.perform (.processDiagnostics doc params) = (e, .done (.value .nothing))) ∧
      (x.uri = s.document.uri → ∃ generation,
        publications doc (reached (e.perform (.processDiagnostics doc params))).2.history =
          publications doc e.history ++ [(generation, x.sent)])) ∧
    ((publications doc e.history).map Prod.fst).Pairwise (· < ·) ∧ ShownInOrder doc e.history ∧
    ((∀ a ∈ actions, a.spares = true) → (∀ answer ∈ e.suggestions, answer.offersActions = true) →
      ¬ Presenting doc e.held → ∀ generation sent,
      (publications doc e.history).getLast? = some (generation, sent) →
      Shows (Passed doc (create options script) actions) (· ∈ e.suggestions) doc generation sent e) := by
  intro e
  have hstart := attended_create options script
  have hcounts (actions : List Action) : Counts ([], (create options script).after actions) :=
    enduring_counts.after actions (counts_create options script) hstart
  have hlined {actions : List Action} (hg : GuardedAlong doc (create options script) actions) :
      Lined doc ((create options script).after actions) :=
    Lined.after actions (lined_create options script doc) (counts_create options script) hstart hg
  refine ⟨fun s params x hs hx => ⟨processDiagnostics_other hs hx, fun huri => ?_⟩,
    (hlined hguarded).increasing (hcounts actions), (hlined hguarded).order,
    fun hspares hoffers hdone generation sent hlast => ?_⟩
  · have hon := ((GuardedAlong.last actions hguarded).session s hs).2
    have hp : e.perform (.processDiagnostics doc params) = _ := processDiagnostics_own hs hx huri hon
    refine ⟨s.generation .diagnostics + 1, ?_⟩
    rw [hp, publications_present, publications_publish hs]
  · have hsteady (before after : List Action) (hsplit : actions = before ++ after) :
        Untroubled (Passed doc (create options script) actions) (· ∈ e.suggestions) doc
          ((create options script).after before) := by
      have hg : GuardedAlong doc (create options script) before := (hsplit ▸ hguarded).start
      have hanswering : Answering ([], (create options script).after before) :=
        enduring_answering.after before (answering_create options script) hstart
      exact {
        correlated := (correlated_create options script).after before
        counts := hcounts before
        spared := (spared_create options script).after before (correlated_create options script)
          fun a ha => hspares a (hsplit ▸ List.mem_append_left _ ha)
        advised := {
          answering := hanswering
          called := enduring_called.after before (called_create options script) hstart
          suggested := fun answer hmem => by
            have hlater := mem_suggestions_after after (hstart.after before) hanswering hmem
            rwa [← after_append, ← hsplit] at hlater }
        guarded := GuardedAlong.last before hg
        lined := hlined hg
        seen := fun s hs => ⟨before, after, hsplit, hs⟩ }
    have hcurrent := Current.after hoffers actions (current_create options script) hstart hspares hsteady
    rcases hcurrent generation sent hlast with ⟨k, fetches, group, s, read, _, _, _, _, _, hk⟩ | hshows
    · have hmem : .actionsGathered doc sent fetches (.str s.document.language) (.after generation) ∈ e.held :=
        mem_held_of_place hk (List.mem_singleton_self _)
      exact (hdone ⟨_, hmem, rfl⟩).elim
    · exact hshows

/-- A server that takes its time over the first code actions that it is asked for. -/
def ponderous : ServerScript where
  capabilities := .obj [("codeActionProvider", .bool true)]
  replies := [("textDocument/codeAction", [.message [("result", .arr [])] 20,
    .message [("result", .arr [.obj [("title", .str "Fix")]])] 0])]

/-- A document is told that something is wrong at the beginning of some document. -/
def faulted (uri message : String) : Action :=
  let place : Json := .obj [("line", .int 0), ("character", .int 0)]
  .tell 0 (.str "textDocument/publishDiagnostics") (.obj [("uri", .str uri), ("diagnostics", .arr [
    .obj [("range", .obj [("start", place), ("end", place)]), ("message", .str message)]])])

/-- Two publications for a document, and one between them for another. The code actions of the newer one
    are there first. -/
def faultedTwice : List Action :=
  [[.addSession { document := { uri := "file:///doc", language := "python", incremental := false,
                                text := ['a'] }
                  view := { text := ['a'] } }, .start], runs 8,
    [faulted "file:///doc" "old", faulted "file:///other" "else", faulted "file:///doc" "new"],
    runs 12, [.ring 20], runs 7].flatten

/-- The newer publication is shown, and the older one is not shown after it. -/
theorem faultedTwice_newest :
    let start := create usual ponderous
    let e := start.after faultedTwice
    GuardedAlong 0 start faultedTwice ∧ (publications 0 e.history).map Prod.fst = [1, 2] ∧
      ShownInOrder 0 e.history ∧ ∃ sent, (publications 0 e.history).getLast? = some (2, sent) ∧
        Shows (Passed 0 start faultedTwice) (· ∈ e.suggestions) 0 2 sent e := by
  intro start e
  obtain ⟨hguarded, hspares, hoffers, hdone, hnumbers⟩ : GuardedAlong 0 start faultedTwice ∧
      (∀ a ∈ faultedTwice, a.spares = true) ∧
      (∀ answer ∈ e.suggestions, answer.offersActions = true) ∧ ¬ Presenting 0 e.held ∧
      (publications 0 e.history).map Prod.fst = [1, 2] := by decide +kernel
  obtain ⟨_, _, horder, hnewest⟩ := published_newest usual ponderous faultedTwice 0 hguarded
  obtain ⟨last, hlast, hlast₂⟩ : ∃ last, (publications 0 e.history).getLast? = some last ∧ last.1 = 2 := by
    have h : ((publications 0 e.history).map Prod.fst).getLast? = some 2 := by rw [hnumbers]; rfl
    rw [List.getLast?_map] at h
    exact Option.map_eq_some_iff.mp h
  obtain ⟨generation, sent⟩ := last
  obtain rfl : generation = 2 := hlast₂
  exact ⟨hguarded, hnumbers, horder, sent, hlast, hnewest hspares hoffers hdone 2 sent hlast⟩

end Engine

end LanguageClient
