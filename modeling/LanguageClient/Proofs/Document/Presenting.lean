import LanguageClient.Proofs.Document.Publications

/-!
The tasks that show diagnostics. Each places the diagnostics of one publication: it begins them under the
next number, waits for their code actions, and then shows them unless a later publication has begun.
So no task shows diagnostics that are out of date, and each shows its own once (`Lined`).

    begin ──▶ published n ──▶ gathers n ──▶ shown n, if n is still the newest
                                    └─▶ nothing
-/

namespace LanguageClient

/-! ### Publications -/

namespace Publication

variable {params : Json} {x : Publication}

theorem get_of_ofJson? (h : ofJson? params = some x) : params.truthy = true ∧
    params.get "uri" = .ok (.str x.uri) ∧ params.get "diagnostics" = .ok (.arr x.sent) ∧
    x.sent.mapM Diagnostic.ofJson? = some x.read := by
  simp only [ofJson?, bind, Option.bind_eq_some_iff, pure, Option.some.injEq] at h
  obtain ⟨name, huri, uri, hname, list, hlist, sent, hsent, read, hread, rfl⟩ := h
  obtain rfl := Json.eq_str_of_str? hname
  obtain rfl := Json.eq_arr_of_arr? hsent
  refine ⟨?_, by simp [Json.get_of_member? huri, huri], by simp [Json.get_of_member? huri, hlist], hread⟩
  cases params with
  | obj ms =>
    cases ms with
    | nil => cases huri
    | cons entry rest => rfl
  | _ => cases huri

/-- A publication is for the document if it names the document's URI. -/
theorem published?_of_ofJson? (h : ofJson? params = some x) (uri : String) :
    Engine.published? uri params = .ok (x.uri = uri) := by
  obtain ⟨htruthy, huri, _⟩ := get_of_ofJson? h
  simp [Engine.published?, htruthy, huri, bind, Except.bind, pure, Except.pure, Json.same,
    beq_eq_decide]

end Publication

/-- A task that is to begin, and presents the diagnostics of the document, has been told of a publication
    that is well formed. -/
def Frame.publishes (doc : Nat) : Frame → Bool
  | .begin (.processDiagnostics doc' params) => doc' ≠ doc || (Publication.ofJson? params).isSome
  | .begin (.present doc' ..) => doc' ≠ doc
  | _ => true

namespace Engine

variable {doc k m generation : Nat} {e e' r : Engine} {params : Json} {x : Publication} {s : Session}
  {sent : List Json} {o : Outcome} {t : Task}

/-- A publication begins under the next number. -/
def publish (doc : Nat) (sent : List Json) (e : Engine) : Engine :=
  (e.beginGeneration doc .diagnostics).2.note
    (.published doc (e.beginGeneration doc .diagnostics).1 sent)

theorem history_publish (hs : e.session? doc = some s) (sent : List Json) :
    (e.publish doc sent).history = e.history ++
      [.posed doc .diagnostics (s.generation .diagnostics + 1),
        .published doc (s.generation .diagnostics + 1) sent] := by
  simp only [publish, note, history_beginGeneration .diagnostics hs, List.append_assoc]
  simp [beginGeneration, hs]

theorem session?_publish (hs : e.session? doc = some s) (sent : List Json) :
    ∃ s', (e.publish doc sent).session? doc = some s' ∧
      s'.generation .diagnostics = s.generation .diagnostics + 1 := by
  have hsession := session?_beginGeneration .diagnostics hs doc
  rw [if_pos rfl] at hsession
  exact ⟨_, hsession, by simp⟩

/-- Diagnostics published for another document change nothing. -/
theorem processDiagnostics_other (hs : e.session? doc = some s) (hx : Publication.ofJson? params = some x)
    (hne : x.uri ≠ s.document.uri) : e.processDiagnostics doc params = (e, .done (.value .nothing)) := by
  simp only [processDiagnostics, withSession, hs, Publication.published?_of_ofJson? hx, hne,
    decide_false]
  rfl

/-- Diagnostics published for the document are placed under the next number. -/
theorem processDiagnostics_own (hs : e.session? doc = some s) (hx : Publication.ofJson? params = some x)
    (huri : x.uri = s.document.uri) (hon : s.features.on .diagnostics = true) :
    e.processDiagnostics doc params = (e.publish doc x.sent).present doc x.sent .server
      (.str s.document.language) (.after (s.generation .diagnostics + 1)) := by
  obtain ⟨_, _, hlist, _⟩ := Publication.get_of_ofJson? hx
  have hitems : ((Json.arr x.sent).orElse (.arr [])).items = .ok x.sent := by
    cases x.sent <;> rfl
  have hgeneration : (e.beginGeneration doc .diagnostics).1 = s.generation .diagnostics + 1 := by
    simp [beginGeneration, hs]
  simp only [processDiagnostics, withSession, hs, Publication.published?_of_ofJson? hx, huri,
    decide_true, hon, Bool.not_true, Bool.false_eq_true, if_false, hlist, bind, Except.bind, hitems,
    publish, hgeneration]

/-- A publication is not for the document, or it begins. -/
theorem processDiagnostics_cases (hx : Publication.ofJson? params = some x)
    (hon : ∀ s, e.session? doc = some s → s.features.on .diagnostics = true) :
    (∃ o, e.processDiagnostics doc params = (e, .done o)) ∨
    ∃ s, e.session? doc = some s ∧ e.processDiagnostics doc params =
      (e.publish doc x.sent).present doc x.sent .server (.str s.document.language)
        (.after (s.generation .diagnostics + 1)) := by
  cases hs : e.session? doc with
  | none => exact .inl ⟨_, by rw [processDiagnostics, withSession, hs]; rfl⟩
  | some s =>
    by_cases huri : x.uri = s.document.uri
    · exact .inr ⟨s, rfl, processDiagnostics_own hs hx huri (hon s hs)⟩
    · exact .inl ⟨_, processDiagnostics_other hs hx huri⟩

/-- What is placed is dropped if it is out of date, and shown if not, unless it cannot be placed. -/
theorem placeDiagnostics_cases (doc : Nat) (diagnostics actions : List Json) (fallback : Json)
    (generation : Nat) (e : Engine) :
    (Stale doc .diagnostics generation e ∧ ∃ e', e.placeDiagnostics doc diagnostics actions fallback
        (.after generation) = (e', .done (.value .nothing)) ∧ Discreet doc e e' ∧ e'.places = e.places) ∨
    (¬ Stale doc .diagnostics generation e ∧
      ((∃ f, PresentedDiagnostic.placeAll ⟨e.viewText doc⟩ fallback diagnostics actions = .error f ∧
        e.placeDiagnostics doc diagnostics actions fallback (.after generation) =
          (e, .done (.failure f))) ∨
      ∃ presented,
        PresentedDiagnostic.placeAll ⟨e.viewText doc⟩ fallback diagnostics actions = .ok presented ∧
        e.placeDiagnostics doc diagnostics actions fallback (.after generation) =
          (e.showDiagnostics doc (.after generation) presented,
            .done (.value (.diagnostics presented))))) := by
  have hsuperseded : e.isSuperseded doc (.after generation) = e.isStale doc .diagnostics generation :=
    rfl
  rw [placeDiagnostics, hsuperseded]
  rcases isStale_cases doc .diagnostics generation e with ⟨heq, hnot⟩ | ⟨hstale, message, heq⟩
  · rw [heq]
    dsimp only
    refine .inr ⟨hnot, ?_⟩
    cases PresentedDiagnostic.placeAll ⟨e.viewText doc⟩ fallback diagnostics actions with
    | error f => exact .inl ⟨f, rfl, rfl⟩
    | ok presented => exact .inr ⟨presented, rfl, rfl⟩
  · rw [heq]
    have hlog : Discreet doc e (e.log .debug message) := discreet_of_eq rfl rfl
    exact .inl ⟨hstale, _, rfl, hlog.trans (discreet_note rfl _), rfl⟩

/-! ### Who stands where -/

/-- The document guards against what is out of date and shows diagnostics, and what it is to show was
    published as it should be. -/
@[mk_iff]
structure Guarded (doc : Nat) (e : Engine) : Prop where
  session : ∀ s ∈ e.session? doc, s.staleGuard = true ∧ s.features.on .diagnostics = true
  begins : ∀ f ∈ e.held, f.publishes doc = true

instance (doc : Nat) (e : Engine) : Decidable (Guarded doc e) :=
  decidable_of_iff' _ (guarded_iff doc e)

/-- What is to begin, and presents the diagnostics, has been told of a publication. -/
theorem Guarded.publishes {op : Operation} (h : Guarded doc e) (hmem : .begin op ∈ e.held)
    (hp : (Frame.begin op).presents? = some doc) :
    ∃ params x, op = .processDiagnostics doc params ∧ Publication.ofJson? params = some x := by
  have hpublishes := h.begins _ hmem
  cases op with
  | processDiagnostics doc' params =>
    obtain rfl : doc' = doc := Option.some.inj hp
    obtain ⟨x, hx⟩ := Option.isSome_iff_exists.mp (by simpa [Frame.publishes] using hpublishes)
    exact ⟨params, x, rfl, hx⟩
  | present doc' =>
    obtain rfl : doc' = doc := Option.some.inj hp
    simp [Frame.publishes] at hpublishes
  | _ => cases hp

/-- A task waits for the code actions of diagnostics that were published under that number. -/
def Gathers (doc k generation : Nat) (sent : List Json) (e : Engine) : Prop :=
  ∃ fetches fallback waiting, e.places.get? k =
    some ([.actionsGathered doc sent fetches fallback (.after generation)], waiting)

/-- The tasks that present diagnostics of the document, and what they have shown so far: each is to
    begin, or waits with a publication of its own that it has not shown yet. -/
structure Lined (doc : Nat) (e : Engine) : Prop where
  stands : ∀ k place, e.places.get? k = some place → Presenting doc place.1 →
    (∃ params, place.1 = [.begin (.processDiagnostics doc params)]) ∨
    ∃ sent fetches fallback generation,
      place.1 = [.actionsGathered doc sent fetches fallback (.after generation)]
  pending : ∀ k generation sent, Gathers doc k generation sent e →
    (generation, sent) ∈ publications doc e.history ∧
      ∀ presented, .shown doc (.after generation) presented ∉ e.history
  apart : ∀ k k' generation sent sent', Gathers doc k generation sent e →
    Gathers doc k' generation sent' e → k = k'
  numbered : posings doc .diagnostics e.history = (publications doc e.history).map Prod.fst
  order : ShownInOrder doc e.history

theorem lined_create (options : ClientOptions) (script : ServerScript) (doc : Nat) :
    Lined doc (create options script) where
  stands k place hk := by cases hk
  pending k generation sent h := by
    obtain ⟨_, _, _, hk⟩ := h
    cases hk
  apart k k' generation sent sent' h := by
    obtain ⟨_, _, _, hk⟩ := h
    cases hk
  numbered := rfl
  order before superseding presented after h := by simp [create] at h

theorem Gathers.presenting {place : List Frame × Option Ref} (h : Gathers doc k generation sent e)
    (hk : e.places.get? k = some place) : Presenting doc place.1 := by
  obtain ⟨fetches, fallback, waiting, hplace⟩ := h
  obtain rfl := Option.some.inj (hplace.symm.trans hk)
  exact presenting_cons rfl

/-- Nothing has happened to the diagnostics, and no task has come to wait for code actions. -/
theorem Lined.discreet (h : Lined doc e) (hd : Discreet doc e e')
    (hc : ∀ k place, e'.places.get? k = some place → Presenting doc place.1 →
      e.places.get? k = some place ∨ ∃ params, place.1 = [.begin (.processDiagnostics doc params)]) :
    Lined doc e' := by
  have hgathers {k generation : Nat} {sent : List Json} (hg : Gathers doc k generation sent e') :
      Gathers doc k generation sent e := by
    obtain ⟨fetches, fallback, waiting, hk⟩ := hg
    rcases hc k _ hk (presenting_cons rfl) with hold | ⟨params, hbegin⟩
    · exact ⟨fetches, fallback, waiting, hold⟩
    · cases hbegin
  refine ⟨fun k place hk hp => ?_, fun k generation sent hg => ?_, fun k k' generation sent sent' hg hg' =>
    h.apart k k' generation sent sent' (hgathers hg) (hgathers hg'), ?_, hd.order h.order⟩
  · exact (hc k place hk hp).elim (fun hold => h.stands k place hold hp) .inl
  · obtain ⟨hmem, hnot⟩ := h.pending k generation sent (hgathers hg)
    exact ⟨hd.publications.symm ▸ hmem, fun presented hshown => hnot presented (hd.of_shown hshown)⟩
  · rw [hd.posings, hd.publications]
    exact h.numbered

/-- A task has come to wait for the code actions of a publication that no other waits with. -/
theorem Lined.waits {fetches : List Ref} {fallback : Json} {waiting : Option Ref} (h : Lined doc e)
    (hd : Discreet doc e e')
    (hc : ∀ k place, k ≠ m → e'.places.get? k = some place → Presenting doc place.1 →
      e.places.get? k = some place ∨ ∃ params, place.1 = [.begin (.processDiagnostics doc params)])
    (hm : e'.places.get? m =
      some ([.actionsGathered doc sent fetches fallback (.after generation)], waiting))
    (hmem : (generation, sent) ∈ publications doc e.history)
    (hnot : ∀ presented, .shown doc (.after generation) presented ∉ e.history)
    (hno : ∀ k sent, ¬ Gathers doc k generation sent e) : Lined doc e' := by
  have hgathers {k generation' : Nat} {sent' : List Json} (hg : Gathers doc k generation' sent' e') :
      (k = m ∧ generation' = generation ∧ sent' = sent) ∨ Gathers doc k generation' sent' e := by
    obtain ⟨fetches', fallback', waiting', hk⟩ := hg
    by_cases hkm : k = m
    · subst hkm
      have hsame := hm.symm.trans hk
      simp only [Option.some.injEq, Prod.mk.injEq, List.cons.injEq, Frame.actionsGathered.injEq,
        Superseding.after.injEq, and_true, true_and] at hsame
      exact .inl ⟨rfl, hsame.1.2.2.2.symm, hsame.1.1.symm⟩
    · rcases hc k _ hkm hk (presenting_cons rfl) with hold | ⟨params, hbegin⟩
      · exact .inr ⟨fetches', fallback', waiting', hold⟩
      · cases hbegin
  refine ⟨fun k place hk hp => ?_, fun k generation' sent' hg => ?_, fun k k' generation' sent₁ sent₂ hg hg' => ?_,
    ?_, hd.order h.order⟩
  · by_cases hkm : k = m
    · subst hkm
      obtain rfl := Option.some.inj (hm.symm.trans hk)
      exact .inr ⟨sent, fetches, fallback, generation, rfl⟩
    · exact (hc k place hkm hk hp).elim (fun hold => h.stands k place hold hp) .inl
  · rcases hgathers hg with ⟨_, rfl, rfl⟩ | hg
    · exact ⟨hd.publications.symm ▸ hmem, fun presented hshown => hnot presented (hd.of_shown hshown)⟩
    · obtain ⟨hmem', hnot'⟩ := h.pending k generation' sent' hg
      exact ⟨hd.publications.symm ▸ hmem', fun presented hshown => hnot' presented (hd.of_shown hshown)⟩
  · rcases hgathers hg with ⟨rfl, rfl, rfl⟩ | hold <;> rcases hgathers hg' with ⟨rfl, hsame, rfl⟩ | hold'
    · rfl
    · exact absurd hold' (hno k' sent₂)
    · exact absurd (hsame ▸ hold) (hno k sent₁)
    · exact h.apart k k' generation' sent₁ sent₂ hold hold'
  · rw [hd.posings, hd.publications]
    exact h.numbered

/-- A task that is to begin, and presents the diagnostics, has been told of a publication. -/
theorem Guarded.begun {op : Operation} (hg : Guarded doc e)
    (hk : e.places.get? k = some ([.begin op], none)) (hp : Presenting doc [.begin op]) :
    ∃ params x, op = .processDiagnostics doc params ∧ Publication.ofJson? params = some x := by
  obtain ⟨f, hf, hdoc⟩ := hp
  obtain rfl := List.mem_singleton.mp hf
  exact hg.publishes (mem_held_of_place hk (List.mem_singleton_self _)) hdoc

theorem Lined.passes (h : Lined doc e) (hp : Passes doc e e') (hg : Guarded doc e') : Lined doc e' := by
  refine h.discreet hp.toDiscreet fun k place hk hpresents => ?_
  rcases hp.comes k place hk hpresents with hold | ⟨op, rfl⟩
  · exact .inl hold
  · obtain ⟨params, _, rfl, _⟩ := hg.begun hk hpresents
    exact .inr ⟨params, rfl⟩

/-! ### A publication begins -/

/-- The numbers of publications go up. -/
theorem Lined.increasing (h : Lined doc e) (hc : Counts ([], e)) :
    ((publications doc e.history).map Prod.fst).Pairwise (· < ·) :=
  h.numbered ▸ hc.increasing doc .diagnostics

/-- The document is there for which something was published. -/
theorem Lined.posed (h : Lined doc e) (hc : Counts ([], e))
    (hmem : (generation, sent) ∈ publications doc e.history) :
    ∃ s, e.session? doc = some s ∧ generation ≤ s.generation .diagnostics ∧
      s.generation .diagnostics ∈ (publications doc e.history).map Prod.fst := by
  have hposed : generation ∈ posings doc .diagnostics e.history :=
    h.numbered ▸ List.mem_map.mpr ⟨_, hmem, rfl⟩
  obtain ⟨s, hs, hnewest, hall⟩ := hc.newest doc .diagnostics (List.ne_nil_of_mem hposed)
  exact ⟨s, hs, hall generation hposed, h.numbered ▸ hnewest⟩

/-- The next number is greater than that of any publication so far. -/
theorem Lined.newest (h : Lined doc e) (hc : Counts ([], e)) (hs : e.session? doc = some s)
    (hmem : (generation, sent) ∈ publications doc e.history) : generation ≤ s.generation .diagnostics := by
  obtain ⟨s', hs', hle, _⟩ := h.posed hc hmem
  obtain rfl : s = s' := Option.some.inj (hs.symm.trans hs')
  exact hle

theorem publications_publish (hs : e.session? doc = some s) (sent : List Json) :
    publications doc (e.publish doc sent).history =
      publications doc e.history ++ [(s.generation .diagnostics + 1, sent)] := by
  rw [history_publish hs, publications_append]
  simp [publications, List.filterMap_cons, Event.publication?]

theorem Lined.publish (h : Lined doc e) (hs : e.session? doc = some s) (sent : List Json) :
    Lined doc (e.publish doc sent) := by
  have hpublications := publications_publish hs sent
  have hnew (superseding : Superseding) (presented : List PresentedDiagnostic) :
      .shown doc superseding presented ∉ [Event.posed doc .diagnostics (s.generation .diagnostics + 1),
        .published doc (s.generation .diagnostics + 1) sent] := by simp
  refine ⟨h.stands, fun k generation sent' hg => ?_, h.apart, ?_, ?_⟩
  · obtain ⟨hmem, hnot⟩ := h.pending k generation sent' hg
    refine ⟨hpublications ▸ List.mem_append_left _ hmem, fun presented hshown => ?_⟩
    rw [history_publish hs, List.mem_append] at hshown
    exact hshown.elim (hnot presented) (hnew _ _)
  · rw [hpublications, history_publish hs, posings_append, List.map_append, h.numbered]
    simp [posings, List.filterMap_cons, Event.posing?]
  · rw [history_publish hs]
    exact h.order.append hnew

theorem Lined.increasing_publish (h : Lined doc e) (hc : Counts ([], e)) (hs : e.session? doc = some s)
    (sent : List Json) :
    ((publications doc (e.publish doc sent).history).map Prod.fst).Pairwise (· < ·) := by
  rw [publications_publish hs, List.map_append, List.pairwise_append]
  refine ⟨h.increasing hc, List.pairwise_singleton _ _, fun generation hmem next hnext => ?_⟩
  obtain ⟨entry, hentry, rfl⟩ := List.mem_map.mp hmem
  obtain rfl : next = s.generation .diagnostics + 1 := by simpa using hnext
  exact Nat.lt_succ_of_le (h.newest hc hs hentry)

/-- Nothing is shown under the next number, and no task waits with it. -/
theorem Lined.unclaimed (h : Lined doc e) (hc : Counts ([], e)) (hs : e.session? doc = some s) :
    (∀ presented, .shown doc (.after (s.generation .diagnostics + 1)) presented ∉ e.history) ∧
      ∀ k sent, ¬ Gathers doc k (s.generation .diagnostics + 1) sent e := by
  have hnone {sent : List Json} :
      (s.generation .diagnostics + 1, sent) ∉ publications doc e.history := fun hmem =>
    Nat.not_succ_le_self _ (h.newest hc hs hmem)
  refine ⟨fun presented hshown => ?_, fun k sent hg => hnone (h.pending k _ sent hg).1⟩
  obtain ⟨generation, heq, hmem⟩ := h.order.published hshown
  obtain rfl := Superseding.after.inj heq
  obtain ⟨⟨generation, sent⟩, hmem, rfl⟩ := List.mem_map.mp hmem
  exact hnone hmem

/-! ### Diagnostics are shown -/

/-- Among numbers that go up, the last one is the greatest. -/
theorem getLast?_of_max {entries : List (Nat × List Json)} {last : Nat × List Json}
    (h : (entries.map Prod.fst).Pairwise (· < ·)) (hmem : last ∈ entries)
    (hmax : ∀ entry ∈ entries, entry.1 ≤ last.1) : entries.getLast? = some last := by
  obtain ⟨before, after, rfl⟩ := List.append_of_mem hmem
  cases after with
  | nil => simp
  | cons next after =>
    rw [List.map_append, List.map_cons, List.map_cons, List.pairwise_append] at h
    have hlt := List.rel_of_pairwise_cons h.2.1 (List.mem_cons_self ..)
    have hle := hmax next (by simp)
    omega

theorem le_of_getLast? {entries : List (Nat × List Json)} {entry last : Nat × List Json}
    (h : (entries.map Prod.fst).Pairwise (· < ·)) (hlast : entries.getLast? = some last)
    (hmem : entry ∈ entries) : entry.1 ≤ last.1 := by
  obtain ⟨before, rfl⟩ := List.getLast?_eq_some_iff.mp hlast
  rw [List.map_append, List.pairwise_append] at h
  rcases List.mem_append.mp hmem with hmem | hmem
  · exact Nat.le_of_lt (h.2.2 _ (List.mem_map_of_mem hmem) last.1 (by simp))
  · obtain rfl := List.mem_singleton.mp hmem
    exact Nat.le_refl _

theorem publications_showDiagnostics (doc : Nat) (superseding : Superseding)
    (presented : List PresentedDiagnostic) (e : Engine) :
    publications doc (e.showDiagnostics doc superseding presented).history =
      publications doc e.history :=
  (publications_append ..).trans (List.append_nil _)

/-- The newest publication is shown, for which no task waits. -/
theorem Lined.shown (h : Lined doc e)
    (hinc : ((publications doc e.history).map Prod.fst).Pairwise (· < ·))
    (hlast : (publications doc e.history).getLast? = some (generation, sent))
    (hnot : ∀ presented, .shown doc (.after generation) presented ∉ e.history)
    (hno : ∀ k sent, ¬ Gathers doc k generation sent e) (presented : List PresentedDiagnostic) :
    Lined doc (e.showDiagnostics doc (.after generation) presented) := by
  have hhistory : (e.showDiagnostics doc (.after generation) presented).history =
      e.history ++ [.shown doc (.after generation) presented] := rfl
  have hpublications := publications_showDiagnostics doc (.after generation) presented e
  refine ⟨h.stands, fun k generation' sent' hg => ?_, h.apart, ?_, ?_⟩
  · obtain ⟨hmem, hnot'⟩ := h.pending k generation' sent' hg
    refine ⟨hpublications.symm ▸ hmem, fun presented' hshown => ?_⟩
    rw [hhistory, List.mem_append, List.mem_singleton] at hshown
    rcases hshown with hshown | hshown
    · exact hnot' presented' hshown
    · obtain ⟨-, hsame, -⟩ := Event.shown.inj hshown
      obtain rfl := Superseding.after.inj hsame
      exact hno k sent' hg
  · rw [hpublications, hhistory, posings_append, h.numbered]
    exact List.append_nil _
  · rw [hhistory]
    refine h.order.shown hlast (fun earlier shown hmem => ?_) presented
    -- what was shown before is an earlier publication, as this one has not been shown yet
    obtain ⟨earlier', heq, hpublished⟩ := h.order.published hmem
    obtain rfl := Superseding.after.inj heq
    obtain ⟨entry, hentry, rfl⟩ := List.mem_map.mp hpublished
    refine Nat.lt_of_le_of_ne (le_of_getLast? hinc hlast hentry) fun hsame => ?_
    exact hnot shown (hsame ▸ hmem)

/-- A publication is the newest if its diagnostics are still wanted. -/
theorem Lined.latest (h : Lined doc e) (hc : Counts ([], e)) (hg : Guarded doc e)
    (hmem : (generation, sent) ∈ publications doc e.history)
    (hwanted : ¬ Stale doc .diagnostics generation e) :
    (publications doc e.history).getLast? = some (generation, sent) := by
  obtain ⟨s, hs, _⟩ := h.posed hc hmem
  have hsame : s.generation .diagnostics = generation := by
    by_contra hne
    exact hwanted ⟨s, hs, (hg.session s hs).1, hne⟩
  exact getLast?_of_max (h.increasing hc) hmem fun entry hentry => hsame ▸ h.newest hc hs hentry

/-- The diagnostics of the newest publication are wanted. -/
theorem Lined.wanted (h : Lined doc e) (hc : Counts ([], e))
    (hlast : (publications doc e.history).getLast? = some (generation, sent)) :
    ¬ Stale doc .diagnostics generation e := by
  rintro ⟨s, hs, _, hne⟩
  obtain ⟨s', hs', hle, hnewest⟩ := h.posed hc (List.mem_of_getLast? hlast)
  obtain rfl : s = s' := Option.some.inj (hs.symm.trans hs')
  obtain ⟨entry, hentry, hsame⟩ := List.mem_map.mp hnewest
  have hge : entry.1 ≤ generation := le_of_getLast? (h.increasing hc) hlast hentry
  exact hne (Nat.le_antisymm (hsame ▸ hge) hle)

/-! ### Runs -/

/-- A publication that has just begun is wanted. -/
theorem not_stale_publish (hs : e.session? doc = some s) (sent : List Json) :
    ¬ Stale doc .diagnostics (s.generation .diagnostics + 1) (e.publish doc sent) := by
  rintro ⟨s', hs', _, hne⟩
  obtain ⟨s'', hs'', hgeneration⟩ := session?_publish hs sent
  obtain rfl := Option.some.inj (hs'.symm.trans hs'')
  exact hne hgeneration

/-- The tasks that fetch the code actions of some diagnostics. -/
abbrev fetching (doc : Nat) (sent : List Json) (e : Engine) : List Ref × Engine :=
  spawnAll (sent.map (.fetchActions doc .server ·)) e

/-- Without diagnostics there is nothing to wait for. -/
theorem present_nil {fallback : Json} (hnil : sent = [])
    (h : ¬ Stale doc .diagnostics generation e) :
    e.present doc sent .server fallback (.after generation) =
      (e.showDiagnostics doc (.after generation) [], .done (.value (.diagnostics []))) := by
  subst hnil
  change e.placeDiagnostics doc [] [] fallback (.after generation) = _
  rcases placeDiagnostics_cases doc [] [] fallback generation e with
    ⟨hstale, _⟩ | ⟨_, ⟨f, hf, _⟩ | ⟨presented, hp, heq⟩⟩
  · exact absurd hstale h
  · cases hf
  · cases hp
    exact heq

/-- The code actions of all diagnostics are waited for together. -/
theorem present_cons {fallback : Json} {superseding : Superseding} (hne : sent ≠ []) :
    e.present doc sent .server fallback superseding =
      (((fetching doc sent e).2.gather (fetching doc sent e).1 false).2,
        .wait (.group (fetching doc sent e).2.nextRef)
          [.actionsGathered doc sent (fetching doc sent e).1 fallback superseding]) := by
  cases sent with
  | nil => exact absurd rfl hne
  | cons diagnostic rest => rfl

theorem path_fetching (doc : Nat) (sent : List Json) (e : Engine) :
    Path ([], e) ([], ((fetching doc sent e).2.gather (fetching doc sent e).1 false).2) := by
  refine .trans (path_spawnAll ?_) (path_gather [] _ _ false).1
  intro op hop
  obtain ⟨d, -, rfl⟩ := List.mem_map.mp hop
  rfl

/-- Presenting diagnostics publishes none. -/
theorem publications_present (doc generation : Nat) (sent : List Json) (fallback : Json) (e : Engine) :
    publications doc (reached (e.present doc sent .server fallback (.after generation))).2.history =
      publications doc e.history := by
  by_cases hnil : sent = []
  · subst hnil
    change publications doc
      (reached (e.placeDiagnostics doc [] [] fallback (.after generation))).2.history = _
    rcases placeDiagnostics_cases doc [] [] fallback generation e with
      ⟨_, e', heq, hd, _⟩ | ⟨_, ⟨f, _, heq⟩ | ⟨presented, _, heq⟩⟩
    · rw [heq]
      exact hd.publications
    · rw [heq]
      rfl
    · rw [heq]
      exact publications_showDiagnostics ..
  · rw [present_cons hnil]
    exact (Path.discreet (path_fetching doc sent e) not_presenting_nil).1.publications

/-- A task that begins to run takes no question with it. -/
theorem Counts.pick (h : Counts ([], e)) (hn : Numbered e) (ht : e.tasks.get? m = some t) :
    Counts ([], e.pick m) := by
  refine h.aloof (aloof_of_eq rfl rfl) fun f hf _ => ?_
  exact (frames_pick hn ht).mem_iff.mp (List.mem_append_right _ hf)

theorem Lined.pick (h : Lined doc e) (m : Nat) : Lined doc (e.pick m) := by
  refine h.discreet (discreet_of_eq rfl rfl) fun k place hk hp => .inl ?_
  rw [places_pick] at hk
  split at hk
  · obtain rfl := Option.some.inj hk
    exact absurd hp not_presenting_nil
  · exact hk

/-- The other tasks that present the diagnostics stand where they stood, or are to begin. -/
theorem Guarded.comes_runTask {place : List Frame × Option Ref} (hg : Guarded doc (e.runTask m t o))
    (hn : Numbered e) (ht : e.tasks.get? m = some t) (hk : k ≠ m)
    (hplace : (e.runTask m t o).places.get? k = some place) (hp : Presenting doc place.1) :
    (e.pick m).places.get? k = some place ∨
      ∃ params, place.1 = [.begin (.processDiagnostics doc params)] := by
  rcases (hn.stays_runTask ht o).comes k place (by simpa [eq_comm] using hk) hplace with hold | ⟨op, rfl⟩
  · rw [places_pick, if_neg hk]
    exact .inl hold
  · obtain ⟨params, _, rfl, _⟩ := hg.begun hplace hp
    exact .inr ⟨params, rfl⟩

/-- A task that presented the diagnostics has ended. -/
theorem Lined.ended {o' : Outcome} (h : Lined doc r) (hr : r.places = (e.pick m).places)
    (hn : Numbered e) (ht : e.tasks.get? m = some t) (hg : Guarded doc (e.runTask m t o))
    (hrun : runOf m t o e = (r, .done o')) : Lined doc (e.runTask m t o) := by
  have hrests : Aloof (reached (runOf m t o e)).2 (e.runTask m t o) := (rests_runTask m t o e).aloof
  have hself := place_runTask m t o e
  rw [hrun] at hrests hself
  refine h.discreet hrests.discreet fun k place hk hp => ?_
  rw [hr]
  refine hg.comes_runTask hn ht ?_ hk hp
  rintro rfl
  rw [hself] at hk
  cases hk

/-- A task that is to begin is cancelled, is not concerned, or begins a publication. -/
theorem runOf_begins (hx : Publication.ofJson? params = some x)
    (hon : ∀ s, e.session? doc = some s → s.features.on .diagnostics = true)
    (hframes : t.frames = [.begin (.processDiagnostics doc params)]) (m : Nat) (o : Outcome) :
    (∃ o', runOf m t o e = (e.pick m, .done o')) ∨
    ∃ s, e.session? doc = some s ∧ runOf m t o e =
      ((e.pick m).publish doc x.sent).present doc x.sent .server (.str s.document.language)
        (.after (s.generation .diagnostics + 1)) := by
  have hcases := processDiagnostics_cases (e := e.pick m) hx hon
  rw [runOf, hframes, unwind_singleton]
  generalize (if t.cancelRequested then .cancelled else o : Outcome) = o'
  cases o' with
  | cancelled => exact .inl ⟨.cancelled, rfl⟩
  | value v => exact hcases
  | failure f => exact hcases

/-- A task that waited for code actions is cut short, or places its diagnostics. -/
theorem runOf_gathers {fetches : List Ref} {fallback : Json}
    (hframes : t.frames = [.actionsGathered doc sent fetches fallback (.after generation)]) (m : Nat)
    (o : Outcome) (e : Engine) :
    ((t.cancelRequested = true ∨ ∀ v, o ≠ .value v) ∧ ∃ o', runOf m t o e = (e.pick m, .done o')) ∨
      runOf m t o e = (e.pick m).placeDiagnostics doc sent (fetches.map (answered (e.pick m))) fallback
        (.after generation) := by
  rw [runOf, hframes, unwind_singleton]
  cases t.cancelRequested with
  | true => exact .inl ⟨.inl rfl, .cancelled, rfl⟩
  | false =>
    cases o with
    | cancelled => exact .inl ⟨.inr (by simp), .cancelled, rfl⟩
    | failure f => exact .inl ⟨.inr (by simp), .failure f, rfl⟩
    | value v => exact .inr rfl

/-- A publication begins: it is shown at once if it is empty, or waits for its code actions. -/
theorem Lined.begins (h : Lined doc e) (hcounts : Counts ([], e)) (hn : Numbered e)
    (hs : e.session? doc = some s) (ht : e.tasks.get? m = some t) (hg : Guarded doc (e.runTask m t o))
    (hrun : runOf m t o e = ((e.pick m).publish doc sent).present doc sent .server
      (.str s.document.language) (.after (s.generation .diagnostics + 1))) :
    Lined doc (e.runTask m t o) := by
  have hpicked := h.pick m
  have hcounts' := hcounts.pick hn ht
  have hs' : (e.pick m).session? doc = some s := hs
  have hpublished := hpicked.publish hs' sent
  obtain ⟨hunshown, hno⟩ := hpicked.unclaimed hcounts' hs'
  have hnot : ∀ presented, .shown doc (.after (s.generation .diagnostics + 1)) presented ∉
      ((e.pick m).publish doc sent).history := by
    intro presented hshown
    rw [history_publish hs', List.mem_append] at hshown
    exact hshown.elim (hunshown presented) (by simp)
  have hlast : (publications doc ((e.pick m).publish doc sent).history).getLast? =
      some (s.generation .diagnostics + 1, sent) := by
    rw [publications_publish hs', List.getLast?_concat]
  by_cases hnil : sent = []
  · have hinc := hpicked.increasing_publish hcounts' hs' sent
    exact (hpublished.shown hinc hlast hnot hno []).ended rfl hn ht hg
      (hrun.trans (present_nil hnil (not_stale_publish hs' sent)))
  · have hrests : Aloof (reached (runOf m t o e)).2 (e.runTask m t o) := (rests_runTask m t o e).aloof
    have hself := place_runTask m t o e
    rw [hrun, present_cons hnil] at hrests hself
    have hd : Discreet doc ((e.pick m).publish doc sent) (e.runTask m t o) :=
      (Path.discreet (path_fetching doc sent _) not_presenting_nil).1.trans hrests.discreet
    exact hpublished.waits hd (fun k place hk => hg.comes_runTask hn ht hk) hself
      (List.mem_of_getLast? hlast) hnot hno

/-- The code actions are there: the diagnostics are shown if their publication is still the newest. -/
theorem Lined.gathered {fetches : List Ref} {fallback : Json} (h : Lined doc e)
    (hcounts : Counts ([], e)) (hn : Numbered e) (hg : Guarded doc e) (ht : e.tasks.get? m = some t)
    (hg' : Guarded doc (e.runTask m t o))
    (hframes : t.frames = [.actionsGathered doc sent fetches fallback (.after generation)]) :
    Lined doc (e.runTask m t o) := by
  have hpicked := h.pick m
  have hgathers : Gathers doc m generation sent e :=
    ⟨fetches, fallback, t.waiting, by rw [place_of_get? ht, Task.place, hframes]⟩
  obtain ⟨hmem, hnot⟩ := h.pending m generation sent hgathers
  have hno : ∀ k sent, ¬ Gathers doc k generation sent (e.pick m) := by
    rintro k sent' ⟨fetches', fallback', waiting', hk⟩
    rw [places_pick] at hk
    split at hk
    · cases hk
    · rename_i hkm
      exact hkm (h.apart k m generation sent' sent ⟨_, _, _, hk⟩ hgathers)
  rcases runOf_gathers hframes m o e with ⟨_, o', hrun⟩ | hrun
  · exact hpicked.ended rfl hn ht hg' hrun
  · rcases placeDiagnostics_cases doc sent (fetches.map (answered (e.pick m))) fallback generation
      (e.pick m) with ⟨_, e', heq, hd, hplaces⟩ | ⟨hwanted, ⟨f, _, heq⟩ | ⟨presented, _, heq⟩⟩
    · refine (hpicked.discreet hd fun k place hk _ => .inl ?_).ended hplaces hn ht hg' (hrun.trans heq)
      rwa [hplaces] at hk
    · exact hpicked.ended rfl hn ht hg' (hrun.trans heq)
    · exact (hpicked.shown (h.increasing hcounts) (h.latest hcounts hg hmem hwanted) hnot hno
        presented).ended rfl hn ht hg' (hrun.trans heq)

/-- Whatever the run of a task comes to that presents the diagnostics, they are shown in order. -/
theorem Lined.runTask (h : Lined doc e) (hcounts : Counts ([], e)) (hn : Numbered e)
    (hg : Guarded doc e) (ht : e.tasks.get? m = some t) (hp : Presenting doc t.frames)
    (hg' : Guarded doc (e.runTask m t o)) : Lined doc (e.runTask m t o) := by
  have hplace := place_of_get? ht
  rcases h.stands m t.place hplace hp with ⟨params, hframes⟩ | ⟨sent, fetches, fallback, generation, hframes⟩
  · have hmem : .begin (.processDiagnostics doc params) ∈ e.held :=
      mem_held_of_place hplace (hframes ▸ List.mem_singleton_self _)
    change t.frames = _ at hframes
    obtain ⟨_, x, heq, hx⟩ := hg.publishes hmem rfl
    cases heq
    rcases runOf_begins hx (fun s hs => (hg.session s hs).2) hframes m o with ⟨o', hrun⟩ | ⟨s, hs, hrun⟩
    · exact (h.pick m).ended rfl hn ht hg' hrun
    · exact h.begins hcounts hn hs ht hg' hrun
  · exact h.gathered hcounts hn hg ht hg' hframes

theorem Guarded.tallies (h : Guarded doc e) (ht : Tallies e e') : Guarded doc e' where
  session s hs := by
    have hback : Aloof e' e := ⟨ht.outlooks ▸ List.prefix_rfl, [], by simp [ht.history], by simp⟩
    obtain ⟨s₀, hs₀, hlook⟩ := hback.session hs
    simp only [Session.outlook, Prod.mk.injEq] at hlook
    obtain ⟨_, hguard, hfeatures, _⟩ := hlook
    exact hguard ▸ hfeatures ▸ h.session s₀ hs₀
  begins f hf := h.begins f (by rwa [held, ht.tasks] at hf)

/-- Whatever is done, diagnostics are shown in the order in which they were published. -/
theorem Lined.act {a : Action} (h : Lined doc e) (hcounts : Counts ([], e)) (ha : Attended e)
    (hg : Guarded doc e) (hg' : Guarded doc (e.act a)) : Lined doc (e.act a) := by
  by_cases hrun : a = .run
  · subst hrun
    rcases ha.correlated.numbered.passes_runNext doc with hp | ⟨e₁, m, t, ht, _, hget, hp, heq⟩
    · exact h.passes hp hg'
    · have hg₁ := hg.tallies ht
      have h₁ := h.passes (passes_tallies ht) hg₁
      have hn₁ := ha.correlated.numbered.grows (.of_tallies ht)
      change Lined doc e.runNext
      change Guarded doc e.runNext at hg'
      rw [heq] at hg' ⊢
      exact h₁.runTask (enduring_counts.persists.tallies hcounts ht) hn₁ hg₁ hget hp hg'
  · exact h.passes (ha.passes_act hrun doc) hg'

end Engine

end LanguageClient
