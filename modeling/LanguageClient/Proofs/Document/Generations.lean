import LanguageClient.Proofs.Client.Enduring

/-!
The generations of questions. Each time a question about a document is begun it gets the next number,
so no number is given out twice, and the newest is the one that the document remembers (`Counts`).
What came of a question is dropped only if the same question has been begun again.

    posed 1 ── posed 2 ── posed 3 ── dropped 1 ── dropped 2
                                                   └ the document remembers 3
-/

namespace LanguageClient

/-- The number of a question that is begun. -/
def Event.posing? (doc : Nat) (feature : Feature) : Event → Option Nat
  | .posed doc' feature' generation =>
    if doc' = doc ∧ feature' = feature then some generation else none
  | _ => none

/-- The numbers that a question was given so far. -/
def posings (doc : Nat) (feature : Feature) (history : List Event) : List Nat :=
  history.filterMap (Event.posing? doc feature)

section

variable {doc generation : Nat} {feature : Feature} {history more : List Event}

theorem mem_posings :
    generation ∈ posings doc feature history ↔ .posed doc feature generation ∈ history := by
  rw [posings, List.mem_filterMap]
  constructor
  · rintro ⟨event, hmem, h⟩
    cases event with
    | posed doc' feature' generation' =>
      simp only [Event.posing?] at h
      split at h
      · rename_i hsame
        obtain ⟨rfl, rfl⟩ := hsame
        obtain rfl := Option.some.inj h
        exact hmem
      · cases h
    | _ => cases h
  · intro hmem
    exact ⟨_, hmem, by simp [Event.posing?]⟩

theorem posings_append (doc : Nat) (feature : Feature) (history more : List Event) :
    posings doc feature (history ++ more) = posings doc feature history ++ posings doc feature more :=
  List.filterMap_append

theorem posings_of_unprobed (doc : Nat) (feature : Feature)
    (h : ∀ event ∈ more, event.probes = false) : posings doc feature more = [] := by
  rw [posings, List.filterMap_eq_nil_iff]
  intro event hmem
  have hevent := h event hmem
  cases event with
  | posed doc' feature' generation' => cases hevent
  | _ => rfl

/-- What has happened stands in the part of a history that was there before, or in what was added. -/
theorem split_append {event : Event} {before after : List Event}
    (h : history ++ more = before ++ event :: after) :
    (∃ mid, history = before ++ event :: mid ∧ after = mid ++ more) ∨
      ∃ mid, before = history ++ mid ∧ more = mid ++ event :: after := by
  rcases List.append_eq_append_iff.mp h with ⟨mid, rfl, hmid⟩ | ⟨mid, rfl, hmid⟩
  · exact .inr ⟨mid, rfl, hmid⟩
  · cases mid with
    | nil => exact .inr ⟨[], by simp, by simpa using hmid.symm⟩
    | cons first mid =>
      obtain ⟨rfl, rfl⟩ := List.cons.inj hmid
      exact .inl ⟨mid, rfl, rfl⟩

/-- A question that was begun under a number is told from all others by it. -/
theorem posed_once {before before' after after' : List Event}
    (h : (posings doc feature history).Pairwise (· < ·))
    (hs : history = before ++ .posed doc feature generation :: after)
    (hs' : history = before' ++ .posed doc feature generation :: after') :
    before = before' ∧ after = after' := by
  have hcount (l r : List Event) (hl : history = l ++ .posed doc feature generation :: r) :
      .posed doc feature generation ∉ l := by
    intro hmem
    rw [hl, posings_append, List.pairwise_append] at h
    have hlt := h.2.2 generation (mem_posings.mpr hmem) generation
      (mem_posings.mpr (List.mem_cons_self ..))
    exact Nat.lt_irrefl _ hlt
  have hno := hcount before after hs
  have hno' := hcount before' after' hs'
  rw [hs] at hs'
  rcases List.append_eq_append_iff.mp hs' with ⟨mid, rfl, hmid⟩ | ⟨mid, rfl, hmid⟩
  · cases mid with
    | nil => simpa using hmid
    | cons event mid =>
      obtain ⟨rfl, _⟩ := List.cons.inj hmid
      exact absurd (by simp) hno'
  · cases mid with
    | nil => simpa [eq_comm] using hmid
    | cons event mid =>
      obtain ⟨rfl, _⟩ := List.cons.inj hmid
      exact absurd (by simp) hno

end

namespace Engine

variable {c c' : Config} {st st' : List Frame} {e e' : Engine}

/-- What has been dropped of a question had been overtaken. -/
def Overtaken (history : List Event) : Prop :=
  ∀ before doc feature generation after,
    history = before ++ .dropped doc feature generation :: after → feature ≠ .diagnostics →
    ∃ newer, generation < newer ∧ .posed doc feature newer ∈ before

/-- The numbers of questions go up, and a document remembers the newest of them. Whatever is still to be
    asked or answered has been begun. -/
structure Counts (c : Config) : Prop where
  increasing : ∀ doc feature, (posings doc feature c.2.history).Pairwise (· < ·)
  newest : ∀ doc feature, posings doc feature c.2.history ≠ [] → ∃ s, c.2.session? doc = some s ∧
    s.generation feature ∈ posings doc feature c.2.history ∧
    ∀ generation ∈ posings doc feature c.2.history, generation ≤ s.generation feature
  begun : ∀ f ∈ frames c, ∀ doc feature generation,
    (f.question? = some (doc, feature, generation) ∨ f.answers? = some (doc, feature, generation)) →
      .posed doc feature generation ∈ c.2.history
  overtaken : Overtaken c.2.history

theorem Overtaken.append {history more : List Event} (h : Overtaken history)
    (hm : ∀ event ∈ more, ∀ doc feature generation, event = .dropped doc feature generation →
      feature ≠ .diagnostics → ∃ newer, generation < newer ∧ .posed doc feature newer ∈ history) :
    Overtaken (history ++ more) := by
  intro before doc feature generation after hsplit hf
  rcases split_append hsplit with ⟨mid, hmid, _⟩ | ⟨mid, rfl, rfl⟩
  · exact h before doc feature generation mid hmid hf
  · obtain ⟨newer, hlt, hmem⟩ := hm (.dropped doc feature generation) (by simp) _ _ _ rfl hf
    exact ⟨newer, hlt, List.mem_append_left _ hmem⟩

/-- Frames of questions come from those that were there before. -/
theorem mem_frames_probes {f : Frame} (hg : Grows e e') (hst : Unprobed st st')
    (hf : f ∈ frames (st', e')) (hp : f.probes = true) : f ∈ frames (st, e) := by
  obtain ⟨ops, hheld, _, _⟩ := hg.held
  rw [frames, List.mem_append, hheld, List.mem_append, List.mem_map] at hf
  rcases hf with hf | hf | ⟨op, _, rfl⟩
  · exact List.mem_append_left _ (hst f hf hp)
  · exact List.mem_append_right _ hf
  · cases hp

theorem Frame.probes_of_begun {f : Frame} {q : Nat × Feature × Nat}
    (h : f.question? = some q ∨ f.answers? = some q) : f.probes = true := by
  rcases h with h | h <;> simp [Frame.probes, h]

/-- Nothing has happened to the questions. -/
theorem Counts.aloof {st₁ : List Frame} (h : Counts (st, e)) (ha : Aloof e e')
    (hframes : ∀ f ∈ frames (st₁, e'), f.probes = true → f ∈ frames (st, e)) :
    Counts (st₁, e') := by
  obtain ⟨more, hh, hm⟩ := ha.history
  have hsame (doc : Nat) (feature : Feature) :
      posings doc feature e'.history = posings doc feature e.history := by
    rw [hh, posings_append, posings_of_unprobed doc feature hm, List.append_nil]
  refine ⟨?_, ?_, ?_, ?_⟩
  · intro doc feature
    exact (hsame doc feature).symm ▸ h.increasing doc feature
  · intro doc feature
    change posings doc feature e'.history ≠ [] → ∃ s, e'.session? doc = some s ∧
      s.generation feature ∈ posings doc feature e'.history ∧ _
    rw [hsame]
    intro hne
    obtain ⟨s, hs, hmem, hle⟩ := h.newest doc feature hne
    obtain ⟨s', hs', hlook⟩ := ha.session hs
    have hgeneration : s'.generation = s.generation := congrArg Prod.fst hlook
    exact ⟨s', hs', hgeneration.symm ▸ hmem, hgeneration.symm ▸ hle⟩
  · intro f hf doc feature generation hq
    change _ ∈ e'.history
    rw [hh]
    exact List.mem_append_left _
      (h.begun f (hframes f hf (Frame.probes_of_begun hq)) doc feature generation hq)
  · change Overtaken e'.history
    rw [hh]
    refine h.overtaken.append ?_
    rintro event hmem doc feature generation rfl
    cases hm _ hmem

/-! ### Every step -/

/-- A document remembers the question that is begun. -/
theorem session?_beginGeneration {doc : Nat} {s : Session} (feature : Feature)
    (hs : e.session? doc = some s) (doc' : Nat) :
    (e.beginGeneration doc feature).2.session? doc' = if doc' = doc then
      some { s with generation := fun f => if f = feature then s.generation feature + 1
        else s.generation f } else e.session? doc' := by
  simp only [beginGeneration, note, session?, onSession, List.getElem?_modify]
  split
  · rename_i hdoc
    subst hdoc
    have hs : e.sessions[doc]? = some s := hs
    simp [hs]
  · rename_i hdoc
    rw [if_neg (Ne.symm hdoc), id_map']

theorem history_beginGeneration {doc : Nat} {s : Session} (feature : Feature)
    (hs : e.session? doc = some s) : (e.beginGeneration doc feature).2.history
      = e.history ++ [.posed doc feature (s.generation feature + 1)] := by
  simp [beginGeneration, note, onSession, hs]

theorem posings_beginGeneration {doc : Nat} {s : Session} (feature : Feature)
    (hs : e.session? doc = some s) (doc' : Nat) (feature' : Feature) :
    posings doc' feature' (e.beginGeneration doc feature).2.history
      = posings doc' feature' e.history ++
        if doc = doc' ∧ feature = feature' then [s.generation feature + 1] else [] := by
  rw [history_beginGeneration feature hs, posings_append]
  congr 1
  simp only [posings, List.filterMap_cons, List.filterMap_nil, Event.posing?]
  split <;> rename_i h
  · split at h
    · cases h
    · rename_i hne
      rw [if_neg hne]
  · split at h
    · rename_i hsame
      obtain rfl := Option.some.inj h
      rw [if_pos hsame]
    · cases h

theorem Counts.pose {doc : Nat} {s : Session} (h : Counts (st, e)) (feature : Feature)
    (hs : e.session? doc = some s) : Counts (st, (e.beginGeneration doc feature).2) := by
  have hsession := session?_beginGeneration feature hs
  have hposings := posings_beginGeneration feature hs
  -- the new number is greater than all that were given out before
  have hle : ∀ generation ∈ posings doc feature e.history, generation < s.generation feature + 1 := by
    intro generation hmem
    obtain ⟨s', hs', _, hall⟩ := h.newest doc feature (List.ne_nil_of_mem hmem)
    obtain rfl : s = s' := Option.some.inj (hs.symm.trans hs')
    exact Nat.lt_succ_of_le (hall generation hmem)
  refine ⟨?_, ?_, ?_, ?_⟩
  · intro doc' feature'
    change (posings doc' feature' (e.beginGeneration doc feature).2.history).Pairwise (· < ·)
    rw [hposings]
    split
    · rename_i hsame
      obtain ⟨rfl, rfl⟩ := hsame
      rw [List.pairwise_append]
      refine ⟨h.increasing doc feature, List.pairwise_singleton _ _, ?_⟩
      intro generation hmem newer hnewer
      obtain rfl := List.mem_singleton.mp hnewer
      exact hle generation hmem
    · rw [List.append_nil]
      exact h.increasing doc' feature'
  · intro doc' feature'
    change posings doc' feature' (e.beginGeneration doc feature).2.history ≠ [] → ∃ s',
      (e.beginGeneration doc feature).2.session? doc' = some s' ∧ s'.generation feature' ∈
        posings doc' feature' (e.beginGeneration doc feature).2.history ∧ ∀ generation ∈
        posings doc' feature' (e.beginGeneration doc feature).2.history,
          generation ≤ s'.generation feature'
    rw [hsession, hposings]
    by_cases hdoc : doc' = doc
    · subst hdoc
      rw [if_pos rfl]
      by_cases hfeature : feature' = feature
      · subst hfeature
        rw [if_pos ⟨rfl, rfl⟩]
        intro _
        refine ⟨_, rfl, by simp, ?_⟩
        intro generation hmem
        simp only [if_true]
        rcases List.mem_append.mp hmem with hmem | hmem
        · exact Nat.le_of_lt (hle generation hmem)
        · exact Nat.le_of_eq (List.mem_singleton.mp hmem)
      · rw [if_neg (fun hsame => hfeature hsame.2.symm), List.append_nil]
        intro hne
        obtain ⟨s', hs', hmem, hall⟩ := h.newest doc' feature' hne
        obtain rfl : s = s' := Option.some.inj (hs.symm.trans hs')
        refine ⟨_, rfl, ?_⟩
        simp only [if_neg hfeature]
        exact ⟨hmem, hall⟩
    · rw [if_neg hdoc, if_neg (fun hsame => hdoc hsame.1.symm), List.append_nil]
      exact h.newest doc' feature'
  · intro f hf doc' feature' generation hq
    change _ ∈ (e.beginGeneration doc feature).2.history
    rw [history_beginGeneration feature hs]
    exact List.mem_append_left _ (h.begun f hf doc' feature' generation hq)
  · change Overtaken (e.beginGeneration doc feature).2.history
    rw [history_beginGeneration feature hs]
    refine h.overtaken.append ?_
    rintro event hmem doc' feature' generation rfl
    simp at hmem

/-- A question that has been begun and is no longer the newest has been begun again. -/
theorem Counts.newer {doc generation : Nat} {feature : Feature} (h : Counts c)
    (hposed : .posed doc feature generation ∈ c.2.history)
    (hstale : Stale doc feature generation c.2) :
    ∃ newer, generation < newer ∧ .posed doc feature newer ∈ c.2.history := by
  obtain ⟨s, hs, _, hne⟩ := hstale
  have hmem := mem_posings.mpr hposed
  obtain ⟨s', hs', hnewest, hall⟩ := h.newest doc feature (List.ne_nil_of_mem hmem)
  obtain rfl : s = s' := Option.some.inj (hs.symm.trans hs')
  exact ⟨_, Nat.lt_of_le_of_ne (hall generation hmem) (Ne.symm hne), mem_posings.mp hnewest⟩

/-- A note is taken that begins nothing. -/
theorem Counts.note {event : Event} (h : Counts (st, e))
    (hevent : ∀ doc feature generation, event ≠ .posed doc feature generation)
    (hd : ∀ doc feature generation, event = .dropped doc feature generation →
      feature ≠ .diagnostics → ∃ newer, generation < newer ∧ .posed doc feature newer ∈ e.history) :
    Counts (st, e.note event) := by
  have hsame (doc : Nat) (feature : Feature) :
      posings doc feature (e.note event).history = posings doc feature e.history := by
    have hnil : posings doc feature [event] = [] := by
      rw [List.eq_nil_iff_forall_not_mem]
      intro generation hmem
      have hmem := mem_posings.mp hmem
      exact hevent doc feature generation (List.mem_singleton.mp hmem).symm
    rw [Engine.note, posings_append, hnil, List.append_nil]
  refine ⟨?_, ?_, ?_, ?_⟩
  · intro doc feature
    exact (hsame doc feature).symm ▸ h.increasing doc feature
  · intro doc feature
    exact (hsame doc feature).symm ▸ h.newest doc feature
  · intro f hf doc feature generation hq
    exact List.mem_append_left _ (h.begun f hf doc feature generation hq)
  · refine h.overtaken.append ?_
    intro event' hmem doc feature generation heq
    obtain rfl := List.mem_singleton.mp hmem
    exact hd doc feature generation heq

theorem Counts.remark {event : Event} (h : Counts (st, e)) (hr : Remarks st e event) :
    Counts (st, e.note event) := by
  refine h.note ?_ ?_
  · rintro doc feature generation rfl
    cases hr
  · rintro doc feature generation rfl hfeature
    cases hr with
    | dropped hf hstale =>
      exact h.newer (h.begun _ (List.mem_cons_self ..) doc feature generation (.inr hf)) hstale
    | superseded => exact absurd rfl hfeature

theorem Counts.shown {doc : Nat} {superseding : Superseding} (h : Counts (st, e))
    (presented : List PresentedDiagnostic) :
    Counts (st, e.showDiagnostics doc superseding presented) := by
  have hview : Counts (st, e.onView doc (·.setDiagnostics presented)) := by
    refine ⟨h.increasing, ?_, h.begun, h.overtaken⟩
    intro doc' feature hne
    obtain ⟨s, hs, hmem⟩ := h.newest doc' feature hne
    have hget : (e.onView doc (·.setDiagnostics presented)).session? doc'
        = if doc = doc' then some { s with view := s.view.setDiagnostics presented } else some s := by
      simp only [onView, onSession, session?, List.getElem?_modify]
      rw [show e.sessions[doc']? = some s from hs]
      split <;> rfl
    change ∃ s', (e.onView doc (·.setDiagnostics presented)).session? doc' = some s' ∧ _
    rw [hget]
    split
    · exact ⟨_, rfl, hmem⟩
    · exact ⟨s, rfl, hmem⟩
  refine hview.note (fun _ _ _ h => by cases h) (fun _ _ _ h => by cases h)

/-- A question may be put on the stack that has been begun. -/
theorem Counts.push {f : Frame} (h : Counts (st, e)) (hf : ∀ doc feature generation,
    (f.question? = some (doc, feature, generation) ∨ f.answers? = some (doc, feature, generation)) →
      .posed doc feature generation ∈ e.history) : Counts (f :: st, e) := by
  refine ⟨h.increasing, h.newest, ?_, h.overtaken⟩
  intro g hg
  rcases List.mem_cons.mp hg with rfl | hg
  · exact hf
  · exact h.begun g hg

theorem Counts.tail {f : Frame} (h : Counts (f :: st, e)) : Counts (st, e) :=
  ⟨h.increasing, h.newest, fun g hg => h.begun g (List.mem_cons_of_mem _ hg), h.overtaken⟩

/-- A frame stands for one question only. -/
theorem answers?_of_question {f : Frame} {q : Nat × Feature × Nat} (h : f.question? = some q) :
    f.answers? = none := by
  cases f with
  | hoverFlushed => rfl
  | completionFlushed => rfl
  | signatureFlushed => rfl
  | _ => cases h

theorem question?_of_answers {f : Frame} {q : Nat × Feature × Nat} (h : f.answers? = some q) :
    f.question? = none := by
  cases f with
  | hoverAnswered => rfl
  | completionAnswered => rfl
  | signatureAnswered => rfl
  | _ => cases h

theorem unprobed_refreshes {doc : Nat} (h : Refreshes doc c c') : Unprobed c.1 c'.1 := by
  cases h with
  | idle => exact .refl _
  | sends _ hs =>
    have hst := unprobed_sends hs
    exact hst

theorem Counts.step (h : Counts c) (hs : Step c c') (hn : Numbered c.2) : Counts c' := by
  have hg := hs.grows hn
  cases hs.inquiry with
  | aloof ha hst => exact h.aloof ha fun f hf hp => mem_frames_probes hg hst hf hp
  | pose feature hsession => exact h.pose feature hsession
  | @late st e f doc generation feature members c' hf hposed _ _ hr =>
    have hpushed : Counts (f :: st, e) := by
      refine h.push ?_
      rintro doc' feature' generation' (hq | hq)
      · obtain ⟨rfl, rfl, rfl⟩ : doc = doc' ∧ feature = feature' ∧ generation = generation' := by
          simpa using hf.symm.trans hq
        exact hposed
      · rw [answers?_of_question hf] at hq
        cases hq
    exact hpushed.aloof (aloof_refreshes hr) fun g hg' hp =>
      mem_frames_probes hg (unprobed_refreshes hr) hg' hp
  | @asks st st' e e' f f' q hf hf' hst ha =>
    obtain ⟨doc, feature, generation⟩ := q
    have hpushed : Counts (f' :: st, e) := by
      refine h.tail.push ?_
      rintro doc' feature' generation' (hq | hq)
      · rw [question?_of_answers hf'] at hq
        cases hq
      · obtain ⟨rfl, rfl, rfl⟩ : doc = doc' ∧ feature = feature' ∧ generation = generation' := by
          simpa using hf'.symm.trans hq
        exact h.begun f (List.mem_cons_self ..) doc feature generation (.inl hf)
    exact hpushed.aloof ha fun g hg' hp => mem_frames_probes hg hst hg' hp
  | remark hr => exact h.remark hr
  | shown presented => exact h.shown presented

/-- Whatever is done with a client, the numbers of questions go up. -/
theorem enduring_counts : Enduring Counts where
  step h hc hs := h.step hs hc.numbered
  aside {e e'} h ha := by
    refine h.aloof ha.aloof fun f hf hp => ?_
    obtain ⟨ops, hheld⟩ := ha.held
    rw [frames, List.nil_append, hheld, List.mem_append, List.mem_map] at hf
    rcases hf with hf | ⟨op, _, rfl⟩
    · exact hf
    · cases hp
  move h hf := ⟨h.increasing, h.newest, fun f hmem => h.begun f (hf.mem_iff.mp hmem), h.overtaken⟩
  ends {e m o} h _ := by
    refine h.aloof (aloof_settle _ _ e) fun f hf _ => ?_
    rw [frames, held, settle_tasks] at hf
    exact hf

theorem counts_create (options : ClientOptions) (script : ServerScript) :
    Counts ([], create options script) where
  increasing _ _ := .nil
  newest _ _ h := absurd rfl h
  begun _ hf := by cases hf
  overtaken before doc feature generation after h := by simp [create] at h

end Engine

end LanguageClient
