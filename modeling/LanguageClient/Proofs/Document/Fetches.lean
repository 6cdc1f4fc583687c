import LanguageClient.Proofs.Client.Hopes
import LanguageClient.Proofs.Document.Placing

/-!
The code actions of a diagnostic. They are fetched by a task of their own, which asks the server if it
can. Whatever becomes of the request, the task comes to a value (`route_fetches`): to nothing, or to
what the server has suggested, which is all that it has said under the method (`Called`).

    begin ──▶ called ──▶ answered v      v
       │                └─▶ failed       nothing
       └─▶ not available                 nothing
-/

namespace LanguageClient

/-- Frames that neither wait for a request nor may come to show diagnostics. -/
def Frame.bare (f : Frame) : Bool := f.call?.isNone && f.presents?.isNone

theorem Frame.bare_of_plain {f : Frame} (h : f.plain = true) : f.bare = true := by
  cases f <;> first | rfl | cases h

theorem Frame.bare_of_question {f : Frame} {q : Nat × Feature × Nat} (h : f.question? = some q) :
    f.bare = true := by
  cases f <;> first | rfl | cases h

theorem Frame.bare_of_answers {f : Frame} {q : Nat × Feature × Nat} (h : f.answers? = some q) :
    f.bare = true := by
  cases f <;> first | rfl | cases h

theorem Frame.presents?_of_request {f : Frame} {id : Nat} (h : f.request? = some id) :
    f.presents? = none := by
  cases f <;> first | rfl | cases h

namespace Engine

variable {c c' : Config} {st st' : List Frame} {e e' : Engine} {f : Frame} {id doc m : Nat}
  {name : String} {history : List Event}

/-! ### Where frames come from -/

/-- Only bare frames have been put on the stack. -/
def Bares (st st' : List Frame) : Prop := ∀ f ∈ st', f ∈ st ∨ f.bare = true

theorem Bares.refl (st : List Frame) : Bares st st := fun _ => .inl

theorem Bares.tail (f : Frame) (st : List Frame) : Bares (f :: st) st :=
  fun _ hmem => .inl (List.mem_cons_of_mem f hmem)

theorem Bares.cons (h : Bares st st') (hf : f.bare = true) : Bares st (f :: st') := by
  intro g hg
  rcases List.mem_cons.mp hg with rfl | hg
  · exact .inr hf
  · exact h g hg

theorem Bares.trans {st₁ st₂ st₃ : List Frame} (h : Bares st₁ st₂) (h' : Bares st₂ st₃) :
    Bares st₁ st₃ := fun f hf => (h' f hf).elim (h f) .inr

theorem bares_clears {doc : Nat} (h : Clears doc c c') : Bares c.1 c'.1 := by
  cases h with
  | kept => exact .refl _
  | cancelled => exact .refl _
  | elapsed slot => exact (Bares.tail _ _).cons rfl

theorem bares_sends {doc : Nat} (h : Sends doc c c') : Bares c.1 c'.1 := by
  cases h with
  | idle => exact .refl _
  | told => exact ((Bares.refl _).cons rfl).cons rfl
  | closed => exact (Bares.refl _).cons rfl

theorem bares_refreshes {doc : Nat} (h : Refreshes doc c c') : Bares c.1 c'.1 := by
  cases h with
  | idle => exact .refl _
  | @sends st e c' _ hs =>
    have h := bares_sends hs
    exact h

theorem bares_asks (h : Asks e name st st') : Bares st st' := by
  cases h with
  | ready => exact .refl _
  | late _ hf' => exact (Bares.tail _ _).cons (Frame.bare_of_answers hf')
  | resolving => exact (Bares.tail _ _).cons rfl
  | told => exact .tail _ _
  | handshake => exact (Bares.tail _ _).cons rfl

/-- Where a frame on the stack comes from that is not bare: it was there, or waits for a request that
    was called or was waited for there, or may show diagnostics that could be shown there. -/
inductive Stems (st : List Frame) (history : List Event) (f : Frame) : Prop where
  | kept : f ∈ st → Stems st history f
  | bare : f.bare = true → Stems st history f
  | calls {id : Nat} {name : String} : f.call? = some (id, name) → f.presents? = none →
      .called id name ∈ history → Stems st history f
  | pursues {g : Frame} : g ∈ st → f.call? = g.call? → f.presents? = none → Stems st history f
  | presents {doc : Nat} : Presenting doc st → f.call? = none → f.presents? = some doc →
      Stems st history f

theorem Bares.stems (h : Bares st st') : ∀ f ∈ st', Stems st history f :=
  fun f hf => (h f hf).elim .kept .bare

theorem Step.stems (hs : Step c c') : ∀ f ∈ c'.1, Stems c.1 c'.2.history f := by
  have hcons {g : Frame} {st st' : List Frame} {history : List Event} (h : Bares st st')
      (hg : Stems st history g) : ∀ f ∈ g :: st', Stems st history f := by
    intro f hf
    rcases List.mem_cons.mp hf with rfl | hf
    · exact hg
    · exact h.stems f hf
  have hcall {f : Frame} (h : f.call? = none) (hp : f.presents? = none) : f.bare = true := by
    simp [Frame.bare, h, hp]
  cases hs with
  | push hf => exact ((Bares.refl _).cons (Frame.bare_of_plain hf)).stems
  | late hf _ _ _ hr =>
    exact (((Bares.refl _).cons (Frame.bare_of_question hf)).trans (bares_refreshes hr)).stems
  | unasked _ hf' => exact ((Bares.tail _ _).cons (Frame.bare_of_answers hf')).stems
  | gathers _ _ _ _ _ hf => exact hcons (.tail _ _) (.presents (presenting_cons hf) rfl rfl)
  | call limit ha => exact hcons (bares_asks ha) (.calls rfl rfl (by simp [note, enroll, Client.enroll]))
  | @await st e f f' id _ _ hf' _ hsame =>
    exact hcons (.tail _ _) (.pursues (List.mem_cons_self ..) hsame (Frame.presents?_of_request hf'))
  | @abandon st e e₁ f f' id _ hf' _ _ hsame =>
    have hp := Frame.presents?_of_request hf'
    rcases hsame with hnone | hsame
    · exact ((Bares.tail _ _).cons (hcall hnone hp)).stems
    · exact hcons (.tail _ _) (.pursues (List.mem_cons_self ..) hsame hp)
  | agreed | opening => exact (((Bares.tail _ _).cons rfl).cons rfl).stems
  | flush hc hs => exact ((bares_clears hc).trans (bares_sends hs)).stems
  | reply | notify | read | close | join | agreedClosed | preset | openingClosed | delay | rehearse =>
    exact ((Bares.tail _ _).cons rfl).stems
  | pop | endRequest | ready | joined | joinedFailed | shutDown | crash | opened =>
    exact (Bares.tail _ _).stems
  | agree | pose | remark | shown | promise | gather | settle | spawn | register | transmit | unload | take
  | oblige | notified | respond | startReader | handshake | cancelReader | edit | unscheduled =>
    exact (Bares.refl _).stems

/-! ### What the server is asked for -/

/-- Whoever waits for a request has called it under the method that he knows. -/
def Called (c : Config) : Prop :=
  ∀ f ∈ frames c, ∀ id name, f.call? = some (id, name) → .called id name ∈ c.2.history

theorem Called.step (h : Called c) (hc : Correlated c) (hs : Step c c') : Called c' := by
  obtain ⟨more, hh⟩ := hs.lasts.history
  have hold {f : Frame} (hf : f ∈ frames c) {id : Nat} {name : String}
      (hcall : f.call? = some (id, name)) : .called id name ∈ c'.2.history := by
    rw [hh]
    exact List.mem_append_left _ (h f hf id name hcall)
  obtain ⟨ops, hheld, _⟩ := (hs.grows hc.numbered).held
  intro f hf id name hcall
  rw [frames, List.mem_append, hheld, List.mem_append, List.mem_map] at hf
  rcases hf with hf | hf | ⟨op, _, rfl⟩
  · cases hs.stems f hf with
    | kept hf => exact hold (List.mem_append_left _ hf) hcall
    | bare hbare => simp [Frame.bare, hcall] at hbare
    | calls hcall' _ hmem =>
      obtain ⟨rfl, rfl⟩ : _ = id ∧ _ = name := by simpa using hcall'.symm.trans hcall
      exact hmem
    | pursues hg hsame => exact hold (List.mem_append_left _ hg) (hsame.symm.trans hcall)
    | presents _ hnone =>
      rw [hnone] at hcall
      cases hcall
  · exact hold (List.mem_append_right _ hf) hcall
  · cases hcall

theorem enduring_called : Enduring Called where
  step h hc hs := h.step hc hs
  aside {e e'} h ha := by
    obtain ⟨more, hh⟩ := ha.lasts.history
    obtain ⟨ops, hheld⟩ := ha.held
    intro f hf id name hcall
    rw [frames, List.nil_append, hheld, List.mem_append, List.mem_map] at hf
    rcases hf with hf | ⟨op, _, rfl⟩
    · change _ ∈ e'.history
      rw [hh]
      exact List.mem_append_left _ (h f hf id name hcall)
    · cases hcall
  move h hperm := fun f hf => h f (hperm.mem_iff.mp hf)
  ends {e m o} h _ := by
    intro f hf
    rw [frames, held, settle_tasks] at hf
    simpa using h f hf

theorem called_create (options : ClientOptions) (script : ServerScript) :
    Called ([], create options script) := fun f hf => by cases hf

/-- The method under which code actions are asked for. -/
def actionsMethod : String := "textDocument/codeAction"

/-- What the server has answered to a call for code actions. -/
def suggestion? (e : Engine) : Event → Option Json
  | .called id name =>
    if name = actionsMethod then
      match e.outcome? (.answer id) with
      | some (.value v) => some v.json
      | _ => none
    else none
  | _ => none

/-- What the server has answered when it was asked for code actions. -/
def suggestions (e : Engine) : List Json := e.history.filterMap e.suggestion?

theorem mem_suggestions {answer : Json} : answer ∈ e.suggestions ↔ ∃ id v,
    .called id actionsMethod ∈ e.history ∧ e.outcome? (.answer id) = some (.value v) ∧
      v.json = answer := by
  rw [suggestions, List.mem_filterMap]
  constructor
  · rintro ⟨event, hmem, h⟩
    cases event with
    | called id name =>
      simp only [suggestion?] at h
      split at h
      · rename_i hname
        subst hname
        split at h
        · rename_i v ho
          exact ⟨id, v, hmem, ho, Option.some.inj h⟩
        · cases h
      · cases h
    | _ => cases h
  · rintro ⟨id, v, hmem, ho, rfl⟩
    exact ⟨_, hmem, by simp [suggestion?, ho]⟩

/-! ### The task -/

/-- The frames of a task that fetches code actions: it is to begin, or waits for its request. -/
inductive Fetching (doc : Nat) (diagnostic : Json) : List Frame → Prop where
  | begins : Fetching doc diagnostic [.begin (.fetchActions doc .server diagnostic)]
  | awaits {f : Frame} {id : Nat} : f.call? = some (id, actionsMethod) →
      Fetching doc diagnostic [f, .actionsFetched diagnostic]

theorem Fetching.not_brief {diagnostic : Json} (h : Fetching doc diagnostic st) : ¬ Brief st := by
  intro hb
  cases h with
  | begins => cases hb
  | awaits hf => cases hb

/-- A value that is nothing, or such an answer. -/
def Supplied (S : Json → Prop) (o : Outcome) : Prop :=
  ∃ v, o = .value v ∧ (v.json = .null ∨ S v.json)

/-- Everything that the server suggests is of such a kind. -/
structure Advised (S : Json → Prop) (e : Engine) : Prop where
  answering : Answering ([], e)
  called : Called ([], e)
  suggested : ∀ answer ∈ e.suggestions, S answer

theorem Advised.tallies {S : Json → Prop} (h : Advised S e) (ht : Tallies e e') : Advised S e' where
  answering := enduring_answering.persists.tallies h.answering ht
  called := enduring_called.persists.tallies h.called ht
  suggested answer hmem := by
    obtain ⟨id, v, hcalled, ho, hanswer⟩ := mem_suggestions.mp hmem
    exact h.suggested answer
      (mem_suggestions.mpr ⟨id, v, ht.history ▸ hcalled, ht.outcome _ ▸ ho, hanswer⟩)

/-- Either no request is made, or it is under way, or fails at once. -/
theorem yields_codeActions (doc : Nat) (range codes : Json) (e : Engine) :
    Yields (fun frames e => ∃ id, Pursues id actionsMethod frames e)
      (fun o _ => (∃ x, o = .failure x) ∨ o = .value .nothing) (e.codeActions doc range codes) := by
  unfold codeActions ifAvailable
  refine yields_withSession (fun x => .inl ⟨x, rfl⟩) fun s _ => ?_
  split
  · exact .inl ⟨_, rfl⟩
  · exact .inr rfl
  · simp only
    split
    · exact .inl ⟨_, rfl⟩
    · exact (pursues_request rfl _ 0 e).imp (fun _ _ h => h) fun _ _ h => .inl h.2

/-- What is fetched for a diagnostic that is well formed comes to nothing unless it is an answer. -/
theorem yields_actionsFetched {diagnostic : Json} {d : Diagnostic} {S : Json → Prop} {o : Outcome}
    (hd : Diagnostic.ofJson? diagnostic = some d) (ho : o ≠ .cancelled)
    (hv : ∀ v, o = .value v → v.json = .null ∨ S v.json) (e : Engine) :
    Yields (fun _ _ => False) (fun o _ => Supplied S o) (actionsFetched diagnostic o e) := by
  cases o with
  | cancelled => exact absurd rfl ho
  | value v => exact ⟨_, rfl, hv v rfl⟩
  | failure x =>
    obtain ⟨range, hrange⟩ := Diagnostic.range_of_ofJson? hd
    simp only [actionsFetched, actionsFailed, Json.getOr_of_member? hrange, bind, Except.bind, pure,
      Except.pure]
    exact ⟨_, rfl, .inl rfl⟩

/-- The task of a diagnostic that is well formed comes to nothing, or to what the server has suggested. -/
theorem route_fetches {diagnostic : Json} {d : Diagnostic} (doc : Nat) (S : Json → Prop)
    (hd : Diagnostic.ofJson? diagnostic = some d) :
    Route (Advised S) (Fetching doc diagnostic) (Supplied S) where
  solid := Fetching.not_brief
  tallies h ht := h.tallies ht
  runs {e m t o} h hc ht hst hh ho := by
    have hfetched {run : Run} {Q : Outcome → Engine → Prop}
        (hrun : Yields (fun frames e => ∃ id, Pursues id actionsMethod frames e) Q run)
        (hq : ∀ o e, Q o e → o ≠ .cancelled ∧ ∀ v, o = .value v → v.json = .null ∨ S v.json) :
        Yields (fun frames e => Fetching doc diagnostic frames ∧ Hoped frames e)
          (fun o _ => Supplied S o)
          (Engine.andThen run (.actionsFetched diagnostic) (actionsFetched diagnostic)) := by
      refine hrun.andThen (fun o e h => ?_) fun frames e hp => ?_
      · obtain ⟨hne, hv⟩ := hq o e h
        exact (yields_actionsFetched hd hne hv e).imp (fun _ _ h => h.elim) fun _ _ h => h
      · obtain ⟨id, f, rfl, hf, hhoped⟩ := hp
        exact ⟨.awaits hf, hhoped.append (by simp [Frame.request?])⟩
    generalize hframes : t.frames = frames at hst hh
    cases hst with
    | begins =>
      have hbegin : Yields (fun frames e => Fetching doc diagnostic frames ∧ Hoped frames e)
          (fun o _ => Supplied S o) ((e.pick m).fetchActions doc .server diagnostic) := by
        obtain ⟨range, hrange⟩ := Diagnostic.range_of_ofJson? hd
        simp only [fetchActions, Json.require_of_member? hrange, Json.get_of_member? hrange, bind,
          Except.bind, pure, Except.pure]
        refine hfetched (yields_codeActions doc range _ _) ?_
        rintro o e (⟨x, rfl⟩ | rfl)
        · exact ⟨by simp, by simp⟩
        · refine ⟨by simp, ?_⟩
          rintro v ⟨rfl⟩
          exact .inl rfl
      rw [unwind_singleton]
      cases o with
      | cancelled => exact absurd rfl ho
      | value v => exact hbegin
      | failure x => exact hbegin
    | @awaits f id hf =>
      have hmem : f ∈ Engine.frames ([], e) :=
        List.mem_flatMap.mpr ⟨_, Table.mem_of_get? ht, hframes ▸ List.mem_cons_self ..⟩
      have hcalled := h.called f hmem id _ hf
      have hfairly (hhopes : f.hopes = true) : Fairly id (e.pick m) :=
        Answering.fairly ⟨h.answering.known, h.answering.outcomes⟩
          (hh f (List.mem_cons_self ..) hhopes id (Frame.request?_of_pursued
            (Frame.pursued?_eq_some_iff.mpr ⟨_, hf⟩)))
      rw [unwind_pair]
      refine hfetched ((pursues_resume hf hfairly ho).imp (fun _ _ h => ⟨id, h⟩) fun _ _ h => h) ?_
      rintro o e' ⟨_, hearned⟩
      exact ⟨hearned.kept, fun v hv => .inr (h.suggested _
        (mem_suggestions.mpr ⟨id, v, hcalled, hearned.answer v hv, rfl⟩))⟩

end Engine

end LanguageClient
