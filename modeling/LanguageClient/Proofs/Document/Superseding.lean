import LanguageClient.Proofs.Client.Hopes
import LanguageClient.Proofs.Document.Generations

/-!
Questions that have been asked again. A call of hover, completion or signature help sends the edits of
its document first, then asks, then waits for the answer (`Inquiring`). Once the same question has been
begun again, the document remembers a later number (`Outpaced`), and whatever the server says or fails to
say, the earlier call comes to nothing.

    begin ──▶ posed g ──▶ gate ──▶ asked ──▶ answered
                              ▲
                       posed g' > g          from here on: nothing
-/

namespace LanguageClient

/-- What an operation asks about a document, if the answer can be out of date. -/
def Operation.inquires? : Operation → Option (Nat × Feature)
  | .hover doc _ => some (doc, .hover)
  | .completion doc .. | .completeAt doc .. => some (doc, .completion)
  | .signatureHelp doc .. | .showSignature doc .. => some (doc, .signatureHelp)
  | _ => none

namespace Engine

variable {doc generation m : Nat} {feature : Feature} {st rest : List Frame} {c c' : Config}
  {e e' : Engine} {f : Frame} {o : Outcome} {op : Operation} {P : List Frame → Prop}

/-! ### Where a call stands -/

/-- Nothing stands further out, or the signature is shown that the call comes to. -/
inductive Outer : List Frame → Prop where
  | bare : Outer []
  | shows (doc : Nat) : Outer [.signatureShown doc]

/-- The frames of a call: it waits for the edits to be sent, or for its request. -/
inductive Inquiring (doc : Nat) (feature : Feature) (generation : Nat) : List Frame → Prop where
  | flushes {f : Frame} {rest : List Frame} (method : String) (message : Json) :
      f.question? = some (doc, feature, generation) → Outer rest →
      Inquiring doc feature generation (.gate (.notify method) message :: .changeSent :: f :: rest)
  | awaits {f g : Frame} {id : Nat} {rest : List Frame} : f.pursued? = some id →
      g.answers? = some (doc, feature, generation) → Outer rest →
      Inquiring doc feature generation (f :: g :: rest)

/-- A task is in the middle of a question. -/
def Calling (m doc : Nat) (feature : Feature) (generation : Nat) (e : Engine) : Prop :=
  ∃ t f, e.tasks.get? m = some t ∧ f ∈ t.frames ∧
    (f.question? = some (doc, feature, generation) ∨ f.answers? = some (doc, feature, generation))

instance (m doc : Nat) (feature : Feature) (generation : Nat) (e : Engine) :
    Decidable (Calling m doc feature generation e) :=
  decidable_of_iff ((e.tasks.get? m).any fun t => t.frames.any fun f =>
      f.question? = some (doc, feature, generation) ∨ f.answers? = some (doc, feature, generation)) <| by
    simp [Calling, Option.any_eq_true]

theorem Outer.not_probes (h : Outer rest) : ∀ f ∈ rest, f.probes = false := by
  cases h with
  | bare => simp
  | shows doc => simp [Frame.probes, Frame.question?, Frame.answers?]

/-- Among the frames of a call one stands for its question, and no other for any. -/
theorem Inquiring.eq_of_mem {q : Nat × Feature × Nat} (h : Inquiring doc feature generation st)
    (hf : f ∈ st) (hq : f.question? = some q ∨ f.answers? = some q) :
    q = (doc, feature, generation) := by
  have hprobes := Frame.probes_of_begun hq
  have hnot {g : Frame} (hg : g.probes = false) : f ≠ g := by
    rintro rfl
    rw [hg] at hprobes
    cases hprobes
  cases h with
  | @flushes g rest method message hg hr =>
    rcases List.mem_cons.mp hf with rfl | hf
    · exact absurd rfl (hnot rfl)
    rcases List.mem_cons.mp hf with rfl | hf
    · exact absurd rfl (hnot rfl)
    rcases List.mem_cons.mp hf with rfl | hf
    · rw [hg, answers?_of_question hg] at hq
      exact (by simpa using hq : (doc, feature, generation) = q).symm
    · exact absurd rfl (hnot (hr.not_probes f hf))
  | @awaits g g' id rest hg hg' hr =>
    rcases List.mem_cons.mp hf with rfl | hf
    · exact absurd rfl (hnot (Frame.probes_of_request (Frame.request?_of_pursued hg)))
    rcases List.mem_cons.mp hf with rfl | hf
    · rw [hg', question?_of_answers hg'] at hq
      exact (by simpa using hq : (doc, feature, generation) = q).symm
    · exact absurd rfl (hnot (hr.not_probes f hf))

theorem Inquiring.not_brief (h : Inquiring doc feature generation st) : ¬ Brief st := by
  intro hb
  cases h with
  | flushes method message hf hr =>
    cases hb
    cases hf
  | awaits hf hg hr =>
    cases hb with
    | sends => cases hf
    | rehearses => cases hf

/-! ### What a call comes to -/

/-- The frame of a question that is to be asked goes on with asking it. -/
theorem resume_of_question (h : f.question? = some (doc, feature, generation)) :
    ∃ method params g, g.answers? = some (doc, feature, generation) ∧
      Message.requestMethod (.str method) = .ok method ∧ method ≠ "initialize" ∧
      ∀ o e, resume f o e = ask doc feature generation method params g (resume g) o e := by
  cases f with
  | hoverFlushed doc' generation' pos =>
    obtain ⟨rfl, rfl, rfl⟩ : doc' = doc ∧ .hover = feature ∧ generation' = generation := by
      simpa [Frame.question?] using h
    exact ⟨"textDocument/hover", (·.positionParams pos), .hoverAnswered doc' generation' pos, rfl, rfl, by decide,
      fun _ _ => rfl⟩
  | completionFlushed doc' generation' pos kind character =>
    obtain ⟨rfl, rfl, rfl⟩ : doc' = doc ∧ .completion = feature ∧ generation' = generation := by
      simpa [Frame.question?] using h
    exact ⟨"textDocument/completion",
      fun d => d.positionParams pos ++ [("context", completionContext kind character)],
      .completionAnswered doc' generation' pos, rfl, rfl, by decide,
      fun _ _ => rfl⟩
  | signatureFlushed doc' generation' pos character =>
    obtain ⟨rfl, rfl, rfl⟩ : doc' = doc ∧ .signatureHelp = feature ∧ generation' = generation := by
      simpa [Frame.question?] using h
    exact ⟨"textDocument/signatureHelp",
      fun d => d.positionParams pos ++ [("context", signatureContext character)],
      .signatureAnswered doc' generation' pos, rfl, rfl, by decide,
      fun _ _ => rfl⟩
  | _ => cases h

/-- An answer that is no longer wanted comes to nothing, and so does a failed exchange. -/
theorem questionAnswered_done {α : Type} (what : String) (doc : Nat) (feature : Feature)
    (generation : Nat) (vain : Json → Bool) (wrap : α → Value)
    (build : Session → Json → Engine → Except Failure (Option α)) (o : Outcome) (e : Engine) :
    ∃ e' o', questionAnswered what doc feature generation vain wrap build o e = (e', .done o') ∧
      (Stale doc feature generation e → o.fair = true → o' = .value .nothing) := by
  have hend {run : Run} (h : ∃ e' o', run = (e', .done o') ∧
      (Stale doc feature generation e → o.fair = true → o' = .value .nothing)) :
      ∃ e' o', endQuestion doc feature generation run = (e', .done o') ∧
        (Stale doc feature generation e → o.fair = true → o' = .value .nothing) := by
    obtain ⟨e', o', rfl, h⟩ := h
    exact ⟨_, o', rfl, h⟩
  refine hend ?_
  cases o with
  | cancelled => exact ⟨e, .cancelled, rfl, fun _ h => by cases h⟩
  | failure x =>
    simp only [withResult]
    split
    · exact ⟨_, _, rfl, fun _ _ => rfl⟩
    · rename_i hx
      exact ⟨_, _, rfl, fun _ h => absurd h hx⟩
  | value v =>
    simp only [withResult]
    rcases isStale_cases doc feature generation e with ⟨heq, hnot⟩ | ⟨_, message, heq⟩
    · rw [heq]
      have hdone : Finishes (if (false || vain v.json) = true then e.answer .nothing
          else e.withSession doc fun s => e.conclude wrap (build s v.json e)) := by
        split
        · exact finishes_finish _ _
        · exact finishes_withSession fun s => finishes_conclude _ _
      obtain ⟨e', o', hrun⟩ := hdone
      exact ⟨e', o', hrun, fun hstale => absurd hstale hnot⟩
    · rw [heq]
      exact ⟨_, _, rfl, fun _ _ => rfl⟩

theorem resume_of_answers (h : f.answers? = some (doc, feature, generation)) (o : Outcome)
    (e : Engine) : ∃ e' o', resume f o e = (e', .done o') ∧
      (Stale doc feature generation e → o.fair = true → o' = .value .nothing) := by
  cases f with
  | hoverAnswered doc' generation' pos =>
    obtain ⟨rfl, rfl, rfl⟩ : doc' = doc ∧ .hover = feature ∧ generation' = generation := by
      simpa [Frame.answers?] using h
    simp only [resume, hoverAnswered]
    exact questionAnswered_done ..
  | completionAnswered doc' generation' pos =>
    obtain ⟨rfl, rfl, rfl⟩ : doc' = doc ∧ .completion = feature ∧ generation' = generation := by
      simpa [Frame.answers?] using h
    simp only [resume, completionAnswered]
    exact questionAnswered_done ..
  | signatureAnswered doc' generation' pos =>
    obtain ⟨rfl, rfl, rfl⟩ : doc' = doc ∧ .signatureHelp = feature ∧ generation' = generation := by
      simpa [Frame.answers?] using h
    simp only [resume, signatureAnswered]
    exact questionAnswered_done ..
  | _ => cases h

/-- Where nothing is to be shown, nothing is shown. -/
theorem Outer.unwind (h : Outer rest) (o : Outcome) (e : Engine) :
    ∃ e' o', Engine.unwind rest o e = (e', .done o') ∧ (o = .value .nothing → o' = .value .nothing) := by
  cases h with
  | bare => exact ⟨e, o, rfl, id⟩
  | shows doc =>
    rw [unwind_singleton]
    change ∃ e' o', signatureShown doc o e = _ ∧ _
    unfold signatureShown
    split
    · exact ⟨_, _, rfl, fun _ => rfl⟩
    · exact ⟨_, _, rfl, fun _ => rfl⟩
    · exact ⟨_, _, rfl, id⟩

/-! ### Questions that have been asked again -/

/-- The question has been asked again, and answers that are out of date are not wanted. -/
def Outpaced (doc : Nat) (feature : Feature) (generation : Nat) (e : Engine) : Prop :=
  ∃ s, e.session? doc = some s ∧ s.staleGuard = true ∧ generation < s.generation feature

theorem Outpaced.stale (h : Outpaced doc feature generation e) : Stale doc feature generation e := by
  obtain ⟨s, hs, hguard, hlt⟩ := h
  exact ⟨s, hs, hguard, Nat.ne_of_gt hlt⟩

theorem Outpaced.aloof (h : Outpaced doc feature generation e) (ha : Aloof e e') :
    Outpaced doc feature generation e' := by
  obtain ⟨s, hs, hguard, hlt⟩ := h
  obtain ⟨s', hs', hlook⟩ := ha.session hs
  have hgeneration : s'.generation = s.generation := congrArg Prod.fst hlook
  have hguard' : s'.staleGuard = s.staleGuard := congrArg (·.2.1) hlook
  exact ⟨s', hs', hguard'.trans hguard, hgeneration ▸ hlt⟩

theorem Outpaced.step (h : Outpaced doc feature generation c.2) (hs : Step c c') :
    Outpaced doc feature generation c'.2 := by
  cases hs.inquiry with
  | aloof ha => exact h.aloof ha
  | late _ _ _ _ hr =>
    have ha := aloof_refreshes hr
    exact h.aloof ha
  | asks _ _ _ ha => exact h.aloof ha
  | remark => exact h
  | @pose st e doc' s' feature' hs' =>
    obtain ⟨s, hget, hguard, hlt⟩ := h
    have hsession := session?_beginGeneration feature' hs' doc
    by_cases hdoc : doc = doc'
    · subst hdoc
      obtain rfl : s' = s := Option.some.inj (hs'.symm.trans hget)
      rw [if_pos rfl] at hsession
      refine ⟨_, hsession, hguard, ?_⟩
      simp only
      split
      · rename_i hfeature
        exact Nat.lt_succ_of_lt (hfeature ▸ hlt)
      · exact hlt
    · rw [if_neg hdoc] at hsession
      exact ⟨s, hsession.trans hget, hguard, hlt⟩
  | @shown st e doc' superseding presented =>
    obtain ⟨s, hs, hguard, hlt⟩ := h
    obtain ⟨s', hs', hsame⟩ : ∃ s', (e.showDiagnostics doc' superseding presented).session? doc = some s' ∧
        s'.generation = s.generation ∧ s'.staleGuard = s.staleGuard := by
      have hs : e.sessions[doc]? = some s := hs
      simp only [showDiagnostics, onView, onSession, note, session?, List.getElem?_modify, hs]
      split <;> exact ⟨_, rfl, rfl, rfl⟩
    exact ⟨s', hs', hsame.2.trans hguard, hsame.1 ▸ hlt⟩

theorem enduring_outpaced (doc : Nat) (feature : Feature) (generation : Nat) :
    Enduring fun c => Outpaced doc feature generation c.2 where
  step h _ hs := h.step hs
  aside h ha := h.aloof ha.aloof
  move h _ := h
  ends h _ := h.aloof (aloof_settle _ _ _)

/-! ### What a call goes on with -/

/-- Where a run leaves a call, or how it ends it: with nothing if that is known. -/
abbrev Carries (doc : Nat) (feature : Feature) (generation : Nat) (nothing : Prop) : Run → Prop :=
  Yields (fun frames e => Inquiring doc feature generation frames ∧ Hoped frames e)
    fun o _ => nothing → o = .value .nothing

/-- The answer to a question is out of date, and nothing else goes wrong. -/
structure Doomed (doc : Nat) (feature : Feature) (generation : Nat) (e : Engine) : Prop where
  outpaced : Outpaced doc feature generation e
  orderly : Orderly e

theorem Doomed.step (h : Doomed doc feature generation c.2) (hs : Step c c') :
    Doomed doc feature generation c'.2 :=
  ⟨h.outpaced.step hs, h.orderly.step hs⟩

theorem Outer.request? (h : Outer rest) : ∀ f ∈ rest, f.request? = none := by
  cases h with
  | bare => simp
  | shows doc => simp [Frame.request?]

theorem carries_outer {nothing : Prop} (hr : Outer rest) (h : nothing → o = .value .nothing) :
    Carries doc feature generation nothing (unwind rest o e) := by
  obtain ⟨e', o', hrun, hnothing⟩ := hr.unwind o e
  rw [hrun]
  exact fun hn => hnothing (h hn)

/-- The answer is there, or the exchange has failed: the question ends. -/
theorem yields_answered {nothing : Prop} (hf : f.answers? = some (doc, feature, generation))
    (h : nothing → Doomed doc feature generation e ∧ o.fair = true) :
    Yields (fun _ _ => False) (fun o _ => nothing → o = .value .nothing) (resume f o e) := by
  obtain ⟨e', o', hrun, hstale⟩ := resume_of_answers hf o e
  rw [hrun]
  exact fun hn => hstale (h hn).1.outpaced.stale (h hn).2

/-- The frames of a request, with those of the question that it asks. -/
def Requests (doc : Nat) (feature : Feature) (generation : Nat) (frames : List Frame) (e : Engine) :
    Prop :=
  ∃ f g id, frames = [f, g] ∧ f.pursued? = some id ∧ Hoped [f] e ∧
    g.answers? = some (doc, feature, generation)

theorem Requests.inquiring (h : Requests doc feature generation st e) (hr : Outer rest) :
    Inquiring doc feature generation (st ++ rest) ∧ Hoped (st ++ rest) e := by
  obtain ⟨f, g, id, rfl, hf, hh, hg⟩ := h
  have hpair : Hoped ([f] ++ [g]) e :=
    hh.append (List.forall_mem_singleton.mpr (Frame.request?_of_answers hg))
  exact ⟨.awaits hf hg hr, hpair.append hr.request?⟩

/-- The request goes on, or it has ended and the question with it. -/
theorem Yields.answered {run : Run} {nothing : Prop} {g : Frame}
    (hg : g.answers? = some (doc, feature, generation))
    (h : Yields (fun frames e => ∃ id name, Pursues id name frames e)
      (fun o e => nothing → Doomed doc feature generation e ∧ o.fair = true) run) :
    Yields (Requests doc feature generation) (fun o _ => nothing → o = .value .nothing)
      (Engine.andThen run g (resume g)) := by
  refine h.andThen (fun o e h => (yields_answered hg h).imp (fun _ _ h => h.elim) fun _ _ h => h) ?_
  rintro frames e ⟨id, name, f, rfl, hf, hh⟩
  exact ⟨f, g, id, rfl, Frame.pursued?_eq_some_iff.mpr ⟨name, hf⟩, hh, hg⟩

theorem Doomed.path (h : Doomed doc feature generation c.2) (hp : Path c c') :
    Doomed doc feature generation c'.2 := by
  induction hp with
  | refl => exact h
  | tail _ hs ih => exact ih.step hs

/-- The request of a question, after which it is known whether its answer is still wanted. -/
theorem yields_requestFor {nothing : Prop} {method : String} {g : Frame} (params : Json)
    (hf : f.question? = some (doc, feature, generation))
    (hg : g.answers? = some (doc, feature, generation))
    (hname : Message.requestMethod (.str method) = .ok method) (hinit : method ≠ "initialize")
    (h : nothing → Doomed doc feature generation e) :
    Yields (fun frames e => ∃ id name, Pursues id name frames e)
      (fun o e => nothing → Doomed doc feature generation e ∧ o.fair = true)
      (e.requestFor doc feature generation method params) := by
  have hrequest (e : Engine) (h : nothing → Doomed doc feature generation e) :
      Yields (fun frames e => ∃ id name, Pursues id name frames e)
        (fun o e => nothing → Doomed doc feature generation e ∧ o.fair = true)
        (e.request (.str method) params 0) := by
    have hleads : Leads ([f], e) [g] (e.request (.str method) params 0) :=
      leads_request_late hf hg hinit params 0
    have halong := (pursues_request hname params 0 e).along
      (J := fun e => nothing → Doomed doc feature generation e)
      (fun hs hd hn => (hd hn).step hs) hleads h
    refine halong.imp (fun _ _ hp => ?_) fun o e' hq hn => ⟨hq.2 hn, hq.1.1 (h hn).orderly⟩
    obtain ⟨id, hp⟩ := hp.1
    exact ⟨id, _, hp⟩
  unfold requestFor
  simp only
  split
  · exact hrequest e h
  · refine hrequest _ fun hn => ?_
    have hs : Step ([f], e) ([f], e.note (.asked doc feature generation)) := .remark (.asked hf)
    exact Doomed.step (h hn) hs

/-- The edits have been sent: the question is asked. -/
theorem yields_asked {nothing : Prop} (hf : f.question? = some (doc, feature, generation))
    (h : nothing → Doomed doc feature generation e ∧ ∃ v, o = .value v) :
    Yields (Requests doc feature generation) (fun o _ => nothing → o = .value .nothing)
      (resume f o e) := by
  obtain ⟨method, params, g, hg, hname, hinit, hask⟩ := resume_of_question hf
  rw [hask]
  cases o with
  | cancelled => exact fun hn => absurd (h hn).2 (by simp)
  | failure x => exact fun hn => absurd (h hn).2 (by simp)
  | value v =>
    cases hs : e.session? doc with
    | some s =>
      simp only [ask, withSession, hs]
      exact (yields_requestFor _ hf hg hname hinit fun hn => (h hn).1).answered hg
    | none =>
      simp only [ask, withSession, hs]
      intro hn
      obtain ⟨s, hsome, _⟩ := (h hn).1.outpaced
      rw [hs] at hsome
      cases hsome

/-! ### The call itself -/

/-- Whether the edits have been sent or not, the question goes on with that. -/
theorem unwind_changeSent (st : List Frame) (o : Outcome) (e : Engine) :
    ∃ o', unwind (.changeSent :: st) o e = unwind st o' e ∧
      ((∃ v, o = .value v) → ∃ v, o' = .value v) := by
  rw [unwind]
  cases o with
  | value v => exact ⟨.value (.flag true), rfl, fun _ => ⟨_, rfl⟩⟩
  | failure x => exact ⟨.failure x, rfl, id⟩
  | cancelled => exact ⟨.cancelled, rfl, id⟩

/-- The edits of a question have been sent. -/
theorem carries_sent {nothing : Prop} (hf : f.question? = some (doc, feature, generation))
    (hr : Outer rest) (h : nothing → Doomed doc feature generation e ∧ ∃ v, o = .value v) :
    Carries doc feature generation nothing (unwind (.changeSent :: f :: rest) o e) := by
  obtain ⟨o', heq, hvalue⟩ := unwind_changeSent (f :: rest) o e
  rw [heq]
  have hasked : Yields (Requests doc feature generation) (fun o _ => nothing → o = .value .nothing)
      (resume f o' e) := yields_asked hf fun hn => ⟨(h hn).1, hvalue (h hn).2⟩
  exact hasked.unwind (fun _ _ h => carries_outer hr h) fun _ _ h => h.inquiring hr

theorem hoped_flushes (method : String) (message : Json)
    (hf : f.question? = some (doc, feature, generation)) (hr : Outer rest) (e : Engine) :
    Hoped (.gate (.notify method) message :: .changeSent :: f :: rest) e := by
  refine Hoped.of_no_request (fun g hg => ?_) e
  rcases List.mem_cons.mp hg with rfl | hg
  · rfl
  rcases List.mem_cons.mp hg with rfl | hg
  · rfl
  rcases List.mem_cons.mp hg with rfl | hg
  · exact Frame.request?_of_late (Frame.late_of_question hf)
  · exact hr.request? g hg

/-- A call goes on, whatever it waited for. -/
theorem carries_unwind {nothing : Prop} (h : Inquiring doc feature generation st) (hh : Hoped st e)
    (ha : Answering ([], e)) (hn : nothing → Doomed doc feature generation e) (ho : o ≠ .cancelled) :
    Carries doc feature generation nothing (unwind st o e) := by
  have hkept {c c' : Config} (hs : Step c c') (h : nothing → Doomed doc feature generation c.2) :
      nothing → Doomed doc feature generation c'.2 := fun hn => (h hn).step hs
  cases h with
  | @flushes f rest method message hf hr =>
    have hleads : Leads ([.gate (.notify method) message], e) [] (resume (.gate (.notify method) message) o e) :=
      leads_resume _ o
    have hsent := (sent_gateOpened method message e ho).along
      (J := fun e => nothing → Doomed doc feature generation e) hkept hleads hn
    refine hsent.unwind (fun o e' hq => carries_sent hf hr fun hnothing => ?_) fun frames e' hp => ?_
    · exact ⟨hq.2 hnothing, hq.1 (hn hnothing).orderly⟩
    · obtain ⟨rfl, _⟩ := hp
      exact ⟨.flushes method message hf hr, hoped_flushes method message hf hr e'⟩
  | @awaits f g id rest hf hg hr =>
    have hleads : Leads ([f], e) [] (resume f o e) := leads_resume f o
    have hfairly (hhopes : f.hopes = true) : Fairly id e :=
      ha.fairly (hh f (List.mem_cons_self ..) hhopes id (Frame.request?_of_pursued hf))
    obtain ⟨name, hcall⟩ := Frame.pursued?_eq_some_iff.mp hf
    have hpursues := (pursues_resume hcall hfairly ho).along
      (J := fun e => nothing → Doomed doc feature generation e) hkept hleads hn
    refine hpursues.unwind (fun o e' hq => ?_) fun frames e' hp => ?_
    · refine (yields_answered hg fun hnothing => ?_).unwind (fun _ _ h => carries_outer hr h)
        fun _ _ h => h.elim
      exact ⟨hq.2 hnothing, hq.1.1 (hn hnothing).orderly⟩
    · obtain ⟨⟨f', rfl, hf', hh'⟩, _⟩ := hp
      have hpair : Requests doc feature generation ([f'] ++ [g]) e' :=
        ⟨f', g, id, rfl, Frame.pursued?_eq_some_iff.mpr ⟨name, hf'⟩, hh', hg⟩
      exact hpair.inquiring hr

/-- The frames of a call, whatever stands further out. -/
def Inquires (doc : Nat) (feature : Feature) (frames : List Frame) (e : Engine) : Prop :=
  ∀ rest, Outer rest → ∃ generation, Inquiring doc feature generation (frames ++ rest) ∧
    Hoped (frames ++ rest) e

/-- A call that passes its gate is in the middle of a question. -/
theorem yields_question {provider : String} {frame : Nat → Frame}
    {next : Nat → Outcome → Engine → Run} (hframe : ∀ n, (frame n).question? = some (doc, feature, n))
    (hnext : ∀ n, next n = resume (frame n)) (e : Engine) :
    Yields (Inquires doc feature) (fun _ _ => True) (e.question doc feature provider frame next) := by
  have hpending (e : Engine) : Yields
      (fun frames _ => ∃ method message, frames = [.gate (.notify method) message, .changeSent])
      (fun _ _ => True) (e.flushPending doc) := by
    unfold flushPending
    split
    · exact yields_flush doc none _
    · trivial
  unfold question ifAvailable
  refine yields_withSession (fun _ => trivial) fun s _ => ?_
  split
  · trivial
  · trivial
  · simp only
    generalize (e.beginGeneration doc feature).1 = n
    refine (hpending _).andThen (fun o e _ => ?_) ?_
    · have hasked : Yields (Requests doc feature n) (fun o _ => False → o = .value .nothing)
          (resume (frame n) o e) := yields_asked (hframe n) False.elim
      rw [hnext]
      exact hasked.imp (fun _ _ h rest hr => ⟨n, h.inquiring hr⟩) fun _ _ _ => trivial
    · rintro frames e ⟨method, message, rfl⟩ rest hr
      exact ⟨n, .flushes method message (hframe n) hr, hoped_flushes method message (hframe n) hr e⟩

theorem yields_hover (doc : Nat) (pos : Json) (e : Engine) :
    Yields (Inquires doc .hover) (fun _ _ => True) (e.hover doc pos) :=
  yields_question (fun _ => rfl) (fun _ => rfl) e

theorem yields_completion (doc : Nat) (pos kind character : Json) (e : Engine) :
    Yields (Inquires doc .completion) (fun _ _ => True) (e.completion doc pos kind character) :=
  yields_question (fun _ => rfl) (fun _ => rfl) e

theorem yields_signatureHelp (doc : Nat) (pos character : Json) (e : Engine) :
    Yields (Inquires doc .signatureHelp) (fun _ _ => True) (e.signatureHelp doc pos character) :=
  yields_question (fun _ => rfl) (fun _ => rfl) e

theorem yields_completeAt (doc : Nat) (offset : Json) (explicit : Bool) (e : Engine) :
    Yields (Inquires doc .completion) (fun _ _ => True) (e.completeAt doc offset explicit) := by
  unfold completeAt
  split
  · trivial
  · trivial
  · exact yields_completion doc _ _ _ e

theorem yields_showSignature (doc : Nat) (pos character : Json) (e : Engine) :
    Yields (fun frames e => ∃ generation, Inquiring doc .signatureHelp generation frames ∧
      Hoped frames e) (fun _ _ => True) (e.showSignature doc pos character) := by
  refine (yields_signatureHelp doc pos character e).andThen (fun o e _ => ?_) fun frames e h => h _ (.shows doc)
  obtain ⟨e', o', hdone, _⟩ := (Outer.shows doc).unwind o e
  rw [unwind_singleton] at hdone
  change Yields _ _ (resume (.signatureShown doc) o e)
  rw [hdone]
  trivial

/-- A call that begins ends, or is in the middle of its question. -/
theorem yields_begin (h : op.inquires? = some (doc, feature)) (o : Outcome) (e : Engine) :
    Yields (fun frames e => ∃ generation, Inquiring doc feature generation frames ∧ Hoped frames e)
      (fun _ _ => True) (unwind [.begin op] o e) := by
  have hbare {run : Run} {doc : Nat} {feature : Feature}
      (h : Yields (Inquires doc feature) (fun _ _ => True) run) :
      Yields (fun frames e => ∃ generation, Inquiring doc feature generation frames ∧
        Hoped frames e) (fun _ _ => True) run := by
    refine h.imp (fun frames e h => ?_) fun _ _ h => h
    have hframes := h [] .bare
    rwa [List.append_nil] at hframes
  have hperform : Yields (fun frames e => ∃ generation, Inquiring doc feature generation frames ∧
      Hoped frames e) (fun _ _ => True) (e.perform op) := by
    cases op with
    | hover doc' pos =>
      obtain ⟨rfl, rfl⟩ : doc' = doc ∧ .hover = feature := by simpa [Operation.inquires?] using h
      exact hbare (yields_hover doc' pos e)
    | completion doc' pos kind character =>
      obtain ⟨rfl, rfl⟩ : doc' = doc ∧ .completion = feature := by
        simpa [Operation.inquires?] using h
      exact hbare (yields_completion doc' pos kind character e)
    | completeAt doc' offset explicit =>
      obtain ⟨rfl, rfl⟩ : doc' = doc ∧ .completion = feature := by
        simpa [Operation.inquires?] using h
      exact hbare (yields_completeAt doc' offset explicit e)
    | signatureHelp doc' pos character =>
      obtain ⟨rfl, rfl⟩ : doc' = doc ∧ .signatureHelp = feature := by
        simpa [Operation.inquires?] using h
      exact hbare (yields_signatureHelp doc' pos character e)
    | showSignature doc' pos character =>
      obtain ⟨rfl, rfl⟩ : doc' = doc ∧ .signatureHelp = feature := by
        simpa [Operation.inquires?] using h
      exact yields_showSignature doc' pos character e
    | _ => cases h
  rw [unwind_singleton]
  cases o with
  | cancelled => trivial
  | value v => exact hperform
  | failure x => exact hperform

/-! ### From its beginning to its end -/

/-- A call is to begin, or is in the middle of its question. -/
theorem route_called (h : op.inquires? = some (doc, feature)) :
    Route (fun e => Answering ([], e))
      (fun st => st = [.begin op] ∨ ∃ generation, Inquiring doc feature generation st)
      (fun _ => True) where
  solid hst hb := by
    rcases hst with rfl | ⟨_, hst⟩
    · cases hb <;> cases h
    · exact hst.not_brief hb
  tallies ha ht := enduring_answering.persists.tallies ha ht
  runs {e m t o} ha hc ht hst hh ho := by
    rcases hst with hst | ⟨generation, hst⟩
    · rw [hst]
      refine (yields_begin h o (e.pick m)).imp (fun frames e' hcall => ?_) fun _ _ h => h
      obtain ⟨generation, hinquiring, hhoped⟩ := hcall
      exact ⟨.inr ⟨generation, hinquiring⟩, hhoped⟩
    · have hcarries : Carries doc feature generation False (unwind t.frames o (e.pick m)) :=
        carries_unwind hst hh ⟨ha.known, ha.outcomes⟩ False.elim ho
      exact hcarries.imp (fun _ _ h => ⟨.inr ⟨generation, h.1⟩, h.2⟩) fun _ _ _ => trivial

/-- A call whose question has been asked again comes to nothing. -/
theorem route_outpaced (doc : Nat) (feature : Feature) (generation : Nat) :
    Route (fun e => Answering ([], e) ∧ Doomed doc feature generation e)
      (Inquiring doc feature generation) (· = .value .nothing) where
  solid hst := hst.not_brief
  tallies h ht := ⟨enduring_answering.persists.tallies h.1 ht,
    h.2.outpaced.aloof (aloof_tallies ht), h.2.orderly.congr ht.sendFailure⟩
  runs {e m t o} h hc ht hst hh ho := by
    have hcarries : Carries doc feature generation True (unwind t.frames o (e.pick m)) :=
      carries_unwind hst hh ⟨h.1.known, h.1.outcomes⟩ (fun _ => ⟨h.2.outpaced, h.2.orderly⟩) ho
    exact hcarries.imp (fun _ _ h => h) fun _ _ h => h trivial

/-- A document whose question has been begun again remembers a later number. -/
theorem Counts.outpaced {newer : Nat} (h : Counts c) (hs : (c.2.session? doc).map (·.staleGuard) = some true)
    (hnewer : .posed doc feature newer ∈ c.2.history) (hlt : generation < newer) :
    Outpaced doc feature generation c.2 := by
  have hmem := mem_posings.mpr hnewer
  obtain ⟨s, hsession, _, hall⟩ := h.newest doc feature (List.ne_nil_of_mem hmem)
  rw [hsession] at hs
  exact ⟨s, hsession, Option.some.inj hs, Nat.lt_of_lt_of_le hlt (hall newer hmem)⟩

/-- A call that is in the middle of a question keeps to it. -/
theorem EnRoute.calling
    (h : EnRoute (fun st => st = [.begin op] ∨ ∃ generation, Inquiring doc feature generation st)
      (fun _ => True) m e)
    (hcalling : Calling m doc feature generation e) :
    EnRoute (Inquiring doc feature generation) (· = .value .nothing) m e := by
  obtain ⟨t, f, ht, hf, hq⟩ := hcalling
  cases h with
  | @goes t' ht' hp hh hw hopen =>
    obtain rfl : t = t' := Option.some.inj (ht.symm.trans ht')
    rcases hp with hbegin | ⟨n, hinquiring⟩
    · rw [hbegin, List.mem_singleton] at hf
      subst hf
      rcases hq with hq | hq <;> cases hq
    · obtain ⟨-, -, rfl⟩ : doc = doc ∧ feature = feature ∧ generation = n := by
        simpa using hinquiring.eq_of_mem hf hq
      exact .goes ht hinquiring hh hw hopen
  | finished _ hnone _ _ =>
    rw [hnone] at ht
    cases ht

theorem EnRoute.nothing (h : EnRoute P (· = .value .nothing) m e) :
    e.outcome? (.task m) = none ∨ e.outcome? (.task m) = some (.value .nothing) := by
  rw [outcome?_eq_join]
  cases h with
  | goes _ _ _ _ hopen => exact .inl (by rw [hopen]; rfl)
  | finished _ _ hsettled hq => exact .inr (by rw [hsettled, hq]; rfl)

/-- A call has passed its gate and is still on its way, and the same question has been begun again about a
    document that guards against answers out of date: whatever happens from then on, unless the outside
    cancels something or makes sends fail as no channel does, the call comes to nothing if it comes to
    anything. And an answer is dropped only if the same question has been begun again before. -/
theorem superseded_nothing (options : ClientOptions) (script : ServerScript) {m doc generation newer : Nat}
    {feature : Feature} {op : Operation} {before mid more : List Action}
    (hmild : ∀ a ∈ before ++ (mid ++ more), a.mild = true)
    (hop : op.inquires? = some (doc, feature))
    (hbegun : ((create options script).after before).tasks.get? m = some { frames := [.begin op] })
    (hcalling : Calling m doc feature generation ((create options script).after (before ++ mid)))
    (hnewer : .posed doc feature newer ∈ ((create options script).after (before ++ mid)).history)
    (hlt : generation < newer)
    (hguard : (((create options script).after (before ++ mid)).session? doc).map (·.staleGuard)
      = some true) :
    let e := (create options script).after (before ++ (mid ++ more))
    (e.outcome? (.task m) = none ∨ e.outcome? (.task m) = some (.value .nothing)) ∧
      Overtaken e.history := by
  intro e
  have hspares {a : Action} (ha : a ∈ before ++ (mid ++ more)) : a.spares = true :=
    Action.spares_of_mild (hmild a ha)
  have hstart := correlated_create options script
  have hanswering (actions : List Action) :
      Answering ([], (create options script).after actions) :=
    enduring_answering.after actions (answering_create options script) (attended_create options script)
  have hcounts (actions : List Action) : Counts ([], (create options script).after actions) :=
    enduring_counts.after actions (counts_create options script) (attended_create options script)
  have hspared := (spared_create options script).after before hstart fun a ha =>
    hspares (List.mem_append_left _ ha)
  -- until the question is begun again the call keeps to its frames
  have hbegins : EnRoute (fun st => st = [.begin op] ∨ ∃ n, Inquiring doc feature n st)
      (fun _ => True) m ((create options script).after before) :=
    .goes hbegun (.inl rfl) (Hoped.of_no_request (by simp [Frame.request?]) _) (by simp)
      (hspared.opened m _ hbegun).2
  have hcalled := EnRoute.after (route_called hop) mid hbegins hspared (hstart.after before)
    (fun a ha => hspares (by simp [ha])) fun past _ _ => by
      rw [← after_append]
      exact hanswering (before ++ past)
  rw [← after_append] at hcalled
  -- from then on its answer is not wanted
  have hmoment := hcounts (before ++ mid)
  have houtpaced : Outpaced doc feature generation ((create options script).after (before ++ mid)) :=
    hmoment.outpaced hguard hnewer hlt
  have hattended := (attended_create options script).after (before ++ mid)
  have horderly : Orderly (create options script) := fun x hx => by cases hx
  have hspared' := (spared_create options script).after (before ++ mid) hstart fun a ha =>
    hspares (by rw [← List.append_assoc]; exact List.mem_append_left _ ha)
  have hends := EnRoute.after (route_outpaced doc feature generation) more (hcalled.calling hcalling)
    hspared' (hstart.after (before ++ mid)) (fun a ha => hspares (by simp [ha]))
    fun past after heq => by
      rw [← after_append, List.append_assoc]
      refine ⟨hanswering _, ?_, horderly.after _ fun a ha => hmild a ?_⟩
      · rw [← List.append_assoc, after_append]
        exact (enduring_outpaced doc feature generation).after past houtpaced hattended
      · rw [heq]
        simp only [List.mem_append] at ha ⊢
        tauto
  rw [← after_append, List.append_assoc] at hends
  exact ⟨hends.nothing, (hcounts _).overtaken⟩

/-- A server that knows what is under the cursor. -/
def hovering : ServerScript where
  capabilities := .obj [("hoverProvider", .bool true)]
  replies := [("textDocument/hover", [.message [("result", .obj [("contents", .str "a word")])] 0])]

/-- A document is there, and the client is started. -/
def attended : List Action :=
  .addSession { document := { uri := "file:///doc", language := "python", incremental := false,
                              text := ['a'] }
                view := { text := ['a'] } } :: .start :: runs 8

/-- It asks what is under the cursor. -/
def pointed : Operation := .hover 0 (.obj [("line", .int 0), ("character", .int 0)])

/-- It asks a second time before the first answer is there, which comes to nothing. -/
theorem pointedAgain_nothing :
    let start := create usual hovering
    let before := attended ++ [.begin pointed]
    let mid := .begin pointed :: runs 2
    let now := start.after (before ++ mid)
    let e := start.after (before ++ (mid ++ runs 4))
    (∀ a ∈ before ++ (mid ++ runs 4), a.mild = true) ∧
      (start.after before).tasks.get? 6 = some { frames := [.begin pointed] } ∧
      Calling 6 0 .hover 1 now ∧ .posed 0 .hover 2 ∈ now.history ∧
      (now.session? 0).map (·.staleGuard) = some true ∧
      e.outcome? (.task 6) = some (.value .nothing) ∧ Overtaken e.history := by
  intro start before mid now e
  have hmild : ∀ a ∈ before ++ (mid ++ runs 4), a.mild = true := by decide
  obtain ⟨hnext, hcalling, hposed, hguard, hsome⟩ : (start.after attended).nextRef = 6 ∧
      Calling 6 0 .hover 1 now ∧ 2 ∈ posings 0 .hover now.history ∧
      (now.session? 0).map (·.staleGuard) = some true ∧
      (e.outcome? (.task 6)).isSome = true := by decide +kernel
  have hspawn (e : Engine) :
      (e.after [.begin pointed]).tasks.get? e.nextRef = some { frames := [.begin pointed] } :=
    Table.get?_put_self _ _ _
  have hbegun : (start.after before).tasks.get? 6 = some { frames := [.begin pointed] } := by
    rw [after_append, ← hspawn (start.after attended), hnext]
  have hnewer := mem_posings.mp hposed
  obtain ⟨hends, hovertaken⟩ :=
    superseded_nothing usual hovering hmild rfl hbegun hcalling hnewer (by decide) hguard
  exact ⟨hmild, hbegun, hcalling, hnewer, hguard,
    hends.resolve_left (Option.isSome_iff_ne_none.mp hsome), hovertaken⟩

end Engine

end LanguageClient
