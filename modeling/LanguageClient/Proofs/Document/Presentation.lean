import LanguageClient.Proofs.Document.Calls
import LanguageClient.Proofs.Document.Publishing
import LanguageClient.Proofs.Engine.Waking

/-!
One presentation of diagnostics, from its beginning to its end. It hands the view the diagnostics that it answers,
and otherwise leaves what the view shows alone (`Hands`). Each diagnostic is shown as it reads, with what was kept
of its own call for code actions, in the text as it is in the end (`Completes`), in whatever order the calls
come out.

    begin ──▶ calls 0 … n ··· all of them have come out ──▶ shown
      │                                                 └──▶ superseded
      └──no one to call──▶ shown, or superseded
-/

namespace LanguageClient

/-! ### What is shown -/

/-- The diagnostic lies in the text, and its end is not before its start. -/
def PresentedDiagnostic.Within (text : List Char) (shown : PresentedDiagnostic) : Prop :=
  ∃ start stop : Nat, shown.start = .int start ∧ shown.stop = .int stop ∧ start ≤ stop ∧ stop ≤ text.length

/-- A diagnostic as it is shown in a text when its call for code actions has come out so. -/
structure Diagnostic.Rendered (text : List Char) (fallback : Json) (d : Diagnostic) (o : Outcome)
    (shown : PresentedDiagnostic) : Prop where
  same : shown = d.presented ⟨text⟩ fallback o.kept
  within : shown.Within text
  bare : (∀ v, o ≠ .value v) → shown.actions = []

theorem Diagnostic.rendered (text : List Char) (fallback : Json) (d : Diagnostic) (o : Outcome) :
    d.Rendered text fallback o (d.presented ⟨text⟩ fallback o.kept) where
  same := rfl
  within := by
    have hstart := Buffer.offsetOrZero_le_length ⟨text⟩ d.start
    have hstop := Buffer.offsetOrZero_le_length ⟨text⟩ d.stop
    refine ⟨_, max (Buffer.offsetOrZero ⟨text⟩ d.start) (Buffer.offsetOrZero ⟨text⟩ d.stop), rfl, ?_,
      Nat.le_max_left .., Nat.max_le.mpr ⟨hstart, hstop⟩⟩
    exact congrArg Json.int (by omega)
  bare ho := by
    cases o with
    | value v => exact absurd rfl (ho v)
    | failure f => rfl
    | cancelled => rfl

theorem Diagnostic.length_read : ∀ {sent : List Json} {read : List Diagnostic},
    sent.mapM ofJson? = some read → read.length = sent.length
  | [], read, h => by
      obtain rfl : [] = read := by simpa using h
      rfl
  | v :: sent, read, h => by
      simp only [List.mapM_cons, bind, Option.bind_eq_some_iff, pure, Option.some.injEq] at h
      obtain ⟨d, _, ds, hds, rfl⟩ := h
      exact congrArg Nat.succ (length_read hds)

namespace Engine

/-- Diagnostics that are to be shown in a document. -/
structure Presentation where
  doc : Nat
  sent : List Json
  source : ActionSource
  fallback : Json
  superseding : Superseding

/-- The view of a document. -/
def view? (doc : Nat) (e : Engine) : Option View := (e.session? doc).map (·.view)

namespace Presentation

/-- Presents the diagnostics. -/
def run (p : Presentation) (e : Engine) : Run := e.present p.doc p.sent p.source p.fallback p.superseding

/-- The tasks that fetch the code actions of the diagnostics. -/
def fetchers (p : Presentation) (e : Engine) : List Ref × Engine :=
  spawnAll (p.sent.map (.fetchActions p.doc p.source ·)) e

/-- Where the presentation waits for these tasks. -/
def frame (p : Presentation) (fetches : List Ref) : Frame :=
  .actionsGathered p.doc p.sent fetches p.fallback p.superseding

/-- The diagnostics are placed in the text as it now is, each with what was found for it. -/
def placed (p : Presentation) (answers : List Json) (e : Engine) : Run :=
  e.placeDiagnostics p.doc p.sent answers p.fallback p.superseding

/-- How the call for the code actions of a diagnostic has come out, if the task of the first one has that number. If
    there is no one to call, there is nothing to wait for. -/
def Fetches (p : Presentation) (first : Nat) (actions : List Action) (e : Engine) (i : Nat) (o : Outcome) : Prop :=
  match p.source with
  | .nowhere => o = .value .nothing
  | _ => CallEndsIn (first + i) o actions e

/-- A stretch of the presentation hands the view what it answers, unless that has been superseded, and leaves the view
    alone if it answers no diagnostics. -/
inductive Hands (p : Presentation) (s : Stretch) : Prop where
  | shown {presented : List PresentedDiagnostic} (answered : s.ended? = some (.value (.diagnostics presented)))
      (wanted : (s.found.isSuperseded p.doc p.superseding).1 = false)
      (handed : s.left.view? p.doc = (s.found.view? p.doc).map (·.setDiagnostics presented))
  | unchanged (answered : ∀ presented, s.ended? ≠ some (.value (.diagnostics presented)))
      (kept : s.left.view? p.doc = s.found.view? p.doc)

/-- How a presentation of diagnostics that read so comes to its end in a stretch. -/
inductive Completes (p : Presentation) (read : List Diagnostic) (came : Nat → Outcome → Prop) (s : Stretch) :
    Outcome → Prop where
  | superseded (dropped : (s.found.isSuperseded p.doc p.superseding).1 = true) :
      Completes p read came s (.value .nothing)
  | shown {presented : List PresentedDiagnostic} (wanted : (s.found.isSuperseded p.doc p.superseding).1 = false)
      (length : presented.length = p.sent.length)
      (each : ∀ i d, read[i]? = some d → ∃ o shown, came i o ∧ presented[i]? = some shown ∧
        d.Rendered (s.found.viewText p.doc) p.fallback o shown) :
      Completes p read came s (.value (.diagnostics presented))

end Presentation

/-- What an operation presents, and the state from which it does: it is a presentation itself, or takes up what was
    published for the document. -/
inductive Presents : Operation → Engine → Presentation → Engine → Prop where
  | itself (p : Presentation) (e : Engine) :
      Presents (.present p.doc p.sent p.source p.fallback p.superseding) e p e
  | published {doc : Nat} {params : Json} {s : Session} {x : Publication} {e : Engine}
      (found : e.session? doc = some s) (on : s.features.on .diagnostics = true)
      (read : Publication.ofJson? params = some x) (own : x.uri = s.document.uri) :
      Presents (.processDiagnostics doc params) e
        { doc, sent := x.sent, source := .server, fallback := .str s.document.language,
          superseding := .after (s.generation .diagnostics + 1) } (e.publish doc x.sent)

variable {n : Option Nat} {doc k m : Nat} {p : Presentation} {op : Operation} {e e' start : Engine} {o : Outcome}
  {answers : List Json} {read : List Diagnostic} {actions : List Action} {came : Nat → Outcome → Prop} {t : Task}

/-! ### Beginning -/

theorem Presents.perform (h : Presents op e p start) : e.perform op = p.run start := by
  cases h with
  | itself => rfl
  | published found on read own => exact processDiagnostics_own found read own on

/-- Up to where it presents something, an operation starts no task. -/
theorem Presents.same (h : Presents op e p start) :
    start.tasks = e.tasks ∧ start.nextRef = e.nextRef ∧ start.view? p.doc = e.view? p.doc ∧
      Harmless n [] e start := by
  cases h with
  | itself => exact ⟨rfl, rfl, rfl, .refl _⟩
  | @published doc params s x e found on read own =>
    refine ⟨rfl, rfl, ?_, harmless_of_eq (Nat.le_refl _) rfl rfl rfl rfl⟩
    have hsession := session?_beginGeneration .diagnostics found doc
    rw [if_pos rfl] at hsession
    have hpublished : (e.publish doc x.sent).session? doc = _ := hsession
    rw [view?, hpublished, view?, found]
    rfl

/-- Either there is no one to call, or a task is started for each diagnostic and they are waited for together. -/
theorem Presentation.run_cases (p : Presentation) (e : Engine) :
    ((p.source = .nowhere ∨ p.sent = []) ∧ p.run e = p.placed (p.sent.map fun _ => .null) e) ∨
    (p.source ≠ .nowhere ∧ p.sent ≠ [] ∧ p.run e = (((p.fetchers e).2.gather (p.fetchers e).1 false).2,
      .wait (.group (p.fetchers e).2.nextRef) [p.frame (p.fetchers e).1])) := by
  obtain ⟨doc, sent, source, fallback, superseding⟩ := p
  cases source with
  | nowhere => exact .inl ⟨.inl rfl, rfl⟩
  | server | prepared =>
    cases sent with
    | nil => exact .inl ⟨.inr rfl, rfl⟩
    | cons diagnostic rest => exact .inr ⟨by simp, by simp, rfl⟩

theorem fetches_iff {first i : Nat} (h : p.source ≠ .nowhere) :
    p.Fetches first actions e i o ↔ CallEndsIn (first + i) o actions e := by
  unfold Presentation.Fetches
  split
  · rename_i hno
    exact absurd hno h
  · rfl

/-! ### The end of a presentation -/

theorem isSuperseded_cases (doc : Nat) (superseding : Superseding) (e : Engine) :
    e.isSuperseded doc superseding = (false, e) ∨
      ∃ e', e.isSuperseded doc superseding = (true, e') ∧ e'.sessions = e.sessions := by
  cases superseding with
  | never => exact .inl rfl
  | said b =>
    cases b with
    | false => exact .inl rfl
    | true => exact .inr ⟨e, rfl, rfl⟩
  | after generation =>
    rcases isStale_cases doc .diagnostics generation e with ⟨heq, _⟩ | ⟨_, message, heq⟩
    · exact .inl heq
    · exact .inr ⟨_, heq, rfl⟩

theorem view?_showDiagnostics (doc : Nat) (superseding : Superseding) (presented : List PresentedDiagnostic)
    (e : Engine) : (e.showDiagnostics doc superseding presented).view? doc =
      (e.view? doc).map (·.setDiagnostics presented) := by
  simp only [view?, session?, showDiagnostics, note, onView, onSession, List.getElem?_modify_eq]
  cases e.sessions[doc]? <;> rfl

/-- The diagnostics are placed only if they are still wanted, and then shown unless they cannot be placed. -/
theorem placed_cases (p : Presentation) (answers : List Json) (e : Engine) :
    (∃ e', (e.isSuperseded p.doc p.superseding).1 = true ∧ e'.sessions = e.sessions ∧
      p.placed answers e = (e', .done (.value .nothing))) ∨
    ((e.isSuperseded p.doc p.superseding).1 = false ∧
      ((∃ f, PresentedDiagnostic.placeAll ⟨e.viewText p.doc⟩ p.fallback p.sent answers = .error f ∧
        p.placed answers e = (e, .done (.failure f))) ∨
      ∃ presented, PresentedDiagnostic.placeAll ⟨e.viewText p.doc⟩ p.fallback p.sent answers = .ok presented ∧
        p.placed answers e = (e.showDiagnostics p.doc p.superseding presented,
          .done (.value (.diagnostics presented))))) := by
  rw [Presentation.placed, placeDiagnostics]
  rcases isSuperseded_cases p.doc p.superseding e with heq | ⟨e', heq, hs⟩
  · rw [heq]
    dsimp only
    refine .inr ⟨rfl, ?_⟩
    cases PresentedDiagnostic.placeAll ⟨e.viewText p.doc⟩ p.fallback p.sent answers with
    | error f => exact .inl ⟨f, rfl, rfl⟩
    | ok presented => exact .inr ⟨presented, rfl, rfl⟩
  · rw [heq]
    exact .inl ⟨e', rfl, hs, rfl⟩

theorem hands_placed (p : Presentation) (answers : List Json) (e : Engine) : p.Hands ⟨e, p.placed answers e⟩ := by
  rcases placed_cases p answers e with ⟨e', _, hs, heq⟩ | ⟨hwanted, ⟨f, _, heq⟩ | ⟨presented, _, heq⟩⟩
  · rw [heq]
    refine .unchanged (by simp [Stretch.ended?]) ?_
    change e'.view? p.doc = e.view? p.doc
    rw [view?, session?, hs, view?, session?]
  · rw [heq]
    exact .unchanged (by simp [Stretch.ended?]) rfl
  · rw [heq]
    exact .shown rfl hwanted (view?_showDiagnostics ..)

/-- Diagnostics that are well formed are shown, if they are wanted, each with what was kept of its call. -/
theorem completes_placed (hread : p.sent.mapM Diagnostic.ofJson? = some read)
    (hlen : answers.length = p.sent.length) (hoffers : ∀ answer ∈ answers, answer.offersActions = true)
    (hcame : ∀ i answer, answers[i]? = some answer → ∃ o, came i o ∧ answer = o.kept)
    (ho : (p.placed answers e).2 = .done o) : p.Completes read came ⟨e, p.placed answers e⟩ o := by
  have hplaces := PresentedDiagnostic.placeAll_of_ofJson? ⟨e.viewText p.doc⟩ p.fallback hread hoffers
  rcases placed_cases p answers e with ⟨e', hsuperseded, _, heq⟩ | ⟨hwanted, ⟨f, herror, _⟩ | ⟨presented, hok, heq⟩⟩
  · rw [heq] at ho
    obtain rfl := Progress.done.inj ho
    exact .superseded hsuperseded
  · rw [hplaces] at herror
    cases herror
  · rw [heq] at ho
    obtain rfl := Progress.done.inj ho
    obtain rfl := Except.ok.inj (hplaces.symm.trans hok)
    have hlength := Diagnostic.length_read hread
    refine .shown hwanted (by simp [hlen, hlength]) fun i d hd => ?_
    have hi : i < answers.length := by
      have hlt := (List.getElem?_eq_some_iff.mp hd).1
      omega
    obtain ⟨o, hcame, hkept⟩ := hcame i answers[i] (List.getElem?_eq_getElem hi)
    refine ⟨o, _, hcame, ?_, Diagnostic.rendered _ _ d o⟩
    rw [List.getElem?_zipWith, hd, List.getElem?_eq_getElem hi, hkept]

/-! ### The stretches of a presentation -/

theorem hands_run (p : Presentation) (e : Engine) : p.Hands ⟨e, p.run e⟩ := by
  rcases p.run_cases e with ⟨_, hrun⟩ | ⟨_, _, hrun⟩
  · rw [hrun]
    exact hands_placed p _ e
  · rw [hrun]
    refine .unchanged (by simp [Stretch.ended?]) ?_
    rw [Stretch.left, view?, session?, sessions_gather, Presentation.fetchers, sessions_spawnAll]
    rfl

/-- A presentation that has waited places its diagnostics, or ends as what it has waited for has. -/
theorem unwind_frame (p : Presentation) (fetches : List Ref) (o : Outcome) (e : Engine) :
    unwind [p.frame fetches] o e = p.placed (fetches.map (answered e)) e ∨
      (∀ v, o ≠ .value v) ∧ unwind [p.frame fetches] o e = (e, .done o) := by
  rw [unwind_singleton]
  cases o with
  | value v => exact .inl rfl
  | failure f => exact .inr ⟨by simp, rfl⟩
  | cancelled => exact .inr ⟨by simp, rfl⟩

theorem ended_placed (p : Presentation) (answers : List Json) (e : Engine) :
    (Stretch.mk e (p.placed answers e)).ended?.isSome = true := by
  rcases placed_cases p answers e with ⟨_, _, _, heq⟩ | ⟨_, ⟨_, _, heq⟩ | ⟨_, _, heq⟩⟩ <;> rw [heq] <;> rfl

theorem leaves?_placed (p : Presentation) (answers : List Json) (e : Engine) :
    leaves? (p.placed answers e) = none := by
  rcases placed_cases p answers e with ⟨_, _, _, heq⟩ | ⟨_, ⟨_, _, heq⟩ | ⟨_, _, heq⟩⟩ <;> rw [heq] <;> rfl

/-- The presentation begins, unless its task has been asked to stop. -/
theorem Presents.begins (h : Presents op e p start) (o : Outcome) :
    unwind [.begin op] o e = p.run start ∨ o = .cancelled ∧ unwind [.begin op] o e = (e, .done .cancelled) := by
  rw [unwind_singleton]
  cases o with
  | cancelled => exact .inr ⟨rfl, rfl⟩
  | value v => exact .inl h.perform
  | failure f => exact .inl h.perform

theorem Presents.not_brief (h : Presents op e p start) : ¬ Brief [.begin op] := by
  intro hb
  cases h <;> cases hb

theorem leaves?_run (p : Presentation) (e : Engine) :
    leaves? (p.run e) = none ∨ ∃ fetches, leaves? (p.run e) = some [p.frame fetches] := by
  rcases p.run_cases e with ⟨_, hrun⟩ | ⟨_, _, hrun⟩
  · rw [hrun]
    exact .inl (leaves?_placed p _ e)
  · rw [hrun]
    exact .inr ⟨_, rfl⟩

/-- A presentation that waits goes through one more stretch at most, and ends with it. -/
theorem Correlated.hands_stretches (hc : Correlated ([], e)) (hm : m < e.nextRef)
    (hstands : ∀ frames, e.standing? m = some frames → ∃ fetches, frames = [p.frame fetches])
    (actions : List Action) : (∀ s ∈ e.stretches m actions, p.Hands s ∧ s.ended?.isSome = true) ∧
      (e.stretches m actions = [] ∨ (e.after actions).standing? m = none) := by
  let P (past : List Stretch) (frames : Option (List Frame)) : Prop :=
    (∀ s ∈ past, p.Hands s ∧ s.ended?.isSome = true) ∧ (past = [] ∨ frames = none) ∧
      ∀ st, frames = some st → ∃ fetches, st = [p.frame fetches]
  have hstep (past : List Stretch) (frames : List Frame) (h : P past (some frames)) (o : Outcome) (e : Engine) :
      P (past ++ [⟨e, unwind frames o e⟩]) (leaves? (unwind frames o e)) := by
    obtain ⟨hpast, hended, hwaits⟩ := h
    obtain ⟨fetches, rfl⟩ := hwaits frames rfl
    obtain rfl : past = [] := hended.resolve_right (by simp)
    rcases unwind_frame p fetches o e with heq | ⟨hno, heq⟩
    · rw [heq, leaves?_placed]
      exact ⟨by simpa using ⟨hands_placed p _ e, ended_placed p _ e⟩, .inr rfl, by simp⟩
    · rw [heq]
      refine ⟨?_, .inr rfl, by simp [leaves?]⟩
      simp only [List.nil_append, List.mem_singleton, forall_eq]
      exact ⟨.unchanged (fun presented => by simpa [Stretch.ended?] using hno _) rfl, rfl⟩
  have hstart : P [] (e.standing? m) := ⟨by simp, .inl rfl, hstands⟩
  obtain ⟨hhands, hlast, _⟩ := along_stretches (I := fun _ => True) (J := fun _ => True) (fun _ _ => id)
    (fun _ _ => id) (fun past frames h o e _ => hstep past frames h o e) actions hc hm trivial hstart
  exact ⟨hhands, hlast⟩

/-- A task that presents no diagnostics of the document leaves them alone in all its stretches. -/
theorem Correlated.discreet_stretches (hc : Correlated ([], e)) (hk : k < e.nextRef)
    (hstands : ∀ frames, e.standing? k = some frames → ¬ Presenting doc frames) (actions : List Action) :
    ∀ s ∈ e.stretches k actions, Discreet doc s.found s.left := by
  let P (past : List Stretch) (frames : Option (List Frame)) : Prop :=
    (∀ s ∈ past, Discreet doc s.found s.left) ∧ ∀ st, frames = some st → ¬ Presenting doc st
  have hstep (past : List Stretch) (frames : List Frame) (h : P past (some frames)) (o : Outcome) (e : Engine) :
      P (past ++ [⟨e, unwind frames o e⟩]) (leaves? (unwind frames o e)) := by
    obtain ⟨hpast, hnot⟩ := h
    obtain ⟨hd, hleft⟩ := Path.discreet (path_reached (leads_unwind frames o e)) (hnot frames rfl)
    generalize unwind frames o e = run at hd hleft ⊢
    have hfound : Discreet doc e (Stretch.mk e run).left := by
      obtain ⟨e', _ | _ | _⟩ := run <;> exact hd
    refine ⟨fun s hs => ?_, fun st hst => ?_⟩
    · rcases List.mem_append.mp hs with hs | hs
      · exact hpast s hs
      · obtain rfl := List.mem_singleton.mp hs
        exact hfound
    · obtain ⟨e', _ | _ | _⟩ := run
      · cases hst
      · exact Option.some.inj hst ▸ hleft
      · exact Option.some.inj hst ▸ hleft
  have hstart : P [] (e.standing? k) := ⟨by simp, hstands⟩
  exact (along_stretches (I := fun _ => True) (J := fun _ => True) (fun _ _ => id) (fun _ _ => id)
    (fun past frames h o e _ => hstep past frames h o e) actions hc hk trivial hstart).1

/-! ### While the calls are under way -/

/-- The tasks that fetch the code actions of the diagnostics, if the first of them has that number. -/
def Presentation.fetches (p : Presentation) (first : Nat) : List Ref :=
  (List.range' first p.sent.length).map .task

/-- The presentation waits, and its calls are all under way. -/
structure Presentation.Waits (p : Presentation) (m first group : Nat) (e : Engine) : Prop where
  stands : e.places.get? m = some ([p.frame (p.fetches first)], some (.group group))
  herded : e.Herded group (p.fetches first)
  wakes : e.Wakes m group
  begins : ∀ i diagnostic, p.sent[i]? = some diagnostic →
    e.places.get? (first + i) = some ([.begin (.fetchActions p.doc p.source diagnostic)], none)

theorem Presentation.Waits.frames {first group : Nat} (h : p.Waits m first group e) (frames : List Frame)
    (hf : e.standing? m = some frames) : ∃ fetches, frames = [p.frame fetches] := by
  rw [standing?_eq, h.stands] at hf
  exact ⟨_, (Option.some.inj hf).symm⟩

theorem Presentation.fst_fetchers (p : Presentation) (e : Engine) : (p.fetchers e).1 = p.fetches e.nextRef := by
  rw [fetchers, fst_spawnAll, List.length_map]
  rfl

theorem Presents.numbered (h : Presents op e p start) (hn : Numbered e) : Numbered start := by
  obtain ⟨htasks, hnext, _⟩ := h.same (n := none)
  exact ⟨htasks ▸ hn.nodup, fun n hmem => hnext ▸ hn.lt n (htasks ▸ hmem)⟩

/-- The calls of a presentation that waits are made by tasks that are to begin. -/
theorem Numbered.place_fetch (hn : Numbered start) (hm : m < start.nextRef)
    (hrests : Rests m (p.run start) e) (hs : p.source ≠ .nowhere) {i : Nat} {diagnostic : Json}
    (hi : p.sent[i]? = some diagnostic) :
    e.places.get? (start.nextRef + i) = some ([.begin (.fetchActions p.doc p.source diagnostic)], none) := by
  rcases p.run_cases start with ⟨hno | hnil, _⟩ | ⟨_, _, hrun⟩
  · exact absurd hno hs
  · simp [hnil] at hi
  · have hop : (p.sent.map (Operation.fetchActions p.doc p.source ·))[i]? =
        some (.fetchActions p.doc p.source diagnostic) := by simp [hi]
    rw [hrests.places, if_neg (by omega), hrun]
    exact (congrArg (Table.get? _) (places_gather ..)).trans (hn.place_spawnAll hop)

/-- A presentation that begins waits for its calls, if there is anyone to call. -/
theorem Spared.waits (hsp : Spared none e.nextRef e) (hc : Correlated ([], e)) (ht : e.tasks.get? m = some t)
    (hp : Presents op (e.pick m) p start) (hrun : runOf m t o e = p.run start) (hs : p.source ≠ .nowhere)
    (hne : p.sent ≠ []) : p.Waits m start.nextRef (p.fetchers start).2.nextRef (e.runTask m t o) := by
  have hn := hp.numbered (hc.pick ht).numbered
  have hrests : Rests m (runOf m t o e) (e.runTask m t o) := rests_runTask m t o e
  obtain ⟨n, hran⟩ := hsp.ran hc ht o
  have hlands : Lands m (runOf m t o e) (e.runTask m t o) := hran.lands
  have hself := place_runTask m t o e
  obtain ⟨_, hnext, _, hharmless⟩ := hp.same (n := n)
  have hstart : Spared n e.nextRef start := (hsp.pick ht (hran.who.imp And.left id)).harmless hharmless
  have hm : m < start.nextRef := by
    rw [hnext]
    exact hc.numbered.lt m (Table.mem_keys_iff.mpr ⟨t, ht⟩)
  rw [hrun] at hrests hself hlands
  obtain ⟨hno | hnil, _⟩ | ⟨_, _, hwaits⟩ := p.run_cases start
  · exact absurd hno hs
  · exact absurd hnil hne
  have hparks : e.runTask m t o = (((p.fetchers start).2.gather (p.fetchers start).1 false).2.park m
      (.group (p.fetchers start).2.nextRef) [p.frame (p.fetchers start).1]) := runTask_wait (hrun.trans hwaits)
  refine ⟨?_, ?_, ?_, fun i diagnostic hi => hn.place_fetch hm hrests hs hi⟩
  · rw [hself, hwaits, ← p.fst_fetchers]
    rfl
  · rw [hwaits] at hlands
    rw [← p.fst_fetchers]
    refine hlands.herded ((hstart.harmless (harmless_spawnAll _ _)).herded_gather (nodup_spawnAll _ _) fun r hr => ?_)
    obtain ⟨k, _, _, hk, _, _, hplace⟩ := hn.places_spawnAll _ r hr
    obtain ⟨t, ht, _⟩ := Option.map_eq_some_iff.mp ((get?_places ..).symm.trans hplace)
    exact ⟨k, t, hk, ht⟩
  · rw [hparks]
    refine wakes_park ?_ (nextRef_gather .. ▸ Nat.lt_succ_self _) _
    rw [standing_gather, if_pos rfl]

theorem Undeterred.herded_after {members : List Ref} (hu : Undeterred e) (h : e.Herded k members)
    (ha : ∀ a ∈ actions, a.spares = true) : (e.after actions).Herded k members := by
  induction actions generalizing e with
  | nil => exact h
  | cons a rest ih =>
    obtain ⟨ha, hrest⟩ := List.forall_mem_cons.mp ha
    exact ih (hu.act ha) (h.act hu.spared hu.attended.correlated ha) hrest

theorem mem_fetches {r : Ref} : r ∈ p.fetches k ↔ ∃ i < p.sent.length, r = .task (k + i) := by
  simp only [Presentation.fetches, List.mem_map, List.mem_range'_1]
  constructor
  · rintro ⟨n, ⟨hle, hlt⟩, rfl⟩
    exact ⟨n - k, by omega, by congr 1; omega⟩
  · rintro ⟨i, hi, rfl⟩
    exact ⟨k + i, by omega, rfl⟩

variable {first group : Nat}

/-- Each call comes out once, if it does, and then its task ends with what is kept of it. -/
theorem Presentation.Waits.fate (h : p.Waits m first group e) (hu : Undeterred e)
    (hread : p.sent.mapM Diagnostic.ofJson? = some read) (ha : ∀ a ∈ actions, a.spares = true) {i : Nat}
    (hi : i < p.sent.length) : Fate (first + i) actions e := by
  obtain ⟨d, hd⟩ := Diagnostic.read_of_mem hread p.sent[i] (List.getElem_mem hi)
  have hplace := h.begins i p.sent[i] (List.getElem?_eq_getElem hi)
  rw [get?_places] at hplace
  obtain ⟨t, ht, hplace⟩ := Option.map_eq_some_iff.mp hplace
  obtain ⟨hframes, hwaiting⟩ := Prod.mk.inj hplace
  change t.frames = _ at hframes
  change t.waiting = none at hwaiting
  have hasks : Asking p.doc p.sent[i] p.source t.frames := hframes ▸ .begins p.source
  exact hu.fate hd (.goes ht hasks (Hoped.of_no_request (by simp [hframes, Frame.request?]) e)
    (by simp [hwaiting]) (hu.spared.opened _ t ht).2) ht hasks ha

/-- All the calls have come out when the presentation goes on, and it goes on with what was kept of them. -/
theorem Presentation.Waits.goes (h : p.Waits m first group e) (hu : Undeterred e)
    (hread : p.sent.mapM Diagnostic.ofJson? = some read) (ha : ∀ a ∈ actions, a.spares = true)
    (hdone : (e.after actions).outcome? (.group group) = some o) :
    (∃ v, o = .value v) ∧ ∀ i < p.sent.length, ∃ o, CallEndsIn (first + i) o actions e ∧
      answered (e.after actions) (.task (first + i)) = o.kept := by
  have hends {i : Nat} {o : Outcome} (hi : i < p.sent.length)
      (ho : (e.after actions).outcome? (.task (first + i)) = some o) : (∃ v, o = .value v) ∧
        ∃ o', CallEndsIn (first + i) o' actions e ∧ answered (e.after actions) (.task (first + i)) = o'.kept := by
    cases h.fate hu hread ha hi with
    | asks _ unsettled =>
      rw [unsettled] at ho
      cases ho
    | came o' ends _ settled =>
      obtain rfl := Option.some.inj (settled.symm.trans ho)
      exact ⟨⟨_, rfl⟩, o', ends, by rw [answered, settled]; rfl⟩
  rcases (hu.herded_after h.herded ha).ended o hdone with ⟨hvalue, hall⟩ | ⟨r, hr, ho, hno⟩
  · refine ⟨hvalue, fun i hi => ?_⟩
    obtain ⟨o', ho'⟩ := hall (.task (first + i)) (mem_fetches.mpr ⟨i, hi, rfl⟩)
    exact (hends hi ho').2
  · obtain ⟨i, hi, rfl⟩ := mem_fetches.mp hr
    obtain ⟨⟨v, rfl⟩, _⟩ := hends hi ho
    exact absurd rfl (hno v)

/-- When the presentation goes on that has waited, it places its diagnostics, each with what was kept of its call. -/
theorem Presentation.Waits.stretch {s : Stretch} (h : p.Waits m first group e) (hu : Undeterred e)
    (hm : m < e.nextRef) (hread : p.sent.mapM Diagnostic.ofJson? = some read) (ha : ∀ a ∈ actions, a.spares = true)
    (hs : (e.after actions).stretch? m = some s) :
    (∃ found, s = ⟨found, p.placed ((p.fetches first).map (answered (e.after actions))) found⟩) ∧
      ∀ i < p.sent.length, ∃ o, CallEndsIn (first + i) o actions e ∧
        answered (e.after actions) (.task (first + i)) = o.kept := by
  have hc := hu.attended.correlated
  have hu' := hu.after ha
  have hm' : m < (e.after actions).nextRef := Nat.lt_of_lt_of_le hm (lasts_after actions e).nextRef
  rcases hu'.attended.correlated.numbered.goesOn_cases hm' with ⟨hnone, _⟩ | ⟨t, hg, _, hsame⟩
  · rw [hnone] at hs
    cases hs
  obtain rfl := Option.some.inj (hs.symm.trans hsame)
  obtain ⟨job, rest, hready, hjob, ht⟩ := id hg
  -- the presentation has not gone on before
  have hwaited : e.stretches m actions = [] := by
    refine (hc.hands_stretches hm h.frames actions).2.resolve_right fun hgone => ?_
    simp [standing?, ht] at hgone
  have hplace := (hc.place_after actions hm hwaited).trans h.stands
  rw [get?_places, ht, Option.map_some, Option.some.injEq, Task.place, Prod.mk.injEq] at hplace
  obtain ⟨hframes, hwaiting⟩ := hplace
  have hcalled : .call (.wake m) (.group group) ∈ (e.after actions).ready := by
    rw [hready]
    rw [hwaiting] at hjob
    cases job with
    | step n => cases hjob
    | ring alarm => cases hjob
    | call l r =>
      cases l with
      | wake n =>
        cases hjob
        exact List.mem_cons_self ..
      | _ => cases hjob
  obtain ⟨o, ho⟩ := hu'.spared.punctual.ended _ _ hcalled
  obtain ⟨⟨v, rfl⟩, hcame⟩ := h.goes hu hread ha ho
  have hhanded : (e.after actions).handed t = .value v := by
    have hflag := hu'.spared.handed ht (by rw [hframes]; exact fun hb => by cases hb)
    rw [handed, hflag, if_neg Bool.false_ne_true, hwaiting, awaited, Option.bind_some, ho, Option.getD_some]
  refine ⟨⟨(e.after actions).popped.pick m, ?_⟩, hcame⟩
  rw [hframes, hhanded, unwind_singleton]
  rfl

/-- When the presentation ends that has waited, all its diagnostics are shown, or it has been superseded. -/
theorem Presentation.Waits.completes {s : Stretch} (h : p.Waits m first group e) (hu : Undeterred e)
    (hm : m < e.nextRef) (hread : p.sent.mapM Diagnostic.ofJson? = some read) (hsource : p.source ≠ .nowhere)
    (ha : ∀ a ∈ actions, a.spares = true)
    (hoffers : ∀ i < p.sent.length, ∀ v, p.Fetches first actions e i (.value v) → v.json.offersActions = true)
    (hmem : s ∈ e.stretches m actions) (ho : s.ended? = some o) :
    p.Completes read (p.Fetches first actions e) s o := by
  obtain ⟨early, late, rfl, hs⟩ := mem_stretches actions hmem
  obtain ⟨⟨found, rfl⟩, hcame⟩ := h.stretch hu hm hread (fun a hmem => ha a (List.mem_append_left _ hmem)) hs
  have hkept (i : Nat) (answer : Json) (hi : ((p.fetches first).map (answered (e.after early)))[i]? = some answer) :
      ∃ o, p.Fetches first (early ++ .run :: late) e i o ∧ answer = o.kept := by
    have hlt : i < p.sent.length := by
      simpa [Presentation.fetches] using (List.getElem?_eq_some_iff.mp hi).1
    obtain ⟨o, hends, hanswer⟩ := hcame i hlt
    refine ⟨o, (fetches_iff hsource).mpr (hends.append _), ?_⟩
    simpa [Presentation.fetches, hlt, hanswer, eq_comm] using hi
  refine completes_placed hread (by simp [Presentation.fetches]) (fun answer hmem => ?_) hkept (run_of_ended? ho)
  obtain ⟨i, hi, rfl⟩ := List.getElem_of_mem hmem
  obtain ⟨o, ho, hsame⟩ := hkept i _ (List.getElem?_eq_getElem hi)
  rw [hsame]
  cases o with
  | value v => exact hoffers i (by simpa [Presentation.fetches] using hi) v ho
  | failure f => rfl
  | cancelled => rfl

/-- When all the calls have come out and there is nothing left to do, the presentation has gone on. -/
theorem Presentation.Waits.returns (h : p.Waits m first group e) (hu : Undeterred e) (hm : m < e.nextRef)
    (hread : p.sent.mapM Diagnostic.ofJson? = some read) (hne : p.sent ≠ []) (ha : ∀ a ∈ actions, a.spares = true)
    (hidle : (e.after actions).ready = [])
    (hall : ∀ i < p.sent.length, ∃ o, CallEndsIn (first + i) o actions e) :
    ∃ s ∈ e.stretches m actions, s.ended?.isSome = true := by
  have hc := hu.attended.correlated
  cases hstretches : e.stretches m actions with
  | cons s rest =>
    have hmem : s ∈ e.stretches m actions := hstretches ▸ List.mem_cons_self ..
    exact ⟨s, List.mem_cons_self .., ((hc.hands_stretches hm h.frames actions).1 s hmem).2⟩
  | nil =>
    -- it would wait for one of the calls
    have hwakes := hc.wakes_after h.herded.known hm h.stands h.wakes hstretches
    have hnil : p.fetches first ≠ [] := by simpa [Presentation.fetches] using hne
    obtain ⟨r, hr, hopen⟩ := (hu.herded_after h.herded ha).unfinished hidle (hwakes.open_of_idle hidle) hnil
    obtain ⟨i, hi, rfl⟩ := mem_fetches.mp hr
    obtain ⟨o, ho⟩ := hall i hi
    cases h.fate hu hread ha hi with
    | asks waits _ => exact absurd ho (waits o)
    | came _ _ _ settled =>
      rw [settled] at hopen
      cases hopen

/-! ### The beginning of a presentation -/

/-- The task fetches the code actions of a diagnostic, and leaves alone what the document shows. -/
structure Presentation.Fetcher (p : Presentation) (k : Nat) (diagnostic : Json) (actions : List Action) (e : Engine) :
    Prop where
  begins : e.places.get? k = some ([.begin (.fetchActions p.doc p.source diagnostic)], none)
  discreet : ∀ s ∈ e.stretches k actions, Discreet p.doc s.found s.left

/-- A task that is to begin with an operation begins with it in its next stretch. -/
theorem Correlated.begun {s : Stretch} (hc : Correlated ([], e)) (hb : e.places.get? m = some ([.begin op], none))
    (hs : e.stretch? m = some s) : ∃ t, e.GoesOn m t ∧ t.frames = [.begin op] ∧
      e.runNext = e.popped.runTask m t (.value .nothing) ∧
      s = ⟨e.popped.pick m, runOf m t (.value .nothing) e.popped⟩ := by
  have hm : m < e.nextRef := by
    refine hc.numbered.lt m ?_
    rw [← keys_places]
    exact Table.mem_keys_iff.mpr ⟨_, hb⟩
  rcases hc.numbered.goesOn_cases hm with ⟨hnone, _⟩ | ⟨t, hg, hran, hsame⟩
  · rw [hnone] at hs
    cases hs
  · obtain ⟨_, _, _, _, ht⟩ := id hg
    obtain ⟨hframes, hwaiting⟩ : t.frames = [.begin op] ∧ t.waiting = none := by
      simpa [get?_places, ht, Task.place] using hb
    have hnothing : awaited t.waiting e = .value .nothing := by rw [hwaiting]; rfl
    rw [hnothing] at hran
    refine ⟨t, hg, hframes, hran, ?_⟩
    rw [Option.some.inj (hs.symm.trans hsame), handed, hnothing]

variable {s : Stretch}

theorem Correlated.hands_course (hc : Correlated ([], e)) (hb : e.places.get? m = some ([.begin op], none))
    (hs : e.stretch? m = some s) (hp : Presents op s.found p start) (actions : List Action) :
    ∀ s' ∈ ⟨start, s.run⟩ :: e.runNext.stretches m actions, p.Hands s' := by
  obtain ⟨t, hg, hframes, hran, rfl⟩ := hc.begun hb hs
  have hm : m < e.nextRef := by
    obtain ⟨_, _, _, _, ht⟩ := hg
    exact hc.numbered.lt m (Table.mem_keys_iff.mpr ⟨t, ht⟩)
  have hm' : m < e.runNext.nextRef := Nat.lt_of_lt_of_le hm (lasts_act .run e).nextRef
  have hnext : Correlated ([], e.runNext) := hc.act .run
  have hstanding : e.runNext.standing? m = leaves? (runOf m t (.value .nothing) e.popped) := by
    rw [hran, standing?_runTask]
  have hbegins := hp.begins (if t.cancelRequested then .cancelled else .value .nothing)
  rw [← hframes] at hbegins
  refine List.forall_mem_cons.mpr ⟨?_, fun s' hs' =>
    ((hnext.hands_stretches hm' (fun frames hf => ?_) actions).1 s' hs').1⟩
  · rcases hbegins with hrun | ⟨_, hrun⟩
    · rw [runOf, hrun]
      exact hands_run p start
    · rw [runOf, hrun]
      exact .unchanged (by simp [Stretch.ended?]) (hp.same (n := none)).2.2.1.symm
  · rw [hstanding] at hf
    rcases hbegins with hrun | ⟨_, hrun⟩
    · rw [runOf, hrun] at hf
      rcases leaves?_run p start with hnone | ⟨fetches, hsome⟩
      · rw [hnone] at hf
        cases hf
      · exact ⟨fetches, Option.some.inj (hf.symm.trans hsome)⟩
    · rw [runOf, hrun] at hf
      cases hf

theorem Correlated.fetchers (hc : Correlated ([], e)) (hb : e.places.get? m = some ([.begin op], none))
    (hs : e.stretch? m = some s) (hp : Presents op s.found p start) (hwaits : s.ended? = none) {i : Nat}
    {diagnostic : Json} (hi : p.sent[i]? = some diagnostic) (actions : List Action) :
    p.Fetcher (start.nextRef + i) diagnostic actions e.runNext := by
  obtain ⟨t, hg, hframes, hran, rfl⟩ := hc.begun hb hs
  have hpopped : Correlated ([], e.popped) := hc.calm (calm_tallies hg.tallies) (.of_tallies hg.tallies) rfl
  obtain ⟨_, _, _, _, ht⟩ := hg
  have hbegins := hp.begins (if t.cancelRequested then .cancelled else .value .nothing)
  rw [← hframes] at hbegins
  have hrun : runOf m t (.value .nothing) e.popped = p.run start := by
    refine hbegins.resolve_right fun ⟨_, hrun⟩ => ?_
    rw [runOf, hrun] at hwaits
    cases hwaits
  have hnumbered : Numbered (e.popped.pick m) := (hpopped.pick ht).numbered
  have hm : m < start.nextRef := by
    rw [(hp.same (n := none)).2.1]
    exact hc.numbered.lt m (Table.mem_keys_iff.mpr ⟨t, ht⟩)
  have hrests : Rests m (runOf m t (.value .nothing) e.popped) e.runNext := hran ▸ rests_runTask m t _ e.popped
  rw [hrun] at hrests hwaits
  have hsource : p.source ≠ .nowhere := by
    rcases p.run_cases start with ⟨_, hrun⟩ | ⟨hsource, _, _⟩
    · rcases placed_cases p (p.sent.map fun _ => .null) start with ⟨_, _, _, heq⟩ | ⟨_, ⟨_, _, heq⟩ | ⟨_, _, heq⟩⟩ <;>
        rw [hrun, heq] at hwaits <;> cases hwaits
    · exact hsource
  have hplace := (hp.numbered hnumbered).place_fetch hm hrests hsource hi
  have hnext : Correlated ([], e.runNext) := hc.act .run
  have hk : start.nextRef + i < e.runNext.nextRef := by
    refine hnext.numbered.lt _ ?_
    rw [← keys_places]
    exact Table.mem_keys_iff.mpr ⟨_, hplace⟩
  refine ⟨hplace, hnext.discreet_stretches hk (fun frames hf => ?_) actions⟩
  rw [standing?_eq, hplace] at hf
  obtain rfl := Option.some.inj hf
  simp [Presenting, Frame.presents?]

/-- How a presentation begins in the first stretch of its task, when the outside has cancelled nothing: it places its
    diagnostics since there is no one to call, or it waits for its calls. -/
inductive Presentation.Begins (p : Presentation) (m : Nat) (start : Engine) (s : Stretch) (e : Engine) : Prop where
  | alone (none : p.source = .nowhere ∨ p.sent = []) (run : s.run = p.placed (p.sent.map fun _ => .null) start)
      (last : ∀ actions, e.stretches m actions = [])
  | calls (source : p.source ≠ .nowhere) (some : p.sent ≠ []) (waits : s.ended? = none)
      (waiting : p.Waits m start.nextRef (p.fetchers start).2.nextRef e)

theorem Undeterred.begins (hu : Undeterred e) (hb : e.places.get? m = some ([.begin op], none))
    (hs : e.stretch? m = some s) (hp : Presents op s.found p start) :
    m < e.runNext.nextRef ∧ p.Begins m start s e.runNext := by
  obtain ⟨t, hg, hframes, hran, rfl⟩ := hu.attended.correlated.begun hb hs
  obtain ⟨hc, hsp, _⟩ := hu.popped hg
  obtain ⟨_, _, _, _, ht⟩ := id hg
  have hflag := hu.spared.handed ht (hframes ▸ hp.not_brief)
  have hrun : runOf m t (.value .nothing) e.popped = p.run start := by
    have hbegins := hp.begins (.value .nothing)
    rw [runOf, hflag, if_neg Bool.false_ne_true, hframes]
    exact hbegins.resolve_right (by simp)
  have hnext : Undeterred e.runNext := hu.act (a := .run) rfl
  have hlt : m < e.nextRef := hu.attended.correlated.numbered.lt m (Table.mem_keys_iff.mpr ⟨t, ht⟩)
  have hm : m < e.runNext.nextRef := Nat.lt_of_lt_of_le hlt (lasts_act .run e).nextRef
  rcases p.run_cases start with ⟨hnone, hplaced⟩ | ⟨hsource, hsome, hwaits⟩
  · have hstanding : e.runNext.standing? m = none := by
      rw [hran, standing?_runTask, hrun, hplaced, leaves?_placed]
    exact ⟨hm, .alone hnone (hrun.trans hplaced) (hnext.attended.correlated.stretches_ended hm hstanding)⟩
  · refine ⟨hm, .calls hsource hsome ?_ (hran ▸ hsp.waits hc ht hp hrun hsource hsome)⟩
    rw [hrun, hwaits]
    rfl

/-- Where there is no one to call, each call comes to nothing. -/
theorem fetches_alone (hnone : p.source = .nowhere ∨ p.sent = []) {i : Nat} (hi : i < p.sent.length) :
    p.Fetches m actions e i o ↔ o = .value .nothing := by
  rcases hnone with hno | hnil
  · rw [Presentation.Fetches, hno]
  · simp [hnil] at hi

/-- Each call comes out once at most. -/
theorem Presentation.Begins.once (h : p.Begins m start s e) (hu : Undeterred e)
    (hread : p.sent.mapM Diagnostic.ofJson? = some read) (ha : ∀ a ∈ actions, a.spares = true) {i : Nat}
    (hi : i < p.sent.length) {o o' : Outcome} (ho : p.Fetches start.nextRef actions e i o)
    (ho' : p.Fetches start.nextRef actions e i o') : o = o' := by
  cases h with
  | alone hnone => rw [(fetches_alone hnone hi).mp ho, (fetches_alone hnone hi).mp ho']
  | calls hsource _ _ hwaiting =>
    rw [fetches_iff hsource] at ho ho'
    cases hwaiting.fate hu hread ha hi with
    | asks waits _ => exact absurd ho (waits o)
    | came _ _ once _ => exact (once o ho).trans (once o' ho').symm

/-- When all the calls have come out and there is nothing left to do, the presentation has ended. -/
theorem Presentation.Begins.returns (h : p.Begins m start s e) (hu : Undeterred e) (hm : m < e.nextRef)
    (hread : p.sent.mapM Diagnostic.ofJson? = some read) (ha : ∀ a ∈ actions, a.spares = true)
    (hidle : (e.after actions).ready = [])
    (hall : ∀ i < p.sent.length, ∃ o, p.Fetches start.nextRef actions e i o) :
    ∃ s' ∈ ⟨start, s.run⟩ :: e.stretches m actions, s'.ended?.isSome = true := by
  cases h with
  | alone _ hrun => exact ⟨_, List.mem_cons_self .., hrun ▸ ended_placed ..⟩
  | calls hsource hsome _ hwaiting =>
    obtain ⟨s', hmem, hended⟩ := hwaiting.returns hu hm hread hsome ha hidle fun i hi =>
      (hall i hi).imp fun _ => (fetches_iff hsource).mp
    exact ⟨s', List.mem_cons_of_mem _ hmem, hended⟩

/-- The presentation ends as it should. -/
theorem Presentation.Begins.completes (h : p.Begins m start s e) (hu : Undeterred e) (hm : m < e.nextRef)
    (hread : p.sent.mapM Diagnostic.ofJson? = some read) (ha : ∀ a ∈ actions, a.spares = true)
    (hoffers : ∀ i < p.sent.length, ∀ v, p.Fetches start.nextRef actions e i (.value v) →
      v.json.offersActions = true) :
    ∀ s' ∈ ⟨start, s.run⟩ :: e.stretches m actions, ∀ o, s'.ended? = some o →
      p.Completes read (p.Fetches start.nextRef actions e) s' o := by
  cases h with
  | alone hnone hrun hlast =>
    rw [hlast, hrun]
    intro s' hmem o hended
    obtain rfl := List.mem_singleton.mp hmem
    refine completes_placed hread (by simp) (fun answer hmem => ?_) (fun i answer hi => ?_) (run_of_ended? hended)
    · obtain ⟨_, _, rfl⟩ := List.mem_map.mp hmem
      rfl
    · obtain ⟨hlt, rfl⟩ := List.getElem?_eq_some_iff.mp hi
      rw [List.length_map] at hlt
      exact ⟨.value .nothing, (fetches_alone hnone hlt).mpr rfl, by rw [List.getElem_map]; rfl⟩
  | calls hsource _ hwaits hwaiting =>
    refine List.forall_mem_cons.mpr ⟨fun o hended => ?_, fun s' hmem o hended => ?_⟩
    · have hended : s.ended? = some o := hended
      rw [hwaits] at hended
      cases hended
    · exact hwaiting.completes hu hm hread hsource ha hoffers hmem hended

/-! ### All that happens -/

/-- Calls for code actions that no server is asked find these answers, in turn. -/
def prepare (prepared : List PreparedAnswer) (e : Engine) : Engine := { e with preparedActions := prepared }

theorem undeterred_prepare (options : ClientOptions) (script : ServerScript) (prepared : List PreparedAnswer) :
    Undeterred ((create options script).prepare prepared) := by
  have ht : Tallies (create options script) ((create options script).prepare prepared) :=
    tallies_of_same (Nat.le_refl _) rfl
  have hs : Harmless none [] (create options script) ((create options script).prepare prepared) := harmless_tallies ht
  exact {
    attended := ⟨(correlated_create options script).calm (calm_tallies ht) (.of_tallies ht) rfl,
      fun _ hr => by cases hr⟩
    spared := (spared_create options script).harmless hs
    answering := enduring_answering.persists.tallies (answering_create options script) ht
    called := enduring_called.persists.tallies (called_create options script) ht }

/-- However the calls for the code actions come out, in whatever order, and whatever becomes of the text meanwhile,
    a presentation hands the view what it answers or leaves it alone. It returns when all calls have come out, and
    unless it has been superseded it answers each diagnostic with what was kept of its own call. -/
theorem presented_apart (options : ClientOptions) (script : ServerScript) (prepared : List PreparedAnswer)
    (before since : List Action) (m : Nat) (op : Operation) (p : Presentation) (start : Engine) (first : Stretch)
    (hbegins : (((create options script).prepare prepared).after before).places.get? m = some ([.begin op], none))
    (hfirst : (((create options script).prepare prepared).after before).stretch? m = some first)
    (hp : Presents op first.found p start) :
    let e := (((create options script).prepare prepared).after before).runNext
    let course := ⟨start, first.run⟩ :: e.stretches m since
    let came := p.Fetches start.nextRef since e
    (∀ s ∈ course, p.Hands s) ∧
    (first.ended? = none → ∀ i diagnostic, p.sent[i]? = some diagnostic →
      p.Fetcher (start.nextRef + i) diagnostic since e) ∧
    ∀ read, p.sent.mapM Diagnostic.ofJson? = some read → (∀ a ∈ before ++ since, a.spares = true) →
      (∀ i < p.sent.length, ∀ o o', came i o → came i o' → o = o') ∧
      ((e.after since).ready = [] → (∀ i < p.sent.length, ∃ o, came i o) →
        ∃ s ∈ course, s.ended?.isSome = true) ∧
      ((∀ i < p.sent.length, ∀ v, came i (.value v) → v.json.offersActions = true) →
        ∀ s ∈ course, ∀ o, s.ended? = some o → p.Completes read came s o) := by
  intro e course came
  have hstart := undeterred_prepare options script prepared
  have hc := (hstart.attended.after before).correlated
  refine ⟨hc.hands_course hbegins hfirst hp since, fun hwaits i diagnostic hi =>
    hc.fetchers hbegins hfirst hp hwaits hi since, fun read hread hspares => ?_⟩
  obtain ⟨hbefore, hsince⟩ := List.forall_mem_append.mp hspares
  have hu := hstart.after hbefore
  have hnext : Undeterred e := hu.act (a := .run) rfl
  obtain ⟨hm, hb⟩ := hu.begins hbegins hfirst hp
  exact ⟨fun i hi o o' => hb.once hnext hread hsince hi, hb.returns hnext hm hread hsince,
    hb.completes hnext hm hread hsince⟩

/-- A diagnostic in the first line. -/
def spotted (start stop : Int) (message : String) : Json :=
  let place (character : Int) : Json := .obj [("line", .int 0), ("character", .int character)]
  .obj [("range", .obj [("start", place start), ("end", place stop)]), ("message", .str message)]

/-- Two diagnostics that are presented in a document. -/
def spottedTwice : Presentation where
  doc := 0
  sent := [spotted 1 9 "first", spotted 4 3 "second"]
  source := .prepared
  fallback := .str "python"
  superseding := .never

/-- The first call takes its time and fails. The second shortens the text, and finds something. -/
def laggards : List PreparedAnswer :=
  [{ delay := 20, answer := .error (.runtime "nothing found") },
    { delay := 5, newText := some ['a', 'b'], answer := .ok (.arr [.obj [("title", .str "Fix")]]) }]

def presentsSpotted : List Action :=
  [.addSession { document := { uri := "file:///doc", language := "python", incremental := false,
                               text := "abcdef".toList }
                 view := { text := "abcdef".toList } },
    .begin (.present 0 spottedTwice.sent .prepared (.str "python") .never)]

def awaitsLaggards : List Action := [runs 2, [.ring 5], runs 4, [.ring 20], runs 5].flatten

/-- The call has failed. -/
def failed : Outcome → Bool
  | .failure _ => true
  | _ => false

/-- Each is shown with what was found for it, in the shortened text. -/
theorem laggards_presented :
    let e := ((create usual { capabilities := .null }).prepare laggards).after presentsSpotted
    ∃ first, e.stretch? 0 = some first ∧ first.ended? = none ∧
      let came := spottedTwice.Fetches first.found.nextRef awaitsLaggards e.runNext
      (∃ f, came 0 (.failure f)) ∧ (∃ v, came 1 (.value v)) ∧
      ∃ s ∈ e.runNext.stretches 0 awaitsLaggards, ∃ o read, s.ended? = some o ∧ spottedTwice.Hands s ∧
        s.found.viewText 0 = ['a', 'b'] ∧ spottedTwice.sent.mapM Diagnostic.ofJson? = some read ∧
        spottedTwice.Completes read came s o := by
  intro e
  have hbegins : e.places.get? 0 =
      some ([.begin (.present 0 spottedTwice.sent .prepared (.str "python") .never)], none) := rfl
  obtain ⟨hfound, hwaits, hread, hspares, hidle, hfails, hfinds, htext⟩ :
      (e.stretch? 0).map (·.found.nextRef) = some 1 ∧ ((e.stretch? 0).bind (·.ended?)).isNone = true ∧
      (spottedTwice.sent.mapM Diagnostic.ofJson?).isSome = true ∧
      (∀ a ∈ presentsSpotted ++ awaitsLaggards, a.spares = true) ∧
      (e.runNext.after awaitsLaggards).ready.isEmpty = true ∧
      (e.runNext.callOutcomes 1 awaitsLaggards).any failed = true ∧
      (e.runNext.callOutcomes 2 awaitsLaggards).any (fun o => o.kept.truthy && o.kept.offersActions) = true ∧
      ∀ s ∈ e.runNext.stretches 0 awaitsLaggards, s.found.viewText 0 = ['a', 'b'] := by
    decide +kernel
  obtain ⟨first, hfirst, hnext⟩ := Option.map_eq_some_iff.mp hfound
  have hended : first.ended? = none := by simpa [hfirst] using hwaits
  obtain ⟨read, hread⟩ := Option.isSome_iff_exists.mp hread
  obtain ⟨hhands, _, hends⟩ := presented_apart usual { capabilities := .null } laggards presentsSpotted
    awaitsLaggards 0 (.present 0 spottedTwice.sent .prepared (.str "python") .never) spottedTwice first.found first
    hbegins hfirst (.itself spottedTwice first.found)
  obtain ⟨honce, hreturns, hcompletes⟩ := hends read hread hspares
  have hcame {i : Nat} {o : Outcome} : spottedTwice.Fetches first.found.nextRef awaitsLaggards e.runNext i o ↔
      o ∈ e.runNext.callOutcomes (1 + i) awaitsLaggards := by
    rw [fetches_iff (by simp [spottedTwice]), mem_callOutcomes, hnext]
  obtain ⟨f, hf⟩ : ∃ f, .failure f ∈ e.runNext.callOutcomes (1 + 0) awaitsLaggards := by
    obtain ⟨o, hmem, ho⟩ := List.any_eq_true.mp hfails
    cases o with
    | failure f => exact ⟨f, hmem⟩
    | _ => cases ho
  obtain ⟨v, hv, hoffers⟩ : ∃ v, .value v ∈ e.runNext.callOutcomes (1 + 1) awaitsLaggards ∧
      v.json.offersActions = true := by
    obtain ⟨o, hmem, ho⟩ := List.any_eq_true.mp hfinds
    cases o with
    | value v =>
      obtain ⟨-, hoffers⟩ := Bool.and_eq_true_iff.mp ho
      exact ⟨v, hmem, hoffers⟩
    | _ => cases ho
  have hcases {i : Nat} (hi : i < spottedTwice.sent.length) : i = 0 ∨ i = 1 := by
    have hlt : i < 2 := hi
    omega
  obtain ⟨s, hmem, hs⟩ := hreturns (List.isEmpty_iff.mp hidle) fun i hi => by
    obtain rfl | rfl := hcases hi
    · exact ⟨_, hcame.mpr hf⟩
    · exact ⟨_, hcame.mpr hv⟩
  obtain ⟨o, ho⟩ := Option.isSome_iff_exists.mp hs
  have hlater : s ∈ e.runNext.stretches 0 awaitsLaggards := by
    refine (List.mem_cons.mp hmem).resolve_left fun hsame => ?_
    have hfirst : s.ended? = first.ended? := by rw [hsame]
    rw [hfirst, hended] at ho
    cases ho
  refine ⟨first, hfirst, hended, ⟨f, hcame.mpr hf⟩, ⟨v, hcame.mpr hv⟩, s, hlater, o, read, ho, hhands s hmem,
    htext s hlater, hread, hcompletes (fun i hi v' hv' => ?_) s hmem o ho⟩
  obtain rfl | rfl := hcases hi
  · cases honce 0 hi _ _ hv' (hcame.mpr hf)
  · cases honce 1 hi _ _ hv' (hcame.mpr hv)
    exact hoffers

end Engine

end LanguageClient
