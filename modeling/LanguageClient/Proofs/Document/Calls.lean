import LanguageClient.Proofs.Document.Fetches
import LanguageClient.Proofs.Engine.Places
import LanguageClient.Proofs.Engine.Stretches

/-!
The call for the code actions of one diagnostic. The task that fetches them makes one call, wherever they come
from, and ends with what is kept of it (`Fate`): the answer, or nothing if the call has failed. So a failure
goes no further than that task, in whatever order the calls of several tasks come to their ends.

    begin ──call──▶ · · · ──▶ answered v      v
                     └──────▶ failed          nothing
-/

namespace LanguageClient

/-- What is kept of a call that has come out so: its answer, or nothing if there is none. -/
def Outcome.kept : Outcome → Json
  | .value v => v.json
  | _ => .null

namespace Engine

variable {doc k : Nat} {source : ActionSource} {diagnostic : Json} {d : Diagnostic} {st : List Frame}
  {o o' : Outcome} {e e' : Engine} {t : Task} {a : Action} {actions : List Action}

/-- Calls for the code actions of a diagnostic. -/
def callActions (doc : Nat) (source : ActionSource) (diagnostic : Json) (e : Engine) : Run :=
  let asked : Except Failure (Json × Json) := do
    return (← diagnostic.require "range", .arr [← diagnostic.get "code"])
  match asked with
  | .error f => e.fail f
  | .ok (range, codes) =>
    match source with
    | .nowhere => e.answer .nothing
    | .server => e.codeActions doc range codes
    | .prepared => e.fetchPrepared doc range codes

/-- The call in a run of the task that makes it. -/
def calling : List Frame → Outcome → Engine → Run
  | [.begin (.fetchActions ..)], .cancelled, e => e.finish .cancelled
  | [.begin (.fetchActions doc source diagnostic)], _, e => e.callActions doc source diagnostic
  | f :: _, o, e => resume f o e
  | [], o, e => e.finish o

/-- In the first job the call of the task comes out so. -/
def CallEnds (k : Nat) (o : Outcome) (e : Engine) : Prop :=
  ∃ t, e.GoesOn k t ∧ (calling t.frames (e.handed t) (e.popped.pick k)).2 = .done o

/-- While the actions are done the call of the task comes out so. -/
def CallEndsIn (k : Nat) (o : Outcome) (actions : List Action) (e : Engine) : Prop :=
  ∃ early late, actions = early ++ .run :: late ∧ (e.after early).CallEnds k o

/-- How the call of the task comes out in the first job, if it does. -/
def callEnds? (k : Nat) (e : Engine) : Option Outcome :=
  match e.ready.head?.bind Job.wakes?, e.tasks.get? k with
  | some woken, some t =>
    if woken = (k, t.waiting) then
      Stretch.ended? ⟨e.popped.pick k, calling t.frames (e.handed t) (e.popped.pick k)⟩
    else none
  | _, _ => none

/-- How the call of the task comes out while some actions are done. -/
def callOutcomes (k : Nat) : List Action → Engine → List Outcome
  | [], _ => []
  | .run :: rest, e => (e.callEnds? k).toList ++ callOutcomes k rest (e.act .run)
  | a :: rest, e => callOutcomes k rest (e.act a)

/-- The frames of a task that fetches the code actions of a diagnostic: it is to begin, or its call is under way. -/
inductive Asking (doc : Nat) (diagnostic : Json) : ActionSource → List Frame → Prop where
  | begins (source : ActionSource) : Asking doc diagnostic source [.begin (.fetchActions doc source diagnostic)]
  | awaits {f : Frame} {id : Nat} : f.call? = some (id, actionsMethod) →
      Asking doc diagnostic .server [f, .actionsFetched diagnostic]
  | delays (entry : PreparedAnswer) :
      Asking doc diagnostic .prepared [.preparedActions doc entry, .actionsFetched diagnostic]

/-- What has become of the task when the actions are done: its call is still under way, or it has come out, once, and
    the task has ended with what is kept of it. -/
inductive Fate (k : Nat) (actions : List Action) (e : Engine) : Prop where
  | asks (waits : ∀ o, ¬ CallEndsIn k o actions e) (unsettled : (e.after actions).outcome? (.task k) = none)
  | came (o : Outcome) (ends : CallEndsIn k o actions e) (once : ∀ o', CallEndsIn k o' actions e → o' = o)
      (settled : (e.after actions).outcome? (.task k) = some (.value (.data o.kept)))

/-! ### The task and its call -/

theorem Asking.not_brief (h : Asking doc diagnostic source st) : ¬ Brief st := by
  intro hb
  cases h with
  | begins => cases hb
  | awaits => cases hb
  | delays => cases hb

/-- The task does nothing but make the call, and see to what it comes to. -/
theorem Asking.unwind (h : Asking doc diagnostic source st) (o : Outcome) (e : Engine) :
    Engine.unwind st o e =
      Engine.andThen (calling st o e) (.actionsFetched diagnostic) (actionsFetched diagnostic) := by
  cases h with
  | begins =>
    rw [unwind_singleton]
    cases o with
    | cancelled => rfl
    | value v => rfl
    | failure f => rfl
  | awaits =>
    simp only [unwind_pair, calling]
    rfl
  | delays => exact unwind_pair ..

/-- What was to become of a diagnostic that is well formed if its call came out so. -/
theorem actionsFetched_ends (hd : Diagnostic.ofJson? diagnostic = some d) (ho : o ≠ .cancelled) (e : Engine) :
    (actionsFetched diagnostic o e).2 = .done (.value (.data o.kept)) := by
  cases o with
  | cancelled => exact absurd rfl ho
  | value v => rfl
  | failure f =>
    obtain ⟨range, hrange⟩ := Diagnostic.range_of_ofJson? hd
    simp only [actionsFetched, actionsFailed, Json.getOr_of_member? hrange, bind, Except.bind, pure, Except.pure]
    rfl

theorem yields_done {P : List Frame → Engine → Prop} {Q : Outcome → Engine → Prop} {run : Run}
    (h : run.2 = .done o) (hq : ∀ e, Q o e) : Yields P Q run := by
  obtain ⟨e, progress⟩ := run
  subst h
  exact hq e

/-- A prepared answer comes out as it was prepared, unless the wait for it is cut short. -/
theorem yields_givePrepared (doc : Nat) (entry : PreparedAnswer) (ho : o ≠ .cancelled) (e : Engine) :
    Yields (fun _ _ => False) (fun o _ => o ≠ .cancelled) (givePrepared doc entry o e) := by
  cases o with
  | cancelled => exact absurd rfl ho
  | failure f => exact ho
  | value v =>
    change Outcome.ofExcept (entry.answer.map .data) ≠ .cancelled
    cases entry.answer with
    | ok answer => simp [Except.map, Outcome.ofExcept]
    | error f => simp [Except.map, Outcome.ofExcept]

theorem yields_fetchPrepared (doc : Nat) (range codes : Json) (e : Engine) :
    Yields (fun frames _ => ∃ entry, frames = [.preparedActions doc entry]) (fun o _ => o ≠ .cancelled)
      (e.fetchPrepared doc range codes) := by
  have hgiven {o : Outcome} (entry : PreparedAnswer) (ho : o ≠ .cancelled) (e : Engine) :
      Yields (fun frames _ => ∃ entry, frames = [.preparedActions doc entry]) (fun o _ => o ≠ .cancelled)
        (givePrepared doc entry o e) :=
    (yields_givePrepared doc entry ho e).imp (fun _ _ => False.elim) fun _ _ => id
  unfold fetchPrepared
  simp only
  split
  · exact hgiven _ (by simp) _
  · have hsleep : Yields (fun frames _ => frames = []) (fun _ _ => False)
        (sleep ((e.preparedActions[e.actionCalls.length]?).getD {}).delay
          { e with actionCalls := e.actionCalls ++ [(range, codes)] }) := yields_sleep _ fun _ => rfl
    refine hsleep.andThen (fun _ _ => False.elim) fun frames _ hframes => ?_
    exact ⟨_, by rw [hframes]; rfl⟩

/-- What a call comes to that the server is not asked for. -/
theorem yields_calling (hd : Diagnostic.ofJson? diagnostic = some d) (h : Asking doc diagnostic source st)
    (hs : source ≠ .server) (ho : o ≠ .cancelled) (e : Engine) :
    Yields (fun frames _ => source = .prepared ∧ ∃ entry, frames = [.preparedActions doc entry])
      (fun o _ => o ≠ .cancelled) (calling st o e) := by
  cases h with
  | begins source =>
    obtain ⟨range, hrange⟩ := Diagnostic.range_of_ofJson? hd
    have hbegin : calling [.begin (.fetchActions doc source diagnostic)] o e =
        e.callActions doc source diagnostic := by
      cases o with
      | cancelled => exact absurd rfl ho
      | value v => rfl
      | failure f => rfl
    rw [hbegin]
    simp only [callActions, Json.require_of_member? hrange, Json.get_of_member? hrange, bind, Except.bind, pure,
      Except.pure]
    cases source with
    | server => exact absurd rfl hs
    | nowhere => exact Outcome.noConfusion
    | prepared => exact (yields_fetchPrepared doc range _ e).imp (fun _ _ h => ⟨rfl, h⟩) fun _ _ => id
  | awaits => exact absurd rfl hs
  | delays entry =>
    simp only [calling]
    exact (yields_givePrepared doc entry ho e).imp (fun _ _ => False.elim) fun _ _ => id

/-- The task of a diagnostic that is well formed comes to a value, whatever its call comes to. -/
theorem route_asks (doc : Nat) (source : ActionSource) (hd : Diagnostic.ofJson? diagnostic = some d) :
    Route (Advised fun _ => True) (Asking doc diagnostic source) (fun o => ∃ v, o = .value v) where
  solid := Asking.not_brief
  tallies h ht := h.tallies ht
  runs {e m t o} h hc ht hst hh ho := by
    by_cases hs : source = .server
    · subst hs
      have hfetching : Fetching doc diagnostic t.frames := by
        generalize t.frames = frames at hst
        cases hst with
        | begins => exact .begins
        | awaits hf => exact .awaits hf
      refine ((route_fetches doc (fun _ => True) hd).runs h hc ht hfetching hh ho).imp
        (fun frames e hp => ⟨?_, hp.2⟩) fun _ _ hsupplied => ?_
      · cases hp.1 with
        | begins => exact .begins _
        | awaits hf => exact .awaits hf
      · obtain ⟨v, rfl, _⟩ := hsupplied
        exact ⟨v, rfl⟩
    · rw [hst.unwind]
      refine (yields_calling hd hst hs ho (e.pick m)).andThen (fun o e ho => ?_) fun frames e hframes => ?_
      · exact yields_done (actionsFetched_ends hd ho e) fun _ => ⟨_, rfl⟩
      · obtain ⟨rfl, entry, rfl⟩ := hframes
        exact ⟨.delays entry, .of_no_request (by simp [Frame.request?]) e⟩

/-! ### States in which no one has been cut short -/

/-- What is known of a state before which the outside has cancelled nothing. -/
structure Undeterred (e : Engine) : Prop where
  attended : Attended e
  spared : Spared none e.nextRef e
  answering : Answering ([], e)
  called : Called ([], e)

theorem Undeterred.advised (h : Undeterred e) : Advised (fun _ => True) e :=
  ⟨h.answering, h.called, fun _ _ => trivial⟩

theorem Undeterred.act (h : Undeterred e) (ha : a.spares = true) : Undeterred (e.act a) where
  attended := h.attended.act a
  spared := h.spared.act h.attended.correlated ha
  answering := enduring_answering.act h.answering h.attended a
  called := enduring_called.act h.called h.attended a

theorem Undeterred.after (h : Undeterred e) (ha : ∀ a ∈ actions, a.spares = true) :
    Undeterred (e.after actions) := by
  induction actions generalizing e with
  | nil => exact h
  | cons a rest ih =>
    obtain ⟨ha, hrest⟩ := List.forall_mem_cons.mp ha
    exact ih (h.act ha) hrest

theorem GoesOn.tallies (h : e.GoesOn k t) : Tallies e e.popped := by
  obtain ⟨job, rest, hready, hjob, _⟩ := h
  have hpopped : e.popped = { e with ready := rest } := by rw [popped, hready, List.tail_cons]
  exact hpopped ▸ tallies_pop hready (Job.tells_of_wakes? hjob)

/-- Nothing is cut short by taking a job from the queue. -/
theorem Undeterred.popped (h : Undeterred e) (hg : e.GoesOn k t) : Correlated ([], e.popped) ∧
    Spared none e.popped.nextRef e.popped ∧ Advised (fun _ => True) e.popped := by
  have ht := hg.tallies
  have hs : Harmless none [] e e.popped := harmless_tallies ht
  exact ⟨h.attended.correlated.calm (calm_tallies ht) (.of_tallies ht) rfl,
    (h.spared.harmless hs).raise hs.nextRef (Nat.le_refl _), h.advised.tallies ht⟩

/-- A task that is not brief goes on with what it has waited for. -/
theorem Spared.handed (h : Spared none e.nextRef e) (ht : e.tasks.get? k = some t) (hb : ¬ Brief t.frames) :
    t.cancelRequested = false := by
  rw [← Bool.not_eq_true]
  intro hstop
  exact hb ((h.flagged k t ht hstop).resolve_left (by simp)).frames

/-! ### How a call comes out -/

theorem CallEnds.unique (h : e.CallEnds k o) (h' : e.CallEnds k o') : o = o' := by
  obtain ⟨t, hg, hends⟩ := h
  obtain ⟨t', hg', hends'⟩ := h'
  obtain ⟨_, rfl⟩ := hg.unique hg'
  exact Progress.done.inj (hends.symm.trans hends')

theorem callEndsIn_cons : CallEndsIn k o (a :: actions) e ↔
    (a = .run ∧ e.CallEnds k o) ∨ CallEndsIn k o actions (e.act a) := by
  constructor
  · rintro ⟨early, late, heq, hends⟩
    cases early with
    | nil =>
      obtain ⟨rfl, _⟩ := List.cons.inj heq
      exact .inl ⟨rfl, hends⟩
    | cons a' early =>
      obtain ⟨rfl, rfl⟩ := List.cons.inj heq
      exact .inr ⟨early, late, rfl, hends⟩
  · rintro (⟨rfl, hends⟩ | ⟨early, late, rfl, hends⟩)
    · exact ⟨[], actions, rfl, hends⟩
    · exact ⟨a :: early, late, rfl, hends⟩

theorem not_callEndsIn_nil : ¬ CallEndsIn k o [] e := by
  rintro ⟨early, late, heq, _⟩
  cases early <;> cases heq

theorem callEnds_iff : e.CallEnds k o ↔ e.callEnds? k = some o := by
  have hends {run : Run} : Stretch.ended? ⟨e.popped.pick k, run⟩ = some o ↔ run.2 = .done o := by
    obtain ⟨e', progress⟩ := run
    cases progress <;> simp [Stretch.ended?]
  constructor
  · rintro ⟨t, ⟨job, rest, hready, hjob, ht⟩, hdone⟩
    simp only [callEnds?, hready, List.head?_cons, Option.bind_some, hjob, ht, if_true]
    exact hends.mpr hdone
  · intro h
    unfold callEnds? at h
    split at h
    · rename_i woken t hwoken ht
      split at h
      · rename_i hsame
        obtain ⟨job, hhead, hjob⟩ := Option.bind_eq_some_iff.mp hwoken
        obtain ⟨rest, hready⟩ := List.head?_eq_some_iff.mp hhead
        exact ⟨t, ⟨job, rest, hready, hsame ▸ hjob, ht⟩, hends.mp h⟩
      · cases h
    · cases h

theorem mem_callOutcomes : ∀ (actions : List Action) (e : Engine),
    o ∈ e.callOutcomes k actions ↔ CallEndsIn k o actions e
  | [], e => iff_of_false (List.not_mem_nil) not_callEndsIn_nil
  | a :: rest, e => by
      rw [callEndsIn_cons, ← mem_callOutcomes rest, callEnds_iff]
      cases a <;> simp [callOutcomes]

/-- A call that comes out while some actions are done has come out when more are. -/
theorem CallEndsIn.append (h : CallEndsIn k o actions e) (more : List Action) :
    CallEndsIn k o (actions ++ more) e := by
  obtain ⟨early, late, rfl, hends⟩ := h
  exact ⟨early, late ++ more, by simp, hends⟩

/-- A task that runs to its end is done for good. -/
theorem Spared.ends (hsp : Spared none e.nextRef e) (hc : Correlated ([], e)) (ht : e.tasks.get? k = some t)
    (hflag : t.cancelRequested = false) (hrun : (Engine.unwind t.frames o (e.pick k)).2 = .done o') :
    EnRoute (fun _ => False) (· = o') k (e.runTask k t o) := by
  obtain ⟨n, _, hrunning, hwho, _, _, hlands⟩ := hsp.ran hc ht o
  have hpick := hc.pick ht
  have hpath := path_reached (leads_unwind t.frames (if t.cancelRequested then .cancelled else o) (e.pick k))
  have hn := hpick.numbered.grows (Path.grows hpath hpick.numbered)
  have hlt := hc.numbered.lt k (Table.mem_keys_iff.mpr ⟨t, ht⟩)
  have hopen := Path.ends hpath (hsp.pick ht (hwho.imp And.left id)) hpick hlt
  rw [if_neg (by simp [hflag])] at hlands hn hrunning hopen
  exact hlands.self hn hrunning (hopen.trans (hsp.opened k t ht).2) (yields_done hrun fun _ => rfl)

/-- A call goes on, or comes out, and then the task ends with what is kept of it. -/
theorem Undeterred.asks_act (hu : Undeterred e) (hd : Diagnostic.ofJson? diagnostic = some d)
    (h : EnRoute (Asking doc diagnostic source) (fun o => ∃ v, o = .value v) k e) (ht : e.tasks.get? k = some t)
    (hst : Asking doc diagnostic source t.frames) (ha : a.spares = true) :
    ((∃ t', (e.act a).tasks.get? k = some t' ∧ Asking doc diagnostic source t'.frames) ∧
      ∀ o, ¬ (a = .run ∧ e.CallEnds k o)) ∨
    ∃ o, a = .run ∧ e.CallEnds k o ∧
      EnRoute (fun _ => False) (· = .value (.data o.kept)) k (e.act a) := by
  have hn := hu.attended.correlated.numbered
  have hlt : k < e.nextRef := hn.lt k (Table.mem_keys_iff.mpr ⟨t, ht⟩)
  -- a task that has not gone on stands where it stood
  have hstays (hsame : (e.act a).places.get? k = e.places.get? k) :
      ∃ t', (e.act a).tasks.get? k = some t' ∧ Asking doc diagnostic source t'.frames := by
    rw [get?_places, get?_places, ht, Option.map_some] at hsame
    obtain ⟨t', ht', hplace⟩ := Option.map_eq_some_iff.mp hsame
    obtain ⟨hframes, _⟩ := Prod.mk.inj hplace
    exact ⟨t', ht', hframes ▸ hst⟩
  by_cases hrun : a = .run
  · subst hrun
    rcases hn.goesOn_cases hlt with ⟨_, hnone, hsame⟩ | ⟨t', hg, hran, _⟩
    · refine .inl ⟨hstays hsame, ?_⟩
      rintro o ⟨_, t', hg, _⟩
      exact hnone t' hg
    · obtain rfl : t = t' := by
        obtain ⟨_, _, _, _, ht'⟩ := hg
        exact Option.some.inj (ht.symm.trans ht')
      obtain ⟨hc, hsp, hadvised⟩ := hu.popped hg
      have hflag := hu.spared.handed ht hst.not_brief
      have hhanded : e.handed t = awaited t.waiting e := by rw [handed, hflag, if_neg Bool.false_ne_true]
      have hhoped : Hoped t.frames e.popped := by
        cases h with
        | goes ht' _ hh =>
          obtain rfl := Option.some.inj (ht.symm.trans ht')
          exact hh
        | finished _ hnone =>
          rw [hnone] at ht
          cases ht
      have hyields := (route_asks doc source hd).runs hadvised hc ht hst hhoped
        (h.awaited (route_asks doc source hd) hu.spared ht)
      have hends (o : Outcome) : e.CallEnds k o ↔
          (calling t.frames (awaited t.waiting e) (e.popped.pick k)).2 = .done o := by
        refine ⟨fun ⟨t', hg', hcall⟩ => ?_, fun hcall => ⟨t, hg, hhanded.symm ▸ hcall⟩⟩
        obtain ⟨_, rfl⟩ := hg.unique hg'
        rwa [hhanded] at hcall
      have hplace := place_runTask k t (awaited t.waiting e) e.popped
      rw [runOf, hflag, if_neg Bool.false_ne_true] at hplace
      -- a run that leaves frames leaves those of a call under way
      have hgoes {p : Option Ref} {frames : List Frame} (hst : Asking doc diagnostic source frames)
          (hleft : e.runNext.places.get? k = some (frames, p)) :
          ∃ t', (e.act .run).tasks.get? k = some t' ∧ Asking doc diagnostic source t'.frames := by
        rw [get?_places] at hleft
        obtain ⟨t', ht', hplace⟩ := Option.map_eq_some_iff.mp hleft
        obtain ⟨rfl, _⟩ := Prod.mk.inj hplace
        exact ⟨t', ht', hst⟩
      rw [hst.unwind] at hyields hplace
      rw [← hran] at hplace
      cases hcall : calling t.frames (awaited t.waiting e) (e.popped.pick k) with
      | mk e' progress =>
        rw [hcall] at hyields hplace
        cases progress with
        | done o =>
          have ho : o ≠ .cancelled := by
            rintro rfl
            obtain ⟨v, hv⟩ := hyields
            cases hv
          refine .inr ⟨o, rfl, (hends o).mpr (by rw [hcall]), ?_⟩
          change EnRoute _ _ k e.runNext
          rw [hran]
          refine hsp.ends hc ht hflag ?_
          rw [hst.unwind, hcall]
          exact actionsFetched_ends hd ho e'
        | wait p frames =>
          refine .inl ⟨hgoes hyields.2.1 hplace, fun o hnot => ?_⟩
          have hdone := (hends o).mp hnot.2
          rw [hcall] at hdone
          cases hdone
        | pause frames =>
          refine .inl ⟨hgoes hyields.1 hplace, fun o hnot => ?_⟩
          have hdone := (hends o).mp hnot.2
          rw [hcall] at hdone
          cases hdone
  · refine .inl ⟨hstays (hn.place_act hlt hrun), fun o hends => hrun hends.1⟩

theorem unsettled_of_goes {P : List Frame → Prop} {Q : Outcome → Prop} (h : EnRoute P Q k e)
    (ht : e.tasks.get? k = some t) : e.outcome? (.task k) = none := by
  cases h with
  | goes _ _ _ _ hopen =>
    rw [outcome?_eq_join, hopen]
    rfl
  | finished _ hnone =>
    rw [hnone] at ht
    cases ht

/-- A task that has ended stays ended. -/
theorem Undeterred.ended_after (hu : Undeterred e) (h : EnRoute (fun _ => False) (· = o) k e)
    (ha : ∀ a ∈ actions, a.spares = true) : EnRoute (fun _ => False) (· = o) k (e.after actions) :=
  EnRoute.after (I := fun _ => True) ⟨False.elim, fun _ _ => trivial, fun _ _ _ hf => hf.elim⟩ actions h hu.spared
    hu.attended.correlated ha fun _ _ _ => trivial

theorem EnRoute.not_callEnds {Q : Outcome → Prop} (h : EnRoute (fun _ => False) Q k e) : ¬ e.CallEnds k o := by
  rintro ⟨t, ⟨_, _, _, _, ht⟩, _⟩
  cases h with
  | goes _ hfalse => exact hfalse
  | finished _ hnone =>
    rw [hnone] at ht
    cases ht

/-- In whatever order things happen, the task of a call ends with what is kept of it, when it has come out. -/
theorem Undeterred.fate (hu : Undeterred e) (hd : Diagnostic.ofJson? diagnostic = some d)
    (h : EnRoute (Asking doc diagnostic source) (fun o => ∃ v, o = .value v) k e) (ht : e.tasks.get? k = some t)
    (hst : Asking doc diagnostic source t.frames) (ha : ∀ a ∈ actions, a.spares = true) : Fate k actions e := by
  induction actions generalizing e t with
  | nil => exact .asks (fun _ => not_callEndsIn_nil) (unsettled_of_goes h ht)
  | cons a rest ih =>
    obtain ⟨ha, hrest⟩ := List.forall_mem_cons.mp ha
    have hu' := hu.act ha
    rcases hu.asks_act hd h ht hst ha with ⟨⟨t', ht', hst'⟩, hnot⟩ | ⟨o, rfl, hends, hended⟩
    · have hlater (o : Outcome) : CallEndsIn k o (a :: rest) e ↔ CallEndsIn k o rest (e.act a) :=
        callEndsIn_cons.trans (or_iff_right (hnot o))
      have hon := h.act (route_asks doc source hd) hu.advised hu.spared hu.attended.correlated ha
      cases ih hu' hon ht' hst' hrest with
      | asks waits unsettled => exact .asks (fun o hin => waits o ((hlater o).mp hin)) unsettled
      | came o ends once settled =>
        exact .came o ((hlater o).mpr ends) (fun o' hin => once o' ((hlater o').mp hin)) settled
    · have hdone := hu'.ended_after hended hrest
      refine .came o (callEndsIn_cons.mpr (.inl ⟨rfl, hends⟩)) (fun o' hin => ?_) ?_
      · rcases callEndsIn_cons.mp hin with ⟨_, hends'⟩ | ⟨early, late, rfl, hlate⟩
        · exact hends'.unique hends
        · have hgone := hu'.ended_after hended fun a hmem => hrest a (List.mem_append_left _ hmem)
          exact absurd hlate hgone.not_callEnds
      · cases hdone with
        | goes _ hfalse => exact hfalse.elim
        | finished _ _ hsettled heq => exact heq ▸ outcome?_of_standing hsettled

end Engine

end LanguageClient
