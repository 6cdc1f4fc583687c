import LanguageClient.Proofs.Client.Replies

/-!
What is sent of the answers to the server. A message that is handed over stands at the gate until it
passes, and only from there is it sent. As long as the connection accepts every message at once, no
answer is kept at the gate, and those that have been handed over are those that have been sent.

    handed ──▶ gate ──▶ sent
-/

namespace LanguageClient

/-- No answer stands at the gate. -/
def Unwaited (st : List Frame) : Prop :=
  ∀ purpose m, .gate purpose m ∈ st → Message.isResponse m = false

theorem Message.isResponse_of_hasMethod {m : Json} (h : hasMethod m = true) : isResponse m = false := by
  simp [isResponse, h]

/-- The answers among the messages that were sent. -/
def responses (sent : List Json) : List Json := sent.filter Message.isResponse

namespace Engine

variable {c c' : Config} {st st' : List Frame} {e e' : Engine} {n : Nat} {t : Task} {id : Json}
  {rest : List Job}

/-! ### The gate -/

theorem gated_of {α : Type} {g : Frame → α} {f : Frame} {a : α} (hf : g f = a)
    (hgate : ∀ purpose m, g (.gate purpose m) ≠ a) : f.gated = false := by
  cases f with
  | gate purpose m => exact absurd hf (hgate purpose m)
  | _ => rfl

/-- No answer has been put on the stack. -/
def Voiced (st st' : List Frame) : Prop :=
  ∀ purpose m, .gate purpose m ∈ st' → .gate purpose m ∈ st ∨ Message.isResponse m = false

theorem Voiced.refl (st : List Frame) : Voiced st st := fun _ _ => .inl

theorem Voiced.tail (f : Frame) (st : List Frame) : Voiced (f :: st) st :=
  fun _ _ hmem => .inl (List.mem_cons_of_mem f hmem)

theorem Voiced.cons {f : Frame} (h : Voiced st st') (hf : f.gated = false) : Voiced st (f :: st') := by
  intro purpose m hmem
  rcases List.mem_cons.mp hmem with rfl | hmem
  · cases hf
  · exact h purpose m hmem

theorem Voiced.gate {m : Json} (h : Voiced st st') (hm : Message.hasMethod m = true)
    (purpose : Purpose) : Voiced st (.gate purpose m :: st') := by
  intro purpose' m' hmem
  rcases List.mem_cons.mp hmem with heq | hmem
  · obtain ⟨rfl, rfl⟩ := Frame.gate.inj heq
    exact .inr (Message.isResponse_of_hasMethod hm)
  · exact h purpose' m' hmem

theorem Voiced.trans {st₁ st₂ st₃ : List Frame} (h : Voiced st₁ st₂) (h' : Voiced st₂ st₃) :
    Voiced st₁ st₃ := by
  intro purpose m hmem
  rcases h' purpose m hmem with hmem | hm
  · exact h purpose m hmem
  · exact .inr hm

theorem voiced_clears {doc : Nat} (h : Clears doc c c') : Voiced c.1 c'.1 := by
  cases h with
  | kept => exact .refl _
  | cancelled => exact .refl _
  | elapsed slot => exact (Voiced.tail _ _).cons rfl

theorem voiced_sends {doc : Nat} (h : Sends doc c c') : Voiced c.1 c'.1 := by
  cases h with
  | idle => exact .refl _
  | told => exact ((Voiced.refl _).cons rfl).gate rfl _
  | closed => exact (Voiced.refl _).cons rfl

theorem voiced_refreshes {doc : Nat} (h : Refreshes doc c c') : Voiced c.1 c'.1 := by
  cases h with
  | idle => exact .refl _
  | @sends st e c' _ hs =>
    have h := voiced_sends hs
    exact h

theorem voiced_asks {name : String} (h : Asks e name st st') : Voiced st st' := by
  cases h with
  | ready => exact .refl _
  | late _ hf' => exact (Voiced.tail _ _).cons (gated_of hf' (by simp [Frame.answers?]))
  | resolving => exact (Voiced.tail _ _).cons rfl
  | told => exact .tail _ _
  | handshake => exact (Voiced.tail _ _).cons rfl

/-- Only the answers that were to begin come to the gate. -/
theorem Step.voiced (hs : Step c c') (hst : Unowing c.1) : Voiced c.1 c'.1 := by
  cases hs with
  | push hf => exact (Voiced.refl _).cons (gated_of hf (by simp [Frame.plain]))
  | late hf _ _ _ hr =>
    exact ((Voiced.refl _).cons (gated_of hf (by simp [Frame.question?]))).trans (voiced_refreshes hr)
  | unasked _ hf' => exact (Voiced.tail _ _).cons (gated_of hf' (by simp [Frame.answers?]))
  | call limit ha => exact (voiced_asks ha).gate rfl _
  | await _ _ _ hf' => exact (Voiced.tail _ _).cons hf'
  | abandon _ _ hf' => exact (Voiced.tail _ _).cons (gated_of hf' (by simp [Frame.hopes]))
  | reply id => exact absurd (List.mem_cons_self ..) (hst id)
  | notify => exact (Voiced.tail _ _).gate rfl _
  | agreed => exact ((Voiced.tail _ _).cons rfl).gate rfl _
  | opening => exact ((Voiced.tail _ _).cons rfl).gate rfl _
  | flush hc hs => exact (voiced_clears hc).trans (voiced_sends hs)
  | gathers | read | close | join | agreedClosed | preset | openingClosed | delay | rehearse =>
    exact (Voiced.tail _ _).cons rfl
  | pop | endRequest | ready | joined | joinedFailed | shutDown | crash | opened => exact .tail _ _
  | agree | pose | remark | shown | promise | gather | settle | spawn | register | transmit | unload | take
  | oblige | notified | respond | startReader | handshake | cancelReader | edit | unscheduled =>
    exact .refl _

/-- What stands at the gate may be sent, and nothing else. -/
theorem Step.sent (hs : Step c c') : c'.2.channel.sent = c.2.channel.sent ∨
    ∃ purpose m, .gate purpose m ∈ c.1 ∧ c'.2.channel.sent = c.2.channel.sent ++ [m] := by
  cases hs.concerns with
  | calm hc => exact .inl hc.sent
  | call | ends => exact .inl rfl
  | @responds st e e' m _ he =>
    rcases resolve_cases he with ⟨ha, _⟩ | ⟨_, _, _, _, _, _, _, rfl⟩
    · exact .inl ha.sent
    · exact .inl (congrArg Channel.sent (settle_channel _ _ _))
  | @breaks st e e' m ha => exact .inl ((calm_shutDown e').sent.trans ha.sent)
  | sends purpose m => exact .inr ⟨purpose, m, List.mem_cons_self .., rfl⟩

/-- As long as no answer is begun and none waits, none is sent. -/
theorem Path.unanswered (hp : Path c c') (hst : Unowing c.1) (hu : Unwaited c.1) :
    Unwaited c'.1 ∧ responses c'.2.channel.sent = responses c.2.channel.sent := by
  induction hp with
  | refl => exact ⟨hu, rfl⟩
  | @tail c₁ c' hp hs ih =>
    obtain ⟨hu₁, hsame⟩ := ih
    refine ⟨fun purpose m hmem => ?_, ?_⟩
    · exact (hs.voiced (Path.unowing hp hst) purpose m hmem).elim (hu₁ purpose m) id
    · rcases hs.sent with heq | ⟨purpose, m, hmem, heq⟩
      · rw [heq, hsame]
      · rw [heq, ← hsame, responses, List.filter_append, List.filter_singleton, hu₁ purpose m hmem]
        exact List.append_nil _

/-! ### The connection -/

/-- Does the connection accept every message at once? -/
def accepts (e : Engine) : Bool :=
  !e.channel.closed && !e.channel.blocked && e.channel.sendFailure.isNone

/-- Does it, at any time before the last of these actions? -/
def accepting : Engine → List Action → Bool
  | _, [] => true
  | e, a :: rest => e.accepts && accepting (e.act a) rest

/-- The answer has been handed over and sent. -/
def replying (id : Json) (e : Engine) : Engine :=
  (e.note (.handed (Message.empty id))).onChannel fun c => { c with sent := c.sent ++ [Message.empty id] }

/-- An answer passes at once, and nothing else happens. -/
theorem reply_of_accepts (h : e.accepts = true) (id : Json) :
    e.reply id = (e.replying id, .done (.value .nothing)) := by
  simp only [accepts, Bool.and_eq_true, Bool.not_eq_true', Option.isNone_iff_eq_none] at h
  obtain ⟨⟨hclosed, hblocked⟩, hfailure⟩ := h
  have hpass : (e.note (.handed (Message.empty id))).transmit (Message.empty id) =
      (.ok (), e.replying id) := by
    simp only [transmit, note, hclosed, hfailure, Bool.false_eq_true, if_false]
    rfl
  change (e.note (.handed (Message.empty id))).pass (.reply id) (Message.empty id) = _
  rw [pass, hpass]
  simp only [note, hblocked, Bool.false_eq_true, if_false]
  rfl

/-! ### Runs -/

/-- What has been handed over as an answer has been sent, and nothing else that is one. -/
structure Delivered (e : Engine) : Prop where
  wire : responses e.channel.sent = replied e.history
  unwaited : Each Unwaited e

theorem unwaited_begin (op : Operation) : Unwaited [.begin op] := by
  intro purpose m hmem
  cases List.mem_singleton.mp hmem

theorem Delivered.tallies (h : Delivered e) (ha : Tallies e e') : Delivered e' :=
  ⟨by rw [ha.sent, ha.history, h.wire], h.unwaited.grows (.of_tallies ha) unwaited_begin⟩

/-- What happens while no task runs answers nothing. -/
theorem wire_path (h : responses e.channel.sent = replied e.history)
    (hp : Path ([], e) ([], e')) (hc : Correlated ([], e)) :
    responses e'.channel.sent = replied e'.history := by
  have hst : Unowing [] := by simp [Unowing]
  have hsame := (Path.unanswered hp hst (by simp [Unwaited])).2
  exact hsame.trans (h.trans (Path.replied hp hc hst).symm)

theorem Delivered.runTask (h : Delivered e) (hd : Dutiful [] e) (hc : Correlated ([], e))
    (ht : e.tasks.get? n = some t) (hdebt : e.debt? n = none) (o : Outcome) :
    Delivered (e.runTask n t o) := by
  have hpick := hc.pick ht
  have hp := path_reached (leads_unwind t.frames (if t.cancelRequested then .cancelled else o)
    (e.pick n))
  have hst := hd.unowing ht hdebt
  obtain ⟨hrests, hsame⟩ := Path.unanswered hp hst (h.unwaited n t ht)
  have hreplied := Path.replied hp hpick hst
  have hrest := rests_runTask n t o e
  have heach : Each Unwaited (e.pick n) := h.unwaited.pick (by simp [Unwaited]) n
  refine ⟨?_, (heach.grows (Path.grows hp hpick.numbered) unwaited_begin).rests hrests
    unwaited_begin hrest⟩
  rw [hrest.history, hrest.sent, hsame, hreplied]
  exact h.wire

/-- The answer has been sent, and the task is over. -/
def obliged (n : Nat) (id : Json) (e : Engine) : Engine :=
  { (e.pick n).replying id with tasks := (e.pick n).tasks.erase n }.settle (.task n) (.value .nothing)

/-- An answer whose turn has come passes at once. -/
theorem Spared.obliged (hsp : Spared none e.nextRef e) (ha : e.accepts = true)
    (ht : e.tasks.get? n = some t) (hdebt : e.debt? n = some id) (rest : List Job) :
    { e with ready := rest }.runTask n t (.value .nothing) = { e with ready := rest }.obliged n id := by
  obtain ⟨hframes, hflag⟩ := hsp.uncancelled ht hdebt
  let picked := { e with ready := rest }.pick n
  have hpass : unwind t.frames (if t.cancelRequested then .cancelled else .value .nothing) picked =
      (picked.replying id, .done (.value .nothing)) := by
    rw [if_neg (by simp [hflag]), hframes, unwind_singleton]
    exact reply_of_accepts (e := picked) ha id
  exact runTask_done hpass

/-- When the turn of an answer comes, nothing happens but that it is sent. -/
theorem Dutiful.runNext_answers (hd : Dutiful [] e) (hsp : Spared none e.nextRef e) (ha : e.accepts = true)
    (hj : e.ready = .step n :: rest) (hdebt : e.debt? n = some id) :
    e.runNext = { e with ready := rest }.obliged n id := by
  obtain ⟨t, ht, _⟩ := Option.bind_eq_some_iff.mp hdebt
  rw [← hsp.obliged ha ht hdebt rest]
  unfold Engine.runNext
  rw [hj]
  simp only [runJob, resumeTask, ht, hd.waiting ht hdebt]
  rfl

theorem Delivered.answers (h : Delivered e) (hid : Message.isResponse (Message.empty id) = true)
    (n : Nat) (rest : List Job) : Delivered ({ e with ready := rest }.obliged n id) := by
  refine ⟨?_, fun k t ht => ?_⟩
  · rw [Engine.obliged, settle_channel, settle_history]
    change responses (e.channel.sent ++ [Message.empty id]) =
      replied (e.history ++ [.handed (Message.empty id)])
    rw [replied_append, ← h.wire]
    simp [responses, replied, Event.answer, hid]
  · rw [Engine.obliged, settle_tasks, Table.get?_erase] at ht
    split at ht
    · cases ht
    · rename_i hk
      change (e.tasks.put n _).get? k = some t at ht
      rw [Table.get?_put, if_neg hk] at ht
      exact h.unwaited k t ht

theorem Delivered.act {a : Action} (h : Delivered e) (hd : Dutiful [] e) (hc : Correlated ([], e))
    (hsp : Spared none e.nextRef e) (haccepts : e.accepts = true) : Delivered (e.act a) := by
  by_cases hrun : a = .run
  · subst hrun
    have hnext := hd.next
    change Delivered e.runNext
    generalize e.runNext = e' at hnext
    cases hnext with
    | moves ha hd₁ hp =>
      have h₁ := h.tallies ha
      have hc₁ := hc.tallied ha
      exact ⟨wire_path h₁.wire hp hc₁, h₁.unwaited.grows (Path.grows hp hc₁.numbered) unwaited_begin⟩
    | runs o ha hd₁ ht hdebt => exact (h.tallies ha).runTask hd₁ (hc.tallied ha) ht hdebt o
    | answers hj ht hdebt =>
      rw [hsp.obliged haccepts ht hdebt]
      refine h.answers (hd.isResponse hdebt ?_) _ _
      rw [turns, hj]
      exact List.mem_cons_self ..
  · obtain ⟨e₁, haside, hc₁, hp⟩ := hc.act_cases hrun
    have hwire : responses e₁.channel.sent = replied e₁.history := by
      rw [haside.sent, haside.replied, h.wire]
    exact ⟨wire_path hwire hp hc₁, h.unwaited.act hc.numbered hrun unwaited_begin⟩

theorem Delivered.after (actions : List Action) (h : Delivered e) (hd : Dutiful [] e)
    (hc : Correlated ([], e)) (hsp : Spared none e.nextRef e)
    (ha : ∀ a ∈ actions, a.spares = true ∧ a.unasked = true) (haccepts : e.accepting actions = true) :
    Delivered (e.after actions) := by
  induction actions generalizing e with
  | nil => exact h
  | cons a rest ih =>
    obtain ⟨⟨hspares, hunasked⟩, hrest⟩ := List.forall_mem_cons.mp ha
    obtain ⟨hfirst, hlater⟩ := Bool.and_eq_true_iff.mp haccepts
    exact ih (h.act hd hc hsp hfirst) (hd.act hc hsp hunasked) (hc.act a) (hsp.act hc hspares)
      hrest hlater

theorem delivered_create (options : ClientOptions) (script : ServerScript) :
    Delivered (create options script) := ⟨rfl, fun _ _ ht => by cases ht⟩

end Engine

end LanguageClient
