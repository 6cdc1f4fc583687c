import LanguageClient.Proofs.Client.Begun
import LanguageClient.Proofs.Engine.Spared

/-!
Answers to the server. Each request of the server that is taken up leaves a task behind that answers
it with nothing. The tasks come to their turns in the order in which they were begun, and each hands
over one answer, so at any time the answers that have been handed over and those that are still owed
(`Engine.debt?`) are the answers to the requests that were taken up, in their order (`Dutiful`).

    taken 1, 2, 3      turns  reply 1, reply 2, reply 3
    handed 1           turns  reply 2, reply 3
-/

namespace LanguageClient

/-- The answer to a request that was handed over. -/
def Event.answer : Event → Option Json
  | .handed m => if Message.isResponse m then some m else none
  | _ => none

/-- The answers that have been handed over, oldest first. -/
def replied (history : List Event) : List Json := history.filterMap Event.answer

/-- The answer that the client gives to every request of the server. -/
def Message.empty (id : Json) : Json := response id .null

theorem replied_append (history more : List Event) :
    replied (history ++ more) = replied history ++ replied more := List.filterMap_append ..

theorem replied_eq_nil {more : List Event} (h : ∀ event ∈ more, event.answer = none) :
    replied more = [] := List.filterMap_eq_nil_iff.mpr h

theorem Event.answer_of_ordinary {event : Event} (h : event.ordinary = true) :
    event.answer = none := by
  cases event with
  | handed m =>
    have hm : Message.isResponse m = false := by simpa [Event.ordinary] using h
    simp [Event.answer, hm]
  | _ => rfl

theorem Event.answer_of_reader {event : Event} (h : event.ofReader = true) :
    event.answer = none := by
  cases event with
  | handed m => cases h
  | _ => rfl

/-- The request of the server that a task is to answer that has yet to begin. -/
def owes? : List Frame → Option Json
  | [.begin (.reply id)] => some id
  | _ => none

theorem owes?_begin (op : Operation) : owes? [.begin op] = op.reply? := by
  cases op <;> rfl

theorem owes?_eq_some_iff {st : List Frame} {id : Json} :
    owes? st = some id ↔ st = [.begin (.reply id)] := by
  constructor
  · intro h
    unfold owes? at h
    split at h
    · rw [Option.some.inj h]
    · cases h
  · rintro rfl
    rfl

/-- No answer stands on the stack that has yet to begin. -/
def Unowing (st : List Frame) : Prop := ∀ id, .begin (.reply id) ∉ st

theorem Unowing.owes? {st : List Frame} (h : Unowing st) : owes? st = none := by
  rw [Option.eq_none_iff_forall_ne_some]
  intro id hid
  rw [owes?_eq_some_iff] at hid
  exact h id (hid ▸ List.mem_singleton_self _)

namespace Engine

variable {c c' : Config} {st : List Frame} {e e' : Engine} {new : List (Nat × Operation)}
  {owing : List Json} {m n : Nat} {t : Task} {id : Json} {job : Job} {rest : List Job}

/-! ### What is owed -/

/-- The request of the server that this task will answer when its turn comes. -/
def debt? (e : Engine) (n : Nat) : Option Json := (e.tasks.get? n).bind fun t => owes? t.frames

theorem debt?_eq_places (n : Nat) (e : Engine) :
    e.debt? n = (e.places.get? n).bind fun place => owes? place.1 := by
  rw [debt?, get?_places, Option.bind_map]
  rfl

/-- All answers have been handed over but these, which are about to be, and those that are owed. A
    task that owes an answer waits for its turn, which comes once. -/
structure Dutiful (owing : List Json) (e : Engine) : Prop where
  bounded : ∀ n ∈ e.turns, n < e.nextRef
  lone : ∀ n place id, e.places.get? n = some place → .begin (.reply id) ∈ place.1 →
    place = ([.begin (.reply id)], none)
  once : ∀ n, e.debt? n ≠ none → e.turns.count n = 1
  paid : (demands e.history).map Message.empty =
    replied e.history ++ (owing ++ e.turns.filterMap e.debt?).map Message.empty

/-- What is new on the list of tasks is begun, and everything else is as it was. -/
theorem Launches.place {place : List Frame × Option Ref} (h : Launches new e e')
    (hp : e'.places.get? n = some place) :
    e.places.get? n = some place ∨ ∃ op, (n, op) ∈ new ∧ place = ([.begin op], none) := by
  rw [h.places, Table.get?_append, Option.or_eq_some_iff] at hp
  rcases hp with hold | ⟨_, hnew⟩
  · exact .inl hold
  · obtain ⟨x, hx, hsame⟩ := List.mem_map.mp (Table.mem_of_get? hnew)
    obtain ⟨rfl, rfl⟩ := Prod.mk.inj hsame
    exact .inr ⟨x.2, hx, rfl⟩

theorem Launches.debt?_old (h : Launches new e e') (hlt : n < e.nextRef) :
    e'.debt? n = e.debt? n := by
  have hnone : Table.get? n (new.map fun x => (x.1, ([.begin x.2], none))) =
      (none : Option (List Frame × Option Ref)) := by
    rw [← Option.not_isSome_iff_eq_none, Option.isSome_iff_exists]
    rintro ⟨place, hplace⟩
    obtain ⟨x, hx, hsame⟩ := List.mem_map.mp (Table.mem_of_get? hplace)
    obtain ⟨rfl, _⟩ := Prod.mk.inj hsame
    exact Nat.not_le.mpr hlt (h.fresh x hx).1
  rw [debt?_eq_places, debt?_eq_places, h.places, Table.get?_append, hnone, Option.or_none]

theorem Launches.debt?_new (h : Launches new e e') (hn : Numbered e') {x : Nat × Operation}
    (hx : x ∈ new) : e'.debt? x.1 = x.2.reply? := by
  have hmem : (x.1, [.begin x.2], none) ∈ e'.places := by
    rw [h.places]
    exact List.mem_append_right _ (List.mem_map.mpr ⟨x, hx, rfl⟩)
  rw [debt?_eq_places, Table.get?_of_mem (keys_places e' ▸ hn.nodup) hmem]
  exact owes?_begin x.2

theorem Launches.nodup (h : Launches new e e') (hn : Numbered e') : (new.map Prod.fst).Nodup := by
  have hkeys := hn.nodup
  rw [← keys_places, h.places, Table.keys, List.map_append] at hkeys
  simpa [List.map_map, Function.comp_def] using (List.nodup_append.mp hkeys).2.1

/-- Tasks are begun, and the requests of the server among the occasions are owed from now on. -/
theorem Dutiful.launches (h : Dutiful owing e) (hl : Launches new e e') (hn : Numbered e)
    (hn' : Numbered e') (hr : replied e'.history = replied e.history) : Dutiful owing e' where
  bounded n hmem := by
    rw [hl.turns, List.mem_append] at hmem
    rcases hmem with hmem | hmem
    · exact Nat.lt_of_lt_of_le (h.bounded n hmem) hl.nextRef
    · obtain ⟨x, hx, rfl⟩ := List.mem_map.mp hmem
      exact (hl.fresh x hx).2
  lone n place id hp hmem := by
    rcases hl.place hp with hold | ⟨op, _, rfl⟩
    · exact h.lone n place id hold hmem
    · rw [List.mem_singleton.mp hmem]
  once n hdebt := by
    rw [hl.turns, List.count_append]
    by_cases hlt : n < e.nextRef
    · rw [hl.debt?_old hlt] at hdebt
      have hnot : n ∉ new.map Prod.fst := by
        intro hmem
        obtain ⟨x, hx, rfl⟩ := List.mem_map.mp hmem
        exact Nat.not_le.mpr hlt (hl.fresh x hx).1
      rw [h.once n hdebt, List.count_eq_zero_of_not_mem hnot]
    · have hnot : n ∉ e.turns := fun hmem => hlt (h.bounded n hmem)
      obtain ⟨id, hid⟩ := Option.ne_none_iff_exists'.mp hdebt
      rw [debt?_eq_places, Option.bind_eq_some_iff] at hid
      obtain ⟨place, hplace, _⟩ := hid
      have hmem : n ∈ new.map Prod.fst := by
        rcases hl.place hplace with hold | ⟨op, hop, _⟩
        · have hkey : n ∈ e.places.keys := Table.mem_keys_iff.mpr ⟨place, hold⟩
          exact absurd (hn.lt n (keys_places e ▸ hkey)) hlt
        · exact List.mem_map.mpr ⟨_, hop, rfl⟩
      rw [List.count_eq_zero_of_not_mem hnot, List.count_eq_one_of_mem (hl.nodup hn') hmem]
  paid := by
    have hold : e.turns.filterMap e'.debt? = e.turns.filterMap e.debt? :=
      List.filterMap_congr fun n hmem => hl.debt?_old (h.bounded n hmem)
    have hnew : (new.map Prod.fst).filterMap e'.debt? = new.filterMap (·.2.reply?) := by
      rw [List.filterMap_map]
      exact List.filterMap_congr fun x hx => hl.debt?_new hn' hx
    rw [hl.demands, hr, hl.turns, List.filterMap_append, hold, hnew, List.map_append, h.paid]
    simp [List.append_assoc]

/-! ### One task runs -/

theorem debt?_put (n k : Nat) (t : Task) (e : Engine) :
    ({ e with tasks := e.tasks.put n t } : Engine).debt? k =
      if k = n then owes? t.frames else e.debt? k := by
  simp only [debt?, Table.get?_put]
  split <;> rfl

/-- A task is put in its place that owes nothing. -/
theorem Dutiful.put (h : Dutiful owing e) (hdebt : e.debt? n = none) (ht : Unowing t.frames) :
    Dutiful owing { e with tasks := e.tasks.put n t } := by
  have hsame (k : Nat) : ({ e with tasks := e.tasks.put n t } : Engine).debt? k = e.debt? k := by
    rw [debt?_put]
    split
    · rename_i hk
      rw [hk, hdebt, ht.owes?]
    · rfl
  refine ⟨h.bounded, fun k place id hp hmem => ?_, fun k hk => ?_, ?_⟩
  · rw [get?_places, Table.get?_put] at hp
    split at hp
    · obtain rfl : t.place = place := Option.some.inj hp
      exact absurd hmem (ht id)
    · rw [← get?_places] at hp
      exact h.lone k place id hp hmem
  · rw [hsame] at hk
    exact h.once k hk
  · rw [funext hsame]
    exact h.paid

theorem Dutiful.erase (h : Dutiful owing e) (hdebt : e.debt? n = none) :
    Dutiful owing { e with tasks := e.tasks.erase n } := by
  have hsame (k : Nat) : ({ e with tasks := e.tasks.erase n } : Engine).debt? k = e.debt? k := by
    simp only [debt?, Table.get?_erase]
    split
    · rename_i hk
      exact (hk ▸ hdebt.symm : _)
    · rfl
  refine ⟨h.bounded, fun k place id hp hmem => ?_, fun k hk => ?_, ?_⟩
  · rw [get?_places, Table.get?_erase] at hp
    split at hp
    · cases hp
    · rw [← get?_places] at hp
      exact h.lone k place id hp hmem
  · rw [hsame] at hk
    exact h.once k hk
  · rw [funext hsame]
    exact h.paid

/-- A task that owes nothing waits for its turn. -/
theorem Dutiful.enqueue (h : Dutiful owing e) (hdebt : e.debt? n = none) (hn : n < e.nextRef) :
    Dutiful owing (e.enqueue (.step n)) := by
  have hturns : (e.enqueue (.step n)).turns = e.turns ++ [n] := by
    simp [turns, Engine.enqueue, Job.task?]
  refine ⟨fun k hk => ?_, h.lone, fun k hk => ?_, ?_⟩
  · rw [hturns, List.mem_append, List.mem_singleton] at hk
    rcases hk with hk | rfl
    · exact h.bounded k hk
    · exact hn
  · have hne : k ≠ n := by
      rintro rfl
      exact hk hdebt
    rw [hturns, List.count_append, List.count_singleton, h.once k hk]
    simp [Ne.symm hne]
  · have hlast : List.filterMap (e.enqueue (.step n)).debt? [n] = [] := by
      rw [List.filterMap_eq_nil_iff]
      intro k hk
      rw [List.mem_singleton.mp hk]
      exact hdebt
    rw [hturns, List.filterMap_append, hlast, List.append_nil]
    exact h.paid

/-- A job is taken off the queue, and a task with it that owes nothing. -/
theorem Dutiful.pop (h : Dutiful owing e) (hj : e.ready = job :: rest)
    (hdebt : ∀ n, job.task? = some n → e.debt? n = none) : Dutiful owing { e with ready := rest } := by
  have hturns : e.turns = job.task?.toList ++ ({ e with ready := rest } : Engine).turns := by
    rw [turns, hj, turns, List.filterMap_cons]
    cases job.task? <;> rfl
  have hdebt' : job.task?.toList.filterMap e.debt? = [] := by
    cases htask : job.task? with
    | none => rfl
    | some n => simp [hdebt n htask]
  refine ⟨fun k hk => h.bounded k (hturns ▸ List.mem_append_right _ hk), h.lone, fun k hk => ?_, ?_⟩
  · have honce := h.once k hk
    rw [hturns, List.count_append] at honce
    have hzero : job.task?.toList.count k = 0 := by
      refine List.count_eq_zero_of_not_mem fun hmem => hk ?_
      exact hdebt k (Option.mem_toList.mp hmem)
    omega
  · have hpaid := h.paid
    rw [hturns, List.filterMap_append, hdebt', List.nil_append] at hpaid
    exact hpaid

/-- The turn of a task has come that owes an answer. -/
theorem Dutiful.turn (h : Dutiful [] e) (hj : e.ready = .step n :: rest)
    (hdebt : e.debt? n = some id) : Dutiful [id] ({ e with ready := rest }.pick n) := by
  have hturns : e.turns = n :: ({ e with ready := rest } : Engine).turns := by
    rw [turns, hj]
    rfl
  have hgone : n ∉ ({ e with ready := rest } : Engine).turns := by
    have honce := h.once n (by simp [hdebt])
    rw [hturns, List.count_cons_self] at honce
    exact List.count_eq_zero.mp (by omega)
  have hpick (k : Nat) : ({ e with ready := rest }.pick n).debt? k =
      if k = n then none else e.debt? k := debt?_put n k _ _
  refine ⟨fun k hk => h.bounded k (hturns ▸ List.mem_cons_of_mem _ hk), fun k place id' hp hmem => ?_,
    fun k hk => ?_, ?_⟩
  · rw [get?_places, Engine.pick, Table.get?_put] at hp
    split at hp
    · obtain rfl := Option.some.inj hp
      cases hmem
    · rw [← get?_places] at hp
      exact h.lone k place id' hp hmem
  · rw [hpick] at hk
    split at hk
    · exact absurd rfl hk
    · rename_i hne
      have honce := h.once k hk
      rwa [hturns, List.count_cons_of_ne (Ne.symm hne)] at honce
  · have hpaid := h.paid
    rw [hturns, List.filterMap_cons_some hdebt] at hpaid
    have hsame : ({ e with ready := rest } : Engine).turns.filterMap ({ e with ready := rest }.pick n).debt? =
        ({ e with ready := rest } : Engine).turns.filterMap e.debt? := by
      refine List.filterMap_congr fun k hk => ?_
      rw [hpick, if_neg]
      rintro rfl
      exact hgone hk
    change (demands e.history).map Message.empty = replied e.history ++ ([id] ++
      ({ e with ready := rest } : Engine).turns.filterMap ({ e with ready := rest }.pick n).debt?).map Message.empty
    rw [hsame]
    exact hpaid

/-! ### Every step -/

theorem Step.launches (hs : Step c c') (hn : Numbered c.2) : ∃ new, Launches new c.2 c'.2 := by
  rcases hs.starts hn with ⟨new, hl, _⟩ | ⟨⟨n, hl⟩, _⟩
  · exact ⟨new, hl⟩
  · exact ⟨_, hl⟩

/-- Nothing is answered as long as no answer is begun. -/
theorem Step.replied (hs : Step c c') (hc : Correlated c) (hst : Unowing c.1) :
    LanguageClient.replied c'.2.history = LanguageClient.replied c.2.history := by
  have hmore {e e' : Engine} {more : List Event} (hh : e'.history = e.history ++ more)
      (hm : ∀ event ∈ more, event.answer = none) :
      LanguageClient.replied e'.history = LanguageClient.replied e.history := by
    rw [hh, replied_append, replied_eq_nil hm, List.append_nil]
  cases hs.records hc with
  | ordinary hn =>
    obtain ⟨more, hj, hm⟩ := hn
    exact hmore hj.history fun event hmem => Event.answer_of_ordinary (hm event hmem)
  | starts => rfl
  | registers r hj => exact hmore hj.history (by simp [Event.answer])
  | replies id => exact absurd (List.mem_cons_self ..) (hst id)
  | reads hr hj => exact hmore hj.history (by simpa using Event.answer_of_reader hr)
  | shuts hm hj =>
    refine hmore hj.history fun event hmem => ?_
    rcases List.mem_append.mp hmem with hmem | hmem
    · exact Event.answer_of_reader (hm event hmem)
    · rw [List.mem_singleton.mp hmem]
      rfl
  | joins hj => exact hmore hj.history (by simp [Event.answer])

theorem Path.unowing (hp : Path c c') (hst : Unowing c.1) : Unowing c'.1 :=
  fun id hmem => hst id (hp.fewer _ hmem)

theorem Path.replied (hp : Path c c') (hc : Correlated c) (hst : Unowing c.1) :
    LanguageClient.replied c'.2.history = LanguageClient.replied c.2.history := by
  induction hp with
  | refl => rfl
  | tail hp hs ih => exact (hs.replied (hc.path hp) (Path.unowing hp hst)).trans ih

theorem Dutiful.path (h : Dutiful owing c.2) (hp : Path c c') (hc : Correlated c)
    (hst : Unowing c.1) : Dutiful owing c'.2 := by
  induction hp with
  | refl => exact h
  | tail hp hs ih =>
    have hc₁ := hc.path hp
    obtain ⟨new, hl⟩ := hs.launches hc₁.numbered
    exact ih.launches hl hc₁.numbered (hc₁.numbered.grows (hs.grows hc₁.numbered))
      (hs.replied hc₁ (Path.unowing hp hst))

/-- Nothing has happened that concerns the answers. -/
theorem Dutiful.still (h : Dutiful owing e) (hl : Launches [] e e') (hn : Numbered e)
    (hn' : Numbered e') (hh : e'.history = e.history) : Dutiful owing e' :=
  h.launches hl hn hn' (by rw [hh])

/-! ### Runs -/

/-- The task that answers hands over its answer, and may have to wait until it can pass. -/
theorem Dutiful.reply (h : Dutiful [id] e) (hid : Message.isResponse (Message.empty id) = true)
    (hc : Correlated ([.begin (.reply id)], e)) :
    Dutiful [] (reached (e.reply id)).2 ∧ Unowing (reached (e.reply id)).1 := by
  let noted := e.note (.handed (Message.empty id))
  have hnoted : Dutiful [] noted := by
    refine ⟨h.bounded, h.lone, h.once, ?_⟩
    have hpaid := h.paid
    change (demands (e.history ++ [.handed (Message.empty id)])).map Message.empty =
      LanguageClient.replied (e.history ++ [.handed (Message.empty id)]) ++
        ([] ++ e.turns.filterMap e.debt?).map Message.empty
    have hnone : demands [.handed (Message.empty id)] = [] := rfl
    have hone : LanguageClient.replied [.handed (Message.empty id)] = [Message.empty id] := by
      simp [LanguageClient.replied, Event.answer, hid]
    rw [demands_append, replied_append, hnone, hone, List.append_nil, hpaid, List.append_assoc]
    rfl
  have hunowing : Unowing [.gate (.reply id) (Message.empty id)] := by
    intro id' hmem
    cases List.mem_singleton.mp hmem
  have hp : Path ([.gate (.reply id) (Message.empty id)], noted) (reached (e.reply id)) :=
    path_reached (leads_pass (.reply id) (Message.empty id))
  exact ⟨hnoted.path hp (hc.step (.reply id)) hunowing, Path.unowing hp hunowing⟩

/-- The task that has run comes to rest. -/
theorem Dutiful.rests {run : Run} (h : Dutiful [] (reached run).2) (hst : Unowing (reached run).1)
    (hn : Numbered (reached run).2) (hr : Running m (reached run).2) (o : Outcome)
    (hrun : unwind t.frames (if t.cancelRequested then .cancelled else o) (e.pick m) = run) :
    Dutiful [] (e.runTask m t o) := by
  have hrests := rests_runTask m t o e
  rw [hrun] at hrests
  obtain ⟨t₀, ht₀, hnil⟩ := id hr
  have hdebt : (reached run).2.debt? m = none := by
    rw [debt?, ht₀, Option.bind_some, hnil]
    rfl
  have hlt := hn.lt m (Table.mem_keys_iff.mpr ⟨t₀, ht₀⟩)
  obtain ⟨e', o' | ⟨p, frames⟩ | frames⟩ := run
  · rw [runTask_done hrun]
    have herase := h.erase hdebt
    have hn' := hn.erase m
    exact herase.still (launches_settle _ _ _) hn' (hn'.grows (grows_settle _ _ _))
      (settle_history _ _ _)
  · rw [runTask_wait hrun] at hrests ⊢
    have hkept : Dutiful [] (e'.keep m frames (some p)) := h.put hdebt hst
    have hn' : Numbered (e'.keep m frames (some p)) := hn.keep hr _ _
    cases hrests with
    | waits ha hcancels _ =>
      have hg := Grows.of_tallies ha.toTallies
      exact (hkept.still (launches_agrees ha) hn' (hn'.grows hg) ha.history).still
        (launches_cancels hcancels) (hn'.grows hg) ((hn'.grows hg).grows (.of_cancels hcancels))
        hcancels.history
  · rw [runTask_pause hrun]
    have hkept : Dutiful [] (e'.keep m frames none) := h.put hdebt hst
    refine hkept.enqueue ?_ hlt
    exact (debt?_put m m _ e').trans (by rw [if_pos rfl]; exact hst.owes?)

/-- What is owed can be handed over as an answer: the request has an id. -/
theorem isResponse_of_demand {history : List Event} (h : id ∈ demands history) :
    Message.isResponse (Message.empty id) = true := by
  obtain ⟨event, _, hevent⟩ := List.mem_filterMap.mp h
  cases event with
  | taken m =>
    simp only [Event.demand?] at hevent
    split at hevent
    · rename_i hs
      obtain rfl := Option.some.inj hevent
      simp only [Message.isServerRequest, Message.hasId, Bool.and_eq_true] at hs
      split at hs
      · cases hs.2
      · cases hs.2
      · rename_i v hnull hid
        rw [hid]
        cases v with
        | null => exact absurd rfl hnull
        | _ => rfl
    · cases hevent
  | _ => cases hevent

theorem Dutiful.isResponse (h : Dutiful [] e) (hdebt : e.debt? n = some id) (hn : n ∈ e.turns) :
    Message.isResponse (Message.empty id) = true := by
  have hmem : Message.empty id ∈ (demands e.history).map Message.empty := by
    rw [h.paid]
    refine List.mem_append_right _ (List.mem_map.mpr ⟨id, ?_, rfl⟩)
    exact List.mem_filterMap.mpr ⟨n, hn, hdebt⟩
  obtain ⟨id', hid', hsame⟩ := List.mem_map.mp hmem
  rw [← hsame]
  exact isResponse_of_demand hid'

theorem Correlated.tallied (h : Correlated (st, e)) (ha : Tallies e e') : Correlated (st, e') :=
  h.calm (calm_tallies ha) (.of_tallies ha) rfl

theorem Dutiful.unowing (h : Dutiful owing e) (ht : e.tasks.get? n = some t)
    (hdebt : e.debt? n = none) : Unowing t.frames := by
  intro id hmem
  have hplace : e.places.get? n = some t.place := by rw [get?_places, ht, Option.map_some]
  have hlone : t.frames = _ := congrArg Prod.fst (h.lone n _ id hplace hmem)
  rw [debt?, ht, Option.bind_some, hlone] at hdebt
  cases hdebt

/-- A task runs that owes nothing. -/
theorem Dutiful.runTask (h : Dutiful [] e) (hc : Correlated ([], e)) (ht : e.tasks.get? n = some t)
    (hdebt : e.debt? n = none) (o : Outcome) : Dutiful [] (e.runTask n t o) := by
  have hpick := hc.pick ht
  have hp := path_reached (leads_unwind t.frames (if t.cancelRequested then .cancelled else o)
    (e.pick n))
  have hg := Path.grows hp hpick.numbered
  have hst := h.unowing ht hdebt
  have hran : Dutiful [] (e.pick n) := h.put hdebt (by simp [Unowing])
  exact (hran.path hp hpick hst).rests (Path.unowing hp hst) (hpick.numbered.grows hg)
    ((running_pick n e).grows hg) o rfl

/-- Whoever owes an answer waits for nothing but the turn. -/
theorem Dutiful.waiting (h : Dutiful owing e) (ht : e.tasks.get? n = some t)
    (hdebt : e.debt? n = some id) : t.waiting = none := by
  rw [debt?, ht, Option.bind_some, owes?_eq_some_iff] at hdebt
  have hplace : e.places.get? n = some t.place := by rw [get?_places, ht, Option.map_some]
  have hmem : .begin (.reply id) ∈ t.place.1 := by
    change _ ∈ t.frames
    rw [hdebt]
    exact List.mem_singleton_self _
  exact congrArg Prod.snd (h.lone n _ id hplace hmem)

/-- What comes next: nothing but steps of no task, a task that owes nothing, or one that owes an
    answer and whose turn has come. -/
inductive Next (e : Engine) : Engine → Prop where
  | moves {e₁ e' : Engine} : Tallies e e₁ → Dutiful [] e₁ → Path ([], e₁) ([], e') → Next e e'
  | runs {e₁ : Engine} {n : Nat} {t : Task} (o : Outcome) : Tallies e e₁ → Dutiful [] e₁ →
      e₁.tasks.get? n = some t → e₁.debt? n = none → Next e (e₁.runTask n t o)
  | answers {n : Nat} {t : Task} {id : Json} {rest : List Job} : e.ready = .step n :: rest →
      e.tasks.get? n = some t → e.debt? n = some id →
      Next e ({ e with ready := rest }.runTask n t (.value .nothing))

theorem Dutiful.next (h : Dutiful [] e) : Next e e.runNext := by
  unfold Engine.runNext
  split
  · exact .moves (.refl e) h .refl
  · rename_i job rest hj
    have hpop (htells : ∀ k, job.tells k = false) := tallies_pop hj htells
    have hnap (n : Nat) : (Ref.nap n).Free (.value .nothing) := rfl
    have hpath {e' : Engine} (htask : job.task? = none) (htells : ∀ k, job.tells k = false)
        (hp : Path ([], { e with ready := rest }) ([], e')) : Next e e' :=
      .moves (hpop htells) (h.pop hj (by simp [htask])) hp
    -- a task that waits for a promise owes nothing
    have hwaits {n : Nat} {t : Task} (ht : e.tasks.get? n = some t) (hw : t.waiting ≠ none) :
        e.debt? n = none :=
      Option.eq_none_iff_forall_ne_some.mpr fun id hid => hw (h.waiting ht hid)
    cases job with
    | step n =>
      have hskip (hdebt : e.debt? n = none) : Dutiful [] { e with ready := rest } :=
        h.pop hj (by simpa [Job.task?] using hdebt)
      change Next e ({ e with ready := rest }.resumeTask n none)
      unfold resumeTask
      split
      · rename_i hnone
        have hnone : e.tasks.get? n = none := hnone
        exact .moves (hpop fun _ => rfl) (hskip (by rw [debt?, hnone, Option.bind_none])) .refl
      · rename_i t ht
        have ht : e.tasks.get? n = some t := ht
        split
        · cases hdebt : e.debt? n with
          | none => exact .runs _ (hpop fun _ => rfl) (hskip hdebt) ht hdebt
          | some id => exact .answers hj ht hdebt
        · rename_i hw
          exact .moves (hpop fun _ => rfl) (hskip (hwaits ht hw)) .refl
    | call l source =>
      cases l with
      | wake n =>
        have hskip : Dutiful [] { e with ready := rest } := h.pop hj (by simp [Job.task?])
        change Next e ({ e with ready := rest }.resumeTask n (some source))
        unfold resumeTask
        split
        · exact .moves (hpop fun _ => rfl) hskip .refl
        · rename_i t ht
          have ht : e.tasks.get? n = some t := ht
          split
          · rename_i hw
            exact .runs _ (hpop fun _ => rfl) hskip ht (hwaits ht (by simp [hw]))
          · exact .moves (hpop fun _ => rfl) hskip .refl
      | release n => exact hpath rfl (fun _ => rfl) (.single (.settle_free (hnap n) (by simp) (by simp)))
      | handshakeOver => exact hpath rfl (fun _ => rfl) (.single (.agree (agrees_handshakeOver source _)))
      | backgroundOver doc => exact hpath rfl (fun _ => rfl) (.single (.agree (agrees_backgroundOver doc source _)))
      | memberOver n => exact .moves (.refl e) h (path_memberOver hj)
    | ring alarm =>
      cases alarm with
      | release n => exact hpath rfl (fun _ => rfl) (.single (.settle_free (hnap n) (by simp) (by simp)))
      | deliver frame => exact hpath rfl (fun _ => rfl) (path_arrive _)

/-- Whoever owes an answer has only just been begun, and has not been cut short. -/
theorem Spared.uncancelled (hsp : Spared none e.nextRef e) (ht : e.tasks.get? n = some t)
    (hdebt : e.debt? n = some id) :
    t.frames = [.begin (.reply id)] ∧ t.cancelRequested = false := by
  have hframes : t.frames = [.begin (.reply id)] := by
    rw [debt?, ht, Option.bind_some] at hdebt
    exact owes?_eq_some_iff.mp hdebt
  refine ⟨hframes, ?_⟩
  rw [← Bool.not_eq_true]
  intro hstop
  have hbrief := ((hsp.flagged n t ht hstop).resolve_left (by simp)).frames
  rw [hframes] at hbrief
  cases hbrief

/-- The task runs that owes an answer. -/
theorem Dutiful.answers (h : Dutiful [] e) (hc : Correlated ([], e)) (hsp : Spared none e.nextRef e)
    (hj : e.ready = .step n :: rest) (ht : e.tasks.get? n = some t) (hdebt : e.debt? n = some id) :
    Dutiful [] ({ e with ready := rest }.runTask n t (.value .nothing)) := by
  obtain ⟨hframes, hflag⟩ := hsp.uncancelled ht hdebt
  have hpick : Correlated ([.begin (.reply id)], { e with ready := rest }.pick n) := by
    have hpick := (hc.tallied (tallies_pop hj fun _ => rfl)).pick ht
    rwa [hframes] at hpick
  have hturn : n ∈ e.turns := by
    rw [turns, hj]
    exact List.mem_cons_self ..
  obtain ⟨hran, hst⟩ := (h.turn hj hdebt).reply (h.isResponse hdebt hturn) hpick
  have hp := path_reached (@leads_reply [] ({ e with ready := rest }.pick n) id)
  have hg := Path.grows hp hpick.numbered
  refine hran.rests hst (hpick.numbered.grows hg) ((running_pick n _).grows hg) (.value .nothing) ?_
  rw [if_neg (by simp [hflag]), hframes, unwind_singleton]
  rfl

theorem Dutiful.runNext (h : Dutiful [] e) (hc : Correlated ([], e)) (hsp : Spared none e.nextRef e) :
    Dutiful [] e.runNext := by
  have hnext := h.next
  generalize e.runNext = e' at hnext
  cases hnext with
  | moves ha h₁ hp => exact Dutiful.path h₁ hp (hc.tallied ha) (by simp [Unowing])
  | runs o ha h₁ ht hdebt => exact h₁.runTask (hc.tallied ha) ht hdebt o
  | answers hj ht hdebt => exact h.answers hc hsp hj ht hdebt

theorem Aside.replied (h : Aside e e') :
    LanguageClient.replied e'.history = LanguageClient.replied e.history := by
  obtain ⟨more, hj, hm⟩ := h.inward
  have hnone : LanguageClient.replied more = [] := replied_eq_nil fun event hmem =>
    Event.answer_of_ordinary (Event.ordinary_of_inward (hm event hmem))
  rw [hj.history, replied_append, hnone, List.append_nil]

/-- Answers are begun only for the requests of the server. -/
def Action.unasked : Action → Bool
  | .begin (.reply _) => false
  | _ => true

theorem Dutiful.act {a : Action} (h : Dutiful [] e) (hc : Correlated ([], e))
    (hsp : Spared none e.nextRef e) (ha : a.unasked = true) : Dutiful [] (e.act a) := by
  by_cases hrun : a = .run
  · subst hrun
    exact h.runNext hc hsp
  · by_cases hbegin : ∃ op, a = .begin op
    · obtain ⟨op, rfl⟩ := hbegin
      have hop : op.reply? = none := by
        cases op with
        | reply id => cases ha
        | _ => rfl
      exact h.launches (hc.numbered.launches_spawn hop) hc.numbered (hc.act (.begin op)).numbered rfl
    · obtain ⟨e₁, ⟨new, hl, _⟩, haside, hc₁, hp⟩ :=
        hc.act_starts hrun fun op heq => hbegin ⟨op, heq⟩
      exact (h.launches hl hc.numbered hc₁.numbered haside.replied).path hp hc₁ (by simp [Unowing])

theorem Dutiful.after (actions : List Action) (h : Dutiful [] e) (hc : Correlated ([], e))
    (hsp : Spared none e.nextRef e) (ha : ∀ a ∈ actions, a.spares = true ∧ a.unasked = true) :
    Dutiful [] (e.after actions) := by
  induction actions generalizing e with
  | nil => exact h
  | cons a rest ih =>
    obtain ⟨⟨hspares, hunasked⟩, hrest⟩ := List.forall_mem_cons.mp ha
    exact ih (h.act hc hsp hunasked) (hc.act a) (hsp.act hc hspares) hrest

theorem dutiful_create (options : ClientOptions) (script : ServerScript) :
    Dutiful [] (create options script) where
  bounded n hn := by cases hn
  lone n place id hp := by cases hp
  once n hn := absurd rfl hn
  paid := rfl

end Engine

end LanguageClient
