import LanguageClient.Proofs.Engine.Sync

/-!
The other tasks. Whatever a task does while it runs, the others stand where they stood: they can be
asked to stop, and new ones can be started (`Grows`). So all frames there are can be counted over the
task that runs and those that wait (`frames`), and the count only changes at the innermost frame and
by tasks that are to begin.
-/

namespace LanguageClient

/-! ### Errands -/

/-- The tasks of the client itself. Each is started once at most. -/
inductive Errand where
  | handshake
  | reader
  deriving DecidableEq, Repr

namespace Errand

/-- The task, if it has been started. -/
def ref? : Errand → Client → Option Ref
  | .handshake, c => c.handshake
  | .reader, c => c.reader

/-- What the task begins with. -/
def operation : Errand → Operation
  | .handshake => .handshake
  | .reader => .read

end Errand

namespace Engine

variable {c : Config} {st : List Frame} {e e' : Engine}

/-! ### Tasks -/

/-- Every task has a number of its own, and the number of the next one is new. -/
structure Numbered (e : Engine) : Prop where
  nodup : e.tasks.keys.Nodup
  lt : ∀ n ∈ e.tasks.keys, n < e.nextRef

/-- How many handshakes have been started. -/
def handshakes (e : Engine) : Nat := e.client.handshake.toList.length

/-- All tasks stand where they stood, apart from new ones, which are to begin. A new handshake is the
    client's first one. The client knows which tasks run its errands. -/
structure Grows (e e' : Engine) : Prop where
  nextRef : e.nextRef ≤ e'.nextRef
  places : ∃ new : List (Nat × Operation),
    e'.places = e.places ++ new.map (fun x => (x.1, [.begin x.2], none)) ∧
      (new.map Prod.fst).Nodup ∧
      (∀ x ∈ new, e.nextRef ≤ x.1 ∧ x.1 < e'.nextRef ∧ x.2.own = true) ∧
      new.countP (·.2.shakes) + e.handshakes ≤ e'.handshakes
  errands : ∀ x : Errand, x.ref? e'.client = x.ref? e.client ∨
    ∃ n, e.nextRef ≤ n ∧ n < e'.nextRef ∧ x.ref? e'.client = some (.task n) ∧
      (n, [.begin x.operation], none) ∈ e'.places

theorem keys_places (e : Engine) : e.places.keys = e.tasks.keys := by
  simp only [places, Table.keys, List.map_map]
  rfl

theorem Grows.of_places (hp : e'.places = e.places) (hn : e.nextRef ≤ e'.nextRef)
    (hc : (e'.client.handshake, e'.client.reader) = (e.client.handshake, e.client.reader)) :
    Grows e e' where
  nextRef := hn
  places := by
    have hh : e'.handshakes = e.handshakes := congrArg (fun r => r.1.toList.length) hc
    exact ⟨[], by simp [hp], by simp, by simp, by simp [hh]⟩
  errands x := by
    cases x with
    | handshake => exact .inl (congrArg Prod.fst hc)
    | reader => exact .inl (congrArg Prod.snd hc)

theorem Grows.of_tasks (ht : e'.tasks = e.tasks) (hn : e.nextRef ≤ e'.nextRef)
    (hc : (e'.client.handshake, e'.client.reader) = (e.client.handshake, e.client.reader)) :
    Grows e e' :=
  .of_places (by rw [Engine.places, ht, Engine.places]) hn hc

theorem Grows.refl (e : Engine) : Grows e e := .of_tasks rfl (Nat.le_refl _) rfl

theorem Grows.of_tallies (h : Tallies e e') : Grows e e' := by
  exact .of_tasks h.tasks h.nextRef (by rw [h.client])

theorem Grows.of_cancels (h : Cancels e e') : Grows e e' :=
  .of_places h.places (Nat.le_of_eq h.nextRef.symm) (by rw [h.client])

theorem grows_settle (r : Ref) (o : Outcome) (e : Engine) : Grows e (e.settle r o) :=
  .of_tasks (settle_tasks r o e) (Nat.le_of_eq (settle_nextRef r o e).symm) (by rw [settle_client])

theorem Grows.trans {e₁ e₂ e₃ : Engine} (h : Grows e₁ e₂) (h' : Grows e₂ e₃) : Grows e₁ e₃ := by
  obtain ⟨hle, ⟨new, hp, hnew, hlt, hcount⟩, herrands⟩ := h
  obtain ⟨hle', ⟨new', hp', hnew', hlt', hcount'⟩, herrands'⟩ := h'
  refine ⟨Nat.le_trans hle hle', ⟨new ++ new', ?_, ?_, ?_, ?_⟩, fun x => ?_⟩
  · rw [hp', hp, List.map_append, List.append_assoc]
  · rw [List.map_append, List.nodup_append]
    refine ⟨hnew, hnew', ?_⟩
    intro n hn m hm
    obtain ⟨x, hx, rfl⟩ := List.mem_map.mp hn
    obtain ⟨y, hy, rfl⟩ := List.mem_map.mp hm
    have hx := (hlt x hx).2.1
    have hy := (hlt' y hy).1
    omega
  · intro x hx
    rcases List.mem_append.mp hx with hx | hx
    · obtain ⟨hge, hlt, hown⟩ := hlt x hx
      exact ⟨hge, Nat.lt_of_lt_of_le hlt hle', hown⟩
    · obtain ⟨hge, hlt, hown⟩ := hlt' x hx
      exact ⟨Nat.le_trans hle hge, hlt, hown⟩
  · rw [List.countP_append]
    omega
  · rcases herrands' x with hsame | ⟨n, hge, hlt, hs, hmem⟩
    · rw [hsame]
      refine (herrands x).imp id ?_
      rintro ⟨n, hge, hlt, hs, hmem⟩
      exact ⟨n, hge, Nat.lt_of_lt_of_le hlt hle', hs, hp' ▸ List.mem_append_left _ hmem⟩
    · exact .inr ⟨n, Nat.le_trans hle hge, hlt, hs, hmem⟩

theorem Numbered.grows (hn : Numbered e) (h : Grows e e') : Numbered e' := by
  obtain ⟨hle, ⟨new, hp, hnew, hlt, _⟩, _⟩ := h
  have hkeys : e'.tasks.keys = e.tasks.keys ++ new.map Prod.fst := by
    rw [← keys_places, hp, ← keys_places]
    simp [Table.keys, List.map_map, Function.comp_def]
  constructor
  · rw [hkeys, List.nodup_append]
    refine ⟨hn.nodup, hnew, ?_⟩
    intro n hn' m hm
    obtain ⟨x, hx, rfl⟩ := List.mem_map.mp hm
    have hx := (hlt x hx).1
    have hn := hn.lt n hn'
    omega
  · intro n hn'
    rw [hkeys, List.mem_append] at hn'
    rcases hn' with hn' | hn'
    · exact Nat.lt_of_lt_of_le (hn.lt n hn') hle
    · obtain ⟨x, hx, rfl⟩ := List.mem_map.mp hn'
      exact (hlt x hx).2.1

theorem Numbered.tasks_spawn (hn : Numbered e) (op : Operation) :
    (e.spawn op).2.tasks = e.tasks ++ [(e.nextRef, { frames := [.begin op] })] :=
  Table.put_of_not_mem _ fun hmem => Nat.lt_irrefl _ (hn.lt _ hmem)

theorem Numbered.spawn (hn : Numbered e) (op : Operation) : Numbered (e.spawn op).2 := by
  have hkeys : (e.spawn op).2.tasks.keys = e.tasks.keys ++ [e.nextRef] := by
    rw [hn.tasks_spawn op, Table.keys, List.map_append]
    rfl
  constructor
  · rw [hkeys, List.nodup_append]
    refine ⟨hn.nodup, List.nodup_singleton _, ?_⟩
    intro n hn' m hm
    obtain rfl := List.mem_singleton.mp hm
    have hlt := hn.lt n hn'
    omega
  · intro n hn'
    rw [hkeys, List.mem_append, List.mem_singleton] at hn'
    rcases hn' with hn' | rfl
    · exact Nat.lt_succ_of_lt (hn.lt n hn')
    · exact Nat.lt_succ_self _

theorem Numbered.places_spawn (hn : Numbered e) (op : Operation) :
    (e.spawn op).2.places = e.places ++ [(e.nextRef, [.begin op], none)] := by
  rw [places, hn.tasks_spawn op, List.map_append]
  rfl

/-- A task is started, and the client may take note of it. -/
theorem Numbered.grows_start (hn : Numbered e) {op : Operation} (h : op.own = true)
    {f : Client → Client}
    (hc : (if op.shakes then 1 else 0) + e.handshakes ≤ (f e.client).handshake.toList.length)
    (hs : ∀ x : Errand, x.ref? (f e.client) = x.ref? e.client ∨
      (x.operation = op ∧ x.ref? (f e.client) = some (.task e.nextRef))) :
    Grows e ((e.spawn op).2.onClient f) := by
  have hp : ((e.spawn op).2.onClient f).places = e.places ++ [(e.nextRef, [.begin op], none)] :=
    hn.places_spawn op
  refine ⟨Nat.le_succ _, ⟨[(e.nextRef, op)], hp, by simp, ?_, ?_⟩, fun x => (hs x).imp id ?_⟩
  · intro x hx
    obtain rfl := List.mem_singleton.mp hx
    exact ⟨Nat.le_refl _, Nat.lt_succ_self _, h⟩
  · rw [List.countP_singleton]
    exact hc
  · rintro ⟨rfl, href⟩
    exact ⟨e.nextRef, Nat.le_refl _, Nat.lt_succ_self _, href, hp ▸ by simp⟩

theorem Numbered.grows_spawn (hn : Numbered e) {op : Operation} (h : op.own = true)
    (hs : op.shakes = false) : Grows e (e.spawn op).2 := by
  have hg : Grows e ((e.spawn op).2.onClient id) :=
    hn.grows_start h (by simp [hs, handshakes]) fun _ => .inl rfl
  exact hg

theorem grows_cancelSlot (doc : Nat) (e : Engine) : Grows e (e.cancelSlot doc).2 := by
  have hc := cancels_cancelSlot doc e
  exact .of_places hc.places (Nat.le_of_eq hc.nextRef.symm) (by rw [hc.client])

theorem Numbered.grows_scheduleFlush (hn : Numbered e) (doc : Nat) :
    Grows e (e.scheduleFlush doc).2 := by
  have hc := grows_cancelSlot doc e
  have hs : Grows (e.cancelSlot doc).2 ((e.cancelSlot doc).2.spawn
      (.debounced doc (((e.session? doc).map (·.delay)).getD 0) (.flush doc))).2 :=
    (hn.grows hc).grows_spawn (by simp [Operation.own]) rfl
  exact (hc.trans hs).trans (.of_tasks rfl (Nat.le_refl _) rfl)

theorem Numbered.grows_scheduleChange (hn : Numbered e) (doc : Nat) (text : List Char)
    (changes : Option (List Change)) : Grows e (e.scheduleChange doc text changes).2 := by
  obtain ⟨e₁, ha, he⟩ := scheduleChange_eq doc text changes e
  have hd : Grows e (e.edited doc text changes) := .of_tasks rfl (Nat.le_refl _) rfl
  have h₁ := hd.trans (.of_tallies ha.toTallies)
  rw [he]
  exact h₁.trans ((hn.grows h₁).grows_scheduleFlush doc)

theorem Numbered.grows_noteOpened (hn : Numbered e) (doc : Nat) (sent : List Char) :
    Grows e (e.noteOpened doc sent) := by
  have hd (f : Document → Document) (e : Engine) : Grows e (e.onDocument doc f) :=
    .of_tasks rfl (Nat.le_refl _) rfl
  unfold Engine.noteOpened
  simp only
  split
  · exact hd _ e
  · split
    · have hf := (hd (fun d => { d with opened := true }.resync sent) e).trans (hd (·.forget) _)
      exact hf.trans ((hn.grows hf).grows_scheduleFlush doc)
    · exact hd _ e

theorem settleAll_tasks (f : Failure) : ∀ (pending : Table Nat Ref) (e : Engine),
    (pending.foldl (fun e (_, answer) => e.settle answer (.failure f)) e).tasks = e.tasks ∧
      (pending.foldl (fun e (_, answer) => e.settle answer (.failure f)) e).nextRef = e.nextRef
  | [], _ => ⟨rfl, rfl⟩
  | (_, answer) :: rest, e => by
      obtain ⟨ht, hn⟩ := settleAll_tasks f rest (e.settle answer (.failure f))
      exact ⟨ht.trans (settle_tasks _ _ _), hn.trans (settle_nextRef _ _ _)⟩

theorem grows_failPending (f : Failure) (e : Engine) : Grows e (e.failPending f) := by
  obtain ⟨ht, hn⟩ := settleAll_tasks f e.client.pending e
  exact .of_tasks ht (Nat.le_of_eq hn.symm) (by rw [client_failPending])

theorem Numbered.grows_shutDown (hn : Numbered e) : Grows e e.shutDown := by
  have hc : Grows e (e.onClient fun c => { c with ready := false, closed := true }) :=
    .of_tasks rfl (Nat.le_refl _) rfl
  unfold Engine.shutDown
  refine (Grows.trans ?_ (grows_failPending _ _)).trans (.of_tasks rfl (Nat.le_refl _) rfl)
  split
  · exact hc.trans ((hn.grows hc).grows_spawn rfl rfl)
  · exact hc

theorem Numbered.grows_startHandshake (hn : Numbered e) : Grows e e.startHandshake.2 := by
  rcases startHandshake_cases e with ⟨_, heq⟩ | ⟨hnone, ha⟩
  · rw [heq]
    exact .refl e
  · have hs : Grows e e.shaking := by
      refine hn.grows_start rfl (by simp [handshakes, hnone, Operation.shakes]) fun x => ?_
      cases x with
      | handshake => exact .inr ⟨rfl, rfl⟩
      | reader => exact .inl rfl
    exact hs.trans (.of_tallies ha)

theorem Numbered.grows_startReader (hn : Numbered e) : Grows e e.startReader := by
  rcases startReader_cases e with ⟨_, heq⟩ | ⟨_, heq⟩
  · rw [heq]
    exact .refl e
  · rw [heq]
    refine hn.grows_start rfl (by simp [handshakes, Operation.shakes]) fun x => ?_
    cases x with
    | handshake => exact .inl rfl
    | reader => exact .inr ⟨rfl, rfl⟩

theorem Numbered.grows_register (hn : Numbered e) (r : Registration Subscriber) :
    Grows e (e.register r) := by
  have he : Grows e (e.enlist r) := .of_tasks rfl (Nat.le_refl _) rfl
  rcases register_cases r e with heq | ⟨_, level, message, heq⟩
  · rw [heq]
    exact he
  · rw [heq]
    have hl := he.trans (.of_tallies (agrees_log level message _).toTallies)
    exact hl.trans ((hn.grows hl).grows_spawn rfl rfl)

/-! ### Every step -/

theorem grows_clears {doc : Nat} {c c' : Config} (hc : Clears doc c c') : Grows c.2 c'.2 := by
  cases hc with
  | kept => exact .refl _
  | cancelled => exact grows_cancelSlot doc _
  | elapsed slot => exact .of_tasks rfl (Nat.le_refl _) rfl

theorem grows_retext (doc : Nat) (text : Option (List Char)) (e : Engine) :
    Grows e (e.retext doc text) := by
  cases text <;> exact .of_tasks rfl (Nat.le_refl _) rfl

theorem grows_sends {doc : Nat} {c c' : Config} (h : Sends doc c c') : Grows c.2 c'.2 := by
  cases h with
  | idle text => exact grows_retext doc text _
  | told => exact (grows_retext doc _ _).trans (.of_tasks rfl (Nat.le_refl _) rfl)
  | closed text d => exact (grows_retext doc text _).trans (.of_tasks rfl (Nat.le_refl _) rfl)

theorem grows_refreshes {doc : Nat} {c c' : Config} (h : Refreshes doc c c') : Grows c.2 c'.2 := by
  cases h with
  | idle => exact grows_cancelSlot doc _
  | sends _ hs => exact (grows_cancelSlot doc _).trans (grows_sends hs)

theorem grows_gather (members : List Ref) (tolerant : Bool) (e : Engine) :
    Grows e (e.gather members tolerant).2 := by
  have hgrouped : Grows e ((e.grouped members tolerant).promise (.group e.nextRef)) :=
    .of_tasks rfl (Nat.le_refl _) rfl
  exact hgrouped.trans (.of_tallies (agrees_gather members tolerant e).toTallies)

/-- Whatever a task does, the other tasks stand where they stood. -/
theorem Step.grows {c c' : Config} (hs : Step c c') (hn : Numbered c.2) : Grows c.2 c'.2 := by
  cases hs with
  | agree ha => exact .of_tallies ha
  | push => exact .refl _
  | pose => exact .of_tasks rfl (Nat.le_refl _) rfl
  | late _ _ _ _ hr =>
    have h := grows_refreshes hr
    exact h
  | remark => exact .of_tasks rfl (Nat.le_refl _) rfl
  | unasked => exact .refl _
  | shown => exact .of_tasks rfl (Nat.le_refl _) rfl
  | pop => exact .refl _
  | promise => exact .of_tasks rfl (Nat.le_refl _) rfl
  | gather members tolerant => exact grows_gather members tolerant _
  | settle ha | abandon _ _ _ ha =>
    exact (Grows.of_tallies ha.toTallies).trans (grows_settle _ _ _)
  | spawn h => exact hn.grows_spawn (Operation.own_of_internal h) (Operation.shakes_of_internal h)
  | call => exact .of_tasks rfl (Nat.le_refl _) rfl
  | transmit => exact .of_tasks rfl (Nat.le_refl _) rfl
  | await => exact .refl _
  | endRequest => exact .of_tasks rfl (Nat.le_refl _) rfl
  | reply => exact .of_tasks rfl (Nat.le_refl _) rfl
  | notify => exact .of_tasks rfl (Nat.le_refl _) rfl
  | read => exact .refl _
  | unload => exact .of_tasks rfl (Nat.le_refl _) rfl
  | take => exact .of_tasks rfl (Nat.le_refl _) rfl
  | @oblige _ e _ m _ ha =>
    have ht : Grows e (e.note (.taken m)) := .of_tasks rfl (Nat.le_refl _) rfl
    have ha := ht.trans (.of_tallies ha.toTallies)
    exact ha.trans ((hn.grows ha).grows_spawn rfl rfl)
  | @respond _ e _ m _ hr =>
    have ht : Grows e (e.note (.taken m)) := .of_tasks rfl (Nat.le_refl _) rfl
    rcases resolve_cases hr with ⟨ha, _⟩ | ⟨_, _, o, _, _, _, _, rfl⟩
    · exact ht.trans (.of_tallies ha)
    · exact ht.trans (grows_settle _ _ _)
  | register r => exact hn.grows_register r
  | notified => exact .of_tasks rfl (Nat.le_refl _) rfl
  | startReader => exact hn.grows_startReader
  | handshake => exact hn.grows_startHandshake
  | agreed => exact .of_tasks rfl (Nat.le_refl _) rfl
  | agreedClosed => exact .of_tasks rfl (Nat.le_refl _) rfl
  | ready => exact .of_tasks rfl (Nat.le_refl _) rfl
  | close => exact .of_tasks rfl (Nat.le_refl _) rfl
  | cancelReader => exact .of_cancels (cancels_cancel _ _)
  | join => exact .refl _
  | joined => exact (grows_failPending _ _).trans (.of_tasks rfl (Nat.le_refl _) rfl)
  | joinedFailed => exact .of_tasks rfl (Nat.le_refl _) rfl
  | shutDown => exact hn.grows_shutDown
  | @crash _ e _ m _ ha =>
    have ht : Grows e (e.note (.taken m)) := .of_tasks rfl (Nat.le_refl _) rfl
    have ha := ht.trans (.of_tallies ha.toTallies)
    exact ha.trans (hn.grows ha).grows_shutDown
  | preset doc text => cases text <;> exact .of_tasks rfl (Nat.le_refl _) rfl
  | opening => exact .of_tasks rfl (Nat.le_refl _) rfl
  | openingClosed => exact .refl _
  | opened doc sent => exact hn.grows_noteOpened doc sent
  | edit text changes => exact hn.grows_scheduleChange _ text changes
  | gathers | delay => exact .refl _
  | rehearse => exact .of_tasks rfl (Nat.le_refl _) rfl
  | unscheduled => exact grows_cancelSlot _ _
  | flush hc hs => exact (grows_clears hc).trans (grows_sends hs)

theorem Path.grows {c c' : Config} (h : Path c c') (hn : Numbered c.2) : Grows c.2 c'.2 := by
  induction h with
  | refl => exact .refl _
  | tail _ hs ih => exact ih.trans (hs.grows (hn.grows ih))

/-! ### All frames -/

/-- The frames of all tasks. -/
def held (e : Engine) : List Frame := e.tasks.flatMap fun entry => entry.2.frames

/-- The frames of the task that runs and of all others. -/
def frames (c : Config) : List Frame := c.1 ++ c.2.held

theorem held_eq_flatMap_places (e : Engine) : e.held = e.places.flatMap (·.2.1) := by
  rw [held, places, List.flatMap_map]
  rfl

theorem Grows.held (h : Grows e e') :
    ∃ ops : List Operation, e'.held = e.held ++ ops.map .begin ∧ (∀ op ∈ ops, op.own = true) ∧
      ops.countP Operation.shakes + e.handshakes ≤ e'.handshakes := by
  obtain ⟨_, ⟨new, hp, _, hown, hcount⟩, _⟩ := h
  refine ⟨new.map Prod.snd, ?_, ?_, ?_⟩
  · rw [held_eq_flatMap_places, held_eq_flatMap_places, hp, List.flatMap_append, List.flatMap_map]
    simp only [List.map_map, ← List.map_eq_flatMap]
    rfl
  · intro op hop
    obtain ⟨x, hx, rfl⟩ := List.mem_map.mp hop
    exact (hown x hx).2.2
  · rw [List.countP_map]
    exact hcount

theorem Numbered.held_spawn (hn : Numbered e) (op : Operation) :
    (e.spawn op).2.held = e.held ++ [.begin op] := by
  rw [held, hn.tasks_spawn op, List.flatMap_append]
  rfl

/-- The task runs, and has no frames of its own meanwhile. -/
def Running (n : Nat) (e : Engine) : Prop := ∃ t, e.tasks.get? n = some t ∧ t.frames = []

/-- The state in which a task begins to run. -/
def pick (n : Nat) (e : Engine) : Engine := { e with tasks := e.tasks.put n { frames := [] } }

theorem running_pick (n : Nat) (e : Engine) : Running n (e.pick n) :=
  ⟨_, Table.get?_put_self _ _ _, rfl⟩

theorem get?_places (n : Nat) (e : Engine) : e.places.get? n = (e.tasks.get? n).map Task.place :=
  Table.get?_map n Task.place e.tasks

/-- A task stands where it stood. -/
theorem Grows.place {n : Nat} {t : Task} (h : Grows e e') (hg : e.tasks.get? n = some t) :
    ∃ t', e'.tasks.get? n = some t' ∧ t'.place = t.place := by
  obtain ⟨_, ⟨new, hp, _⟩, _⟩ := h
  have hold : e.places.get? n = some t.place := by rw [get?_places, hg, Option.map_some]
  have hnew : e'.places.get? n = some t.place := by
    rw [hp]
    exact Table.get?_append_of_some _ hold
  rw [get?_places] at hnew
  exact Option.map_eq_some_iff.mp hnew

theorem Running.grows {n : Nat} (h : Running n e) (hg : Grows e e') : Running n e' := by
  obtain ⟨t, ht, hf⟩ := h
  obtain ⟨t', ht', hp⟩ := hg.place ht
  exact ⟨t', ht', (congrArg Prod.fst hp).trans hf⟩

theorem Numbered.pick {n : Nat} {t : Task} (hn : Numbered e) (hg : e.tasks.get? n = some t) :
    Numbered (e.pick n) := by
  have hkeys : (e.pick n).tasks.keys = e.tasks.keys :=
    Table.keys_put_of_mem _ (Table.mem_keys_iff.mpr ⟨t, hg⟩)
  exact ⟨hkeys ▸ hn.nodup, hkeys ▸ hn.lt⟩

theorem Numbered.keep {n : Nat} (hn : Numbered e) (h : Running n e) (frames : List Frame)
    (waiting : Option Ref) : Numbered (e.keep n frames waiting) := by
  obtain ⟨t, hg, _⟩ := h
  have hkeys : (e.keep n frames waiting).tasks.keys = e.tasks.keys :=
    Table.keys_put_of_mem _ (Table.mem_keys_iff.mpr ⟨t, hg⟩)
  exact ⟨hkeys ▸ hn.nodup, hkeys ▸ hn.lt⟩

theorem Numbered.erase (n : Nat) (hn : Numbered e) :
    Numbered { e with tasks := e.tasks.erase n } := by
  refine ⟨Table.nodup_keys_erase hn.nodup, ?_⟩
  intro m hm
  rw [Table.keys_erase] at hm
  exact hn.lt m (List.mem_of_mem_filter hm)

/-- A task that begins to run takes its frames along. -/
theorem frames_pick {n : Nat} {t : Task} (hn : Numbered e) (hg : e.tasks.get? n = some t) :
    (frames (t.frames, e.pick n)).Perm e.held := by
  have hput : (e.pick n).held.Perm ((e.tasks.erase n).flatMap fun entry => entry.2.frames) :=
    Table.flatMap_put_perm Task.frames hn.nodup
  exact (hput.append_left t.frames).trans (Table.flatMap_perm_of_get? Task.frames hn.nodup hg).symm

/-- A task that has run keeps its frames. -/
theorem held_keep {n : Nat} (hn : Numbered e) (h : Running n e) (st : List Frame)
    (waiting : Option Ref) : (e.keep n st waiting).held.Perm (frames (st, e)) := by
  obtain ⟨t, hg, hf⟩ := h
  have hput : (e.keep n st waiting).held.Perm
      (st ++ (e.tasks.erase n).flatMap fun entry => entry.2.frames) :=
    Table.flatMap_put_perm Task.frames hn.nodup
  have hheld := Table.flatMap_perm_of_get? Task.frames hn.nodup hg
  rw [hf, List.nil_append] at hheld
  exact hput.trans (hheld.symm.append_left st)

/-- A task that has ended had no frames any more. -/
theorem held_erase {n : Nat} (hn : Numbered e) (h : Running n e) :
    ({ e with tasks := e.tasks.erase n } : Engine).held.Perm e.held := by
  obtain ⟨t, hg, hf⟩ := h
  have hheld := Table.flatMap_perm_of_get? Task.frames hn.nodup hg
  rw [hf, List.nil_append] at hheld
  exact hheld.symm

end Engine

end LanguageClient
