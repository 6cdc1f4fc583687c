import LanguageClient.Proofs.Document.Versions

/-!
Everything that is said, in its order. A client and any number of documents are used in any order and
at any moment (`behaves`): documents are brought in, opened once at most, edited, asked about and
closed; messages arrive; time passes; tasks are cancelled; the handshake comes out in any way. What is
said to the server is the handshake first, and then each document in the order of its versions.
-/

namespace LanguageClient

/-- Before anything but the request to shake hands, that request had returned a value. -/
theorem Lawful.granted_before {m : Json} {history before after : List Event} (h : Lawful history)
    (hg : Engine.Granted history) (hsplit : history = before ++ .handed m :: after)
    (hm : Message.hasMethod m = true) (hne : Message.isOf "initialize" m = false) :
    ∃ id params v capabilities, .handed (Engine.greeting id params) ∈ before ∧
      .returned id (.value v) ∈ before ∧ .agreed capabilities ∈ before := by
  obtain ⟨id, params, capabilities, earlier, during, rfl, hmarks⟩ := h.agreed_before hsplit hm hne
  obtain ⟨id', v, hcalled, hreturned⟩ := hg earlier capabilities (during ++ .handed m :: after)
    (by rw [hsplit, List.append_assoc, List.cons_append])
  -- the request that had returned is the only one that there was
  have hid : id' = id := by
    have hmem := mem_marks hcalled rfl
    rw [hmarks] at hmem
    simpa using hmem
  have hgreeting : .handed (Engine.greeting id params) ∈ marks earlier := by simp [hmarks]
  refine ⟨id, params, v, capabilities, ?_, ?_, by simp⟩
  · exact List.mem_append_left _ (List.mem_of_mem_filter hgreeting)
  · exact List.mem_append_left _ (hid ▸ hreturned)

namespace Engine

variable {e : Engine} {a : Action} {doc k : Nat} {messages : List Json}

/-- The document that the action opens. -/
def Action.opened? : Action → Option Nat
  | .begin (.openDocument doc _) => some doc
  | _ => none

/-! ### What is brought in -/

theorem Versioned.spawn (h : Versioned doc k ([], e)) (hn : Numbered e) (op : Operation) :
    Versioned doc (k + if (Action.begin op).opened? = some doc then 1 else 0)
      ([], (e.spawn op).2) := by
  have hheld : frames ([], (e.spawn op).2) = e.held ++ [.begin op] := hn.held_spawn op
  have hawaits : [Frame.begin op].countP (Frame.awaits doc)
      = if (Action.begin op).opened? = some doc then 1 else 0 := by
    cases op with
    | openDocument d text => simp [Frame.awaits, Action.opened?, List.countP_cons]
    | _ => rfl
  have hcount : (frames ([], (e.spawn op).2)).countP (Frame.awaits doc)
      = e.held.countP (Frame.awaits doc) + if (Action.begin op).opened? = some doc then 1 else 0 := by
    rw [hheld, List.countP_append, hawaits]
  refine ⟨h.told, fun hc => ?_⟩
  rcases h.live hc with hu | hu
  · have hle : e.held.countP (Frame.awaits doc) ≤ k := hu.awaits
    refine .inl ⟨hu.told, hu.fresh, ?_, by omega⟩
    intro f hf
    rw [hheld, List.mem_append, List.mem_singleton] at hf
    rcases hf with hf | rfl
    · exact hu.unsent f hf
    · rfl
  · have hle : e.held.countP (Frame.awaits doc) + 1 ≤ k := hu.awaits
    exact .inr ⟨hu.told, by omega⟩

theorem session?_addSession {s : Session} (s' : Session) (h : e.session? doc = some s) :
    (e.addSession s').session? doc = some s := by
  have hlt : doc < e.sessions.length := (List.getElem?_eq_some_iff.mp h).1
  exact (List.getElem?_append_left hlt).trans h

theorem toldFor_addSession (doc : Nat) (s : Session) (e : Engine) :
    toldFor doc (e.addSession s).history = toldFor doc e.history :=
  toldFor_concat rfl doc e.history

/-- A new document has not been spoken for. -/
theorem Versioned.addSession {s : Session} (h : Versioned doc k ([], e))
    (hv : s.document.version = 0) (ho : s.document.opened = false) :
    Versioned doc k ([], e.addSession s) := by
  have hsame := toldFor_addSession doc s e
  refine ⟨hsame ▸ h.told, fun hc => ?_⟩
  rcases h.live hc with hu | hu
  · refine .inl ⟨hsame.trans hu.told, ?_, hu.unsent, hu.awaits⟩
    intro s' hs'
    have hs' : (e.sessions ++ [s])[doc]? = some s' := hs'
    rw [List.getElem?_append] at hs'
    split at hs'
    · exact hu.fresh s' hs'
    · obtain rfl : s = s' := by
        rw [List.getElem?_singleton] at hs'
        split at hs'
        · exact Option.some.inj hs'
        · cases hs'
      exact ⟨hv, ho⟩
  · obtain ⟨s', hs', hstamps⟩ := hu.told
    exact .inr ⟨⟨s', session?_addSession s hs', hsame ▸ hstamps⟩, hu.awaits⟩

theorem Hushed.act (h : Hushed doc messages ([], e)) (hc : Correlated ([], e))
    (hs : Shaken none e) (a : Action) : Hushed doc messages ([], e.act a) := by
  cases hb : a.brings with
  | false => exact (stable_hushed doc messages).act h hc hs hb
  | true =>
    cases a with
    | «begin» op => exact ⟨h.told, h.shut⟩
    | addSession s =>
      refine ⟨(toldFor_addSession doc s e).trans h.told, h.shut.imp id ?_⟩
      rintro ⟨s', hs', hclosed⟩
      exact ⟨s', session?_addSession s hs', hclosed⟩
    | _ => cases hb

theorem Hushed.after : ∀ (actions : List Action) {e : Engine}, Hushed doc messages ([], e) →
    Correlated ([], e) → Shaken none e → Hushed doc messages ([], e.after actions)
  | [], _, h, _, _ => h
  | a :: rest, _, h, hc, hs => (h.act hc hs a).after rest (hc.act a) (hs.act hc.numbered a)

/-- Closing a document hushes it. -/
theorem hushed_closeSession {s : Session} (h : e.session? doc = some s) (hc : Correlated ([], e)) :
    Hushed doc (toldFor doc e.history) ([], e.closeSession doc) := by
  rcases closeSession_cases doc e with ⟨heq, hclosed⟩ | ⟨s', e₁, hs', _, hcancel, heq⟩
  · rw [heq]
    exact ⟨rfl, .inr ⟨s, h, hclosed s h⟩⟩
  · have hsessions : e₁.sessions = (e.onDocument doc fun d => { d with closed := true }).sessions :=
      hcancel.sessions.trans (cancels_cancelSlot doc _).sessions
    have hshut : Shut doc e₁ := by
      refine ⟨{ s with document := { s.document with closed := true } }, ?_, rfl⟩
      rw [session?, hsessions]
      exact session?_onDocument_self h _
    have hmarked : Hushed doc (toldFor doc e.history) ([], e₁) :=
      ⟨(silent_closing hcancel).toldFor doc, .inr hshut⟩
    rw [heq]
    exact (stable_hushed doc _).path hmarked (hc.closing hcancel) (path_detach _)

/-! ### Whole runs -/

/-- What holds of a client and its documents, each of which has been opened so many times. -/
structure Course (k : Nat → Nat) (e : Engine) : Prop where
  correlated : Correlated ([], e)
  shaken : Shaken none e
  shaped : Shaped e
  granted : Granted e.history
  ordered : Ordered ([], e)
  versioned : ∀ doc, Versioned doc (k doc) ([], e)

theorem Versioned.act (h : Versioned doc k ([], e)) (hc : Correlated ([], e)) (hs : Shaken none e)
    (ha : a.proper e = true) (hk : k + (if a.opened? = some doc then 1 else 0) ≤ 1) :
    Versioned doc (k + if a.opened? = some doc then 1 else 0) ([], e.act a) := by
  cases hb : a.brings with
  | false =>
    have hnone : a.opened? = none := by
      cases a with
      | «begin» op => cases hb
      | _ => rfl
    rw [hnone, if_neg (by simp), Nat.add_zero] at hk ⊢
    exact (stable_versioned doc hk).act h hc hs hb
  | true =>
    cases a with
    | «begin» op => exact h.spawn hc.numbered op
    | addSession s =>
      obtain ⟨hv, ho⟩ : s.document.version = 0 ∧ s.document.opened = false := by
        simpa [Action.proper] using ha
      exact h.addSession hv ho
    | _ => cases hb

theorem Course.act {k : Nat → Nat} (h : Course k e) (ha : a.proper e = true)
    (hk : ∀ doc, k doc + (if a.opened? = some doc then 1 else 0) ≤ 1) :
    Course (fun doc => k doc + if a.opened? = some doc then 1 else 0) (e.act a) where
  correlated := h.correlated.act a
  shaken := h.shaken.act h.correlated.numbered a
  shaped := h.shaped.act h.correlated.numbered a
  granted := h.granted.act h.shaped h.correlated a
  ordered := h.ordered.act h.correlated h.shaken ha
  versioned doc := (h.versioned doc).act h.correlated h.shaken ha (hk doc)

/-- Whatever is done, as long as no document is opened more than once. -/
theorem Course.after : ∀ (actions : List Action) {k : Nat → Nat} {e : Engine}, Course k e →
    e.behaves actions = true →
    (∀ doc, k doc + (actions.filterMap Action.opened?).count doc ≤ 1) →
    ∃ k', Course k' (e.after actions)
  | [], k, _, h, _, _ => ⟨k, h⟩
  | a :: rest, k, e, h, hb, hk => by
      obtain ⟨ha, hrest⟩ : a.proper e = true ∧ (e.act a).behaves rest = true :=
        Bool.and_eq_true_iff.mp hb
      have hcount (doc : Nat) : ((a :: rest).filterMap Action.opened?).count doc
          = (if a.opened? = some doc then 1 else 0) + (rest.filterMap Action.opened?).count doc := by
        cases ho : a.opened? with
        | none => simp [ho]
        | some d => simp [ho, List.count_cons, Nat.add_comm]
      have hhead (doc : Nat) : k doc + (if a.opened? = some doc then 1 else 0) ≤ 1 := by
        have hle := hk doc
        rw [hcount] at hle
        omega
      refine (h.act ha hhead).after rest hrest fun doc => ?_
      rw [Nat.add_assoc, ← hcount]
      exact hk doc

theorem course_create (options : ClientOptions) (script : ServerScript) :
    Course (fun _ => 0) (create options script) where
  correlated := correlated_create options script
  shaken _ hr := by cases hr
  shaped _ _ ht := by cases ht
  granted := granted_nil
  ordered := by
    have hlawful : Lawful [] := ⟨.inl rfl, by simp, rfl⟩
    refine ⟨hlawful, fun _ => ⟨?_, Nat.zero_le _, fun _ => rfl, ?_, ?_, ?_⟩⟩
    · intro f hf
      cases hf
    · intro hr
      cases hr
    · intro r hr
      cases hr
    · intro n v hr
      cases hr
  versioned doc := by
    refine versioned_of_live (.inl ⟨rfl, ?_, ?_, Nat.le_refl 0⟩)
    · intro s hs
      cases hs
    · intro f hf
      cases hf

theorem Shaken.after : ∀ (actions : List Action) {e : Engine}, Correlated ([], e) →
    Shaken none e → Shaken none (e.after actions)
  | [], _, _, h => h
  | a :: rest, _, hc, h => Shaken.after rest (hc.act a) (h.act hc.numbered a)

/-- From the moment at which a document is closed nothing is said of it. -/
theorem toldFor_closed {before rest : List Action} (hc : Correlated ([], e)) (hs : Shaken none e)
    (h : (e.after before).session? doc ≠ none) :
    toldFor doc (e.after (before ++ .closeSession doc :: rest)).history
      = toldFor doc (e.after before).history := by
  obtain ⟨s, hsession⟩ := Option.ne_none_iff_exists'.mp h
  have hbefore := hc.after before
  have hclosed := hushed_closeSession hsession hbefore
  have hshaken := (Shaken.after before hc hs).act hbefore.numbered (.closeSession doc)
  rw [after_append]
  exact (hclosed.after rest (hbefore.act (.closeSession doc)) hshaken).told

/-- A client and its documents are used in any order and at any moment. Apart from answers without
    content, the first message on the wire is the only request to shake hands, and the second is the
    notification that it is over, which like all that follows comes after the request has returned a
    value and what the server can do was agreed on. Whatever opens or changes a document is said for
    one: first one message that opens it, of version 0, then the changes, of version `n` the `n`-th;
    and from the moment at which it is closed there is nothing more. -/
theorem wire_ordered (options : ClientOptions) (script : ServerScript) (actions : List Action)
    (hb : (create options script).behaves actions = true)
    (ho : (actions.filterMap Action.opened?).Nodup) :
    let e := (create options script).after actions
    (∀ m, .handed m ∈ e.history → Message.hasMethod m = false →
      ∃ id, m = Message.response id .null) ∧
    (wire e.history = [] ∨
      ∃ id params, wire e.history = [greeting id params] ∨
        ∃ rest, wire e.history = greeting id params :: initialized :: rest ∧
          ∀ m ∈ rest, Message.isOf "initialize" m = false ∧ Message.isOf "initialized" m = false) ∧
    (∀ before m after, e.history = before ++ .handed m :: after → Message.hasMethod m = true →
      Message.isOf "initialize" m = false →
      ∃ id params v capabilities, .handed (greeting id params) ∈ before ∧
        .returned id (.value v) ∈ before ∧ .agreed capabilities ∈ before) ∧
    (wire e.history).filter Message.speaks = (told e.history).map Prod.snd ∧
    (∀ doc, toldFor doc e.history = [] ∨
      ∃ n, (toldFor doc e.history).map Message.stamp = stamps n) ∧
    ∀ doc before rest, actions = before ++ .closeSession doc :: rest →
      ((create options script).after before).session? doc ≠ none →
      toldFor doc e.history = toldFor doc ((create options script).after before).history := by
  intro e
  have hstart := course_create options script
  obtain ⟨k, hcourse⟩ := hstart.after actions hb fun doc => by
    rw [Nat.zero_add]
    exact List.nodup_iff_count_le_one.mp ho doc
  have hlawful := hcourse.ordered.lawful
  refine ⟨hlawful.answers, hlawful.wire_cases, ?_, hlawful.spoken, ?_, ?_⟩
  · intro before m after hsplit hm hne
    exact hlawful.granted_before hcourse.granted hsplit hm hne
  · intro doc
    exact (hcourse.versioned doc).told
  · rintro doc before rest rfl hsession
    exact toldFor_closed hstart.correlated hstart.shaken hsession

/-- A document that sends its whole text. -/
def whole (uri : String) (text : List Char) : Session where
  document := { uri, language := "python", incremental := false, text }
  view := { text }

/-- Two documents are opened at once; both are changed, and the second is changed once more. -/
def bothChanged : List Action :=
  [[.addSession (whole "file:///a" ['a']), .addSession (whole "file:///b" ['b']),
    .begin (.openDocument 0 none), .begin (.openDocument 1 none)], runs 14,
    [.scheduleChange 0 ['a', 'x'] none, .begin (.flushPending 0),
      .scheduleChange 1 ['b', 'x'] none, .begin (.flushPending 1)], runs 6,
    [.scheduleChange 1 ['b', 'y'] none]].flatten

/-- The server asks something; the second document is flushed, and the first is changed. -/
def oneChanged : List Action :=
  [[.arrive (.frame "\x7b\"id\":7,\"method\":\"window/showDocument\"\x7d"), .begin (.flushPending 1),
    .scheduleChange 0 ['a', 'y'] none, .begin (.flushPending 0)], runs 12].flatten

/-- One of two documents is closed while a change of it waits, which is not sent any more. -/
theorem wire_closedBetween :
    let start := create usual { capabilities := .obj [] }
    let actions := bothChanged ++ .closeSession 1 :: oneChanged
    let e := start.after actions
    start.behaves actions = true ∧ (actions.filterMap Action.opened?).Nodup ∧
      (wire e.history).length = 7 ∧
      (toldFor 0 e.history).map Message.stamp = stamps 2 ∧
      (toldFor 1 e.history).map Message.stamp = stamps 1 ∧
      toldFor 1 e.history = toldFor 1 (start.after bothChanged).history := by
  intro start actions e
  have hb : start.behaves actions = true := by decide +kernel
  have ho : (actions.filterMap Action.opened?).Nodup := by decide +kernel
  have hsession : (start.after bothChanged).session? 1 ≠ none := by
    rw [← Option.isSome_iff_ne_none]
    decide +kernel
  obtain ⟨hwire, hfirst, hsecond⟩ : (wire e.history).length = 7 ∧
      (toldFor 0 e.history).length = 3 ∧ (toldFor 1 e.history).length = 2 := by decide +kernel
  obtain ⟨_, _, _, _, hversions, hclosed⟩ := wire_ordered usual _ actions hb ho
  have hstamps {doc n : Nat} (hlength : (toldFor doc e.history).length = n + 1) :
      (toldFor doc e.history).map Message.stamp = stamps n := by
    rcases hversions doc with hnone | ⟨n', hn'⟩
    · rw [hnone] at hlength
      cases hlength
    · obtain rfl : n = n' := by
        have hlen := congrArg List.length hn'
        rw [List.length_map, hlength, length_stamps] at hlen
        exact Nat.succ.inj hlen
      exact hn'
  exact ⟨hb, ho, hwire, hstamps hfirst, hstamps hsecond,
    hclosed 1 bothChanged oneChanged rfl hsession⟩

end Engine

end LanguageClient
