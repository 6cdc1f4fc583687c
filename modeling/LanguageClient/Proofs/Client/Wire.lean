import LanguageClient.Proofs.Client.Turns
import LanguageClient.Proofs.Document.Mirror

/-!
The order of messages on the wire. Before the handshake nothing is asked; the handshake asks once and
ends with one notification; all else comes after that (`Unasked`, `Asked`, `Underway`).

    Unasked ──initialize──▶ Asked ──initialized──▶ Underway ──▶ requests, didOpen, didChange

The frames of all tasks fit the stage that has been reached (`Frame.Suits`), as long as the connection
is open; on a closed one nothing is said any more.
-/

namespace LanguageClient

/-! ### Messages -/

/-- Events that count for the order: requests, and messages that are no answers. -/
def Event.marked : Event → Bool
  | .called _ _ => true
  | .handed m => Message.hasMethod m
  | _ => false

/-- Events that may follow the handshake. -/
def Event.later : Event → Bool
  | .called _ name => name != "initialize"
  | .handed m => !Message.isOf "initialize" m && !Message.isOf "initialized" m
  | _ => true

/-- The message that was handed over, unless it is an answer. -/
def Event.message? : Event → Option Json
  | .handed m => if Message.hasMethod m then some m else none
  | _ => none

/-- What was said for a document, and for which. -/
def Event.told? : Event → Option (Nat × Json)
  | .told doc m => some (doc, m)
  | _ => none

/-- Does the message open a document, or bring changes of one? -/
def Message.speaks (m : Json) : Bool :=
  isOf "textDocument/didOpen" m || isOf "textDocument/didChange" m

theorem Message.isOf_iff {word : String} {m : Json} :
    isOf word m = true ↔ m.member? "method" = some (.str word) := by
  unfold isOf
  split
  · rename_i name h
    simp [h]
  · rename_i h
    simp only [Bool.false_eq_true, false_iff]
    exact h word

theorem Message.method_of_speaks {m : Json} (h : speaks m = true) :
    m.member? "method" = some (.str "textDocument/didOpen") ∨
      m.member? "method" = some (.str "textDocument/didChange") := by
  rw [speaks, Bool.or_eq_true, isOf_iff, isOf_iff] at h
  exact h

theorem Message.hasMethod_of_speaks {m : Json} (h : speaks m = true) : hasMethod m = true := by
  rcases method_of_speaks h with h | h <;> rw [hasMethod, h] <;> rfl

theorem Message.isOf_of_speaks {m : Json} (h : speaks m = true) :
    isOf "initialize" m = false ∧ isOf "initialized" m = false := by
  rcases method_of_speaks h with h | h <;> simp [isOf, h]

def marks (history : List Event) : List Event := history.filter Event.marked

/-- The messages on the wire, without the answers to the server's requests. -/
def wire (history : List Event) : List Json := history.filterMap Event.message?

/-- What was said for the documents. -/
def told (history : List Event) : List (Nat × Json) := history.filterMap Event.told?

section

variable {history more : List Event}

theorem marks_append (history more : List Event) :
    marks (history ++ more) = marks history ++ marks more := List.filter_append ..

theorem wire_append (history more : List Event) :
    wire (history ++ more) = wire history ++ wire more := List.filterMap_append

theorem told_append (history more : List Event) :
    told (history ++ more) = told history ++ told more := List.filterMap_append

theorem Event.Tacit.unmarked {event : Event} (h : event.Tacit) :
    event.marked = false ∧ event.message? = none ∧ event.told? = none := by
  cases event with
  | handed m =>
    obtain ⟨id, rfl⟩ := h
    exact ⟨rfl, rfl, rfl⟩
  | told doc m => exact h.elim
  | called id name => exact h.elim
  | agreed capabilities => exact h.elim
  | _ => exact ⟨rfl, rfl, rfl⟩

/-- Tacit events are not on the wire. -/
theorem wire_of_tacit (h : ∀ event ∈ more, event.Tacit) : wire more = [] ∧ told more = [] := by
  constructor
  · exact List.filterMap_eq_nil_iff.mpr fun event hmem => (h event hmem).unmarked.2.1
  · exact List.filterMap_eq_nil_iff.mpr fun event hmem => (h event hmem).unmarked.2.2

theorem wire_marks (history : List Event) : wire (marks history) = wire history := by
  rw [wire, marks, List.filterMap_filter]
  refine List.filterMap_congr fun event _ => ?_
  cases event with
  | handed m =>
    simp only [Event.marked, Event.message?]
    split <;> simp
  | _ => rfl

/-! ### Stages -/

/-- The server has not been asked anything. -/
def Unasked (history : List Event) : Prop := marks history = []

/-- The server has been asked to shake hands, and nothing else. -/
def Asked (history : List Event) : Prop :=
  ∃ id params, marks history = [.called id "initialize", .handed (Engine.greeting id params)]

/-- The handshake is over: it asked once, was answered, and ended with one notification. -/
def Underway (history : List Event) : Prop :=
  ∃ id params capabilities before after,
    history = before ++ .agreed capabilities :: .handed Engine.initialized :: after ∧
      marks before = [.called id "initialize", .handed (Engine.greeting id params)] ∧
      ∀ event ∈ after, event.later = true

theorem Underway.append (h : Underway history) (hm : ∀ event ∈ more, event.later = true) :
    Underway (history ++ more) := by
  obtain ⟨id, params, capabilities, before, after, rfl, hb, ha⟩ := h
  refine ⟨id, params, capabilities, before, after ++ more, by simp, hb, ?_⟩
  intro event hmem
  exact (List.mem_append.mp hmem).elim (ha event) (hm event)

theorem Asked.agreed (h : Asked history) (capabilities : Json) :
    Underway (history ++ [.agreed capabilities, .handed Engine.initialized]) := by
  obtain ⟨id, params, hm⟩ := h
  exact ⟨id, params, capabilities, history, [], rfl, hm, by simp⟩

theorem Unasked.asked (h : Unasked history) (id : Nat) (params : Json) :
    Asked (history ++ [.called id "initialize", .handed (Engine.greeting id params)]) := by
  refine ⟨id, params, ?_⟩
  rw [marks_append, h]
  rfl

theorem Underway.marks (h : Underway history) : 3 ≤ (marks history).length := by
  obtain ⟨id, params, capabilities, before, after, rfl, hb, _⟩ := h
  have hmid : LanguageClient.marks (.agreed capabilities :: .handed Engine.initialized :: after)
      = .handed Engine.initialized :: LanguageClient.marks after := rfl
  rw [marks_append, hb, hmid]
  simp

theorem Unasked.not_underway (h : Unasked history) : ¬ Underway history := by
  intro hu
  have hlen := hu.marks
  rw [h] at hlen
  exact absurd hlen (by decide)

theorem Asked.not_underway (h : Asked history) : ¬ Underway history := by
  intro hu
  obtain ⟨id, params, hm⟩ := h
  have hlen := hu.marks
  simp [hm] at hlen

/-- No stage is left that had been reached. -/
structure Follows (history history' : List Event) : Prop where
  unasked : Unasked history → Unasked history'
  asked : Asked history → Asked history'
  underway : Underway history → Underway history'

theorem Follows.refl (history : List Event) : Follows history history := ⟨id, id, id⟩

theorem Event.later_of_unmarked {event : Event} (h : event.marked = false) :
    event.later = true := by
  cases event with
  | called id name => cases h
  | handed m =>
    have hno (method : String) : Message.isOf method m = false := by
      rw [Event.marked, Message.hasMethod, Option.isSome_eq_false_iff, Option.isNone_iff_eq_none] at h
      rw [Message.isOf, h]
    rw [Event.later, hno, hno]
    rfl
  | _ => rfl

theorem follows_of_unmarked (history : List Event) (h : ∀ event ∈ more, event.marked = false) :
    Follows history (history ++ more) := by
  have hmarks : marks (history ++ more) = marks history := by
    have hnone : marks more = [] := by
      refine List.filter_eq_nil_iff.mpr fun event hmem => ?_
      rw [h event hmem]
      exact Bool.false_ne_true
    rw [marks_append, hnone, List.append_nil]
  refine ⟨?_, ?_, fun hu => hu.append fun event hmem => Event.later_of_unmarked (h event hmem)⟩
  · rw [Unasked, Unasked, hmarks]
    exact id
  · rw [Asked, Asked, hmarks]
    exact id

theorem Underway.follows (hu : Underway history) (h : ∀ event ∈ more, event.later = true) :
    Follows history (history ++ more) :=
  ⟨fun h => absurd hu h.not_underway, fun h => absurd hu h.not_underway, fun hu => hu.append h⟩

/-- What is on the wire: the messages of one of the stages, and answers without content. What opens
    a document or changes it is said for a document. -/
structure Lawful (history : List Event) : Prop where
  stage : Unasked history ∨ Asked history ∨ Underway history
  answers : ∀ m, .handed m ∈ history → Message.hasMethod m = false →
    ∃ id, m = Message.response id .null
  spoken : (wire history).filter Message.speaks = (told history).map Prod.snd

theorem Lawful.append (h : Lawful history)
    (hstage : Unasked (history ++ more) ∨ Asked (history ++ more) ∨ Underway (history ++ more))
    (hanswers : ∀ m, .handed m ∈ more → Message.hasMethod m = false →
      ∃ id, m = Message.response id .null)
    (hspoken : (wire more).filter Message.speaks = (told more).map Prod.snd) :
    Lawful (history ++ more) where
  stage := hstage
  answers m hmem := (List.mem_append.mp hmem).elim (h.answers m) (hanswers m)
  spoken := by
    rw [wire_append, told_append, List.filter_append, List.map_append, h.spoken, hspoken]

theorem Follows.stage (hf : Follows history more)
    (h : Unasked history ∨ Asked history ∨ Underway history) :
    Unasked more ∨ Asked more ∨ Underway more :=
  h.imp hf.unasked (Or.imp hf.asked hf.underway)

theorem Lawful.tacit (h : Lawful history) (hm : ∀ event ∈ more, event.Tacit) :
    Lawful (history ++ more) := by
  have hf := follows_of_unmarked history fun event hmem => (hm event hmem).unmarked.1
  refine h.append (hf.stage h.stage) ?_ ?_
  · intro m hmem _
    exact hm _ hmem
  · obtain ⟨hwire, htold⟩ := wire_of_tacit hm
    rw [hwire, htold]
    rfl

theorem mem_marks {event : Event} (h : event ∈ history)
    (hm : event.marked = true) : event ∈ marks history :=
  List.mem_filter.mpr ⟨h, hm⟩

/-- Whoever has asked for anything else has done so after the handshake. -/
theorem Lawful.underway_of_called {id : Nat} {name : String} (h : Lawful history)
    (hc : .called id name ∈ history) (hne : name ≠ "initialize") :
    Underway history := by
  have hmem := mem_marks hc rfl
  rcases h.stage with hs | ⟨id', params, hs⟩ | hs
  · rw [hs] at hmem
    cases hmem
  · rw [hs] at hmem
    simp [hne] at hmem
  · exact hs

/-- On the wire the handshake comes first. -/
theorem Lawful.wire_cases (h : Lawful history) :
    wire history = [] ∨
      ∃ id params, wire history = [Engine.greeting id params] ∨
        ∃ rest, wire history = Engine.greeting id params :: Engine.initialized :: rest ∧
          ∀ m ∈ rest, Message.isOf "initialize" m = false ∧ Message.isOf "initialized" m = false := by
  have hgreeting (before : List Event) (id : Nat) (params : Json)
      (hb : marks before = [.called id "initialize", .handed (Engine.greeting id params)]) :
      wire before = [Engine.greeting id params] := by
    rw [← wire_marks, hb]
    rfl
  rcases h.stage with hs | ⟨id, params, hs⟩ | ⟨id, params, capabilities, before, after, rfl, hb, ha⟩
  · left
    rw [← wire_marks, hs]
    rfl
  · exact .inr ⟨id, params, .inl (hgreeting _ id params hs)⟩
  · refine .inr ⟨id, params, .inr ⟨wire after, ?_, ?_⟩⟩
    · rw [wire_append, hgreeting before id params hb]
      rfl
    · intro m hm
      obtain ⟨event, hmem, hevent⟩ := List.mem_filterMap.mp hm
      have hlater := ha event hmem
      cases event with
      | handed m' =>
        obtain rfl : m' = m := by
          rw [Event.message?] at hevent
          split at hevent
          · exact Option.some.inj hevent
          · cases hevent
        simpa [Event.later] using hlater
      | _ => cases hevent

/-- Before anything but the request to shake hands there was an agreement, and before that there was
    no other request. -/
theorem Lawful.agreed_before {m : Json} {before after : List Event} (h : Lawful history)
    (hsplit : history = before ++ .handed m :: after) (hm : Message.hasMethod m = true)
    (hne : Message.isOf "initialize" m = false) :
    ∃ id params capabilities earlier during, before = earlier ++ .agreed capabilities :: during ∧
      marks earlier = [.called id "initialize", .handed (Engine.greeting id params)] := by
  have hmarked : Event.marked (.handed m) = true := hm
  have hunlike (id : Nat) (params : Json) (earlier : List Event)
      (he : marks earlier = [.called id "initialize", .handed (Engine.greeting id params)]) :
      .handed m ∉ earlier := by
    intro hmem
    have hmem := mem_marks hmem hmarked
    rw [he] at hmem
    obtain rfl : m = Engine.greeting id params := by simpa using hmem
    cases hne
  have hmem : .handed m ∈ history := by simp [hsplit]
  rcases h.stage with hs | ⟨id, params, hs⟩ | ⟨id, params, capabilities, earlier, later, hh, hb, _⟩
  · have hmem := mem_marks hmem hmarked
    rw [hs] at hmem
    cases hmem
  · exact absurd hmem (hunlike id params _ hs)
  · rw [hh] at hsplit
    rcases List.append_eq_append_iff.mp hsplit with ⟨during, rfl, hrest⟩ | ⟨rest, rfl, hrest⟩
    · cases during with
      | nil => cases hrest
      | cons event during =>
        obtain ⟨rfl, _⟩ := List.cons.inj hrest
        exact ⟨id, params, capabilities, earlier, during, rfl, hb⟩
    · cases rest with
      | nil => cases hrest
      | cons event rest =>
        obtain ⟨rfl, _⟩ := List.cons.inj hrest
        exact absurd (by simp) (hunlike id params _ hb)

end

/-! ### Offers -/

/-- Is it the beginning of such a request? -/
def Event.calls (method : String) : Event → Bool
  | .called _ name => name == method
  | _ => false

/-- What may be begun when that has happened. The client shakes hands and speaks to the server on its
    own, and a completion is looked up only if completions have been asked for. -/
def Operation.offered (history : List Event) : Operation → Bool
  | .handshake | .request .. | .notify .. => false
  | .completionInfo _ true => history.any (Event.calls "textDocument/completion")
  | _ => true

/-- What a user of the client may do: begin what is offered, and bring in documents that nobody has
    been told of. -/
def Engine.Action.proper (e : Engine) : Engine.Action → Bool
  | .begin op => op.offered e.history
  | .addSession s => s.document.version == 0 && !s.document.opened
  | _ => true

/-- Every action is proper in the state in which it is taken. -/
def Engine.behaves : Engine → List Engine.Action → Bool
  | _, [] => true
  | e, a :: rest => a.proper e && behaves (e.act a) rest

/-! ### Frames -/

/-- Where a frame may stand when that has happened. -/
def Frame.Suits (history : List Event) : Frame → Prop
  | .begin .handshake => Unasked history
  | .begin (.request ..) | .begin (.notify ..) => False
  | .begin (.completionInfo _ true) => Underway history
  | .handshakeAnswered => Asked history
  | .handshakeAnnounced _ => Underway history
  | .hoverFlushed .. | .completionFlushed .. | .signatureFlushed .. => Underway history
  | _ => True

namespace Frame

variable {f : Frame} {history history' : List Event}

theorem Suits.follows (h : f.Suits history) (hf : Follows history history') : f.Suits history' := by
  unfold Suits at h ⊢
  split at h
  · exact hf.unasked h
  · exact h
  · exact h
  · exact hf.underway h
  · exact hf.asked h
  · exact hf.underway h
  · exact hf.underway h
  · exact hf.underway h
  · exact hf.underway h
  · trivial

/-- Apart from the handshake's own frames, only the last stage matters. -/
theorem Suits.other (h : f.Suits history) (hf : f.ofHandshake = false)
    (hu : Underway history → Underway history') : f.Suits history' := by
  unfold Suits at h ⊢
  split at h
  · cases hf
  · exact h
  · exact h
  · exact hu h
  · cases hf
  · cases hf
  · exact hu h
  · exact hu h
  · exact hu h
  · trivial

theorem suits_of_late (h : f.late = true) : f.Suits history ↔ Underway history := by
  cases f with
  | hoverFlushed doc generation pos => exact .rfl
  | completionFlushed doc generation pos kind character => exact .rfl
  | signatureFlushed doc generation pos character => exact .rfl
  | _ => cases h

theorem ofHandshake_of_late (h : f.late = true) : f.ofHandshake = false := by
  cases f with
  | «begin» op => cases h
  | handshakeAnswered => cases h
  | handshakeAnnounced result => cases h
  | _ => rfl

theorem ofHandshake_of_light (h : f.weighty = false) : f.ofHandshake = false := by
  cases f with
  | «begin» op => cases h
  | handshakeAnswered => cases h
  | handshakeAnnounced result => cases h
  | _ => rfl

theorem suits_of_light (h : f.weighty = false) : f.Suits history := by
  cases f with
  | «begin» op => cases h
  | handshakeAnswered => cases h
  | handshakeAnnounced result => cases h
  | hoverFlushed doc generation pos => cases h
  | completionFlushed doc generation pos kind character => cases h
  | signatureFlushed doc generation pos character => cases h
  | _ => trivial

theorem weighty_of_ofHandshake (h : f.ofHandshake = true) : f.weighty = true := by
  rw [← Bool.not_eq_false]
  intro hf
  rw [ofHandshake_of_light hf] at h
  cases h

theorem ofHandshake_begin (op : Operation) : (Frame.begin op).ofHandshake = op.shakes := by
  cases op <;> rfl

theorem suits_begin_own {op : Operation} (h : op.own = true) (hs : op.shakes = false) :
    (Frame.begin op).Suits history := by
  cases op with
  | handshake => cases hs
  | request method params limit => cases h
  | notify method params => cases h
  | completionInfo completion resolvable => cases h
  | _ => trivial

end Frame

theorem Adds.suits {st st' : List Frame} {history : List Event} (ha : Adds st st') :
    ∀ f ∈ st', f ∈ st ∨ f.Suits history := by
  intro f hf
  cases hw : f.weighty with
  | false => exact .inr (Frame.suits_of_light hw)
  | true => exact .inl (ha.mem hf hw)

theorem Adds.handshakes {st st' : List Frame} (ha : Adds st st') :
    st'.countP Frame.ofHandshake ≤ st.countP Frame.ofHandshake :=
  ha.countP fun _ => Frame.weighty_of_ofHandshake

namespace Engine

variable {c c' : Config} {st st' : List Frame} {e e' : Engine}

/-! ### The stage of the connection -/

/-- While the connection is open, its frames and flags fit what has happened. There is no more than
    one handshake, and a connection on which it has succeeded is under way. -/
structure Live (c : Config) : Prop where
  suits : ∀ f ∈ frames c, f.Suits c.2.history
  once : (frames c).countP Frame.ofHandshake ≤ c.2.handshakes
  unstarted : c.2.client.handshake = none → Unasked c.2.history
  ready : c.2.client.ready = true → Underway c.2.history
  named : ∀ r, c.2.client.handshake = some r → ∃ n, r = .task n
  value : ∀ n v, c.2.client.handshake = some (.task n) → c.2.outcome? (.task n) = some (.value v) →
    Underway c.2.history

/-- What has been said is in order, and so is what will be. -/
structure Ordered (c : Config) : Prop where
  lawful : Lawful c.2.history
  live : c.2.client.closed = false → Live c

theorem countP_begin (ops : List Operation) :
    (ops.map Frame.begin).countP Frame.ofHandshake = ops.countP Operation.shakes := by
  rw [List.countP_map]
  exact congrArg (List.countP · ops) (funext Frame.ofHandshake_begin)

theorem Live.named_grows (h : Live (st, e)) (hg : Grows e e') :
    ∀ r, e'.client.handshake = some r → ∃ n, r = .task n := by
  intro r hr
  rcases hg.errands .handshake with hsame | ⟨n, _, _, hn, _⟩
  · exact h.named r (hsame.symm.trans hr)
  · exact ⟨n, Option.some.inj (hr.symm.trans hn)⟩

theorem Live.once_grows (h : Live (st, e)) (hg : Grows e e')
    (hc : st'.countP Frame.ofHandshake ≤ st.countP Frame.ofHandshake) :
    (frames (st', e')).countP Frame.ofHandshake ≤ e'.handshakes := by
  obtain ⟨ops, hheld, _, hcount⟩ := hg.held
  have honce : st.countP Frame.ofHandshake + e.held.countP Frame.ofHandshake ≤ e.handshakes :=
    List.countP_append ▸ h.once
  change (st' ++ e'.held).countP Frame.ofHandshake ≤ e'.handshakes
  rw [List.countP_append, hheld, List.countP_append, countP_begin]
  omega

/-- No stage is left, no handshake is begun, and the frames that are added fit the stage. -/
theorem Live.update (h : Live (st, e)) (hg : Grows e e')
    (hh : e'.client.handshake = e.client.handshake) (hf : Follows e.history e'.history)
    (hr : e'.client.ready = true → e.client.ready = true ∨ Underway e'.history)
    (hv : ∀ n v, e.client.handshake = some (.task n) → e'.outcome? (.task n) = some (.value v) →
      e.outcome? (.task n) = some (.value v) ∨ Underway e'.history)
    (hst : ∀ f ∈ st', f ∈ st ∨ f.Suits e'.history)
    (hc : st'.countP Frame.ofHandshake ≤ st.countP Frame.ofHandshake) : Live (st', e') := by
  obtain ⟨ops, hheld, hown, hcount⟩ := hg.held
  have hsame : e'.handshakes = e.handshakes := by rw [handshakes, hh, handshakes]
  have hnone : ∀ op ∈ ops, op.shakes = false := by
    have hzero : ops.countP Operation.shakes = 0 := by omega
    simpa using List.countP_eq_zero.mp hzero
  refine ⟨?_, h.once_grows hg hc, ?_, ?_, h.named_grows hg, ?_⟩
  · intro f hmem
    rw [frames, List.mem_append, hheld, List.mem_append, List.mem_map] at hmem
    have hold (hmem : f ∈ frames (st, e)) : f.Suits e'.history := (h.suits f hmem).follows hf
    rcases hmem with hmem | hmem | ⟨op, hop, rfl⟩
    · exact (hst f hmem).elim (fun hmem => hold (List.mem_append_left _ hmem)) id
    · exact hold (List.mem_append_right _ hmem)
    · exact Frame.suits_begin_own (hown op hop) (hnone op hop)
  · intro hn
    exact hf.unasked (h.unstarted (hh ▸ hn))
  · intro hready
    exact (hr hready).elim (fun hready => hf.underway (h.ready hready)) id
  · intro n v hn hout
    have hn := hh ▸ hn
    exact (hv n v hn hout).elim (fun hout => hf.underway (h.value n v hn hout)) id

/-- The handshake's only frame gives way to the next. -/
theorem Live.advance {f f' g : Frame} (h : Live (f :: st, e)) (hf : f.ofHandshake = true)
    (hf' : f'.ofHandshake = true) (hlight : g.weighty = false) (hheld : e'.held = e.held)
    (hh : e'.client.handshake = e.client.handshake) (hr : e'.client.ready = e.client.ready)
    (hv : ∀ n v, e'.outcome? (.task n) = some (.value v) → e.outcome? (.task n) = some (.value v))
    (hu : Underway e.history → Underway e'.history) (hs : f'.Suits e'.history) :
    Live (g :: f' :: st, e') := by
  have honce : (st ++ e.held).countP Frame.ofHandshake + 1 ≤ e.handshakes := by
    rw [← List.countP_cons_of_pos hf]
    exact h.once
  have hle : e.handshakes ≤ 1 := by
    rw [handshakes]
    cases e.client.handshake <;> simp
  have hone : e.handshakes = 1 := by omega
  have hzero : (st ++ e.held).countP Frame.ofHandshake = 0 := by omega
  refine ⟨?_, ?_, ?_, ?_, ?_, ?_⟩
  · intro x hx
    rw [frames, hheld] at hx
    rcases List.mem_cons.mp hx with rfl | hx
    · exact Frame.suits_of_light hlight
    · rcases List.mem_cons.mp hx with rfl | hx
      · exact hs
      · have hother := List.countP_eq_zero.mp hzero x hx
        exact (h.suits x (List.mem_cons_of_mem _ hx)).other (by simpa using hother) hu
  · rw [frames, hheld, List.cons_append, List.cons_append, List.countP_cons_of_neg (by
      simp [Frame.ofHandshake_of_light hlight]), List.countP_cons_of_pos hf']
    change _ ≤ e'.handshakes
    rw [handshakes, hh, ← handshakes]
    omega
  · intro hn
    rw [handshakes, ← hh, hn] at hone
    cases hone
  · rw [hr]
    exact fun hready => hu (h.ready hready)
  · rw [hh]
    exact h.named
  · intro n v hn hout
    exact hu (h.value n v (hh ▸ hn) (hv n v hout))

/-! ### Turns -/

theorem Ordered.silent (h : Ordered (st, e)) (hs : Silent e e') (hg : Grows e e')
    (hst : ∀ f ∈ st', f ∈ st ∨ f.Suits e'.history)
    (hcount : st'.countP Frame.ofHandshake ≤ st.countP Frame.ofHandshake) : Ordered (st', e') := by
  obtain ⟨more, hh, hm⟩ := hs.history
  have hf := follows_of_unmarked e.history fun event hmem => (hm event hmem).unmarked.1
  rw [← hh] at hf
  refine ⟨?_, fun hc => ?_⟩
  · change Lawful e'.history
    rw [hh]
    exact h.lawful.tacit hm
  · exact (h.live (hs.open hc)).update hg hs.handshake hf (fun hr => .inl (hs.ready hr))
      (fun n v _ hout => .inl (hs.values n v hout)) hst hcount

/-- What is said while the connection is under way. -/
theorem Ordered.says {more : List Event} (h : Ordered (st, e)) (hu : Underway e.history)
    (hopen : e.client.closed = false) (hh : e'.history = e.history ++ more)
    (hlater : ∀ event ∈ more, event.later = true)
    (hmethod : ∀ m, .handed m ∈ more → Message.hasMethod m = true)
    (hspoken : (wire more).filter Message.speaks = (told more).map Prod.snd)
    (hc : e'.client.handshake = e.client.handshake ∧ e'.client.ready = e.client.ready)
    (hv : ∀ n v, e'.outcome? (.task n) = some (.value v) → e.outcome? (.task n) = some (.value v))
    (hg : Grows e e') (hst : ∀ f ∈ st', f ∈ st ∨ f.Suits e'.history)
    (hcount : st'.countP Frame.ofHandshake ≤ st.countP Frame.ofHandshake) : Ordered (st', e') := by
  have hf := hu.follows hlater
  refine ⟨?_, fun _ => ?_⟩
  · change Lawful e'.history
    rw [hh]
    refine h.lawful.append (.inr (.inr (hf.underway hu))) ?_ hspoken
    intro m hmem hno
    rw [hmethod m hmem] at hno
    cases hno
  · exact (h.live hopen).update hg hc.1 (hh ▸ hf) (fun hr => .inl (hc.2 ▸ hr))
      (fun n v _ hout => .inl (hv n v hout)) hst hcount

/-- The events of a request: it is no message of a document, and nothing but a greeting if it has that
    method. -/
theorem events_request {name : String} (h : Message.requestMethods.contains name = true) (id : Nat)
    (params : Json) :
    (∀ m, .handed m ∈ [Event.called id name, .handed (Message.request (.nat id) (.str name) params)] →
      Message.hasMethod m = true) ∧
    (wire [.called id name, .handed (Message.request (.nat id) (.str name) params)]).filter
      Message.speaks = [] ∧
    (name ≠ "initialize" → ∀ event ∈
      [Event.called id name, .handed (Message.request (.nat id) (.str name) params)],
        event.later = true) := by
  have hno (word : String) (hw : name ≠ word) :
      Message.isOf word (Message.request (.nat id) (.str name) params) = false :=
    beq_eq_false_iff_ne.mpr hw
  have hother (word : String) (hw : Message.requestMethods.contains word = false) : name ≠ word := by
    rintro rfl
    rw [h] at hw
    cases hw
  have hopen := hno _ (hother "textDocument/didOpen" (by decide +kernel))
  have hchange := hno _ (hother "textDocument/didChange" (by decide +kernel))
  have hend := hno _ (hother "initialized" (by decide +kernel))
  refine ⟨?_, ?_, ?_⟩
  · intro m hm
    obtain rfl : m = Message.request (.nat id) (.str name) params := by simpa using hm
    rfl
  · change [Message.request (.nat id) (.str name) params].filter Message.speaks = []
    simp [Message.speaks, hopen, hchange]
  · intro hne
    simp [Event.later, hne, hno _ hne, hend]

/-- A request is made on a connection that is under way, or begins the handshake. -/
theorem Ordered.call {name : String} {method params : Json} {f : Frame} (h : Ordered (st, e))
    (ha : Asks e name st st') (hm : Message.requestMethod method = .ok name)
    (hopen : e.client.closed = false) (hlight : f.weighty = false)
    (hg : Grows e ((e.enroll name).2.note
      (.handed (Message.request (.nat (e.enroll name).1) method params)))) :
    Ordered (f :: st', (e.enroll name).2.note
      (.handed (Message.request (.nat (e.enroll name).1) method params))) := by
  have hlive := h.live hopen
  obtain ⟨rfl, hname⟩ := Message.requestMethod_ok hm
  obtain ⟨hmethod, hspoken, hlater⟩ := events_request hname (e.enroll name).1 params
  have hv := (silent_promise (.answer (e.enroll name).1)
    { e with client := (e.client.enroll name).2 }).values
  have hh : ((e.enroll name).2.note
      (.handed (Message.request (.nat (e.enroll name).1) (.str name) params))).history
      = e.history ++ [.called (e.enroll name).1 name,
          .handed (Message.request (.nat (e.enroll name).1) (.str name) params)] :=
    List.append_assoc _ _ _
  have hsays (hne : name ≠ "initialize") (hu : Underway e.history) (hadds : Adds st st') :
      Ordered (f :: st', (e.enroll name).2.note
        (.handed (Message.request (.nat (e.enroll name).1) (.str name) params))) :=
    h.says hu hopen hh (hlater hne) hmethod hspoken ⟨rfl, rfl⟩ hv hg (hadds.cons hlight).suits
      (hadds.cons hlight).handshakes
  cases ha with
  | ready hr hne => exact hsays hne (hlive.ready hr) (.refl _)
  | @late st₁ g g' q hg hg' hne =>
    have hu := (Frame.suits_of_late (Frame.late_of_question hg)).mp (hlive.suits g (List.mem_cons_self ..))
    exact hsays hne hu ((Adds.tail _ _).cons (Frame.weighty_of_answers hg'))
  | resolving completion hne =>
    have hu : Underway e.history := hlive.suits _ (List.mem_cons_self ..)
    exact hsays hne hu ((Adds.tail _ _).cons rfl)
  | told method params limit => exact (hlive.suits _ (List.mem_cons_self ..)).elim
  | @handshake st₁ heq =>
    subst heq
    have hunasked : Unasked e.history := hlive.suits _ (List.mem_cons_self ..)
    have hasked := hunasked.asked (e.enroll "initialize").1 params
    refine ⟨?_, fun _ => ?_⟩
    · rw [hh]
      refine h.lawful.append (.inr (.inl hasked)) ?_ hspoken
      intro m hmem hno
      rw [hmethod m hmem] at hno
      cases hno
    · refine hlive.advance rfl rfl hlight rfl rfl rfl hv (fun hu => absurd hu hunasked.not_underway) ?_
      exact hh ▸ hasked

/-- The handshake ends. -/
theorem Ordered.agreed {f : Frame} (h : Ordered (.handshakeAnswered :: st, e))
    (hopen : e.client.closed = false) (hlight : f.weighty = false) (capabilities result : Json) :
    Ordered (f :: .handshakeAnnounced result :: st,
      (e.agree capabilities).note (.handed initialized)) := by
  have hlive := h.live hopen
  have hasked : Asked e.history := hlive.suits _ (List.mem_cons_self ..)
  have hh : ((e.agree capabilities).note (.handed initialized)).history
      = e.history ++ [.agreed capabilities, .handed initialized] := List.append_assoc _ _ _
  have hu := hasked.agreed capabilities
  rw [← hh] at hu
  refine ⟨?_, fun _ => ?_⟩
  · change Lawful ((e.agree capabilities).note (.handed initialized)).history
    rw [hh] at hu ⊢
    refine h.lawful.append (.inr (.inr hu)) ?_ rfl
    intro m hmem hno
    obtain rfl : m = initialized := by simpa using hmem
    cases hno
  · exact hlive.advance rfl rfl hlight rfl rfl rfl (fun _ _ => id) (fun _ => hu) hu

/-- A handshake is begun if there has been none. -/
theorem Ordered.handshake (h : Ordered (st, e)) (hg : Grows e e.startHandshake.2) :
    Ordered (st, e.startHandshake.2) := by
  rcases startHandshake_cases e with ⟨_, heq⟩ | ⟨hnone, ha⟩
  · rw [heq]
    exact h
  · have hh : e.startHandshake.2.history = e.history := ha.history
    obtain ⟨hready, hclosed⟩ := sameFlags_startHandshake e
    have hs : e.startHandshake.2.client.handshake = some (.task e.nextRef) := by
      rw [ha.client]
      rfl
    refine ⟨?_, fun hc => ?_⟩
    · change Lawful e.startHandshake.2.history
      rw [hh]
      exact h.lawful
    · have hlive := h.live (hclosed ▸ hc)
      have hunasked := hlive.unstarted hnone
      obtain ⟨ops, hheld, hown, _⟩ := hg.held
      refine ⟨?_, hlive.once_grows hg (Nat.le_refl _), ?_, ?_, hlive.named_grows hg, ?_⟩
      · intro f hmem
        rw [frames, List.mem_append, hheld, List.mem_append, List.mem_map] at hmem
        change f.Suits e.startHandshake.2.history
        rw [hh]
        rcases hmem with hmem | hmem | ⟨op, hop, rfl⟩
        · exact hlive.suits f (List.mem_append_left _ hmem)
        · exact hlive.suits f (List.mem_append_right _ hmem)
        · cases hshakes : op.shakes with
          | false => exact Frame.suits_begin_own (hown op hop) hshakes
          | true =>
            cases op with
            | handshake => exact hunasked
            | _ => cases hshakes
      · intro hn
        rw [hs] at hn
        cases hn
      · change e.startHandshake.2.client.ready = true → Underway e.startHandshake.2.history
        rw [hready, hh]
        exact hlive.ready
      · intro n v hn hout
        obtain rfl : e.nextRef = n := by simpa using hs.symm.trans hn
        rw [ha.outcome, outcome?_shaking] at hout
        cases hout

theorem Ordered.onDocument (h : Ordered (st, e)) (doc : Nat) (f : Document → Document) :
    Ordered (st, e.onDocument doc f) := by
  refine ⟨h.lawful, fun hc => ?_⟩
  obtain ⟨hsuits, honce, hunstarted, hready, hnamed, hover⟩ := h.live hc
  exact ⟨hsuits, honce, hunstarted, hready, hnamed, hover⟩

/-- A document is spoken for. -/
theorem Ordered.speak {doc : Nat} {m : Json} (h : Ordered (st, e)) (hu : Underway e.history)
    (hopen : e.client.closed = false) (hs : Message.speaks m = true)
    (hst : ∀ f ∈ st', f ∈ st ∨ f.Suits (e.speak doc m).history)
    (hcount : st'.countP Frame.ofHandshake ≤ st.countP Frame.ofHandshake) :
    Ordered (st', e.speak doc m) := by
  have hmethod := Message.hasMethod_of_speaks hs
  have hno := Message.isOf_of_speaks hs
  refine h.says hu hopen (List.append_assoc _ _ _) ?_ ?_ ?_ ⟨rfl, rfl⟩ (fun _ _ => id)
    (.of_tasks rfl (Nat.le_refl _) rfl) hst hcount
  · simp [Event.later, hno]
  · intro m' hm'
    obtain rfl : m' = m := by simpa using hm'
    exact hmethod
  · have hwire : wire ([.told doc m] ++ [.handed m]) = [m] := by
      simp [wire, List.filterMap_cons, Event.message?, hmethod]
    rw [hwire, List.filter_cons_of_pos hs]
    rfl

theorem Live.success {v : Value} (h : Live (st, e)) (hv : e.handshakeOutcome = .value v) :
    Underway e.history := by
  unfold handshakeOutcome at hv
  cases hr : e.client.handshake with
  | none => simp [hr] at hv
  | some r =>
    obtain ⟨n, rfl⟩ := h.named r hr
    simp only [hr, Option.bind_some] at hv
    cases hout : e.outcome? (.task n) with
    | none => simp [hout] at hv
    | some o =>
      obtain rfl : o = .value v := by simpa [hout] using hv
      exact h.value n v hr hout

theorem Ordered.turn (h : Ordered c) (ht : Turn c c') (hg : Grows c.2 c'.2) : Ordered c' := by
  cases ht with
  | silent hs ha => exact h.silent hs hg ha.suits ha.handshakes
  | @late st e f hf hr =>
    refine ⟨h.lawful, fun hc => ?_⟩
    have hlive := h.live hc
    refine hlive.update hg rfl (.refl _) .inl (fun _ _ _ => .inl) ?_ ?_
    · intro g hmem
      rcases List.mem_cons.mp hmem with rfl | hmem
      · exact .inr ((Frame.suits_of_late hf).mpr (hlive.ready hr))
      · exact .inl hmem
    · rw [List.countP_cons_of_neg (by simp [Frame.ofHandshake_of_late hf])]
  | call ha hm hopen hlight => exact h.call ha hm hopen hlight hg
  | notify hopen => exact ((h.live hopen).suits _ (List.mem_cons_self ..)).elim
  | handshake => exact h.handshake hg
  | agreed capabilities result hopen hlight => exact h.agreed hopen hlight capabilities result
  | @agreedClosed st e capabilities result hclosed =>
    refine ⟨?_, fun hc => ?_⟩
    · have hf : Follows e.history (e.history ++ [.agreed capabilities]) :=
        follows_of_unmarked e.history (by simp [Event.marked])
      exact h.lawful.append (hf.stage h.lawful.stage) (by simp) rfl
    · rw [show (e.agree capabilities).client.closed = true from hclosed] at hc
      cases hc
  | @ready st e result =>
    refine ⟨h.lawful, fun hc => ?_⟩
    have hlive := h.live hc
    have hu : Underway e.history := hlive.suits _ (List.mem_cons_self ..)
    exact hlive.update hg rfl (.refl _) (fun _ => .inr hu) (fun _ _ _ => .inl) (Adds.tail _ _).suits
      (Adds.tail _ _).handshakes
  | @preset st e doc text =>
    refine h.silent (silent_preset doc text e) hg ?_ (Nat.le_refl _)
    intro f hf
    rcases List.mem_cons.mp hf with rfl | hf
    · exact .inr trivial
    · exact .inl (List.mem_cons_of_mem _ hf)
  | @opening st e doc s v f hv hsession hshut hopen hlight =>
    refine h.speak ((h.live hopen).success hv) hopen rfl ?_ ?_
    · intro g hg
      rcases List.mem_cons.mp hg with rfl | hg
      · exact .inr (Frame.suits_of_light hlight)
      · rcases List.mem_cons.mp hg with rfl | hg
        · exact .inr trivial
        · exact .inl (List.mem_cons_of_mem _ hg)
    · rw [List.countP_cons_of_neg (by simp [Frame.ofHandshake_of_light hlight])]
      exact Nat.le_refl _
  | @opened st e doc sent =>
    have hg : Grows (e.onDocument doc fun d => { d with opened := true }.resync sent)
        (e.noteOpened doc sent) := ⟨hg.nextRef, hg.places, hg.errands⟩
    exact (h.onDocument doc _).silent (silent_noteOpened doc sent e) hg (Adds.tail _ _).suits
      (Adds.tail _ _).handshakes
  | @told st st₁ e e₁ doc s ranges f hs ha hsession hready _ _ hopen hlight =>
    have hg : Grows e e₁ := ⟨hg.nextRef, hg.places, hg.errands⟩
    have hordered := h.silent hs hg ha.suits ha.handshakes
    exact (hordered.onDocument doc _).speak ((hordered.live hopen).ready hready) hopen rfl
      ((Adds.refl _).cons hlight).suits ((Adds.refl _).cons hlight).handshakes
  | @closed st st' e e' more hclosed hclient hhistory hm =>
    refine ⟨?_, fun hc => ?_⟩
    · change Lawful e'.history
      rw [hhistory]
      exact h.lawful.tacit hm
    · rw [show e'.client.closed = true from hclient ▸ hclosed] at hc
      cases hc

theorem stable_ordered : Stable Ordered where
  turn h ht hg := h.turn ht hg
  move {st st' e tasks} h hf := by
    refine ⟨h.lawful, fun hc => ?_⟩
    have hlive := h.live hc
    refine ⟨?_, ?_, hlive.unstarted, hlive.ready, hlive.named, hlive.value⟩
    · intro f hmem
      exact hlive.suits f (hf.mem_iff.mp hmem)
    · rw [hf.countP_eq]
      exact hlive.once
  ends {e m o} h hs := by
    refine ⟨?_, fun hc => ?_⟩
    · change Lawful (e.settle (.task m) o).history
      rw [settle_history]
      exact h.lawful
    · rw [settle_client] at hc
      have hlive := h.live hc
      have hh : (e.settle (.task m) o).history = e.history := settle_history _ _ _
      refine hlive.update (grows_settle _ _ _) (by rw [settle_client]) (hh ▸ .refl _) ?_ ?_
        (fun _ => .inl) (Nat.le_refl _)
      · rw [settle_client]
        exact .inl
      · intro n v hn hout
        rw [outcome?_eq_join] at hout ⊢
        rcases standing_settle (.task m) (.task n) o e with heq | ⟨hm, _, heq⟩
        · rw [heq] at hout
          exact .inl hout
        · rw [heq] at hout
          obtain rfl : n = m := by simpa using hm
          obtain rfl : o = .value v := by simpa using hout
          exact .inr (hh ▸ hlive.ready (hs hn v rfl))

/-! ### What a user may do -/

theorem suits_begin_offered {history : List Event} {op : Operation} (h : Lawful history)
    (ho : op.offered history = true) : (Frame.begin op).Suits history := by
  cases op with
  | handshake => cases ho
  | request method params limit => cases ho
  | notify method params => cases ho
  | completionInfo completion resolvable =>
    cases resolvable with
    | false => trivial
    | true =>
      obtain ⟨event, hmem, hcalls⟩ := List.any_eq_true.mp ho
      cases event with
      | called id name =>
        obtain rfl : name = "textDocument/completion" := by simpa [Event.calls] using hcalls
        exact h.underway_of_called hmem (by decide)
      | _ => cases hcalls
  | _ => trivial

theorem Ordered.spawn {op : Operation} (h : Ordered ([], e)) (hn : Numbered e)
    (ho : op.offered e.history = true) : Ordered ([], (e.spawn op).2) := by
  have hshakes : op.shakes = false := by
    cases op with
    | handshake => cases ho
    | _ => rfl
  refine ⟨h.lawful, fun hc => ?_⟩
  have hlive := h.live hc
  have hheld : frames ([], (e.spawn op).2) = e.held ++ [.begin op] := hn.held_spawn op
  refine ⟨?_, ?_, hlive.unstarted, hlive.ready, hlive.named, ?_⟩
  · intro f hf
    rw [hheld, List.mem_append, List.mem_singleton] at hf
    rcases hf with hf | rfl
    · exact hlive.suits f hf
    · exact suits_begin_offered h.lawful ho
  · rw [hheld, List.countP_append, List.countP_singleton, Frame.ofHandshake_begin, hshakes]
    exact hlive.once
  · intro n v hr hout
    exact hlive.value n v hr ((silent_spawn op e).values n v hout)

theorem Ordered.addSession (h : Ordered ([], e)) (hc : Correlated ([], e)) (s : Session) :
    Ordered ([], e.addSession s) := by
  let e₁ : Engine := { e with sessions := e.sessions ++ [s] }
  have hcalm : Calm e e₁ := calm_of_eq rfl rfl rfl rfl rfl rfl fun _ => rfl
  have hadded : Ordered ([], e₁) := by
    refine ⟨h.lawful, fun hopen => ?_⟩
    obtain ⟨hsuits, honce, hunstarted, hready, hnamed, hover⟩ := h.live hopen
    exact ⟨hsuits, honce, hunstarted, hready, hnamed, hover⟩
  exact stable_ordered.path hadded (hc.calm hcalm (.of_tasks rfl (Nat.le_refl _) rfl) rfl)
    (.single (.register (.attach (.document e.sessions.length))))

theorem Ordered.act {a : Action} (h : Ordered ([], e)) (hc : Correlated ([], e))
    (hs : Shaken none e) (ha : a.proper e = true) : Ordered ([], e.act a) := by
  cases hb : a.brings with
  | false => exact stable_ordered.act h hc hs hb
  | true =>
    cases a with
    | «begin» op => exact h.spawn hc.numbered ha
    | addSession s => exact h.addSession hc s
    | _ => cases hb

end Engine

end LanguageClient
