import LanguageClient.Proofs.Client.Granting
import LanguageClient.Proofs.Client.Wire

/-!
What is said of each document. A document that is opened once is spoken for first by one message that
opens it, which carries version 0, and then by messages that bring changes, which carry the versions
1, 2, 3 and so on; after it was closed nothing is said of it. Documents do not disturb one another:
a turn is a document's own, or leaves it alone (`Part`).

    didOpen 0 ──▶ didChange 1 ──▶ didChange 2 ──▶ …          close ──▶ silence
-/

namespace LanguageClient

/-! ### The messages of a document -/

/-- What a message says of a document: its method, and the version that it carries. -/
def Message.stamp (m : Json) : Option Json × Option Json :=
  (m.member? "method", do
    (← (← m.member? "params").member? "textDocument").member? "version")

/-- The stamps of a document that was opened and then changed so many times. -/
def stamps (n : Nat) : List (Option Json × Option Json) :=
  (some (.str "textDocument/didOpen"), some (.nat 0)) :: (List.range n).map fun i =>
    (some (.str "textDocument/didChange"), some (.nat (i + 1)))

/-- The messages that were said for a document. -/
def toldFor (doc : Nat) (history : List Event) : List Json :=
  ((told history).filter (·.1 = doc)).map Prod.snd

theorem toldFor_append (doc : Nat) (history more : List Event) :
    toldFor doc (history ++ more) = toldFor doc history ++ toldFor doc more := by
  rw [toldFor, told_append, List.filter_append, List.map_append]
  rfl

theorem toldFor_of_tacit {more : List Event} (h : ∀ event ∈ more, event.Tacit) (doc : Nat) :
    toldFor doc more = [] := by
  rw [toldFor, (wire_of_tacit h).2]
  rfl

theorem toldFor_concat {event : Event} (h : event.told? = none) (doc : Nat) (history : List Event) :
    toldFor doc (history ++ [event]) = toldFor doc history := by
  have hnone : toldFor doc [event] = [] := by simp [toldFor, told, h]
  rw [toldFor_append, hnone, List.append_nil]

theorem length_stamps (n : Nat) : (stamps n).length = n + 1 := by simp [stamps]

theorem stamps_succ (n : Nat) : stamps (n + 1)
    = stamps n ++ [(some (.str "textDocument/didChange"), some (.nat (n + 1)))] := by
  simp [stamps, List.range_succ]

/-! ### Frames -/

/-- Will the frame open the document? -/
def Frame.awaits (doc : Nat) : Frame → Bool
  | .begin (.openDocument d _) | .readyToOpen d => d == doc
  | _ => false

/-- Does the frame stand for the message that opens the document? -/
def Frame.opening (doc : Nat) : Frame → Bool
  | .openSent d _ => d == doc
  | _ => false

theorem Frame.apart_of_light {f : Frame} (h : f.weighty = false) (doc : Nat) :
    f.awaits doc = false ∧ f.opening doc = false := by
  cases f with
  | «begin» op => cases h
  | readyToOpen d => cases h
  | openSent d sent => cases h
  | _ => exact ⟨rfl, rfl⟩

theorem Frame.apart_of_late {f : Frame} (h : f.late = true) (doc : Nat) :
    f.awaits doc = false ∧ f.opening doc = false := by
  cases f with
  | «begin» op => cases h
  | readyToOpen d => cases h
  | openSent d sent => cases h
  | _ => exact ⟨rfl, rfl⟩

theorem Frame.awaits_begin_own {op : Operation} (h : op.own = true) (doc : Nat) :
    (Frame.begin op).awaits doc = false := by
  cases op with
  | openDocument d text => cases h
  | _ => rfl

/-- No frame has been added that opens the document. -/
structure Keeps (doc : Nat) (st st' : List Frame) : Prop where
  awaits : st'.countP (Frame.awaits doc) ≤ st.countP (Frame.awaits doc)
  opening : ∀ f ∈ st', f.opening doc = true → f ∈ st

namespace Keeps

variable {doc : Nat} {st st' : List Frame}

theorem refl (doc : Nat) (st : List Frame) : Keeps doc st st := ⟨Nat.le_refl _, fun _ h _ => h⟩

theorem tail (doc : Nat) (f : Frame) (st : List Frame) : Keeps doc (f :: st) st :=
  ⟨(List.sublist_cons_self f st).countP_le, fun _ h _ => List.mem_cons_of_mem _ h⟩

theorem cons {f : Frame} (hf : f.awaits doc = false ∧ f.opening doc = false)
    (h : Keeps doc st st') : Keeps doc st (f :: st') := by
  constructor
  · rw [List.countP_cons_of_neg (by simp [hf.1])]
    exact h.awaits
  · intro g hg ho
    rcases List.mem_cons.mp hg with rfl | hg
    · rw [hf.2] at ho
      cases ho
    · exact h.opening g hg ho

end Keeps

theorem Adds.keeps {st st' : List Frame} (h : Adds st st') (doc : Nat) : Keeps doc st st' := by
  have hweight (f : Frame) (hf : f.weighty = false) := Frame.apart_of_light hf doc
  constructor
  · refine h.countP fun f hf => ?_
    rw [← Bool.not_eq_false]
    intro hw
    rw [(hweight f hw).1] at hf
    cases hf
  · intro f hf ho
    refine h.mem hf ?_
    rw [← Bool.not_eq_false]
    intro hw
    rw [(hweight f hw).2] at ho
    cases ho

namespace Engine

variable {c c' : Config} {st st' : List Frame} {e e' : Engine} {doc k : Nat}

theorem keeps_asks {name : String} (h : Asks e name st st') (doc : Nat) : Keeps doc st st' := by
  cases h with
  | ready => exact .refl doc st
  | late hf hf' =>
    exact (Keeps.tail doc _ _).cons (Frame.apart_of_light (Frame.weighty_of_answers hf') doc)
  | resolving completion => exact (Keeps.tail doc _ _).cons ⟨rfl, rfl⟩
  | told method params limit => exact .tail doc _ _
  | handshake => exact (Keeps.tail doc _ _).cons ⟨rfl, rfl⟩

theorem stamp_didOpen (d : Document) : Message.stamp (didOpen d)
    = (some (.str "textDocument/didOpen"), some (.nat d.version)) := rfl

theorem stamp_didChange (d : Document) (changes : List ContentChange) :
    Message.stamp (didChange d changes)
      = (some (.str "textDocument/didChange"), some (.nat d.version)) := rfl

/-- Every message of changes has a version of its own. -/
theorem version_beginFlush (ranges : Bool) (d : Document) :
    (d.beginFlush ranges).2.version = d.version + 1 := (Document.alike_resync _ _).version

/-! ### One document's part -/

/-- The document's messages carry the same as before. -/
abbrev SameStamp (doc : Nat) (e e' : Engine) : Prop :=
  Option.Rel (fun s s' => s.document.Alike s'.document) (e.session? doc) (e'.session? doc)

theorem SameStamp.next {s : Session} (h : SameStamp doc e e') (hs : e.session? doc = some s) :
    ∃ s', e'.session? doc = some s' ∧ s.document.Alike s'.document := by
  unfold SameStamp at h
  rw [hs] at h
  generalize e'.session? doc = o at h ⊢
  cases h with
  | some ha => exact ⟨_, rfl, ha⟩

theorem SameStamp.last {s' : Session} (h : SameStamp doc e e') (hs' : e'.session? doc = some s') :
    ∃ s, e.session? doc = some s ∧ s.document.Alike s'.document := by
  unfold SameStamp at h
  rw [hs'] at h
  generalize e.session? doc = o at h ⊢
  cases h with
  | some ha => exact ⟨_, rfl, ha⟩

/-- What a turn can mean to a document. -/
inductive Part (doc : Nat) : Config → Config → Prop where
  | apart {st st' : List Frame} {e e' : Engine} :
      toldFor doc e'.history = toldFor doc e.history →
      (e'.client.closed = false →
        e.client.closed = false ∧ SameStamp doc e e' ∧ Keeps doc st st') →
      Part doc (st, e) (st', e')
  | opening {st : List Frame} {e : Engine} {s : Session} {f : Frame} {text : List Char} :
      e.session? doc = some s → s.document.closed = false → e.client.closed = false →
      f.weighty = false →
      Part doc (.readyToOpen doc :: st, e)
        (f :: .openSent doc text :: st, e.speak doc (didOpen s.document))
  | opened {st : List Frame} {e e' : Engine} {sent : List Char} :
      Silent (e.onDocument doc fun d => { d with opened := true }.resync sent) e' →
      Part doc (.openSent doc sent :: st, e) (st, e')
  | told {st st₁ : List Frame} {e e₁ : Engine} {s : Session} {ranges : Bool} {f : Frame} :
      Silent e e₁ → Adds st st₁ → e₁.session? doc = some s → s.document.opened = true →
      s.document.closed = false → e₁.client.closed = false → f.weighty = false →
      Part doc (st, e) (f :: st₁,
        (e₁.onDocument doc fun _ => (s.document.beginFlush ranges).2).speak doc
          (didChange (s.document.beginFlush ranges).2 (s.document.beginFlush ranges).1))

theorem Part.of_eq (hh : toldFor doc e'.history = toldFor doc e.history)
    (hc : e'.client.closed = e.client.closed) (hs : e'.session? doc = e.session? doc)
    (hst : Keeps doc st st') : Part doc (st, e) (st', e') := by
  refine .apart hh fun hopen => ⟨hc ▸ hopen, ?_, hst⟩
  rw [SameStamp, hs]
  exact alike_refl _

theorem Silent.toldFor (h : Silent e e') (doc : Nat) :
    toldFor doc e'.history = LanguageClient.toldFor doc e.history := by
  obtain ⟨more, hh, hm⟩ := h.history
  rw [hh, toldFor_append, toldFor_of_tacit hm, List.append_nil]

theorem Silent.part (h : Silent e e') (hst : Keeps doc st st') : Part doc (st, e) (st', e') :=
  .apart (h.toldFor doc) fun hc => ⟨h.open hc, h.sessions doc, hst⟩

theorem toldFor_speak (doc doc' : Nat) (m : Json) (e : Engine) :
    toldFor doc' (e.speak doc m).history
      = toldFor doc' e.history ++ if doc = doc' then [m] else [] := by
  change toldFor doc' ((e.history ++ [.told doc m]) ++ [.handed m]) = _
  rw [toldFor_concat rfl, toldFor_append]
  congr 1
  split <;> simp_all [toldFor, told, Event.told?]

theorem session?_onDocument_of_ne {doc' : Nat} (h : doc' ≠ doc) (f : Document → Document)
    (e : Engine) : (e.onDocument doc' f).session? doc = e.session? doc := by
  rw [session?_onDocument, if_neg h]

theorem session?_onDocument_self {s : Session} (h : e.session? doc = some s)
    (f : Document → Document) :
    (e.onDocument doc f).session? doc = some { s with document := f s.document } := by
  rw [session?_onDocument, if_pos rfl, h, Option.map_some]

theorem part_startHandshake (st : List Frame) (e : Engine) (doc : Nat) :
    Part doc (st, e) (st, e.startHandshake.2) := by
  rcases startHandshake_cases e with ⟨_, heq⟩ | ⟨_, ha⟩
  · rw [heq]
    exact .of_eq rfl rfl rfl (.refl doc st)
  · have hs := silent_tallies ha.toTallies
    exact .apart (hs.toldFor doc) fun hc => ⟨hs.open hc, hs.sessions doc, .refl doc st⟩

/-- A turn is a document's own, or leaves it alone. -/
theorem Turn.part (h : Turn c c') (doc : Nat) : Part doc c c' := by
  have hlight {f : Frame} {st st' : List Frame} (hf : f.weighty = false) (hst : Keeps doc st st') :
      Keeps doc st (f :: st') := hst.cons (Frame.apart_of_light hf doc)
  cases h with
  | silent hs ha => exact hs.part (ha.keeps doc)
  | late hf => exact .of_eq rfl rfl rfl ((Keeps.refl doc _).cons (Frame.apart_of_late hf doc))
  | @call st st' e method params name f ha _ _ hf =>
    refine .of_eq ?_ rfl rfl (hlight hf (keeps_asks ha doc))
    exact (toldFor_concat rfl doc _).trans (toldFor_concat rfl doc _)
  | notify _ hf =>
    exact .of_eq (toldFor_concat rfl doc _) rfl rfl (hlight hf (.tail doc _ _))
  | handshake => exact part_startHandshake _ _ doc
  | agreed capabilities result _ hf =>
    refine .of_eq ?_ rfl rfl (hlight hf ((Keeps.tail doc _ _).cons ⟨rfl, rfl⟩))
    exact (toldFor_concat rfl doc _).trans (toldFor_concat rfl doc _)
  | agreedClosed capabilities result =>
    exact .of_eq (toldFor_concat rfl doc _) rfl rfl ((Keeps.tail doc _ _).cons ⟨rfl, rfl⟩)
  | ready result => exact .of_eq rfl rfl rfl (.tail doc _ _)
  | @preset st e doc' text =>
    have hawaits : (Frame.begin (.openDocument doc' text)).awaits doc
        = (Frame.readyToOpen doc').awaits doc := rfl
    refine (silent_preset doc' text e).part ⟨?_, ?_⟩
    · rw [List.countP_cons, List.countP_cons, hawaits]
    · intro f hf ho
      rcases List.mem_cons.mp hf with rfl | hf
      · cases ho
      · exact List.mem_cons_of_mem _ hf
  | @opening st e doc' s v f hv hsession hshut hopen hf =>
    by_cases hdoc : doc' = doc
    · subst hdoc
      exact .opening hsession hshut hopen hf
    · refine .of_eq ?_ rfl rfl (hlight hf ((Keeps.tail doc _ _).cons ⟨rfl, ?_⟩))
      · rw [toldFor_speak, if_neg hdoc, List.append_nil]
      · exact beq_eq_false_iff_ne.mpr hdoc
  | @opened st e doc' sent =>
    have hs := silent_noteOpened doc' sent e
    by_cases hdoc : doc' = doc
    · subst hdoc
      exact .opened hs
    · refine .apart (hs.toldFor doc) fun hc => ⟨hs.open hc, ?_, .tail doc _ _⟩
      have hsessions := hs.sessions doc
      rw [session?_onDocument_of_ne hdoc] at hsessions
      exact hsessions
  | @told st st₁ e e₁ doc' s ranges f hs ha hsession _ hopened hshut hopen hf =>
    by_cases hdoc : doc' = doc
    · subst hdoc
      exact .told hs ha hsession hopened hshut hopen hf
    · refine .apart ?_ fun hc => ⟨hs.open hc, ?_, hlight hf (ha.keeps doc)⟩
      · rw [toldFor_speak, if_neg hdoc, List.append_nil]
        exact hs.toldFor doc
      · have hsame : ((e₁.onDocument doc' fun _ => (s.document.beginFlush ranges).2).speak doc'
            (didChange (s.document.beginFlush ranges).2 (s.document.beginFlush ranges).1)).session? doc
            = e₁.session? doc :=
          session?_onDocument_of_ne hdoc (fun _ => (s.document.beginFlush ranges).2) e₁
        rw [SameStamp, hsame]
        exact hs.sessions doc
  | closed hclosed hclient hh hm =>
    refine .apart (by rw [hh, toldFor_append, toldFor_of_tacit hm, List.append_nil]) fun hc => ?_
    rw [hclient, hclosed] at hc
    cases hc

/-! ### Versions -/

/-- Nothing has been said of the document, which is to be opened so many times at most. -/
structure Unspoken (doc k : Nat) (c : Config) : Prop where
  told : toldFor doc c.2.history = []
  fresh : ∀ s, c.2.session? doc = some s → s.document.version = 0 ∧ s.document.opened = false
  unsent : ∀ f ∈ frames c, f.opening doc = false
  awaits : (frames c).countP (Frame.awaits doc) ≤ k

/-- The document has been opened, and its version counts the changes that were said. -/
structure Spoken (doc k : Nat) (c : Config) : Prop where
  told : ∃ s, c.2.session? doc = some s ∧
    (toldFor doc c.2.history).map Message.stamp = stamps s.document.version
  awaits : (frames c).countP (Frame.awaits doc) + 1 ≤ k

/-- What was said of a document is in order. While the connection is open, so is what will be. -/
structure Versioned (doc k : Nat) (c : Config) : Prop where
  told : toldFor doc c.2.history = [] ∨
    ∃ n, (toldFor doc c.2.history).map Message.stamp = stamps n
  live : c.2.client.closed = false → Unspoken doc k c ∨ Spoken doc k c

theorem versioned_of_live (h : Unspoken doc k c ∨ Spoken doc k c) : Versioned doc k c := by
  refine ⟨?_, fun _ => h⟩
  rcases h with h | h
  · exact .inl h.told
  · obtain ⟨s, _, hs⟩ := h.told
    exact .inr ⟨_, hs⟩

/-- New tasks open no document. -/
theorem keeps_frames (hst : Keeps doc st st') (hg : Grows e e') :
    Keeps doc (frames (st, e)) (frames (st', e')) := by
  obtain ⟨ops, hheld, hown, _⟩ := hg.held
  have hnone : (ops.map Frame.begin).countP (Frame.awaits doc) = 0 := by
    rw [List.countP_eq_zero]
    intro f hf
    obtain ⟨op, hop, rfl⟩ := List.mem_map.mp hf
    simp [Frame.awaits_begin_own (hown op hop) doc]
  constructor
  · have hle := hst.awaits
    change (st' ++ e'.held).countP _ ≤ (st ++ e.held).countP _
    rw [List.countP_append, List.countP_append, hheld, List.countP_append, hnone]
    omega
  · intro f hf ho
    rw [frames, List.mem_append, hheld, List.mem_append, List.mem_map] at hf
    rcases hf with hf | hf | ⟨op, _, rfl⟩
    · exact List.mem_append_left _ (hst.opening f hf ho)
    · exact List.mem_append_right _ hf
    · cases ho

/-- What leaves the document alone. -/
theorem Versioned.apart (h : Versioned doc k c) (hh : toldFor doc c'.2.history = toldFor doc c.2.history)
    (hs : c'.2.client.closed = false → c.2.client.closed = false ∧ SameStamp doc c.2 c'.2 ∧
      Keeps doc (frames c) (frames c')) : Versioned doc k c' := by
  constructor
  · rw [hh]
    exact h.told
  · intro hc
    obtain ⟨hopen, hrel, hst⟩ := hs hc
    rcases h.live hopen with hu | hu
    · refine .inl ⟨hh.trans hu.told, ?_, ?_, Nat.le_trans hst.awaits hu.awaits⟩
      · intro s' hs'
        obtain ⟨s, hs, ha⟩ := hrel.last hs'
        obtain ⟨hv, ho⟩ := hu.fresh s hs
        exact ⟨ha.version.trans hv, ha.opened.trans ho⟩
      · intro f hf
        rw [← Bool.not_eq_true]
        intro ho
        rw [hu.unsent f (hst.opening f hf ho)] at ho
        cases ho
    · obtain ⟨s, hs, hstamps⟩ := hu.told
      obtain ⟨s', hs', ha⟩ := hrel.next hs
      refine .inr ⟨⟨s', hs', ?_⟩, Nat.le_trans (Nat.succ_le_succ hst.awaits) hu.awaits⟩
      rw [hh, hstamps, ha.version]

/-- The document is opened. -/
theorem Versioned.opening {s : Session} {f : Frame} {text : List Char}
    (h : Versioned doc k (.readyToOpen doc :: st, e)) (hk : k ≤ 1) (hs : e.session? doc = some s)
    (hopen : e.client.closed = false) (hf : f.weighty = false) :
    Versioned doc k (f :: .openSent doc text :: st, e.speak doc (didOpen s.document)) := by
  have hcount : (frames (.readyToOpen doc :: st, e)).countP (Frame.awaits doc)
      = (st ++ e.held).countP (Frame.awaits doc) + 1 :=
    List.countP_cons_of_pos (by simp [Frame.awaits])
  rcases h.live hopen with hu | hu
  · obtain ⟨hversion, _⟩ := hu.fresh s hs
    have hawaits := hu.awaits
    refine versioned_of_live (.inr ⟨⟨s, hs, ?_⟩, ?_⟩)
    · change (toldFor doc (e.speak doc (didOpen s.document)).history).map Message.stamp = _
      rw [toldFor_speak, if_pos rfl, show toldFor doc e.history = [] from hu.told, List.nil_append,
        List.map_singleton, stamp_didOpen, hversion]
      rfl
    · have hlight : (f :: .openSent doc text :: (st ++ e.held)).countP (Frame.awaits doc)
          = (st ++ e.held).countP (Frame.awaits doc) := by
        rw [List.countP_cons_of_neg (by simp [(Frame.apart_of_light hf doc).1]),
          List.countP_cons_of_neg (by simp [Frame.awaits])]
      change (f :: .openSent doc text :: (st ++ e.held)).countP _ + 1 ≤ k
      omega
  · have hawaits := hu.awaits
    omega

/-- The document counts as open. -/
theorem Versioned.opened {sent : List Char} (h : Versioned doc k (.openSent doc sent :: st, e)) :
    Versioned doc k (.openSent doc sent :: st,
      e.onDocument doc fun d => { d with opened := true }.resync sent) := by
  refine ⟨h.told, fun hc => ?_⟩
  rcases h.live hc with hu | hu
  · have hno := hu.unsent _ (List.mem_cons_self ..)
    simp [Frame.opening] at hno
  · obtain ⟨s, hs, hstamps⟩ := hu.told
    refine .inr ⟨⟨_, session?_onDocument_self hs _, ?_⟩, hu.awaits⟩
    rw [(Document.alike_resync _ _).version]
    exact hstamps

/-- Changes of the document are sent. -/
theorem Versioned.tells {s : Session} {ranges : Bool} {f : Frame} (h : Versioned doc k (st, e))
    (hs : e.session? doc = some s) (hopened : s.document.opened = true)
    (hopen : e.client.closed = false) (hf : f.weighty = false) :
    Versioned doc k (f :: st, (e.onDocument doc fun _ => (s.document.beginFlush ranges).2).speak doc
      (didChange (s.document.beginFlush ranges).2 (s.document.beginFlush ranges).1)) := by
  rcases h.live hopen with hu | hu
  · rw [(hu.fresh s hs).2] at hopened
    cases hopened
  · obtain ⟨s', hs', hstamps⟩ := hu.told
    obtain rfl : s = s' := Option.some.inj (hs.symm.trans hs')
    have hawaits := (keeps_frames ((Keeps.refl doc st).cons (Frame.apart_of_light hf doc))
      (Grows.refl e)).awaits
    have hsession := session?_onDocument_self hs fun _ => (s.document.beginFlush ranges).2
    refine versioned_of_live (.inr ⟨⟨_, hsession, ?_⟩,
      Nat.le_trans (Nat.succ_le_succ hawaits) hu.awaits⟩)
    rw [toldFor_speak, if_pos rfl, List.map_append, version_beginFlush, stamps_succ,
      List.map_singleton, stamp_didChange, version_beginFlush]
    exact congrArg (· ++ _) hstamps

theorem Versioned.turn (h : Versioned doc k c) (hk : k ≤ 1) (ht : Turn c c')
    (hg : Grows c.2 c'.2) : Versioned doc k c' := by
  cases ht.part doc with
  | apart hh hs =>
    refine h.apart hh fun hc => ?_
    obtain ⟨hopen, hrel, hst⟩ := hs hc
    exact ⟨hopen, hrel, keeps_frames hst hg⟩
  | opening hs _ hopen hf => exact h.opening hk hs hopen hf
  | @opened st e e' sent hs =>
    have hg : Grows (e.onDocument doc fun d => { d with opened := true }.resync sent) e' :=
      ⟨hg.nextRef, hg.places, hg.errands⟩
    refine h.opened.apart (hs.toldFor doc) fun hc => ?_
    exact ⟨hs.open hc, hs.sessions doc, keeps_frames (.tail doc _ _) hg⟩
  | @told st st₁ e e₁ s ranges f hs ha hsession hopened _ hopen hf =>
    have hg : Grows e e₁ := ⟨hg.nextRef, hg.places, hg.errands⟩
    have hsilent : Versioned doc k (st₁, e₁) := h.apart (hs.toldFor doc) fun hc =>
      ⟨hs.open hc, hs.sessions doc, keeps_frames (ha.keeps doc) hg⟩
    exact hsilent.tells hsession hopened hopen hf

theorem stable_versioned (doc : Nat) (hk : k ≤ 1) : Stable (Versioned doc k) where
  turn h ht hg := h.turn hk ht hg
  move {st st' e tasks} h hf := by
    refine h.apart rfl fun hc => ⟨hc, alike_refl _, hf.countP_eq _ ▸ Nat.le_refl _, ?_⟩
    exact fun f hmem _ => hf.mem_iff.mp hmem
  ends {e m o} h _ := by
    refine h.apart (by rw [settle_history]) fun hc => ?_
    rw [settle_client] at hc
    refine ⟨hc, ?_, keeps_frames (.refl doc []) (grows_settle _ _ _)⟩
    rw [SameStamp, session?, session?, settle_sessions]
    exact alike_refl _

/-! ### What is closed -/

/-- The document has been closed. -/
def Shut (doc : Nat) (e : Engine) : Prop := ∃ s, e.session? doc = some s ∧ s.document.closed = true

/-- Nothing more than that is said of the document, which was closed, or whose connection was. -/
structure Hushed (doc : Nat) (messages : List Json) (c : Config) : Prop where
  told : toldFor doc c.2.history = messages
  shut : c.2.client.closed = true ∨ Shut doc c.2

theorem Shut.alike (h : Shut doc e) (hs : SameStamp doc e e') : Shut doc e' := by
  obtain ⟨s, hsession, hclosed⟩ := h
  obtain ⟨s', hs', ha⟩ := hs.next hsession
  exact ⟨s', hs', ha.closed hclosed⟩

theorem Hushed.apart {messages : List Json} (h : Hushed doc messages c)
    (hh : toldFor doc c'.2.history = toldFor doc c.2.history)
    (hs : c'.2.client.closed = false → c.2.client.closed = false ∧ SameStamp doc c.2 c'.2) :
    Hushed doc messages c' := by
  refine ⟨hh.trans h.told, ?_⟩
  cases hc : c'.2.client.closed with
  | true => exact .inl rfl
  | false =>
    obtain ⟨hopen, hsame⟩ := hs hc
    rcases h.shut with hclosed | hshut
    · rw [hopen] at hclosed
      cases hclosed
    · exact .inr (hshut.alike hsame)

/-- A document that is not closed, on a connection that is not closed, is not hushed. -/
theorem Hushed.elim {messages : List Json} {s : Session} (h : Hushed doc messages (st, e))
    (hs : e.session? doc = some s) (hshut : s.document.closed = false)
    (hopen : e.client.closed = false) : False := by
  rcases h.shut with hclosed | ⟨s', hs', hclosed⟩
  · rw [show e.client.closed = true from hclosed] at hopen
    cases hopen
  · obtain rfl : s = s' := Option.some.inj (hs.symm.trans hs')
    rw [hshut] at hclosed
    cases hclosed

theorem Hushed.turn {messages : List Json} (h : Hushed doc messages c) (ht : Turn c c') :
    Hushed doc messages c' := by
  cases ht.part doc with
  | apart hh hs => exact h.apart hh fun hc => ⟨(hs hc).1, (hs hc).2.1⟩
  | opening hs hshut hopen => exact (h.elim hs hshut hopen).elim
  | @opened st e e' sent hs =>
    have hmarked : Hushed doc messages (.openSent doc sent :: st,
        e.onDocument doc fun d => { d with opened := true }.resync sent) := by
      refine ⟨h.told, h.shut.imp id ?_⟩
      rintro ⟨s, hsession, hclosed⟩
      exact ⟨_, session?_onDocument_self hsession _, (Document.alike_resync _ _).closed hclosed⟩
    exact hmarked.apart (hs.toldFor doc) fun hc => ⟨hs.open hc, hs.sessions doc⟩
  | @told st st₁ e e₁ s ranges f hs ha hsession _ hshut hopen =>
    have hsilent : Hushed doc messages (st₁, e₁) :=
      h.apart (hs.toldFor doc) fun hc => ⟨hs.open hc, hs.sessions doc⟩
    exact (hsilent.elim hsession hshut hopen).elim

theorem stable_hushed (doc : Nat) (messages : List Json) : Stable (Hushed doc messages) where
  turn h ht _ := h.turn ht
  move {st st' e tasks} h _ := ⟨h.told, h.shut⟩
  ends {e m o} h _ := by
    refine h.apart (by rw [settle_history]) fun hc => ?_
    rw [settle_client] at hc
    refine ⟨hc, ?_⟩
    rw [SameStamp, session?, session?, settle_sessions]
    exact alike_refl _

end Engine

end LanguageClient
