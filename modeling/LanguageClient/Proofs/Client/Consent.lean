import LanguageClient.Proofs.Client.Turns

/-!
The server says once what it can do. A client shakes hands at most once, and whoever shakes hands takes
one answer; so what the client holds of the server's capabilities is all that has ever been agreed on.

    begin handshake ──▶ handshakeAnswered ──agreed──▶ handshakeAnnounced
      at most one, or one note that it is over
-/

namespace LanguageClient

/-- Frames of those who will hear what the server can do. -/
def Frame.agrees : Frame → Bool
  | .begin .handshake | .handshakeAnswered => true
  | _ => false

/-- Has the server said what it can do? -/
def Event.agrees : Event → Bool
  | .agreed _ => true
  | _ => false

theorem Frame.weighty_of_agrees {f : Frame} (h : f.agrees = true) : f.weighty = true := by
  cases f with
  | «begin» op => rfl
  | handshakeAnswered => rfl
  | _ => cases h

theorem Frame.agrees_of_light {f : Frame} (h : f.weighty = false) : f.agrees = false := by
  cases hf : f.agrees with
  | false => rfl
  | true => rw [weighty_of_agrees hf] at h; exact h

theorem Frame.agrees_of_late {f : Frame} (h : f.late = true) : f.agrees = false := by
  cases f with
  | «begin» op => cases h
  | handshakeAnswered => cases h
  | _ => rfl

theorem Frame.agrees_begin (op : Operation) : (Frame.begin op).agrees = op.shakes := by
  cases op <;> rfl

theorem Event.Tacit.agrees {event : Event} (h : event.Tacit) : event.agrees = false := by
  cases event with
  | agreed capabilities => exact h.elim
  | _ => rfl

theorem countP_agrees_of_tacit {more : List Event} (h : ∀ event ∈ more, event.Tacit) :
    more.countP Event.agrees = 0 :=
  List.countP_eq_zero.mpr fun event hmem => by simp [(h event hmem).agrees]

theorem Adds.agrees {st st' : List Frame} (ha : Adds st st') :
    st'.countP Frame.agrees ≤ st.countP Frame.agrees :=
  ha.countP fun _ => Frame.weighty_of_agrees

theorem countP_agrees_tail (f : Frame) (st : List Frame) :
    st.countP Frame.agrees ≤ (f :: st).countP Frame.agrees :=
  Adds.agrees (.tail f st)

theorem countP_agrees_cons {f : Frame} {st : List Frame} {k : Nat} (hf : f.agrees = false)
    (h : st.countP Frame.agrees ≤ k) : (f :: st).countP Frame.agrees ≤ k := by
  rwa [List.countP_cons_of_neg (by simp [hf])]

namespace Engine

variable {c c' : Config} {st st' : List Frame} {e e' : Engine}

/-- Of those who will hear what the server can do, and of those who have heard it, there is one for each
    handshake at most. What the client holds has been said. -/
structure Consents (c : Config) : Prop where
  once : (frames c).countP Frame.agrees + c.2.history.countP Event.agrees ≤ c.2.handshakes
  capabilities : c.2.client.capabilities = .null ∨ .agreed c.2.client.capabilities ∈ c.2.history

/-- No one else will hear what the server can do, unless a handshake is begun. -/
theorem Consents.grows (h : Consents (st, e)) (hg : Grows e e')
    (hst : st'.countP Frame.agrees + e'.history.countP Event.agrees
      ≤ st.countP Frame.agrees + e.history.countP Event.agrees)
    (hc : e'.client.capabilities = .null ∨ .agreed e'.client.capabilities ∈ e'.history) :
    Consents (st', e') := by
  obtain ⟨ops, hheld, _, hcount⟩ := hg.held
  have hops : (ops.map Frame.begin).countP Frame.agrees = ops.countP Operation.shakes := by
    rw [List.countP_map]
    exact congrArg (List.countP · ops) (funext Frame.agrees_begin)
  have honce : st.countP Frame.agrees + e.held.countP Frame.agrees
      + e.history.countP Event.agrees ≤ e.handshakes := List.countP_append ▸ h.once
  refine ⟨?_, hc⟩
  change (st' ++ e'.held).countP Frame.agrees + e'.history.countP Event.agrees ≤ e'.handshakes
  rw [List.countP_append, hheld, List.countP_append, hops]
  omega

/-- The capabilities are left alone, and nothing is agreed on. -/
theorem Consents.keeps (more : List Event) (h : Consents (st, e)) (hg : Grows e e')
    (hst : st'.countP Frame.agrees ≤ st.countP Frame.agrees)
    (hh : e'.history = e.history ++ more) (hm : more.countP Event.agrees = 0)
    (hc : e'.client.capabilities = e.client.capabilities) : Consents (st', e') := by
  refine h.grows hg ?_ ?_
  · rw [hh, List.countP_append, hm]
    omega
  · rw [hc, hh]
    exact h.capabilities.imp id (List.mem_append_left _)

theorem Consents.silent (h : Consents (st, e)) (hs : Silent e e')
    (hst : st'.countP Frame.agrees ≤ st.countP Frame.agrees) (hg : Grows e e') :
    Consents (st', e') := by
  obtain ⟨more, hh, hm⟩ := hs.history
  exact h.keeps more hg hst hh (countP_agrees_of_tacit hm) hs.capabilities

theorem countP_agrees_asks {name : String} (h : Asks e name st st') :
    st'.countP Frame.agrees ≤ st.countP Frame.agrees := by
  cases h with
  | ready => exact Nat.le_refl _
  | late _ hf' =>
    exact countP_agrees_cons (Frame.agrees_of_light (Frame.weighty_of_answers hf'))
      (countP_agrees_tail _ _)
  | resolving completion => exact countP_agrees_cons rfl (countP_agrees_tail _ _)
  | told method params limit => exact countP_agrees_tail _ _
  | handshake => exact Nat.le_refl _

/-- The answer of the handshake is taken. -/
theorem Consents.agreed (more : List Event) (h : Consents (.handshakeAnswered :: st, e))
    (hg : Grows e e') (hst : st'.countP Frame.agrees ≤ st.countP Frame.agrees)
    (hh : e'.history = e.history ++ .agreed e'.client.capabilities :: more)
    (hm : more.countP Event.agrees = 0) : Consents (st', e') := by
  have hone : (Event.agreed e'.client.capabilities :: more).countP Event.agrees = 1 := by
    rw [List.countP_cons_of_pos rfl, hm]
  refine h.grows hg ?_ (.inr (by simp [hh]))
  rw [hh, List.countP_append, hone, List.countP_cons_of_pos rfl]
  omega

theorem Consents.handshake (h : Consents (st, e)) (hg : Grows e e.startHandshake.2) :
    Consents (st, e.startHandshake.2) := by
  rcases startHandshake_cases e with ⟨_, heq⟩ | ⟨_, ha⟩
  · rw [heq]
    exact h
  · have hh : e.startHandshake.2.history = e.history ++ [] := ha.history.trans (List.append_nil _).symm
    refine h.keeps [] hg (Nat.le_refl _) hh rfl ?_
    rw [ha.client]
    rfl

theorem Consents.turn (h : Consents c) (ht : Turn c c') (hg : Grows c.2 c'.2) :
    c'.2.client.closed = true ∨ Consents c' := by
  cases ht with
  | silent hs ha => exact .inr (h.silent hs ha.agrees hg)
  | late hf =>
    exact .inr <| h.keeps [] hg (countP_agrees_cons (Frame.agrees_of_late hf) (Nat.le_refl _))
      (List.append_nil _).symm rfl rfl
  | call ha _ _ hlight =>
    exact .inr <| h.keeps [.called _ _, .handed _] hg
      (countP_agrees_cons (Frame.agrees_of_light hlight) (countP_agrees_asks ha))
      (List.append_assoc _ _ _) rfl rfl
  | notify _ hlight =>
    exact .inr <| h.keeps [.handed _] hg
      (countP_agrees_cons (Frame.agrees_of_light hlight) (countP_agrees_tail _ _)) rfl rfl rfl
  | handshake => exact .inr (h.handshake hg)
  | agreed capabilities result _ hlight =>
    exact .inr <| h.agreed [.handed initialized] hg
      (countP_agrees_cons (Frame.agrees_of_light hlight) (countP_agrees_cons rfl (Nat.le_refl _)))
      (List.append_assoc _ _ _) rfl
  | agreedClosed _ _ hclosed => exact .inl hclosed
  | ready result =>
    exact .inr <| h.keeps [] hg (countP_agrees_tail _ _) (List.append_nil _).symm rfl rfl
  | preset doc text =>
    exact .inr <| h.silent (silent_preset doc text _)
      (countP_agrees_cons rfl (countP_agrees_tail _ _)) hg
  | opening _ _ _ _ hlight =>
    exact .inr <| h.keeps [.told _ _, .handed _] hg (countP_agrees_cons (Frame.agrees_of_light hlight)
      (countP_agrees_cons rfl (countP_agrees_tail _ _))) (List.append_assoc _ _ _) rfl rfl
  | @opened st e doc sent =>
    have hs := silent_noteOpened doc sent e
    obtain ⟨more, hh, hm⟩ := hs.history
    exact .inr <| h.keeps more hg (countP_agrees_tail _ _) hh (countP_agrees_of_tacit hm)
      hs.capabilities
  | @told st st₁ e e₁ doc s ranges f hs ha _ _ _ _ _ hlight =>
    have hg₁ : Grows e e₁ := ⟨hg.nextRef, hg.places, hg.errands⟩
    have h₁ : Consents (st₁, e₁) := h.silent hs ha.agrees hg₁
    exact .inr <| h₁.keeps [.told _ _, .handed _] (.of_tasks rfl (Nat.le_refl _) rfl)
      (countP_agrees_cons (Frame.agrees_of_light hlight) (Nat.le_refl _)) (List.append_assoc _ _ _)
      rfl rfl
  | closed hclosed hclient => exact .inl (hclient ▸ hclosed)

/-- A closed connection stays closed. -/
theorem Turn.closes (ht : Turn c c') (hc : c.2.client.closed = true) :
    c'.2.client.closed = true := by
  cases ht with
  | silent hs => exact hs.closed hc
  | handshake => exact (sameFlags_startHandshake _).2.trans hc
  | preset doc text => exact (silent_preset doc text _).closed hc
  | opened doc sent => exact (silent_noteOpened doc sent _).closed hc
  | told hs => exact hs.closed hc
  | closed hclosed hclient => exact hclient ▸ hclosed
  | _ => exact hc

/-- Either the connection is closed, or the server has said at most once what it can do. -/
def Consented (c : Config) : Prop := c.2.client.closed = true ∨ Consents c

theorem stable_consented : Stable Consented where
  turn h ht hg := h.elim (fun hc => .inl (ht.closes hc)) fun h => h.turn ht hg
  move {st st' e tasks} h hf := by
    refine h.imp id fun hc => ⟨?_, hc.capabilities⟩
    rw [hf.countP_eq]
    exact hc.once
  ends {e m o} h _ := by
    refine h.imp (fun hc => ?_) fun hc => ?_
    · change (e.settle (.task m) o).client.closed = true
      rw [settle_client]
      exact hc
    · refine hc.keeps [] (grows_settle _ _ _) (Nat.le_refl _) ?_ rfl ?_
      · rw [settle_history, List.append_nil]
      · rw [settle_client]

/-- All that was ever agreed on is what the client holds, if it holds anything. -/
theorem Consents.agreed_eq {capabilities : Json} (h : Consents c)
    (hmem : .agreed capabilities ∈ c.2.history) (hc : c.2.client.capabilities ≠ .null) :
    capabilities = c.2.client.capabilities := by
  have hheld := h.capabilities.resolve_left hc
  have hle : c.2.history.countP Event.agrees ≤ 1 := by
    have honce := h.once
    have hone : c.2.handshakes ≤ 1 := by
      rw [handshakes]
      cases c.2.client.handshake <;> simp
    omega
  by_contra hne
  have hsub : [Event.agreed capabilities, .agreed c.2.client.capabilities].Subperm c.2.history := by
    refine List.subperm_of_subset ?_ ?_
    · simpa using hne
    · simp [hmem, hheld]
  have hcount := hsub.countP_le Event.agrees
  have htwo : [Event.agreed capabilities, .agreed c.2.client.capabilities].countP Event.agrees = 2 :=
    rfl
  omega

/-! ### Every action -/

/-- Does the action shake hands, which is the client's own business? -/
def Action.shakes : Action → Bool
  | .begin op => op.shakes
  | _ => false

theorem Consents.spawn {op : Operation} (h : Consents ([], e)) (hn : Numbered e)
    (hs : op.shakes = false) : Consents ([], (e.spawn op).2) := by
  refine ⟨?_, h.capabilities⟩
  change (e.spawn op).2.held.countP Frame.agrees + _ ≤ _
  rw [hn.held_spawn op, List.countP_append, List.countP_singleton, Frame.agrees_begin, hs]
  exact h.once

theorem Consented.act {a : Action} (h : Consented ([], e)) (hc : Correlated ([], e))
    (hs : Shaken none e) (ha : a.shakes = false) : Consented ([], e.act a) := by
  cases hb : a.brings with
  | false => exact stable_consented.act h hc hs hb
  | true =>
    cases a with
    | «begin» op => exact h.imp id fun h => h.spawn hc.numbered ha
    | addSession s =>
      let e₁ : Engine := { e with sessions := e.sessions ++ [s] }
      have hcalm : Calm e e₁ := calm_of_eq rfl rfl rfl rfl rfl rfl fun _ => rfl
      have hadded : Consented ([], e₁) := h.imp id fun h => ⟨h.once, h.capabilities⟩
      exact stable_consented.path hadded (hc.calm hcalm (.of_tasks rfl (Nat.le_refl _) rfl) rfl)
        (.single (.register (.attach (.document e.sessions.length))))
    | _ => cases hb

end Engine

end LanguageClient
