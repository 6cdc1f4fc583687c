import LanguageClient.Proofs.Client.Enduring
import LanguageClient.Proofs.Client.Turns

/-!
Closing settles every request. An answer that is settled stays as it is (`Firm`). Once the reader has
ended, or whoever closed the client has, the client is closed and every request that waits has its
outcome (`Sealed`): no request is begun any more, and those that were open have failed.

    open ──▶ closed ──▶ reader ended, or closing ended ──▶ every answer settled, for good
-/

namespace LanguageClient

/-- Outcomes that the answer to a request can have. -/
def Outcome.ofAnswer : Outcome → Bool
  | .value (.data _) | .failure (.refused ..) => true
  | o => o.unanswered

theorem Outcome.ofAnswer_of_unanswered {o : Outcome} (h : o.unanswered = true) :
    o.ofAnswer = true := by
  unfold Outcome.ofAnswer
  split
  · rfl
  · rfl
  · exact h

namespace Engine

variable {c c' : Config} {st st' : List Frame} {e e' : Engine} {id : Nat} {o : Outcome}

/-! ### What is settled stays settled -/

/-- The answer to a request that was called is settled so. -/
structure Firm (id : Nat) (o : Outcome) (c : Config) : Prop where
  known : id ≤ c.2.client.lastId
  settled : c.2.standing (.answer id) = some (some o)

theorem standing_of_answers (h : e.standing (.answer id) = some (some o))
    (ha : e'.standing (.answer id) = e.standing (.answer id) ∨
      (e.standing (.answer id) = some none ∧
        ∃ o, e'.standing (.answer id) = some (some o) ∧ o.unanswered = true)) :
    e'.standing (.answer id) = some (some o) := by
  rcases ha with heq | ⟨hopen, _⟩
  · exact heq.trans h
  · rw [h] at hopen
    cases hopen

theorem standing_settle_settled {r r' : Ref} {o' : Outcome} (h : e.standing r = some (some o)) :
    (e.settle r' o').standing r = some (some o) := by
  rcases standing_settle r' r o' e with heq | ⟨rfl, hopen, _⟩
  · exact heq.trans h
  · rw [h] at hopen
    cases hopen

theorem Firm.step (h : Firm id o c) (hs : Step c c') : Firm id o c' := by
  obtain ⟨hknown, hsettled⟩ := h
  cases hs.concerns with
  | calm hc => exact ⟨hc.lastId ▸ hknown, standing_of_answers hsettled (hc.answers id)⟩
  | @call st st' e name limit method params =>
    -- the new request has an id of its own
    have hne : Ref.answer id ≠ .answer (e.client.lastId + 1) := by
      have hle : id ≤ e.client.lastId := hknown
      simp only [ne_eq, Ref.answer.injEq]
      omega
    have hs := standing_promise (.answer (e.client.lastId + 1)) (.answer id) e
    rw [if_neg hne] at hs
    exact ⟨Nat.le_succ_of_le hknown, hs.trans hsettled⟩
  | ends | sends => exact ⟨hknown, hsettled⟩
  | @responds st e e' m hr he =>
    rcases resolve_cases he with ⟨ha, _⟩ | ⟨n, answer, o', _, _, _, _, rfl⟩
    · exact ⟨by rw [ha.client]; exact hknown, (ha.standing _).trans hsettled⟩
    · exact ⟨by rw [settle_client]; exact hknown, standing_settle_settled hsettled⟩
  | @breaks st e e' m ha =>
    have hc := calm_shutDown e'
    have hsame : e'.standing (.answer id) = some (some o) := (ha.standing _).trans hsettled
    exact ⟨by rw [hc.lastId, ha.client]; exact hknown, standing_of_answers hsame (hc.answers id)⟩

theorem enduring_firm (id : Nat) (o : Outcome) : Enduring (Firm id o) where
  step h _ hs := h.step hs
  aside h ha := ⟨ha.lastId ▸ h.known, standing_of_answers h.settled (ha.answers id)⟩
  move h _ := ⟨h.known, h.settled⟩
  ends h _ := ⟨by rw [settle_client]; exact h.known, standing_settle_settled h.settled⟩

/-! ### How answers come out -/

/-- An answer is that of a request that was called, and has come out as answers do. -/
structure Answering (c : Config) : Prop where
  known : ∀ id s, c.2.standing (.answer id) = some s → id ≤ c.2.client.lastId
  outcomes : ∀ id o, c.2.standing (.answer id) = some (some o) → o.ofAnswer = true

/-- Answers that have changed were open and have not been answered. -/
theorem Answering.answers (h : Answering (st, e)) (hl : e.client.lastId ≤ e'.client.lastId)
    (ha : ∀ id, e'.standing (.answer id) = e.standing (.answer id) ∨
      (e.standing (.answer id) = some none ∧
        ∃ o, e'.standing (.answer id) = some (some o) ∧ o.unanswered = true)) :
    Answering (st', e') where
  known id s hs := by
    refine Nat.le_trans ?_ hl
    rcases ha id with heq | ⟨hopen, _⟩
    · exact h.known id s (heq ▸ hs)
    · exact h.known id none hopen
  outcomes id o ho := by
    rcases ha id with heq | ⟨_, o', ho', hu⟩
    · exact h.outcomes id o (heq ▸ ho)
    · rw [ho'] at ho
      obtain rfl : o' = o := by simpa using ho
      exact Outcome.ofAnswer_of_unanswered hu

theorem Answering.step (h : Answering c) (hs : Step c c') : Answering c' := by
  cases hs.concerns with
  | calm hc => exact h.answers (Nat.le_of_eq hc.lastId.symm) hc.answers
  | @call st st' e name limit method params =>
    have hs (id : Nat) := standing_promise (.answer (e.client.lastId + 1)) (.answer id) e
    refine ⟨fun id s hstanding => ?_, fun id o ho => ?_⟩
    · have hstanding := (hs id).symm.trans hstanding
      change id ≤ e.client.lastId + 1
      split at hstanding
      · rename_i hid
        exact Nat.le_of_eq (Ref.answer.inj hid)
      · exact Nat.le_succ_of_le (h.known id s hstanding)
    · have ho := (hs id).symm.trans ho
      split at ho
      · cases ho
      · exact h.outcomes id o ho
  | ends | sends => exact ⟨h.known, h.outcomes⟩
  | @responds st e e' m hr he =>
    rcases resolve_cases he with ⟨ha, _⟩ | ⟨n, answer, o', _, _, _, ho', rfl⟩
    · refine h.answers (Nat.le_of_eq ?_) fun id => .inl (ha.standing _)
      rw [ha.client]
      rfl
    · have hkind : o'.ofAnswer = true := by
        rcases ho' with ⟨result, _, rfl⟩ | ⟨x, hx, rfl⟩
        · rfl
        · obtain ⟨code, text, data, rfl, _⟩ := Client.refuses_of_answerOf hx
          rfl
      refine ⟨fun id s hstanding => ?_, fun id o ho => ?_⟩
      · rw [settle_client]
        rcases standing_settle answer (.answer id) o' (e.note (.taken m)) with heq | ⟨rfl, hopen, _⟩
        · exact h.known id s (heq ▸ hstanding)
        · exact h.known id none hopen
      · rcases standing_settle answer (.answer id) o' (e.note (.taken m)) with heq | ⟨_, _, heq⟩
        · exact h.outcomes id o (heq ▸ ho)
        · rw [heq] at ho
          obtain rfl : o' = o := by simpa using ho
          exact hkind
  | @breaks st e e' m ha =>
    have hc := calm_shutDown e'
    have hsame : Answering (st, e') := by
      refine h.answers (Nat.le_of_eq ?_) fun id => .inl (ha.standing _)
      rw [ha.client]
      rfl
    exact hsame.answers (Nat.le_of_eq hc.lastId.symm) hc.answers

theorem enduring_answering : Enduring Answering where
  step h _ hs := h.step hs
  aside h ha := h.answers (Nat.le_of_eq ha.lastId.symm) ha.answers
  move h _ := ⟨h.known, h.outcomes⟩
  ends {e m o} h _ := by
    refine h.answers (Nat.le_of_eq ?_) fun id => .inl (standing_settle_of_ne (by simp) o e)
    rw [settle_client]

theorem answering_create (options : ClientOptions) (script : ServerScript) :
    Answering ([], create options script) where
  known _ _ h := by cases h
  outcomes _ _ h := by cases h

/-! ### What is discharged stays so -/

theorem Discharged.congr (h : Discharged e) (hc : e.client.closed = true → e'.client.closed = true)
    (hp : ∀ id ∈ e'.client.pending.keys, id ∈ e.client.pending.keys)
    (ho : ∀ id o, e.outcome? (.answer id) = some o → id ∈ e.client.pending.keys →
      e'.outcome? (.answer id) = some o) : Discharged e' := by
  refine ⟨hc h.closed, fun id hid => ?_⟩
  obtain ⟨o, hsettled⟩ := h.settled id (hp id hid)
  exact ⟨o, ho id o hsettled (hp id hid)⟩

/-- No request begins on a closed client. -/
theorem pending_of_closed (hs : Step c c') (h : c.2.client.closed = true) :
    ∀ id ∈ c'.2.client.pending.keys, id ∈ c.2.client.pending.keys := by
  intro id hid
  cases hs.concerns with
  | calm hc => exact hc.pending ▸ hid
  | call name limit method params hopen =>
    rw [hopen] at h
    cases h
  | @ends st e f n o =>
    change id ∈ (e.client.pending.erase n).keys at hid
    rw [Table.keys_erase] at hid
    exact List.mem_of_mem_filter hid
  | @responds st e e' m hr he =>
    rcases resolve_cases he with ⟨ha, _⟩ | ⟨_, _, o, _, _, _, _, rfl⟩
    · rw [ha.client] at hid
      exact hid
    · rw [settle_client] at hid
      exact hid
  | @breaks st e e' m ha =>
    rw [(calm_shutDown e').pending, ha.client] at hid
    exact hid
  | sends => exact hid

theorem Discharged.step (h : Discharged c.2) (hc : Correlated c) (hs : Step c c') : Discharged c'.2 := by
  refine h.congr hs.lasts.closed (pending_of_closed hs h.closed) fun id o ho hid => ?_
  have hfirm : Firm id o c := ⟨(hc.le_lastId hid).2, standing_of_outcome? ho⟩
  exact outcome?_of_standing (hfirm.step hs).settled

theorem Discharged.aside (h : Discharged e) (ha : Aside e e') : Discharged e' := by
  refine h.congr ha.lasts.closed (fun id hid => ha.pending ▸ hid) fun id o ho _ => ?_
  exact outcome?_of_standing (standing_of_answers (standing_of_outcome? ho) (ha.answers id))

theorem Discharged.settle (h : Discharged e) (m : Nat) (o : Outcome) : Discharged (e.settle (.task m) o) := by
  refine h.congr (by rw [settle_client]; exact id) (by rw [settle_client]; exact fun _ => id) ?_
  exact fun id o' ho _ => outcome?_of_standing (standing_settle_settled (standing_of_outcome? ho))

/-! ### When it is over -/

/-- The reader has ended, or whoever closed the client has. A reader that was cancelled before it began
    has read nothing and does not count; whoever cancelled it closes the client. -/
def Over (e : Engine) : Prop :=
  .readerEnded ∈ e.history ∨ .closingEnded ∈ e.history ∨
    ∃ r o, e.client.reader = some r ∧ e.outcome? r = some o ∧ o ≠ .cancelled

/-- Whoever goes on closing the client has closed it, and when it is over, it is discharged. -/
structure Sealed (c : Config) : Prop where
  closing : ∀ f ∈ frames c, f.closing = true → c.2.client.closed = true
  named : ∀ r, c.2.client.reader = some r → ∃ n, r = .task n
  discharged : Over c.2 → Discharged c.2

/-- It is over only after a step that says so. -/
theorem Jots.over {more : List Event} {s : Registry Subscriber} (h : Jots more s e e')
    (hn : ∀ r, e.client.reader = some r → ∃ n, r = .task n)
    (hm : ∀ event ∈ more, event ≠ .readerEnded ∧ event ≠ .closingEnded) (ho : Over e') : Over e := by
  unfold Over at ho ⊢
  rw [h.history, List.mem_append, List.mem_append, h.reader] at ho
  rcases ho with (hended | hmem) | (hended | hmem) | ⟨r, o, hr, ho, hne⟩
  · exact .inl hended
  · exact absurd rfl (hm _ hmem).1
  · exact .inr (.inl hended)
  · exact absurd rfl (hm _ hmem).2
  · obtain ⟨n, rfl⟩ := hn r hr
    rcases h.endless n o ho with ho | hc
    · exact .inr (.inr ⟨_, o, hr, ho, hne⟩)
    · exact absurd hc hne

theorem Event.not_ended_of_ordinary {event : Event} (h : event.ordinary = true) :
    event ≠ .readerEnded ∧ event ≠ .closingEnded := by
  constructor <;> (rintro rfl; cases h)

theorem Event.not_ended_of_reader {event : Event} (h : event.ofReader = true) :
    event ≠ .readerEnded ∧ event ≠ .closingEnded := by
  constructor <;> (rintro rfl; cases h)

/-- A reader that is to begin has not ended. -/
theorem over_of_reading (h : Over e.reading) : Over e := by
  rcases h with hended | hended | ⟨r, o, hr, ho, _⟩
  · exact .inl hended
  · exact .inr (.inl hended)
  · obtain rfl : Ref.task e.nextRef = r := Option.some.inj hr
    have hs := standing_promise (.task e.nextRef) (.task e.nextRef) e
    rw [if_pos rfl] at hs
    rw [outcome?_eq_join, show e.reading.standing (.task e.nextRef) = some none from hs] at ho
    cases ho

theorem Sealed.over_step (h : Sealed c) (hc : Correlated c) (hs : Step c c') (ho : Over c'.2) :
    Discharged c'.2 := by
  have hold (ho : Over c.2) : Discharged c'.2 := (h.discharged ho).step hc hs
  cases hs.records hc with
  | ordinary hn =>
    obtain ⟨more, hj, hm⟩ := hn
    exact hold (hj.over h.named (fun event hmem => Event.not_ended_of_ordinary (hm event hmem)) ho)
  | starts => exact hold (over_of_reading ho)
  | registers r hj => exact hold (hj.over h.named (by simp) ho)
  | @replies st e id =>
    have hj := jots_note (.handed (Message.response id .null)) e
    exact hold (hj.over h.named (by simp) ho)
  | reads hr hj =>
    exact hold (hj.over h.named (by simpa using Event.not_ended_of_reader hr) ho)
  | shuts _ _ hdischarged => exact hdischarged
  | joins _ hj =>
    rcases hj with hsettled | ⟨r, f, hr, hf⟩
    · have hclosed := h.closing .readerJoined (List.mem_append_left _ (List.mem_cons_self ..)) rfl
      exact ⟨hs.lasts.closed hclosed, hsettled⟩
    · exact hold (.inr (.inr ⟨r, _, hr, hf, by simp⟩))

theorem Sealed.step (h : Sealed c) (hc : Correlated c) (hs : Step c c') : Sealed c' where
  closing f hf hclosing := by
    rcases List.mem_append.mp hf with hf | hf
    · rcases hs.closing hf hclosing with hclosed | ⟨g, hg, hgc⟩
      · exact hclosed
      · exact hs.lasts.closed (h.closing g (List.mem_append_left _ hg) hgc)
    · obtain ⟨ops, hheld, _⟩ := (hs.grows hc.numbered).held
      rw [hheld, List.mem_append, List.mem_map] at hf
      rcases hf with hf | ⟨op, _, rfl⟩
      · exact hs.lasts.closed (h.closing f (List.mem_append_right _ hf) hclosing)
      · cases hclosing
  named r hr := by
    rcases (hs.grows hc.numbered).errands .reader with hsame | ⟨n, _, _, hn, _⟩
    · exact h.named r (hsame.symm.trans hr)
    · exact ⟨n, Option.some.inj (hr.symm.trans hn)⟩
  discharged := h.over_step hc hs

theorem Sealed.aside (h : Sealed ([], e)) (ha : Aside e e') : Sealed ([], e') where
  closing f hf hclosing := by
    obtain ⟨ops, hheld⟩ := ha.held
    change f ∈ e'.held at hf
    rw [hheld, List.mem_append, List.mem_map] at hf
    rcases hf with hf | ⟨op, _, rfl⟩
    · exact ha.lasts.closed (h.closing f hf hclosing)
    · cases hclosing
  named r hr := by
    obtain ⟨more, hj, _⟩ := ha.inward
    exact h.named r (hj.reader ▸ hr)
  discharged ho := by
    obtain ⟨more, hj, hm⟩ := ha.inward
    refine (h.discharged (hj.over h.named (fun event hmem => ?_) ho)).aside ha
    exact Event.not_ended_of_ordinary (Event.ordinary_of_inward (hm event hmem))

theorem Sealed.ends {m : Nat} (h : Sealed ([], e))
    (hr : e.client.reader = some (.task m) → o = .cancelled ∨ Discharged e) :
    Sealed ([], e.settle (.task m) o) where
  closing f hf hclosing := by
    rw [settle_client]
    refine h.closing f ?_ hclosing
    change f ∈ (e.settle (.task m) o).held at hf
    rw [held, settle_tasks] at hf
    exact hf
  named r hr := h.named r (settle_client _ _ e ▸ hr)
  discharged ho := by
    have hold (ho : Over e) : Discharged (e.settle (.task m) o) := (h.discharged ho).settle m o
    unfold Over at ho
    rw [settle_history, settle_client] at ho
    rcases ho with hended | hended | ⟨r, o', hreader, ho, hne⟩
    · exact hold (.inl hended)
    · exact hold (.inr (.inl hended))
    · rw [outcome?_eq_join] at ho
      rcases standing_settle (.task m) r o e with heq | ⟨rfl, _, heq⟩
      · exact hold (.inr (.inr ⟨r, o', hreader, by rw [outcome?_eq_join, ← heq, ho], hne⟩))
      · rw [heq] at ho
        obtain rfl : o = o' := by simpa using ho
        exact ((hr hreader).resolve_left hne).settle m o

/-- The client is closed. Since then no request has been begun, and nothing was handed over but empty
    answers to requests of the server. -/
structure Muted (before : Engine) (c : Config) : Prop where
  closed : c.2.client.closed = true
  pending : ∀ id ∈ c.2.client.pending.keys, id ∈ before.client.pending.keys
  history : ∃ since, c.2.history = before.history ++ since ∧
    ∀ m, .handed m ∈ since → ∃ id, m = Message.response id .null

/-- Nothing was handed over but empty answers. -/
def Replies (e e' : Engine) : Prop :=
  ∃ more, e'.history = e.history ++ more ∧ ∀ m, .handed m ∈ more → ∃ id, m = Message.response id .null

theorem replies_of_eq (h : e'.history = e.history) : Replies e e' :=
  ⟨[], by rw [h, List.append_nil], by simp⟩

theorem Silent.replies (h : Silent e e') : Replies e e' := by
  obtain ⟨more, hh, hm⟩ := h.history
  exact ⟨more, hh, fun _ hmem => hm _ hmem⟩

theorem Turn.replies (h : Turn c c') (hc : c.2.client.closed = true) : Replies c.2 c'.2 := by
  have hopen {p : Prop} {e : Engine} (hc : e.client.closed = true)
      (ho : e.client.closed = false) : p := by
    rw [hc] at ho
    cases ho
  cases h with
  | silent hs => exact hs.replies
  | late => exact replies_of_eq rfl
  | call _ _ ho => exact hopen hc ho
  | notify ho => exact hopen hc ho
  | handshake => exact replies_of_eq (startHandshake_same _).2.2
  | agreed _ _ ho => exact hopen hc ho
  | agreedClosed => exact ⟨_, rfl, by simp⟩
  | ready => exact replies_of_eq rfl
  | preset doc text => exact (silent_preset doc text _).replies
  | opening _ _ _ ho => exact hopen hc ho
  | @opened st e doc sent =>
    have hs : Replies e (e.noteOpened doc sent) := (silent_noteOpened doc sent e).replies
    exact hs
  | told hs _ _ _ _ _ ho => exact hopen (hs.closed hc) ho
  | closed _ _ hh hm => exact ⟨_, hh, fun _ hmem => hm _ hmem⟩

theorem Turns.replies (h : Turns c c') (hc : c.2.client.closed = true) : Replies c.2 c'.2 := by
  cases h with
  | one ht => exact ht.replies hc
  | late _ _ ht =>
    have hr := ht.replies hc
    exact hr

theorem Muted.replies {before : Engine} (h : Muted before (st, e)) (hr : Replies e e')
    (hc : e'.client.closed = true)
    (hp : ∀ id ∈ e'.client.pending.keys, id ∈ e.client.pending.keys) : Muted before (st', e') := by
  obtain ⟨since, hh, hm⟩ := h.history
  obtain ⟨more, hh', hm'⟩ := hr
  refine ⟨hc, fun id hid => h.pending id (hp id hid), since ++ more, ?_, ?_⟩
  · rw [hh', ← List.append_assoc]
    exact congrArg (· ++ more) hh
  · intro m hmem
    exact (List.mem_append.mp hmem).elim (hm m) (hm' m)

end Engine

end LanguageClient
