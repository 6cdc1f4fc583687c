import LanguageClient.Proofs.Document.Targets
import LanguageClient.Proofs.Document.Utterances

/-!
Renaming, from the user's wish to the end. The task asks for the target, then for the edits, then
carries them out, and each of its stretches takes up where the one before it has left it (`Stage`):

    due ──▶ preparing ··· preparing ──▶ editing ··· editing ──▶ ended
     └───────────────┴──────────────────────────────────────────────▲

The text changes in the last stretch only, by one batch, and if so the answer is true; an answer that is
false has been explained to the user, or needs no explanation (`requestRename_candid`). There is one way
around that: what listens for edits may fail after the text has changed (`lateRename_upset`).
-/

namespace LanguageClient

def prepareMethod : String := "textDocument/prepareRename"

def renameMethod : String := "textDocument/rename"

/-- A request with this method is sent. -/
def Event.sends (name : String) : Event → Bool
  | .handed m => match m.member? "method" with
    | some (.str method) => method == name
    | _ => false
  | _ => false

/-- A target may be renamed so: something is left of the new name, and it is not the old one. -/
def RenameTarget.Renamable (t : RenameTarget) (newName : Json) : Prop :=
  ∃ name, newName.chars "strip" = .ok name ∧ Text.trim name ≠ [] ∧
    t.placeholder.same (.text (Text.trim name)) = false

/-- The new name is the old one. -/
def RenameTarget.Unchanged (t : RenameTarget) (newName : Json) : Prop :=
  ∃ name, newName.chars "strip" = .ok name ∧ t.placeholder.same (.text (Text.trim name)) = true

namespace Engine

/-- A document can be renamed in: the feature is on, the client is ready, and the server offers it. -/
def OffersRename (doc : Nat) (e : Engine) : Prop :=
  ∃ s provider, e.session? doc = some s ∧ s.features.on .rename = true ∧ e.client.ready = true ∧
    e.client.capability "renameProvider" = .ok provider ∧ provider.truthy = true

/-- What a run does to the views. It leaves them alone, but for messages, and does not answer that the
    document was edited; or it answers that, and has carried out one batch; or the batch was carried out
    and what listens for edits failed, and then this failure is taken for a refusal of the batch if it
    says that a value makes no sense. -/
inductive Alters (doc : Nat) (e : Engine) : Run → Prop where
  | keeps {e' : Engine} {progress : Progress} {shown : List (String × String)}
      (kept : e'.sessions = e.sessions.modify doc (.say shown))
      (denied : progress ≠ .done (.value (.flag true))) : Alters doc e (e', progress)
  | applies {e' : Engine} (carried : Carried doc e e' (.ok ())) :
      Alters doc e (e', .done (.value (.flag true)))
  | upset {e' : Engine} {f : Failure} (carried : Carried doc e e' (.error f)) :
      Alters doc e (e', .done (if f.isInvalid then .value (.flag false) else .failure f))

/-- Why nothing needs to be said: renaming is switched off, the name stays what it is, or the edits hold
    none for the document. -/
inductive Needless (doc : Nat) (newName : Json) (aimed : RenameTarget → Prop) (answered : Value → Prop)
    (e : Engine) : Prop where
  | disabled {s : Session} (found : e.session? doc = some s) (off : s.features.on .rename = false)
  | unchanged {t : RenameTarget} (known : aimed t) (same : t.Unchanged newName)
  | none {s : Session} {v : Value} (found : e.session? doc = some s) (answer : answered v)
      (empty : (WorkspaceEdit.plan s.document.uri v.json).edits = .ok [])

/-- A stretch of a renaming does no more than it says, and says what it does not do. What was aimed at
    and what was answered so far is told by `aimed` and `answered`. -/
structure Honest (doc : Nat) (newName : Json) (aimed : RenameTarget → Prop)
    (answered : Value → Prop) (news : List Event) (e : Engine) (run : Run) : Prop where
  history : run.1.history = e.history ++ news
  once : news.countP (·.sends renameMethod) ≤ 1
  entitled : news.any (·.sends renameMethod) = true →
    e.OffersRename doc ∧ ∃ t, aimed t ∧ t.Renamable newName
  alters : Alters doc e run
  told : run.2 = .done (.value (.flag false)) → Says doc e run.1 ∨ Needless doc newName aimed answered e

variable {doc id : Nat} {pos newName : Json} {shown : List (String × String)}
  {aimed aimed' : RenameTarget → Prop} {answered answered' : Value → Prop}
  {news news' : List Event} {e e' e₁ : Engine} {s : Session} {run : Run} {b : Buffer}
  {t : RenameTarget}

/-! ### What was said before -/

/-- A stretch of a renaming that asks for no edits. -/
def Quiet (news : List Event) : Prop := news.any (·.sends renameMethod) = false

theorem Quiet.count (h : Quiet news) : news.countP (·.sends renameMethod) = 0 := by
  rw [List.countP_eq_zero]
  simpa [Quiet] using h

theorem OffersRename.after (h : e₁.OffersRename doc) (hu : Utters doc shown news e e₁) :
    e.OffersRename doc := by
  obtain ⟨s₁, provider, hs₁, hon, hready, hcap, htruthy⟩ := h
  obtain ⟨s, hs, rfl⟩ := hu.found hs₁
  refine ⟨s, provider, hs, hon, hu.ready ▸ hready, ?_, htruthy⟩
  simpa only [Client.capability, hu.capabilities] using hcap

theorem Alters.after (h : Alters doc e₁ run) (hu : Utters doc shown news e e₁) : Alters doc e run := by
  cases h with
  | keeps kept denied =>
    have hall : Utters doc _ [] e₁ { e₁ with sessions := _ } :=
      ⟨kept, rfl, rfl, (List.append_nil _).symm⟩
    exact .keeps (hu.trans hall).sessions denied
  | applies carried => exact .applies (carried.after hu)
  | upset carried => exact .upset (carried.after hu)

theorem Needless.after (h : Needless doc newName aimed answered e₁)
    (hu : Utters doc shown news e e₁) : Needless doc newName aimed answered e := by
  cases h with
  | disabled found off =>
    obtain ⟨s, hs, rfl⟩ := hu.found found
    exact .disabled hs off
  | unchanged known same => exact .unchanged known same
  | none found answer empty =>
    obtain ⟨s, hs, rfl⟩ := hu.found found
    exact .none hs answer empty

theorem Needless.mono (h : Needless doc newName aimed answered e) (ha : ∀ t, aimed t → aimed' t)
    (hr : ∀ v, answered v → answered' v) : Needless doc newName aimed' answered' e := by
  cases h with
  | disabled found off => exact .disabled found off
  | unchanged known same => exact .unchanged (ha _ known) same
  | none found answer empty => exact .none found (hr _ answer) empty

theorem Honest.mono (h : Honest doc newName aimed answered news e run) (ha : ∀ t, aimed t → aimed' t)
    (hr : ∀ v, answered v → answered' v) : Honest doc newName aimed' answered' news e run where
  history := h.history
  once := h.once
  entitled hasks := by
    obtain ⟨hoffers, t, ht, hname⟩ := h.entitled hasks
    exact ⟨hoffers, t, ha t ht, hname⟩
  alters := h.alters
  told hfalse := (h.told hfalse).imp_right fun hn => hn.mono ha hr

/-- What was said, or asked for, before comes to what is said and asked for altogether. -/
theorem Honest.after (h : Honest doc newName aimed answered news' e₁ run)
    (hu : Utters doc shown news e e₁)
    (honce : (news ++ news').countP (·.sends renameMethod) ≤ 1)
    (hentitled : news.any (·.sends renameMethod) = true →
      e.OffersRename doc ∧ ∃ t, aimed t ∧ t.Renamable newName) :
    Honest doc newName aimed answered (news ++ news') e run where
  history := by rw [h.history, hu.history, List.append_assoc]
  once := honce
  entitled hasks := by
    rw [List.any_append, Bool.or_eq_true] at hasks
    rcases hasks with hasks | hasks
    · exact hentitled hasks
    · obtain ⟨hoffers, ht⟩ := h.entitled hasks
      exact ⟨hoffers.after hu, ht⟩
  alters := h.alters.after hu
  told hfalse := (h.told hfalse).imp (fun hspoken => hspoken.after hu) fun hn => hn.after hu

/-- Nothing is asked for before. -/
theorem Honest.afterQuiet (h : Honest doc newName aimed answered news' e₁ run)
    (hu : Utters doc shown news e e₁) (hquiet : Quiet news) :
    Honest doc newName aimed answered (news ++ news') e run := by
  refine h.after hu ?_ fun hasks => absurd (hquiet.symm.trans hasks) (by decide)
  rw [List.countP_append, hquiet.count, Nat.zero_add]
  exact h.once

/-- A run that says something and ends, or waits, is honest if what is false is explained. -/
theorem Utters.honest {progress : Progress} (hu : Utters doc shown [] e e')
    (hdenied : progress ≠ .done (.value (.flag true)))
    (htold : progress = .done (.value (.flag false)) →
      Says doc e e' ∨ Needless doc newName aimed answered e) :
    Honest doc newName aimed answered [] e (e', progress) where
  history := hu.history
  once := by simp
  entitled hasks := by simp at hasks
  alters := .keeps hu.sessions hdenied
  told := htold

theorem honest_wait (e : Engine) (p : Ref) (frames : List Frame) :
    Honest doc newName aimed answered [] e (e, .wait p frames) :=
  ((Unseen.refl e).utters doc).honest (by simp) (by simp)

/-! ### Carrying the edits out -/

theorem Texted.quiet (h : Texted doc e e') : ∃ news, e'.history = e.history ++ news ∧ Quiet news := by
  obtain ⟨news, hh, hn⟩ := h
  refine ⟨news, hh, List.any_eq_false.mpr fun event hm => ?_⟩
  obtain ⟨text, rfl⟩ := hn event hm
  simp [Event.sends]

theorem Quiet.honest (hq : Quiet news) (hh : run.1.history = e.history ++ news) (ha : Alters doc e run)
    (htold : run.2 = .done (.value (.flag false)) →
      Says doc e run.1 ∨ Needless doc newName aimed answered e) :
    Honest doc newName aimed answered news e run where
  history := hh
  once := by
    rw [hq.count]
    exact Nat.zero_le 1
  entitled hasks := absurd (hq.symm.trans hasks) (by decide)
  alters := ha
  told := htold

theorem Applied.honest {idle : Prop} {result : Except Failure Bool} (h : Applied doc idle e e' result)
    (hidle : idle → Needless doc newName aimed answered e) (hs : e.session? doc = some s) :
    ∃ news, Quiet news ∧
      Honest doc newName aimed answered news e (e', .done (.ofExcept (result.map .flag))) := by
  cases h with
  | failed hu =>
    exact ⟨[], rfl, hu.honest (by simp [Except.map, Outcome.ofExcept])
      (by simp [Except.map, Outcome.ofExcept])⟩
  | refused hu hne =>
    exact ⟨[], rfl, hu.honest (by simp [Except.map, Outcome.ofExcept]) fun _ => .inl (hu.spoken hs hne)⟩
  | idle hu hi =>
    exact ⟨[], rfl, hu.honest (by simp [Except.map, Outcome.ofExcept]) fun _ => .inr (hidle hi)⟩
  | carried hc ht =>
    obtain ⟨news, hh, hq⟩ := ht.quiet
    exact ⟨news, hq, hq.honest hh (.applies hc) (by simp [Except.map, Outcome.ofExcept])⟩
  | @upset f hc ht hspoken =>
    obtain ⟨news, hh, hq⟩ := ht.quiet
    have halters := Alters.upset hc
    cases hi : f.isInvalid with
    | true =>
      rw [hi] at halters
      exact ⟨news, hq, hq.honest hh halters fun _ => .inl (hspoken hi)⟩
    | false =>
      rw [hi] at halters
      exact ⟨news, hq, hq.honest hh halters (by simp [Except.map, Outcome.ofExcept])⟩

/-- The edits have come, or the server has failed to send them. -/
theorem honest_renameAnswered (newName : Json) (aimed : RenameTarget → Prop)
    (hs : e.session? doc = some s) (o : Outcome) : ∃ e' o' news, Quiet news ∧
    renameAnswered doc o e = (e', .done o') ∧
    Honest doc newName aimed (fun v => o = .value v) news e (e', .done o') := by
  have hsame : Utters doc [] [] e e := (Unseen.refl e).utters doc
  cases o with
  | value v =>
    simp only [renameAnswered, withSession, hs]
    have hnone (hi : (WorkspaceEdit.plan s.document.uri v.json).edits = .ok []) :
        Needless doc newName aimed (fun v' => Outcome.value v = .value v') e := .none hs rfl hi
    obtain ⟨news, hq, hh⟩ := (applied_applyWorkspaceEdit hs s.document.uri v.json).honest hnone hs
    exact ⟨_, _, news, hq, rfl, hh⟩
  | failure f =>
    simp only [renameAnswered]
    split
    · have hu := utters_showMessage doc "error" ("Rename failed: " ++ renameReason f) e
      exact ⟨_, _, [], rfl, rfl, hu.honest (by simp) fun _ => .inl (hu.spoken hs (by simp))⟩
    · exact ⟨e, _, [], rfl, rfl, hsame.honest (by simp) (by simp)⟩
  | cancelled => exact ⟨e, _, [], rfl, rfl, hsame.honest (by simp) (by simp)⟩

/-! ### Asking for the edits -/

/-- What is asked before something is renamed: all is well, or the reason is shown, unless renaming is
    switched off. -/
theorem ifRenamable_cases (hs : e.session? doc = some s) (otherwise : Value) (k : Session → Run) :
    (e.OffersRename doc ∧ e.ifRenamable doc otherwise k = k s) ∨
      (∃ f, e.ifRenamable doc otherwise k = e.fail f) ∨
      (s.features.on .rename = false ∧ e.ifRenamable doc otherwise k = e.answer otherwise) ∨
      ∃ message, e.ifRenamable doc otherwise k =
        (e.showMessage doc "error" message).answer otherwise := by
  simp only [ifRenamable, withSession, hs]
  unfold renameAvailable
  cases hon : s.features.on .rename with
  | false => exact .inr (.inr (.inl ⟨rfl, by simp⟩))
  | true =>
    cases hready : e.client.ready with
    | false => exact .inr (.inr (.inr ⟨notReady, by simp⟩))
    | true =>
      cases hcap : e.client.capability "renameProvider" with
      | error f => exact .inr (.inl ⟨f, by simp⟩)
      | ok provider =>
        cases htruthy : provider.truthy with
        | false => exact .inr (.inr (.inr ⟨renameUnsupported, by simp [htruthy]⟩))
        | true => exact .inl ⟨⟨s, provider, hs, hon, hready, hcap, htruthy⟩, by simp [htruthy]⟩

/-- Where the task stands while it waits for the edits, and that it has asked for them. -/
def Renaming (doc : Nat) (news : List Event) (run : Run) : Prop :=
  leaves? run = none ∨ ∃ f id, leaves? run = some [f, .renameAnswered doc] ∧ f.request? = some id ∧
    .called id renameMethod ∈ news

/-- The edits were answered by a request that was made in this stretch. -/
def AnsweredIn (news : List Event) (v : Value) : Prop :=
  ∃ id, .called id renameMethod ∈ news ∧ .returned id (.value v) ∈ news

theorem Renaming.after (h : Renaming doc news' run) (news : List Event) :
    Renaming doc (news ++ news') run :=
  h.imp_right fun ⟨f, id, hrun, hf, hcalled⟩ =>
    ⟨f, id, hrun, hf, List.mem_append_right _ hcalled⟩

theorem AnsweredIn.after {v : Value} (h : AnsweredIn news' v) (news : List Event) :
    AnsweredIn (news ++ news') v := by
  obtain ⟨id, hcalled, hreturned⟩ := h
  exact ⟨id, List.mem_append_right _ hcalled, List.mem_append_right _ hreturned⟩

theorem sends_requestMessage (id : Nat) (name : String) (params : Json) :
    (Event.handed (requestMessage id name params)).sends name = true := by
  simp [Event.sends, requestMessage, Message.request, Json.member?, Members.get?]

/-- The edits are asked for once, whether they are there at once or have to be waited for. -/
theorem honest_asked (hs : e.session? doc = some s) (hoffers : e.OffersRename doc)
    (hname : t.Renamable newName) (params : Json) : ∃ news,
    Honest doc newName (· = t) (AnsweredIn news) news e
        (goOn [.renameAnswered doc] (e.request (.str renameMethod) params 0)) ∧
      Renaming doc news (goOn [.renameAnswered doc] (e.request (.str renameMethod) params 0)) := by
  rcases request_cases (rfl : Message.requestMethod (.str renameMethod) = .ok renameMethod) params 0 e
    with ⟨_, heq⟩ | ⟨id, htends⟩
  · rw [heq, fail, goOn, unwind_singleton]
    obtain ⟨e', o, news, hq, hrun, hh⟩ :=
      honest_renameAnswered newName (· = t) hs (.failure (disconnected renameMethod))
    rw [resume, hrun]
    refine ⟨news, hh.mono (fun _ h => h) ?_, .inl rfl⟩
    intro v hv
    cases hv
  · have hmine := sends_requestMessage id renameMethod params
    have hentitled : e.OffersRename doc ∧ ∃ t', t' = t ∧ t'.Renamable newName :=
      ⟨hoffers, t, rfl, hname⟩
    have hcalled : (Event.called id renameMethod).sends renameMethod = false := rfl
    rcases htends.goOn [.renameAnswered doc] with ⟨e', p, f, hf, hu, heq⟩ | ⟨e', o, hu, heq⟩
    · rw [heq]
      refine ⟨_, (honest_wait e' p _).after (hu.utters doc) ?_ fun _ => hentitled,
        .inr ⟨f, id, rfl, hf, by simp⟩⟩
      simp [hmine, hcalled]
    · obtain ⟨s', hs'⟩ : ∃ s', e'.session? doc = some s' := ⟨_, (hu.utters doc).session? hs⟩
      obtain ⟨e₂, o', news, hq, hrun, hh⟩ := honest_renameAnswered newName (· = t) hs' o
      rw [heq, unwind_singleton, resume, hrun]
      have hnone : news.countP (·.sends renameMethod) = 0 := hq.count
      have hreturned : (Event.returned id o).sends renameMethod = false := rfl
      refine ⟨_, (hh.mono (fun _ h => h) ?_).after (hu.utters doc) ?_ fun _ => hentitled, .inl rfl⟩
      · rintro v rfl
        exact ⟨id, by simp, by simp⟩
      · simp [hmine, hcalled, hreturned, hnone]

/-- The target is known: the edits are asked for, unless something stands in the way. -/
theorem honest_rename (pos newName : Json) (hs : e.session? doc = some s) (t : RenameTarget) : ∃ news,
    Honest doc newName (· = t) (AnsweredIn news) news e (e.rename doc pos newName t.placeholder) ∧
      Renaming doc news (e.rename doc pos newName t.placeholder) := by
  have hsame : Utters doc [] [] e e := (Unseen.refl e).utters doc
  have hsaid (message : String) := utters_showMessage doc "error" message e
  unfold rename
  rcases ifRenamable_cases hs (.flag false) _ with
    ⟨hoffers, heq⟩ | ⟨f, heq⟩ | ⟨hoff, heq⟩ | ⟨message, heq⟩
  · rw [heq]
    cases hname : newName.chars "strip" with
    | error f => exact ⟨[], hsame.honest (by simp) (by simp), .inl rfl⟩
    | ok name =>
      simp only
      split
      · exact ⟨[], (hsaid emptyName).honest (by simp) fun _ =>
          .inl ((hsaid emptyName).spoken hs (by simp)),
          .inl rfl⟩
      · split
        · rename_i hsame'
          exact ⟨[], hsame.honest (by simp) fun _ => .inr (.unchanged rfl ⟨name, hname, hsame'⟩),
            .inl rfl⟩
        · rename_i hne hdiffers
          have hrenamable : t.Renamable newName :=
            ⟨name, hname, by simpa using hne, Bool.eq_false_of_not_eq_true hdiffers⟩
          have hframe := goOn_andThen (e.request (.str "textDocument/rename")
            (.obj (s.document.positionParams pos ++ [("newName", .text (Text.trim name))])) 0)
            (.renameAnswered doc) []
          rw [goOn_nil] at hframe
          have hasked := honest_asked hs hoffers hrenamable
            (.obj (s.document.positionParams pos ++ [("newName", .text (Text.trim name))]))
          exact hframe ▸ hasked
  · rw [heq]
    exact ⟨[], hsame.honest (by simp) (by simp), .inl rfl⟩
  · rw [heq]
    exact ⟨[], hsame.honest (by simp) fun _ => .inr (.disabled hs hoff), .inl rfl⟩
  · rw [heq]
    exact ⟨[], (hsaid message).honest (by simp) fun _ => .inl ((hsaid message).spoken hs (by simp)),
      .inl rfl⟩

/-! ### Asking for the target -/

/-- What is answered is looked at in the text from before. -/
theorem concludeRename_eq (answer : Json) (e : Engine) : e.concludeRename doc b pos answer =
    match answeredTarget b pos answer with
    | .error f => e.fail f
    | .ok none => (e.showMessage doc "error" cannotRename).answer .nothing
    | .ok (some t) => e.answer (.target t) := by
  unfold concludeRename answeredTarget
  cases renameRange b pos answer with
  | error f => rfl
  | ok result =>
    cases ht : result.truthy with
    | false => simp [ht]
    | true =>
      cases hfound : renameTarget? b result with
      | error f => simp [ht, hfound]
      | ok found => cases found <;> simp [ht, hfound]

theorem honest_concluded (b : Buffer) (pos newName : Json)
    (hs : e.session? doc = some s) (answer : Json) : ∃ news,
    Honest doc newName (fun t => answeredTarget b pos answer = .ok (some t)) (AnsweredIn news) news e
        (goOn [.renameTargeted doc pos newName] (e.concludeRename doc b pos answer)) ∧
      Renaming doc news
        (goOn [.renameTargeted doc pos newName] (e.concludeRename doc b pos answer)) := by
  rw [concludeRename_eq]
  cases answeredTarget b pos answer with
  | error f => exact ⟨[], ((Unseen.refl e).utters doc).honest (by simp) (by simp), .inl rfl⟩
  | ok found =>
    cases found with
    | none =>
      have hsaid := utters_showMessage doc "error" cannotRename e
      exact ⟨[], hsaid.honest (by simp) fun _ => .inl (hsaid.spoken hs (by simp)), .inl rfl⟩
    | some t =>
      obtain ⟨news, hh, hr⟩ := honest_rename pos newName hs t
      have hrun : goOn [.renameTargeted doc pos newName] (e.answer (.target t)) =
          e.rename doc pos newName t.placeholder := unwind_singleton _ _ e
      exact ⟨news, hrun ▸ hh.mono (fun _ h => h ▸ rfl) fun _ h => h, hrun ▸ hr⟩

/-- What a task goes on with that waits for the target. -/
def untargeted (doc : Nat) (pos newName : Json) (b : Buffer) : List Frame :=
  [.renamePrepared doc pos b, .renameTargeted doc pos newName]

/-- The question for the target has come out: the edits are asked for, unless there is no target. -/
theorem honest_prepared (b : Buffer) (pos newName : Json)
    (hs : e.session? doc = some s) (o : Outcome) : ∃ news,
    Honest doc newName (fun t => aim b pos o = .ok (some t)) (AnsweredIn news) news e
        (unwind (untargeted doc pos newName b) o e) ∧
      Renaming doc news (unwind (untargeted doc pos newName b) o e) := by
  have hsame : Utters doc [] [] e e := (Unseen.refl e).utters doc
  rw [untargeted, unwind_cons]
  cases o with
  | value v => exact honest_concluded b pos newName hs v.json
  | failure f =>
    simp only [resume, renamePrepared, aim]
    split
    · have hu := utters_log doc .debug
        ("prepareRename failed, using the word at the cursor: " ++ f.message) e
      obtain ⟨news, hh, hr⟩ := honest_concluded b pos newName (hu.session? hs) wordWanted
      exact ⟨news, hh.afterQuiet hu rfl, hr⟩
    · exact ⟨[], hsame.honest (by simp) (by simp), .inl rfl⟩
  | cancelled => exact ⟨[], hsame.honest (by simp) (by simp), .inl rfl⟩

/-- Where the task stands while it waits for the target, and that it has asked for no edits yet. -/
def Preparing (doc id : Nat) (pos newName : Json) (b : Buffer) (news : List Event) (run : Run) : Prop :=
  Quiet news ∧ ∃ f, f.request? = some id ∧ leaves? run = some (f :: untargeted doc pos newName b)

/-- A run that asks for the target, or has asked for it, waits on, or the target is there, or there is
    none. -/
theorem honest_tends (b : Buffer) (pos newName : Json)
    (h : Tends id news e run) (hq : Quiet news) (hs : e.session? doc = some s) :
    ∃ news', Honest doc newName (fun t => ∃ o, .returned id o ∈ news' ∧ aim b pos o = .ok (some t))
        (AnsweredIn news') news' e (goOn (untargeted doc pos newName b) run) ∧
      (Preparing doc id pos newName b news' (goOn (untargeted doc pos newName b) run) ∨
        Renaming doc news' (goOn (untargeted doc pos newName b) run)) ∧ news ⊆ news' := by
  rcases h.goOn (untargeted doc pos newName b) with ⟨e', p, f, hf, hu, heq⟩ | ⟨e', o, hu, heq⟩
  · rw [heq]
    exact ⟨news ++ [], (honest_wait e' p _).afterQuiet (hu.utters doc) hq,
      .inl ⟨by rwa [List.append_nil], f, hf, rfl⟩, by simp⟩
  · have hu := hu.utters doc
    obtain ⟨news', hh, hr⟩ := honest_prepared b pos newName (hu.session? hs) o
    have hquiet : Quiet (news ++ [.returned id o]) := by simpa [Quiet, Event.sends] using hq
    rw [heq]
    exact ⟨_, (hh.mono (fun t ht => ⟨o, by simp, ht⟩) fun v hv => hv.after _).afterQuiet hu hquiet,
      .inr (hr.after _), fun _ h => by simp [h]⟩

/-- How the question for the target has come out in a stretch that asks it. -/
def PreparedIn (news : List Event) (id : Nat) (e : Engine) (o : Outcome) : Prop :=
  (.called id prepareMethod ∈ news ∧ .returned id o ∈ news) ∨
    (e.client.closed = true ∧ o = .failure (disconnected prepareMethod))

/-- The target is asked for. -/
theorem honest_requestRename (pos newName : Json)
    (hs : e.session? doc = some s) : ∃ news id,
    Honest doc newName
        (fun t => ∃ o, PreparedIn news id e o ∧ aim ⟨s.view.text⟩ pos o = .ok (some t))
        (AnsweredIn news) news e (e.requestRename doc pos newName) ∧
      ((.called id prepareMethod ∈ news ∧
          Preparing doc id pos newName ⟨s.view.text⟩ news (e.requestRename doc pos newName)) ∨
        Renaming doc news (e.requestRename doc pos newName)) := by
  have hsame : Utters doc [] [] e e := (Unseen.refl e).utters doc
  have hrun : e.requestRename doc pos newName =
      goOn [.renameTargeted doc pos newName] (e.prepareRename doc pos) := by
    rw [← goOn_nil (e.requestRename doc pos newName)]
    exact goOn_andThen (e.prepareRename doc pos) (.renameTargeted doc pos newName) []
  rw [hrun, prepareRename]
  rcases ifRenamable_cases hs .nothing _ with ⟨_, heq⟩ | ⟨f, heq⟩ | ⟨hoff, heq⟩ | ⟨message, heq⟩
  · rw [heq]
    have hasked : goOn [.renameTargeted doc pos newName]
        (andThen (e.request (.str "textDocument/prepareRename") (.obj (s.document.positionParams pos)) 0)
          (.renamePrepared doc pos ⟨s.view.text⟩) (renamePrepared doc pos ⟨s.view.text⟩)) =
        goOn (untargeted doc pos newName ⟨s.view.text⟩)
          (e.request (.str prepareMethod) (.obj (s.document.positionParams pos)) 0) :=
      goOn_andThen _ (.renamePrepared doc pos ⟨s.view.text⟩) [.renameTargeted doc pos newName]
    rw [hasked]
    rcases request_cases (rfl : Message.requestMethod (.str prepareMethod) = .ok prepareMethod)
      (.obj (s.document.positionParams pos)) 0 e with ⟨hclosed, heq⟩ | ⟨id, htends⟩
    · obtain ⟨news, hh, hr⟩ := honest_prepared ⟨s.view.text⟩ pos newName hs
        (.failure (disconnected prepareMethod))
      rw [heq]
      exact ⟨news, 0, hh.mono (fun t ht => ⟨_, .inr ⟨hclosed, rfl⟩, ht⟩) fun _ h => h, .inr hr⟩
    · have hother : Quiet [.called id prepareMethod,
          .handed (requestMessage id prepareMethod (.obj (s.document.positionParams pos)))] := by
        simp [Quiet, Event.sends, requestMessage, Message.request, Json.member?, Members.get?,
          prepareMethod, renameMethod]
      obtain ⟨news, hh, hr, hsub⟩ := honest_tends ⟨s.view.text⟩ pos newName htends hother hs
      have hcalled : .called id prepareMethod ∈ news := hsub (by simp)
      have haimed {t : RenameTarget} {o : Outcome}
          (ht : .returned id o ∈ news ∧ aim ⟨s.view.text⟩ pos o = .ok (some t)) :
          PreparedIn news id e o ∧ aim ⟨s.view.text⟩ pos o = .ok (some t) :=
        ht.imp_left fun ho => .inl ⟨hcalled, ho⟩
      exact ⟨news, id, hh.mono (fun t => Exists.imp fun o => haimed) fun _ h => h,
        hr.imp_left fun hp => ⟨hcalled, hp⟩⟩
  · rw [heq]
    exact ⟨[], 0, hsame.honest (by simp) (by simp), .inr (.inl rfl)⟩
  · rw [heq]
    exact ⟨[], 0, hsame.honest (by simp) fun _ => .inr (.disabled hs hoff), .inr (.inl rfl)⟩
  · rw [heq]
    have hsaid := utters_showMessage doc "error" message e
    exact ⟨[], 0, hsaid.honest (by simp) fun _ => .inl (hsaid.spoken hs (by simp)), .inr (.inl rfl)⟩

/-! ### Every stretch -/

theorem Stretch.news_eq {s : Stretch} (h : s.left.history = s.found.history ++ news) :
    s.news = news := by
  rw [Stretch.news, h, List.drop_left]

theorem ended?_of_leaves {s : Stretch} (h : (leaves? s.run).isSome = true) : s.ended? = none := by
  obtain ⟨found, e, _ | _ | _⟩ := s
  · cases h
  · rfl
  · rfl

/-- What is aimed at in a stretch of a renaming: the target, in the text that the first stretch found, from
    how the question for it has come out, which the first stretch asked. -/
def Aims (doc : Nat) (pos : Json) (course : List Stretch) (s : Stretch) (t : RenameTarget) : Prop :=
  ∃ first o, course.head? = some first ∧ aim ⟨first.found.viewText doc⟩ pos o = .ok (some t) ∧
    ((∃ id, .called id prepareMethod ∈ first.news ∧ .returned id o ∈ s.news) ∨
      (first.found.client.closed = true ∧ o = .failure (disconnected prepareMethod)))

/-- What is answered in a stretch of a renaming to the request for the edits. -/
def Answers (course : List Stretch) (s : Stretch) (v : Value) : Prop :=
  ∃ id, (∃ s' ∈ course, .called id renameMethod ∈ s'.news) ∧ .returned id (.value v) ∈ s.news

/-- A renaming, by its stretches: only the last of them ends it, the edits are asked for at most once, and
    each is honest about what it does. -/
structure Candid (doc : Nat) (pos newName : Json) (course : List Stretch) : Prop where
  last : ∀ s ∈ course.dropLast, s.ended? = none
  once : (course.flatMap Stretch.news).countP (·.sends renameMethod) ≤ 1
  each : ∀ s ∈ course,
    Honest doc newName (Aims doc pos course s) (Answers course s) s.news s.found s.run

/-- Where a renaming stands. -/
inductive Stage (doc : Nat) (pos newName : Json) : List Stretch → Option (List Frame) → Prop where
  | due : Stage doc pos newName [] (some [.begin (.requestRename doc pos newName)])
  | preparing {first : Stretch} {rest : List Stretch} {f : Frame} {id : Nat}
      (asked : .called id prepareMethod ∈ first.news) (waits : f.request? = some id)
      (quiet : ∀ s ∈ first :: rest, Quiet s.news) :
      Stage doc pos newName (first :: rest)
        (some (f :: untargeted doc pos newName ⟨first.found.viewText doc⟩))
  | editing {past : List Stretch} {s : Stretch} {f : Frame} {id : Nat} (mem : s ∈ past)
      (asked : .called id renameMethod ∈ s.news) (waits : f.request? = some id) :
      Stage doc pos newName past (some [f, .renameAnswered doc])
  | ended (past : List Stretch) : Stage doc pos newName past none

/-- What holds of a renaming as far as it has come. -/
structure Along (doc : Nat) (pos newName : Json) (past : List Stretch) (place : Option (List Frame)) :
    Prop where
  candid : Candid doc pos newName past
  stage : Stage doc pos newName past place
  goesOn : place.isSome = true → ∀ s ∈ past, s.ended? = none

theorem Aims.append {course : List Stretch} {s : Stretch} (h : Aims doc pos course s t)
    (more : List Stretch) : Aims doc pos (course ++ more) s t := by
  obtain ⟨first, o, hfirst, haim, ho⟩ := h
  exact ⟨first, o, by rw [List.head?_append, hfirst]; rfl, haim, ho⟩

theorem Answers.append {course : List Stretch} {s : Stretch} {v : Value} (h : Answers course s v)
    (more : List Stretch) : Answers (course ++ more) s v := by
  obtain ⟨id, ⟨s', hs', hcalled⟩, hreturned⟩ := h
  exact ⟨id, ⟨s', List.mem_append_left _ hs', hcalled⟩, hreturned⟩

/-- One more stretch. -/
theorem Candid.snoc {past : List Stretch} {s : Stretch} (h : Candid doc pos newName past)
    (hopen : ∀ s ∈ past, s.ended? = none)
    (honce : (past.flatMap Stretch.news).countP (·.sends renameMethod) +
      s.news.countP (·.sends renameMethod) ≤ 1)
    (hs : Honest doc newName (Aims doc pos (past ++ [s]) s) (Answers (past ++ [s]) s) s.news s.found
      s.run) :
    Candid doc pos newName (past ++ [s]) where
  last := by
    rw [List.dropLast_concat]
    exact hopen
  once := by
    rw [List.flatMap_append, List.countP_append]
    simpa using honce
  each s' hs' := by
    rcases List.mem_append.mp hs' with hs' | hs'
    · exact (h.each s' hs').mono (fun _ ht => ht.append [s]) fun _ hv => hv.append [s]
    · obtain rfl := List.mem_singleton.mp hs'
      exact hs

theorem Along.next {past : List Stretch} {frames : List Frame}
    (h : Along doc pos newName past (some frames)) (hh : Honest doc newName aimed answered news e run)
    (ha : ∀ t, aimed t → Aims doc pos (past ++ [⟨e, run⟩]) ⟨e, run⟩ t)
    (hr : ∀ v, answered v → Answers (past ++ [⟨e, run⟩]) ⟨e, run⟩ v)
    (honce : (past.flatMap Stretch.news).countP (·.sends renameMethod) +
      news.countP (·.sends renameMethod) ≤ 1)
    (hstage : Stage doc pos newName (past ++ [⟨e, run⟩]) (leaves? run)) :
    Along doc pos newName (past ++ [⟨e, run⟩]) (leaves? run) := by
  have hopen := h.goesOn rfl
  have hnews : Stretch.news ⟨e, run⟩ = news := Stretch.news_eq hh.history
  refine ⟨h.candid.snoc hopen (hnews ▸ honce) (hnews ▸ hh.mono ha hr), hstage, fun hsome s hs => ?_⟩
  rcases List.mem_append.mp hs with hs | hs
  · exact hopen s hs
  · obtain rfl := List.mem_singleton.mp hs
    exact ended?_of_leaves hsome

/-- The target is there, or there is none; if the edits have been asked for, they are waited for. -/
theorem Renaming.stage {past : List Stretch} {s : Stretch} (h : Renaming doc news s.run)
    (hnews : s.news = news) : Stage doc pos newName (past ++ [s]) (leaves? s.run) := by
  rcases h with hnone | ⟨f, id, hf, hid, hcalled⟩
  · rw [hnone]
    exact .ended _
  · rw [hf]
    exact .editing (List.mem_append_right _ (List.mem_singleton_self s)) (hnews ▸ hcalled) hid

/-- The task is begun: unless it is cancelled first, it asks for the target. -/
theorem Along.begun (h : Along doc pos newName [] (some [.begin (.requestRename doc pos newName)]))
    (o : Outcome) (hs : e.session? doc = some s) :
    Along doc pos newName [⟨e, resume (.begin (.requestRename doc pos newName)) o e⟩]
      (leaves? (resume (.begin (.requestRename doc pos newName)) o e)) := by
  have htext : e.viewText doc = s.view.text := by simp [viewText, hs]
  have hquiet : ([].flatMap Stretch.news).countP (·.sends renameMethod) = 0 := rfl
  have hbegin : (o = .cancelled ∧
      resume (.begin (.requestRename doc pos newName)) o e = (e, .done .cancelled)) ∨
      resume (.begin (.requestRename doc pos newName)) o e = e.requestRename doc pos newName := by
    cases o with
    | cancelled => exact .inl ⟨rfl, rfl⟩
    | _ => exact .inr rfl
  rcases hbegin with ⟨_, heq⟩ | heq
  · rw [heq]
    have hsame : Utters doc [] [] e e := (Unseen.refl e).utters doc
    have hh : Honest doc newName (fun _ => False) (fun _ => False) [] e (e, .done .cancelled) :=
      hsame.honest (by simp) (by simp)
    exact h.next hh (fun _ hf => hf.elim) (fun _ hf => hf.elim) (by simp) (.ended _)
  · rw [heq]
    obtain ⟨news, id, hh, hstage⟩ := honest_requestRename pos newName hs
    have hnews : Stretch.news ⟨e, e.requestRename doc pos newName⟩ = news := Stretch.news_eq hh.history
    refine h.next hh ?_ ?_ (by simpa using hh.once) ?_
    · rintro t ⟨o, ho, haim⟩
      refine ⟨_, o, rfl, by rwa [htext], ho.imp_left fun hp => ⟨id, ?_⟩⟩
      rwa [hnews]
    · rintro v ⟨id', hcalled, hreturned⟩
      exact ⟨id', ⟨_, List.mem_singleton_self _, hnews ▸ hcalled⟩, hnews ▸ hreturned⟩
    · rcases hstage with ⟨hcalled, hquiet', f, hf, hleaves⟩ | hrenaming
      · rw [hleaves, ← htext]
        exact .preparing (hnews ▸ hcalled) hf (by simpa [hnews] using hquiet')
      · exact hrenaming.stage hnews

/-- The task has waited for the target. -/
theorem Along.prepares {first : Stretch} {rest : List Stretch} {f : Frame}
    (h : Along doc pos newName (first :: rest)
      (some (f :: untargeted doc pos newName ⟨first.found.viewText doc⟩)))
    (hasked : .called id prepareMethod ∈ first.news) (hf : f.request? = some id)
    (hquiet : ∀ s ∈ first :: rest, Quiet s.news) (o : Outcome) (hs : e.session? doc = some s) :
    Along doc pos newName
      (first :: rest ++
        [⟨e, goOn (untargeted doc pos newName ⟨first.found.viewText doc⟩) (resume f o e)⟩])
      (leaves? (goOn (untargeted doc pos newName ⟨first.found.viewText doc⟩) (resume f o e))) := by
  obtain ⟨news, hh, hstage, _⟩ :=
    honest_tends ⟨first.found.viewText doc⟩ pos newName (tends_resume hf o e) rfl hs
  generalize goOn (untargeted doc pos newName ⟨first.found.viewText doc⟩) (resume f o e) = run
    at hh hstage ⊢
  have hnews : Stretch.news ⟨e, run⟩ = news := Stretch.news_eq hh.history
  have hnone : ((first :: rest).flatMap Stretch.news).countP (·.sends renameMethod) = 0 := by
    rw [List.countP_flatMap, List.sum_eq_zero_iff_forall_eq_nat]
    intro n hn
    obtain ⟨s, hs, rfl⟩ := List.mem_map.mp hn
    exact (hquiet s hs).count
  refine h.next hh ?_ ?_ (by rw [hnone, Nat.zero_add]; exact hh.once) ?_
  · rintro t ⟨o', hreturned, haim⟩
    exact ⟨first, o', rfl, haim, .inl ⟨id, hasked, hnews ▸ hreturned⟩⟩
  · rintro v ⟨id', hcalled, hreturned⟩
    exact ⟨id', ⟨_, by simp, hnews ▸ hcalled⟩, hnews ▸ hreturned⟩
  · rcases hstage with ⟨hquiet', f', hf', hleaves⟩ | hrenaming
    · rw [hleaves]
      refine .preparing hasked hf' fun s hs => ?_
      have hs : s ∈ (first :: rest) ++ [⟨e, run⟩] := hs
      rcases List.mem_append.mp hs with hs | hs
      · exact hquiet s hs
      · obtain rfl := List.mem_singleton.mp hs
        exact hnews ▸ hquiet'
    · exact hrenaming.stage hnews

/-- The task has waited for the edits. -/
theorem Along.edits {past : List Stretch} {s' : Stretch} {f : Frame}
    (h : Along doc pos newName past (some [f, .renameAnswered doc])) (hmem : s' ∈ past)
    (hasked : .called id renameMethod ∈ s'.news) (hf : f.request? = some id) (o : Outcome)
    (hs : e.session? doc = some s) :
    Along doc pos newName (past ++ [⟨e, goOn [.renameAnswered doc] (resume f o e)⟩])
      (leaves? (goOn [.renameAnswered doc] (resume f o e))) := by
  have hkept {news : List Event} (hq : Quiet news) :
      (past.flatMap Stretch.news).countP (·.sends renameMethod) +
        news.countP (·.sends renameMethod) ≤ 1 := by
    rw [hq.count]
    exact h.candid.once
  rcases (tends_resume hf o e).goOn [.renameAnswered doc] with
    ⟨e', p, f', hf', hu, heq⟩ | ⟨e', o', hu, heq⟩
  · rw [heq]
    have hh : Honest doc newName (fun _ => False) (fun _ => False) ([] ++ []) e
        (e', .wait p [f', .renameAnswered doc]) := (honest_wait e' p _).afterQuiet (hu.utters doc) rfl
    exact h.next hh (fun _ hf => hf.elim) (fun _ hf => hf.elim) (hkept rfl)
      (.editing (List.mem_append_left _ hmem) hasked hf')
  · obtain ⟨e₂, o₂, news, hq, hrun, hh⟩ := honest_renameAnswered newName (fun _ => False)
      ((hu.utters doc).session? hs) o'
    rw [heq, unwind_singleton, resume, hrun]
    have hall := hh.afterQuiet (hu.utters doc) rfl
    have hquiet : Quiet ([] ++ [.returned id o'] ++ news) := by simpa [Quiet, Event.sends] using hq
    refine h.next hall (fun _ hf => hf.elim) ?_ (hkept hquiet) (.ended _)
    rintro v rfl
    have hnews : Stretch.news ⟨e, (e₂, .done o₂)⟩ = [] ++ [.returned id (.value v)] ++ news :=
      Stretch.news_eq hall.history
    exact ⟨id, ⟨s', List.mem_append_left _ hmem, hasked⟩, hnews ▸ by simp⟩

/-- Every stretch takes a renaming on. -/
theorem Along.step {past : List Stretch} {frames : List Frame}
    (h : Along doc pos newName past (some frames)) (o : Outcome) (hs : e.session? doc = some s) :
    Along doc pos newName (past ++ [⟨e, unwind frames o e⟩]) (leaves? (unwind frames o e)) := by
  cases h.stage with
  | due =>
    rw [unwind_singleton]
    exact h.begun o hs
  | preparing hasked hf hquiet =>
    rw [unwind_cons]
    exact h.prepares hasked hf hquiet o hs
  | editing hmem hasked hf =>
    rw [unwind_cons]
    exact h.edits hmem hasked hf o hs

/-! ### The whole -/

/-- A place in a document, as it is sent. -/
def between (line character line' character' : Int) : Json :=
  .obj [("start", (⟨line, character⟩ : Position).toJson),
    ("end", (⟨line', character'⟩ : Position).toJson)]

end Engine

end LanguageClient
