import Mathlib.Data.List.Infix
import LanguageClient.Engine.Sync
import LanguageClient.Proofs.Buffer.Position
import LanguageClient.Proofs.Edit.Resolution
import LanguageClient.Proofs.Edit.Shift
import LanguageClient.Proofs.Engine.Lasting
import LanguageClient.Proofs.Engine.Run
import LanguageClient.Signature

/-!
What was typed, and where it stands now. Signature help is asked for just behind an inserted text
with a trigger character. The code looks through a batch from the lowest offset up and adds up by how
much the changes that it passes lengthen the text; the text itself is made from the highest offset
down. The two agree, as every change that is passed ends before the one that is found.

    text      a b c d e      changes  [4,5) ↦ g,   3 ↦ f(   [0,1) ↦ nothing
    new text  b c f ( d g ,  passed   [0,1) ↦ nothing
                    ▲        found    3 ↦ f(   at 3 + (0 - 1) + 2

`triggerFrom_eq` follows the sum, `signatureTrigger?_at` sets it against the text.
-/

namespace LanguageClient

/-! ### The triggers -/

/-- The texts that open signature help, as a server lists them; without a list, the usual ones. -/
def listedTriggers? : Json → Option (List String)
  | .null | .arr [] => some ["(", ","]
  | .arr items => items.mapM Json.str?
  | _ => none

/-- The first of the triggers that stands in what a change inserts. -/
def Change.opener? (triggers : List String) (c : Change) : Option String :=
  if c.insert = [] then none else triggers.find? fun t => t.toList <:+: c.insert

theorem eq_map_of_mapM_str? : ∀ {items : List Json} {texts : List String},
    items.mapM Json.str? = some texts → items = texts.map Json.str
  | [], texts, h => by
      obtain rfl : [] = texts := by simpa using h
      rfl
  | item :: rest, texts, h => by
      simp only [List.mapM_cons, Option.pure_def, Option.bind_eq_bind, Option.bind_eq_some_iff,
        Option.some.injEq] at h
      obtain ⟨text, htext, more, hmore, rfl⟩ := h
      rw [List.map_cons, Json.eq_str_of_str? htext, eq_map_of_mapM_str? hmore]

/-- The triggers that the code goes through are the ones that are listed. -/
theorem items_of_listedTriggers? {sent : Json} {triggers : List String}
    (h : listedTriggers? sent = some triggers) :
    (sent.orElse defaultSignatureTriggers).items = .ok (triggers.map Json.str) := by
  unfold listedTriggers? at h
  split at h
  · obtain rfl := Option.some.inj h
    rfl
  · obtain rfl := Option.some.inj h
    rfl
  · rename_i items hne
    have hfull : items.isEmpty = false := by
      cases items with
      | nil => exact absurd rfl hne
      | cons => rfl
    rw [Json.orElse, Json.truthy, hfull, Bool.not_false, if_pos rfl, Json.items,
      ← eq_map_of_mapM_str? h]
  · cases h

theorem Text.contains_iff {word : List Char} : ∀ {s : List Char},
    Text.contains word s = true ↔ word <:+: s
  | [] => by
      rw [Text.contains, Text.find?, List.infix_nil]
      split <;> simp [*]
  | c :: rest => by
      have ih : Text.contains word rest = true ↔ word <:+: rest := Text.contains_iff
      rw [Text.contains] at ih ⊢
      rw [Text.find?, List.infix_cons_iff]
      split
      · rename_i h
        simp [List.isPrefixOf_iff_prefix.mp h]
      · rename_i h
        rw [List.isPrefixOf_iff_prefix] at h
        rw [Option.isSome_map, ih]
        simp [h]

theorem firstTrigger?_map_str (insert : List Char) : ∀ triggers : List String,
    firstTrigger? insert (triggers.map Json.str) =
      .ok ((triggers.find? fun t => t.toList <:+: insert).map Json.str)
  | [] => rfl
  | t :: ts => by
      have ih := firstTrigger?_map_str insert ts
      simp only [List.map_cons, firstTrigger?, triggersIn, bind, Except.bind, pure, Except.pure]
      by_cases h : t.toList <:+: insert
      · rw [if_pos (Text.contains_iff.mpr h), List.find?_cons_of_pos (by simpa using h)]
        rfl
      · rw [if_neg (mt Text.contains_iff.mp h), List.find?_cons_of_neg (by simpa using h), ih]

/-! ### From the lowest offset up -/

namespace Change

theorem notAfter_earlier_iff {a b : Change} :
    NotAfter earlier a b ↔ a.start < b.start ∨ (a.start = b.start ∧ a.stop ≤ b.stop) :=
  pairBefore_eq_false_iff

end Change

theorem ascending_sorted (changes : List Change) :
    (ascending changes).Pairwise (NotAfter Change.earlier) := by
  refine sortStable_pairwise Change.earlier changes ?_ ?_ <;>
    simp only [Change.notAfter_earlier_iff] <;> omega

/-- From the lowest offset up, each of the changes that are apart ends before the next one
    starts. -/
theorem ascending_before {length : Nat} {changes : List Change}
    (hb : ∀ c ∈ changes, c.inBounds length) (ha : changes.Pairwise Change.Apart) :
    (ascending changes).Pairwise Change.Before := by
  have hperm := sortStable_perm Change.earlier changes
  have hapart := (hperm.pairwise_iff Change.Apart.symm).mpr ha
  refine ((ascending_sorted changes).and hapart).imp_of_mem ?_
  rintro a b hmem hmem' ⟨hle, hap⟩
  have hbound := Change.inBounds_iff.mp (hb a (hperm.mem_iff.mp hmem))
  have hbound' := Change.inBounds_iff.mp (hb b (hperm.mem_iff.mp hmem'))
  rw [Change.notAfter_earlier_iff] at hle
  simp only [Change.Apart] at hap
  simp only [Change.Before]
  omega

/-- What the code finds: nothing if no change opens the help, else the first change that does, its
    offset moved by all that the changes before it lengthen the text. -/
theorem triggerFrom_eq {sent : Json} {triggers : List String}
    (h : sent.items = .ok (triggers.map Json.str)) : ∀ (cs : List Change) (delta : Int),
    ((∀ c ∈ cs, c.opener? triggers = none) ∧ triggerFrom sent delta cs = .ok none) ∨
      ∃ front main back t, cs = front ++ main :: back ∧
        (∀ c ∈ front, c.opener? triggers = none) ∧ main.opener? triggers = some t ∧
        triggerFrom sent delta cs =
          .ok (some (main.start + (delta + totalGrowth front) + main.insert.length, .str t))
  | [], _ => .inl ⟨by simp, rfl⟩
  | c :: cs, delta => by
      have hrest := triggerFrom_eq h cs (delta + c.growth)
      cases hopener : c.opener? triggers with
      | some t =>
        obtain ⟨hne, hfind⟩ : c.insert ≠ [] ∧
            triggers.find? (fun t => t.toList <:+: c.insert) = some t := by
          unfold Change.opener? at hopener
          split at hopener
          · cases hopener
          · exact ⟨‹_›, hopener⟩
        refine .inr ⟨[], c, cs, t, rfl, by simp, hopener, ?_⟩
        simp [triggerFrom, hne, h, firstTrigger?_map_str, hfind, totalGrowth, bind, Except.bind,
          pure, Except.pure]
      | none =>
        have hpass : triggerFrom sent delta (c :: cs) = triggerFrom sent (delta + c.growth) cs := by
          rw [triggerFrom]
          split
          · rfl
          · rename_i hne
            rw [Change.opener?, if_neg (by simpa using hne)] at hopener
            simp [h, firstTrigger?_map_str, hopener, bind, Except.bind]
        rw [hpass]
        rcases hrest with ⟨hnone, hrest⟩ | ⟨front, main, back, t, rfl, hfront, hmain, hrest⟩
        · exact .inl ⟨List.forall_mem_cons.mpr ⟨hopener, hnone⟩, hrest⟩
        · refine .inr ⟨c :: front, main, back, t, rfl,
            List.forall_mem_cons.mpr ⟨hopener, hfront⟩, hmain, ?_⟩
          rw [hrest, totalGrowth, Int.add_assoc delta]

/-! ### The place in the new text -/

/-- A batch of changes that are apart does the same in any order, unless two insert at one
    offset. -/
theorem applyChanges_perm {text : List Char} {one other : List Change}
    (hb : ∀ c ∈ one, c.inBounds text.length) (ha : one.Pairwise Change.Apart)
    (hc : one.Pairwise fun a b => ¬ Change.Collide a b) (h : one.Perm other) :
    applyChanges text one = applyChanges text other := by
  obtain ⟨hperm, hbefore⟩ := exists_before hb ha
  rw [applyChanges_eq_woven hb ha hc hperm hbefore]
  refine (applyChanges_eq_woven (fun c hmem => hb c (h.mem_iff.mpr hmem)) ?_ ?_
    (hperm.trans h) hbefore).symm
  · exact (h.pairwise_iff Change.Apart.symm).mp ha
  · exact (h.pairwise_iff fun hn hx => hn hx.symm).mp hc

/-- A change of a batch opens signature help at an offset of the new text. -/
structure Change.OpensAt (text : List Char) (changes : List Change) (triggers : List String)
    (new : List Char) (main : Change) (offset : Int) (trigger : String) : Prop where
  mem : main ∈ changes
  opener : main.opener? triggers = some trigger
  /-- Of the changes with a trigger it is the one with the smallest start, and then stop. -/
  least : ∀ c ∈ changes, (c.opener? triggers).isSome →
    main.start < c.start ∨ main.start = c.start ∧ main.stop ≤ c.stop
  inside : 0 ≤ offset ∧ offset ≤ new.length
  cut : Text.slice new (offset - main.insert.length) offset = main.insert
  /-- In front of what is inserted stands the text before the change, with the changes that end up
      to it; behind it the text after it, with the others. -/
  placed : ∃ before after,
    applyChanges (text.take main.start.toNat)
      ((changes.erase main).filter (·.stop ≤ main.start)) = .ok before ∧
    applyChanges (text.drop main.stop.toNat)
      (((changes.erase main).filter (main.start < ·.stop)).map (·.back main.stop.toNat)) =
        .ok after ∧
    new = before ++ main.insert ++ after ∧ offset = before.length + main.insert.length

/-- What stands between two other parts of a text is cut out of it by its offsets. -/
theorem slice_append_append (before middle after : List Char) :
    Text.slice (before ++ middle ++ after)
      ((before.length + middle.length : Int) - middle.length) (before.length + middle.length) =
        middle := by
  have hstart : Text.clampIndex (before ++ middle ++ after).length
      ((before.length + middle.length : Int) - middle.length) = before.length := by
    simp only [Text.clampIndex, List.length_append]
    split <;> omega
  have hstop : Text.clampIndex (before ++ middle ++ after).length
      (before.length + middle.length) = before.length + middle.length := by
    simp only [Text.clampIndex, List.length_append]
    split <;> omega
  rw [Text.slice, hstart, hstop, List.append_assoc, List.drop_left, Nat.add_sub_cancel_left,
    List.take_left]

/-- In the order of the offsets, the changes in front of one are those of the others that end up to
    its start. -/
theorem filter_stop_le {length : Nat} {front back : List Change} {main : Change}
    (hb : ∀ c ∈ front ++ main :: back, c.inBounds length)
    (hc : (front ++ main :: back).Pairwise fun a b => ¬ Change.Collide a b)
    (h : (front ++ main :: back).Pairwise Change.Before) :
    (front ++ back).filter (·.stop ≤ main.start) = front := by
  obtain ⟨-, hrest, hacross⟩ := List.pairwise_append.mp h
  have hfront : front.filter (·.stop ≤ main.start) = front :=
    List.filter_eq_self.mpr fun c hmem => decide_eq_true (hacross c hmem main List.mem_cons_self)
  have hback : back.filter (·.stop ≤ main.start) = [] := by
    refine List.filter_eq_nil_iff.mpr fun c hmem => ?_
    have hbefore := (List.pairwise_cons.mp hrest).1 c hmem
    have hnot := (List.pairwise_cons.mp (List.pairwise_append.mp hc).2.1).1 c hmem
    have hmain := Change.inBounds_iff.mp (hb main (by simp))
    have hother := Change.inBounds_iff.mp (hb c (by simp [hmem]))
    simp only [Change.Before, Change.Collide] at hbefore hnot
    simp only [decide_eq_true_eq]
    omega
  rw [List.filter_append, hfront, hback, List.append_nil]

/-- Triggers are looked for in a batch that can be carried out: none is found exactly when no change
    inserts one, else the first change with one opens the help where its text ends now. -/
theorem signatureTrigger?_cases {text : List Char} {changes : List Change} {sent : Json}
    {triggers : List String} (hsent : listedTriggers? sent = some triggers)
    (hb : ∀ c ∈ changes, c.inBounds text.length) (ha : changes.Pairwise Change.Apart)
    (hc : changes.Pairwise fun a b => ¬ Change.Collide a b) :
    ((∀ c ∈ changes, c.opener? triggers = none) ∧ signatureTrigger? changes sent = .ok none) ∨
      ∃ (main : Change) (offset : Int) (t : String),
        signatureTrigger? changes sent = .ok (some (offset, .str t)) ∧
        main.OpensAt text changes triggers ((descending changes).foldl splice text) offset t := by
  have hperm : (ascending changes).Perm changes := sortStable_perm Change.earlier changes
  rcases triggerFrom_eq (items_of_listedTriggers? hsent) (ascending changes) 0 with
    ⟨hnone, hfound⟩ | ⟨front, main, back, t, hsplit, hfront, hmain, hfound⟩
  · exact .inl ⟨fun c hmem => hnone c (hperm.mem_iff.mpr hmem), hfound⟩
  · rw [Int.zero_add] at hfound
    have hbefore := ascending_before hb ha
    have hsorted := ascending_sorted changes
    rw [hsplit] at hperm hbefore hsorted
    have hmem : main ∈ changes := hperm.mem_iff.mp (by simp)
    have hrest : changes.Perm (main :: changes.erase main) := List.perm_cons_erase hmem
    have hothers : (changes.erase main).Perm (front ++ back) :=
      ((hrest.symm.trans hperm.symm).trans List.perm_middle).cons_inv
    have hbrest : ∀ c ∈ main :: changes.erase main, c.inBounds text.length :=
      fun c hin => hb c (hrest.mem_iff.mpr hin)
    obtain ⟨before, after, hfore, hback, hnew, hlength⟩ :=
      splice_around hbrest ((hrest.pairwise_iff Change.Apart.symm).mp ha)
    have hwhole := applyChanges_perm hb ha hc hrest
    rw [applyChanges_eq_ok hb, applyChanges_eq_ok hbrest, Except.ok.injEq, hnew] at hwhole
    have hgrowth : totalGrowth ((changes.erase main).filter (·.stop ≤ main.start)) =
        totalGrowth front := by
      rw [totalGrowth_perm (hothers.filter _),
        filter_stop_le (fun c hin => hb c (hperm.mem_iff.mp hin))
          ((hperm.pairwise_iff fun hn hx => hn hx.symm).mpr hc) hbefore]
    rw [shiftOffset_eq, hgrowth] at hlength
    rw [← hlength] at hfound
    refine .inr ⟨main, _, t, hfound, ?_⟩
    rw [hwhole]
    exact {
      mem := hmem
      opener := hmain
      least := by
        intro c hin hopens
        obtain ⟨-, hbehind, -⟩ := List.pairwise_append.mp hsorted
        rcases List.mem_append.mp (hperm.mem_iff.mpr hin) with hin | hin
        · rw [hfront c hin] at hopens
          cases hopens
        · rcases List.mem_cons.mp hin with rfl | hin
          · exact .inr ⟨rfl, Int.le_refl _⟩
          · exact Change.notAfter_earlier_iff.mp ((List.pairwise_cons.mp hbehind).1 c hin)
      inside := by
        simp only [List.length_append]
        omega
      cut := slice_append_append before main.insert after
      placed := ⟨before, after, hfore, hback, rfl, rfl⟩ }

/-! ### The listener of the view -/

namespace Engine

theorem client_scheduleChange_eq (doc : Nat) (text : List Char) (changes : Option (List Change))
    (e : Engine) : (e.scheduleChange doc text changes).2.client = e.client := by
  obtain ⟨e₁, ha, heq⟩ := scheduleChange_eq doc text changes e
  rw [heq]
  exact (cancels_cancelSlot doc e₁).client.trans ha.toTallies.client

/-- A batch whose trigger, if there is one, has a position in the text does not make the listener
    fail. -/
theorem exists_viewChanged {doc : Nat} {text : List Char} {changes : List Change} {sent : Json}
    {found : Option (Int × Json)} {e : Engine}
    (hsent : e.triggerCharacters "signatureHelpProvider" = .ok sent)
    (hfound : signatureTrigger? changes sent = .ok found)
    (hplace : ∀ offset v, found = some (offset, v) → ∃ p, Buffer.position ⟨text⟩ offset = .ok p) :
    ∃ r, (e.viewChanged doc text (some changes)).1 = .ok r := by
  obtain ⟨provider, hprovider⟩ :
      ∃ provider, e.client.capability "signatureHelpProvider" = .ok provider := by
    unfold triggerCharacters at hsent
    cases hc : e.client.capability "signatureHelpProvider" with
    | error f => simp [hc, bind, Except.bind] at hsent
    | ok provider => exact ⟨provider, rfl⟩
  obtain ⟨scheduled, e₁, heq, hclient⟩ : ∃ r e₁,
      e.scheduleChange doc text (some changes) = (r, e₁) ∧ e₁.client = e.client :=
    ⟨_, _, rfl, client_scheduleChange_eq doc text (some changes) e⟩
  unfold viewChanged
  rw [heq]
  have hsent₁ : e₁.triggerCharacters "signatureHelpProvider" = .ok sent := by
    rw [← hsent, triggerCharacters, triggerCharacters, hclient]
  simp only
  cases e₁.session? doc with
  | none => exact ⟨none, rfl⟩
  | some s =>
    have hcall : ∃ call, e₁.signatureCall? text (some changes) s = .ok call := by
      obtain ⟨able, hable⟩ : ∃ able, e₁.available .signatureHelp "signatureHelpProvider" s =
          .ok able := by
        unfold available
        split
        · exact ⟨false, rfl⟩
        · exact ⟨provider.truthy, by rw [hclient, hprovider]; rfl⟩
      simp only [signatureCall?, hable, hsent₁, knownBatch, hfound, bind, Except.bind, pure,
        Except.pure]
      cases able with
      | false => exact ⟨none, rfl⟩
      | true =>
        cases found with
        | none => exact ⟨none, rfl⟩
        | some at' =>
          obtain ⟨offset, v⟩ := at'
          obtain ⟨p, hp⟩ := hplace offset v rfl
          exact ⟨some (p, v), by simp [hp]⟩
    obtain ⟨call, hcall⟩ := hcall
    simp only [hcall]
    cases call <;> exact ⟨_, rfl⟩

end Engine

/-- A batch inside the text whose changes are apart, no two of them inserting at one offset: no
    trigger is found exactly when none is inserted; else the first change with one opens signature
    help where its text ends in the new text, and nothing that follows an edit of the view fails. -/
theorem signatureTrigger?_at {text : List Char} {changes : List Change} {sent : Json}
    {triggers : List String} (hsent : listedTriggers? sent = some triggers)
    (hb : ∀ c ∈ changes, 0 ≤ c.start ∧ c.start ≤ c.stop ∧ c.stop ≤ text.length)
    (ha : changes.Pairwise Change.Apart)
    (hc : changes.Pairwise fun a b => ¬ Change.Collide a b) :
    ∃ new found, applyChanges text changes = .ok new ∧
      signatureTrigger? changes sent = .ok found ∧
      (found = none ↔ ∀ c ∈ changes, c.opener? triggers = none) ∧
      (∀ offset v, found = some (offset, v) → ∃ (main : Change) (t : String), v = .str t ∧
        main.OpensAt text changes triggers new offset t) ∧
      (∀ offset v, found = some (offset, v) → ∃ p, Buffer.position ⟨new⟩ offset = .ok p) ∧
      ∀ (doc : Nat) (e : Engine), e.triggerCharacters "signatureHelpProvider" = .ok sent →
        ∃ r, (e.viewChanged doc new (some changes)).1 = .ok r := by
  simp only [← Change.inBounds_iff] at hb
  have hnew := applyChanges_eq_ok hb
  rcases signatureTrigger?_cases hsent hb ha hc with
    ⟨hnone, hfound⟩ | ⟨main, offset, t, hfound, hopens⟩
  · exact ⟨_, none, hnew, hfound, by simpa using hnone, by simp, by simp, fun doc e he =>
      Engine.exists_viewChanged he hfound (by simp)⟩
  · have hplace : ∃ p, Buffer.position ⟨(descending changes).foldl splice text⟩ offset = .ok p := by
      obtain ⟨hzero, hle⟩ := hopens.inside
      obtain ⟨n, rfl⟩ := Int.eq_ofNat_of_zero_le hzero
      exact Buffer.exists_position (by simpa [Buffer.length] using hle)
    have hplaces : ∀ offset' v, some (offset, Json.str t) = some (offset', v) →
        ∃ p, Buffer.position ⟨(descending changes).foldl splice text⟩ offset' = .ok p := by
      rintro _ _ ⟨⟩
      exact hplace
    refine ⟨_, some (offset, .str t), hnew, hfound, ?_, ?_, hplaces, fun doc e he =>
      Engine.exists_viewChanged he hfound hplaces⟩
    · have hsome : ¬ ∀ c ∈ changes, c.opener? triggers = none := fun hall => by
        have := (hall main hopens.mem).symm.trans hopens.opener
        cases this
      simp [hsome]
    · rintro _ _ ⟨⟩
      exact ⟨main, t, rfl, hopens⟩

/-- The triggers of a server that opens signature help at a comma and at a bracket. -/
def commaAndBracket : Json := .arr [.str ",", .str "("]

/-- A document whose server offers signature help. -/
def helped : Engine where
  client := {
    options := Engine.usual
    ready := true
    capabilities := .obj [("signatureHelpProvider", .obj [("triggerCharacters", commaAndBracket)])] }
  channel := { script := { capabilities := .obj [] } }
  sessions := [{
    document := { uri := "file:///a", language := "text", incremental := true, text := [] }
    view := {} }]

/-- A name with its bracket is typed behind a character that goes and before a comma that comes; the
    help is asked for behind the bracket. -/
theorem signatureTrigger?_at_call :
    let text := ['a', 'b', 'c', 'd', 'e']
    let changes : List Change := [⟨4, 5, ['g', ',']⟩, ⟨3, 3, ['f', '(']⟩, ⟨0, 1, []⟩]
    let new := ['b', 'c', 'f', '(', 'd', 'g', ',']
    listedTriggers? commaAndBracket = some [",", "("] ∧
      (∀ c ∈ changes, 0 ≤ c.start ∧ c.start ≤ c.stop ∧ c.stop ≤ text.length) ∧
      changes.Pairwise Change.Apart ∧ changes.Pairwise (fun a b => ¬ Change.Collide a b) ∧
      signatureTrigger? changes commaAndBracket = .ok (some (4, .str "(")) ∧
      Change.OpensAt text changes [",", "("] new ⟨3, 3, ['f', '(']⟩ 4 "(" ∧
      ∃ r, (helped.viewChanged 0 new (some changes)).1 = .ok (some r) := by
  intro text changes new
  have hsent : listedTriggers? commaAndBracket = some [",", "("] := by decide
  have hb : ∀ c ∈ changes, 0 ≤ c.start ∧ c.start ≤ c.stop ∧ c.stop ≤ text.length := by decide
  have ha : changes.Pairwise Change.Apart := by decide
  have hc : changes.Pairwise (fun a b => ¬ Change.Collide a b) := by decide
  have hat : signatureTrigger? changes commaAndBracket = .ok (some (4, .str "(")) := rfl
  obtain ⟨result, found, hnew, hfound, -, hopens, -, hlistener⟩ :=
    signatureTrigger?_at hsent hb ha hc
  have happlied : applyChanges text changes = .ok new := rfl
  obtain rfl : new = result := Except.ok.inj (happlied.symm.trans hnew)
  obtain rfl := Except.ok.inj (hat.symm.trans hfound)
  obtain ⟨main, t, ht, hmain⟩ := hopens 4 (.str "(") rfl
  obtain rfl := Json.str.inj ht
  obtain rfl : main = ⟨3, 3, ['f', '(']⟩ := by
    rcases List.mem_cons.mp hmain.mem with rfl | hin
    · -- this change has a trigger too, but not the smallest offset
      exact absurd (hmain.least ⟨3, 3, ['f', '(']⟩ (by decide) (by decide)) (by decide)
    · rcases List.mem_cons.mp hin with rfl | hin
      · rfl
      · obtain rfl := List.mem_singleton.mp hin
        cases hmain.opener
  obtain ⟨r, hr⟩ := hlistener 0 helped (by rfl)
  have hasked : (helped.viewChanged 0 new (some changes)).1.toOption.join.isSome := by
    decide +kernel
  refine ⟨hsent, hb, ha, hc, hat, hmain, ?_⟩
  rw [hr] at hasked ⊢
  obtain ⟨task, rfl⟩ := Option.isSome_iff_exists.mp hasked
  exact ⟨task, rfl⟩

end LanguageClient
