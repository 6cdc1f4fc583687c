import LanguageClient.Proofs.Content
import LanguageClient.Proofs.Edit.Resolution
import LanguageClient.Proofs.Text.Slice
import LanguageClient.Signature

/-!
The active parameter in the label of the active signature. The server names both by numbers, which may lie outside
the lists or not be there at all, and the parameter by a name or by two offsets, which need not fit the label.
Whatever was sent, one of the signatures is chosen, and its label is cut in three only where the chosen parameter
stands in it.

    help ──chosenSignature──▶ f(a, b) ──chosenParameter?──▶ b ──StandsIn──▶ f(a, «b»)

`build?_highlights` says so of all help that is well formed.
-/

namespace LanguageClient

/-! ### Signature help as it is sent -/

namespace Json

/-- The member of an object, null if it is missing. -/
def field (key : String) (v : Json) : Json := (v.member? key).getD .null

/-- The items of a list. -/
def elements : Json → List Json
  | .arr xs => xs
  | _ => []

/-- A whole number, if there is one. -/
def index? : Json → Option Int
  | .int n => some n
  | _ => none

/-- An index that may be missing or null. -/
def IsIndex (v : Json) : Prop := v = .null ∨ ∃ n, v = .int n

/-- The label of a parameter: a text, or whole numbers, or none. -/
def NamesParameter (v : Json) : Prop :=
  v = .null ∨ (∃ s, v = .str s) ∨ ∃ ns : List Int, v = .arr (ns.map .int)

end Json

open Json (field)

/-- A parameter of a signature. -/
structure IsParameter (v : Json) : Prop where
  object : ∃ ms, v = .obj ms
  label : (v.field "label").NamesParameter
  documentation : IsDocumentation (v.field "documentation")

/-- A signature, whose label may be anything. -/
structure IsSignature (v : Json) : Prop where
  object : ∃ ms, v = .obj ms
  parameters : v.field "parameters" = .null ∨ ∃ ps, v.field "parameters" = .arr ps
  parameter : ∀ p ∈ (v.field "parameters").elements, IsParameter p
  activeParameter : (v.field "activeParameter").IsIndex
  documentation : IsDocumentation (v.field "documentation")

/-- The help for one signature or more. -/
structure IsSignatureHelp (v : Json) : Prop where
  object : ∃ ms, v = .obj ms
  signatures : ∃ first others, v.field "signatures" = .arr (first :: others)
  signature : ∀ s ∈ (v.field "signatures").elements, IsSignature s
  activeSignature : (v.field "activeSignature").IsIndex
  activeParameter : (v.field "activeParameter").IsIndex

/-! ### What is chosen -/

/-- The item at an index, if the index lies inside the list. -/
def itemAt? (xs : List Json) (i : Int) : Option Json := if 0 ≤ i then xs[i.toNat]? else none

/-- The signature that the help calls active, and the first one if it calls none so, or one that is not
    there. -/
def chosenSignature (help : Json) : Json :=
  let signatures := (help.field "signatures").elements
  (itemAt? signatures ((help.field "activeSignature").index?.getD 0)).getD (signatures.headD .null)

/-- The number of the active parameter: the help's, or else the signature's, or else the first. -/
def chosenIndex (help signature : Json) : Int :=
  ((help.field "activeParameter").index? <|> (signature.field "activeParameter").index?).getD 0

/-- The parameter of that number, if it is there. -/
def chosenParameter? (help signature : Json) : Option Json :=
  itemAt? (signature.field "parameters").elements (chosenIndex help signature)

/-- A parameter stands in a text: from the first occurrence of its name on, or between its two offsets. -/
inductive StandsIn (text : List Char) : Json → Nat → Nat → Prop where
  | name {s : String} {start : Nat} : Text.FirstAt s.toList text start →
      StandsIn text (.str s) start (start + s.toList.length)
  | offsets {start stop : Nat} : start ≤ stop → stop ≤ text.length →
      StandsIn text (.arr [.int start, .int stop]) start stop

variable {v help signature parameter : Json} {text : List Char} {start stop : Nat}

/-! ### Reading -/

theorem Json.get_field (h : ∃ ms, v = .obj ms) (key : String) : v.get key = .ok (v.field key) := by
  obtain ⟨ms, rfl⟩ := h
  rfl

theorem Json.IsIndex.orElse (h : v.IsIndex) : v.orElse (.int 0) = .int (v.index?.getD 0) := by
  rcases h with rfl | ⟨n, rfl⟩
  · rfl
  · by_cases hn : n = 0
    · subst hn
      rfl
    · simp [Json.orElse, Json.truthy, hn, Json.index?]

/-- An index that lies outside the list finds nothing. -/
theorem itemInside?_int (xs : List Json) (i : Int) :
    SignatureView.itemInside? (.int i) (.arr xs) = .ok (itemAt? xs i) := by
  simp only [SignatureView.itemInside?, Json.atMost_int, Json.nat, Json.count, Json.less_int, bind,
    Except.bind, pure, Except.pure, itemAt?]
  by_cases hneg : 0 ≤ i
  · by_cases hlt : i < xs.length
    · simp [hneg, hlt, Json.item, Json.number?, Text.item?, Int.not_lt.mpr hneg]
    · simp [hneg, hlt]
  · simp [hneg]

theorem mem_of_itemAt? {xs : List Json} {i : Int} {x : Json} (h : itemAt? xs i = some x) : x ∈ xs := by
  unfold itemAt? at h
  split at h
  · exact List.mem_of_getElem? h
  · cases h

theorem IsSignatureHelp.activeSignature_eq (h : IsSignatureHelp help) :
    SignatureView.activeSignature help (help.field "signatures") = .ok (chosenSignature help) := by
  obtain ⟨first, others, hs⟩ := h.signatures
  simp only [SignatureView.activeSignature, Json.get_field h.object, h.activeSignature.orElse, hs,
    itemInside?_int, bind, Except.bind, chosenSignature, Json.elements]
  cases itemAt? (first :: others) _ <;> rfl

theorem IsSignatureHelp.isSignature (h : IsSignatureHelp help) : IsSignature (chosenSignature help) := by
  obtain ⟨first, others, hs⟩ := h.signatures
  refine h.signature _ ?_
  simp only [chosenSignature, hs, Json.elements]
  cases hitem : itemAt? (first :: others) ((help.field "activeSignature").index?.getD 0) with
  | none => exact List.mem_cons_self ..
  | some s => exact mem_of_itemAt? hitem

theorem activeParameterOf_eq (h : IsSignatureHelp help) (hs : IsSignature signature) :
    SignatureView.activeParameterOf help signature =
      .ok (Json.ofOption (chosenParameter? help signature)) := by
  have hlisted : (signature.field "parameters").orElse (.arr []) =
      .arr (signature.field "parameters").elements := by
    rcases hs.parameters with hnull | ⟨ps, hps⟩
    · rw [hnull]
      rfl
    · rw [hps]
      cases ps <;> rfl
  rcases h.activeParameter with hnull | ⟨n, hn⟩
  · have hindex : chosenIndex help signature = (signature.field "activeParameter").index?.getD 0 := by
      rw [chosenIndex, hnull]
      rfl
    simp only [SignatureView.activeParameterOf, Json.get_field h.object, Json.get_field hs.object, hnull,
      hs.activeParameter.orElse, hlisted, itemInside?_int, bind, Except.bind, pure, Except.pure,
      chosenParameter?, hindex]
  · have hindex : chosenIndex help signature = n := by
      rw [chosenIndex, hn]
      rfl
    simp only [SignatureView.activeParameterOf, Json.get_field h.object, Json.get_field hs.object, hn,
      hlisted, itemInside?_int, bind, Except.bind, pure, Except.pure, chosenParameter?, hindex]

theorem documentationOf_eq (ho : ∃ ms, v = .obj ms) (hd : IsDocumentation (v.field "documentation"))
    (allowHtml : Bool) : ∃ d, SignatureView.documentationOf allowHtml v = .ok d := by
  simp only [SignatureView.documentationOf, Json.get_field ho, bind, Except.bind, pure, Except.pure]
  split
  · obtain ⟨s, hs⟩ := hd.format allowHtml
    exact ⟨_, hs⟩
  · exact ⟨_, rfl⟩

/-! ### The span of a parameter -/

theorem StandsIn.le (h : StandsIn text v start stop) : start ≤ stop ∧ stop ≤ text.length := by
  cases h with
  | name hfirst =>
    have hlength := hfirst.stands.length_le
    have hle := hfirst.le_length
    rw [List.length_drop] at hlength
    omega
  | offsets hle hlength => exact ⟨hle, hlength⟩

theorem standsIn_offsets_iff {m n : Int} : StandsIn text (.arr [.int m, .int n]) start stop ↔
    m = start ∧ n = stop ∧ start ≤ stop ∧ stop ≤ text.length := by
  constructor
  · intro h
    cases h with
    | offsets hle hlength => exact ⟨rfl, rfl, hle, hlength⟩
  · rintro ⟨rfl, rfl, hle, hlength⟩
    exact .offsets hle hlength

/-- The span of a parameter is where it stands in the label, and it has none only if it stands nowhere. -/
theorem parameterSpan_cases (h : v.NamesParameter) (text : List Char) :
    (SignatureView.parameterSpan text v = .ok none ∧ ∀ start stop, ¬ StandsIn text v start stop) ∨
      ∃ start stop, SignatureView.parameterSpan text v = .ok (some (.nat start, .nat stop)) ∧
        StandsIn text v start stop := by
  rcases h with rfl | ⟨s, rfl⟩ | ⟨ns, rfl⟩
  · exact .inl ⟨rfl, fun start stop hstands => by cases hstands⟩
  · cases hfind : Text.find? s.toList text with
    | none =>
      refine .inl ⟨by simp [SignatureView.parameterSpan, hfind], fun start stop hstands => ?_⟩
      cases hstands with
      | name hfirst =>
        rw [← Text.find?_eq_some_iff, hfind] at hfirst
        cases hfirst
    | some start =>
      refine .inr ⟨start, _, ?_, .name (Text.find?_eq_some_iff.mp hfind)⟩
      simp [SignatureView.parameterSpan, hfind, String.length_toList]
  · -- only two offsets in their order make a span
    match ns with
    | [] | [_] | _ :: _ :: _ :: _ => exact .inl ⟨rfl, fun start stop hstands => by cases hstands⟩
    | [m, n] =>
      have hspan : SignatureView.parameterSpan text (.arr [.int m, .int n]) =
          .ok (if 0 ≤ m ∧ m ≤ n ∧ n ≤ text.length then some (.int m, .int n) else none) := by
        simp only [SignatureView.parameterSpan, SignatureView.offsetPair, Json.atMost_int, Json.nat, bind,
          Except.bind, pure, Except.pure]
        by_cases hm : 0 ≤ m <;> by_cases hmn : m ≤ n <;> by_cases hn : n ≤ text.length <;>
          simp [hm, hmn, hn]
      by_cases hin : 0 ≤ m ∧ m ≤ n ∧ n ≤ text.length
      · lift m to Nat using hin.1
        lift n to Nat using by omega
        exact .inr ⟨m, n, by rw [List.map_cons, List.map_cons, List.map_nil, hspan, if_pos hin]; rfl,
          .offsets (by omega) (by omega)⟩
      · refine .inl ⟨by rw [List.map_cons, List.map_cons, List.map_nil, hspan, if_neg hin], ?_⟩
        intro start stop hstands
        obtain ⟨rfl, rfl, hle, hlength⟩ := standsIn_offsets_iff.mp hstands
        exact hin (by omega)

/-! ### The view -/

/-- A view shows a label, with the place of a parameter in it if there is one. -/
structure Highlights (label : List Char) (parameter? : Option Json) (view : SignatureView) : Prop where
  shows : view.label = label
  marks : (view.activeParameter = none ∧
      (∀ parameter ∈ parameter?, ∀ start stop,
        ¬ StandsIn label (parameter.field "label") start stop) ∧
      ∀ left right, view.highlighted left right = .ok label) ∨
    ∃ parameter ∈ parameter?, ∃ start stop : Nat, StandsIn label (parameter.field "label") start stop ∧
      start ≤ stop ∧ stop ≤ label.length ∧ view.activeParameter = some (.nat start, .nat stop) ∧
      label.take start ++ ((label.take stop).drop start ++ label.drop stop) = label ∧
      (∀ name, parameter.field "label" = .str name → (label.take stop).drop start = name.toList) ∧
      ∀ left right, view.highlighted left right =
        .ok (label.take start ++ left ++ (label.take stop).drop start ++ right ++ label.drop stop)

theorem StandsIn.name_eq {s : String} (h : StandsIn text (.str s) start stop) :
    (text.take stop).drop start = s.toList := by
  cases h with
  | name hfirst =>
    rw [List.drop_take, Nat.add_sub_cancel_left]
    exact (List.prefix_iff_eq_take.mp hfirst.stands).symm

theorem highlights_none {label : List Char} {parameter? : Option Json} {view : SignatureView}
    (hl : view.label = label) (ha : view.activeParameter = none)
    (hno : ∀ parameter ∈ parameter?, ∀ start stop,
      ¬ StandsIn label (parameter.field "label") start stop) :
    Highlights label parameter? view where
  shows := hl
  marks := .inl ⟨ha, hno, fun left right => by rw [SignatureView.highlighted, ha, hl]⟩

theorem highlights_some {label : List Char} {view : SignatureView} (hl : view.label = label)
    (ha : view.activeParameter = some (.nat start, .nat stop))
    (h : StandsIn label (parameter.field "label") start stop) :
    Highlights label (some parameter) view := by
  obtain ⟨hle, hlength⟩ := h.le
  refine ⟨hl, .inr ⟨parameter, rfl, start, stop, h, hle, hlength, ha,
    Text.take_append_middle_append_drop label hle, fun name hname => (hname ▸ h).name_eq,
    fun left right => ?_⟩⟩
  simp only [SignatureView.highlighted, ha, hl, Json.offset, Json.nat, Json.number?, bind, Except.bind, pure,
    Except.pure, Text.sliceTo_natCast (Nat.le_trans hle hlength), Text.slice_natCast hle hlength,
    Text.sliceFrom_natCast hlength]

/-- Help that is there, with a signature. -/
theorem IsSignatureHelp.truthy (h : IsSignatureHelp help) :
    help.truthy = true ∧ (help.field "signatures").truthy = true := by
  obtain ⟨ms, rfl⟩ := h.object
  obtain ⟨first, others, hs⟩ := h.signatures
  refine ⟨?_, by rw [hs]; rfl⟩
  cases ms with
  | nil => cases hs
  | cons m ms => rfl

/-- Without a label that can be shown there is nothing to mark. -/
theorem build?_unavailable (h : IsSignatureHelp help) (pos : Json) (allowHtml : Bool)
    (hno : ∀ label, (chosenSignature help).field "label" = .str label → label = "") :
    SignatureView.build? help pos allowHtml =
      .ok (some { pos, label := SignatureView.unavailable }) := by
  obtain ⟨hhelp, hsignatures⟩ := h.truthy
  simp only [SignatureView.build?, hhelp, hsignatures, Json.get_field h.object, h.activeSignature_eq,
    Json.get_field h.isSignature.object, bind, Except.bind, Bool.not_true, Bool.false_eq_true, if_false,
    pure, Except.pure]
  cases hl : (chosenSignature help).field "label" with
  | str label => simp only [hno label hl, if_true]
  | _ => rfl

/-- The label of the chosen signature is shown, and the chosen parameter is marked in it. -/
theorem build?_of_label (h : IsSignatureHelp help) (pos : Json) (allowHtml : Bool) {label : String}
    (hl : (chosenSignature help).field "label" = .str label) (hne : label ≠ "") :
    ∃ view, SignatureView.build? help pos allowHtml = .ok (some view) ∧ view.pos = pos ∧
      Highlights label.toList (chosenParameter? help (chosenSignature help)) view := by
  obtain ⟨hhelp, hsignatures⟩ := h.truthy
  have hs := h.isSignature
  obtain ⟨d, hd⟩ := documentationOf_eq hs.object hs.documentation allowHtml
  simp only [SignatureView.build?, hhelp, hsignatures, Json.get_field h.object, h.activeSignature_eq,
    Json.get_field hs.object, activeParameterOf_eq h hs, hl, hne, hd, bind, Except.bind, Bool.not_true,
    Bool.false_eq_true, if_false, pure, Except.pure]
  cases hp : chosenParameter? help (chosenSignature help) with
  | none => exact ⟨_, rfl, rfl, highlights_none rfl rfl (by simp)⟩
  | some parameter =>
    have hparameter := hs.parameter parameter (mem_of_itemAt? hp)
    obtain ⟨pd, hpd⟩ := documentationOf_eq hparameter.object hparameter.documentation allowHtml
    have hlabel := Json.get_field hparameter.object "label"
    obtain ⟨ms, rfl⟩ := hparameter.object
    simp only [Json.ofOption, hlabel, hpd]
    rcases parameterSpan_cases hparameter.label label.toList with
      ⟨hspan, hno⟩ | ⟨start, stop, hspan, hstands⟩
    · rw [hspan]
      exact ⟨_, rfl, rfl, highlights_none rfl rfl (by simpa using hno)⟩
    · rw [hspan]
      exact ⟨_, rfl, rfl, highlights_some rfl rfl hstands⟩

/-- Help that is well formed can be shown whatever numbers it names. If the chosen signature has a label, that is
    shown, with the chosen parameter marked where it stands in it; if not, a text that says so. -/
theorem build?_highlights (h : IsSignatureHelp help) (pos : Json) (allowHtml : Bool) :
    ∃ view, SignatureView.build? help pos allowHtml = .ok (some view) ∧ view.pos = pos ∧
      (∀ label, (chosenSignature help).field "label" = .str label → label ≠ "" →
        Highlights label.toList (chosenParameter? help (chosenSignature help)) view) ∧
      ((∀ label, (chosenSignature help).field "label" = .str label → label = "") →
        Highlights SignatureView.unavailable none view) := by
  by_cases hno : ∀ label, (chosenSignature help).field "label" = .str label → label = ""
  · exact ⟨_, build?_unavailable h pos allowHtml hno, rfl, fun label hl hne => absurd (hno label hl) hne,
      fun _ => highlights_none rfl rfl (by simp)⟩
  · push Not at hno
    obtain ⟨label, hl, hne⟩ := hno
    obtain ⟨view, hview, hpos, hhighlights⟩ := build?_of_label h pos allowHtml hl hne
    refine ⟨view, hview, hpos, fun label' hl' _ => ?_, fun hno => absurd (hno label hl) hne⟩
    obtain rfl : label = label' := Json.str.inj (hl.symm.trans hl')
    exact hhighlights

/-- The active signature is not there, so the first one is chosen, and of its parameters the one that the help
    names and not its own. -/
theorem build?_highlights_offsets :
    let second : Json := .obj [("label", .arr [.int 5, .int 6]), ("documentation", .str "the second")]
    let signature : Json := .obj [("label", .str "f(a, b)"),
      ("parameters", .arr [.obj [("label", .str "a")], second]), ("activeParameter", .int 0)]
    let help : Json := .obj [("signatures", .arr [signature]), ("activeSignature", .int (-1)),
      ("activeParameter", .int 1)]
    IsSignatureHelp help ∧ ∃ view, SignatureView.build? help (.int 9) true = .ok (some view) ∧
      view.highlighted ['<'] ['>'] = .ok "f(a, <b>)".toList := by
  intro second signature help
  have hsecond : IsParameter second :=
    ⟨⟨_, rfl⟩, .inr (.inr ⟨[5, 6], rfl⟩), .text _⟩
  have hfirst : IsParameter (.obj [("label", .str "a")]) := ⟨⟨_, rfl⟩, .inr (.inl ⟨_, rfl⟩), .null⟩
  have hsignature : IsSignature signature :=
    ⟨⟨_, rfl⟩, .inr ⟨_, rfl⟩, List.forall_mem_cons.mpr ⟨hfirst, List.forall_mem_singleton.mpr hsecond⟩,
      .inr ⟨_, rfl⟩, .null⟩
  have hhelp : IsSignatureHelp help :=
    ⟨⟨_, rfl⟩, ⟨_, _, rfl⟩, List.forall_mem_singleton.mpr hsignature, .inr ⟨_, rfl⟩, .inr ⟨_, rfl⟩⟩
  obtain ⟨view, hview, -, hshown, -⟩ := build?_highlights hhelp (.int 9) true
  refine ⟨hhelp, view, hview, ?_⟩
  rcases (hshown "f(a, b)" rfl (by decide)).marks with
    ⟨-, hno, -⟩ | ⟨parameter, hchosen, start, stop, hstands, -, -, -, -, -, hmarked⟩
  · exact absurd (standsIn_offsets_iff.mpr ⟨rfl, rfl, by decide, by decide⟩) (hno second rfl 5 6)
  · obtain rfl : second = parameter := Option.some.inj hchosen
    obtain ⟨hstart, hstop, -⟩ := standsIn_offsets_iff.mp hstands
    obtain rfl : start = 5 := by omega
    obtain rfl : stop = 6 := by omega
    rw [hmarked]
    exact congrArg Except.ok (by decide)

end LanguageClient
