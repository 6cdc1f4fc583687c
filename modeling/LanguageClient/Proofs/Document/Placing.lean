import LanguageClient.Diagnostics
import LanguageClient.Proofs.Edit.Resolution

/-!
Diagnostics as they are shown. A diagnostic that is well formed is placed in a text whatever the text
is, its end never before its start, with the actions that are offered for it; so diagnostics that
are all well formed are shown all together.

    sent ──ofJson?──▶ Diagnostic ──presented──▶ PresentedDiagnostic
-/

namespace LanguageClient

/-- Nothing, or a list of actions: what code actions are answered with. -/
def Json.offersActions : Json → Bool
  | .null => true
  | .arr xs => xs.all fun | .obj _ => true | _ => false
  | _ => false

/-- The actions that an answer offers. -/
def OfferedAction.offered : Json → List OfferedAction
  | .arr xs => xs.filterMap fun x => (ofAction x).toOption
  | _ => []

/-- A published diagnostic. -/
structure Diagnostic where
  start : Position
  stop : Position
  severity : Option Int
  message : Json
  source : Json
  code : Json

namespace Diagnostic

/-- A severity that was sent, which may be missing. -/
def severityOf? : Json → Option (Option Int)
  | .null => some none
  | v => v.number?.map some

/-- A diagnostic as it is sent. -/
def ofJson? (v : Json) : Option Diagnostic := do
  let range ← v.member? "range"
  let start ← Position.ofJson? (← range.member? "start")
  let stop ← Position.ofJson? (← range.member? "end")
  let severity ← severityOf? ((v.member? "severity").getD .null)
  return {
    start, stop, severity
    message := (v.member? "message").getD (.str "")
    source := (v.member? "source").getD .null
    code := (v.member? "code").getD .null }

/-- How the editor calls a severity. -/
def label : Option Int → String
  | some 2 => "warning"
  | some 3 | some 4 => "info"
  | _ => "error"

/-- The diagnostic in a text, as the editor shows it. A position outside the text counts as offset
    zero, and the end is moved onto the start if it comes before. -/
def presented (b : Buffer) (fallback : Json) (d : Diagnostic) (answer : Json) :
    PresentedDiagnostic where
  start := .int (b.offsetOrZero d.start)
  stop := .int (max (b.offsetOrZero d.start) (b.offsetOrZero d.stop))
  severity := label d.severity
  message := d.message
  source := d.source.orElse fallback
  code := d.code
  actions := OfferedAction.offered answer

end Diagnostic

/-! ### Reading -/

theorem Json.get_of_member? {key : String} {v w : Json} (h : v.member? key = some w) (key' : String) :
    v.get key' = .ok ((v.member? key').getD .null) := by
  cases v <;> first | rfl | cases h

theorem Json.getOr_of_member? {key : String} {v w : Json} (h : v.member? key = some w)
    (key' : String) (default : Json) : v.getOr key' default = .ok ((v.member? key').getD default) := by
  cases v <;> first | rfl | cases h

theorem Diagnostic.range_of_ofJson? {v : Json} {d : Diagnostic} (h : ofJson? v = some d) :
    ∃ range, v.member? "range" = some range := by
  simp only [ofJson?, bind, Option.bind_eq_some_iff] at h
  obtain ⟨range, hrange, _⟩ := h
  exact ⟨range, hrange⟩

theorem severityName_of_severityOf? {v : Json} {severity : Option Int}
    (h : Diagnostic.severityOf? v = some severity) :
    severityName v = .ok (Diagnostic.label severity) := by
  have hnumber (v : Json) (n : Int) (hkey : v.asKey = .ok v) (hn : v.equalNumber? = some n) :
      severityName v = .ok (Diagnostic.label (some n)) := by
    simp only [severityName, hkey, bind, Except.bind, hn, pure, Except.pure, Diagnostic.label]
    split <;> simp_all
  cases v with
  | null =>
    obtain rfl : none = severity := by simpa [Diagnostic.severityOf?] using h
    rfl
  | bool b =>
    obtain rfl : some (if b then 1 else 0) = severity := by
      simpa [Diagnostic.severityOf?, Json.number?] using h
    exact hnumber _ _ rfl rfl
  | int n =>
    obtain rfl : some n = severity := by simpa [Diagnostic.severityOf?, Json.number?] using h
    exact hnumber _ _ rfl rfl
  | _ => simp [Diagnostic.severityOf?, Json.number?] at h

/-! ### Offering -/

theorem OfferedAction.ofAction_obj (ms : Members) : ∃ offer, ofAction (.obj ms) = .ok offer := by
  have htitle : ∃ name, title (.obj ms) = .ok name := by
    simp only [title, Json.get, Json.getOr, bind, Except.bind, pure, Except.pure]
    split
    · split <;> exact ⟨_, rfl⟩
    · exact ⟨_, rfl⟩
  obtain ⟨name, hname⟩ := htitle
  exact ⟨⟨name, .obj ms⟩, by simp only [ofAction, hname, bind, Except.bind, pure, Except.pure]⟩

/-- All actions of a list can be offered. -/
theorem OfferedAction.mapM_ofAction : ∀ {xs : List Json}, (Json.arr xs).offersActions = true →
    xs.mapM ofAction = .ok (offered (.arr xs))
  | [], _ => rfl
  | x :: xs, h => by
      have hall : ∀ y ∈ x :: xs, ∃ ms, y = .obj ms := by
        intro y hy
        have hy := List.all_eq_true.mp h y hy
        cases y with
        | obj ms => exact ⟨ms, rfl⟩
        | _ => cases hy
      obtain ⟨ms, rfl⟩ := hall x (List.mem_cons_self ..)
      obtain ⟨offer, hoffer⟩ := ofAction_obj ms
      have hrest : (Json.arr xs).offersActions = true := by
        simp only [Json.offersActions, List.all_cons, Bool.and_eq_true] at h ⊢
        exact h.2
      simp only [List.mapM_cons, hoffer, mapM_ofAction hrest, bind, Except.bind, pure, Except.pure,
        offered, List.filterMap_cons, Except.toOption]

theorem OfferedAction.offered_of_items {answer : Json} (h : answer.offersActions = true) :
    ∃ xs, (answer.orElse (.arr [])).items = .ok xs ∧ xs.mapM ofAction = .ok (offered answer) := by
  cases answer with
  | null => exact ⟨[], rfl, rfl⟩
  | arr xs =>
    refine ⟨xs, ?_, mapM_ofAction h⟩
    cases xs <;> rfl
  | _ => cases h

/-! ### Placing -/

namespace PresentedDiagnostic

theorem place_of_ofJson? {v answer : Json} {d : Diagnostic} (b : Buffer) (fallback : Json)
    (h : Diagnostic.ofJson? v = some d) (ha : answer.offersActions = true) :
    place b fallback v answer = .ok (d.presented b fallback answer) := by
  simp only [Diagnostic.ofJson?, bind, Option.bind_eq_some_iff, pure, Option.some.injEq] at h
  obtain ⟨range, hrange, sentStart, hs, start, hstart, sentStop, he, stop, hstop, severity,
    hseverity, rfl⟩ := h
  obtain ⟨xs, hitems, hoffers⟩ := OfferedAction.offered_of_items ha
  simp only [place, Json.require_of_member? hrange, resolveRange_of_ofJson? b hs hstart he hstop,
    Json.get_of_member? hrange, Json.getOr_of_member? hrange, severityName_of_severityOf? hseverity,
    hitems, hoffers, bind, Except.bind, pure, Except.pure, Diagnostic.presented]

/-- Well-formed diagnostics are placed all together, each with the actions that were found for it. -/
theorem placeAll_of_ofJson? (b : Buffer) (fallback : Json) : ∀ {sent answers : List Json}
    {read : List Diagnostic}, sent.mapM Diagnostic.ofJson? = some read →
    (∀ answer ∈ answers, answer.offersActions = true) →
    placeAll b fallback sent answers = .ok (List.zipWith (Diagnostic.presented b fallback) read answers)
  | [], answers, read, h, _ => by
      obtain rfl : [] = read := by simpa using h
      rfl
  | v :: sent, [], read, _, _ => by
      cases read <;> rfl
  | v :: sent, answer :: answers, read, h, ha => by
      simp only [List.mapM_cons, bind, Option.bind_eq_some_iff, pure, Option.some.injEq] at h
      obtain ⟨d, hd, ds, hds, rfl⟩ := h
      obtain ⟨hanswer, hanswers⟩ := List.forall_mem_cons.mp ha
      have hrest := placeAll_of_ofJson? b fallback hds hanswers
      rw [placeAll] at hrest
      simp only [placeAll, List.zip_cons_cons, List.mapM_cons, place_of_ofJson? b fallback hd hanswer, hrest,
        bind, Except.bind, pure, Except.pure, List.zipWith_cons_cons]

end PresentedDiagnostic

end LanguageClient
