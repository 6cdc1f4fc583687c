import LanguageClient.Proofs.Edit.Resolution

/-!
Ranges as they are sent: two positions, which are looked up in a text one by one. A range whose ends lie in
the text has the text between them.
-/

namespace LanguageClient

/-- The ends of a range. -/
def Json.ends? (range : Json) : Option (Position × Position) := do
  let start ← Position.ofJson? (← range.member? "start")
  let stop ← Position.ofJson? (← range.member? "end")
  return (start, stop)

variable {b : Buffer} {range : Json} {p q : Position}

theorem Json.ends?_eq_some (h : range.ends? = some (p, q)) : ∃ start stop,
    range.member? "start" = some start ∧ Position.ofJson? start = some p ∧
      range.member? "end" = some stop ∧ Position.ofJson? stop = some q := by
  simp only [ends?, bind, Option.bind_eq_some_iff, pure, Option.some.injEq, Prod.mk.injEq] at h
  obtain ⟨start, hs, _, hp, stop, he, _, hq, rfl, rfl⟩ := h
  exact ⟨start, stop, hs, hp, he, hq⟩

theorem Json.ends?_lineRange (line start stop : Int) :
    (Buffer.lineRange (.int line) (.int start) (.int stop)).ends? =
      some (⟨line, start⟩, ⟨line, stop⟩) := by
  simp [Buffer.lineRange, ends?, member?, Members.get?, Position.ofJson?, number?]

theorem Buffer.resolve?_of_ofJson? {v : Json} (h : Position.ofJson? v = some p) :
    b.resolve? v = .ok ((b.offset? p).map .nat) := by
  simp only [Position.ofJson?, bind, Option.bind_eq_some_iff, pure, Option.some.injEq] at h
  obtain ⟨x, hx, line, hline, y, hy, character, hcharacter, rfl⟩ := h
  simp only [resolve?, Json.require_of_member? hx, Json.require_of_member? hy, hline, hcharacter,
    bind, Except.bind, pure, Except.pure]

theorem Buffer.rangeText?_of_ends? {start stop : Nat} (h : range.ends? = some (p, q))
    (hp : b.offset? p = some start) (hq : b.offset? q = some stop) :
    b.rangeText? range = .ok (some (b.slice start stop)) := by
  obtain ⟨x, y, hx, hxp, hy, hyq⟩ := Json.ends?_eq_some h
  simp only [rangeText?, Json.require_of_member? hx, Json.require_of_member? hy,
    resolve?_of_ofJson? hxp, resolve?_of_ofJson? hyq, hp, hq, bind, Except.bind, Option.map_some]
  rfl

end LanguageClient
