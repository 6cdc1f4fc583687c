import LanguageClient.Change
import LanguageClient.Content
import LanguageClient.Json.Order

/-!
Signature help: which signature and parameter are active, where the parameter stands in the label,
and when typing should open the help.
-/

namespace LanguageClient

/-- The active signature, ready to be shown at an offset. -/
structure SignatureView where
  pos : Json
  label : List Char
  /-- Where the active parameter begins and ends in the label. -/
  activeParameter : Option (Json × Json) := none
  documentation : Json := .null
  parameterDocumentation : Json := .null

namespace SignatureView

/-- The label with the active parameter between two marks. -/
def highlighted (s : SignatureView) (left right : List Char) : Except Failure (List Char) :=
  match s.activeParameter with
  | none => .ok s.label
  | some (start, stop) => do
    let (start, stop) := (← start.offset, ← stop.offset)
    return Text.sliceTo s.label start ++ left ++ Text.slice s.label start stop ++ right
      ++ Text.sliceFrom s.label stop

/-- What is shown when the signature has no usable label. -/
def unavailable : List Char := "Signature information unavailable".toList

/-- A pair of offsets inside the label. -/
def offsetPair (label : List Char) (start stop : Json) : Except Failure (Option (Json × Json)) := do
  if !(← (Json.int 0).atMost start) then return none
  if !(← start.atMost stop) then return none
  return if ← stop.atMost (.nat label.length) then some (start, stop) else none

/-- Where a parameter stands in the label: the first occurrence of its name, or the two offsets
    given for it. -/
def parameterSpan (label : List Char) : Json → Except Failure (Option (Json × Json))
  | .str name =>
    .ok ((Text.find? name.toList label).map fun i => (.nat i, .nat (i + name.length)))
  | .arr [start, stop] => offsetPair label start stop
  | _ => .ok none

/-- The item at an index that may lie outside the list, none if it does. -/
def itemInside? (index items : Json) : Except Failure (Option Json) := do
  if !(← (Json.int 0).atMost index) then return none
  if !(← index.less (.nat (← items.count))) then return none
  return some (← items.item index)

/-- Documentation ready to be shown, null if none was sent. -/
def documentationOf (allowHtml : Bool) (owner : Json) : Except Failure Json := do
  let documentation ← owner.get "documentation"
  if documentation.truthy then formatContents allowHtml documentation else return .null

/-- The signature that the help calls active, the first one if that index lies outside. -/
def activeSignature (help signatures : Json) : Except Failure Json := do
  let index := (← help.get "activeSignature").orElse (.int 0)
  match ← itemInside? index signatures with
  | some signature => return signature
  | none => signatures.item (.int 0)

/-- The parameter that the help, or else the signature, calls active. -/
def activeParameterOf (help signature : Json) : Except Failure Json := do
  let own ← help.get "activeParameter"
  let index ← match own with
    | .null => pure ((← signature.get "activeParameter").orElse (.int 0))
    | index => pure index
  let parameters := (← signature.get "parameters").orElse (.arr [])
  return Json.ofOption (← itemInside? index parameters)

/-- Prepares the active signature, or none if the server sent no signatures. -/
def build? (help pos : Json) (allowHtml : Bool) : Except Failure (Option SignatureView) := do
  if !help.truthy then return none
  let signatures ← help.get "signatures"
  if !signatures.truthy then return none
  let signature ← activeSignature help signatures
  match ← signature.get "label" with
  | .str label =>
    if label = "" then return some { pos, label := unavailable }
    let label := label.toList
    let parameter ← activeParameterOf help signature
    let documentation ← documentationOf allowHtml signature
    match parameter with
    | .null => return some { pos, label, documentation }
    | parameter =>
      return some {
        pos, label, documentation
        activeParameter := ← parameterSpan label (← parameter.get "label")
        parameterDocumentation := ← documentationOf allowHtml parameter }
  | _ => return some { pos, label := unavailable }

end SignatureView

/-- The characters that open signature help where the server names none. -/
def defaultSignatureTriggers : Json := .arr [.str "(", .str ","]

/-- Is the trigger in the inserted text? -/
def triggersIn (insert : List Char) : Json → Except Failure Bool
  | .str s => .ok (Text.contains s.toList insert)
  | v =>
    .error (.wrongKind
      ("'in <string>' requires string as left operand, not " ++ v.kind.label))

/-- The first of the triggers that is in the inserted text. -/
def firstTrigger? (insert : List Char) : List Json → Except Failure (Option Json)
  | [] => .ok none
  | t :: ts => do
    if ← triggersIn insert t then return some t
    firstTrigger? insert ts

/-- Looks through changes from the lowest offset up. `delta` is by how much the changes before
    have moved the text. -/
def triggerFrom (triggers : Json) (delta : Int) :
    List Change → Except Failure (Option (Int × Json))
  | [] => .ok none
  | c :: rest => do
    let after := c.start + delta + c.insert.length
    if c.insert.isEmpty then triggerFrom triggers (delta + c.growth) rest
    else
      match ← firstTrigger? c.insert (← triggers.items) with
      | some t => return some (after, t)
      | none => triggerFrom triggers (delta + c.growth) rest

/-- The first inserted text with a trigger character in a batch: the offset just after it in the
    new text, and the character. -/
def signatureTrigger? (changes : List Change) (triggers : Json) :
    Except Failure (Option (Int × Json)) :=
  triggerFrom (triggers.orElse defaultSignatureTriggers) 0 (ascending changes)

end LanguageClient
