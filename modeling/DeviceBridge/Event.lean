import DeviceBridge.Json.Codec

/-!
# DeviceBridge.Event

What the bridge tells the world around it.
-/

namespace DeviceBridge

open Json (Value Document encode decode)

/-- An event with its name and data. -/
structure TriggeredEvent where
  eventName : String
  data : Value

instance : Json.Codec TriggeredEvent where
  encode e := .record [("eventName", encode e.eventName), ("data", encode e.data)]
  decode d := do
    let fs ← d.fields ["eventName", "data"]
    return {
      eventName := ← fs.required "eventName"
      data := ← fs.optional "data" .null }

/-- An event of the bridge. -/
inductive BridgeEvent where
  | eventTriggered (e : TriggeredEvent)

namespace BridgeEvent

/-- The tag of an event on the wire. -/
def eventTriggeredTag : String := "eventTriggered"

/-- The name of the event that announces the end of a commissioning window. -/
def windowClosedName : String := "commissioningWindowClosed"

/-- The end of a commissioning window. -/
def commissioningWindowClosed : BridgeEvent :=
  eventTriggered ⟨windowClosedName, .object []⟩

/-- The name of an event. -/
def eventName : BridgeEvent → String
  | eventTriggered e => e.eventName

/-- Whether an event announces the end of a commissioning window. -/
def isWindowClosed : BridgeEvent → Bool
  | eventTriggered ⟨name, .object []⟩ => name = windowClosedName
  | _ => false

/-- Reads the content that belongs to a tag. -/
def ofTagged (tag : Option String) (content : Document) : Except Json.Error BridgeEvent :=
  if tag = some eventTriggeredTag then (decode content).map eventTriggered else .error .mismatch

/-- Written as an object with the tag under `type` and the content under `data`. Both are read in
either order, or as the two items of an array, where the tag is plain text. Content in front of its
tag has to be kept until the tag is known, so all of it needs a value. -/
instance : Json.Codec BridgeEvent where
  encode
    | eventTriggered e => .record [("type", .string eventTriggeredTag), ("data", encode e)]
  decode
    | .array [.string tag, content] => ofTagged (some tag) content
    | .object members =>
      match Json.namedMembers? members with
      | none => .error .mismatch
      | some fs =>
        match fs.filter fun f => f.1 = "type" ∨ f.1 = "data" with
        | [("type", tag), ("data", content)] => ofTagged tag.tag? content
        | [("data", content), ("type", tag)] =>
          if content.toValue?.isSome then ofTagged tag.tag? content else .error .mismatch
        | _ => .error .mismatch
    | _ => .error .mismatch

end BridgeEvent

end DeviceBridge
