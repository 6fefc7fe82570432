import DeviceBridge.Bridge.Site

/-!
# DeviceBridge.Bridge.Registry

The devices of the bridge: registering them, changing their attributes, and the start of the node
that serves them. The time of a start is kept, and it is later than any that was kept before; after
the last time that there is no start can be kept.
-/

namespace DeviceBridge.Bridge

open Json (Value)

/-- Registers a device and attaches its endpoint. Nothing is registered unless every check passes
and the stack accepts the endpoint. -/
def addEndpoint (deviceType : String) (id : EndpointId) (info : DeviceInfo)
    (attributes : List (String × Value)) : Bridging Unit := do
  let b := (← get).bridge
  if b.devices.contains id then throw (.deviceExists id)
  match b.node with
  | none => throw .aggregatorNotInitialized
  | some node =>
    match DeviceType.parse deviceType with
    | .error e => throw (.unsupportedDeviceType e)
    | .ok type =>
      let definition := EndpointDefinition.ofDevice type id info attributes
      delegating "addEndpoint"
        (Host.changing (·.onNode node (·.onAggregator (·.add definition))))
      update fun b => { b with devices := b.devices.insert id ⟨⟨id, type, info⟩, node⟩ }

/-- Sets an attribute of a device. A device that nobody has registered is ignored. -/
def setEndpointState (id : EndpointId) (cluster name : String) (value : Value) :
    Bridging Unit := do
  match (← get).bridge.devices.get? id with
  | none => return
  | some d =>
    delegating "setEndpointState"
      (Host.changing
        (·.onNode d.node (·.onAggregator (·.setState id.text cluster name value))))

/-- The time after a time; none comes after the last one. -/
def following (t : Int64) : Option Int64 := if t = Int64.maxValue then none else some (t + 1)

/-- The time to keep for a start: now, but later than the time kept before. -/
def nextStart (kept : Option Int64) (now : Int64) : Option Int64 :=
  match kept with
  | some t => if now ≤ t then following t else some now
  | none => some now

/-- Keeps a time. If there is none, the work is given up. -/
def keepStart (context : Context) : Option Int64 → Bridging Unit
  | some t => storing (context.set lastStartKey (.number (.integer (.ofInt64 t))))
  | none => throw .overflow

/-- Keeps the time of a start, in milliseconds. -/
def recordLastStart (now : Int64) : Bridging Unit := do
  let context := (← get).bridge.appContext
  let kept ← storing (context.get? Int64 lastStartKey)
  keepStart context (nextStart kept now)

/-- Starts the node and keeps the time. A bridge without devices is not started. -/
def start (now : Int64) : Bridging Unit := do
  if (← get).bridge.devices.isEmpty then throw .noDevices
  let node ← heldNode
  delegating "startBridge" (Host.changing (·.onNode node ServerNode.start))
  logging "startBridge" (recordLastStart now)

end DeviceBridge.Bridge
