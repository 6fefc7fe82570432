import DeviceBridge.Bridge.Site

/-!
# DeviceBridge.Bridge.Lifecycle

Making the bridge's node, closing it, and starting over. A bridge keeps its unique id in its
storage. Where there is none, the bridge is either new, and gets a random one, or it was made before
ids were kept: then the stack has left its mark, but no start was ever recorded, and the bridge has
the id of all bridges from that time.
-/

namespace DeviceBridge.Bridge

open Json (encode)

/-- Whether the storage was written by a bridge from before ids were kept. -/
def isLegacy : Bridging Bool := do
  let b := (← get).bridge
  if ← storing (b.rootContext.has Stack.rootNumberKey) then
    return !(← storing (b.appContext.has lastStartKey))
  else return false

/-- The unique id for the next node: the one that is kept, that of bridges from before ids were
kept, or one made from random bits. -/
def resolveUniqueId (bits : RandomBits) : Bridging UniqueId := do
  match ← storing ((← get).bridge.appContext.get? UniqueId uniqueIdKey) with
  | some id => return id
  | none => if ← isLegacy then return .legacy else return .random bits

/-- What the bridge's node is made from. -/
def nodeConfig (b : Bridge) (id : UniqueId) : ServerNodeConfig where
  id := defaultNodeId
  port := b.config.port
  commissioning := ⟨b.config.passcode, b.config.discriminator⟩
  productDescription := ⟨b.config.deviceName, aggregatorDeviceType⟩
  basicInformation := b.config.basicInformation id
  storage := b.storage

/-- Attaches the aggregator to a fresh node and keeps the unique id. -/
def furnish (node : Nat) (id : UniqueId) : Bridging Unit := do
  hosted (Host.changing (·.onNode node (·.addAggregator aggregatorId)))
  storing ((← get).bridge.appContext.set uniqueIdKey (.string id.text))

/-- Closes a node, whatever that leads to. -/
def abandon (node : Nat) (s : Site) : Site :=
  match Host.changing (·.onNode node ServerNode.close) s.host with
  | .ok _ h | .error _ h => { s with host := h }

/-- Makes the bridge's node. A node that cannot be furnished is closed. -/
def buildNode (bits : RandomBits) : Bridging (Nat × UniqueId) := do
  let id ← resolveUniqueId bits
  let node ← hosted (Host.createNode (nodeConfig (← get).bridge id))
  fun s =>
    match furnish node id s with
    | .ok _ s => .ok (node, id) s
    | .error e s => .error e (abandon node s)

/-- Makes the node of a bridge that has none. A bridge for which that fails has none afterwards. -/
def init (bits : RandomBits) : Bridging Unit := do
  if (← get).bridge.node.isSome then throw .alreadyInitialized
  let (node, id) ← logging "init" (buildNode bits)
  update fun b => { b with node := some node, uniqueId := some id }

/-- Forgets the node and all devices; the window does not outlive its node. -/
def forget (b : Bridge) : Bridge :=
  markWindowClosed b.window.generation { b with node := none, devices := [], uniqueId := none }

/-- Closes the node, if there is one, and forgets it. A node that somebody else has closed will do
as well. -/
def close : Bridging Unit := fun s =>
  let forgetting (s : Site) : Site := { s with bridge := s.bridge.forget }
  match s.bridge.node with
  | none => .ok () (forgetting s)
  | some node =>
    match Host.changing (·.onNode node ServerNode.close) s.host with
    | .ok _ h | .error (.alreadyClosed _) h => .ok () (forgetting { s with host := h })
    | .error e h =>
      .error (.stack e) (forgetting { s with host := h.record "close" (.stack e) })

/-- Erases the storage of the node and makes a new one with a fresh unique id. -/
def startOver (bits : RandomBits) : Bridging Unit := do
  let node ← heldNode
  delegating "initializeBridge" (Host.eraseNode node)
  close
  storing ((← get).bridge.appContext.set uniqueIdKey (.string (UniqueId.random bits).text))
  init bits

/-- Closes the node and makes a new one; on request, the latter from empty storage and under an id
of its own. -/
def renew (reset : Bool) (bits resetBits : RandomBits) : Bridging Unit := do
  close
  init bits
  if reset then startOver resetBits

end DeviceBridge.Bridge
