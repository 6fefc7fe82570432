import DeviceBridge.Bridge.Site

/-!
# DeviceBridge.Bridge.Window

The commissioning window and the fabrics of the bridge. Each opened window gets a listener of its
own generation; when the listener is delivered, the world is told of the end of the window, unless
the bridge has told it already or a newer window has been opened.
-/

namespace DeviceBridge.Bridge

/-- Opens a commissioning window. -/
def openWindow : Bridging Unit := do
  let node ← heldNode
  delegating "openCommissioningWindow" (Host.changing (·.onNode node ServerNode.openWindow))
  modify fun s =>
    let generation := s.bridge.window.generation + 1
    match (s.host.stack.nodes[node]?).bind ServerNode.window with
    | none => s
    | some notification =>
      { s with
        bridge := { s.bridge with
          window := ⟨true, generation⟩
          listeners := s.bridge.listeners ++ [⟨node, notification, generation⟩] } }

/-- Closes the commissioning window and tells the world at once. -/
def closeWindow : Bridging Unit := do
  let node ← heldNode
  delegating "closeCommissioningWindow"
    (Host.changing (·.onNode node (.ok ·.endWindow)))
  update fun b => markWindowClosed b.window.generation b

/-! ## Listeners -/

/-- Whether the notification for which a listener waits is resolved. -/
def isReady (s : Stack) (l : Listener) : Bool := s.isResolved l.node l.notification

/-- Delivers the listener in a place, if it is ready. -/
def deliver (k : Nat) (s : Site) : Site :=
  match s.bridge.listeners[k]? with
  | none => s
  | some l =>
    if isReady s.host.stack l then
      { s with
        bridge := markWindowClosed l.generation
          { s.bridge with listeners := s.bridge.listeners.eraseIdx k } }
    else s

/-- Delivers all ready listeners, oldest first. -/
def deliverReady (s : Site) : Site :=
  let waiting := s.bridge.listeners.filter (!isReady s.host.stack ·)
  let ready := s.bridge.listeners.filter (isReady s.host.stack ·)
  { s with
    bridge := ready.foldl (fun b l => markWindowClosed l.generation b)
      { s.bridge with listeners := waiting } }

/-! ## Commissioning -/

/-- What a commissioner is told. A bridge that has joined no fabric always lets itself be
commissioned. -/
def commissioningState : Bridging CommissioningState := do
  let node ← heldNode
  let s ← get
  match s.host.stack.nodes[node]? with
  | none => throw .notInitialized
  | some n =>
    return ⟨n.commissioning.pairingCodes,
      !n.commissioning.commissioned || s.bridge.window.isOpen⟩

/-- The fabrics that the bridge has joined. -/
def fabrics : Bridging (List FabricInfo) := do
  let node ← heldNode
  match (← get).host.stack.nodes[node]? with
  | none => throw .notInitialized
  | some n => return n.fabrics

/-- Leaves all fabrics with an index. -/
def removeFabric (index : UInt8) : Bridging Unit := do
  let node ← heldNode
  delegating "removeFabric" (Host.changing (·.onNode node (·.removeFabric index)))

end DeviceBridge.Bridge
