import DeviceBridge.Bridge.Lifecycle
import DeviceBridge.Bridge.Registry
import DeviceBridge.Bridge.Window
import DeviceBridge.Proofs.Work

/-!
# DeviceBridge.Proofs.Bridge.Run

Runs of a bridge: what it is asked to do, what happens to the stack without it, listeners that get
their turn, and what somebody else does to the files, in any order. `Site.act` is one step of a run,
`Site.run` a whole one; what every step preserves is preserved by a run (`Site.Admits.preserves`).
-/

namespace DeviceBridge

open Json (Value)
open Files (Tree)

/-- What the bridge is asked to do. -/
inductive Request where
  | init (bits : RandomBits)
  | close
  | renew (reset : Bool) (bits resetBits : RandomBits)
  | addEndpoint (deviceType : String) (id : EndpointId) (info : DeviceInfo)
      (attributes : List (String × Value))
  | setEndpointState (id : EndpointId) (cluster name : String) (value : Value)
  | start (now : Int64)
  | openWindow
  | closeWindow
  | removeFabric (index : UInt8)

/-- The work that a request asks for. -/
def Request.work : Request → Bridging Unit
  | init bits => Bridge.init bits
  | close => Bridge.close
  | renew reset bits resetBits => Bridge.renew reset bits resetBits
  | addEndpoint deviceType id info attributes =>
    Bridge.addEndpoint deviceType id info attributes
  | setEndpointState id cluster name value => Bridge.setEndpointState id cluster name value
  | start now => Bridge.start now
  | openWindow => Bridge.openWindow
  | closeWindow => Bridge.closeWindow
  | removeFabric index => Bridge.removeFabric index

/-- What happens to the stack without the bridge. -/
inductive Incident where
  /-- The next node will not be made. -/
  | refuseNode (text : String)
  | closeNode (node : Nat)
  | eraseNode (node : Nat)
  /-- The window of a node expires. -/
  | endWindow (node : Nat)
  | setCommissioned (node : Nat) (commissioned : Bool)
  | addFabric (node : Nat) (f : FabricInfo)

/-- What an incident does. -/
def Incident.work : Incident → Hosted Unit
  | refuseNode text =>
    modify fun h => { h with stack := { h.stack with createFailure := some text } }
  | closeNode node => Host.changing (·.onNode node ServerNode.close)
  | eraseNode node => Host.eraseNode node
  | endWindow node => Host.changing (·.onNode node (.ok ·.endWindow))
  | setCommissioned node commissioned =>
    Host.changing (·.onNode node (.ok <| ·.setCommissioned commissioned))
  | addFabric node f => Host.changing (·.onNode node (.ok <| ·.addFabric f))

/-- One step of a run. -/
inductive Action where
  | request (r : Request)
  /-- The pending listener in a place gets its turn. -/
  | deliver (k : Nat)
  | incident (i : Incident)
  /-- Somebody else changes the files. -/
  | outside (t : Tree)

namespace Site

/-- The files of a site. -/
abbrev tree (s : Site) : Tree := s.host.disk.tree

/-- The nodes of a site. -/
abbrev nodes (s : Site) : List ServerNode := s.host.stack.nodes

/-- The site with other files. -/
def withTree (s : Site) (t : Tree) : Site :=
  { s with host := { s.host with disk := { s.host.disk with tree := t } } }

/-- The site after one step. -/
def act (s : Site) : Action → Site
  | .request r => stateAfter r.work s
  | .deliver k => Bridge.deliver k s
  | .incident i => { s with host := stateAfter i.work s.host }
  | .outside t => s.withTree t

/-- The site after a run. -/
def run (s : Site) (as : List Action) : Site := as.foldl act s

@[simp] theorem run_nil (s : Site) : s.run [] = s := rfl

@[simp] theorem run_cons (s : Site) (a : Action) (as : List Action) :
    s.run (a :: as) = (s.act a).run as := rfl

/-- Every step of a run is admitted where it happens. -/
def Admits (p : Site → Action → Prop) (s : Site) : List Action → Prop
  | [] => True
  | a :: as => p s a ∧ Admits p (s.act a) as

instance (p : Site → Action → Prop) [∀ s a, Decidable (p s a)] :
    (s : Site) → (as : List Action) → Decidable (s.Admits p as)
  | _, [] => inferInstanceAs (Decidable True)
  | s, a :: as =>
    have := instDecidableAdmits p (s.act a) as
    inferInstanceAs (Decidable (_ ∧ _))

theorem Admits.and {p q : Site → Action → Prop} {s : Site} {as : List Action}
    (h : s.Admits p as) (h' : s.Admits q as) : s.Admits (fun s a => p s a ∧ q s a) as := by
  induction as generalizing s with
  | nil => trivial
  | cons a as ih => exact ⟨⟨h.1, h'.1⟩, ih h.2 h'.2⟩

/-- What every admitted step preserves holds after the run. -/
theorem Admits.preserves {p : Site → Action → Prop} {holds : Site → Prop}
    (hstep : ∀ s a, p s a → holds s → holds (s.act a)) {s : Site} {as : List Action}
    (h : s.Admits p as) (hs : holds s) : holds (s.run as) := by
  induction as generalizing s with
  | nil => exact hs
  | cons a as ih => exact ih h.2 (hstep s a h.1 hs)

end Site

end DeviceBridge
