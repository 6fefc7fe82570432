/-!
# DeviceBridge.Endpoint.Search

The endpoints of a remote node form a forest. The search goes through it in pre-order: an endpoint
before its children, the children in their order. It tells which endpoint it found and which ones
it had to ask for their children.
-/

namespace DeviceBridge

/-- An endpoint of a remote node with the endpoints below it; `tag` tells endpoints apart that bear
the same number. -/
inductive PeerEndpoint where
  | mk (tag : Nat) (number : UInt16) (children : List PeerEndpoint)

namespace PeerEndpoint

instance : Inhabited PeerEndpoint := ⟨.mk 0 0 []⟩

/-- What tells the endpoint apart. -/
def tag : PeerEndpoint → Nat
  | mk t _ _ => t

/-- The number of the endpoint. -/
def number : PeerEndpoint → UInt16
  | mk _ n _ => n

/-- The endpoints directly below, in order. -/
def children : PeerEndpoint → List PeerEndpoint
  | mk _ _ cs => cs

mutual

/-- An endpoint and all below it, in pre-order. -/
def preorder : PeerEndpoint → List PeerEndpoint
  | mk t n cs => mk t n cs :: preorderAll cs

/-- All endpoints of a forest, in pre-order. -/
def preorderAll : List PeerEndpoint → List PeerEndpoint
  | [] => []
  | e :: es => preorder e ++ preorderAll es

end

mutual

/-- The number of endpoints in a tree. -/
def size : PeerEndpoint → Nat
  | mk _ _ cs => sizeAll cs + 1

/-- The number of endpoints in a forest. -/
def sizeAll : List PeerEndpoint → Nat
  | [] => 0
  | e :: es => size e + sizeAll es

end

theorem sizeAll_append (es fs : List PeerEndpoint) :
    sizeAll (es ++ fs) = sizeAll es + sizeAll fs := by
  induction es with
  | nil => simp [sizeAll]
  | cons e es ih => simp [sizeAll, ih]; omega

end PeerEndpoint

/-- The outcome of a search: what was found, and the endpoints asked for their children, in
order. -/
structure SearchResult where
  found : Option PeerEndpoint
  expanded : List PeerEndpoint

namespace PeerEndpoint

/-- Searches the pending endpoints, those in front first, for a number. An endpoint with another
number is replaced by its children. -/
def search (number : UInt16) (pending : List PeerEndpoint) : SearchResult :=
  match pending with
  | [] => ⟨none, []⟩
  | e :: rest =>
    if e.number = number then ⟨some e, []⟩
    else
      let result := search number (e.children ++ rest)
      { result with expanded := e :: result.expanded }
termination_by sizeAll pending
decreasing_by
  cases e
  simp [sizeAll, sizeAll_append, size, children]

/-- The first endpoint with a number in a forest. -/
def find? (roots : List PeerEndpoint) (number : UInt16) : Option PeerEndpoint :=
  (search number roots).found

end PeerEndpoint

end DeviceBridge
