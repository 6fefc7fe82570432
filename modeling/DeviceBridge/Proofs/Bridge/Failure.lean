import DeviceBridge.Proofs.Bridge.Legacy
import DeviceBridge.Proofs.Bridge.Refusal
import DeviceBridge.Proofs.Bridge.StartOver

/-!
# DeviceBridge.Proofs.Bridge.Failure

What is left when a bridge could not be initialized. Whichever part fails, the bridge holds nothing,
every node that it made is closed, and it can be initialized again (`Site.Cleared`); all parts keep
`Site.Orderly`, so this only takes that the node has been let go (`Site.Orderly.cleared`). The one
part that fails while a node is held, and does not let it go, is the erasing of what is stored: then
the bridge is left with a node that is stopped for good, and takes itself for initialized
(`Site.Stuck`).
-/

namespace DeviceBridge

open Files (Tree)

namespace Site

/-- A bridge that holds nothing and can be initialized; all nodes that it made are closed. -/
structure Cleared (first : Nat) (s : Site) : Prop where
  node : s.bridge.node = none
  uniqueId : s.bridge.uniqueId = none
  devices : s.bridge.devices = []
  window : s.bridge.window.isOpen = false
  closed : ∀ j n, first ≤ j → s.nodes[j]? = some n → n.closed = true
  retriable : ∀ bits s', Bridge.init bits s ≠ .error .alreadyInitialized s'

/-- A bridge that holds a node whose data were to be erased, and refuses to be initialized. -/
structure Stuck (s : Site) : Prop where
  held : ∃ i n id, s.bridge.node = some i ∧ s.nodes[i]? = some n ∧ n.closed = true ∧
    n.erased = true ∧ s.bridge.uniqueId = some id
  refuses : ∀ bits, Bridge.init bits s = .error .alreadyInitialized s

/-- The bridge closes its node and makes another one, whose data cannot be erased. -/
def FailsToErase (bits : RandomBits) (s : Site) : Prop :=
  ∃ s₁ i, (do Bridge.close; Bridge.init bits) s = .ok () s₁ ∧ s₁.bridge.node = some i ∧
    succeeds (Host.eraseNode i) s₁.host = false

end Site

namespace Bridge

variable {α : Type} {s : Site}

/-! ## Why a bridge is not initialized -/

/-- The failure is not that the bridge has a node already. -/
def Retriable (e : BridgeError) : Prop := e ≠ .alreadyInitialized

theorem retriable_storing (x : Storing α) : FailsOnly Retriable (storing x) := fun _ =>
  after_storing (.intro (fun _ _ _ => trivial) fun _ _ _ => nofun)

theorem retriable_hosted (x : Hosted α) : FailsOnly Retriable (hosted x) := fun _ =>
  after_hosted (.intro (fun _ _ _ => trivial) fun _ _ _ => nofun)

theorem retriable_isLegacy : FailsOnly Retriable isLegacy := by
  refine failsOnly_bind failsOnly_get fun s => failsOnly_bind (retriable_storing _) fun marked => ?_
  cases marked with
  | false => exact failsOnly_pure _
  | true => exact failsOnly_bind (retriable_storing _) fun _ => failsOnly_pure _

theorem retriable_resolveUniqueId (bits : RandomBits) :
    FailsOnly Retriable (resolveUniqueId bits) := by
  refine failsOnly_bind failsOnly_get fun s => failsOnly_bind (retriable_storing _) fun kept => ?_
  cases kept with
  | some id => exact failsOnly_pure _
  | none =>
      refine failsOnly_bind retriable_isLegacy fun legacy => ?_
      cases legacy <;> exact failsOnly_pure _

theorem retriable_furnish (node : Nat) (id : UniqueId) : FailsOnly Retriable (furnish node id) :=
  failsOnly_bind (retriable_hosted _) fun _ => failsOnly_bind failsOnly_get fun _ =>
    retriable_storing _

theorem retriable_buildNode (bits : RandomBits) : FailsOnly Retriable (buildNode bits) :=
  failsOnly_bind (retriable_resolveUniqueId bits) fun id => failsOnly_bind failsOnly_get fun _ =>
    failsOnly_bind (retriable_hosted _) fun node s => after_furnish_or (retriable_furnish node id s)

/-- A bridge without a node does not refuse to make one. -/
theorem after_init_retriable (hnode : s.bridge.node = none) (bits : RandomBits) :
    After (init bits) s (fun _ _ => True) (fun e _ => Retriable e) := by
  refine after_bind (after_get ?_)
  rw [hnode]
  exact after_bind (after_logging ((retriable_buildNode bits s).imp fun _ _ _ =>
    after_update trivial))

theorem renew_eq (reset : Bool) (bits resetBits : RandomBits) :
    renew reset bits resetBits = (do
      (do close; init bits)
      if reset then startOver resetBits) := by
  simp only [renew, bind_assoc]

end Bridge

namespace Site.Orderly

variable {first : Nat} {s : Site}

/-! ## The parts -/

/-- A bridge that has let its node go has let everything go. -/
theorem cleared (h : s.Orderly first) (hnode : s.bridge.node = none) : s.Cleared first := by
  obtain ⟨hdevices, hid, hopen⟩ := h.lifecycle.idle hnode
  refine ⟨hnode, hid, hdevices, hopen, fun j n hj hn => ?_, fun bits s' hx => ?_⟩
  · exact h.lifecycle.others j n hj (by simp [hnode]) hn
  · exact (Bridge.after_init_retriable hnode bits).of_error hx rfl

theorem init_cleared (h : s.Orderly first) (hnode : s.bridge.node = none) (bits : RandomBits) :
    After (Bridge.init bits) s (fun _ _ => True) (fun _ s' => s'.Cleared first) :=
  ((h.init bits).and (Bridge.after_init h.sound bits)).mono (fun _ _ _ => trivial)
    fun _ _ h' => h'.1.cleared (by rw [h'.2.1, hnode])

/-- If erasing fails, the bridge still holds the node. -/
theorem eraseNode_stuck (h : s.Orderly first) {i : Nat} (hi : s.bridge.node = some i)
    (operation : String) :
    After (Bridge.delegating operation (Host.eraseNode i)) s
      (fun _ _ => succeeds (Host.eraseNode i) s.host = true)
      (fun _ s' => succeeds (Host.eraseNode i) s.host = false ∧ s'.Stuck) := by
  obtain ⟨-, n, id, hn, hid, -⟩ := h.lifecycle.held i hi
  have hnodes : Leaves (Host.eraseNode i) s.host
      (fun h' => h'.stack.nodes = s.host.stack.nodes.modify i ServerNode.stopErased ∧ True) :=
    Bridge.after_eraseNode hn (.intro (fun _ _ _ => trivial) fun _ _ _ => trivial)
  refine Bridge.after_delegating (.intro (fun _ h₁ hx => ?_)
    fun _ h₁ hx => ⟨?_, ?_, fun bits => ?_⟩)
  · unfold succeeds
    rw [hx]
  · unfold succeeds
    rw [hx]
  · have hstopped : h₁.stack.nodes[i]? = some n.stopErased := by
      rw [(hnodes.of_error hx).1, List.getElem?_modify_eq, hn]
      rfl
    exact ⟨i, _, id, hi, hstopped, rfl, rfl, hid⟩
  · refine Bridge.init_of_held ?_ bits
    exact Option.isSome_of_eq_some hi

/-- Once a node has been made, starting over leaves the bridge clear, unless erasing fails. -/
theorem startOver_cleared (h : s.Orderly first) {i : Nat} (hi : s.bridge.node = some i)
    (bits : RandomBits) :
    After (Bridge.startOver bits) s (fun _ _ => succeeds (Host.eraseNode i) s.host = true)
      (fun _ s' => succeeds (Host.eraseNode i) s.host = true ∧ s'.Cleared first ∨
        succeeds (Host.eraseNode i) s.host = false ∧ s'.Stuck) := by
  refine after_bind (Bridge.after_heldNode (fun j hj => ?_) fun hnone => ?_)
  · obtain rfl : i = j := Option.some.inj (hi.symm.trans hj)
    refine after_bind (((h.eraseNode "initializeBridge" i).and (h.eraseNode_stuck hi _)).mono
      (fun _ s₁ h₁ => ?_) fun _ _ h₁ => .inr h₁.2)
    obtain ⟨⟨-, h₁⟩, herased⟩ := h₁
    -- From here on no node is held when something fails.
    refine after_bind (h₁.close.mono (fun _ s₂ h₂ => ?_) fun _ _ => False.elim)
    obtain ⟨h₂, hb₂, -⟩ := h₂
    have hnode : s₂.bridge.node = none := by rw [hb₂, Bridge.node_forget]
    refine after_bind (after_get (after_bind (Bridge.after_storing
      ((Context.after_set h₂.sound _ _ _).mono (fun _ d hset => ?_) fun _ d hset => ?_))))
    · exact ((h₂.withDisk hset.2.1).init_cleared hnode bits).mono (fun _ _ _ => herased)
        fun _ _ h₃ => .inl ⟨herased, h₃⟩
    · exact .inl ⟨herased, (h₂.withDisk hset.2.1).cleared hnode⟩
  · cases hi.symm.trans hnone

/-! ## The whole -/

/-- Making the node anew leaves the bridge clear if it fails. -/
theorem remake_cleared (h : s.Orderly first) (bits : RandomBits) :
    After (do Bridge.close; Bridge.init bits) s
      (fun _ s' => s'.Orderly first ∧ ∃ i, s'.bridge.node = some i)
      (fun _ s' => s'.Cleared first) := by
  refine after_bind (h.close.mono (fun _ s₁ h₁ => ?_) fun _ _ => False.elim)
  obtain ⟨h₁, hb₁, -⟩ := h₁
  have hnode : s₁.bridge.node = none := by rw [hb₁, Bridge.node_forget]
  refine (((h₁.init bits).and (Bridge.after_init h₁.sound bits)).and
    (h₁.init_cleared hnode bits)).mono (fun _ s₂ h₂ => ?_) fun _ _ h₂ => h₂.2
  obtain ⟨⟨h₂, -, id, -, hb₂⟩, -⟩ := h₂
  exact ⟨h₂, _, by rw [hb₂]⟩

/-- Renewing leaves the bridge clear if it fails, unless it is to erase what is stored and fails in
that. -/
theorem renew_cleared (h : s.Orderly first) (reset : Bool) (bits resetBits : RandomBits) :
    After (Bridge.renew reset bits resetBits) s
      (fun _ _ => ¬ (reset = true ∧ s.FailsToErase bits))
      (fun _ s' => ¬ (reset = true ∧ s.FailsToErase bits) ∧ s'.Cleared first ∨
        (reset = true ∧ s.FailsToErase bits) ∧ s'.Stuck) := by
  rw [Bridge.renew_eq]
  refine after_bind (.intro (fun _ s₁ hx => ?_) fun e s₁ hx => ?_)
  · obtain ⟨h₁, i, hi⟩ := (h.remake_cleared bits).of_ok hx
    have hfails : s.FailsToErase bits ↔ succeeds (Host.eraseNode i) s₁.host = false := by
      refine ⟨fun ⟨s₂, j, hx₂, hj, hf⟩ => ?_, fun hf => ⟨s₁, i, hx, hi, hf⟩⟩
      cases hx.symm.trans hx₂
      obtain rfl := Option.some.inj (hi.symm.trans hj)
      exact hf
    cases reset with
    | false => exact after_pure (by simp)
    | true =>
        simp only [hfails, true_and, Bool.not_eq_false]
        exact h₁.startOver_cleared hi resetBits
  · refine .inl ⟨fun ⟨_, s₂, i, hx₂, _⟩ => ?_, (h.remake_cleared bits).of_error hx⟩
    cases hx.symm.trans hx₂

end Site.Orderly

namespace Site

/-- A bridge that could not be initialized, whatever happened to it before and whatever fails: (a)
if making a node fails, the bridge holds nothing, its nodes are all closed and it can be initialized
again; (b) so it is if renewing it fails, whatever part of that fails, except for the erasing of
what is stored; (c) if that fails, renewing fails, and the bridge is left with a closed node and its
unique id, and refuses to be initialized. -/
theorem cleared_unless_erasing (h : Host) (c : BridgeConfig) (as : List Action)
    (hsound : h.disk.tree.Sound) (htidy : ∀ a ∈ as, Tidy a) :
    let s : Site := run ⟨h, { config := c }⟩ as
    (∀ bits e s', s.bridge.node = none → Bridge.init bits s = .error e s' →
        s'.Cleared h.stack.nodes.length) ∧
      (∀ reset bits resetBits e s', Bridge.renew reset bits resetBits s = .error e s' →
        ¬ (reset = true ∧ s.FailsToErase bits) → s'.Cleared h.stack.nodes.length) ∧
      ∀ bits resetBits, s.FailsToErase bits →
        ∃ e s', Bridge.renew true bits resetBits s = .error e s' ∧ s'.Stuck := by
  intro s
  have hs : s.Orderly h.stack.nodes.length := (orderly_new hsound c).run htidy
  refine ⟨fun bits e s' hnode hx => (hs.init_cleared hnode bits).of_error hx,
    fun reset bits resetBits e s' hx hno => ?_, fun bits resetBits hfails => ?_⟩
  · exact ((hs.renew_cleared reset bits resetBits).of_error hx).elim (·.2)
      fun h' => absurd h'.1 hno
  · have hrenew := hs.renew_cleared true bits resetBits
    cases hx : Bridge.renew true bits resetBits s with
    | ok u s' => exact absurd ⟨rfl, hfails⟩ (hrenew.of_ok hx)
    | error e s' =>
        exact ⟨e, s', rfl, (hrenew.of_error hx).elim (fun h' => absurd ⟨rfl, hfails⟩ h'.1) (·.2)⟩

/-- A new bridge on an empty disk, whose thirteenth access to the disk is denied. In a reset that
access would remove the directory of the namespace. -/
def deniedErasure : Site :=
  ⟨{ disk := deniedOnce 12 }, { config := { storagePath := ⟨"s"⟩ } }⟩

/-- If that directory cannot be removed, the bridge is left with a closed node, and the next attempt
to initialize it is refused. -/
theorem stuck_of_denied_erasure :
    ∃ e s', Bridge.renew true ⟨0, 0⟩ ⟨1, 1⟩ deniedErasure = .error e s' ∧ s'.Stuck ∧
      ¬ s'.Cleared 0 := by
  have hx := eq_ok_of_succeeds
    (show succeeds (do Bridge.close; Bridge.init ⟨0, 0⟩) deniedErasure = true by decide +kernel)
  have hfails : deniedErasure.FailsToErase ⟨0, 0⟩ :=
    ⟨_, 0, hx, by decide +kernel, by decide +kernel⟩
  obtain ⟨e, s', hrenew, hstuck⟩ := (cleared_unless_erasing deniedErasure.host
    deniedErasure.bridge.config [] Tree.sound_nil (List.forall_mem_nil _)).2.2 ⟨0, 0⟩ ⟨1, 1⟩ hfails
  exact ⟨e, s', hrenew, hstuck, fun h => h.retriable ⟨0, 0⟩ s' (hstuck.refuses ⟨0, 0⟩)⟩

end Site

end DeviceBridge
