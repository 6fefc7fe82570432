import DeviceBridge.Proofs.Controller.Run
import DeviceBridge.Proofs.Dictionary

/-!
# DeviceBridge.Proofs.Controller.Peers

Which peers a controller node reaches. They are those that were there when it was initialized: a
controller keeps the peers that it was made with (`ControllerSite.Bound`), and what the stack knows
of an id is what was added last under it (`ControllerSite.get?_peers_run`).
-/

namespace DeviceBridge

open ControllerNode (setUp getNode commissionedNodes after_delegating after_changing_of_getElem?)

instance : KeyOrder NodeId where
  trans := UInt64.lt_trans
  irrefl a := UInt64.lt_irrefl a.value
  total {a b} hne hlt := by
    have hle : b.value ≤ a.value := UInt64.not_lt.mp hlt
    refine UInt64.lt_of_le_of_ne hle fun heq => hne ?_
    cases a
    cases b
    exact congrArg NodeId.mk heq.symm

/-- The endpoints of the peer that was added last under an id. -/
def lastAdded? (id : NodeId) (as : List ControllerAction) : Option (List PeerEndpoint) :=
  as.reverse.findSome? fun
    | .incident (.addPeer id' devices) => if id' = id then some devices else none
    | _ => none

theorem lastAdded?_cons (id : NodeId) (a : ControllerAction) (as : List ControllerAction) :
    lastAdded? id (a :: as) = (lastAdded? id as).or (lastAdded? id [a]) := by
  unfold lastAdded?
  rw [List.reverse_cons, List.findSome?_append]
  rfl

theorem isSome_lastAdded? {id : NodeId} {as : List ControllerAction} :
    (lastAdded? id as).isSome ↔ ∃ devices, .incident (.addPeer id devices) ∈ as := by
  unfold lastAdded?
  rw [List.findSome?_isSome_iff]
  constructor
  · rintro ⟨a, ha, hsome⟩
    rw [List.mem_reverse] at ha
    split at hsome
    · next id' devices =>
      obtain rfl : id' = id := by simpa using hsome
      exact ⟨devices, ha⟩
    · contradiction
  · rintro ⟨devices, ha⟩
    exact ⟨_, List.mem_reverse.mpr ha, by simp⟩

namespace ControllerSite

variable {s s' : ControllerSite}

/-! ## What the stack knows -/

theorem peers_work (r : ControllerRequest) (s : ControllerSite) :
    Leaves r.work s (fun s' => s'.host.stack.peers = s.host.stack.peers) := by
  cases r with
  | setUp =>
      refine (ControllerNode.after_setUp s).mono (fun _ s' hs => ?_) fun _ s' hs => ?_
      · obtain ⟨c, space, hs⟩ := hs
        rw [hs.stack]
      · obtain ⟨left, hstack, -⟩ := hs.stack
        rw [hstack]
  | close =>
      exact (ControllerNode.after_close s).mono (fun _ s' h => by rw [h.2.2])
        fun _ s' h => by rw [h.2.2]
  | context =>
      exact leaves_discard ((ControllerNode.after_context s).mono (fun _ s' h => by rw [h.1])
        fun _ s' h => by rw [h.1])
  | consult q =>
      refine leaves_discard ((ControllerNode.after_consult q s).mono ?_ ?_)
      all_goals
        rintro - s' ⟨d, rfl⟩
        rfl
  | getNode r options =>
      exact leaves_discard ((ControllerNode.after_getNode r options s).mono
        (fun _ _ h => h.2.2) fun _ _ h => h.2.2)
  | commissionedNodes =>
      exact leaves_discard ((ControllerNode.after_commissionedNodes s).mono
        (fun _ _ h => h ▸ rfl) fun _ _ h => h ▸ rfl)

theorem peers_act (s : ControllerSite) (a : ControllerAction) :
    (s.act a).host.stack.peers =
      match a with
      | .incident (.addPeer id devices) => s.host.stack.peers.insert id devices
      | _ => s.host.stack.peers := by
  cases a with
  | request r => exact (peers_work r s).stateAfter
  | incident i => cases i <;> rfl
  | outside t => rfl

/-- A peer is known by its last addition. -/
theorem get?_peers_run (s : ControllerSite) (as : List ControllerAction) (id : NodeId) :
    (s.run as).host.stack.peers.get? id = (lastAdded? id as).or (s.host.stack.peers.get? id) := by
  induction as generalizing s with
  | nil => rfl
  | cons a as ih =>
      have hact : (s.act a).host.stack.peers.get? id =
          (lastAdded? id [a]).or (s.host.stack.peers.get? id) := by
        rw [peers_act]
        unfold lastAdded?
        split
        · next id' devices =>
          rw [Dictionary.get?_insert]
          by_cases hid : id = id'
          · simp [hid]
          · simp [hid, Ne.symm hid]
        · simp
      rw [run_cons, ih, lastAdded?_cons, Option.or_assoc, hact]

theorem ordered_peers_run (h : s.host.stack.peers.Ordered) (as : List ControllerAction) :
    (s.run as).host.stack.peers.Ordered := by
  have hact (s : ControllerSite) (a : ControllerAction) (hs : s.host.stack.peers.Ordered) :
      (s.act a).host.stack.peers.Ordered := by
    rw [peers_act]
    split
    · exact hs.insert _ _
    · exact hs
  exact run_preserves (fun s a _ => hact s a) h

/-! ## What a node is bound to -/

/-- A node holds a controller with these peers, started under a condition. -/
def Bound (peers : Peers) (running : Prop) (s : ControllerSite) : Prop :=
  ∃ i c, s.node.controller = some i ∧ s.controllers[i]? = some c ∧ c.peers = peers ∧
    (c.started = true ↔ running)

section
variable {peers : Peers} {running : Prop}

theorem bound_of_setUp {c : Conversion} {space : Namespace}
    (h : ControllerNode.SetUp s c space s') : Bound s.host.stack.peers True s' := by
  refine ⟨s.controllers.length, { s.made c with started := true }, by rw [h.node], ?_, rfl, ?_⟩
  · rw [controllers, h.stack]
    simp
  · simp

/-- Closing stops the controller, which stays; nothing else but initializing matters. -/
theorem Bound.act (h : Bound peers running s) {a : ControllerAction} (ha : a ≠ .request .setUp) :
    Bound peers (running ∧ a ≠ .request .close) (s.act a) := by
  obtain ⟨i, c, hi, hc, rfl, hrun⟩ := h
  by_cases hclose : a = .request .close
  · subst hclose
    obtain ⟨hnode, -, hstack⟩ := (ControllerNode.after_close s).stateAfter
    refine ⟨i, c.close, hnode ▸ hi, ?_, rfl, by simp [StackController.close]⟩
    have hclosed : s.released[i]? = some c.close := by
      rw [getElem?_released_self s hi, hc]
      rfl
    rw [← hclosed]
    exact congrArg (·.controllers[i]?) hstack
  · have hu := unmoved_act ha hclose s
    obtain ⟨c', hc', hbare⟩ := hu.symm.exists_of_getElem? hc
    have hpeers : c'.peers = c.peers := congrArg (·.peers) hbare.symm
    have hstarted : c'.started = c.started := congrArg (·.started) hbare.symm
    refine ⟨i, c', hu.node ▸ hi, hc', hpeers, ?_⟩
    rw [hstarted, hrun]
    exact (and_iff_left hclose).symm

theorem Bound.run (h : Bound peers running s) {as : List ControllerAction}
    (has : .request .setUp ∉ as) : Bound peers (running ∧ .request .close ∉ as) (s.run as) := by
  induction as generalizing s running with
  | nil => simpa using h
  | cons a as ih =>
      rw [List.mem_cons, not_or] at has
      have hrest := ih (h.act (Ne.symm has.1)) has.2
      have hclose : (running ∧ .request .close ∉ a :: as) ↔
          (running ∧ a ≠ .request .close) ∧ .request .close ∉ as := by
        rw [List.mem_cons, not_or, and_assoc, ne_comm]
      rwa [run_cons, hclose]

/-- A node without a controller stays without one until it is initialized. -/
theorem unheld_run (h : s.node.controller = none) {as : List ControllerAction}
    (has : .request .setUp ∉ as) : (s.run as).node.controller = none := by
  have hact (s : ControllerSite) {a : ControllerAction} (ha : a ∈ as)
      (hs : s.node.controller = none) : (s.act a).node.controller = none := by
    by_cases hclose : a = .request .close
    · subst hclose
      exact (ControllerNode.after_close s).stateAfter.1 ▸ hs
    · exact (unmoved_act (fun h => has (h ▸ ha)) hclose s).node ▸ hs
  exact run_preserves (fun s a ha => hact s ha) h

/-! ## Answers -/

theorem getNode_of_unheld (h : s.node.controller = none) (r : NodeRef)
    (options : Option ConnectOptions) :
    outcome (getNode r options) s = .error .notInitialized := by
  refine (after_bind (after_get ?_)).outcome_eq
  rw [h]
  exact after_throw rfl

theorem commissionedNodes_of_unheld (h : s.node.controller = none) :
    outcome commissionedNodes s = .ok [] := by
  refine (after_bind (after_get ?_)).outcome_eq
  rw [h]
  exact after_pure rfl

/-- What a node answers that holds a controller. -/
theorem Bound.getNode_eq (h : Bound peers running s) (r : NodeRef)
    (options : Option ConnectOptions) :
    (∀ e, r.resolve = .error e →
        outcome (getNode r options) s = .error (.invalidNodeId e)) ∧
      (∀ id, r.resolve = .ok id → ¬ running →
        outcome (getNode r options) s = .error (.stack .controllerNotStarted)) ∧
      (∀ id, r.resolve = .ok id → running → outcome (getNode r options) s =
        match peers.get? id with
        | some devices => .ok ⟨id, devices⟩
        | none => .error (.notConnected r)) := by
  obtain ⟨i, c, hi, hc, rfl, hrun⟩ := h
  refine ⟨fun e hr => ?_, fun id hr hstopped => ?_, fun id hr hrunning => ?_⟩
  all_goals
    refine (after_bind (after_get ?_)).outcome_eq
    rw [hi]
    dsimp only
    rw [hr]
  · exact after_throw rfl
  · have hconnect : c.connect id options = .error .controllerNotStarted :=
      if_neg fun h => hstopped (hrun.mp h)
    refine after_bind (after_delegating (after_changing_of_getElem? hc (fun _ _ hok => ?_)
      fun e herror => ?_))
    · rw [hconnect] at hok
      contradiction
    · rw [hconnect] at herror
      rw [← Except.error.inj herror]
  · have hconnect : c.connect id options =
        .ok (c.peers.get? id, { c with lastOptions := options }) := if_pos (hrun.mpr hrunning)
    refine after_bind (after_delegating (after_changing_of_getElem? hc (fun devices? _ hok => ?_)
      fun e herror => ?_))
    · rw [hconnect] at hok
      obtain ⟨rfl, -⟩ := Prod.mk.inj (Except.ok.inj hok)
      cases c.peers.get? id with
      | some devices => exact after_pure rfl
      | none => exact after_throw rfl
    · rw [hconnect] at herror
      contradiction

theorem Bound.commissionedNodes_eq (h : Bound peers running s) :
    outcome commissionedNodes s = .ok peers.keys := by
  obtain ⟨i, c, hi, hc, rfl, -⟩ := h
  refine (after_bind (after_get ?_)).outcome_eq
  rw [hi]
  dsimp only
  rw [hc]
  exact after_pure rfl

end

end ControllerSite

/-! ## How a node is named -/

/-- The refusal without the text by which a node was asked for. -/
def ControllerError.withoutText : ControllerError → ControllerError
  | .notConnected _ => .notConnected (.text "")
  | .invalidNodeId _ => .invalidNodeId ⟨""⟩
  | e => e

/-- What is done for a request for a node, by what the node holds and whom the request names. -/
theorem ControllerNode.getNode_apply (r : NodeRef) (options : Option ConnectOptions)
    (s : ControllerSite) : getNode r options s =
      (match s.node.controller with
      | none => throw .notInitialized
      | some i =>
        match r.resolve with
        | .error e => throw (.invalidNodeId e)
        | .ok id => delegating "getNode" .stack (changing i (·.connect id options)) >>= fun
          | some devices => pure ⟨id, devices⟩
          | none => throw (.notConnected r) : Controlling Peer) s := rfl

/-- Names of the same node are as good as each other, and so are names of none. -/
theorem ControllerNode.getNode_congr {r r' : NodeRef}
    (h : r.resolve.toOption = r'.resolve.toOption) (options : Option ConnectOptions)
    (s : ControllerSite) :
    (outcome (getNode r options) s).mapError ControllerError.withoutText =
        (outcome (getNode r' options) s).mapError ControllerError.withoutText ∧
      stateAfter (getNode r options) s = stateAfter (getNode r' options) s := by
  unfold outcome stateAfter
  rw [getNode_apply, getNode_apply]
  cases s.node.controller with
  | none => exact ⟨rfl, rfl⟩
  | some i =>
      cases hr : r.resolve with
      | error e =>
          rw [hr] at h
          cases hr' : r'.resolve with
          | error e' => exact ⟨rfl, rfl⟩
          | ok id => rw [hr'] at h; cases h
      | ok id =>
          rw [hr] at h
          rw [eq_ok_of_toOption h.symm]
          dsimp only
          cases hx : delegating "getNode" .stack (changing i (·.connect id options)) s with
          | error e s' =>
              rw [bind_eq_of_error hx, bind_eq_of_error hx]
              exact ⟨rfl, rfl⟩
          | ok devices? s' =>
              rw [bind_eq_of_ok hx, bind_eq_of_ok hx]
              cases devices? <;> exact ⟨rfl, rfl⟩

/-- What a node that was new before the stack knew of any peer answers after a run in which it was
initialized for the last time between two parts, or in the first part alone. A node that holds no
controller, because it was never initialized or that failed last, knows nothing. One that holds a
controller knows of the ids added before it was initialized, each with the endpoints added last, and
connects to them until it is closed; the form in which an id is given does not matter. -/
theorem peers_reached (h : Host) (hpeers : h.stack.peers = []) (config : ControllerConfig)
    (before after : List ControllerAction) (hafter : .request .setUp ∉ after)
    (r : NodeRef) (options : Option ConnectOptions) :
    let new : ControllerSite := ⟨h, { config := config }⟩
    let s := new.run (before ++ .request .setUp :: after)
    (outcome (getNode r options) (new.run after) = .error .notInitialized ∧
        outcome commissionedNodes (new.run after) = .ok []) ∧
      (succeeds setUp (new.run before) = false →
        outcome (getNode r options) s = .error .notInitialized ∧
          outcome commissionedNodes s = .ok []) ∧
      (succeeds setUp (new.run before) = true →
        (∀ e, r.resolve = .error e → outcome (getNode r options) s = .error (.invalidNodeId e)) ∧
        (∀ id, r.resolve = .ok id → .request .close ∈ after →
          outcome (getNode r options) s = .error (.stack .controllerNotStarted)) ∧
        (∀ id, r.resolve = .ok id → .request .close ∉ after →
          outcome (getNode r options) s =
            match lastAdded? id before with
            | some devices => .ok ⟨id, devices⟩
            | none => .error (.notConnected r)) ∧
        ∃ ids, outcome commissionedNodes s = .ok ids ∧ ids.Pairwise (· < ·) ∧
          ∀ id, id ∈ ids ↔ ∃ devices, .incident (.addPeer id devices) ∈ before) ∧
      ∀ r', r.resolve.toOption = r'.resolve.toOption →
        (outcome (getNode r options) s).mapError ControllerError.withoutText =
            (outcome (getNode r' options) s).mapError ControllerError.withoutText ∧
          stateAfter (getNode r options) s = stateAfter (getNode r' options) s := by
  intro new s
  have hs : s = ((new.run before).act (.request .setUp)).run after := by
    rw [← ControllerSite.run_cons, ← ControllerSite.run_append]
  have hunheld {s' : ControllerSite} (h : s'.node.controller = none) :
      outcome (getNode r options) (s'.run after) = .error .notInitialized ∧
        outcome commissionedNodes (s'.run after) = .ok [] := by
    have hrun := ControllerSite.unheld_run h hafter
    exact ⟨ControllerSite.getNode_of_unheld hrun r options,
      ControllerSite.commissionedNodes_of_unheld hrun⟩
  have hsetUp := ControllerNode.after_setUp (new.run before)
  refine ⟨hunheld rfl, fun hfailed => ?_, fun hok => ?_, fun r' hr =>
    ControllerNode.getNode_congr hr options s⟩
  · obtain ⟨e, herror⟩ := eq_error_of_not_succeeds hfailed
    rw [hs]
    refine hunheld ?_
    have hnode := (hsetUp.of_error herror).node
    exact congrArg ControllerNode.controller hnode
  · obtain ⟨c, space, hdone⟩ := hsetUp.of_ok (eq_ok_of_succeeds hok)
    have hbound := (ControllerSite.bound_of_setUp hdone).run hafter
    have hget (id : NodeId) : (new.run before).host.stack.peers.get? id = lastAdded? id before := by
      rw [ControllerSite.get?_peers_run, hpeers]
      exact Option.or_none
    have hordered : (new.run before).host.stack.peers.Ordered := by
      refine ControllerSite.ordered_peers_run ?_ before
      rw [hpeers]
      exact List.Pairwise.nil
    obtain ⟨hinvalid, hstopped, hrunning⟩ := hbound.getNode_eq r options
    rw [hs]
    refine ⟨hinvalid, fun id hr hclose => hstopped id hr fun h => h.2 hclose,
      fun id hr hclose => ?_, _, hbound.commissionedNodes_eq, hordered.keys, fun id => ?_⟩
    · rw [← hget]
      exact hrunning id hr ⟨trivial, hclose⟩
    · rw [Dictionary.mem_keys_iff, hget, isSome_lastAdded?]

/-- A node is added, and added again with an endpoint. -/
def addedTwice : List ControllerAction :=
  [.incident (.addPeer ⟨42⟩ []), .incident (.addPeer ⟨7⟩ []),
    .incident (.addPeer ⟨42⟩ [.mk 0 1 []])]

theorem peers_reached_of_addedTwice :
    let s := ControllerSite.run ⟨{}, { config := {} }⟩
      (addedTwice ++ .request .setUp :: [.incident (.addPeer ⟨9⟩ [])])
    outcome (getNode (.text " 0x2An") none) s = .ok ⟨⟨42⟩, [.mk 0 1 []]⟩ ∧
      outcome (getNode (.number 9) none) s = .error (.notConnected (.number 9)) := by
  have hafter : ControllerAction.request .setUp ∉ [.incident (.addPeer ⟨9⟩ [])] := by simp
  have hclose : ControllerAction.request .close ∉ [.incident (.addPeer ⟨9⟩ [])] := by simp
  have hok : succeeds setUp (ControllerSite.run ⟨{}, { config := {} }⟩ addedTwice) = true := by
    decide +kernel
  have hreached (r : NodeRef) :=
    ((peers_reached {} rfl {} addedTwice _ hafter r none).2.2.1 hok).2.2.1
  exact ⟨hreached (.text " 0x2An") ⟨42⟩ (eq_ok_of_toOption (by decide +kernel)) hclose,
    hreached (.number 9) ⟨9⟩ rfl hclose⟩

end DeviceBridge
