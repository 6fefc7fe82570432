import DeviceBridge.Proofs.Controller.Site
import DeviceBridge.Proofs.Storage.Retention

/-!
# DeviceBridge.Proofs.Controller.Run

Runs of a controller node: what it is asked to do, what happens to the stack without it, and what
somebody else does to the files, in any order. `ControllerSite.act` is one step of a run,
`ControllerSite.run` a whole one. Only initializing and closing reach further than the options of a
last connection (`ControllerSite.unmoved_act`).
-/

namespace DeviceBridge

open Files (Tree)

/-- Asks the store. -/
def ControllerNode.consult (q : ContextRequest) : Controlling StorageAnswer := do
  let c ← context
  storing (q.of c).perform

/-- What a controller node is asked to do. -/
inductive ControllerRequest where
  | setUp
  | close
  | context
  | consult (q : ContextRequest)
  | getNode (r : NodeRef) (options : Option ConnectOptions)
  | commissionedNodes

/-- The work that a request asks for. -/
def ControllerRequest.work : ControllerRequest → Controlling Unit
  | setUp => ControllerNode.setUp
  | close => ControllerNode.close
  | context => discard ControllerNode.context
  | consult q => discard (ControllerNode.consult q)
  | getNode r options => discard (ControllerNode.getNode r options)
  | commissionedNodes => discard ControllerNode.commissionedNodes

/-- What happens to the stack without the node. -/
inductive StackIncident where
  | addPeer (id : NodeId) (devices : List PeerEndpoint)
  /-- From now on controllers are refused, or made again. -/
  | refuseControllers (refuses : Bool)
  /-- Controllers made from now on will not start, or they will again. -/
  | failStarts (text? : Option String)

/-- What an incident does. -/
def StackIncident.change (s : Stack) : StackIncident → Stack
  | addPeer id devices => s.addPeer id devices
  | refuseControllers refuses => { s with refusesControllers := refuses }
  | failStarts text? => { s with startFailure := text? }

/-- One step of a run. -/
inductive ControllerAction where
  | request (r : ControllerRequest)
  | incident (i : StackIncident)
  /-- Somebody else changes the files. -/
  | outside (t : Tree)

/-- The controller without the options of its last connection. -/
def StackController.bare (c : StackController) : StackController := { c with lastOptions := none }

namespace ControllerSite

/-- The site after one step. -/
def act (s : ControllerSite) : ControllerAction → ControllerSite
  | .request r => stateAfter r.work s
  | .incident i => { s with host := { s.host with stack := i.change s.host.stack } }
  | .outside t => s.withDisk { s.host.disk with tree := t }

/-- The site after a run. -/
def run (s : ControllerSite) (as : List ControllerAction) : ControllerSite := as.foldl act s

variable {s s' : ControllerSite}

@[simp] theorem run_nil (s : ControllerSite) : s.run [] = s := rfl

@[simp] theorem run_cons (s : ControllerSite) (a : ControllerAction)
    (as : List ControllerAction) : s.run (a :: as) = (s.act a).run as := rfl

@[simp] theorem run_append (s : ControllerSite) (as bs : List ControllerAction) :
    s.run (as ++ bs) = (s.run as).run bs := List.foldl_append

/-- What every step preserves holds after the run. -/
theorem run_preserves {holds : ControllerSite → Prop} {as : List ControllerAction}
    (hstep : ∀ s, ∀ a ∈ as, holds s → holds (s.act a)) (hs : holds s) : holds (s.run as) := by
  induction as generalizing s with
  | nil => exact hs
  | cons a as ih =>
      exact ih (fun s b hb => hstep s b (List.mem_cons_of_mem a hb))
        (hstep s a List.mem_cons_self hs)

/-! ## Steps that change neither the node nor what its controllers are -/

/-- From one site to another the node stays as it is, and so do the controllers, but for the options
of their last connections. -/
structure Unmoved (s s' : ControllerSite) : Prop where
  node : s'.node = s.node
  controllers : s'.controllers.map StackController.bare = s.controllers.map StackController.bare

namespace Unmoved

theorem of_eq (hnode : s'.node = s.node) (hcontrollers : s'.controllers = s.controllers) :
    Unmoved s s' := ⟨hnode, congrArg _ hcontrollers⟩

theorem symm (h : Unmoved s s') : Unmoved s' s := ⟨h.node.symm, h.controllers.symm⟩

theorem length (h : Unmoved s s') : s'.controllers.length = s.controllers.length := by
  have hlen := congrArg List.length h.controllers
  rwa [List.length_map, List.length_map] at hlen

/-- A controller is what it was. -/
theorem exists_of_getElem? (h : Unmoved s s') {i : Nat} {c' : StackController}
    (hc : s'.controllers[i]? = some c') : ∃ c, s.controllers[i]? = some c ∧ c'.bare = c.bare := by
  have hi := congrArg (·[i]?) h.controllers
  simp only [List.getElem?_map, hc, Option.map_some] at hi
  obtain ⟨c, hsome, heq⟩ := Option.map_eq_some_iff.mp hi.symm
  exact ⟨c, hsome, heq.symm⟩

end Unmoved

end ControllerSite

namespace ControllerNode

variable {s : ControllerSite}

/-- Closing the controller of the node does nothing else. -/
theorem after_close (s : ControllerSite) :
    Leaves close s (fun s' => s'.node = s.node ∧ s'.host.disk = s.host.disk ∧
      s'.host.stack = { s.host.stack with controllers := s.released }) := by
  refine after_bind (after_get ?_)
  unfold ControllerSite.released
  cases s.node.controller with
  | none => exact after_pure ⟨rfl, rfl, rfl⟩
  | some i =>
      exact after_delegating ((after_closing i s.host).mono
        (fun _ h hh => by rw [hh]; exact ⟨rfl, rfl, rfl⟩)
        fun _ h hh => by rw [hh]; exact ⟨rfl, rfl, rfl⟩)

theorem after_getNode (r : NodeRef) (options : Option ConnectOptions) (s : ControllerSite) :
    Leaves (getNode r options) s (fun s' => s.Unmoved s' ∧ s'.host.disk = s.host.disk ∧
      s'.host.stack.peers = s.host.stack.peers) := by
  have hsame {s' : ControllerSite} (h : s'.node = s.node ∧ s'.host.disk = s.host.disk ∧
      s'.host.stack = s.host.stack) : s.Unmoved s' ∧ s'.host.disk = s.host.disk ∧
      s'.host.stack.peers = s.host.stack.peers := by
    obtain ⟨hnode, hd, hstack⟩ := h
    exact ⟨.of_eq hnode (congrArg Stack.controllers hstack), hd, congrArg Stack.peers hstack⟩
  refine after_bind (after_get ?_)
  cases s.node.controller with
  | none => exact after_throw (hsame ⟨rfl, rfl, rfl⟩)
  | some i =>
      cases r.resolve with
      | error e => exact after_throw (hsame ⟨rfl, rfl, rfl⟩)
      | ok id =>
          refine after_bind (after_delegating (after_changing (fun c devices c' hi hc => ?_)
            fun _ => hsame ⟨rfl, rfl, rfl⟩))
          have hbare : c'.bare = c.bare := by
            unfold StackController.connect at hc
            split at hc
            · obtain ⟨-, rfl⟩ := Prod.mk.inj (Except.ok.inj hc)
              rfl
            · contradiction
          have hset : (s.controllers.set i c').map StackController.bare =
              s.controllers.map StackController.bare := by
            obtain ⟨_, hc⟩ := List.getElem?_eq_some_iff.mp hi
            rw [List.map_set, hbare, ← List.map_set, ← hc, List.set_getElem_self]
          cases devices with
          | some devices => exact after_pure ⟨⟨rfl, hset⟩, rfl, rfl⟩
          | none => exact after_throw ⟨⟨rfl, hset⟩, rfl, rfl⟩

theorem after_commissionedNodes (s : ControllerSite) :
    Leaves commissionedNodes s (fun s' => s' = s) := by
  refine after_bind (after_get ?_)
  cases s.node.controller with
  | none => exact after_pure rfl
  | some i =>
      dsimp only
      cases s.host.stack.controllers[i]? with
      | none => exact after_pure rfl
      | some c => exact after_pure rfl

/-- The store is handed out if it is there. -/
theorem context_eq (s : ControllerSite) : context s =
    match s.node.store with
    | some c => .ok c s
    | none => .error .storageUninitialized s := by
  have hget : context s = (match s.node.store with
    | some c => pure c
    | none => throw .storageUninitialized : Controlling Context) s := rfl
  rw [hget]
  cases s.node.store <;> rfl

theorem succeeds_context (s : ControllerSite) : succeeds context s = s.node.store.isSome := by
  unfold succeeds
  rw [context_eq]
  cases s.node.store <;> rfl

theorem after_context (s : ControllerSite) :
    After context s (fun c s' => s' = s ∧ s.node.store = some c)
      (fun _ s' => s' = s ∧ s.node.store = none) := by
  unfold After
  rw [context_eq]
  cases s.node.store with
  | some c => exact ⟨rfl, rfl⟩
  | none => exact ⟨rfl, rfl⟩

/-- Asking the store is asking the storage for one document. -/
theorem consult_of_store {c : Context} (hc : s.node.store = some c) (q : ContextRequest) :
    consult q s =
      match (q.of c).perform s.host.disk with
      | .ok a d => .ok a (s.withDisk d)
      | .error e d => .error (.storage e) (s.withDisk d) := by
  have hcontext : context s = .ok c s := by rw [context_eq, hc]
  have hconsult : consult q s = storing (q.of c).perform s := bind_eq_of_ok hcontext
  rw [hconsult]
  unfold storing onHost Host.storing
  cases (q.of c).perform s.host.disk <;> rfl

theorem consult_of_none (hc : s.node.store = none) (q : ContextRequest) :
    consult q s = .error .storageUninitialized s := by
  have hcontext : context s = .error .storageUninitialized s := by rw [context_eq, hc]
  exact bind_eq_of_error hcontext

theorem after_consult_of_store {c : Context} (hc : s.node.store = some c) {q : ContextRequest}
    {done : StorageAnswer → ControllerSite → Prop}
    {failed : ControllerError → ControllerSite → Prop}
    (hx : After (q.of c).perform s.host.disk (fun a d => done a (s.withDisk d))
      fun e d => failed (.storage e) (s.withDisk d)) : After (consult q) s done failed := by
  unfold After at hx ⊢
  rw [consult_of_store hc]
  cases hp : (q.of c).perform s.host.disk with
  | ok a d => rw [hp] at hx; exact hx
  | error e d => rw [hp] at hx; exact hx

theorem succeeds_consult {c : Context} (hc : s.node.store = some c) (q : ContextRequest) :
    succeeds (consult q) s = succeeds (q.of c).perform s.host.disk := by
  unfold succeeds
  rw [consult_of_store hc]
  cases (q.of c).perform s.host.disk <;> rfl

/-- Asking the store changes the disk only. -/
theorem after_consult (q : ContextRequest) (s : ControllerSite) :
    Leaves (consult q) s (fun s' => ∃ d, s' = s.withDisk d) := by
  cases hc : s.node.store with
  | none =>
      unfold Leaves After
      rw [consult_of_none hc]
      exact ⟨s.host.disk, rfl⟩
  | some c => exact after_consult_of_store hc (.intro (fun _ d _ => ⟨d, rfl⟩) fun _ d _ => ⟨d, rfl⟩)

/-- Without a store there is nothing to ask; else the disk is as the storage leaves it. -/
theorem disk_consult (q : ContextRequest) (s : ControllerSite) :
    Leaves (consult q) s fun s' => s'.host.disk =
      match s.node.store with
      | none => s.host.disk
      | some c => stateAfter (q.of c).perform s.host.disk := by
  cases hc : s.node.store with
  | none =>
      unfold Leaves After
      rw [consult_of_none hc]
  | some c =>
      exact after_consult_of_store hc (.intro (fun _ _ hx => (stateAfter_eq_of_ok hx).symm)
        fun _ _ hx => (stateAfter_eq_of_error hx).symm)

end ControllerNode

/-! ## One step -/

namespace ControllerSite

/-- Of all requests only initializing and closing reach further than the options of a connection. -/
theorem unmoved_work {r : ControllerRequest} (hsetUp : r ≠ .setUp) (hclose : r ≠ .close)
    (s : ControllerSite) : Leaves r.work s s.Unmoved := by
  cases r with
  | setUp => exact absurd rfl hsetUp
  | close => exact absurd rfl hclose
  | context =>
      exact leaves_discard ((ControllerNode.after_context s).mono
        (fun _ _ h => h.1 ▸ .of_eq rfl rfl) fun _ _ h => h.1 ▸ .of_eq rfl rfl)
  | consult q =>
      refine leaves_discard ((ControllerNode.after_consult q s).mono ?_ ?_)
      all_goals
        rintro - s' ⟨d, rfl⟩
        exact .of_eq rfl rfl
  | getNode r options =>
      exact leaves_discard ((ControllerNode.after_getNode r options s).mono
        (fun _ _ h => h.1) fun _ _ h => h.1)
  | commissionedNodes =>
      exact leaves_discard ((ControllerNode.after_commissionedNodes s).mono
        (fun _ _ h => h ▸ .of_eq rfl rfl) fun _ _ h => h ▸ .of_eq rfl rfl)

/-- Only initializing and asking the store have to do with the disk. -/
theorem disk_work {r : ControllerRequest} (hsetUp : r ≠ .setUp) (hconsult : ∀ q, r ≠ .consult q)
    (s : ControllerSite) : Leaves r.work s fun s' => s'.host.disk = s.host.disk := by
  cases r with
  | setUp => exact absurd rfl hsetUp
  | consult q => exact absurd rfl (hconsult q)
  | close =>
      exact (ControllerNode.after_close s).mono (fun _ _ h => h.2.1) fun _ _ h => h.2.1
  | context =>
      exact leaves_discard ((ControllerNode.after_context s).mono
        (fun _ _ h => h.1 ▸ rfl) fun _ _ h => h.1 ▸ rfl)
  | getNode r options =>
      exact leaves_discard ((ControllerNode.after_getNode r options s).mono
        (fun _ _ h => h.2.1) fun _ _ h => h.2.1)
  | commissionedNodes =>
      exact leaves_discard ((ControllerNode.after_commissionedNodes s).mono
        (fun _ _ h => h ▸ rfl) fun _ _ h => h ▸ rfl)

theorem unmoved_act {a : ControllerAction} (hsetUp : a ≠ .request .setUp)
    (hclose : a ≠ .request .close) (s : ControllerSite) : s.Unmoved (s.act a) := by
  cases a with
  | request r =>
      exact (unmoved_work (fun h => hsetUp (h ▸ rfl)) (fun h => hclose (h ▸ rfl)) s).stateAfter
  | incident i => cases i <;> exact .of_eq rfl rfl
  | outside t => exact .of_eq rfl rfl

end ControllerSite

end DeviceBridge
