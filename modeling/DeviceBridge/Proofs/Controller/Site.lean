import DeviceBridge.Controller.Node
import DeviceBridge.Proofs.Bridge.Site

/-!
# DeviceBridge.Proofs.Controller.Site

The work of a controller node is made of work on the disk, changes of controllers of the stack and
changes of the node itself. Initializing changes all three, and whether it succeeds or fails, the
disk is as the conversion of the storage leaves it, and of the stack only the list of controllers
has changed (`ControllerNode.after_setUp`).
-/

namespace DeviceBridge

variable {α : Type}

namespace ControllerSite

/-- The controllers of the stack. -/
abbrev controllers (s : ControllerSite) : List StackController := s.host.stack.controllers

/-- The site with other controllers. -/
def withControllers (s : ControllerSite) (cs : List StackController) : ControllerSite :=
  { s with host := { s.host with stack := { s.host.stack with controllers := cs } } }

/-- The site with another disk. -/
def withDisk (s : ControllerSite) (d : Files.Disk) : ControllerSite :=
  { s with host := { s.host with disk := d } }

/-- The controllers of the stack once that of the node is closed. -/
def released (s : ControllerSite) : List StackController :=
  match s.node.controller with
  | some i => s.controllers.modify i StackController.close
  | none => s.controllers

/-- The controller that the stack makes for a storage. -/
def made (s : ControllerSite) (c : Conversion) : StackController where
  environment := ⟨c.outputDir, c.id, s.node.config.networkInterface⟩
  peers := s.host.stack.peers
  startFailure := s.host.stack.startFailure

section
variable (s : ControllerSite) (cs : List StackController) (d : Files.Disk)

@[simp] theorem node_withControllers : (s.withControllers cs).node = s.node := rfl

@[simp] theorem disk_withControllers : (s.withControllers cs).host.disk = s.host.disk := rfl

@[simp] theorem controllers_withControllers : (s.withControllers cs).controllers = cs := rfl

@[simp] theorem stack_withControllers :
    (s.withControllers cs).host.stack = { s.host.stack with controllers := cs } := rfl

@[simp] theorem node_withDisk : (s.withDisk d).node = s.node := rfl

@[simp] theorem stack_withDisk : (s.withDisk d).host.stack = s.host.stack := rfl

@[simp] theorem length_released : s.released.length = s.controllers.length := by
  unfold released
  split
  · exact List.length_modify ..
  · rfl

/-- Every controller but that of the node is as it was. -/
theorem getElem?_released {i : Nat} (hi : s.node.controller ≠ some i) :
    s.released[i]? = s.controllers[i]? := by
  unfold released
  split
  · next j hj =>
    have hne : j ≠ i := by
      rintro rfl
      exact hi hj
    simp [hne]
  · rfl

theorem getElem?_released_self {i : Nat} (hi : s.node.controller = some i) :
    s.released[i]? = s.controllers[i]?.map StackController.close := by
  unfold released
  rw [hi]
  simp

end

end ControllerSite

namespace ControllerNode

variable {s : ControllerSite} {done : α → ControllerSite → Prop}
  {failed : ControllerError → ControllerSite → Prop}

theorem after_onHost {x : EStateM ControllerError Host α}
    (hx : After x s.host (fun a h => done a { s with host := h })
      fun e h => failed e { s with host := h }) : After (onHost x) s done failed :=
  .within id (by unfold onHost; cases x s.host <;> rfl) hx

theorem after_storing {x : Storing α}
    (hx : After x s.host.disk (fun a d => done a (s.withDisk d))
      fun e d => failed (.storage e) (s.withDisk d)) : After (storing x) s done failed :=
  after_onHost (Host.after_storing hx)

theorem after_delegating {operation : String} {wrap : StackError → ControllerError} {x : Hosted α}
    (hx : After x s.host (fun a h => done a { s with host := h })
      fun e h => failed (wrap e) { s with host := h.record operation (.stack e) }) :
    After (delegating operation wrap x) s done failed :=
  after_onHost (.within wrap (by cases x s.host <;> rfl) hx)

/-! ## Changes of controllers -/

/-- A controller that is there is changed, unless it refuses. -/
theorem after_changing_of_getElem? {h : Host} {i : Nat} {c : StackController}
    (hi : h.stack.controllers[i]? = some c)
    {f : StackController → Except StackError (α × StackController)} {done : α → Host → Prop}
    {failed : StackError → Host → Prop}
    (hok : ∀ a c', f c = .ok (a, c') →
      done a { h with stack := { h.stack with controllers := h.stack.controllers.set i c' } })
    (herror : ∀ e, f c = .error e → failed e h) : After (changing i f) h done failed := by
  unfold After changing Stack.onController
  rw [hi]
  dsimp only
  cases hf : f c with
  | error e => exact herror e hf
  | ok r => exact hok r.1 r.2 hf

/-- A controller is changed, unless it refuses or there is none. -/
theorem after_changing {h : Host} {i : Nat}
    {f : StackController → Except StackError (α × StackController)} {done : α → Host → Prop}
    {failed : StackError → Host → Prop}
    (hok : ∀ c a c', h.stack.controllers[i]? = some c → f c = .ok (a, c') →
      done a { h with stack := { h.stack with controllers := h.stack.controllers.set i c' } })
    (herror : ∀ e, failed e h) : After (changing i f) h done failed := by
  cases hi : h.stack.controllers[i]? with
  | some c => exact after_changing_of_getElem? hi (fun a c' => hok c a c' hi) fun e _ => herror e
  | none =>
      unfold After changing Stack.onController
      rw [hi]
      exact herror _

/-- A controller is closed if it is there; nothing else changes. -/
theorem after_closing (i : Nat) (h : Host) :
    Leaves (closing i) h (fun h' => h' = { h with
      stack := { h.stack with
        controllers := h.stack.controllers.modify i StackController.close } }) := by
  cases hi : h.stack.controllers[i]? with
  | some c =>
      refine after_changing_of_getElem? hi (fun _ c' hc => ?_) fun _ hc => by contradiction
      obtain ⟨-, rfl⟩ := Prod.mk.inj (Except.ok.inj hc)
      have hset : h.stack.controllers.set i c.close =
          h.stack.controllers.modify i StackController.close := by
        have hlt : i < h.stack.controllers.length := (List.getElem?_eq_some_iff.mp hi).1
        ext1 j
        rw [List.getElem?_modify, List.getElem?_set]
        by_cases hij : i = j
        · subst hij
          rw [if_pos rfl, if_pos hlt, hi]
          simp
        · simp [hij]
      rw [hset]
  | none =>
      rw [List.modify_eq_self (List.getElem?_eq_none_iff.mp hi)]
      unfold Leaves After closing changing Stack.onController
      rw [hi]

/-- A controller that is given up is closed. -/
theorem abandon_eq (i : Nat) (s : ControllerSite) :
    abandon i s = s.withControllers (s.controllers.modify i StackController.close) := by
  have hstate : abandon i s = { s with host := stateAfter (closing i) s.host } := by
    unfold abandon stateAfter
    cases closing i s.host <;> rfl
  rw [hstate, (after_closing i s.host).stateAfter]
  rfl

theorem release_eq (s : ControllerSite) :
    release s = ControllerSite.withControllers
      { s with node := { s.node with controller := none, store := none } } s.released := by
  unfold release ControllerSite.released
  cases s.node.controller with
  | some i => exact abandon_eq i _
  | none => rfl

/-! ## Initializing -/

/-- What initializing with a storage leaves. -/
structure SetUp (s : ControllerSite) (c : Conversion) (space : Namespace) (s' : ControllerSite) :
    Prop where
  disk : Legacy.convert s.node.config.storageLocation s.host.disk = .ok c s'.host.disk
  found : Namespace.parse c.outputDir c.id = .ok space
  node : s'.node =
    { s.node with controller := some s.controllers.length, store := some ⟨space, storeName⟩ }
  stack : s'.host.stack =
    { s.host.stack with controllers := s.released ++ [{ s.made c with started := true }] }

/-- What initializing leaves when it fails. A controller that has been made is closed. -/
structure NotSetUp (s s' : ControllerSite) : Prop where
  disk : s'.host.disk =
    stateAfter (Legacy.convert s.node.config.storageLocation) s.host.disk
  node : s'.node = { s.node with controller := none, store := none }
  stack : ∃ left, s'.host.stack = { s.host.stack with controllers := s.released ++ left } ∧
    (left = [] ∨ ∃ c, left = [(s.made c).close])

/-- The controller starts, or is closed again. -/
theorem after_launch_or {i : Nat} {c : Conversion} {done : Context → ControllerSite → Prop}
    (h : After (launch i c) s done fun e s' => failed e (abandon i s')) :
    After (fun s =>
        match launch i c s with
        | .ok store s => .ok store s
        | .error e s => .error e (abandon i s)) s done failed := by
  unfold After at h ⊢
  dsimp only
  cases hx : launch i c s with
  | ok store s' => rw [hx] at h; exact h
  | error e s' => rw [hx] at h; exact h

theorem after_convertStorage {done : Conversion → ControllerSite → Prop}
    (hok : ∀ c d, Legacy.convert s.node.config.storageLocation s.host.disk = .ok c d →
      done c (s.withDisk d))
    (herror : ∀ e d, Legacy.convert s.node.config.storageLocation s.host.disk = .error e d →
      failed (.storage e) { s with
        host := Host.record { s.host with disk := d } "initialize" (.storage e) }) :
    After convertStorage s done failed := by
  refine after_bind (after_get (after_onHost ?_))
  have hconvert : After (Host.storing (ε := StorageError) (fun e => e)
      (Legacy.convert s.node.config.storageLocation)) s.host
      (fun c h => done c { s with host := h })
      fun e h => failed (.storage e) { s with host := h.record "initialize" (.storage e) } :=
    Host.after_storing (.intro hok herror)
  exact .within .storage (by cases Host.storing _ _ s.host <;> rfl) hconvert

theorem after_construct (c : Conversion) :
    After (construct c) s
      (fun i s' => i = s.controllers.length ∧ s' = s.withControllers (s.controllers ++ [s.made c]))
      (fun _ s' => s'.node = s.node ∧ s'.host.disk = s.host.disk ∧
        s'.host.stack = s.host.stack) := by
  refine after_bind (after_get (after_bind (after_delegating (Host.after_changing
    (fun stack h => ?_) fun e h => ⟨rfl, rfl, rfl⟩))))
  unfold Stack.createController at h
  split at h
  · contradiction
  · rw [← Except.ok.inj h]
    exact after_pure ⟨rfl, rfl⟩

/-- A controller that has just been made starts unless it is bound to fail; nothing else changes. -/
theorem after_launch {i : Nat} {m : StackController} (hi : s.controllers[i]? = some m)
    (hm : m.closed = false) (c : Conversion) :
    After (launch i c) s
      (fun store s' => ∃ space, Namespace.parse c.outputDir c.id = .ok space ∧
        store = ⟨space, storeName⟩ ∧
        s' = s.withControllers (s.controllers.set i { m with started := true }))
      (fun _ s' => s'.node = s.node ∧ s'.host.disk = s.host.disk ∧
        s'.host.stack = s.host.stack) := by
  refine after_bind (after_storing ?_)
  cases hspace : Namespace.parse c.outputDir c.id with
  | error e => exact after_throw ⟨rfl, rfl, rfl⟩
  | ok space =>
      refine after_pure (after_bind (after_delegating (after_changing_of_getElem? hi
        (fun _ n' hstart => ?_) fun _ _ => ⟨rfl, rfl, rfl⟩)))
      unfold StackController.start at hstart
      cases hf : m.startFailure with
      | some text => rw [hf] at hstart; contradiction
      | none =>
          rw [hf] at hstart
          obtain ⟨-, rfl⟩ := Prod.mk.inj (Except.ok.inj hstart)
          refine after_pure ⟨space, rfl, rfl, ?_⟩
          rw [← hm]
          rfl

/-- Initializing closes the controller of the node, and what it makes is held and started, or closed
and not held. -/
theorem after_setUp (s : ControllerSite) :
    After setUp s (fun _ s' => ∃ c space, SetUp s c space s') (fun _ s' => NotSetUp s s') := by
  refine after_bind (after_modify ?_)
  rw [release_eq]
  refine after_bind (after_convertStorage (fun c d hc => ?_) fun e d hc => ?_)
  · have hdisk : d = stateAfter (Legacy.convert s.node.config.storageLocation) s.host.disk :=
      (stateAfter_eq_of_ok hc).symm
    refine after_bind ((after_construct c).mono (fun i s₁ h₁ => ?_) fun e s₁ h₁ => ?_)
    · obtain ⟨rfl, rfl⟩ := h₁
      refine after_bind (after_launch_or ((after_launch (m := s.made c) ?_ rfl c).mono
        (fun store s₂ h₂ => ?_) fun e s₂ h₂ => ?_))
      · exact List.getElem?_concat_length
      · obtain ⟨space, hspace, rfl, rfl⟩ := h₂
        refine after_modify ⟨c, space, hc, hspace, ?_, ?_⟩
        · simp [ControllerSite.controllers]
        · simp [ControllerSite.controllers, ControllerSite.made]
      · obtain ⟨hnode, hd, hstack⟩ := h₂
        have hclosed : (s.released ++ [s.made c]).modify s.controllers.length
            StackController.close = s.released ++ [(s.made c).close] := by
          rw [← s.length_released, List.modify_eq_take_drop]
          simp
        rw [abandon_eq]
        refine ⟨hd.trans hdisk, hnode, [(s.made c).close], ?_, .inr ⟨c, rfl⟩⟩
        rw [← hclosed]
        simp [hstack, ControllerSite.controllers, ControllerSite.made]
    · obtain ⟨hnode, hd, hstack⟩ := h₁
      exact ⟨hd.trans hdisk, hnode, [], by simp [hstack], .inl rfl⟩
  · exact ⟨(stateAfter_eq_of_error hc).symm, rfl, [], by simp [Host.record, Host.recordAll],
      .inl rfl⟩

/-- However initializing ends, the disk is as the conversion of the storage leaves it. -/
theorem disk_setUp (s : ControllerSite) : Leaves setUp s fun s' => s'.host.disk =
    stateAfter (Legacy.convert s.node.config.storageLocation) s.host.disk := by
  refine (after_setUp s).mono (fun _ s' h => ?_) fun _ _ h => h.disk
  obtain ⟨c, space, h⟩ := h
  exact (stateAfter_eq_of_ok h.disk).symm

end ControllerNode

end DeviceBridge
