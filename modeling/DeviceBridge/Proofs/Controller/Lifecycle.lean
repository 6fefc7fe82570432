import DeviceBridge.Proofs.Controller.Run
import DeviceBridge.Proofs.Storage.Staging

/-!
# DeviceBridge.Proofs.Controller.Lifecycle

Which controllers a node leaves running. Whatever a node is asked for, with any content at its
location and a disk and a stack that may refuse, it has a store exactly if it holds a controller,
and every other controller that it has made is closed (`ControllerSite.Custody`). An initialization
that succeeds holds the newest controller, which is started and bound to the namespace of the store;
one that fails holds none (`controller_custody`).
-/

namespace DeviceBridge

open ControllerNode (context setUp)

namespace ControllerSite

/-- A node that was new when the stack had made some controllers answers for all that have been made
since: but for the one that it holds they are closed. -/
structure Custody (first : Nat) (s : ControllerSite) : Prop where
  le_length : first ≤ s.controllers.length
  store : s.node.store.isSome = s.node.controller.isSome
  stopped : ∀ i c, first ≤ i → s.controllers[i]? = some c → s.node.controller ≠ some i →
    c.closed = true ∧ c.started = false

namespace Custody

variable {first : Nat} {s s' : ControllerSite}

/-- Once the controller of the node is closed, all are. -/
theorem stopped_released (h : Custody first s) {i : Nat} {c : StackController} (hfirst : first ≤ i)
    (hc : s.released[i]? = some c) : c.closed = true ∧ c.started = false := by
  by_cases hi : s.node.controller = some i
  · rw [getElem?_released_self s hi] at hc
    obtain ⟨c', -, rfl⟩ := Option.map_eq_some_iff.mp hc
    exact ⟨rfl, rfl⟩
  · rw [getElem?_released s hi] at hc
    exact h.stopped i c hfirst hc hi

/-- Only the controller that the node holds can be running. -/
theorem held_of_started (h : Custody first s) {i : Nat} {c : StackController} (hfirst : first ≤ i)
    (hc : s.controllers[i]? = some c) (hrun : c.started = true) : s.node.controller = some i := by
  refine Decidable.byContradiction fun hne => ?_
  have hstopped := (h.stopped i c hfirst hc hne).2
  rw [hrun] at hstopped
  contradiction

theorem unmoved (h : Custody first s) (hu : s.Unmoved s') : Custody first s' := by
  refine ⟨hu.length ▸ h.le_length, hu.node ▸ h.store, fun i c' hfirst hc' hi => ?_⟩
  obtain ⟨c, hc, hbare⟩ := hu.exists_of_getElem? hc'
  have hclosed : c'.closed = c.closed := congrArg (·.closed) hbare
  have hstarted : c'.started = c.started := congrArg (·.started) hbare
  rw [hclosed, hstarted]
  exact h.stopped i c hfirst hc (hu.node ▸ hi)

/-- The controller of the node is closed, and one more is made at most, which is held or closed. -/
theorem replace (h : Custody first s) (left : List StackController)
    (hcontrollers : s'.controllers = s.released ++ left) (hone : left.length ≤ 1)
    (hstore : s'.node.store.isSome = s'.node.controller.isSome)
    (hleft : ∀ c ∈ left, s'.node.controller ≠ some s.controllers.length →
      c.closed = true ∧ c.started = false) : Custody first s' := by
  refine ⟨?_, hstore, fun i c hfirst hc hi => ?_⟩
  · have := h.le_length
    rw [hcontrollers, List.length_append, length_released]
    omega
  · rw [hcontrollers, List.getElem?_append] at hc
    split at hc
    · exact h.stopped_released hfirst hc
    · next hlt =>
      rw [length_released] at hlt hc
      have hbound := (List.getElem?_eq_some_iff.mp hc).1
      have hnewest : i = s.controllers.length := by omega
      exact hleft c (List.mem_of_getElem? hc) (hnewest ▸ hi)

theorem close (h : Custody first s) : Leaves ControllerNode.close s (Custody first) := by
  have hleft (s' : ControllerSite) (hs : s'.node = s.node ∧ s'.host.disk = s.host.disk ∧
      s'.host.stack = { s.host.stack with controllers := s.released }) : Custody first s' := by
    obtain ⟨hnode, -, hstack⟩ := hs
    refine h.replace [] ?_ (Nat.zero_le 1) (hnode ▸ h.store) (by simp)
    rw [controllers, hstack, List.append_nil]
  exact (ControllerNode.after_close s).mono (fun _ => hleft) fun _ => hleft

theorem setUp (h : Custody first s) : Leaves ControllerNode.setUp s (Custody first) := by
  refine (ControllerNode.after_setUp s).mono (fun _ s' hs => ?_) fun _ s' hs => ?_
  · obtain ⟨c, space, hs⟩ := hs
    refine h.replace [{ s.made c with started := true }] ?_ (Nat.le_refl 1) ?_ ?_
    · rw [controllers, hs.stack]
    · rw [hs.node]
      rfl
    · exact fun _ _ hne => absurd (by rw [hs.node]) hne
  · obtain ⟨left, hstack, hleft⟩ := hs.stack
    refine h.replace left ?_ ?_ ?_ ?_
    · rw [controllers, hstack]
    · obtain rfl | ⟨c, rfl⟩ := hleft <;> simp
    · rw [hs.node]
      rfl
    · obtain rfl | ⟨c, rfl⟩ := hleft
      · simp
      · simp [StackController.close]

theorem act (h : Custody first s) (a : ControllerAction) : Custody first (s.act a) := by
  by_cases hsetUp : a = .request .setUp
  · subst hsetUp
    exact h.setUp.stateAfter
  · by_cases hclose : a = .request .close
    · subst hclose
      exact h.close.stateAfter
    · exact h.unmoved (unmoved_act hsetUp hclose s)

theorem run (h : Custody first s) (as : List ControllerAction) : Custody first (s.run as) :=
  run_preserves (fun _ a _ h => h.act a) h

end Custody

end ControllerSite

/-- After every step of a run of a node that was new when the stack had made the controllers of the
host: the store is there exactly if a controller is held; every other controller that has been made
since is closed and not started, so that at most one runs. Initializing then either succeeds, and
the newest controller is held, started and bound to the root and the namespace that the store reads,
or it fails, and neither a controller nor a store is there. -/
theorem controller_custody (h : Host) (config : ControllerConfig) (as : List ControllerAction) :
    let s := ControllerSite.run ⟨h, { config := config }⟩ as
    (succeeds context s = true ↔ ∃ i, s.node.controller = some i) ∧
      (∀ i c, h.stack.controllers.length ≤ i → s.controllers[i]? = some c →
        s.node.controller ≠ some i → c.closed = true ∧ c.started = false) ∧
      (∀ i j c c', h.stack.controllers.length ≤ i → h.stack.controllers.length ≤ j →
        s.controllers[i]? = some c → s.controllers[j]? = some c' → c.started = true →
        c'.started = true → i = j) ∧
      After setUp s
        (fun _ s' => ∃ c store, s'.node.controller = some s.controllers.length ∧
          s'.controllers.length = s.controllers.length + 1 ∧
          s'.controllers[s.controllers.length]? = some c ∧ c.started = true ∧ c.closed = false ∧
          context s' = .ok store s' ∧ c.environment.root = store.space.root ∧
          c.environment.id = store.space.name.text ∧ store.name = ControllerNode.storeName)
        (fun _ s' => s'.node.controller = none ∧
          context s' = .error .storageUninitialized s') := by
  intro s
  have hnew : ControllerSite.Custody h.stack.controllers.length ⟨h, { config := config }⟩ := by
    refine ⟨Nat.le_refl _, rfl, fun i c hfirst hc => ?_⟩
    rw [List.getElem?_eq_none hfirst] at hc
    contradiction
  have hcustody : s.Custody h.stack.controllers.length := hnew.run as
  refine ⟨?store, hcustody.stopped, ?one, ?initialized⟩
  case store =>
    have hstore := hcustody.store
    rw [ControllerNode.succeeds_context, hstore, Option.isSome_iff_exists]
  case one =>
    intro i j c c' hi hj hc hc' hrun hrun'
    exact Option.some.inj
      ((hcustody.held_of_started hi hc hrun).symm.trans (hcustody.held_of_started hj hc' hrun'))
  case initialized =>
    refine (ControllerNode.after_setUp s).mono (fun _ s' hs => ?_) fun _ s' hs => ?_
    · obtain ⟨c, space, hs⟩ := hs
      obtain ⟨hroot, hname⟩ := Namespace.of_parse_eq_ok hs.found
      have hcontrollers : s'.controllers = s.released ++ [{ s.made c with started := true }] := by
        rw [ControllerSite.controllers, hs.stack]
      refine ⟨{ s.made c with started := true }, ⟨space, ControllerNode.storeName⟩,
        by rw [hs.node], ?_, ?_, rfl, rfl, ?_, hroot.symm, hname.symm, rfl⟩
      · simp [hcontrollers]
      · simp [hcontrollers]
      · rw [ControllerNode.context_eq, hs.node]
    · refine ⟨by rw [hs.node], ?_⟩
      rw [ControllerNode.context_eq, hs.node]

end DeviceBridge
