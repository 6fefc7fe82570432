import DeviceBridge.Stack.Stack

/-!
# DeviceBridge.Proofs.Stack.ServerNode

What the stack never takes back. A node keeps its configuration, and once closed it stays closed;
apart from attaching an endpoint, nothing changes the ids of its endpoints (`ServerNode.Continues`).
Nodes are never forgotten, so this lifts to all nodes at once (`NodesContinue`).
-/

namespace DeviceBridge

/-- What a node keeps, whatever is done to it apart from attaching an endpoint. -/
structure ServerNode.Continues (m n : ServerNode) : Prop where
  config : n.config = m.config
  endpointIds : n.endpointIds = m.endpointIds
  closed : m.closed = true → n.closed = true

namespace ServerNode

theorem Continues.refl (n : ServerNode) : n.Continues n := ⟨rfl, rfl, id⟩

theorem Continues.trans {l m n : ServerNode} (h : l.Continues m) (h' : m.Continues n) :
    l.Continues n :=
  ⟨h'.config.trans h.config, h'.endpointIds.trans h.endpointIds, fun hl => h'.closed (h.closed hl)⟩

variable {m n : ServerNode}

theorem continues_endWindow (n : ServerNode) : n.Continues n.endWindow := by
  unfold endWindow
  cases n.window with
  | none => exact .refl n
  | some k => exact ⟨rfl, rfl, id⟩

theorem continues_close (h : m.close = .ok n) : m.Continues n ∧ n.closed = true := by
  unfold close at h
  split at h
  · contradiction
  · obtain rfl := Except.ok.inj h
    have hend := continues_endWindow { m with closed := true, started := false }
    exact ⟨⟨hend.config, hend.endpointIds, fun _ => hend.closed rfl⟩, hend.closed rfl⟩

/-- Only a closed node refuses to be closed. -/
theorem closed_of_close_eq_error {e : StackError} (h : n.close = .error e) :
    n.closed = true ∧ e = .alreadyClosed n.config.id := by
  unfold close at h
  split at h
  · next hc => exact ⟨hc, (Except.error.inj h).symm⟩
  · contradiction

theorem continues_start (h : m.start = .ok n) : m.Continues n := by
  unfold start at h
  split at h
  · contradiction
  · exact Except.ok.inj h ▸ ⟨rfl, rfl, id⟩

theorem continues_openWindow (h : m.openWindow = .ok n) : m.Continues n := by
  unfold openWindow at h
  split at h
  · contradiction
  · have hend := continues_endWindow m
    exact Except.ok.inj h ▸ ⟨hend.config, hend.endpointIds, hend.closed⟩

theorem continues_removeFabric {index : UInt8} (h : m.removeFabric index = .ok n) :
    m.Continues n := by
  unfold removeFabric at h
  dsimp only at h
  split at h
  · contradiction
  · exact Except.ok.inj h ▸ ⟨rfl, rfl, id⟩

theorem continues_stopErased (n : ServerNode) : n.Continues n.stopErased := ⟨rfl, rfl, fun _ => rfl⟩

theorem endpointIds_setState {a b : Aggregator} {id cluster name : String} {value : Json.Value}
    (h : a.setState id cluster name value = .ok b) : b.endpointIds = a.endpointIds := by
  unfold Aggregator.setState at h
  split at h
  · rw [Except.ok.inj h]
  · split at h
    · contradiction
    · obtain rfl := Except.ok.inj h
      unfold Aggregator.endpointIds
      rw [List.map_map]
      refine List.map_congr_left fun f _ => ?_
      rw [Function.comp_apply]
      split <;> rfl

/-- What is done to the aggregator of a node is all that is done to the node. -/
theorem onAggregator_eq_ok_iff {f : Aggregator → Except StackError Aggregator} :
    m.onAggregator f = .ok n ↔
      ∃ a b, m.aggregator = some a ∧ f a = .ok b ∧ n = { m with aggregator := some b } := by
  unfold onAggregator
  cases m.aggregator with
  | none => simp
  | some a => cases hf : f a <;> simp [hf, Except.map, eq_comm]

theorem onAggregator_eq_error_iff {f : Aggregator → Except StackError Aggregator}
    {e : StackError} :
    n.onAggregator f = .error e ↔
      n.aggregator = none ∧ e = .other "no aggregator" ∨
        ∃ a, n.aggregator = some a ∧ f a = .error e := by
  unfold onAggregator
  cases n.aggregator with
  | none => simp [eq_comm]
  | some a => cases hf : f a <;> simp [hf, Except.map]

theorem continues_setState {id cluster name : String} {value : Json.Value}
    (h : m.onAggregator (·.setState id cluster name value) = .ok n) : m.Continues n := by
  obtain ⟨a, b, ha, hb, rfl⟩ := onAggregator_eq_ok_iff.mp h
  refine ⟨rfl, ?_, fun hc => hc⟩
  simp only [endpointIds, ha, endpointIds_setState hb]

/-- An endpoint is attached under an id that was free. -/
theorem onAggregator_add_eq_ok {d : EndpointDefinition}
    (h : m.onAggregator (·.add d) = .ok n) :
    n.config = m.config ∧ n.closed = m.closed ∧ d.id ∉ m.endpointIds ∧
      n.endpointIds = m.endpointIds ++ [d.id] := by
  obtain ⟨a, b, ha, hb, rfl⟩ := onAggregator_eq_ok_iff.mp h
  unfold Aggregator.add at hb
  split at hb
  · contradiction
  · next hd =>
    obtain rfl := Except.ok.inj hb
    refine ⟨rfl, rfl, by simpa only [endpointIds, ha] using hd, ?_⟩
    simp [endpointIds, ha, Aggregator.endpointIds]

/-- The only id that is not free is one that is attached. -/
theorem mem_of_onAggregator_add {d : EndpointDefinition} {id : String}
    (h : n.onAggregator (·.add d) = .error (.endpointExists id)) : d.id ∈ n.endpointIds := by
  obtain ⟨-, he⟩ | ⟨a, ha, hadd⟩ := onAggregator_eq_error_iff.mp h
  · contradiction
  · unfold Aggregator.add at hadd
    split at hadd
    · next hd => simpa only [endpointIds, ha] using hd
    · contradiction

end ServerNode

/-! ## All nodes -/

/-- Every node continues, and none is made or forgotten. -/
structure NodesContinue (ms ns : List ServerNode) : Prop where
  length : ns.length = ms.length
  each : ∀ (i : Nat) (m n : ServerNode), ms[i]? = some m → ns[i]? = some n → m.Continues n

namespace NodesContinue

variable {ls ms ns : List ServerNode}

theorem refl (ns : List ServerNode) : NodesContinue ns ns :=
  ⟨rfl, fun _ m _ hm hn => Option.some.inj (hm.symm.trans hn) ▸ .refl m⟩

theorem getElem? (h : NodesContinue ms ns) {i : Nat} {m : ServerNode} (hm : ms[i]? = some m) :
    ∃ n, ns[i]? = some n ∧ m.Continues n := by
  have hi : i < ns.length := h.length ▸ (List.getElem?_eq_some_iff.mp hm).1
  exact ⟨ns[i], List.getElem?_eq_getElem hi, h.each i m _ hm (List.getElem?_eq_getElem hi)⟩

/-- Each node was there before. -/
theorem of_getElem? (h : NodesContinue ms ns) {i : Nat} {n : ServerNode} (hn : ns[i]? = some n) :
    ∃ m, ms[i]? = some m ∧ m.Continues n := by
  have hi : i < ms.length := h.length ▸ (List.getElem?_eq_some_iff.mp hn).1
  exact ⟨ms[i], List.getElem?_eq_getElem hi, h.each i _ n (List.getElem?_eq_getElem hi) hn⟩

theorem trans (h : NodesContinue ls ms) (h' : NodesContinue ms ns) : NodesContinue ls ns := by
  refine ⟨h'.length.trans h.length, fun i l n hl hn => ?_⟩
  obtain ⟨m, hm, hlm⟩ := h.getElem? hl
  exact hlm.trans (h'.each i m n hm hn)

theorem set {i : Nat} {m n : ServerNode} (hm : ms[i]? = some m) (h : m.Continues n) :
    NodesContinue ms (ms.set i n) := by
  refine ⟨List.length_set, fun j k l hk hl => ?_⟩
  rw [List.getElem?_set] at hl
  split at hl
  · next hij =>
    subst hij
    split at hl
    · obtain rfl := Option.some.inj hl
      obtain rfl := Option.some.inj (hm.symm.trans hk)
      exact h
    · contradiction
  · exact Option.some.inj (hk.symm.trans hl) ▸ .refl k

theorem modify {f : ServerNode → ServerNode} (h : ∀ n : ServerNode, n.Continues (f n)) (i : Nat)
    (ns : List ServerNode) : NodesContinue ns (ns.modify i f) := by
  refine ⟨List.length_modify .., fun j m n hm hn => ?_⟩
  rw [List.getElem?_modify, hm] at hn
  simp only [Option.map_eq_map, Option.map_some, Option.some.injEq] at hn
  rw [← hn]
  split
  · exact h m
  · exact .refl m

end NodesContinue

end DeviceBridge
