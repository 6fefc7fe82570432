import DeviceBridge.Proofs.Bridge.Site
import DeviceBridge.Proofs.Stack.ServerNode

/-!
# DeviceBridge.Proofs.Stack.Endpoints

What the endpoints of an aggregator hold. An endpoint that is attached holds what it is defined with
(`Aggregator.state?_add`), and setting an attribute changes that attribute of that endpoint or is
refused (`Aggregator.setState_cases`). Whatever else is done to a node leaves its aggregator as it
is, and so does making further nodes (`Stack.KeepsAggregators`).
-/

namespace DeviceBridge

open Json (Value)

/-! ## Endpoints -/

namespace Aggregator

variable {a b : Aggregator}

/-- The present values of the endpoint with an id. -/
def state? (a : Aggregator) (id : String) : Option ClusterState :=
  (a.endpoint? id).map BridgedEndpoint.state

/-- The new endpoint holds what it is defined with. -/
theorem state?_add {d : EndpointDefinition} (h : a.add d = .ok b) (id : String) :
    b.state? id = if id = d.id then some d.initialState else a.state? id := by
  unfold add at h
  split at h
  · contradiction
  · next hfree =>
    obtain rfl := Except.ok.inj h
    unfold state? endpoint?
    rw [List.find?_append]
    by_cases hid : id = d.id
    · subst hid
      have hnone : a.endpoints.find? (fun e => e.definition.id = d.id) = none := by
        refine List.find?_eq_none.mpr fun e he heq => hfree ?_
        exact List.mem_map.mpr ⟨e, he, of_decide_eq_true heq⟩
      simp [hnone]
    · simp [hid, Ne.symm hid]

/-- Setting an attribute is refused for want of its cluster, or changes the values of that endpoint
only. -/
theorem setState_cases {id : String} {state : ClusterState} (h : a.state? id = some state)
    (cluster name : String) (value : Value) :
    (state.set? cluster name value = none ∧
      a.setState id cluster name value = .error (.unknownCluster id cluster)) ∨
    ∃ state' b, state.set? cluster name value = some state' ∧
      a.setState id cluster name value = .ok b ∧
      ∀ id', b.state? id' = if id' = id then some state' else a.state? id' := by
  obtain ⟨e, he, rfl⟩ := Option.map_eq_some_iff.mp h
  unfold setState
  rw [he]
  dsimp only
  cases hset : e.state.set? cluster name value with
  | none => exact .inl ⟨rfl, rfl⟩
  | some state' =>
      refine .inr ⟨state', _, rfl, rfl, fun id' => ?_⟩
      -- the ids are as they were, so that the same endpoint is found
      have hfind : (fun e : BridgedEndpoint => decide (e.definition.id = id')) ∘
          (fun f => if f.definition.id = id then { f with state := state' } else f) =
            fun e => decide (e.definition.id = id') := by
        funext f
        rw [Function.comp_apply]
        split <;> rfl
      unfold state? endpoint?
      rw [List.find?_map, hfind, Option.map_map]
      by_cases hid : id' = id
      · subst hid
        have hthere : e.definition.id = id' := by simpa using List.find?_some he
        unfold endpoint? at he
        simp [he, hthere]
      · rw [if_neg hid]
        refine Option.map_congr fun f hf => ?_
        have hf : f.definition.id = id' := by simpa using List.find?_some hf
        simp [hf, hid]

end Aggregator

/-! ## Nodes -/

namespace ServerNode

variable {m n : ServerNode}

@[simp] theorem aggregator_endWindow (n : ServerNode) : n.endWindow.aggregator = n.aggregator := by
  unfold endWindow
  split <;> rfl

theorem aggregator_close (h : m.close = .ok n) : n.aggregator = m.aggregator := by
  unfold close at h
  split at h
  · contradiction
  · rw [← Except.ok.inj h, aggregator_endWindow]

theorem aggregator_start (h : m.start = .ok n) : n.aggregator = m.aggregator := by
  unfold start at h
  split at h
  · contradiction
  · rw [← Except.ok.inj h]

theorem aggregator_openWindow (h : m.openWindow = .ok n) : n.aggregator = m.aggregator := by
  unfold openWindow at h
  split at h
  · contradiction
  · rw [← Except.ok.inj h]
    exact aggregator_endWindow m

theorem aggregator_removeFabric {index : UInt8} (h : m.removeFabric index = .ok n) :
    n.aggregator = m.aggregator := by
  unfold removeFabric at h
  dsimp only at h
  split at h
  · contradiction
  · rw [← Except.ok.inj h]

/-- A node that has an aggregator gets no other. -/
theorem aggregator_addAggregator {id : String} (h : m.addAggregator id = .ok n) :
    m.aggregator = none := by
  unfold addAggregator at h
  split at h
  · contradiction
  · cases ha : m.aggregator with
    | none => rfl
    | some a => rw [ha] at h; contradiction

theorem endpointState?_eq (n : ServerNode) (id : String) :
    n.endpointState? id = n.aggregator.bind (·.state? id) := by
  unfold endpointState?
  cases n.aggregator <;> rfl

end ServerNode

namespace Stack

variable {st st' : Stack} {i : Nat}

/-- The aggregator of a node. -/
def aggregator? (st : Stack) (i : Nat) : Option Aggregator :=
  (st.nodes[i]?).bind ServerNode.aggregator

theorem aggregator?_set {m : ServerNode} (hm : st.nodes[i]? = some m) (n : ServerNode) (j : Nat) :
    aggregator? { st with nodes := st.nodes.set i n } j =
      if j = i then n.aggregator else st.aggregator? j := by
  unfold aggregator?
  by_cases hij : j = i
  · subst hij
    rw [if_pos rfl, List.getElem?_set_self (List.getElem?_eq_some_iff.mp hm).1, Option.bind_some]
  · rw [if_neg hij, List.getElem?_set_ne (Ne.symm hij)]

/-- Work on the aggregator of a node concerns no other. -/
theorem exists_of_onAggregator {f : Aggregator → Except StackError Aggregator}
    (h : st.onNode i (·.onAggregator f) = .ok st') :
    ∃ a b, st.aggregator? i = some a ∧ f a = .ok b ∧
      ∀ j, st'.aggregator? j = if j = i then some b else st.aggregator? j := by
  obtain ⟨m, n, hm, hn, rfl⟩ := onNode_eq_ok_iff.mp h
  obtain ⟨a, b, ha, hb, rfl⟩ := ServerNode.onAggregator_eq_ok_iff.mp hn
  exact ⟨a, b, by unfold aggregator?; rw [hm, Option.bind_some, ha], hb, aggregator?_set hm _⟩

/-- Where there is an aggregator, only it can refuse what is done to it. -/
theorem error_of_onAggregator {f : Aggregator → Except StackError Aggregator} {a : Aggregator}
    {e : StackError} (h : st.onNode i (·.onAggregator f) = .error e)
    (ha : st.aggregator? i = some a) : f a = .error e := by
  obtain ⟨n, hn, ha⟩ := Option.bind_eq_some_iff.mp ha
  obtain ⟨hnone, -⟩ | ⟨m, hm, he⟩ := onNode_eq_error_iff.mp h
  · rw [hn] at hnone
    contradiction
  · obtain rfl := Option.some.inj (hn.symm.trans hm)
    obtain ⟨hnone, -⟩ | ⟨b, hb, he⟩ := ServerNode.onAggregator_eq_error_iff.mp he
    · rw [ha] at hnone
      contradiction
    · rwa [Option.some.inj (ha.symm.trans hb)]

/-- Every aggregator that is there is as it was. -/
def KeepsAggregators (st st' : Stack) : Prop :=
  ∀ i a, st.aggregator? i = some a → st'.aggregator? i = some a

theorem KeepsAggregators.refl (st : Stack) : st.KeepsAggregators st := fun _ _ ha => ha

theorem KeepsAggregators.trans {st'' : Stack} (h : st.KeepsAggregators st')
    (h' : st'.KeepsAggregators st'') : st.KeepsAggregators st'' :=
  fun i a ha => h' i a (h i a ha)

theorem keepsAggregators_onNode {f : ServerNode → Except StackError ServerNode}
    (hf : ∀ m n a, f m = .ok n → m.aggregator = some a → n.aggregator = some a)
    (h : st.onNode i f = .ok st') : st.KeepsAggregators st' := by
  obtain ⟨m, n, hm, hn, rfl⟩ := onNode_eq_ok_iff.mp h
  intro j a ha
  rw [aggregator?_set hm]
  split
  · next hij =>
    subst hij
    refine hf m n a hn ?_
    rwa [aggregator?, hm, Option.bind_some] at ha
  · exact ha

theorem keepsAggregators_updateNode {f : ServerNode → ServerNode}
    (hf : ∀ n : ServerNode, (f n).aggregator = n.aggregator) :
    st.KeepsAggregators (st.updateNode i f) := by
  intro j a ha
  obtain ⟨n, hn, ha⟩ := Option.bind_eq_some_iff.mp ha
  unfold aggregator? updateNode
  rw [List.getElem?_modify, hn]
  split <;> simp [hf, ha]

/-- Making a node leaves the others. -/
theorem keepsAggregators_append (n : ServerNode) :
    st.KeepsAggregators { st with nodes := st.nodes ++ [n] } := by
  intro j a ha
  obtain ⟨m, hm, ha⟩ := Option.bind_eq_some_iff.mp ha
  unfold aggregator?
  rw [List.getElem?_append_left (List.getElem?_eq_some_iff.mp hm).1, hm, Option.bind_some, ha]

end Stack

/-! ## Work of the stack -/

/-- Work that leaves every aggregator as it is. -/
def Host.Sparing {ε α : Type} (x : EStateM ε Host α) : Prop :=
  ∀ h, Leaves x h fun h' => h.stack.KeepsAggregators h'.stack

namespace Host

theorem sparing_onNode (i : Nat) {f : ServerNode → Except StackError ServerNode}
    (hf : ∀ m n a, f m = .ok n → m.aggregator = some a → n.aggregator = some a) :
    Sparing (changing (·.onNode i f)) := fun _ =>
  after_changing (fun _ hst => Stack.keepsAggregators_onNode hf hst) fun _ _ => .refl _

theorem sparing_close (i : Nat) : Sparing (changing (·.onNode i ServerNode.close)) :=
  sparing_onNode i fun _ _ _ hn ha => (ServerNode.aggregator_close hn).trans ha

theorem sparing_endWindow (i : Nat) : Sparing (changing (·.onNode i (.ok ·.endWindow))) :=
  sparing_onNode i fun m _ _ hn ha =>
    Except.ok.inj hn ▸ (ServerNode.aggregator_endWindow m).trans ha

theorem sparing_eraseNode (i : Nat) : Sparing (eraseNode i) := by
  refine fun h => after_bind (after_get ?_)
  cases h.stack.nodes[i]? with
  | none => exact after_throw (.refl _)
  | some n =>
      have hstop : h.stack.KeepsAggregators (h.stack.updateNode i ServerNode.stopErased) :=
        Stack.keepsAggregators_updateNode fun _ => rfl
      exact after_bind (after_modify (after_storing
        (.intro (fun _ _ _ => hstop) fun _ _ _ => hstop)))

theorem sparing_createNode (config : ServerNodeConfig) : Sparing (createNode config) := by
  refine fun h => after_bind (after_get ?_)
  dsimp only
  cases h.stack.createFailure with
  | some text => exact after_bind (after_modify (after_throw (.refl _)))
  | none =>
      refine after_bind (after_storing (.intro (fun _ _ _ => ?_) fun _ _ _ => .refl _))
      exact after_bind (after_modify (after_pure (Stack.keepsAggregators_append _)))

end Host

end DeviceBridge
