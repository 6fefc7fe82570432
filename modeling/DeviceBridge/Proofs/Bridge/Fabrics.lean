import DeviceBridge.Proofs.Bridge.Occurrence

/-!
# DeviceBridge.Proofs.Bridge.Fabrics

A node counts as commissioned exactly while it is joined to a fabric. The two are kept apart, and
each operation that changes one changes the other along with it (`ServerNode.lasts_truthful`),
unless somebody just says whether the node is commissioned. So what the bridge tells a commissioner
agrees with the fabrics that it has joined (`Site.commissioned_iff_joined`).
-/

namespace DeviceBridge

/-! ## Nodes -/

namespace ServerNode

variable {m n : ServerNode}

/-- Leaving the fabrics with an index leaves those without it, in their order, and is refused if
there are none with it. -/
theorem removeFabric_cases (n : ServerNode) (index : UInt8) :
    (∃ f ∈ n.fabrics, f.fabricIndex = index) ∧
        n.removeFabric index = .ok { n with
          fabrics := n.fabrics.filter (·.fabricIndex ≠ index)
          commissioned := n.commissioned && !(n.fabrics.filter (·.fabricIndex ≠ index)).isEmpty } ∨
      (∀ f ∈ n.fabrics, f.fabricIndex ≠ index) ∧
        n.removeFabric index = .error (.fabricNotFound index) := by
  unfold removeFabric
  dsimp only
  split
  · next h =>
    refine .inr ⟨fun f hf => ?_, rfl⟩
    simpa using List.length_filter_eq_length_iff.mp h f hf
  · next h =>
    refine .inl ⟨?_, rfl⟩
    rw [List.length_filter_eq_length_iff] at h
    simpa using h

/-- The node says that it is commissioned exactly if it is joined to a fabric. -/
def Truthful (n : ServerNode) : Prop := n.commissioned = true ↔ n.fabrics ≠ []

theorem Truthful.commissioned_eq (h : n.Truthful) : n.commissioned = !n.fabrics.isEmpty := by
  unfold Truthful at h
  cases hc : n.commissioned <;> simp_all

theorem Truthful.endWindow (h : m.Truthful) : m.endWindow.Truthful := by
  unfold ServerNode.endWindow
  split <;> exact h

theorem Truthful.addAggregator {id : String} (h : m.Truthful) (hn : m.addAggregator id = .ok n) :
    n.Truthful := by
  unfold ServerNode.addAggregator at hn
  split at hn
  · contradiction
  · split at hn
    · contradiction
    · exact Except.ok.inj hn ▸ h

theorem Truthful.onAggregator {f : Aggregator → Except StackError Aggregator} (h : m.Truthful)
    (hn : m.onAggregator f = .ok n) : n.Truthful := by
  obtain ⟨a, b, -, -, rfl⟩ := onAggregator_eq_ok_iff.mp hn
  exact h

theorem Truthful.start (h : m.Truthful) (hn : m.start = .ok n) : n.Truthful := by
  unfold ServerNode.start at hn
  split at hn
  · contradiction
  · exact Except.ok.inj hn ▸ h

theorem Truthful.close (h : m.Truthful) (hn : m.close = .ok n) : n.Truthful := by
  unfold ServerNode.close at hn
  split at hn
  · contradiction
  · have hstop : Truthful { m with closed := true, started := false } := h
    exact Except.ok.inj hn ▸ hstop.endWindow

theorem Truthful.openWindow (h : m.Truthful) (hn : m.openWindow = .ok n) : n.Truthful := by
  unfold ServerNode.openWindow at hn
  split at hn
  · contradiction
  · exact Except.ok.inj hn ▸ h.endWindow

theorem Truthful.removeFabric {index : UInt8} (h : m.Truthful)
    (hn : m.removeFabric index = .ok n) : n.Truthful := by
  obtain ⟨⟨f, hf, -⟩, hok⟩ | ⟨-, herror⟩ := m.removeFabric_cases index
  · obtain rfl := Except.ok.inj (hn.symm.trans hok)
    have hcommissioned : m.commissioned = true := h.mpr (List.ne_nil_of_mem hf)
    simp [Truthful, hcommissioned]
  · rw [hn] at herror
    contradiction

/-- A node that is new says so, and whatever is done to it, it says so afterwards. -/
theorem lasts_truthful : Lasts Truthful := by
  refine ⟨fun _ => by simp [Truthful], fun o ho n h => o.apply_ind (fun n' hn => ?_) h⟩
  cases o with
  | addAggregator id => exact h.addAggregator hn
  | attach d => exact h.onAggregator hn
  | setState id cluster name value => exact h.onAggregator hn
  | start => exact h.start hn
  | close => exact h.close hn
  | openWindow => exact h.openWindow hn
  | removeFabric index => exact h.removeFabric hn
  | endWindow => exact Except.ok.inj hn ▸ h.endWindow
  | erase => exact Except.ok.inj hn ▸ by simp [stopErased, Truthful]
  | addFabric f => exact Except.ok.inj hn ▸ by simp [ServerNode.addFabric, Truthful]
  | setCommissioned commissioned => exact absurd rfl (ho commissioned)

end ServerNode

/-! ## What the bridge tells -/

namespace Bridge

variable {s : Site}

theorem fabrics_eq {i : Nat} {n : ServerNode} (hi : s.bridge.node = some i)
    (hn : s.nodes[i]? = some n) : fabrics s = .ok n.fabrics s := by
  unfold fabrics
  rw [bind_eq_of_ok (heldNode_eq hi), get_bind_eq, hn]
  rfl

theorem commissioningState_eq {i : Nat} {n : ServerNode} (hi : s.bridge.node = some i)
    (hn : s.nodes[i]? = some n) : commissioningState s = .ok ⟨.ofConfig n.config.commissioning,
      !n.commissioned || s.bridge.window.isOpen⟩ s := by
  unfold commissioningState
  rw [bind_eq_of_ok (heldNode_eq hi), get_bind_eq, hn]
  rfl

theorem removeFabric_eq_of_ok {i : Nat} {n n' : ServerNode} {index : UInt8}
    (hi : s.bridge.node = some i) (hn : s.nodes[i]? = some n)
    (hok : n.removeFabric index = .ok n') : removeFabric index s = .ok () (s.setNode i n') := by
  unfold removeFabric
  rw [bind_eq_of_ok (heldNode_eq hi)]
  exact delegating_onNode_of_ok hn hok

theorem removeFabric_eq_of_error {i : Nat} {n : ServerNode} {index : UInt8} {e : StackError}
    (hi : s.bridge.node = some i) (hn : s.nodes[i]? = some n)
    (herror : n.removeFabric index = .error e) : removeFabric index s =
      .error (.stack e) { s with host := s.host.record "removeFabric" (.stack e) } := by
  unfold removeFabric
  rw [bind_eq_of_ok (heldNode_eq hi)]
  exact delegating_onNode_of_error hn herror

end Bridge

namespace Site

/-- Commissioned means joined to a fabric. As long as nobody just says whether a node is
commissioned, and whatever else happens to a bridge and its nodes: (a) every node that has been made
since counts as commissioned exactly if it is joined to a fabric; (b) a bridge without a node
answers that it has none; (c) one with a node tells the fabrics of that node, and that it lets
itself be commissioned exactly if there are none or it takes its window for open; (d) it leaves all
fabrics with an index and keeps the others in their order, and nothing else changes but whether the
node is commissioned; (e) this is refused exactly if there is none with that index, and then nothing
changes but the log. -/
theorem commissioned_iff_joined (h : Host) (c : BridgeConfig) (os : List Occurrence)
    (hos : ∀ o ∈ os, ∀ commissioned, o.operation? ≠ some (.setCommissioned commissioned)) :
    let s : Site := undergo ⟨h, { config := c }⟩ os
    (∀ j n, h.stack.nodes.length ≤ j → s.nodes[j]? = some n →
      (n.commissioning.commissioned = true ↔ n.fabrics ≠ [])) ∧
    (s.bridge.node = none →
      Bridge.commissioningState s = .error .notInitialized s ∧
      Bridge.fabrics s = .error .notInitialized s ∧
      ∀ index, Bridge.removeFabric index s = .error .notInitialized s) ∧
    ∀ i, s.bridge.node = some i → ∃ n, s.nodes[i]? = some n ∧ Bridge.fabrics s = .ok n.fabrics s ∧
      (∃ state, Bridge.commissioningState s = .ok state s ∧
        (state.commissioningWindowOpen = true ↔
          n.fabrics = [] ∨ s.bridge.window.isOpen = true)) ∧
      ∀ index,
        ((∃ f ∈ n.fabrics, f.fabricIndex = index) →
          let rest := n.fabrics.filter (·.fabricIndex ≠ index)
          ∃ s', Bridge.removeFabric index s = .ok () s' ∧ Bridge.fabrics s' = .ok rest s' ∧
            s' = { s with host := { s.host with stack := { s.host.stack with
              nodes := s.nodes.set i
                { n with fabrics := rest, commissioned := !rest.isEmpty } } } }) ∧
        ((∀ f ∈ n.fabrics, f.fabricIndex ≠ index) →
          Bridge.removeFabric index s = .error (.stack (.fabricNotFound index))
            { s with host := s.host.record "removeFabric" (.stack (.fabricNotFound index)) }) := by
  intro s
  have hs : s.Upholds h.stack.nodes.length ServerNode.Truthful := by
    refine (upholds_new h c).undergo ServerNode.lasts_truthful fun o ho p hp n hn => ?_
    refine ServerNode.lasts_truthful.apply p (fun commissioned heq => ?_) n hn
    exact hos o ho commissioned (heq ▸ hp)
  refine ⟨hs.nodes, fun hnone => ⟨?_, ?_, fun index => ?_⟩, fun i hi => ?_⟩
  · exact bind_eq_of_error (Bridge.heldNode_eq_of_none hnone)
  · exact bind_eq_of_error (Bridge.heldNode_eq_of_none hnone)
  · exact bind_eq_of_error (Bridge.heldNode_eq_of_none hnone)
  · obtain ⟨n, hn, htruthful⟩ := hs.exists_held hi
    refine ⟨n, hn, Bridge.fabrics_eq hi hn, ⟨_, Bridge.commissioningState_eq hi hn, ?_⟩,
      fun index => ⟨fun hthere => ?_, fun hnone => ?_⟩⟩
    · simp [htruthful.commissioned_eq]
    · obtain ⟨f, hf, hindex⟩ := hthere
      obtain ⟨-, hok⟩ | ⟨habsent, -⟩ := n.removeFabric_cases index
      · have hcommissioned : n.commissioned = true := htruthful.mpr (List.ne_nil_of_mem hf)
        rw [hcommissioned, Bool.true_and] at hok
        exact ⟨_, Bridge.removeFabric_eq_of_ok hi hn hok,
          Bridge.fabrics_eq (s := s.setNode i _) hi (getElem?_setNode hn _), rfl⟩
      · exact absurd hindex (habsent f hf)
    · obtain ⟨⟨f, hf, hindex⟩, -⟩ | ⟨-, herror⟩ := n.removeFabric_cases index
      · exact absurd hindex (hnone f hf)
      · exact Bridge.removeFabric_eq_of_error hi hn herror

/-- The node of a bridge joins three fabrics, two of them with one index, and a window is opened and
expires. -/
def threeFabrics : List Occurrence :=
  [.act (.request (.init ⟨0, 0⟩)), .operate 0 (.addFabric ⟨1, 7, 1, 1, "a"⟩),
    .act (.incident (.addFabric 0 ⟨2, 8, 1, 1, "b"⟩)), .operate 0 (.addFabric ⟨1, 9, 1, 1, "c"⟩),
    .act (.request .openWindow), .operate 0 .endWindow, .act (.deliver 0)]

/-- The two fabrics with one index are left together, and the third one stays. -/
theorem joined_of_threeFabrics :
    let s : Site := undergo ⟨{}, { config := { storagePath := ⟨"s"⟩ } }⟩ threeFabrics
    (∀ o ∈ threeFabrics, ∀ commissioned, o.operation? ≠ some (.setCommissioned commissioned)) ∧
      ∃ state s', Bridge.commissioningState s = .ok state s ∧
        state.commissioningWindowOpen = false ∧ Bridge.removeFabric 1 s = .ok () s' ∧
        Bridge.fabrics s' = .ok [⟨2, 8, 1, 1, "b"⟩] s' := by
  have hplain : ∀ o ∈ threeFabrics, ∀ commissioned,
      o.operation? ≠ some (.setCommissioned commissioned) := by
    simp [threeFabrics, Occurrence.operation?, Incident.operation?]
  have hmain := commissioned_iff_joined {} { storagePath := ⟨"s"⟩ } threeFabrics hplain
  have hnode : (undergo ⟨{}, { config := { storagePath := ⟨"s"⟩ } }⟩ threeFabrics).bridge.node =
      some 0 := by decide +kernel
  have hclosed : (undergo ⟨{}, { config := { storagePath := ⟨"s"⟩ } }⟩
      threeFabrics).bridge.window.isOpen = false := by decide +kernel
  have hfabrics : ((undergo ⟨{}, { config := { storagePath := ⟨"s"⟩ } }⟩
      threeFabrics).nodes[0]?).map ServerNode.fabrics =
      some [⟨1, 7, 1, 1, "a"⟩, ⟨2, 8, 1, 1, "b"⟩, ⟨1, 9, 1, 1, "c"⟩] := by decide +kernel
  -- What is to be known of the run is known, and nothing is to evaluate it again.
  generalize undergo ⟨{}, { config := { storagePath := ⟨"s"⟩ } }⟩ threeFabrics = s at *
  obtain ⟨-, -, hheld⟩ := hmain
  obtain ⟨n, hn, -, ⟨state, hstate, hopen⟩, hremove⟩ := hheld 0 hnode
  rw [hn] at hfabrics
  have hjoined : n.fabrics = _ := Option.some.inj hfabrics
  obtain ⟨s', hx, hrest, -⟩ := (hremove 1).1 ⟨⟨1, 7, 1, 1, "a"⟩, by simp [hjoined], rfl⟩
  refine ⟨hplain, state, s', hstate, ?_, hx, ?_⟩
  · rw [Bool.eq_false_iff, Ne, hopen, hjoined]
    simp [hclosed]
  · rw [hrest, hjoined]
    rfl

end Site

end DeviceBridge
