import DeviceBridge.Proofs.Bridge.Site
import DeviceBridge.Proofs.Stack.Window
import Mathlib.Data.List.Induction

/-!
# DeviceBridge.Proofs.Stack.Operation

What can be done to a node, in any order. Every window notification that a node has issued is
resolved, but for the one that its open window owes (`ServerNode.Accounts`), and a node that is
closed does not run. A closed node has an open window only if its data were erased while the window
was open and nobody has ended the window since (`Host.window_of_operated`).
-/

namespace DeviceBridge

open Json (Value)

/-- What can be done to a node. -/
inductive NodeOperation where
  | addAggregator (id : String)
  | attach (d : EndpointDefinition)
  | setState (id cluster name : String) (value : Value)
  | start
  | close
  | erase
  | openWindow
  /-- The window is ended, or expires. -/
  | endWindow
  | setCommissioned (commissioned : Bool)
  | addFabric (f : FabricInfo)
  | removeFabric (index : UInt8)

namespace NodeOperation

/-- What an operation makes of a node, unless it is refused. -/
def change : NodeOperation → ServerNode → Except StackError ServerNode
  | addAggregator id, n => n.addAggregator id
  | attach d, n => n.onAggregator (·.add d)
  | setState id cluster name value, n => n.onAggregator (·.setState id cluster name value)
  | start, n => n.start
  | close, n => n.close
  | erase, n => .ok n.stopErased
  | openWindow, n => n.openWindow
  | endWindow, n => .ok n.endWindow
  | setCommissioned commissioned, n => .ok (n.setCommissioned commissioned)
  | addFabric f, n => .ok (n.addFabric f)
  | removeFabric index, n => n.removeFabric index

/-- The node after an operation, which leaves it as it is if it is refused. -/
def apply (o : NodeOperation) (n : ServerNode) : ServerNode :=
  match o.change n with
  | .ok n' => n'
  | .error _ => n

/-- The work of an operation on a node of the stack. -/
def work (i : Nat) : NodeOperation → Hosted Unit
  | erase => Host.eraseNode i
  | o => Host.changing (·.onNode i o.change)

theorem apply_of_ok {o : NodeOperation} {m n : ServerNode} (h : o.change m = .ok n) :
    o.apply m = n := by
  unfold apply
  rw [h]

theorem apply_of_error {o : NodeOperation} {n : ServerNode} {e : StackError}
    (h : o.change n = .error e) : o.apply n = n := by
  unfold apply
  rw [h]

/-- What holds of a node that an operation has changed, and of one that it has left, holds of the
node after the operation. -/
theorem apply_ind {P : ServerNode → Prop} {o : NodeOperation} {n : ServerNode}
    (hok : ∀ n', o.change n = .ok n' → P n') (hn : P n) : P (o.apply n) := by
  cases h : o.change n with
  | ok n' => exact apply_of_ok h ▸ hok n' h
  | error e => exact (apply_of_error h).symm ▸ hn

end NodeOperation

/-- The node after operations. -/
def ServerNode.operated (n : ServerNode) (os : List NodeOperation) : ServerNode :=
  os.foldl (fun n o => o.apply n) n

/-- The host after operations on one of its nodes. -/
def Host.operated (h : Host) (i : Nat) (os : List NodeOperation) : Host :=
  os.foldl (fun h o => stateAfter (o.work i) h) h

/-! ## The nodes of a host -/

theorem set_eq_modify {l : List ServerNode} {i : Nat} {n : ServerNode} (h : l[i]? = some n)
    (f : ServerNode → ServerNode) : l.set i (f n) = l.modify i f := by
  refine List.ext_getElem? fun j => ?_
  rw [List.getElem?_set, List.getElem?_modify]
  by_cases hij : i = j
  · subst hij
    rw [h, if_pos rfl, if_pos (List.getElem?_eq_some_iff.mp h).1]
    simp
  · simp [hij]

/-- Changing a node concerns that node only, and none if the change is refused. -/
theorem NodeOperation.leaves_changing (o : NodeOperation) (i : Nat) (h : Host) :
    Leaves (Host.changing (·.onNode i o.change)) h
      fun h' => h'.stack.nodes = h.stack.nodes.modify i o.apply := by
  refine Host.after_changing (fun st hst => ?_) fun e he => ?_
  · obtain ⟨m, n, hm, hn, rfl⟩ := Stack.onNode_eq_ok_iff.mp hst
    rw [← apply_of_ok hn, set_eq_modify hm]
  · obtain ⟨hnone, -⟩ | ⟨n, hn, he⟩ := Stack.onNode_eq_error_iff.mp he
    · exact (List.modify_eq_self (List.getElem?_eq_none_iff.mp hnone)).symm
    · rw [← set_eq_modify hn, apply_of_error he]
      obtain ⟨hi, rfl⟩ := List.getElem?_eq_some_iff.mp hn
      exact (List.set_getElem_self hi).symm

/-- An operation concerns its node only, also where erasing the data fails. -/
theorem NodeOperation.leaves_work (o : NodeOperation) (i : Nat) (h : Host) :
    Leaves (o.work i) h fun h' => h'.stack.nodes = h.stack.nodes.modify i o.apply := by
  cases o with
  | erase =>
      refine after_bind (after_get ?_)
      cases hn : h.stack.nodes[i]? with
      | none =>
          exact after_throw (List.modify_eq_self (List.getElem?_eq_none_iff.mp hn)).symm
      | some n =>
          exact after_bind (after_modify (Host.after_storing
            (.intro (fun _ _ _ => rfl) fun _ _ _ => rfl)))
  | _ => exact leaves_changing _ i h

theorem Host.nodes_operated (h : Host) (i : Nat) (os : List NodeOperation) :
    (h.operated i os).stack.nodes = h.stack.nodes.modify i (·.operated os) := by
  induction os generalizing h with
  | nil => exact (List.modify_id i h.stack.nodes).symm
  | cons o os ih =>
      have ho := (o.leaves_work i h).stateAfter
      have hrest : (h.operated i (o :: os)).stack.nodes =
          (stateAfter (o.work i) h).stack.nodes.modify i (·.operated os) := ih _
      rw [hrest, ho, List.modify_modify_eq]
      rfl

/-- What becomes of a node under operations. -/
theorem Host.getElem?_operated {h : Host} {i : Nat} {n : ServerNode}
    (hn : h.stack.nodes[i]? = some n) (os : List NodeOperation) :
    (h.operated i os).stack.nodes[i]? = some (n.operated os) := by
  rw [nodes_operated, List.getElem?_modify, hn]
  simp

/-- A node is made as its configuration says, beside those that are there. -/
theorem Host.nodes_createNode (config : ServerNodeConfig) (h : Host) :
    After (createNode config) h
      (fun i h' => i = h.stack.nodes.length ∧
        h'.stack.nodes = h.stack.nodes ++ [{ config := config }])
      (fun _ h' => h'.stack.nodes = h.stack.nodes) := by
  refine after_bind (after_get ?_)
  dsimp only
  cases h.stack.createFailure with
  | some text => exact after_bind (after_modify (after_throw rfl))
  | none =>
      refine after_bind (after_storing (.intro (fun _ _ _ => ?_) fun _ _ _ => rfl))
      exact after_bind (after_modify (after_pure ⟨rfl, rfl⟩))

theorem Host.getElem?_createNode {h h' : Host} {config : ServerNodeConfig} {i : Nat}
    (hmade : createNode config h = .ok i h') :
    h'.stack.nodes[i]? = some { config := config } := by
  obtain ⟨rfl, hnodes⟩ := (nodes_createNode config h).of_ok hmade
  rw [hnodes]
  exact List.getElem?_concat_length

namespace ServerNode

theorem operated_concat (n : ServerNode) (os : List NodeOperation) (o : NodeOperation) :
    n.operated (os ++ [o]) = o.apply (n.operated os) := List.foldl_append

/-- What every operation keeps, all of them keep. -/
theorem operated_ind {P : ServerNode → Prop} {os : List NodeOperation}
    (h : ∀ o ∈ os, ∀ n, P n → P (o.apply n)) {n : ServerNode} (hn : P n) : P (n.operated os) := by
  induction os generalizing n with
  | nil => exact hn
  | cons o os ih =>
      exact ih (fun o' ho' => h o' (List.mem_cons_of_mem o ho')) (h o List.mem_cons_self n hn)

end ServerNode

/-! ## The window -/

/-- Neither whether a node runs nor its window has changed. -/
structure ServerNode.Still (m n : ServerNode) : Prop where
  closed : n.closed = m.closed
  started : n.started = m.started
  window : n.window = m.window
  notifications : n.notifications = m.notifications

namespace ServerNode

variable {m n : ServerNode}

theorem Still.refl (n : ServerNode) : n.Still n := ⟨rfl, rfl, rfl, rfl⟩

theorem still_addAggregator {id : String} (h : m.addAggregator id = .ok n) : m.Still n := by
  unfold addAggregator at h
  split at h
  · contradiction
  · split at h
    · contradiction
    · exact Except.ok.inj h ▸ ⟨rfl, rfl, rfl, rfl⟩

theorem still_onAggregator {f : Aggregator → Except StackError Aggregator}
    (h : m.onAggregator f = .ok n) : m.Still n := by
  obtain ⟨a, b, -, -, rfl⟩ := onAggregator_eq_ok_iff.mp h
  exact ⟨rfl, rfl, rfl, rfl⟩

theorem still_removeFabric {index : UInt8} (h : m.removeFabric index = .ok n) : m.Still n := by
  unfold removeFabric at h
  dsimp only at h
  split at h
  · contradiction
  · exact Except.ok.inj h ▸ ⟨rfl, rfl, rfl, rfl⟩

theorem start_eq (hc : n.closed = false) : n.start = .ok { n with started := true } := by
  unfold start
  rw [if_neg (by simp [hc])]

theorem close_eq (hc : n.closed = false) :
    n.close = .ok { n with closed := true, started := false }.endWindow := by
  unfold close
  rw [if_neg (by simp [hc])]

theorem openWindow_eq (hc : n.closed = false) :
    n.openWindow = .ok { n.endWindow with
      window := some n.notifications.count
      notifications := n.endWindow.notifications.issue } := by
  unfold openWindow
  rw [if_neg (by simp [hc])]

end ServerNode

/-- What an operation does to the window of a node, and to whether it runs. -/
inductive NodeOperation.Course (n : ServerNode) : NodeOperation → ServerNode → Prop
  | still {o : NodeOperation} {n' : ServerNode} (hend : o ≠ .endWindow) (herase : o ≠ .erase)
      (hopen : o = .openWindow → n.closed = true) (h : n.Still n') : Course n o n'
  | start (hc : n.closed = false) : Course n .start { n with started := true }
  | close (hc : n.closed = false) :
      Course n .close { n with closed := true, started := false }.endWindow
  | erase : Course n .erase n.stopErased
  | openWindow (hc : n.closed = false) :
      Course n .openWindow { n.endWindow with
        window := some n.notifications.count
        notifications := n.endWindow.notifications.issue }
  | endWindow : Course n .endWindow n.endWindow

namespace NodeOperation

theorem course (o : NodeOperation) (n : ServerNode) : Course n o (o.apply n) := by
  have hstill (hend : o ≠ .endWindow) (herase : o ≠ .erase) (hopen : o ≠ .openWindow)
      (h : ∀ n', o.change n = .ok n' → n.Still n') : Course n o (o.apply n) :=
    .still hend herase (fun heq => absurd heq hopen) (o.apply_ind h (.refl n))
  -- What is refused on a closed node leaves it as it is.
  have hclosed (hend : o ≠ .endWindow) (herase : o ≠ .erase) (hc : n.closed = true)
      {e : StackError} (h : o.change n = .error e) : Course n o (o.apply n) :=
    .still hend herase (fun _ => hc) ((apply_of_error h).symm ▸ .refl n)
  cases o with
  | addAggregator id => exact hstill nofun nofun nofun fun _ => ServerNode.still_addAggregator
  | attach d => exact hstill nofun nofun nofun fun _ => ServerNode.still_onAggregator
  | setState id cluster name value =>
      exact hstill nofun nofun nofun fun _ => ServerNode.still_onAggregator
  | removeFabric index => exact hstill nofun nofun nofun fun _ => ServerNode.still_removeFabric
  | setCommissioned commissioned => exact .still nofun nofun nofun ⟨rfl, rfl, rfl, rfl⟩
  | addFabric f => exact .still nofun nofun nofun ⟨rfl, rfl, rfl, rfl⟩
  | erase => exact .erase
  | endWindow => exact .endWindow
  | start =>
      cases hc : n.closed with
      | true => exact hclosed nofun nofun hc (if_pos hc)
      | false => exact apply_of_ok (o := .start) (ServerNode.start_eq hc) ▸ .start hc
  | close =>
      cases hc : n.closed with
      | true => exact hclosed nofun nofun hc (if_pos hc)
      | false => exact apply_of_ok (o := .close) (ServerNode.close_eq hc) ▸ .close hc
  | openWindow =>
      cases hc : n.closed with
      | true => exact hclosed nofun nofun hc (if_pos hc)
      | false =>
          exact apply_of_ok (o := .openWindow) (ServerNode.openWindow_eq hc) ▸ .openWindow hc

end NodeOperation

/-! ## Notifications -/

namespace ServerNode

variable {m n : ServerNode}

@[simp] theorem closed_endWindow (n : ServerNode) : n.endWindow.closed = n.closed := by
  unfold endWindow
  split <;> rfl

/-- A closed node does not run, and of all notifications that a node has issued, only the one that
the open window owes is pending. -/
structure Accounts (n : ServerNode) : Prop where
  idle : n.closed = true → n.started = false
  pending : ∀ k, n.window = some k ↔
    k < n.notifications.count ∧ n.notifications.isResolved k = false

theorem accounts_new (config : ServerNodeConfig) : Accounts { config := config } :=
  ⟨fun _ => rfl, fun k => by simp [Notifications.count]⟩

theorem Accounts.of_eq (h : m.Accounts) (hidle : n.closed = true → n.started = false)
    (hw : n.window = m.window) (hn : n.notifications = m.notifications) : n.Accounts :=
  ⟨hidle, fun k => by rw [hw, hn]; exact h.pending k⟩

theorem Accounts.endWindow (h : n.Accounts) : n.endWindow.Accounts := by
  unfold ServerNode.endWindow
  cases hw : n.window with
  | none => exact h
  | some j =>
      refine ⟨h.idle, fun k => ?_⟩
      have hk := h.pending k
      have hj := ((h.pending j).mp hw).1
      rw [hw] at hk
      simp only [Notifications.count_resolve, Notifications.isResolved_resolve]
      grind

/-- All former notifications are resolved, as no window is left that would owe one. -/
theorem Accounts.openWindow (h : n.Accounts) :
    Accounts { n.endWindow with
      window := some n.notifications.count
      notifications := n.endWindow.notifications.issue } := by
  refine ⟨h.endWindow.idle, fun k => ?_⟩
  have hformer := h.endWindow.pending k
  have hnew := Notifications.isResolved_count n.endWindow.notifications
  rw [window_endWindow] at hformer
  rw [count_endWindow] at hformer hnew
  simp only [Notifications.count_issue, Notifications.isResolved_issue, count_endWindow]
  grind

theorem Accounts.course {o : NodeOperation} (h : m.Accounts) (ho : o.Course m n) : n.Accounts := by
  cases ho with
  | still _ _ _ hs =>
      refine h.of_eq ?_ hs.window hs.notifications
      rw [hs.closed, hs.started]
      exact h.idle
  | start hc => exact h.of_eq (fun hc' => absurd hc' (by simp [hc])) rfl rfl
  | close hc =>
      have hstop : Accounts { m with closed := true, started := false } :=
        h.of_eq (fun _ => rfl) rfl rfl
      exact hstop.endWindow
  | erase => exact h.of_eq (fun _ => rfl) rfl rfl
  | openWindow hc => exact h.openWindow
  | endWindow => exact h.endWindow

theorem Accounts.operated (h : n.Accounts) (os : List NodeOperation) :
    (n.operated os).Accounts :=
  operated_ind (fun o _ n hn => hn.course (o.course n)) h

/-- How many windows an operation opens. -/
def openings (n : ServerNode) : NodeOperation → Nat
  | .openWindow => if n.closed then 0 else 1
  | _ => 0

/-- How many windows operations open. -/
def allOpenings (n : ServerNode) : List NodeOperation → Nat
  | [] => 0
  | o :: os => n.openings o + (o.apply n).allOpenings os

/-- A notification is issued for each window that is opened. -/
theorem count_course {o : NodeOperation} (ho : o.Course m n) :
    n.notifications.count = m.notifications.count + m.openings o := by
  cases ho with
  | still _ _ hopen hs =>
      have hnone : m.openings o = 0 := by
        unfold openings
        split
        · exact if_pos (hopen rfl)
        · rfl
      rw [hs.notifications, hnone, Nat.add_zero]
  | start hc => rfl
  | close hc => exact count_endWindow _
  | erase => rfl
  | openWindow hc => simp [openings, hc]
  | endWindow => exact count_endWindow m

theorem count_operated (n : ServerNode) (os : List NodeOperation) :
    (n.operated os).notifications.count = n.notifications.count + n.allOpenings os := by
  induction os generalizing n with
  | nil => rfl
  | cons o os ih =>
      have hrest : (n.operated (o :: os)).notifications.count =
          (o.apply n).notifications.count + (o.apply n).allOpenings os := ih _
      rw [hrest, count_course (o.course n), allOpenings, Nat.add_assoc]

/-! ## Windows of closed nodes -/

/-- The data of a node were erased while a window was open, and nobody has ended the window since.
-/
def Overlooked (n : ServerNode) (os : List NodeOperation) (k : Nat) : Prop :=
  ∃ before after, os = before ++ .erase :: after ∧ (n.operated before).closed = false ∧
    (n.operated before).window = some k ∧ .endWindow ∉ after

/-- A closed node gets a window only by erasing, and loses it only when the window is ended. -/
theorem overdue_course {o : NodeOperation} (ho : o.Course m n) (k : Nat) :
    n.closed = true ∧ n.window = some k ↔
      (m.closed = true ∧ m.window = some k) ∧ o ≠ .endWindow ∨
        o = .erase ∧ m.closed = false ∧ m.window = some k := by
  cases ho with
  | still hend herase _ hs => simp [hs.closed, hs.window, hend, herase]
  | start hc => simp [hc]
  | close hc => simp [hc]
  | erase => cases hc : m.closed <;> simp [stopErased]
  | openWindow hc => simp [hc]
  | endWindow => simp

theorem overlooked_concat (n : ServerNode) (os : List NodeOperation) (o : NodeOperation) (k : Nat) :
    n.Overlooked (os ++ [o]) k ↔
      n.Overlooked os k ∧ o ≠ .endWindow ∨
        o = .erase ∧ (n.operated os).closed = false ∧ (n.operated os).window = some k := by
  constructor
  · rintro ⟨before, after, hos, hc, hw, hend⟩
    obtain rfl | ⟨after, o', rfl⟩ := List.eq_nil_or_concat after
    · obtain ⟨rfl, ho⟩ := List.append_inj' hos rfl
      exact .inr ⟨List.singleton_inj.mp ho, hc, hw⟩
    · rw [List.concat_eq_append] at hos hend
      rw [← List.cons_append, ← List.append_assoc] at hos
      obtain ⟨rfl, ho⟩ := List.append_inj' hos rfl
      obtain rfl := List.singleton_inj.mp ho
      simp only [List.mem_append, List.mem_singleton, not_or] at hend
      exact .inl ⟨⟨before, after, rfl, hc, hw, hend.1⟩, fun heq => hend.2 heq.symm⟩
  · rintro (⟨⟨before, after, rfl, hc, hw, hend⟩, ho⟩ | ⟨rfl, hc, hw⟩)
    · refine ⟨before, after ++ [o], by simp, hc, hw, ?_⟩
      simp only [List.mem_append, List.mem_singleton, not_or]
      exact ⟨hend, fun heq => ho heq.symm⟩
    · exact ⟨os, [], rfl, hc, hw, List.not_mem_nil⟩

/-- The window of a closed node has been overlooked. -/
theorem overdue_iff {n : ServerNode} (hc : n.closed = false) (os : List NodeOperation) (k : Nat) :
    (n.operated os).closed = true ∧ (n.operated os).window = some k ↔ n.Overlooked os k := by
  induction os using List.reverseRecOn with
  | nil =>
      have hnot : ¬ n.Overlooked [] k := by
        rintro ⟨before, after, hos, -⟩
        simp at hos
      simp [operated, hc, hnot]
  | append_singleton os o ih =>
      rw [operated_concat, overlooked_concat, ← ih]
      exact overdue_course (o.course _) k

end ServerNode

namespace Host

/-- What always holds of a node that the stack has made, whatever is done to it in whatever order:
(a) closed, it does not run; (b) a notification has been issued for each window that was opened, and
exactly that of the open window, if there is one, is pending; (c) closed, it has an open window
exactly if its data were erased while that window was open and nobody has ended the window since. -/
theorem window_of_operated {h h' : Host} {config : ServerNodeConfig} {i : Nat}
    (hmade : createNode config h = .ok i h') (os : List NodeOperation) :
    ∃ n, (h'.operated i os).stack.nodes[i]? = some n ∧
      (n.closed = true → n.started = false) ∧
      n.notifications.count = ServerNode.allOpenings { config := config } os ∧
      (∀ k, n.window = some k ↔
        k < n.notifications.count ∧ n.notifications.isResolved k = false) ∧
      ∀ k, n.closed = true ∧ n.window = some k ↔
        ∃ before after m, os = before ++ .erase :: after ∧
          (h'.operated i before).stack.nodes[i]? = some m ∧ m.closed = false ∧
          m.window = some k ∧ .endWindow ∉ after := by
  have hnew := getElem?_createNode hmade
  have haccounts := (ServerNode.accounts_new config).operated os
  refine ⟨_, getElem?_operated hnew os, haccounts.idle, ?_, haccounts.pending, fun k => ?_⟩
  · rw [ServerNode.count_operated]
    exact Nat.zero_add _
  · rw [ServerNode.overdue_iff rfl]
    constructor
    · rintro ⟨before, after, hos, hc, hw, hend⟩
      exact ⟨before, after, _, hos, getElem?_operated hnew before, hc, hw, hend⟩
    · rintro ⟨before, after, m, hos, hm, hc, hw, hend⟩
      obtain rfl := Option.some.inj ((getElem?_operated hnew before).symm.trans hm)
      exact ⟨before, after, hos, hc, hw, hend⟩

/-- A node is erased while its window is open, and the window stays open. -/
theorem window_of_erased :
    let config := Bridge.nodeConfig { config := { storagePath := ⟨"s"⟩ } } .legacy
    ∃ h n, createNode config {} = .ok 0 h ∧
      (h.operated 0 [.openWindow, .erase]).stack.nodes[0]? = some n ∧ n.closed = true ∧
      n.window = some 0 ∧ n.notifications.isResolved 0 = false := by
  intro config
  obtain ⟨i, hmade, rfl⟩ := exists_eq_ok_of_outcome
    (show (outcome (createNode config) {}).toOption.map id = some 0 by decide +kernel)
  obtain ⟨n, hn, -, -, hpending, hoverdue⟩ := window_of_operated hmade [.openWindow, .erase]
  obtain ⟨hclosed, hwindow⟩ := (hoverdue 0).mpr
    ⟨[.openWindow], [], _, rfl, getElem?_operated (getElem?_createNode hmade) _, rfl, rfl,
      List.not_mem_nil⟩
  exact ⟨_, n, hmade, hn, hclosed, hwindow, ((hpending 0).mp hwindow).2⟩

end Host

end DeviceBridge
