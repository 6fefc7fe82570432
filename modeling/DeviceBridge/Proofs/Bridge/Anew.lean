import DeviceBridge.Proofs.Bridge.Listener

/-!
# DeviceBridge.Proofs.Bridge.Anew

A bridge that was closed goes on like a new one. What tells the two apart is what lies in the past:
the count of windows, the listeners of earlier ones and the events that were sent. `Site.since`
takes the past away, and work that is `Bridge.Blind` to it does the same with it as without it. All
work of the bridge is, so a bridge that goes on after it was closed gives the answers of a new one
(`Site.closed_as_new`); listeners of windows that were opened before do nothing at all.
-/

namespace DeviceBridge

/-! ## Questions and turns -/

/-- What a bridge can be asked. -/
inductive Question where
  | uniqueId
  | deviceCount
  | isLegacy
  | commissioningState
  | fabrics

/-- What a bridge answers. -/
inductive Answer where
  /-- What was requested is done. -/
  | done
  | uniqueId (id : Option UniqueId)
  | deviceCount (n : Nat)
  | isLegacy (b : Bool)
  | commissioningState (s : CommissioningState)
  | fabrics (fs : List FabricInfo)

/-- The work of answering. -/
def Question.work : Question → Bridging Answer
  | uniqueId => do return .uniqueId (← get).bridge.uniqueId
  | deviceCount => do return .deviceCount (← get).bridge.devices.length
  | isLegacy => do return .isLegacy (← Bridge.isLegacy)
  | commissioningState => do return .commissioningState (← Bridge.commissioningState)
  | fabrics => do return .fabrics (← Bridge.fabrics)

/-- What a bridge goes through: a step of a run, or a question. -/
inductive Turn where
  | act (a : Action)
  | ask (q : Question)

namespace Site

/-- The site after a turn. -/
def take (s : Site) : Turn → Site
  | .act a => s.act a
  | .ask q => stateAfter q.work s

/-- What is answered in a turn. Nobody is answered for what happens without the bridge. -/
def replies (s : Site) : Turn → List (Except BridgeError Answer)
  | .act (.request r) => [outcome (do r.work; return .done) s]
  | .act _ => []
  | .ask q => [outcome q.work s]

/-- The site after turns one after the other. -/
def takeAll (s : Site) (ts : List Turn) : Site := ts.foldl take s

/-- What is answered in turns one after the other. -/
def repliesAll (s : Site) : List Turn → List (Except BridgeError Answer)
  | [] => []
  | t :: ts => s.replies t ++ (s.take t).repliesAll ts

end Site

/-! ## The past -/

/-- The listener as it would be had generations been counted from a later one on. -/
def Listener.since (g : Nat) (l : Listener) : Listener := { l with generation := l.generation - g }

/-- The bridge as it would be had it opened no window up to a generation and sent none of its first
events. -/
def Bridge.since (g : Nat) (told : List BridgeEvent) (b : Bridge) : Bridge :=
  { b with
    window := { b.window with generation := b.window.generation - g }
    listeners := (b.listeners.filter (g < ·.generation)).map (·.since g)
    events := b.events.drop told.length }

/-- The site without the past of its bridge. -/
def Site.since (g : Nat) (told : List BridgeEvent) (s : Site) : Site :=
  { s with bridge := s.bridge.since g told }

/-- A generation of which no window is open and events that were sent. -/
structure Bridge.Past (g : Nat) (told : List BridgeEvent) (b : Bridge) : Prop where
  generation : g ≤ b.window.generation
  shut : b.window.isOpen = true → g < b.window.generation
  told : told <+: b.events

namespace Bridge

variable {α β : Type} {g generation : Nat} {told : List BridgeEvent} {b : Bridge}

theorem drop_events (h : b.Past g told) (es : List BridgeEvent) :
    (b.events ++ es).drop told.length = b.events.drop told.length ++ es :=
  List.drop_append_of_le_length h.told.length_le

/-- The end of a window that was opened since is told of either way. -/
theorem since_markWindowClosed (h : b.Past g told) (hg : g ≤ generation) :
    markWindowClosed (generation - g) (b.since g told) =
      (markWindowClosed generation b).since g told := by
  have hle := h.generation
  have hiff : b.window.generation - g = generation - g ↔ b.window.generation = generation := by
    omega
  unfold markWindowClosed
  by_cases hc : b.window.isOpen = true ∧ b.window.generation = generation
  · rw [if_pos hc, if_pos ⟨hc.1, hiff.mpr hc.2⟩]
    simp only [since, drop_events h]
  · rw [if_neg hc, if_neg fun h' => hc ⟨h'.1, hiff.mp h'.2⟩]

theorem past_markWindowClosed (h : b.Past g told) :
    (markWindowClosed generation b).Past g told := by
  unfold markWindowClosed
  split
  · exact ⟨h.generation, fun ho => by contradiction, h.told.trans (List.prefix_append _ _)⟩
  · exact h

/-- Nothing can be told of the past. -/
theorem markWindowClosed_of_past (h : b.Past g told) (hg : generation ≤ g) :
    markWindowClosed generation b = b := by
  refine if_neg fun ⟨ho, hgen⟩ => ?_
  have := h.shut ho
  omega

/-! ## Work that does not see the past -/

/-- Work that does the same whether or not there is a past, and leaves it as it is. -/
def Blind (x : Bridging α) : Prop :=
  ∀ g told s, s.bridge.Past g told →
    After x s (fun a s' => x (s.since g told) = .ok a (s'.since g told) ∧ s'.bridge.Past g told)
      (fun e s' => x (s.since g told) = .error e (s'.since g told) ∧ s'.bridge.Past g told)

theorem blind_bind {x : Bridging α} {f : α → Bridging β} (hx : Blind x) (hf : ∀ a, Blind (f a)) :
    Blind (x >>= f) := by
  refine fun g told s hs => after_bind ((hx g told s hs).mono (fun a s' h => ?_) fun e s' h => ?_)
  · refine (hf a g told s' h.2).mono (fun b s'' h' => ?_) fun e s'' h' => ?_
    all_goals exact ⟨(bind_eq_of_ok h.1).trans h'.1, h'.2⟩
  · exact ⟨bind_eq_of_error h.1, h.2⟩

theorem blind_pure (a : α) : Blind (pure a) := fun _ _ _ hs => after_pure ⟨rfl, hs⟩

theorem blind_throw (e : BridgeError) : Blind (throw e : Bridging α) := fun _ _ _ hs =>
  after_throw ⟨rfl, hs⟩

/-- Work that goes by what it finds in the site, but finds nothing of the past. -/
theorem blind_get {k : Site → Bridging β} (hk : ∀ s, Blind (k s))
    (hsince : ∀ g told s, k (s.since g told) = k s) : Blind (get >>= k) := by
  refine fun g told s hs => after_bind (after_get ((hk s g told s hs).mono ?_ ?_))
  all_goals
    intro _ _ h
    rw [← hsince g told s] at h
    exact h

theorem blind_modify {f : Site → Site}
    (hf : ∀ g told s, s.bridge.Past g told →
      f (s.since g told) = (f s).since g told ∧ (f s).bridge.Past g told) :
    Blind (modify f) := by
  refine fun g told s hs => after_modify ⟨?_, (hf g told s hs).2⟩
  rw [← (hf g told s hs).1]
  rfl

theorem blind_update {f : Bridge → Bridge}
    (hf : ∀ g told b, b.Past g told →
      f (b.since g told) = (f b).since g told ∧ (f b).Past g told) :
    Blind (update f) :=
  blind_modify fun g told s hs =>
    ⟨congrArg (Site.mk s.host) (hf g told s.bridge hs).1, (hf g told s.bridge hs).2⟩

theorem blind_onHost (x : EStateM BridgeError Host α) : Blind (onHost x) := by
  refine fun g told s hs => after_onHost (.intro (fun a h hx => ⟨?_, hs⟩) fun e h hx => ⟨?_, hs⟩)
  all_goals
    unfold onHost
    rw [show (s.since g told).host = s.host from rfl, hx]
    rfl

theorem blind_logging (operation : String) {x : Bridging α} (hx : Blind x) :
    Blind (logging operation x) := by
  refine fun g told s hs => after_logging ((hx g told s hs).mono (fun a s' h => ⟨?_, h.2⟩)
    fun e s' h => ⟨?_, h.2⟩)
  all_goals
    unfold logging
    rw [h.1]
  rfl

theorem blind_heldNode : Blind heldNode := by
  refine blind_get (fun s => ?_) fun _ _ _ => rfl
  cases s.bridge.node with
  | some i => exact blind_pure i
  | none => exact blind_throw _

/-! ## Making nodes and closing them -/

theorem blind_isLegacy : Blind isLegacy := by
  refine blind_get (fun s => blind_bind (blind_onHost _) fun marked => ?_) fun _ _ _ => rfl
  cases marked
  · exact blind_pure _
  · exact blind_bind (blind_onHost _) fun _ => blind_pure _

theorem blind_resolveUniqueId (bits : RandomBits) : Blind (resolveUniqueId bits) := by
  refine blind_get (fun s => blind_bind (blind_onHost _) fun kept => ?_) fun _ _ _ => rfl
  cases kept with
  | some id => exact blind_pure _
  | none =>
      refine blind_bind blind_isLegacy fun legacy => ?_
      cases legacy <;> exact blind_pure _

theorem blind_furnish (node : Nat) (id : UniqueId) : Blind (furnish node id) :=
  blind_bind (blind_onHost _) fun _ => blind_get (fun _ => blind_onHost _) fun _ _ _ => rfl

theorem since_abandon (node g : Nat) (told : List BridgeEvent) (s : Site) :
    abandon node (s.since g told) = (abandon node s).since g told := by
  rw [abandon_eq_stateAfter, abandon_eq_stateAfter]
  rfl

theorem blind_buildNode (bits : RandomBits) : Blind (buildNode bits) := by
  refine blind_bind (blind_resolveUniqueId bits) fun id => blind_get (fun _ =>
    blind_bind (blind_onHost _) fun node => ?_) fun _ _ _ => rfl
  refine fun g told s hs => after_furnish_or ((blind_furnish node id g told s hs).mono
    (fun _ s' h => ⟨?_, h.2⟩) fun e s' h => ⟨?_, (bridge_abandon (s := s')).symm ▸ h.2⟩)
  · dsimp only
    rw [h.1]
  · dsimp only
    rw [h.1, ← since_abandon]

theorem blind_init (bits : RandomBits) : Blind (init bits) := by
  refine blind_get (fun s => ?_) fun _ _ _ => rfl
  cases s.bridge.node.isSome
  · exact blind_bind (blind_logging _ (blind_buildNode bits)) fun _ =>
      blind_update fun _ _ _ hb => ⟨rfl, hb.generation, hb.shut, hb.told⟩
  · exact blind_throw _

theorem since_forget (h : b.Past g told) :
    (b.since g told).forget = b.forget.since g told ∧ b.forget.Past g told :=
  have h' : Past g told { b with node := none, devices := [], uniqueId := none } :=
    ⟨h.generation, h.shut, h.told⟩
  ⟨since_markWindowClosed h' h.generation, past_markWindowClosed h'⟩

theorem blind_close : Blind close := by
  intro g told s hs
  have hforget := since_forget hs
  unfold close After
  simp only [show (s.since g told).host = s.host from rfl,
    show (s.since g told).bridge = s.bridge.since g told from rfl, hforget.1,
    show (s.bridge.since g told).node = s.bridge.node from rfl]
  cases s.bridge.node with
  | none => exact ⟨rfl, hforget.2⟩
  | some node =>
      dsimp only
      cases Host.changing (·.onNode node ServerNode.close) s.host with
      | ok a h => exact ⟨rfl, hforget.2⟩
      | error e h => cases e <;> exact ⟨rfl, hforget.2⟩

theorem blind_renew (reset : Bool) (bits resetBits : RandomBits) :
    Blind (renew reset bits resetBits) := by
  have hstart : Blind (startOver resetBits) :=
    blind_bind blind_heldNode fun _ => blind_bind (blind_onHost _) fun _ =>
      blind_bind blind_close fun _ => blind_get (fun _ =>
        blind_bind (blind_onHost _) fun _ => blind_init resetBits) fun _ _ _ => rfl
  refine blind_bind blind_close fun _ => blind_bind (blind_init bits) fun _ => ?_
  cases reset
  · exact blind_pure _
  · exact hstart

/-! ## Devices, windows and fabrics -/

theorem blind_addEndpoint (deviceType : String) (id : EndpointId) (info : DeviceInfo)
    (attributes : List (String × Json.Value)) :
    Blind (addEndpoint deviceType id info attributes) := by
  refine blind_get (fun s => ?_) fun _ _ _ => rfl
  dsimp only
  cases s.bridge.devices.contains id with
  | true => exact blind_throw _
  | false =>
      cases s.bridge.node with
      | none => exact blind_throw _
      | some node =>
          cases DeviceType.parse deviceType with
          | error e => exact blind_throw _
          | ok type =>
              exact blind_bind (blind_onHost _) fun _ =>
                blind_update fun _ _ _ hb => ⟨rfl, hb.generation, hb.shut, hb.told⟩

theorem blind_setEndpointState (id : EndpointId) (cluster name : String) (value : Json.Value) :
    Blind (setEndpointState id cluster name value) := by
  refine blind_get (fun s => ?_) fun _ _ _ => rfl
  cases s.bridge.devices.get? id with
  | none => exact blind_pure _
  | some d => exact blind_onHost _

theorem blind_start (now : Int64) : Blind (start now) := by
  have hrecord : Blind (recordLastStart now) :=
    blind_get (fun _ => blind_bind (blind_onHost _) fun _ =>
      keepStart_of (fun _ => blind_onHost _) (blind_throw _) _ _) fun _ _ _ => rfl
  refine blind_get (fun s => ?_) fun _ _ _ => rfl
  cases s.bridge.devices.isEmpty with
  | true => exact blind_throw _
  | false =>
      exact blind_bind blind_heldNode fun _ => blind_bind (blind_onHost _) fun _ =>
        blind_logging _ hrecord

/-- A window that is opened is not of the past, nor is its listener. -/
theorem blind_openWindow : Blind openWindow := by
  refine blind_bind blind_heldNode fun node => blind_bind (blind_onHost _) fun _ =>
    blind_modify fun g told s hs => ?_
  have hle := hs.generation
  dsimp only
  rw [show (s.since g told).host = s.host from rfl]
  cases (s.host.stack.nodes[node]?).bind ServerNode.window with
  | none => exact ⟨rfl, hs⟩
  | some notification =>
      have hcount : s.bridge.window.generation - g + 1 = s.bridge.window.generation + 1 - g := by
        omega
      have hnew : g < s.bridge.window.generation + 1 := by omega
      refine ⟨?_, Nat.le_of_lt hnew, fun _ => hnew, hs.told⟩
      simp only [Site.since, since, List.filter_append, List.map_append, Listener.since,
        List.filter_cons, hnew, decide_true, if_true, List.filter_nil, List.map_cons, List.map_nil,
        hcount]

theorem blind_closeWindow : Blind closeWindow :=
  blind_bind blind_heldNode fun _ => blind_bind (blind_onHost _) fun _ =>
    blind_update fun _ _ _ hb =>
      ⟨since_markWindowClosed hb hb.generation, past_markWindowClosed hb⟩

/-- No request sees the past. -/
theorem blind_work (r : Request) : Blind r.work := by
  cases r with
  | init bits => exact blind_init bits
  | close => exact blind_close
  | renew reset bits resetBits => exact blind_renew reset bits resetBits
  | addEndpoint deviceType id info attributes =>
      exact blind_addEndpoint deviceType id info attributes
  | setEndpointState id cluster name value => exact blind_setEndpointState id cluster name value
  | start now => exact blind_start now
  | openWindow => exact blind_openWindow
  | closeWindow => exact blind_closeWindow
  | removeFabric index => exact blind_bind blind_heldNode fun _ => blind_onHost _

/-- No question reveals the past. -/
theorem blind_question (q : Question) : Blind q.work := by
  cases q with
  | uniqueId => exact blind_get (fun _ => blind_pure _) fun _ _ _ => rfl
  | deviceCount => exact blind_get (fun _ => blind_pure _) fun _ _ _ => rfl
  | isLegacy => exact blind_bind blind_isLegacy fun _ => blind_pure _
  | commissioningState =>
      refine blind_bind (blind_bind blind_heldNode fun node => blind_get (fun s => ?_)
        fun _ _ _ => rfl) fun _ => blind_pure _
      cases s.host.stack.nodes[node]? with
      | none => exact blind_throw _
      | some n => exact blind_pure _
  | fabrics =>
      refine blind_bind (blind_bind blind_heldNode fun node => blind_get (fun s => ?_)
        fun _ _ _ => rfl) fun _ => blind_pure _
      cases s.host.stack.nodes[node]? with
      | none => exact blind_throw _
      | some n => exact blind_pure _

/-! ## Listeners -/

/-- The place of a pending listener among those that are not of the past. -/
def place (g : Nat) (ls : List Listener) (k : Nat) : Nat := (ls.take k).countP (g < ·.generation)

/-- A listener stands behind as many others as its place says. -/
theorem exists_front {ls : List Listener} {k : Nat} {l : Listener} (hl : ls[k]? = some l) :
    ∃ front rest, ls = front ++ l :: rest ∧ k = front.length := by
  obtain ⟨hk, rfl⟩ := List.getElem?_eq_some_iff.mp hl
  refine ⟨ls.take k, ls.drop (k + 1), ?_, (List.length_take_of_le (Nat.le_of_lt hk)).symm⟩
  rw [List.getElem_cons_drop, List.take_append_drop]

section
variable {s : Site} {front rest : List Listener} {l : Listener}
  (hparts : s.bridge.listeners = front ++ l :: rest)
include hparts

theorem deliver_length : deliver front.length s =
    if isReady s.host.stack l then
      { s with
        bridge := markWindowClosed l.generation { s.bridge with listeners := front ++ rest } }
    else s := by
  simp [deliver, hparts, List.eraseIdx_append_of_length_le]

/-- Delivering a listener of the past only removes it. -/
theorem since_deliver_of_le (hs : s.bridge.Past g told) (hg : l.generation ≤ g) :
    (deliver front.length s).since g told = s.since g told ∧
      (deliver front.length s).bridge.Past g told := by
  have hs' : Past g told { s.bridge with listeners := front ++ rest } :=
    ⟨hs.generation, hs.shut, hs.told⟩
  rw [deliver_length hparts, markWindowClosed_of_past hs' hg]
  split
  · refine ⟨?_, hs'⟩
    simp [Site.since, since, hparts, Nat.not_lt.mpr hg]
  · exact ⟨rfl, hs⟩

/-- Delivering a listener that is not of the past does the same in its place among those. -/
theorem since_deliver_of_lt (hs : s.bridge.Past g told) (hg : g < l.generation) :
    deliver (place g s.bridge.listeners front.length) (s.since g told) =
        (deliver front.length s).since g told ∧
      (deliver front.length s).bridge.Past g told := by
  have hs' : Past g told { s.bridge with listeners := front ++ rest } :=
    ⟨hs.generation, hs.shut, hs.told⟩
  have hsince : (s.since g told).bridge.listeners =
      (front.filter (g < ·.generation)).map (·.since g) ++
        l.since g :: (rest.filter (g < ·.generation)).map (·.since g) := by
    simp [Site.since, since, hparts, hg]
  have hplace : place g s.bridge.listeners front.length =
      ((front.filter (g < ·.generation)).map (·.since g)).length := by
    rw [place, hparts, List.take_left, List.countP_eq_length_filter, List.length_map]
  rw [hplace, deliver_length hsince, deliver_length hparts,
    show isReady (s.since g told).host.stack (l.since g) = isReady s.host.stack l from rfl]
  split
  · refine ⟨congrArg (Site.mk s.host) ?_, past_markWindowClosed hs'⟩
    rw [← since_markWindowClosed hs' (Nat.le_of_lt hg)]
    simp only [Site.since, since, Listener.since, List.filter_append, List.map_append]
  · exact ⟨rfl, hs⟩

end

end Bridge

/-! ## Turns -/

namespace Site

/-- A turn as a new bridge takes it, where a bridge that was closed before takes it: a listener of
the past has none, and the others have other places. -/
def anew (g : Nat) (s : Site) : Turn → List Turn
  | .act (.deliver k) =>
    match s.bridge.listeners[k]? with
    | none => []
    | some l =>
      if l.generation ≤ g then [] else [.act (.deliver (Bridge.place g s.bridge.listeners k))]
  | t => [t]

/-- Turns as a new bridge takes them. -/
def anewAll (g : Nat) (s : Site) : List Turn → List Turn
  | [] => []
  | t :: ts => s.anew g t ++ (s.take t).anewAll g ts

variable {g : Nat} {told : List BridgeEvent} {s : Site}

theorem takeAll_append (s : Site) (ts us : List Turn) :
    s.takeAll (ts ++ us) = (s.takeAll ts).takeAll us := List.foldl_append

theorem repliesAll_append (s : Site) (ts us : List Turn) :
    s.repliesAll (ts ++ us) = s.repliesAll ts ++ (s.takeAll ts).repliesAll us := by
  induction ts generalizing s with
  | nil => rfl
  | cons t ts ih => simp only [List.cons_append, repliesAll, ih, List.append_assoc]; rfl

/-- Work that does not see the past ends as it does without it. -/
theorem since_stateAfter {α : Type} {x : Bridging α} (hx : Bridge.Blind x)
    (hs : s.bridge.Past g told) :
    outcome x (s.since g told) = outcome x s ∧
      stateAfter x (s.since g told) = (stateAfter x s).since g told ∧
      (stateAfter x s).bridge.Past g told := by
  have h := hx g told s hs
  unfold After at h
  unfold outcome stateAfter
  cases hxs : x s with
  | ok a s' | error e s' =>
      rw [hxs] at h
      rw [h.1]
      exact ⟨rfl, rfl, h.2⟩

/-- A turn is the same without the past. -/
theorem since_take (hs : s.bridge.Past g told) (t : Turn) :
    (s.since g told).takeAll (s.anew g t) = (s.take t).since g told ∧
      (s.since g told).repliesAll (s.anew g t) = s.replies t ∧
      (s.take t).bridge.Past g told := by
  cases t with
  | ask q =>
      obtain ⟨hout, hafter, hs'⟩ := since_stateAfter (Bridge.blind_question q) hs
      exact ⟨hafter, congrArg (fun r => [r]) hout, hs'⟩
  | act a =>
      cases a with
      | request r =>
          obtain ⟨-, hafter, hs'⟩ := since_stateAfter (Bridge.blind_work r) hs
          have hdone := Bridge.blind_bind (Bridge.blind_work r) fun _ =>
            Bridge.blind_pure Answer.done
          exact ⟨hafter, congrArg (fun r => [r]) (since_stateAfter hdone hs).1, hs'⟩
      | incident i => exact ⟨rfl, rfl, hs⟩
      | outside t => exact ⟨rfl, rfl, hs⟩
      | deliver k =>
          cases hl : s.bridge.listeners[k]? with
          | none =>
              have hact : s.take (.act (.deliver k)) = s := by
                simp only [take, act, Bridge.deliver, hl]
              simp only [hact, anew, hl]
              exact ⟨rfl, rfl, hs⟩
          | some l =>
              obtain ⟨front, rest, hparts, rfl⟩ := Bridge.exists_front hl
              simp only [anew, hl]
              split
              · next hg =>
                obtain ⟨hafter, hs'⟩ := Bridge.since_deliver_of_le hparts hs hg
                exact ⟨hafter.symm, rfl, hs'⟩
              · next hg =>
                obtain ⟨hafter, hs'⟩ :=
                  Bridge.since_deliver_of_lt hparts hs (Nat.lt_of_not_le hg)
                exact ⟨hafter, rfl, hs'⟩

/-- Turns are the same without the past. -/
theorem since_takeAll (hs : s.bridge.Past g told) (ts : List Turn) :
    (s.since g told).takeAll (s.anewAll g ts) = (s.takeAll ts).since g told ∧
      (s.since g told).repliesAll (s.anewAll g ts) = s.repliesAll ts ∧
      (s.takeAll ts).bridge.Past g told := by
  induction ts generalizing s with
  | nil => exact ⟨rfl, rfl, hs⟩
  | cons t ts ih =>
      obtain ⟨hafter, hreplies, hs'⟩ := since_take hs t
      obtain ⟨hafter', hreplies', hs''⟩ := ih hs'
      rw [anewAll, takeAll_append, repliesAll_append, hafter, hreplies]
      exact ⟨hafter', congrArg (s.replies t ++ ·) hreplies', hs''⟩

/-- Closing never fails on a bridge whose node was made by the stack, and nothing but the past
remains. -/
theorem Attended.close_eq_ok (hs : s.Attended) :
    ∃ h, Bridge.close s = .ok () ⟨h, s.bridge.forget⟩ := by
  have h := Bridge.after_close s
  unfold After at h
  cases hx : Bridge.close s with
  | ok u s' =>
      rw [hx] at h
      exact ⟨s'.host, by rw [← h.1]⟩
  | error e s' =>
      rw [hx] at h
      obtain ⟨-, -, -, i, hi, hnone⟩ := h
      obtain ⟨n, hn, -⟩ := hs.held i hi
      exact absurd (hn.symm.trans hnone) (by simp)

/-- Without its past, a bridge that was closed is a new one. -/
theorem Attended.since_forget (hs : s.Attended) (h : Host) :
    Site.since s.bridge.window.generation s.bridge.forget.events ⟨h, s.bridge.forget⟩ =
        ⟨h, { config := s.bridge.config }⟩ ∧
      s.bridge.forget.Past s.bridge.window.generation s.bridge.forget.events := by
  refine ⟨congrArg (Site.mk h) ?_, ⟨?_, fun ho => ?_, List.prefix_rfl⟩⟩
  · have hpast : s.bridge.listeners.filter (s.bridge.window.generation < ·.generation) = [] := by
      simpa using hs.generation
    have hclosed : s.bridge.forget.window = ⟨false, s.bridge.window.generation⟩ := by
      rw [← Bridge.isOpen_forget s.bridge, ← Bridge.generation_forget s.bridge]
    unfold Bridge.since
    simp [hpast, hclosed]
  · simp
  · simp at ho

/-- Nothing leaks across closing. Whatever happened to a bridge, closing it succeeds, and it then
goes on like a new one with its configuration on the same storage and stack: it gives the same
answers, sends the same events and leaves the same storage, nodes and log, in whatever order the
listeners of windows that were opened before get their turns in between. -/
theorem closed_as_new (h : Host) (c : BridgeConfig) (as : List Action) :
    let used : Site := run ⟨h, { config := c }⟩ as
    ∃ s, Bridge.close used = .ok () s ∧ ∀ ts : List Turn,
      let fresh : Site := ⟨s.host, { config := used.bridge.config }⟩
      let us := s.anewAll s.bridge.window.generation ts
      s.repliesAll ts = fresh.repliesAll us ∧
        (s.takeAll ts).host = (fresh.takeAll us).host ∧
        (s.takeAll ts).bridge.events = s.bridge.events ++ (fresh.takeAll us).bridge.events ∧
        (s.takeAll ts).bridge.since s.bridge.window.generation s.bridge.events =
          (fresh.takeAll us).bridge := by
  intro used
  have hs : used.Attended := attended_run (attended_new h c) as
  obtain ⟨h', hclose⟩ := hs.close_eq_ok
  obtain ⟨hnew, hpast⟩ := hs.since_forget h'
  refine ⟨_, hclose, fun ts => ?_⟩
  dsimp only
  rw [Bridge.generation_forget, ← hnew]
  obtain ⟨hafter, hreplies, hpast'⟩ := since_takeAll (s := ⟨h', used.bridge.forget⟩) hpast ts
  rw [hreplies, hafter]
  exact ⟨rfl, rfl, (List.prefix_iff_eq_append.mp hpast'.told).symm, rfl⟩

end Site

end DeviceBridge
