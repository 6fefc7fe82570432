import DeviceBridge.Proofs.Bridge.Identity
import DeviceBridge.Proofs.Bridge.Refusal
import DeviceBridge.Proofs.Storage.Room

/-!
# DeviceBridge.Proofs.Bridge.LastStart

The times of the starts that a bridge keeps. A time is later than the one kept before and no earlier
than the clock, whatever the clock reads (`Bridge.follows_of_nextStart`). Only after the last time
that there is comes none (`Bridge.nextStart_eq_none_iff`): then a start is given up once the node
runs (`Bridge.after_start_last`). A start that does not come to its end leaves what is kept
(`Bridge.after_start_time`), and nothing but a start changes it (`Bridge.Mindful`), so that the
times of successive starts ascend (`Site.start_times`).
-/

namespace DeviceBridge

open Json (Value)
open Files (Tree Path)

namespace Bridge

/-! ## The next time -/

/-- A time comes after the one kept before and no earlier than the clock; the first time is that of
the clock. -/
def Follows (now time : Int64) : Option Int64 → Prop
  | none => time = now
  | some p => p < time ∧ now ≤ time

theorem lt_of_following {t u : Int64} (h : following t = some u) : t < u := by
  unfold following at h
  split at h
  · contradiction
  · next hlast =>
    obtain rfl := Option.some.inj h
    have hmax : t.toInt ≠ 2 ^ 63 - 1 := fun heq => hlast (Int64.toInt_inj.mp heq)
    have hlower := t.le_toInt
    have hupper := t.toInt_lt
    have hnext : (t + 1).toInt = t.toInt + 1 := by
      rw [Int64.toInt_add]
      exact Int.bmod_eq_of_le (by change _ ≤ t.toInt + 1; omega) (by change t.toInt + 1 < _; omega)
    rw [Int64.lt_iff_toInt_lt]
    omega

theorem follows_of_nextStart {kept : Option Int64} {now time : Int64}
    (h : nextStart kept now = some time) : Follows now time kept := by
  cases kept with
  | none => exact (Option.some.inj h).symm
  | some p =>
      unfold nextStart at h
      dsimp only at h
      split at h
      · next hnow =>
        have hlt := lt_of_following h
        exact ⟨hlt, Int64.le_trans hnow (Int64.le_of_lt hlt)⟩
      · next hnow =>
        obtain rfl := Option.some.inj h
        exact ⟨Int64.not_le.mp hnow, Int64.le_refl _⟩

/-- Only after the last time comes none, whatever the clock reads. -/
theorem nextStart_eq_none_iff {kept : Option Int64} {now : Int64} :
    nextStart kept now = none ↔ kept = some Int64.maxValue := by
  unfold nextStart following
  cases kept with
  | none => simp
  | some p =>
      by_cases hp : p = Int64.maxValue
      · simp [hp, Int64.le_maxValue]
      · by_cases hnow : now ≤ p <;> simp [hp, hnow]

/-- A time as it is kept. -/
def timeValue (t : Int64) : Value := .number (.integer (.ofInt64 t))

theorem timeValue_injective {t t' : Int64} (h : timeValue t = timeValue t') : t = t' := by
  have hval := congrArg Json.Integer.val (Json.Number.integer.inj (Value.number.inj h))
  exact Int64.toInt_inj.mp hval

/-- What is kept as a time is read as that time. -/
theorem decodeValue_timeValue (t : Int64) : Json.decodeValue (timeValue t) = .ok t := by
  have hval : (Json.Integer.ofInt64 t).val = t.toInt := rfl
  unfold timeValue Json.decodeValue
  simp only [Value.toDocument, Json.decode, hval, Int64.ofInt_toInt]
  exact if_pos t.toInt_lt

/-- Only a whole number is read as a time. -/
theorem eq_timeValue {v : Value} {t : Int64} (h : Json.decodeValue v = .ok t) :
    v = timeValue t := by
  unfold Json.decodeValue at h
  cases v with
  | number n =>
      cases n with
      | integer i =>
          simp only [Value.toDocument, Json.decode] at h
          split at h
          · next hi =>
            have hval : (Int64.ofInt i.val).toInt = i.val :=
              Int64.toInt_ofInt_of_le i.lower hi
            rw [← Except.ok.inj h]
            exact congrArg (fun i => Value.number (.integer i)) (Json.Integer.ext hval.symm)
          · contradiction
      | float x => contradiction
  | null | bool b | string s | array items | object members => contradiction

/-! ## What a start keeps -/

/-- What the document of a bridge shows as the time of its last start. -/
def ShowsStart (b : Bridge) (t : Tree) (kept : Option Int64) : Prop :=
  ∃ entries, b.appContext.Shows t entries ∧ entries.get? lastStartKey = kept.map timeValue

theorem ShowsStart.unique {b : Bridge} {t : Tree} {kept kept' : Option Int64}
    (h : b.ShowsStart t kept) (h' : b.ShowsStart t kept') : kept = kept' := by
  obtain ⟨entries, hshow, hget⟩ := h
  obtain ⟨entries', hshow', hget'⟩ := h'
  obtain rfl := hshow.unique hshow'
  exact (Option.map_inj_right fun _ _ => timeValue_injective).mp (hget.symm.trans hget')

theorem ShowsStart.eq_of_recalls {b : Bridge} {t : Tree} {shown : Option Int64} {p : Int64}
    (h : b.ShowsStart t shown) (hr : b.appContext.Recalls t lastStartKey (timeValue p)) :
    shown = some p := by
  obtain ⟨entries, hshow, hget⟩ := h
  exact ShowsStart.unique ⟨entries, hshow, hget⟩ ⟨entries, hshow, hr.get?_eq hshow⟩

/-- A time that was read, or found missing, is shown. -/
theorem showsStart_of_read {b : Bridge} {t : Tree} {entries : Json.Object} {kept : Option Int64}
    (hshow : b.appContext.Shows t entries)
    (hkept : match entries.get? lastStartKey with
      | some v => ∃ a, Json.decodeValue v = .ok a ∧ kept = some a
      | none => kept = none) : b.ShowsStart t kept := by
  refine ⟨entries, hshow, ?_⟩
  cases hv : entries.get? lastStartKey with
  | none =>
      rw [hv] at hkept
      rw [hkept]
      rfl
  | some v =>
      rw [hv] at hkept
      obtain ⟨t, ht, rfl⟩ := hkept
      rw [eq_timeValue ht]
      rfl

variable {s : Site}

/-- A start that is brought to an end keeps a time that follows the one kept before. One that is not
leaves all documents. -/
theorem after_recordLastStart_time (hs : s.tree.Sound) (now : Int64) :
    After (recordLastStart now) s
      (fun _ s' => ∃ shown time, s.bridge.ShowsStart s.tree shown ∧
        nextStart shown now = some time ∧
        s.bridge.appContext.Keeps s'.tree lastStartKey (timeValue time))
      (fun _ s' => s.bridge.storage.Untouched s.tree s'.tree) := by
  refine after_bind (after_get (after_bind ((after_get? _ _).mono (fun kept s₁ h₁ => ?_)
    fun _ _ h₁ => Namespace.untouched_of_eq h₁.tree)))
  obtain ⟨⟨-, -, -, ht₁⟩, entries, hshow, hkept⟩ := h₁
  have hs₁ : s₁.tree.Sound := ht₁ ▸ hs
  change s₁.host.disk.tree = s.host.disk.tree at ht₁
  cases hnext : nextStart kept now with
  | none => exact after_throw (Namespace.untouched_of_eq ht₁)
  | some time =>
      refine after_storing ((Context.after_set hs₁ _ _ _).mono (fun _ d h₂ => ?_) fun _ d h₂ => ?_)
      · obtain ⟨-, -, -, entries', hshow', hread⟩ := h₂
        exact ⟨kept, time, showsStart_of_read hshow hkept, hnext,
          Context.keeps_of_set hshow' hread⟩
      · obtain ⟨-, -, hu⟩ := h₂
        rw [ht₁] at hu
        exact hu

/-- Keeping a time is given up only after the last one. -/
theorem after_recordLastStart_overflow (now : Int64) (s : Site) :
    After (recordLastStart now) s (fun _ _ => True)
      (fun e _ => e = .overflow → s.bridge.ShowsStart s.tree (some Int64.maxValue)) := by
  have hget := refused_storing (s.bridge.appContext.get? Int64 lastStartKey) s
  refine after_bind (after_get (after_bind (((after_get? _ _).and hget).mono
    (fun kept s₁ h₁ => ?_) fun e _ h₁ he => absurd he h₁.2)))
  obtain ⟨⟨-, entries, hshow, hkept⟩, -⟩ := h₁
  cases hnext : nextStart kept now with
  | none => exact after_throw fun _ =>
      nextStart_eq_none_iff.mp hnext ▸ showsStart_of_read hshow hkept
  | some time => exact (refused_storing _ s₁).mono (fun _ _ h => h) fun _ _ h he => absurd he h

/-- On a disk without faults, what is shown is read. -/
theorem attains_get?_shown {kept : Option Int64} (h : s.host.disk.Faultless)
    (hk : s.bridge.ShowsStart s.tree kept) :
    Attains (storing (s.bridge.appContext.get? Int64 lastStartKey)) s
      (fun r s' => r = kept ∧ Looked s s') := by
  have hread : Attains (storing (s.bridge.appContext.get? Int64 lastStartKey)) s
      fun _ _ => True := by
    obtain ⟨entries, hshow, hget⟩ := hk
    refine after_storing ((Context.attains_get? h hshow fun v hv => ?_).imp fun _ _ _ => trivial)
    obtain ⟨t, -, rfl⟩ := Option.map_eq_some_iff.mp (hget.symm.trans hv)
    exact ⟨t, decodeValue_timeValue t⟩
  refine ((after_get? _ _).and hread).mono (fun r s' h' => ?_) fun _ _ h' => h'.2
  obtain ⟨⟨hlooked, entries, hshow, hr⟩, -⟩ := h'
  exact ⟨(showsStart_of_read hshow hr).unique hk, hlooked⟩

/-- After the last time none is kept: the work is given up. -/
theorem after_recordLastStart_last (h : s.host.disk.Faultless)
    (hlast : s.bridge.ShowsStart s.tree (some Int64.maxValue)) (now : Int64) :
    After (recordLastStart now) s (fun _ _ => False) (fun e _ => e = .overflow) := by
  refine after_bind (after_get (after_bind ((attains_get?_shown h hlast).mono
    (fun kept s₁ h₁ => ?_) fun _ _ => False.elim)))
  obtain ⟨rfl, -⟩ := h₁
  rw [nextStart_eq_none_iff.mpr rfl]
  exact after_throw rfl

theorem after_start_time (hs : s.tree.Sound) (now : Int64) :
    After (start now) s
      (fun _ s' => ∃ shown time, s.bridge.ShowsStart s.tree shown ∧
        nextStart shown now = some time ∧
        s.bridge.appContext.Keeps s'.tree lastStartKey (timeValue time))
      (fun e s' => s.bridge.storage.Untouched s.tree s'.tree ∧
        (e = .overflow → s.bridge.ShowsStart s.tree (some Int64.maxValue))) := by
  have hsame : s.bridge.storage.Untouched s.tree s.tree := Namespace.untouched_of_eq rfl
  refine after_bind (after_get ?_)
  cases s.bridge.devices.isEmpty with
  | true => exact after_throw ⟨hsame, nofun⟩
  | false =>
      refine after_bind (after_heldNode (fun i _ => ?_) fun _ => ⟨hsame, nofun⟩)
      have h := after_delegating_onNode (s := s) "startBridge" i (f := ServerNode.start)
        fun m n => ServerNode.continues_start
      refine after_bind ((h.and (refused_delegating _ _ s)).mono (fun _ s₁ h₁ => ?_)
        fun _ s₁ h₁ => ?_)
      · obtain ⟨⟨hb, hd, -⟩, -⟩ := h₁
        have htree : s₁.tree = s.tree := congrArg Files.Disk.tree hd
        refine after_logging (((after_recordLastStart_time (htree ▸ hs) now).and
          (after_recordLastStart_overflow now s₁)).mono (fun _ s₂ h₂ => ?_) fun _ s₂ h₂ => ?_)
        all_goals rw [hb, htree] at h₂
        · exact h₂.1
        · exact h₂
      · exact ⟨Namespace.untouched_of_eq (congrArg Files.Disk.tree h₁.1.2.1),
          fun he => absurd he h₁.2⟩

/-- With its node started, nothing is left to do but to keep the time. -/
theorem start_of_start {i : Nat} {n n' : ServerNode} (hdevices : s.bridge.devices.isEmpty = false)
    (hi : s.bridge.node = some i) (hn : s.nodes[i]? = some n) (hstart : n.start = .ok n')
    (now : Int64) :
    start now s = logging "startBridge" (recordLastStart now) (s.setNode i n') := by
  unfold start
  rw [get_bind_eq, hdevices]
  exact (bind_eq_of_ok (heldNode_eq hi)).trans (bind_eq_of_ok (delegating_onNode_of_ok hn hstart))

/-- A start that gets to its node after the last time is given up. -/
theorem after_start_last (h : s.host.disk.Faultless) (hstarts : s.StartsNode)
    (hlast : s.bridge.ShowsStart s.tree (some Int64.maxValue)) (now : Int64) :
    After (start now) s (fun _ _ => False) (fun e _ => e = .overflow) := by
  obtain ⟨hdevices, i, hi, n, hn, hopen⟩ := hstarts
  unfold After
  rw [start_of_start hdevices hi hn (ServerNode.start_eq_ok_iff.mpr ⟨hopen, rfl⟩)]
  exact after_logging (after_recordLastStart_last (s := s.setNode i _) h hlast now)

end Bridge

/-! ## What leaves the time that is kept -/

/-- Whoever can read the document of the bridge finds the time of the last start. -/
structure Site.RecallsStart (c : BridgeConfig) (t : Int64) (s : Site) : Prop where
  sound : s.tree.Sound
  config : s.bridge.config = c
  recalls : s.bridge.appContext.Recalls s.tree Bridge.lastStartKey (Bridge.timeValue t)

theorem Site.RecallsStart.of_untouched {c : BridgeConfig} {t : Int64} {s s' : Site}
    (h : s.RecallsStart c t) (hs : s'.tree.Sound) (hc : s'.bridge.config = s.bridge.config)
    (hu : s.bridge.appContext.Untouched s.tree s'.tree) : s'.RecallsStart c t :=
  ⟨hs, hc.trans h.config, Bridge.appContext_congr hc ▸ hu.recalls h.recalls⟩

theorem Site.RecallsStart.of_disk {c : BridgeConfig} {t : Int64} {s s' : Site}
    (h : s.RecallsStart c t) (hd : s'.host.disk = s.host.disk)
    (hc : s'.bridge.config = s.bridge.config) : s'.RecallsStart c t := by
  have htree : s'.tree = s.tree := congrArg Files.Disk.tree hd
  exact h.of_untouched (htree ▸ h.sound) hc (htree ▸ .refl _ _)

namespace Bridge

/-- Work that leaves the time of the last start. -/
def Mindful {α : Type} (x : Bridging α) : Prop :=
  ∀ (c : BridgeConfig) (t : Int64), Maintains (Site.RecallsStart c t) x

variable {α β : Type}

theorem mindful_bind {x : Bridging α} {f : α → Bridging β} (h : Mindful x)
    (hf : ∀ a, Mindful (f a)) : Mindful (x >>= f) := fun c t =>
  maintains_bind (h c t) fun a => hf a c t

theorem mindful_of_disk {x : Bridging α} (h : ∀ s, Leaves x s fun s' =>
    s'.host.disk = s.host.disk ∧ s'.bridge.config = s.bridge.config) : Mindful x :=
  fun _ _ s hs => (h s).mono (fun _ _ h => hs.of_disk h.1 h.2) fun _ _ h => hs.of_disk h.1 h.2

theorem mindful_logging {x : Bridging α} (operation : String) (h : Mindful x) :
    Mindful (logging operation x) := fun c t s hs =>
  after_logging ((h c t s hs).mono (fun _ _ h => h) fun _ _ h => h.of_disk rfl rfl)

/-- The unique id is kept beside the time of the last start. -/
theorem mindful_furnish (i : Nat) (id : UniqueId) : Mindful (furnish i id) := by
  refine mindful_bind (mindful_of_disk fun s => after_hosted (Host.after_changing
    (fun _ _ => ⟨rfl, rfl⟩) fun _ _ => ⟨rfl, rfl⟩)) fun _ => ?_
  refine fun c t s hs => after_bind (after_get (after_storing
    ((Context.after_set hs.sound _ _ _).mono (fun _ d h => ?_) fun _ d h => ?_)))
  · obtain ⟨-, hs', -, entries, hshow, hread⟩ := h
    exact ⟨hs', hs.config, hs.recalls.of_set rfl (by decide) hshow hread⟩
  · exact hs.of_untouched h.2.1 rfl (h.2.2 _ rfl)

theorem mindful_buildNode (bits : RandomBits) : Mindful (buildNode bits) := by
  refine mindful_bind (fun c t s hs => (after_resolveUniqueId bits s).mono (fun _ s' h => ?_)
    fun _ s' h => ?_) fun id => ?_
  · obtain ⟨⟨hb, -, -, ht⟩, -⟩ := h
    exact hs.of_untouched (ht ▸ hs.sound) (by rw [hb]) (ht ▸ .refl _ _)
  · exact hs.of_untouched (h.tree ▸ hs.sound) (by rw [h.bridge]) (h.tree ▸ .refl _ _)
  refine fun c t s hs => after_bind (after_get (after_bind (after_hosted
    ((after_createNode hs.sound _).mono (fun i h₂ h => ?_) fun _ h₂ h => ?_))))
  · obtain ⟨-, -, -, hs₂, hother, -⟩ := h
    have hs' : Site.RecallsStart c t { s with host := h₂ } :=
      hs.of_untouched hs₂ rfl (hother s.bridge.appContext rfl (appContext_ne_rootContext s.bridge))
    exact after_furnish_or ((mindful_furnish i id c t _ hs').mono (fun _ _ h => h)
      fun _ _ h => h.of_disk disk_abandon (by rw [bridge_abandon]))
  · obtain ⟨-, -, hs₂, hu⟩ := h
    exact hs.of_untouched hs₂ rfl (hu s.bridge.appContext rfl)

theorem mindful_init (bits : RandomBits) : Mindful (init bits) := by
  refine fun c t s hs => after_bind (after_get ?_)
  cases s.bridge.node.isSome with
  | true => exact after_throw hs
  | false =>
      exact mindful_bind (mindful_logging _ (mindful_buildNode bits))
        (fun _ => mindful_of_disk fun s => after_update ⟨rfl, rfl⟩) c t s hs

theorem mindful_close : Mindful close :=
  mindful_of_disk fun s => (after_close s).mono
    (fun _ _ h => ⟨h.2.1, by rw [h.1, config_forget]⟩)
    fun _ _ h => ⟨h.2.1, by rw [h.1, config_forget]⟩

/-- No request but a start or starting over changes the time of the last start. -/
theorem mindful_work {r : Request} (hrenew : ∀ bits resetBits, r ≠ .renew true bits resetBits)
    (hstart : ∀ now, r ≠ .start now) : Mindful r.work := by
  have hminor {x : Bridging Unit}
      (h : ∀ {s : Site}, Leaves x s fun s' => s.Minor s' ∧ s'.host.disk = s.host.disk) :
      Mindful x :=
    mindful_of_disk fun s => h.mono (fun _ _ h => ⟨h.2, h.1.config⟩) fun _ _ h =>
      ⟨h.2, h.1.config⟩
  cases r with
  | init bits => exact mindful_init bits
  | close => exact mindful_close
  | renew reset bits resetBits =>
      cases reset with
      | true => exact absurd rfl (hrenew bits resetBits)
      | false =>
          exact mindful_bind mindful_close fun _ => mindful_bind (mindful_init bits) fun _ =>
            fun _ _ _ hs => after_pure hs
  | addEndpoint deviceType id info attributes =>
      refine mindful_of_disk fun s => (after_addEndpoint deviceType id info attributes).mono
        (fun _ _ h => ?_) fun _ _ h => ⟨h.1, by rw [h.2.2.1]⟩
      obtain ⟨hd, i, m, n, d, -, -, -, -, -, -, -, hb⟩ := h
      exact ⟨hd, by rw [hb]⟩
  | setEndpointState id cluster name value => exact hminor (after_setEndpointState ..)
  | start now => exact absurd rfl (hstart now)
  | openWindow => exact hminor after_openWindow_minor
  | closeWindow => exact hminor after_closeWindow
  | removeFabric index => exact hminor (after_removeFabric index)

end Bridge

/-! ## Successive starts -/

namespace Site

/-- A start that is brought to an end. -/
def Completes (s : Site) (a : Action) : Prop :=
  ∃ now, a = .request (.start now) ∧ succeeds (Bridge.start now) s = true

theorem recallsStart_act {c : BridgeConfig} {t : Int64} {s : Site} (hs : s.RecallsStart c t)
    {a : Action} (ha : s.Careful a) (hno : ¬ s.Completes a) : (s.act a).RecallsStart c t := by
  obtain ⟨hsole, hcareful⟩ := ha
  cases a with
  | request r =>
      by_cases hr : ∃ now, r = .start now
      · obtain ⟨now, rfl⟩ := hr
        have hfails : succeeds (Bridge.start now) s = false :=
          Bool.eq_false_iff.mpr fun h => hno ⟨now, rfl, h⟩
        obtain ⟨e, he⟩ := eq_error_of_not_succeeds hfails
        have hretains := (Bridge.after_start hs.sound now).of_error he
        exact hs.of_untouched hretains.2.1.steady.sound hretains.1.config
          (((Bridge.after_start_time hs.sound now).of_error he).1 _ rfl)
      · exact (Bridge.mindful_work (fun bits resetBits hr => hcareful bits resetBits (hr ▸ rfl))
          (fun now hr' => hr ⟨now, hr'⟩) c t s hs).stateAfter
  | deliver k =>
      obtain ⟨hm, hh⟩ := minor_deliver s k
      exact hs.of_disk (congrArg Host.disk hh) hm.config
  | incident i => exact hs.of_disk (leaves_incident s.host hsole.ne_eraseNode).stateAfter.1 rfl
  | outside t => exact hs.of_untouched hsole.1 rfl (hsole.2 _ rfl)

/-- The files after starts that bridges with a storage path have brought to an end, each on a stack
of its own and under faults of its own, with the times that were kept. What happens in between is no
such start, and nobody starts over. -/
inductive StartTimes (path : Path) (t : Tree) : List Int64 → Tree → Prop
  | none : StartTimes path t [] t
  | other {ts : List Int64} {s : Site} {a : Action} : StartTimes path t ts s.tree →
      s.bridge.config.storagePath = path → s.Careful a → ¬ s.Completes a →
      StartTimes path t ts (s.act a).tree
  | start {ts : List Int64} {s s' : Site} {now kept : Int64} : StartTimes path t ts s.tree →
      s.bridge.config.storagePath = path → Bridge.start now s = .ok () s' →
      (appContextAt path).Keeps s'.tree Bridge.lastStartKey (Bridge.timeValue kept) →
      StartTimes path t (ts ++ [kept]) s'.tree

/-- The time that the last start in a row has kept is the one that the next start follows. -/
theorem StartTimes.recalls {path : Path} {t t' : Tree} {ts : List Int64}
    (h : StartTimes path t ts t') (hs : t.Sound) : t'.Sound ∧ ∀ p, ts.getLast? = some p →
      (appContextAt path).Recalls t' Bridge.lastStartKey (Bridge.timeValue p) := by
  induction h with
  | none => exact ⟨hs, fun p hp => by simp at hp⟩
  | @other ts s a hts hpath ha hno ih =>
      subst hpath
      refine ⟨(retainsId_act ih.1 ha).steady.sound, fun p hp => ?_⟩
      have hrecalls : s.RecallsStart s.bridge.config p := ⟨ih.1, rfl, ih.2 p hp⟩
      have hact := recallsStart_act hrecalls ha hno
      rw [show appContextAt s.bridge.config.storagePath = (s.act a).bridge.appContext from
        (Bridge.appContext_congr hact.config).symm]
      exact hact.recalls
  | @start ts s s' now kept hts hpath hx hk ih =>
      refine ⟨((Bridge.after_start ih.1 now).of_ok hx).2.1.steady.sound, fun p hp => ?_⟩
      obtain rfl : kept = p := by simpa using hp
      exact hk.recalls (Json.Value.reread_integer ..)

/-- The times ascend. -/
theorem StartTimes.pairwise_lt {path : Path} {t t' : Tree} {ts : List Int64}
    (h : StartTimes path t ts t') (hs : t.Sound) : ts.Pairwise (· < ·) := by
  induction h with
  | none => exact .nil
  | other _ _ _ _ ih => exact ih
  | @start ts s s' now kept hts hpath hx hk ih =>
      subst hpath
      obtain ⟨hsound, hrecalls⟩ := hts.recalls hs
      obtain ⟨shown, time, hshown, hnext, hkeeps⟩ := (Bridge.after_start_time hsound now).of_ok hx
      obtain rfl : kept = time := Bridge.timeValue_injective
        (congrArg (fun i => Value.number (.integer i)) (hk.integer_unique hkeeps))
      rcases List.eq_nil_or_concat ts with rfl | ⟨us, p, rfl⟩
      · exact List.pairwise_singleton _ _
      rw [List.concat_eq_append] at ih hrecalls ⊢
      obtain rfl := hshown.eq_of_recalls (hrecalls p List.getLast?_concat)
      have hlt : p < kept := (Bridge.follows_of_nextStart hnext).1
      refine List.pairwise_append.mpr ⟨ih, List.pairwise_singleton _ _, fun q hq r hr => ?_⟩
      obtain rfl := List.mem_singleton.mp hr
      rcases List.mem_append.mp hq with hq | hq
      · have hqp := (List.pairwise_append.mp ih).2.2 q hq p (List.mem_singleton_self p)
        exact Int64.lt_trans hqp hlt
      · exact List.mem_singleton.mp hq ▸ hlt

/-- The times of successive starts ascend, whatever the clocks read and whatever happens in between.
A start follows the time that is shown, wherever it comes from: what it keeps is later and no
earlier than the clock. A start that does not come to its end leaves all documents. It is given up
only where the last time that there is is shown; there every start is given up that gets to its
node, whatever the clock reads, unless the disk is at fault. -/
theorem start_times {path : Path} {t : Tree} {ts : List Int64} {s : Site} (hsound : t.Sound)
    (htimes : StartTimes path t ts s.tree) (hpath : s.bridge.config.storagePath = path) :
    ts.Pairwise (· < ·) ∧
      (∀ now, After (Bridge.start now) s
        (fun _ s' => ∃ shown kept, s.bridge.ShowsStart s.tree shown ∧
          s.bridge.appContext.Keeps s'.tree Bridge.lastStartKey (Bridge.timeValue kept) ∧
          (∀ p, ts.getLast? = some p → shown = some p) ∧ Bridge.Follows now kept shown)
        (fun e s' => s.bridge.storage.Untouched s.tree s'.tree ∧
          (e = .overflow → s.bridge.ShowsStart s.tree (some Int64.maxValue)))) ∧
      (s.bridge.ShowsStart s.tree (some Int64.maxValue) → s.host.disk.Faultless → s.StartsNode →
        ∀ now, ∃ s', Bridge.start now s = .error .overflow s') := by
  subst hpath
  obtain ⟨hs, hrecalls⟩ := htimes.recalls hsound
  refine ⟨htimes.pairwise_lt hsound, fun now => ?_, fun hlast hfaultless hstarts now => ?_⟩
  · refine (Bridge.after_start_time hs now).imp fun _ s' h => ?_
    obtain ⟨shown, kept, hshown, hnext, hkeeps⟩ := h
    exact ⟨shown, kept, hshown, hkeeps, fun p hp => hshown.eq_of_recalls (hrecalls p hp),
      Bridge.follows_of_nextStart hnext⟩
  · have hstart := Bridge.after_start_last hfaultless hstarts hlast now
    cases hx : Bridge.start now s with
    | ok _ s' => exact (hstart.of_ok hx).elim
    | error e s' => exact ⟨s', by rw [hstart.of_error hx]⟩

/-- A bridge that has not been made yet. -/
def unmade : Site := ⟨{}, { config := { storagePath := ⟨"/s"⟩ } }⟩

/-- A bridge gets its first device. -/
def firstDevice : List Action :=
  [.request (.init ⟨0, 0⟩), .request (.addEndpoint "Fan" ⟨"f"⟩ {} [])]

/-- A bridge that has got its first device has not been started. -/
theorem startTimes_firstDevice : unmade.RetainsId (run unmade firstDevice) ∧
    StartTimes ⟨"/s"⟩ [] [] (run unmade firstDevice).tree := by
  have hrun (s : Site) : run s firstDevice =
      (s.act (.request (.init ⟨0, 0⟩))).act (.request (.addEndpoint "Fan" ⟨"f"⟩ {} [])) := rfl
  have hinit : unmade.Careful (.request (.init ⟨0, 0⟩)) := ⟨trivial, fun _ _ h => nomatch h⟩
  have hmade := retainsId_act Files.Tree.sound_nil hinit
  have hadd : (unmade.act (.request (.init ⟨0, 0⟩))).Careful
      (.request (.addEndpoint "Fan" ⟨"f"⟩ {} [])) := ⟨trivial, fun _ _ h => nomatch h⟩
  rw [hrun]
  exact ⟨hmade.trans (retainsId_act hmade.steady.sound hadd),
    .other (.other .none rfl hinit fun ⟨_, h, _⟩ => nomatch h)
      (congrArg BridgeConfig.storagePath hmade.config) hadd fun ⟨_, h, _⟩ => nomatch h⟩

/-- Once a bridge has been started at the last moment that there is, every start is given up. -/
theorem no_start_after_last_moment : ∃ s s' : Site, Bridge.start Int64.maxValue s = .ok () s' ∧
    s.bridge.appContext.Keeps s'.tree Bridge.lastStartKey (Bridge.timeValue Int64.maxValue) ∧
    ∀ now, ∃ s'', Bridge.start now s' = .error .overflow s'' ∧
      s'.bridge.storage.Untouched s'.tree s''.tree := by
  have hstart := eq_ok_of_succeeds
    (show succeeds (Bridge.start Int64.maxValue) (run unmade firstDevice) = true by decide +kernel)
  have hstarts :
      (stateAfter (Bridge.start Int64.maxValue) (run unmade firstDevice)).StartsNode := by
    decide +kernel
  have hread : succeeds (Bridge.storing ((appContextAt ⟨"/s"⟩).get? Int64 Bridge.lastStartKey))
      (stateAfter (Bridge.start Int64.maxValue) (run unmade firstDevice)) = true := by
    decide +kernel
  obtain ⟨hretains, hfan⟩ := startTimes_firstDevice
  -- What the disk holds does not matter any more, and is costly to compute again.
  generalize stateAfter (Bridge.start Int64.maxValue) (run unmade firstDevice) = s'
    at hstart hstarts hread
  generalize run unmade firstDevice = s at hfan hretains hstart
  have hpath : s.bridge.config.storagePath = ⟨"/s"⟩ :=
    congrArg BridgeConfig.storagePath hretains.config
  have hat : s.bridge.appContext = appContextAt ⟨"/s"⟩ := congrArg appContextAt hpath
  obtain ⟨-, hretained, -⟩ := (Bridge.after_start hretains.steady.sound _).of_ok hstart
  obtain ⟨-, hdone, -⟩ := start_times Files.Tree.sound_nil hfan hpath
  obtain ⟨shown, kept, -, hkeeps, -, hfollows⟩ := (hdone _).of_ok hstart
  obtain rfl : kept = Int64.maxValue := by
    cases shown with
    | none => exact hfollows
    | some p => exact Int64.le_antisymm (Int64.le_maxValue kept) hfollows.2
  have hlater := hfan.start hpath hstart (hat ▸ hkeeps)
  have hpath' : s'.bridge.config.storagePath = ⟨"/s"⟩ :=
    congrArg BridgeConfig.storagePath (hretains.trans hretained).config
  have hat' : s'.bridge.appContext = appContextAt ⟨"/s"⟩ := congrArg appContextAt hpath'
  -- The document can be read, so it shows what the start has kept.
  obtain ⟨time, hok⟩ := exists_eq_ok_of_succeeds hread
  obtain ⟨-, entries, hshow, hkept⟩ := (Bridge.after_get? _ _).of_ok hok
  have hshown := Bridge.showsStart_of_read (hat' ▸ hshow) hkept
  obtain rfl := hshown.eq_of_recalls (hat' ▸ (hlater.recalls Files.Tree.sound_nil).2 _ rfl)
  obtain ⟨-, hgiven, hlast⟩ := start_times Files.Tree.sound_nil hlater hpath'
  refine ⟨s, s', hstart, hkeeps, fun now => ?_⟩
  obtain ⟨s'', herror⟩ :=
    hlast hshown (congrFun (hretains.trans hretained).steady.faults) hstarts now
  exact ⟨s'', herror, ((hgiven now).of_error herror).1⟩

end Site

end DeviceBridge
