import DeviceBridge.Daemon.Startup
import DeviceBridge.Proofs.Bridge.Recovery

/-!
# DeviceBridge.Proofs.Daemon.Recovery

What a reset recovers from. A bridge that is reset, and a daemon that is started with its storage
reset, first make a node from what is stored (`reset_recovers_iff_legible`). The daemon tells so:
its start ends with the failure to make the bridge if and only if renewing the bridge fails
(`Daemon.uninitialized_iff`), whatever else goes wrong after that (`Daemon.Initialized`).
-/

namespace DeviceBridge

open Files (Disk Path Tree)

theorem DaemonConfig.after_load (p : Path) (d : Disk) :
    After (DaemonConfig.load p) d (fun _ d' => d'.faults = d.faults ∧ d'.tree = d.tree)
      (fun _ _ => True) := by
  have hstat : Leaves (Disk.stat p) d (fun d' => d'.faults = d.faults ∧ d'.tree = d.tree) :=
    (Disk.after_look _).mono (fun _ _ h => ⟨h.1, h.2.1⟩) fun _ _ h => ⟨h.1, h.2.1⟩
  have hread (d : Disk) :
      After (Disk.read p) d (fun _ d' => d'.faults = d.faults ∧ d'.tree = d.tree) fun _ _ => True :=
    (Disk.after_look _).mono (fun _ _ h => ⟨h.1, h.2.1⟩) fun _ _ _ => trivial
  unfold After DaemonConfig.load
  cases hx : Disk.stat p d with
  | error e d₁ => exact hstat.of_error hx
  | ok k d₁ =>
      obtain ⟨hf₁, ht₁⟩ := hstat.of_ok hx
      dsimp only
      cases hy : Disk.read p d₁ with
      | error e d₂ => trivial
      | ok text d₂ =>
          obtain ⟨hf₂, ht₂⟩ := (hread d₁).of_ok hy
          dsimp only
          cases DaemonConfig.ofToml text with
          | error e => trivial
          | ok config => exact ⟨hf₂.trans hf₁, ht₂.trans ht₁⟩

namespace Daemon

/-! ## The start after the bridge has been made -/

/-- It is not the making of the bridge that failed. -/
def Initialized (e : StartupError) : Prop :=
  ∀ e', e ≠ .bridge (some "Failed to initialize bridge") e'

section
variable {α : Type}

theorem after_bridging {context : Option String} {x : Bridging α} {d : Daemon}
    {done : α → Daemon → Prop} {failed : StartupError → Daemon → Prop}
    (hx : After x d.site (fun a s => done a { d with site := s })
      fun e s => failed (.bridge context e) { d with site := s }) :
    After (bridging context x) d done failed :=
  .within (.bridge context) (by unfold bridging; cases x d.site <;> rfl) hx

/-- Other work than the making of the bridge does not fail as that does. -/
theorem initialized_bridging {context : Option String} (x : Bridging α)
    (hne : context ≠ some "Failed to initialize bridge") :
    FailsOnly Initialized (bridging context x) := fun _ =>
  after_bridging (.intro (fun _ _ _ => trivial)
    fun _ _ _ _ he => hne (StartupError.bridge.inj he).1)

theorem initialized_controlling (context : Option String) (c : ControllerNode)
    (x : Controlling α) : FailsOnly Initialized (controlling context c x) := fun d => by
  unfold After controlling
  cases x ⟨d.site.host, c⟩ with
  | ok a s => trivial
  | error e s => exact nofun

end

theorem initialized_addDevice (c : DeviceConfig) : FailsOnly Initialized (addDevice c) := by
  refine initialized_bridging _ fun heq => ?_
  -- The two contexts differ in the first letter of what is being done.
  have hletters := congrArg String.toList (Option.some.inj heq)
  rw [String.toList_append] at hletters
  exact absurd (congrArg (·.take 11) hletters) (by simp)

theorem initialized_invite : FailsOnly Initialized invite := by
  refine failsOnly_bind (initialized_bridging _ (by decide)) fun state => ?_
  split
  · exact initialized_bridging _ (by decide)
  · exact failsOnly_pure _

/-- What the start does once the bridge has been made. -/
def followUp (config : DaemonConfig) (now : Int64) : Serving Unit := do
  config.devices.forM addDevice
  bridging (some "Failed to start bridge") (Bridge.start now)
  invite
  match config.controller with
  | some config => startController config
  | none => return

theorem start_eq (config : DaemonConfig) (reset : Bool) (c : Circumstances) :
    start config reset c = (do
      bridging (some "Failed to initialize bridge") (Bridge.renew reset c.bits c.resetBits)
      followUp config c.now) := by
  unfold start startBridge
  exact (bind_assoc _ _ _).trans (congrArg _ (funext fun _ => bind_assoc _ _ _))

theorem initialized_followUp (config : DaemonConfig) (now : Int64) :
    FailsOnly Initialized (followUp config now) := by
  refine failsOnly_bind (failsOnly_forM fun c _ => initialized_addDevice c) fun _ =>
    failsOnly_bind (initialized_bridging _ (by decide)) fun _ =>
      failsOnly_bind initialized_invite fun _ => ?_
  split
  · exact initialized_controlling _ _ _
  · exact failsOnly_pure _

/-- The start ends with the failure to make the bridge exactly if the bridge cannot be renewed. -/
theorem after_start (config : DaemonConfig) (reset : Bool) (c : Circumstances) (d : Daemon) :
    After (start config reset c) d
      (fun _ _ => succeeds (Bridge.renew reset c.bits c.resetBits) d.site = true)
      (fun e _ => succeeds (Bridge.renew reset c.bits c.resetBits) d.site = true ↔
        Initialized e) := by
  rw [start_eq]
  refine after_bind (after_bridging (.intro (fun u s hx => ?_) fun e s hx => ?_))
  · have hrenewed : succeeds (Bridge.renew reset c.bits c.resetBits) d.site = true := by
      unfold succeeds
      rw [hx]
    exact (initialized_followUp config c.now _).mono (fun _ _ _ => hrenewed)
      fun e _ he => iff_of_true hrenewed he
  · have hfailed : ¬ succeeds (Bridge.renew reset c.bits c.resetBits) d.site = true := by
      unfold succeeds
      rw [hx]
      exact nofun
    exact iff_of_false hfailed fun he => he e rfl

/-- With its settings read, the start of a daemon ends with the failure to make the bridge exactly
if the bridge cannot be renewed. -/
theorem uninitialized_iff {o : DaemonOptions} {c : Circumstances} {d d' : Disk}
    {config : DaemonConfig} (hload : DaemonConfig.load o.config d = .ok config d') :
    (∃ e x, launch o c d = .error (.bridge (some "Failed to initialize bridge") e) x) ↔
      ¬ succeeds (Bridge.renew o.resetStorage c.bits c.resetBits) (fresh d' config).site =
        true := by
  have hstart := after_start config o.resetStorage c (fresh d' config)
  unfold launch
  rw [hload]
  dsimp only
  constructor
  · rintro ⟨e, x, hx⟩ hrenewed
    exact (hstart.of_error hx).mp hrenewed e rfl
  · intro hfailed
    cases hx : start config o.resetStorage c (fresh d' config) with
    | ok u x => exact absurd (hstart.of_ok hx) hfailed
    | error e x =>
        have he : ¬ Initialized e := fun he => hfailed ((hstart.of_error hx).mpr he)
        obtain ⟨e', rfl⟩ := Classical.not_forall_not.mp he
        exact ⟨e', x, rfl⟩

end Daemon

/-! ## Resetting -/

/-- On a disk without faults, with a stack that does not refuse and no file on the way to the
namespace, what is stored decides on its own whether a reset succeeds. -/
theorem Site.Orderly.succeeds_renew_iff {first : Nat} {s : Site} (ho : s.Orderly first)
    (h : s.Calm) (hn : s.bridge.storage.Unblocked s.tree) (bits resetBits : RandomBits) :
    succeeds (Bridge.renew true bits resetBits) s = true ↔ s.bridge.Legible s.tree := by
  constructor
  · exact fun hx => (Bridge.after_renew_legible h.sound true bits resetBits).of_ok
      (eq_ok_of_succeeds hx)
  · intro hl
    obtain ⟨u, s', hx, -⟩ := (ho.attains_renew h hn hl bits resetBits).exists_ok
    unfold succeeds
    rw [hx]

/-- Whatever happened to a bridge and whatever is stored, on a disk without faults, with a stack
that does not refuse, and where the directory of its namespace can be removed and made again: (a) a
reset succeeds if and only if a node can be made from what is stored before the reset; (b) so does a
daemon that is started with its storage reset, up to the point where the bridge has been made. -/
theorem reset_recovers_iff_legible (h : Host) (c : BridgeConfig) (as : List Action) (d : Disk)
    (bits resetBits : RandomBits) (hsound : h.disk.tree.Sound) (htidy : ∀ a ∈ as, Site.Tidy a)
    (hfaultless : d.Faultless) (hs : d.tree.Sound) :
    let r : Site := Site.run ⟨h, { config := c }⟩ as
    let s : Site := { r with host := { r.host with disk := d } }
    (s.host.stack.createFailure = none → s.bridge.storage.Renewable d →
        (succeeds (Bridge.renew true bits resetBits) s = true ↔ s.bridge.Legible d.tree)) ∧
      ∀ (o : DaemonOptions) (now : Int64) (config : DaemonConfig) (d' : Disk),
        o.resetStorage = true → DaemonConfig.load o.config d = .ok config d' →
        Namespace.Renewable (Bridge.storage { config := config.bridge }) d →
        ((∃ e x, Daemon.launch o ⟨now, bits, resetBits⟩ d =
            .error (.bridge (some "Failed to initialize bridge") e) x) ↔
          ¬ Bridge.Legible { config := config.bridge } d.tree) := by
  intro r s
  refine ⟨fun hwilling hn => ?_, fun o now config d' hreset hload hn => ?_⟩
  · have ho : s.Orderly h.stack.nodes.length :=
      ((Site.orderly_new hsound c).run htidy).withDisk hs
    exact ho.succeeds_renew_iff ⟨hfaultless, hs, hwilling⟩ (hn.unblocked hs) bits resetBits
  · -- Reading the settings leaves the disk as it was, but for the number of accesses.
    obtain ⟨hf, ht⟩ := (DaemonConfig.after_load o.config d).of_ok hload
    have hs' : d'.tree.Sound := ht ▸ hs
    have hcalm : (Daemon.fresh d' config).site.Calm :=
      ⟨fun k => (congrFun hf k).trans (hfaultless k), hs', rfl⟩
    have hn' : (Daemon.fresh d' config).site.bridge.storage.Unblocked d'.tree :=
      ht ▸ hn.unblocked hs
    have ho : (Daemon.fresh d' config).site.Orderly 0 :=
      Site.orderly_new (h := { disk := d' }) hs' config.bridge
    have hlegible := ho.succeeds_renew_iff hcalm hn' bits resetBits
    rw [show (Daemon.fresh d' config).site.tree = d.tree from ht] at hlegible
    rw [Daemon.uninitialized_iff hload, hreset, hlegible]
    rfl

/-- A disk that holds nothing but a text as the document of two bridges, one with the standard
settings and one with its own directory below the root. -/
def stored (text : String) : Disk where
  tree := [(["/", "srv"], .directory), (["/", "srv", "bridge-0"], .directory),
    (["/", "srv", "bridge-0", "bridge.json"], .file (.text text)),
    (["data"], .directory), (["data", "bridge"], .directory),
    (["data", "bridge", "bridge-0"], .directory),
    (["data", "bridge", "bridge-0", "bridge.json"], .file (.text text))]

theorem sound_stored (text : String) : (stored text).tree.Sound := by
  refine Tree.sound_of_entries ?_ ?_
  · have hkeys : [["/", "srv"], ["/", "srv", "bridge-0"], ["/", "srv", "bridge-0", "bridge.json"],
        ["data"], ["data", "bridge"], ["data", "bridge", "bridge-0"],
        ["data", "bridge", "bridge-0", "bridge.json"]].Pairwise (· < ·) := by decide
    exact (List.pairwise_map (f := Prod.fst) (l := (stored text).tree)).mp hkeys
  · intro e he
    simp only [stored, List.mem_cons, List.not_mem_nil, or_false] at he
    rcases he with rfl | rfl | rfl | rfl | rfl | rfl | rfl <;> rfl

/-- The time of the last start may be anything, as nothing is made from it. -/
theorem reset_recovers_of_misplaced_start :
    let d : Disk := stored "\x7b\"lastStart\": \"noon\"\x7d"
    let b : Bridge := { config := { storagePath := ⟨"/srv"⟩ } }
    (d.Faultless ∧ d.tree.Sound ∧ b.storage.Renewable d ∧
      Namespace.Renewable (Bridge.storage { config := {} }) d) ∧
      succeeds (Bridge.renew true ⟨0, 0⟩ ⟨1, 1⟩) ⟨{ disk := d }, b⟩ = true ∧ b.Legible d.tree ∧
      ∀ e x, Daemon.launch { resetStorage := true } ⟨0, ⟨0, 0⟩, ⟨1, 1⟩⟩ d ≠
        .error (.bridge (some "Failed to initialize bridge") e) x := by
  intro d b
  have hfaultless : d.Faultless := fun _ => rfl
  have hs : d.tree.Sound := sound_stored _
  have hrecovers (c : BridgeConfig) :=
    reset_recovers_iff_legible {} c [] d ⟨0, 0⟩ ⟨1, 1⟩ Tree.sound_nil (List.forall_mem_nil _)
      hfaultless hs
  have hlegible (c : BridgeConfig)
      (hn : Namespace.Renewable (Bridge.storage { config := c }) d)
      (hx : succeeds (Bridge.renew true ⟨0, 0⟩ ⟨1, 1⟩) ⟨{ disk := d }, { config := c }⟩ = true) :
      Bridge.Legible { config := c } d.tree :=
    ((hrecovers c).1 rfl hn).mp hx
  have hn : b.storage.Renewable d := by decide +kernel
  have hn' : Namespace.Renewable (Bridge.storage { config := {} }) d := by decide +kernel
  have hload : DaemonConfig.load ⟨"mbridge.toml"⟩ d = .ok {} { d with accesses := 1 } := rfl
  have hx : succeeds (Bridge.renew true ⟨0, 0⟩ ⟨1, 1⟩) ⟨{ disk := d }, b⟩ = true := by
    decide +kernel
  refine ⟨⟨hfaultless, hs, hn, hn'⟩, hx, hlegible _ hn hx, fun e x hlaunch => ?_⟩
  exact ((hrecovers {}).2 { resetStorage := true } 0 {} _ rfl hload hn').mp ⟨e, x, hlaunch⟩
    (hlegible {} hn' (by decide +kernel))

/-- But no document may be anything else than an object: a reset fails before it erases it. -/
theorem reset_refuses_array :
    let d : Disk := stored "[]"
    let b : Bridge := { config := {} }
    (d.Faultless ∧ d.tree.Sound ∧ b.storage.Renewable d) ∧
      succeeds (Bridge.renew true ⟨0, 0⟩ ⟨1, 1⟩) ⟨{ disk := d }, b⟩ = false ∧
      ∃ e x, Daemon.launch { resetStorage := true } ⟨0, ⟨0, 0⟩, ⟨1, 1⟩⟩ d =
        .error (.bridge (some "Failed to initialize bridge") e) x := by
  intro d b
  have hx : succeeds (Bridge.renew true ⟨0, 0⟩ ⟨1, 1⟩) ⟨{ disk := d }, b⟩ = false := by
    decide +kernel
  have hload : DaemonConfig.load ⟨"mbridge.toml"⟩ d = .ok {} { d with accesses := 1 } := rfl
  have hafter : ¬ succeeds (Bridge.renew true ⟨0, 0⟩ ⟨1, 1⟩)
      ⟨{ disk := { d with accesses := 1 } }, b⟩ = true := by decide +kernel
  exact ⟨⟨fun _ => rfl, sound_stored _, by decide +kernel⟩, hx,
    (Daemon.uninitialized_iff (o := { resetStorage := true })
      (c := ⟨0, ⟨0, 0⟩, ⟨1, 1⟩⟩) hload).mpr hafter⟩

end DeviceBridge
