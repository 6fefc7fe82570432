import DeviceBridge.Proofs.Controller.Run

/-!
# DeviceBridge.Proofs.Controller.Fleet

Controller nodes with one location on one host. `Fleet.act` is one step of a run: a node is made or
asked for something, something happens to the stack, or somebody puts a file at the location or
takes it away. A step converts the location, asks the document of the nodes for something, changes
the file at the location, or leaves the files as they are (`Fleet.Settled.tree_act`). Every node
that has a store has it where the location says (`Fleet.Settled.act`).
-/

namespace DeviceBridge

open Files

/-- Controller nodes with one location. -/
structure Fleet where
  host : Host
  location : Path
  nodes : List ControllerNode := []

/-- One step of a run of a fleet. -/
inductive FleetAction where
  /-- One more node is made for the location. -/
  | join (config : ControllerConfig)
  | ask (k : Nat) (r : ControllerRequest)
  | incident (i : StackIncident)
  /-- Somebody puts a file at the location. -/
  | place (c : Content)
  /-- Somebody takes the file at the location away. -/
  | withdraw

namespace Fleet

/-- The files of a fleet. -/
abbrev tree (f : Fleet) : Tree := f.host.disk.tree

/-- The fleet with other files. -/
def withTree (f : Fleet) (t : Tree) : Fleet :=
  { f with host := { f.host with disk := { f.host.disk with tree := t } } }

/-- A node of the fleet where it runs. -/
def site? (f : Fleet) (k : Nat) : Option ControllerSite := f.nodes[k]?.map (⟨f.host, ·⟩)

/-- The fleet with what has become of a node and of the host. -/
def withSite (f : Fleet) (k : Nat) (s : ControllerSite) : Fleet :=
  { f with host := s.host, nodes := f.nodes.set k s.node }

/-- The fleet after one step. -/
def act (f : Fleet) : FleetAction → Fleet
  | .join config =>
    { f with nodes := f.nodes ++ [{ config := { config with storageLocation := f.location } }] }
  | .ask k r =>
    match f.site? k with
    | some s => f.withSite k (stateAfter r.work s)
    | none => f
  | .incident i => { f with host := { f.host with stack := i.change f.host.stack } }
  | .place c =>
    match f.tree.write f.location c with
    | .ok t => f.withTree t
    | .error _ => f
  | .withdraw =>
    match f.tree.stat f.location with
    | .ok .file => f.withTree (f.tree.prune f.location.location)
    | _ => f

/-- The fleet after a run. -/
def run (f : Fleet) (as : List FleetAction) : Fleet := as.foldl act f

/-- Every step of a run is admitted where it happens. -/
def Admits (p : Fleet → FleetAction → Prop) (f : Fleet) : List FleetAction → Prop
  | [] => True
  | a :: as => p f a ∧ Admits p (f.act a) as

variable {f : Fleet} {p : Fleet → FleetAction → Prop} {k : Nat} {s : ControllerSite}

@[simp] theorem run_nil (f : Fleet) : f.run [] = f := rfl

@[simp] theorem run_cons (f : Fleet) (a : FleetAction) (as : List FleetAction) :
    f.run (a :: as) = (f.act a).run as := rfl

theorem admits_append {as bs : List FleetAction} :
    f.Admits p (as ++ bs) ↔ f.Admits p as ∧ (f.run as).Admits p bs := by
  induction as generalizing f with
  | nil => simp [Admits]
  | cons a as ih =>
      rw [List.cons_append, Admits, Admits, ih, run_cons, and_assoc]

theorem Admits.and {q : Fleet → FleetAction → Prop} {as : List FleetAction} (h : f.Admits p as)
    (h' : f.Admits q as) : f.Admits (fun f a => p f a ∧ q f a) as := by
  induction as generalizing f with
  | nil => trivial
  | cons a as ih => exact ⟨⟨h.1, h'.1⟩, ih h.2 h'.2⟩

/-- What every admitted step preserves holds after the run. -/
theorem Admits.preserves {P : Fleet → Prop} (hstep : ∀ f a, p f a → P f → P (f.act a))
    {as : List FleetAction} (h : f.Admits p as) (hf : P f) : P (f.run as) := by
  induction as generalizing f with
  | nil => exact hf
  | cons a as ih => exact ih h.2 (hstep f a h.1 hf)

/-- What every step preserves holds after the run. -/
theorem run_preserves {P : Fleet → Prop} (hstep : ∀ f a, P f → P (f.act a))
    (as : List FleetAction) (hf : P f) : P (f.run as) := by
  induction as generalizing f with
  | nil => exact hf
  | cons a as ih => exact ih (hstep f a hf)

@[simp] theorem location_act (f : Fleet) (a : FleetAction) : (f.act a).location = f.location := by
  cases a with
  | join config => rfl
  | ask k r => unfold act; dsimp only; split <;> rfl
  | incident i => rfl
  | place c => unfold act; dsimp only; split <;> rfl
  | withdraw => unfold act; dsimp only; split <;> rfl

@[simp] theorem location_run (f : Fleet) (as : List FleetAction) :
    (f.run as).location = f.location :=
  run_preserves (fun g a (h : g.location = f.location) => (location_act g a).trans h) as rfl

theorem host_of_site? (h : f.site? k = some s) : s.host = f.host := by
  obtain ⟨n, -, rfl⟩ := Option.map_eq_some_iff.mp h
  rfl

theorem node_mem_of_site? (h : f.site? k = some s) : s.node ∈ f.nodes := by
  obtain ⟨n, hn, rfl⟩ := Option.map_eq_some_iff.mp h
  exact List.mem_of_getElem? hn

theorem act_ask (h : f.site? k = some s) (r : ControllerRequest) :
    f.act (.ask k r) = f.withSite k (stateAfter r.work s) := by
  unfold act
  dsimp only
  rw [h]

theorem act_ask_of_none (h : f.site? k = none) (r : ControllerRequest) : f.act (.ask k r) = f := by
  unfold act
  dsimp only
  rw [h]

/-- What has become of a node is what it is found to be. -/
theorem site?_withSite (h : f.site? k = some s) (s' : ControllerSite) :
    (f.withSite k s').site? k = some s' := by
  obtain ⟨n, hn, -⟩ := Option.map_eq_some_iff.mp h
  have hk := (List.getElem?_eq_some_iff.mp hn).1
  unfold site? withSite
  dsimp only
  rw [List.getElem?_set_self hk]
  rfl

theorem mem_withSite {n : ControllerNode} (h : n ∈ (f.withSite k s).nodes) :
    n ∈ f.nodes ∨ n = s.node := List.mem_or_eq_of_mem_set h

end Fleet

/-! ## Nodes that have their store where their location says -/

/-- The document in which nodes with a location keep their values. -/
def Context.IsStoreAt (c : Context) (location : Path) : Prop :=
  c.BelongsTo location ∧ c.name = ControllerNode.storeName

theorem Context.IsStoreAt.unique {c c' : Context} {location : Path} (h : c.IsStoreAt location)
    (h' : c'.IsStoreAt location) : c = c' := by
  obtain ⟨⟨root, name⟩, file⟩ := c
  obtain ⟨⟨root', name'⟩, file'⟩ := c'
  obtain ⟨hbelongs, rfl⟩ := h
  obtain ⟨hbelongs', rfl⟩ := h'
  obtain ⟨hroot, hname⟩ := Prod.mk.inj (Except.ok.inj (hbelongs.symm.trans hbelongs'))
  obtain rfl : root = root' := hroot
  obtain rfl : name = name' := StorageName.ext hname
  rfl

namespace ControllerNode

/-- The node has a location, and its store, if it has one, is the one for the location. -/
structure Homed (location : Path) (n : ControllerNode) : Prop where
  configured : n.config.storageLocation = location
  store : ∀ c, n.store = some c → c.IsStoreAt location

/-- Initializing finds the store for the location. -/
theorem homed_setUp {location : Path} {s : ControllerSite} (hs : s.host.disk.tree.Sound)
    (h : s.node.Homed location) : Leaves setUp s fun s' => s'.node.Homed location := by
  refine (after_setUp s).mono (fun _ s' hup => ?_) fun _ s' hdown => ?_
  · obtain ⟨r, space, hup⟩ := hup
    have hconvert := hup.disk
    rw [h.configured] at hconvert
    have htold := (Legacy.after_convert_told hs location).of_ok hconvert
    obtain ⟨hroot, hname⟩ := Namespace.of_parse_eq_ok hup.found
    rw [hup.node]
    refine ⟨h.configured, fun c hc => ?_⟩
    obtain rfl := Option.some.inj hc
    have hsplit := htold.split
    rw [← hroot, ← hname] at hsplit
    exact ⟨hsplit, rfl⟩
  · rw [hdown.node]
    exact ⟨h.configured, nofun⟩

theorem homed_work {location : Path} {s : ControllerSite} (hs : s.host.disk.tree.Sound)
    (h : s.node.Homed location) (r : ControllerRequest) :
    Leaves r.work s fun s' => s'.node.Homed location := by
  by_cases hsetUp : r = .setUp
  · exact hsetUp ▸ homed_setUp hs h
  by_cases hclose : r = .close
  · subst hclose
    exact (after_close s).mono (fun _ _ h' => h'.1 ▸ h) fun _ _ h' => h'.1 ▸ h
  · exact (ControllerSite.unmoved_work hsetUp hclose s).mono (fun _ _ h' => h'.node ▸ h)
      fun _ _ h' => h'.node ▸ h

end ControllerNode

namespace Fleet

variable {f : Fleet}

/-- The files are as files are, and every node has its store where the location says. -/
structure Settled (f : Fleet) : Prop where
  sound : f.tree.Sound
  homed : ∀ n ∈ f.nodes, n.Homed f.location

section
variable {k : Nat} {s : ControllerSite} (hk : f.site? k = some s)
include hk

/-- Initializing a node leaves the files as the conversion of the location leaves them. -/
theorem Settled.tree_setUp (h : f.Settled) : (f.act (.ask k .setUp)).tree =
    (stateAfter (Legacy.convert f.location) f.host.disk).tree := by
  have hdisk := (ControllerNode.disk_setUp s).stateAfter
  rw [host_of_site? hk, (h.homed _ (node_mem_of_site? hk)).configured] at hdisk
  rw [act_ask hk]
  exact congrArg Disk.tree hdisk

/-- Asking the store of a node leaves the files as the storage leaves them. -/
theorem tree_consult {c : Context} (hc : s.node.store = some c) (q : ContextRequest) :
    (f.act (.ask k (.consult q))).tree = (stateAfter (q.of c).perform f.host.disk).tree := by
  have hdisk := (leaves_discard (ControllerNode.disk_consult q s)).stateAfter
  rw [hc, host_of_site? hk] at hdisk
  rw [act_ask hk]
  exact congrArg Disk.tree hdisk

/-- What asking a node can do to the files. -/
theorem Settled.tree_ask (h : f.Settled) (r : ControllerRequest) {P : Tree → Prop}
    (hsame : P f.tree)
    (hsetUp : r = .setUp → P (stateAfter (Legacy.convert f.location) f.host.disk).tree)
    (hconsult : ∀ q c, r = .consult q → s.node.store = some c → c.IsStoreAt f.location →
      P (stateAfter (q.of c).perform f.host.disk).tree) :
    P (f.act (.ask k r)).tree := by
  have hkept (hd : (stateAfter r.work s).host.disk = s.host.disk) : P (f.act (.ask k r)).tree := by
    rw [host_of_site? hk] at hd
    have htree : (f.act (.ask k r)).tree = f.tree := by
      rw [act_ask hk]
      exact congrArg Disk.tree hd
    rw [htree]
    exact hsame
  by_cases hup : r = .setUp
  · subst hup
    rw [h.tree_setUp hk]
    exact hsetUp rfl
  by_cases hq : ∃ q, r = .consult q
  · obtain ⟨q, rfl⟩ := hq
    cases hc : s.node.store with
    | none =>
        have hdisk := (leaves_discard (ControllerNode.disk_consult q s)).stateAfter
        rw [hc] at hdisk
        exact hkept hdisk
    | some c =>
        rw [tree_consult hk hc]
        exact hconsult q c rfl hc ((h.homed _ (node_mem_of_site? hk)).store c hc)
  · exact hkept (ControllerSite.disk_work hup (fun q hr => hq ⟨q, hr⟩) s).stateAfter

end

/-- What a step can do to the files. -/
theorem Settled.tree_act (h : f.Settled) (a : FleetAction) {P : Tree → Prop}
    (hsame : P f.tree)
    (hsetUp : ∀ k s, a = .ask k .setUp → f.site? k = some s →
      P (stateAfter (Legacy.convert f.location) f.host.disk).tree)
    (hconsult : ∀ k s q c, a = .ask k (.consult q) → f.site? k = some s →
      s.node.store = some c → c.IsStoreAt f.location →
      P (stateAfter (q.of c).perform f.host.disk).tree)
    (hfile : ∀ t : Tree, t.Sound → Tree.Spares [f.location.location] f.tree t →
      f.tree.locate f.location = .ok f.location.location →
      f.tree.entry? f.location.location ≠ some .directory → P t) : P (f.act a).tree := by
  cases a with
  | join config => exact hsame
  | incident i => exact hsame
  | ask k r =>
      cases hk : f.site? k with
      | none =>
          rw [act_ask_of_none hk]
          exact hsame
      | some s =>
          exact h.tree_ask hk r hsame (fun hr => hsetUp k s (hr ▸ rfl) hk)
            fun q c hr => hconsult k s q c (hr ▸ rfl) hk
  | place c =>
      unfold act
      dsimp only
      split
      · next t ht =>
        obtain ⟨hs, hspares, hlocate, -⟩ := Disk.write_eq_ok h.sound ht
        exact hfile t hs hspares hlocate (Tree.of_write_eq_ok ht).2.1
      · exact hsame
  | withdraw =>
      unfold act
      dsimp only
      split
      · next hstat =>
        obtain ⟨hlocate, c, hentry⟩ := Tree.of_stat_eq_ok hstat
        have hb := Tree.not_isBase_of_entry? (t := f.tree) (l := f.location.location)
          (by simp [hentry])
        exact hfile _ (h.sound.prune hb) (h.sound.spares_prune hentry) hlocate (by simp [hentry])
      · exact hsame

theorem Settled.act (h : f.Settled) (a : FleetAction) : (f.act a).Settled := by
  refine ⟨h.tree_act a h.sound (fun k s _ _ => ?_) (fun k s q c _ _ _ _ => ?_)
    fun t hs _ _ _ => hs, ?_⟩
  · exact (Legacy.sound_convert h.sound f.location).stateAfter
  · exact ((Context.after_perform h.sound c q).mono (fun _ _ h => h.1) fun _ _ h => h.1).stateAfter
  · rw [location_act]
    cases a with
    | incident i => exact h.homed
    | join config =>
        refine List.forall_mem_append.mpr ⟨h.homed, List.forall_mem_singleton.mpr ⟨rfl, nofun⟩⟩
    | place c => unfold Fleet.act; dsimp only; split <;> exact h.homed
    | withdraw => unfold Fleet.act; dsimp only; split <;> exact h.homed
    | ask k r =>
        cases hk : f.site? k with
        | none =>
            rw [act_ask_of_none hk]
            exact h.homed
        | some s =>
            rw [act_ask hk]
            intro n hn
            obtain hn | rfl := mem_withSite hn
            · exact h.homed n hn
            · have hs : s.host.disk.tree.Sound := host_of_site? hk ▸ h.sound
              exact (ControllerNode.homed_work hs (h.homed _ (node_mem_of_site? hk)) r).stateAfter

theorem Settled.run (h : f.Settled) (as : List FleetAction) : (f.run as).Settled :=
  run_preserves (fun _ a h => h.act a) as h

end Fleet

end DeviceBridge
