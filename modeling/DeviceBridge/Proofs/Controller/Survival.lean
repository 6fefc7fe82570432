import DeviceBridge.Proofs.Controller.Fleet
import DeviceBridge.Proofs.Storage.Conversion

/-!
# DeviceBridge.Proofs.Controller.Survival

What controller nodes store survives. Once a value has been set at a key, or has been carried over
from a file of older make, every node with the location finds it there until some node replaces or
removes it, whatever else is done by nodes, to the stack or to the file (`Fleet.stored_survives`). A
file is converted once at most, and never where there is a document already. The value has to be one
that lasts, and all that is stored beside it has to endure: one value that cannot be read back takes
the others with it (`Fleet.not_finds_of_set`).
-/

namespace DeviceBridge

open ControllerNode (storeName)
open Json (Value Object)
open Files

namespace Fleet

/-- The host before any node has been made for the location. -/
def start (host : Host) (location : Path) : Fleet := { host, location }

/-- A node does what its store is asked for. -/
def Serves (f : Fleet) (k : Nat) (q : ContextRequest) : Prop :=
  ∃ s, f.site? k = some s ∧ succeeds (ControllerNode.consult q) s = true

/-- In a step the file at the location is converted. -/
def Converts (f : Fleet) (a : FleetAction) : Prop :=
  ∃ k s r d, a = .ask k .setUp ∧ f.site? k = some s ∧
    Legacy.convert f.location f.host.disk = .ok r d ∧ r.converted = true

/-- The file at the location has entries for the store. -/
def Offers (f : Fleet) (entries : Object) : Prop :=
  Legacy.entries? f.location storeName.text f.tree = some entries

/-- What comes to be stored in a step endures. -/
def Enduring (f : Fleet) : FleetAction → Prop
  | .ask _ (.consult q) => q.Enduring
  | .ask k .setUp => f.Converts (.ask k .setUp) →
    ∀ entries, f.Offers entries → ∀ e ∈ entries, e.2.Enduring
  | _ => True

/-- In a step a value comes to be stored at a key: a node sets it, or it is carried over from the
file, to which the way does not lead through the staging directory. -/
def Enters (key : String) (v : Value) (f : Fleet) (a : FleetAction) : Prop :=
  (∃ k, a = .ask k (.consult (.set key v)) ∧ f.Serves k (.set key v)) ∨
  f.Converts a ∧ (∀ c : Context, c.IsStoreAt f.location → c.space.Direct) ∧
    ∃ entries, f.Offers entries ∧ entries.get? key = some v

/-- In a step a node replaces or removes what is stored at a key. -/
def Replaces (key : String) (f : Fleet) : FleetAction → Prop
  | .ask k (.consult q) => q.Concerns key ∧ f.Serves k q
  | _ => False

/-- All nodes that have a store find a value at a key, unless a fault strikes the look at it. -/
def Answers (f : Fleet) (key : String) (v : Value) : Prop :=
  ∀ k s, f.site? k = some s → s.node.store.isSome →
    After (ControllerNode.consult (.get key)) s (fun a _ => a = .value (some v))
      fun _ _ => f.host.disk.faults f.host.disk.accesses ≠ none

variable {f : Fleet} {a : FleetAction} {key : String} {v : Value}

/-! ## What is in the document -/

/-- The store holds values that endure. -/
def Endures (f : Fleet) : Prop := ∀ c : Context, c.IsStoreAt f.location → c.Endures f.tree

/-- The store shows a value at a key. -/
def ShowsAt (f : Fleet) (key : String) (v : Value) : Prop :=
  ∀ c : Context, c.IsStoreAt f.location → c.ShowsAt f.tree key v

/-- Changes of the file at the location do not touch the store. -/
theorem untouched_of_file {c : Context} (hc : c.IsStoreAt f.location) {t : Tree}
    (hspares : Tree.Spares [f.location.location] f.tree t)
    (hlocate : f.tree.locate f.location = .ok f.location.location)
    (hf : f.tree.entry? f.location.location ≠ some .directory) : c.Untouched f.tree t :=
  Context.untouched_of_spares hspares (by simpa using Context.path_ne_location hc.1 hlocate hf)

theorem Endures.act (he : f.Endures) (h : f.Settled) (ha : f.Enduring a) : (f.act a).Endures := by
  intro c hc
  rw [location_act] at hc
  refine h.tree_act (P := c.Endures) a (he c hc) (fun k s hup hk => ?_)
    (fun k s q c' hq _ _ hc' => ?_) fun t _ hspares hlocate hf =>
      Context.endures_of_text (untouched_of_file hc hspares hlocate hf).text (he c hc)
  · subst hup
    refine (Context.endures_convert hc.1 h.sound (he c hc) fun r d hok hr es hes => ?_).stateAfter
    rw [hc.2] at hes
    exact ha ⟨k, s, r, d, rfl, hk, hok, hr⟩ es hes
  · subst hq
    obtain rfl := hc.unique hc'
    exact (Context.endures_perform h.sound (he c hc) ha).stateAfter

/-- A node does what its store is asked for if the document can be asked for it. -/
theorem serves_iff {k : Nat} {s : ControllerSite} {q : ContextRequest} {c : Context}
    (hk : f.site? k = some s) (hc : s.node.store = some c) :
    f.Serves k q ↔ succeeds (q.of c).perform f.host.disk = true := by
  rw [← host_of_site? hk, ← ControllerNode.succeeds_consult hc]
  refine ⟨fun ⟨s', hk', h⟩ => ?_, fun h => ⟨s, hk, h⟩⟩
  obtain rfl := Option.some.inj (hk.symm.trans hk')
  exact h

/-- A node that does what its store is asked for has one, which does it. -/
theorem Serves.exists_store {k : Nat} {q : ContextRequest} (hserves : f.Serves k q)
    (h : f.Settled) : ∃ s c a, f.site? k = some s ∧ s.node.store = some c ∧
      c.IsStoreAt f.location ∧ (q.of c).perform f.host.disk =
        .ok a (stateAfter (q.of c).perform f.host.disk) := by
  obtain ⟨s, hk, hok⟩ := id hserves
  cases hc : s.node.store with
  | none =>
      unfold succeeds at hok
      rw [ControllerNode.consult_of_none hc] at hok
      contradiction
  | some c =>
      obtain ⟨a, ha⟩ := exists_eq_ok_of_succeeds ((serves_iff hk hc).mp hserves)
      exact ⟨s, c, a, hk, hc, (h.homed _ (node_mem_of_site? hk)).store c hc, ha⟩

/-- What lasts and is shown at a key is shown there until a node replaces or removes it. -/
theorem ShowsAt.act (hshown : f.ShowsAt key v) (hv : v.Lasting) (h : f.Settled) (he : f.Endures)
    (hx : f.Enduring a) (ha : ¬ f.Replaces key a) : (f.act a).ShowsAt key v := by
  intro c hc
  rw [location_act] at hc
  have hshows := hshown c hc
  refine h.tree_act (P := (c.ShowsAt · key v)) a hshows (fun k s _ _ => ?_)
    (fun k s q c' hq hk hstore hc' => ?_) fun t _ hspares hlocate hf =>
      (untouched_of_file hc hspares hlocate hf).showsAt hshows
  · -- Where the document can be read, nothing is converted.
    obtain ⟨s, hr⟩ := hshows.exists_read
    have hkept := (Context.after_convert_kept hc.1 h.sound hr).stateAfter
    exact hkept ▸ hshows
  · subst hq
    obtain rfl := hc.unique hc'
    have hperform := Context.showsAt_perform h.sound (he c hc) hx hv hshows
    cases hok : succeeds (q.of c).perform f.host.disk with
    | true =>
        obtain ⟨_, heq⟩ := exists_eq_ok_of_succeeds hok
        exact hperform.of_ok heq fun hkey => ha ⟨hkey, (serves_iff hk hstore).mpr hok⟩
    | false =>
        obtain ⟨_, heq⟩ := eq_error_of_not_succeeds hok
        exact hperform.of_error heq

/-- Where a file is converted, it has been converted after the step. -/
theorem Converts.made (ha : f.Converts a) (h : f.Settled) :
    ∃ id, Legacy.Made f.location id f.tree (f.act a).tree := by
  obtain ⟨k, s, r, d, rfl, hk, hok, hr⟩ := ha
  have htold := (Legacy.after_convert_told h.sound f.location).of_ok hok
  rw [h.tree_setUp hk, stateAfter_eq_of_ok hok]
  exact ⟨_, htold.made hr⟩

/-- What comes to be stored at a key is shown there if it lasts. -/
theorem showsAt_of_enters (h : f.Settled) (he : f.Endures) (hx : f.Enduring a) (hv : v.Lasting)
    (ha : f.Enters key v a) : (f.act a).ShowsAt key v := by
  intro c hc
  rw [location_act] at hc
  obtain ⟨k, rfl, hserves⟩ | ⟨hconverts, hdirect, entries, hoffers, hget⟩ := ha
  · obtain ⟨s, c', _, hk, hstore, hc', heq⟩ := hserves.exists_store h
    obtain rfl := hc.unique hc'
    rw [tree_consult hk hstore]
    exact (Context.showsAt_set h.sound (he c hc) hv).of_ok heq
  · obtain ⟨name, hmade⟩ := hconverts.made h
    have henduring : ∀ e ∈ entries, e.2.Enduring := by
      obtain ⟨k, s, r, d, rfl, -⟩ := id hconverts
      exact hx hconverts entries hoffers
    unfold Offers at hoffers
    rw [← hc.2] at hoffers
    exact Context.showsAt_of_made hc.1 hmade (hdirect c hc) hoffers henduring hv hget

/-- What lasts and is shown at a key is found there by all nodes that have a store. -/
theorem ShowsAt.answers (hshown : f.ShowsAt key v) (hv : v.Lasting) (h : f.Settled) :
    f.Answers key v := by
  intro k s hk hstore
  obtain ⟨c, hc⟩ := Option.isSome_iff_exists.mp hstore
  have hhome := (h.homed _ (node_mem_of_site? hk)).store c hc
  have hhost := host_of_site? hk
  refine ControllerNode.after_consult_of_store hc ?_
  rw [hhost]
  exact (hshown c hhome).after_get hv

/-! ## Converting once -/

/-- The directory of the namespace is there. -/
def Occupied (f : Fleet) : Prop :=
  ∃ root id, Legacy.split f.location = .ok (root, id) ∧
    f.tree.entry? (root.join id).location = some .directory

theorem occupied_of_converts (h : f.Settled) (ha : f.Converts a) : (f.act a).Occupied := by
  obtain ⟨id, staging, contexts, hp, hcarried⟩ := ha.made h
  refine ⟨staging.root, id, ?_, hcarried.directory⟩
  rw [location_act]
  exact hp.split

/-- Once the directory of the namespace is there, it stays. -/
theorem Occupied.act (ho : f.Occupied) (h : f.Settled) (a : FleetAction) :
    (f.act a).Occupied := by
  obtain ⟨root, id, hsplit, hd⟩ := ho
  refine ⟨root, id, by rw [location_act, hsplit], ?_⟩
  refine h.tree_act (P := fun t => t.entry? (root.join id).location = some .directory) a hd
    (fun k s _ _ => ?_) (fun k s q c _ _ _ _ => ?_) fun t _ hspares _ _ => hspares.directory _ hd
  · have hkept := Legacy.after_convert_kept h.sound hsplit hd
    exact (hkept.imp fun _ _ h => h.2).stateAfter ▸ hd
  · have hspares := (Context.after_perform h.sound c q).mono (fun _ _ h => h.2.1) fun _ _ h => h.2.1
    exact hspares.stateAfter.directory _ hd

theorem Occupied.not_converts (ho : f.Occupied) (h : f.Settled) (a : FleetAction) :
    ¬ f.Converts a := by
  rintro ⟨k, s, r, d, -, -, hok, hr⟩
  obtain ⟨root, id, hsplit, hd⟩ := ho
  have hkept := ((Legacy.after_convert_kept h.sound hsplit hd).of_ok hok).1
  rw [hr] at hkept
  contradiction

/-- After one file has been converted, none is. -/
theorem Converts.once (ha : f.Converts a) (h : f.Settled) (as : List FleetAction)
    (b : FleetAction) : ¬ ((f.act a).run as).Converts b := by
  have hrun := run_preserves (P := fun f => f.Settled ∧ f.Occupied)
    (fun _ b hg => ⟨hg.1.act b, hg.2.act hg.1 b⟩) as ⟨h.act a, occupied_of_converts h ha⟩
  exact hrun.2.not_converts hrun.1 b

/-! ## Initializing a node -/

/-- Where the document can be read, initializing leaves all files as they are. -/
theorem Settled.tree_setUp_of_read (h : f.Settled) {c : Context} (hc : c.IsStoreAt f.location)
    {s : String} (hr : f.tree.read c.path = .ok s) (k : Nat) :
    (f.act (.ask k .setUp)).tree = f.tree := by
  cases hk : f.site? k with
  | none => rw [act_ask_of_none hk]
  | some s =>
      rw [h.tree_setUp hk]
      exact (Context.after_convert_kept hc.1 h.sound hr).stateAfter

/-- Whoever initializes a node has a store. -/
theorem store_of_setUp {k : Nat} {s : ControllerSite} (hk : f.site? k = some s)
    (hok : succeeds ControllerNode.setUp s = true) :
    ∃ s', (f.act (.ask k .setUp)).site? k = some s' ∧ s'.node.store.isSome = true := by
  obtain ⟨r, space, hup⟩ := (ControllerNode.after_setUp s).of_ok (eq_ok_of_succeeds hok)
  refine ⟨stateAfter ControllerNode.setUp s, ?_, by rw [hup.node]; rfl⟩
  rw [act_ask hk]
  exact site?_withSite hk _

/-! ## Survival -/

theorem settled_start {host : Host} (hs : host.disk.tree.Sound) (location : Path) :
    (start host location).Settled := ⟨hs, fun _ hn => nomatch hn⟩

theorem Endures.run (he : f.Endures) (h : f.Settled) {as : List FleetAction}
    (hx : f.Admits Enduring as) : (f.run as).Endures := by
  have hboth := hx.preserves (P := fun f => f.Settled ∧ f.Endures)
    (fun _ a ha hg => ⟨hg.1.act a, hg.2.act hg.1 ha⟩) ⟨h, he⟩
  exact hboth.2

/-- What lasts and is shown at a key goes on to be shown as long as no node replaces or removes
it. -/
theorem ShowsAt.run (hshown : f.ShowsAt key v) (hv : v.Lasting) (h : f.Settled) (he : f.Endures)
    {as : List FleetAction} (hx : f.Admits Enduring as)
    (hkeep : f.Admits (fun f a => ¬ f.Replaces key a) as) : (f.run as).ShowsAt key v := by
  have hall := (hx.and hkeep).preserves (P := fun f => f.Settled ∧ f.Endures ∧ f.ShowsAt key v)
    (fun _ a ha hg => ⟨hg.1.act a, hg.2.1.act hg.1 ha.1, hg.2.2.act hv hg.1 hg.2.1 ha.1 ha.2⟩)
    ⟨h, he, hshown⟩
  exact hall.2.2

/-- What a node has stored, or what has been carried over from a file, is found by every node that
has been initialized until it is replaced or removed, if it lasts and all else endures. A file is
converted once at most, none is converted where the document can be read, and whoever initializes a
node has a store. -/
theorem stored_survives {host : Host} (hs : host.disk.tree.Sound) (location : Path)
    (before : List FleetAction) (a : FleetAction) (after : List FleetAction) :
    let f := (start host location).run before
    let g := (f.act a).run after
    (∀ key v, v.Lasting → (start host location).Endures →
      (start host location).Admits Enduring (before ++ a :: after) → f.Enters key v a →
      (f.act a).Admits (fun f b => ¬ f.Replaces key b) after → g.Answers key v) ∧
    (f.Converts a → ∀ b, ¬ g.Converts b) ∧
    (∀ (c : Context) s k, c.IsStoreAt location → f.tree.read c.path = .ok s →
      (f.act (.ask k .setUp)).tree = f.tree) ∧
    (∀ k s, f.site? k = some s → succeeds ControllerNode.setUp s = true →
      ∃ s', (f.act (.ask k .setUp)).site? k = some s' ∧ s'.node.store.isSome = true) := by
  intro f g
  have hf : f.Settled := (settled_start hs location).run before
  have hlocation : f.location = location := location_run _ before
  refine ⟨fun key v hv hstart hx ha hkeep => ?_, fun ha => ha.once hf after,
    fun c s k hc hr => hf.tree_setUp_of_read (hlocation ▸ hc) hr k, fun k s => store_of_setUp⟩
  obtain ⟨hbefore, hstep, hafter⟩ := admits_append.mp hx
  have he : f.Endures := hstart.run (settled_start hs location) hbefore
  have hshown := showsAt_of_enters hf he hstep hv ha
  exact (hshown.run hv (hf.act a) (he.act hf hstep) hafter hkeep).answers hv ((hf.act a).run after)

/-! ## Beside a file of older make -/

/-- Before there is a document, there is nothing that could not be read back. -/
theorem endures_start {host : Host} {location : Path} {c : Context} (hc : c.IsStoreAt location)
    (h : c.text? host.disk.tree = none) : (start host location).Endures := by
  intro c' hc'
  obtain rfl := hc.unique hc'
  intro entries hstored
  unfold Context.stored? at hstored
  replace h : c.text? (start host location).tree = none := h
  rw [h] at hstored
  obtain rfl := Option.some.inj hstored
  exact fun _ he => nomatch he

/-- The contexts of a node, of which one is its store. -/
def fabrics : Object := [("Node", .object [("fabric", .string "home")])]

/-- A host with a file of older make beside a staging directory that an earlier call has left. -/
def olderHost : Host where
  disk := { tree := Legacy.leftover (Value.object fabrics).pretty }

/-- The store beside the file, by a path of the directory that both lie in. -/
def olderStore (root : String) : Context := ⟨Legacy.besideLeftover root, storeName⟩

theorem offers_iff (hr : (f.tree.read f.location).toOption = some (Value.object fabrics).pretty)
    {entries : Object} : f.Offers entries ↔ entries = [("fabric", .string "home")] := by
  have hnode : (Value.object [("fabric", .string "home")]).Plain (Json.nestingLimit - 1) :=
    ⟨by decide, List.pairwise_singleton _ _, trivial, trivial⟩
  have hplain : (Value.object fabrics).Plain Json.nestingLimit :=
    ⟨by decide, List.pairwise_singleton _ _, hnode, trivial⟩
  have hread := Json.readValue_pretty_of_plain hplain
  unfold Offers
  rw [Legacy.entries?_of_read (eq_ok_of_toOption hr) hread]
  exact ⟨fun h => (Option.some.inj h).symm, fun h => h ▸ rfl⟩

theorem converts_of_outcome {k : Nat} (hk : (f.site? k).isSome = true)
    (h : (outcome (Legacy.convert f.location) f.host.disk).toOption.map (·.converted) = some true) :
    f.Converts (.ask k .setUp) := by
  obtain ⟨s, hk⟩ := Option.isSome_iff_exists.mp hk
  obtain ⟨r, hok, hr⟩ := exists_eq_ok_of_outcome h
  exact ⟨k, s, r, _, rfl, hk, hok, hr⟩

theorem stored_survives_of_older :
    let empty := start olderHost ⟨"/v/c.json"⟩
    let f := empty.run [.join {}]
    let after : List FleetAction :=
      [.ask 0 (.consult (.set "other" (.array [.bool true]))), .join {}, .ask 1 .setUp]
    let g := (f.act (.ask 0 .setUp)).run after
    (olderHost.disk.tree.Sound ∧ (Value.string "home").Lasting ∧ empty.Endures ∧
      empty.Admits Enduring ([.join {}] ++ .ask 0 .setUp :: after) ∧
      f.Enters "fabric" (.string "home") (.ask 0 .setUp) ∧
      (f.act (.ask 0 .setUp)).Admits (fun f b => ¬ f.Replaces "fabric" b) after) ∧
    (∃ s, g.site? 1 = some s ∧ s.node.store.isSome = true) ∧
      g.Answers "fabric" (.string "home") := by
  intro empty f after g
  have hs : olderHost.disk.tree.Sound := Legacy.sound_leftover _
  have hhome : (Value.string "home").Lasting := rfl
  have hother : (Value.array [.bool true]).Lasting :=
    Value.Plain.lasting ⟨by decide, trivial, trivial⟩
  have hc : (olderStore "/v").IsStoreAt ⟨"/v/c.json"⟩ :=
    ⟨eq_ok_of_toOption (by decide +kernel), rfl⟩
  have he : empty.Endures := endures_start hc (by decide +kernel)
  have hoffers {entries : Object} : f.Offers entries ↔ entries = [("fabric", .string "home")] :=
    offers_iff (by decide +kernel)
  have hconverts : f.Converts (.ask 0 .setUp) :=
    converts_of_outcome (by decide +kernel) (by decide +kernel)
  have henters : f.Enters "fabric" (.string "home") (.ask 0 .setUp) := by
    refine .inr ⟨hconverts, fun c' hc' => ?_, _, hoffers.mpr rfl, rfl⟩
    obtain rfl := hc.unique hc'
    decide +kernel
  have honce := hconverts.once ((settled_start hs _).run [.join {}])
    [.ask 0 (.consult (.set "other" (.array [.bool true]))), .join {}] (.ask 1 .setUp)
  have henduring : empty.Admits Enduring ([.join {}] ++ .ask 0 .setUp :: after) := by
    refine ⟨trivial, fun _ entries h => ?_, hother.enduring, trivial, fun h => absurd h honce,
      trivial⟩
    obtain rfl := hoffers.mp h
    exact List.forall_mem_singleton.mpr hhome.enduring
  have hkeep : (f.act (.ask 0 .setUp)).Admits (fun f b => ¬ f.Replaces "fabric" b) after :=
    ⟨fun h => absurd h.1 (show "other" ≠ "fabric" by decide), id, id, trivial⟩
  have hstore : (g.site? 1).map (·.node.store.isSome) = some true := by decide +kernel
  exact ⟨⟨hs, hhome, he, henduring, henters, hkeep⟩, Option.map_eq_some_iff.mp hstore,
    (stored_survives hs ⟨"/v/c.json"⟩ [.join {}] (.ask 0 .setUp) after).1 "fabric" (.string "home")
      hhome he henduring henters hkeep⟩

/-! ## What does not survive -/

/-- All nodes that have a store find a value at a key. -/
def Finds (f : Fleet) (key : String) (v : Value) : Prop :=
  ∀ k s, f.site? k = some s → s.node.store.isSome →
    outcome (ControllerNode.consult (.get key)) s = .ok (.value (some v))

/-- Where a value has been set that is not read back, nothing is found any more. -/
theorem not_finds_of_set {k : Nat} {key' : String} {w : Value} (h : f.Settled)
    (hw : w.reread 1 = none) (hserves : f.Serves k (.set key' w)) :
    ¬ (f.act (.ask k (.consult (.set key' w)))).Finds key v := by
  obtain ⟨s, c, _, hk, hc, -, heq⟩ := hserves.exists_store h
  let s' := stateAfter (ControllerRequest.consult (.set key' w)).work s
  have hnone : ∀ entries, ¬ c.Shows s'.host.disk.tree entries := by
    have htree : s'.host.disk.tree = _ := act_ask hk _ ▸ tree_consult hk hc (.set key' w)
    rw [htree]
    exact (Context.not_shows_of_set h.sound hw).of_ok heq
  have hnode : s'.node = s.node :=
    (ControllerSite.unmoved_work (r := .consult (.set key' w)) nofun nofun s).stateAfter.node
  have hget : After (ControllerNode.consult (.get key)) s' (fun _ _ => False) fun _ _ => True :=
    ControllerNode.after_consult_of_store (hnode ▸ hc) (Context.not_succeeds_get hnone)
  intro hfinds
  rw [act_ask hk] at hfinds
  have hfound := hfinds k s' (site?_withSite hk _) (by rw [hnode, hc]; rfl)
  obtain ⟨a, hok, -⟩ := exists_eq_ok_of_outcome (f := id) (by rw [hfound]; rfl)
  exact hget.of_ok hok

/-- A value in as many arrays. -/
def nested : Nat → Value
  | 0 => .null
  | n + 1 => .array [nested n]

/-- Whether an answer is a value. -/
def isFound : StorageAnswer → Bool
  | .value (some _) => true
  | _ => false

/-- Not all that is stored survives. What a file holds is lost if the way to it leads through the
staging directory, and so is all that is stored where something is stored that is nested too
deeply. -/
theorem lost_of_crooked_or_nested :
    (¬ ∀ (host : Host) (location : Path) (before : List FleetAction) (a : FleetAction)
        (key : String) (v : Value) (entries : Object),
      host.disk.tree.Sound → host.disk.Faultless → (start host location).Endures → v.Lasting →
      (start host location).Admits Enduring (before ++ [a]) →
      ((start host location).run before).Converts a →
      ((start host location).run before).Offers entries → entries.get? key = some v →
      (((start host location).run before).act a).Finds key v) ∧
    (¬ ∀ (host : Host) (location : Path) (before : List FleetAction) (k : Nat)
        (key key' : String) (v w : Value),
      host.disk.tree.Sound → host.disk.Faultless → (start host location).Endures → v.Lasting →
      key ≠ key' →
      (start host location).Admits Enduring (before ++ [.ask k (.consult (.set key v))]) →
      ((start host location).run before).Serves k (.set key v) →
      (((start host location).run before).act (.ask k (.consult (.set key v)))).Serves k
        (.set key' w) →
      ((((start host location).run before).act (.ask k (.consult (.set key v)))).act
        (.ask k (.consult (.set key' w)))).Finds key v) := by
  refine ⟨fun hall => ?_, fun hall => ?_⟩
  · let location : Path := ⟨"/v/c.converting/../c.json"⟩
    let f := (start olderHost location).run [.join {}]
    have hc : (olderStore "/v/c.converting/..").IsStoreAt location :=
      ⟨eq_ok_of_toOption (by decide +kernel), rfl⟩
    have hhome : (Value.string "home").Lasting := rfl
    have hoffers {entries : Object} : f.Offers entries ↔ entries = [("fabric", .string "home")] :=
      offers_iff (by decide +kernel)
    have hconverts : f.Converts (.ask 0 .setUp) :=
      converts_of_outcome (k := 0) (by decide +kernel) (by decide +kernel)
    have hfinds := hall olderHost location [.join {}] (.ask 0 .setUp) "fabric" (.string "home") _
      (Legacy.sound_leftover _) (fun _ => rfl) (endures_start hc (by decide +kernel)) hhome
      ⟨trivial, fun _ entries h => hoffers.mp h ▸ List.forall_mem_singleton.mpr hhome.enduring,
        trivial⟩ hconverts (hoffers.mpr rfl) rfl
    have hlost : (((f.act (.ask 0 .setUp)).site? 0).map fun s => (s.node.store.isSome,
        (outcome (ControllerNode.consult (.get "fabric")) s).toOption.map isFound)) =
        some (true, some false) := by decide +kernel
    obtain ⟨s, hk, heq⟩ := Option.map_eq_some_iff.mp hlost
    obtain ⟨hstore, hnone⟩ := Prod.mk.inj heq
    rw [hfinds 0 s hk hstore] at hnone
    contradiction
  · let before : List FleetAction := [.join {}, .ask 0 .setUp]
    let f := (start {} ⟨"s"⟩).run before
    let g := f.act (.ask 0 (.consult (.set "x" .null)))
    let w := nested Json.nestingLimit
    let c : Context := ⟨⟨⟨"."⟩, ⟨"s", by decide⟩⟩, storeName⟩
    have hc : c.IsStoreAt ⟨"s"⟩ := ⟨eq_ok_of_toOption (by decide +kernel), rfl⟩
    have hnull : Value.Lasting .null := rfl
    have hoffers {entries : Object} :
        ¬ ((start {} ⟨"s"⟩).run [.join {}]).Offers entries := by
      have hnone : (Legacy.entries? ⟨"s"⟩ storeName.text []).isNone = true := by decide +kernel
      exact fun h => by cases (Option.isNone_iff_eq_none.mp hnone).symm.trans h
    have hserves : f.Serves 0 (.set "x" .null) := Option.map_eq_some_iff.mp
      (show (f.site? 0).map (succeeds (ControllerNode.consult (.set "x" .null))) = some true by
        decide +kernel)
    have hserves' : g.Serves 0 (.set "k" w) := Option.map_eq_some_iff.mp
      (show (g.site? 0).map (succeeds (ControllerNode.consult (.set "k" w))) = some true by
        decide +kernel)
    have hreread : w.reread 1 = none := Option.isNone_iff_eq_none.mp (by decide +kernel)
    have hs : Tree.Sound (Host.disk {}).tree := Tree.sound_nil
    have hsettled : g.Settled := ((settled_start hs ⟨"s"⟩).run before).act _
    exact not_finds_of_set hsettled hreread hserves'
      (hall {} ⟨"s"⟩ before 0 "x" "k" .null w hs (fun _ => rfl)
        (endures_start hc (by decide +kernel)) hnull (by decide)
        ⟨trivial, fun _ _ h => absurd h hoffers, hnull.enduring, trivial⟩ hserves hserves')

end Fleet

end DeviceBridge
