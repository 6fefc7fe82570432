import DeviceBridge.Device.Definition
import DeviceBridge.Proofs.Dictionary
import Mathlib.Data.List.TakeWhile

/-!
# DeviceBridge.Proofs.Device.Definition

The first values of a device, told by the map from which they are taken. A key is parted in one way
only (`splitAttributeKey_eq_some_iff`), so different keys go to different places, and the order in
which they are visited does not matter. What a state holds is told by its clusters and by the values
in them; two states in order that hold the same are the same (`ClusterState.Tidy.ext`).
-/

namespace DeviceBridge

open Json (Value)

/-! ## Keys -/

/-- What is put together from a cluster and a name comes apart as it was, unless one of them is
empty. -/
theorem splitAttributeKey_append {cluster : String} (hdot : '.' ∉ cluster.toList) (name : String) :
    splitAttributeKey (cluster ++ "." ++ name) =
      if cluster = "" ∨ name = "" then none else some (cluster, name) := by
  have hkey : (cluster ++ "." ++ name).toList = cluster.toList ++ '.' :: name.toList := by
    simp [String.toList_append]
  have hbefore : ∀ c ∈ cluster.toList, decide (c ≠ '.') = true := fun c hc =>
    decide_eq_true fun heq => hdot (heq ▸ hc)
  have htake : (cluster ++ "." ++ name).toList.takeWhile (· ≠ '.') = cluster.toList := by
    rw [hkey, List.takeWhile_append_of_pos hbefore, List.takeWhile_cons_of_neg (by simp),
      List.append_nil]
  have hdrop : (cluster ++ "." ++ name).toList.dropWhile (· ≠ '.') = '.' :: name.toList := by
    rw [hkey, List.dropWhile_append_of_pos hbefore, List.dropWhile_cons_of_neg (by simp)]
  unfold splitAttributeKey
  dsimp only
  rw [htake, hdrop]
  simp only [String.toList_eq_nil_iff, String.ofList_toList]

/-- A key names an attribute of a cluster just if it is put together from the two. -/
theorem splitAttributeKey_eq_some_iff {key cluster name : String} :
    splitAttributeKey key = some (cluster, name) ↔
      key = cluster ++ "." ++ name ∧ '.' ∉ cluster.toList ∧ cluster ≠ "" ∧ name ≠ "" := by
  constructor
  · intro h
    unfold splitAttributeKey at h
    dsimp only at h
    have hparts : key.toList = key.toList.takeWhile (· ≠ '.') ++ key.toList.dropWhile (· ≠ '.') :=
      List.takeWhile_append_dropWhile.symm
    have hhead := List.head?_dropWhile_not (· ≠ '.') key.toList
    split at h
    · next c rest hdrop =>
      rw [hdrop] at hparts hhead
      obtain rfl : c = '.' := by simpa using hhead
      split at h
      · contradiction
      · next hne =>
        obtain ⟨rfl, rfl⟩ := Prod.mk.inj (Option.some.inj h)
        refine ⟨String.toList_inj.mp ?_, fun hdot => ?_, fun hempty => ?_, fun hempty => ?_⟩
        · simpa [String.toList_append] using hparts
        · rw [String.toList_ofList] at hdot
          simpa using List.mem_takeWhile_imp hdot
        · rw [← String.toList_eq_nil_iff, String.toList_ofList] at hempty
          exact hne (.inl hempty)
        · rw [← String.toList_eq_nil_iff, String.toList_ofList] at hempty
          exact hne (.inr hempty)
    · contradiction
  · rintro ⟨rfl, hdot, hcluster, hname⟩
    rw [splitAttributeKey_append hdot, if_neg (not_or_intro hcluster hname)]

/-- Keys that go to the same place are the same. -/
theorem eq_of_splitAttributeKey {key key' : String} {parts : String × String}
    (h : splitAttributeKey key = some parts) (h' : splitAttributeKey key' = some parts) :
    key = key' := by
  obtain ⟨cluster, name⟩ := parts
  exact (splitAttributeKey_eq_some_iff.mp h).1.trans (splitAttributeKey_eq_some_iff.mp h').1.symm

/-- Keys that name no attribute of a cluster of the kind. -/
inductive DeviceType.Ignores (type : DeviceType) : String → Prop
  | undotted {key : String} : '.' ∉ key.toList → type.Ignores key
  | noCluster (name : String) : type.Ignores ("." ++ name)
  | noName {cluster : String} : '.' ∉ cluster.toList → type.Ignores (cluster ++ ".")
  | foreign {cluster : String} (name : String) :
      '.' ∉ cluster.toList → cluster ∉ type.profile.clusters → type.Ignores (cluster ++ "." ++ name)

/-- An ignored key comes apart into nothing, or into a cluster that the kind does not have. -/
theorem DeviceType.Ignores.not_mem_clusters {type : DeviceType} {key cluster name : String}
    (h : type.Ignores key) (hkey : splitAttributeKey key = some (cluster, name)) :
    cluster ∉ type.profile.clusters := by
  cases h with
  | undotted hdot =>
      obtain ⟨rfl, -, -, -⟩ := splitAttributeKey_eq_some_iff.mp hkey
      exact absurd (by simp [String.toList_append]) hdot
  | noCluster name' =>
      rw [← String.empty_append (s := "."), splitAttributeKey_append (by decide)] at hkey
      simp at hkey
  | noName hdot =>
      rw [← String.append_empty (s := _ ++ "."), splitAttributeKey_append hdot] at hkey
      simp at hkey
  | foreign name' hdot hforeign =>
      rw [splitAttributeKey_append hdot] at hkey
      split at hkey
      · contradiction
      · obtain ⟨rfl, -⟩ := Prod.mk.inj (Option.some.inj hkey)
        exact hforeign

namespace ClusterState

variable {state state' : ClusterState} {cluster name : String} {value : Value}

/-! ## One value -/

/-- Only an attribute of a cluster that is there can be set. -/
theorem set?_eq_none_iff :
    state.set? cluster name value = none ↔ Dictionary.contains state cluster = false := by
  unfold set? Dictionary.contains
  cases state.get? cluster <;> simp

/-- Setting an attribute leaves the clusters as they are. -/
theorem contains_of_set? (h : state.set? cluster name value = some state') (c : String) :
    Dictionary.contains state' c = Dictionary.contains state c := by
  unfold set? at h
  cases hget : state.get? cluster with
  | none => rw [hget] at h; contradiction
  | some values =>
      rw [hget] at h
      obtain rfl := Option.some.inj h
      rw [Dictionary.contains_insert]
      by_cases hc : c = cluster <;> simp [hc, Dictionary.contains, hget]

/-- Setting an attribute leaves all other values. -/
theorem value?_of_set? (h : state.set? cluster name value = some state') (c a : String) :
    state'.value? c a = if c = cluster ∧ a = name then some value else state.value? c a := by
  unfold set? at h
  cases hget : state.get? cluster with
  | none => rw [hget] at h; contradiction
  | some values =>
      rw [hget] at h
      obtain rfl := Option.some.inj h
      unfold value?
      rw [Dictionary.get?_insert]
      by_cases hc : c = cluster
      · simp [hc, hget, Dictionary.get?_insert]
      · simp [hc]

theorem contains_of_value? (h : state.value? cluster name = some value) :
    Dictionary.contains state cluster = true := by
  unfold value? at h
  unfold Dictionary.contains
  cases hget : state.get? cluster with
  | none => rw [hget] at h; contradiction
  | some values => rfl

/-! ## Taking in values under keys -/

@[simp] theorem contains_seed (entry : String × Value) (c : String) :
    Dictionary.contains (state.seed entry) c = Dictionary.contains state c := by
  unfold seed
  split
  · next cluster name _ =>
    cases hset : state.set? cluster name entry.2 with
    | none => rfl
    | some state' => exact contains_of_set? hset c
  · rfl

@[simp] theorem contains_foldl_seed (entries : List (String × Value)) (c : String) :
    Dictionary.contains (entries.foldl seed state) c = Dictionary.contains state c := by
  induction entries generalizing state with
  | nil => rfl
  | cons e es ih => rw [List.foldl_cons, ih, contains_seed]

/-- A value goes to the place that its key names, if the cluster is there. -/
theorem value?_seed (entry : String × Value) (c a : String) :
    (state.seed entry).value? c a =
      if splitAttributeKey entry.1 = some (c, a) ∧ Dictionary.contains state c = true then
        some entry.2
      else state.value? c a := by
  unfold seed
  cases hkey : splitAttributeKey entry.1 with
  | none => simp
  | some parts =>
      obtain ⟨cluster, name⟩ := parts
      dsimp only
      cases hset : state.set? cluster name entry.2 with
      | none =>
          rw [if_neg, Option.getD_none]
          rintro ⟨heq, hc⟩
          obtain ⟨rfl, rfl⟩ := Prod.mk.inj (Option.some.inj heq)
          rw [set?_eq_none_iff.mp hset] at hc
          contradiction
      | some state' =>
          have hthere : Dictionary.contains state cluster = true := by
            by_contra hnot
            rw [set?_eq_none_iff.mpr (by simpa using hnot)] at hset
            contradiction
          rw [Option.getD_some, value?_of_set? hset]
          by_cases hplace : c = cluster ∧ a = name
          · obtain ⟨rfl, rfl⟩ := hplace
            simp [hthere]
          · have hother : ¬ (some (cluster, name) = some (c, a) ∧
                Dictionary.contains state c = true) := by
              rintro ⟨heq, -⟩
              obtain ⟨rfl, rfl⟩ := Prod.mk.inj (Option.some.inj heq)
              exact hplace ⟨rfl, rfl⟩
            rw [if_neg hplace, if_neg hother]

/-- Of keys that differ, none takes the place of another. -/
theorem value?_foldl_seed {entries : List (String × Value)}
    (hmap : (entries.map Prod.fst).Nodup) (hc : Dictionary.contains state cluster = true) :
    (entries.foldl seed state).value? cluster name = some value ↔
      (∃ e ∈ entries, splitAttributeKey e.1 = some (cluster, name) ∧ e.2 = value) ∨
      (∀ e ∈ entries, splitAttributeKey e.1 ≠ some (cluster, name)) ∧
        state.value? cluster name = some value := by
  induction entries generalizing state with
  | nil => simp
  | cons e es ih =>
      obtain ⟨hfresh, hmap⟩ := List.nodup_cons.mp hmap
      rw [List.foldl_cons, ih hmap (by rw [contains_seed, hc]), value?_seed]
      by_cases hkey : splitAttributeKey e.1 = some (cluster, name)
      · have hother : ∀ e' ∈ es, splitAttributeKey e'.1 ≠ some (cluster, name) :=
          fun e' he' hkey' =>
            hfresh (eq_of_splitAttributeKey hkey hkey' ▸ List.mem_map_of_mem he')
        have hnone : ¬ ∃ e' ∈ es, splitAttributeKey e'.1 = some (cluster, name) ∧ e'.2 = value :=
          fun ⟨e', he', hkey', _⟩ => hother e' he' hkey'
        simpa [hkey, hc, hnone] using fun _ k v he' => hother (k, v) he'
      · simp [hkey]

/-- A key that is ignored brings in nothing. -/
theorem seed_of_ignores {type : DeviceType} {entry : String × Value} (h : type.Ignores entry.1)
    (hclusters : ∀ c, Dictionary.contains state c = true → c ∈ type.profile.clusters) :
    state.seed entry = state := by
  unfold seed
  cases hkey : splitAttributeKey entry.1 with
  | none => rfl
  | some parts =>
      have hforeign := h.not_mem_clusters hkey
      have hnone : state.set? parts.1 parts.2 entry.2 = none :=
        set?_eq_none_iff.mpr (Bool.eq_false_iff.mpr fun hc => hforeign (hclusters _ hc))
      dsimp only
      rw [hnone, Option.getD_none]

/-! ## States in order -/

/-- The clusters stand in order, and so do the attributes of each. -/
structure Tidy (state : ClusterState) : Prop where
  clusters : state.Ordered
  attributes : ∀ {cluster values}, state.get? cluster = some values → values.Ordered

theorem Tidy.insert (h : state.Tidy) {values : Attributes} (hvalues : values.Ordered) :
    Tidy (Dictionary.insert state cluster values) where
  clusters := h.clusters.insert cluster values
  attributes := by
    intro c values' hget
    rw [Dictionary.get?_insert] at hget
    split at hget
    · obtain rfl := Option.some.inj hget
      exact hvalues
    · exact h.attributes hget

theorem Tidy.seed (h : state.Tidy) (entry : String × Value) : (state.seed entry).Tidy := by
  unfold ClusterState.seed
  split
  · next cluster name _ =>
    unfold set?
    cases hget : state.get? cluster with
    | none => exact h
    | some values => exact h.insert ((h.attributes hget).insert name entry.2)
  · exact h

theorem Tidy.foldl_seed (h : state.Tidy) (entries : List (String × Value)) :
    Tidy (entries.foldl ClusterState.seed state) := by
  induction entries generalizing state with
  | nil => exact h
  | cons e es ih => exact ih (h.seed e)

/-- States in order are the same if they have the same clusters with the same values. -/
theorem Tidy.ext (h : state.Tidy) (h' : state'.Tidy)
    (hcontains : ∀ c, Dictionary.contains state c = Dictionary.contains state' c)
    (hvalue : ∀ c a, state.value? c a = state'.value? c a) : state = state' := by
  refine Dictionary.Ordered.ext h.clusters h'.clusters fun c => ?_
  have hc := hcontains c
  have hv := hvalue c
  unfold Dictionary.contains at hc
  unfold value? at hv
  cases hget : state.get? c with
  | none =>
      rw [hget] at hc
      exact (Option.isSome_eq_false_iff.mp hc.symm |> Option.isNone_iff_eq_none.mp).symm
  | some values =>
      rw [hget] at hc hv
      obtain ⟨values', hget'⟩ := Option.isSome_iff_exists.mp hc.symm
      rw [hget'] at hv ⊢
      exact congrArg some (Dictionary.Ordered.ext (h.attributes hget) (h'.attributes hget') hv)

/-- The order in which keys that differ are visited leaves no trace. -/
theorem foldl_seed_of_perm {visited entries : List (String × Value)} (h : state.Tidy)
    (hmap : (entries.map Prod.fst).Nodup) (hperm : visited.Perm entries) :
    visited.foldl ClusterState.seed state = entries.foldl ClusterState.seed state := by
  have hvisited : (visited.map Prod.fst).Nodup := (hperm.map Prod.fst).nodup_iff.mpr hmap
  refine Tidy.ext (h.foldl_seed visited) (h.foldl_seed entries) (fun c => by simp) fun c a => ?_
  refine Option.ext fun v => ?_
  by_cases hc : Dictionary.contains state c = true
  · simp only [value?_foldl_seed hvisited hc, value?_foldl_seed hmap hc,
      hperm.mem_iff]
  · have hnone (es : List (String × Value)) :
        (es.foldl ClusterState.seed state).value? c a ≠ some v :=
      fun hv => hc (contains_foldl_seed es c ▸ contains_of_value? hv)
    exact iff_of_false (hnone visited) (hnone entries)

/-! ## The clusters of a kind -/

@[simp] theorem contains_empty (clusters : List String) (c : String) :
    Dictionary.contains (empty clusters) c = true ↔ c ∈ clusters := by
  unfold empty
  rw [Dictionary.contains_ofList, List.map_map]
  simp [Function.comp_def]

theorem get?_empty {clusters : List String} {values : Attributes}
    (h : (empty clusters).get? cluster = some values) : values = [] := by
  obtain ⟨c, -, heq⟩ := List.mem_map.mp (Dictionary.mem_of_mem_ofList (Dictionary.mem_of_get? h))
  exact (Prod.mk.inj heq).2.symm

@[simp] theorem value?_empty (clusters : List String) (c a : String) :
    (empty clusters).value? c a = none := by
  unfold value?
  cases hget : (empty clusters).get? c with
  | none => rfl
  | some values => rw [get?_empty hget]; rfl

theorem tidy_empty (clusters : List String) : (empty clusters).Tidy where
  clusters := Dictionary.ordered_ofList _
  attributes h := by
    rw [get?_empty h]
    exact List.Pairwise.nil

end ClusterState

/-! ## Definitions of endpoints -/

theorem DeviceType.dotless_of_mem_clusters {type : DeviceType} {c : String}
    (h : c ∈ type.profile.clusters) : '.' ∉ c.toList ∧ c ≠ "" ∧ c ≠ bridgedInfoCluster := by
  have hall : ∀ c ∈ type.profile.clusters, '.' ∉ c.toList ∧ c ≠ "" ∧ c ≠ bridgedInfoCluster := by
    cases type <;> simp [DeviceType.profile, bridgedInfoCluster]
  exact hall c h

/-- What a device tells about itself, in the order of the names. -/
theorem DeviceInfo.attributes_eq (info : DeviceInfo) : info.attributes =
    [("nodeLabel", .string info.nodeLabel), ("productLabel", .string info.productLabel),
      ("productName", .string info.productName), ("reachable", .bool true),
      ("serialNumber", .string info.serialNumber)] := by
  simp only [DeviceInfo.attributes, Dictionary.ofList, List.foldl_cons, List.foldl_nil,
    Dictionary.insert, String.reduceEq, String.reduceLT, if_true, if_false]

namespace EndpointDefinition

variable (type : DeviceType) (id : EndpointId) (info : DeviceInfo)

/-- An endpoint has the clusters of its kind and the one with what the device tells about itself. -/
@[simp] theorem contains_initialState (entries : List (String × Value)) (c : String) :
    Dictionary.contains (ofDevice type id info entries).initialState c = true ↔
      c ∈ type.profile.clusters ∨ c = bridgedInfoCluster := by
  simp [ofDevice, Dictionary.contains_insert, or_comm]

/-- In the clusters of its kind an endpoint has what the keys bring in. -/
theorem value?_initialState (entries : List (String × Value)) {c : String}
    (hc : c ∈ type.profile.clusters) (a : String) :
    (ofDevice type id info entries).initialState.value? c a =
      ClusterState.value? (entries.foldl ClusterState.seed
        (ClusterState.empty type.profile.clusters)) c a := by
  have hne : c ≠ bridgedInfoCluster := (DeviceType.dotless_of_mem_clusters hc).2.2
  simp only [ofDevice, ClusterState.value?, Dictionary.get?_insert, hne, if_false]

/-- A value stands in a cluster of the kind just if the map has it under the name of the cluster, a
dot and the name of the attribute. -/
theorem value?_initialState_eq_some_iff {entries : List (String × Value)}
    (hmap : (entries.map Prod.fst).Nodup) {c : String} (hc : c ∈ type.profile.clusters)
    (a : String) (v : Value) :
    (ofDevice type id info entries).initialState.value? c a = some v ↔
      a ≠ "" ∧ (c ++ "." ++ a, v) ∈ entries := by
  obtain ⟨hdot, hempty, -⟩ := DeviceType.dotless_of_mem_clusters hc
  have hthere : Dictionary.contains (ClusterState.empty type.profile.clusters) c = true :=
    (ClusterState.contains_empty _ c).mpr hc
  rw [value?_initialState type id info entries hc, ClusterState.value?_foldl_seed hmap hthere,
    ClusterState.value?_empty]
  constructor
  · rintro (⟨⟨key, v⟩, he, hkey, rfl⟩ | ⟨-, h⟩)
    · obtain ⟨rfl, -, -, hname⟩ := splitAttributeKey_eq_some_iff.mp hkey
      exact ⟨hname, he⟩
    · contradiction
  · rintro ⟨hname, he⟩
    exact .inl ⟨_, he, splitAttributeKey_eq_some_iff.mpr ⟨rfl, hdot, hempty, hname⟩, rfl⟩

theorem ofDevice_of_perm {visited entries : List (String × Value)}
    (hmap : (entries.map Prod.fst).Nodup) (hperm : visited.Perm entries) :
    ofDevice type id info visited = ofDevice type id info entries := by
  unfold ofDevice
  rw [ClusterState.foldl_seed_of_perm (ClusterState.tidy_empty _) hmap hperm]

/-- A key that is ignored might as well not be there. -/
theorem ofDevice_of_ignores (before after : List (String × Value)) {e : String × Value}
    (h : type.Ignores e.1) :
    ofDevice type id info (before ++ after) = ofDevice type id info (before ++ e :: after) := by
  unfold ofDevice
  rw [List.foldl_append, List.foldl_append, List.foldl_cons, ClusterState.seed_of_ignores h]
  intro c hc
  rwa [ClusterState.contains_foldl_seed, ClusterState.contains_empty] at hc

/-- What an endpoint starts with, told by the map of values: the same in whichever order the map is
visited; in a cluster of the kind what the map has under the cluster, a dot and the attribute; in
the cluster in which a device tells about itself what it tells, and nothing from the map; and no
other cluster. Keys that name no attribute of a cluster of the kind change nothing. -/
theorem initialState_of_map {entries : List (String × Value)}
    (hmap : (entries.map Prod.fst).Nodup) :
    (∀ visited : List (String × Value), visited.Perm entries →
      ofDevice type id info visited = ofDevice type id info entries) ∧
    (∀ c ∈ type.profile.clusters, ∀ a v,
      (ofDevice type id info entries).initialState.value? c a = some v ↔
        a ≠ "" ∧ (c ++ "." ++ a, v) ∈ entries) ∧
    (ofDevice type id info entries).initialState.get? bridgedInfoCluster = some
      [("nodeLabel", .string info.nodeLabel), ("productLabel", .string info.productLabel),
        ("productName", .string info.productName), ("reachable", .bool true),
        ("serialNumber", .string info.serialNumber)] ∧
    (∀ c, Dictionary.contains (ofDevice type id info entries).initialState c = true ↔
      c ∈ type.profile.clusters ∨ c = bridgedInfoCluster) ∧
    ∀ before e after, entries = before ++ e :: after → type.Ignores e.1 →
      ofDevice type id info (before ++ after) = ofDevice type id info entries := by
  refine ⟨fun visited hperm => ofDevice_of_perm type id info hmap hperm,
    fun c hc a v => value?_initialState_eq_some_iff type id info hmap hc a v, ?_,
    contains_initialState type id info entries, ?_⟩
  · unfold ofDevice
    rw [Dictionary.get?_insert, if_pos rfl, DeviceInfo.attributes_eq]
  · rintro before e after rfl h
    exact ofDevice_of_ignores type id info before after h

/-- Values for a lamp: one for an attribute with a dot in its name, one for what the device tells
about itself, one of a cluster that a lamp does not have, and one under a key without a dot. -/
def lampValues : List (String × Value) :=
  [("levelControl.on.level", .bool true), ("bridgedDeviceBasicInformation.reachable", .bool false),
    ("doorLock.lockState", .null), ("level", .null)]

theorem initialState_of_lampValues :
    (lampValues.map Prod.fst).Nodup ∧
    ofDevice .dimmableLight ⟨"lamp"⟩ {} lampValues.reverse =
      ofDevice .dimmableLight ⟨"lamp"⟩ {} lampValues ∧
    (ofDevice .dimmableLight ⟨"lamp"⟩ {} lampValues).initialState.value? "levelControl" "on.level" =
      some (.bool true) := by
  have hmap : (lampValues.map Prod.fst).Nodup := by simp [lampValues]
  obtain ⟨horder, hvalue, -⟩ := initialState_of_map .dimmableLight ⟨"lamp"⟩ {} hmap
  refine ⟨hmap, horder _ lampValues.reverse_perm, ?_⟩
  exact (hvalue "levelControl" (by simp [DeviceType.profile]) _ _).mpr
    ⟨by simp, by simp [lampValues]⟩

end EndpointDefinition

end DeviceBridge
