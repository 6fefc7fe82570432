import DeviceBridge.Announcement
import DeviceBridge.Commissioning
import DeviceBridge.Daemon.Config
import DeviceBridge.Event
import DeviceBridge.Fabric
import DeviceBridge.NodeId
import DeviceBridge.Proofs.Connection
import Mathlib.Data.List.Permutation

/-!
# DeviceBridge.Proofs.Wire

What stands on the wire and in files of settings is read back as it was written. Ids may be written
as numbers or as text, records as objects or as arrays, fields may be missing, be `null` or stand
among others, and a tag may come after its content: whatever of this is accepted, its written form
is accepted as the same (`roundTrips_wire_and_settings`).

Each type has its instance of `Json.Lawful`, beside which only its number of levels matters: a
written form may be nested more deeply than what was read, where a missing field is written out, but
only by as many levels as the type has.
-/

namespace DeviceBridge

open Json (Document Faithful Kept Lawful Present Value encode decode lawful_record kept_none)
open Json.Fields (recovers_pure)

/-! ## Ids -/

instance : Faithful NodeId := .of_scalar (fun _ => trivial) fun id => by
  have hvalue : decode (encode id.value) = .ok id.value :=
    (Faithful.kept 0 id.value).reads _ (.refl _)
  have hread : decode (encode id) = (decode (encode id.value)).map NodeId.mk := rfl
  rw [hread, hvalue]
  rfl

instance : Faithful UniqueId := .of_scalar (fun _ => trivial) fun _ => rfl

instance : Faithful EndpointId := .of_scalar (fun _ => trivial) fun _ => rfl

instance : Faithful Files.Path := .of_scalar (fun _ => trivial) fun _ => rfl

instance : Faithful DeviceType := .of_scalar (fun _ => trivial) fun t => by
  have hread : decode (encode t) = match DeviceType.ofTag? t.tag with
    | some t => .ok t
    | none => .error .mismatch := rfl
  rw [hread, DeviceType.ofTag?_tag]

/-! ## Records without options -/

instance : Lawful DeviceInfo 1 := by
  refine lawful_record ["nodeLabel", "productName", "productLabel", "serialNumber"]
    (fun i => [
      ("nodeLabel", encode i.nodeLabel), ("productName", encode i.productName),
      ("productLabel", encode i.productLabel), ("serialNumber", encode i.serialNumber)])
    (by decide) (fun _ => rfl) (fun _ => rfl) (fun _ => rfl) fun {n fs i} hn hfs h => ?_
  simp only [Json.bind_eq_ok, Json.pure_eq_ok] at h
  obtain ⟨nodeLabel, h₁, productName, h₂, productLabel, h₃, serialNumber, h₄, rfl⟩ := h
  exact .required (hfs.kept hn h₁) <| .required (hfs.kept hn h₂) <| .required (hfs.kept hn h₃) <|
    .required (hfs.kept hn h₄) recovers_pure

instance : Lawful CommissioningConfig 1 := by
  refine lawful_record ["passcode", "discriminator"]
    (fun c => [("passcode", encode c.passcode), ("discriminator", encode c.discriminator)])
    (by decide) (fun _ => rfl) (fun _ => rfl) (fun _ => rfl) fun {n fs c} hn hfs h => ?_
  simp only [Json.bind_eq_ok, Json.pure_eq_ok] at h
  obtain ⟨passcode, h₁, discriminator, h₂, rfl⟩ := h
  exact .required (hfs.kept hn h₁) (.required (hfs.kept hn h₂) recovers_pure)

instance : Lawful PairingCodes 1 := by
  refine lawful_record ["manualPairingCode", "qrPairingCode"]
    (fun p => [
      ("manualPairingCode", encode p.manualPairingCode), ("qrPairingCode", encode p.qrPairingCode)])
    (by decide) (fun _ => rfl) (fun _ => rfl) (fun _ => rfl) fun {n fs p} hn hfs h => ?_
  simp only [Json.bind_eq_ok, Json.pure_eq_ok] at h
  obtain ⟨manualPairingCode, h₁, qrPairingCode, h₂, rfl⟩ := h
  exact .required (hfs.kept hn h₁) (.required (hfs.kept hn h₂) recovers_pure)

instance : Lawful CommissioningState 2 := by
  refine lawful_record ["pairingCodes", "commissioningWindowOpen"]
    (fun s => [
      ("pairingCodes", encode s.pairingCodes),
      ("commissioningWindowOpen", encode s.commissioningWindowOpen)])
    (by decide) (fun _ => rfl) (fun _ => rfl) (fun _ => rfl) fun {n fs s} hn hfs h => ?_
  simp only [Json.bind_eq_ok, Json.pure_eq_ok] at h
  obtain ⟨pairingCodes, h₁, commissioningWindowOpen, h₂, rfl⟩ := h
  exact .required (hfs.kept hn h₁) (.required (hfs.kept n.zero_le h₂) recovers_pure)

instance : Lawful FabricInfo 1 := by
  refine lawful_record ["fabricIndex", "fabricId", "nodeId", "rootVendorId", "label"]
    (fun f => [
      ("fabricIndex", encode f.fabricIndex), ("fabricId", encode f.fabricId),
      ("nodeId", encode f.nodeId), ("rootVendorId", encode f.rootVendorId),
      ("label", encode f.label)])
    (by decide) (fun _ => rfl) (fun _ => rfl) (fun _ => rfl) fun {n fs f} hn hfs h => ?_
  simp only [Json.bind_eq_ok, Json.pure_eq_ok] at h
  obtain ⟨fabricIndex, h₁, fabricId, h₂, nodeId, h₃, rootVendorId, h₄, label, h₅, rfl⟩ := h
  exact .required (hfs.kept hn h₁) <| .required (hfs.kept hn h₂) <| .required (hfs.kept hn h₃) <|
    .required (hfs.kept hn h₄) <| .required (hfs.kept hn h₅) recovers_pure

instance : Lawful ProductDescription 1 := by
  refine lawful_record ["name", "deviceType"]
    (fun p => [("name", encode p.name), ("deviceType", encode p.deviceType)])
    (by decide) (fun _ => rfl) (fun _ => rfl) (fun _ => rfl) fun {n fs p} hn hfs h => ?_
  simp only [Json.bind_eq_ok, Json.pure_eq_ok] at h
  obtain ⟨name, h₁, deviceType, h₂, rfl⟩ := h
  exact .required (hfs.kept hn h₁) (.required (hfs.kept hn h₂) recovers_pure)

instance : Lawful BasicInformation 1 := by
  refine lawful_record [
      "vendorName", "vendorId", "nodeLabel", "productName", "productLabel", "productId",
      "serialNumber", "uniqueId"]
    (fun b => [
      ("vendorName", encode b.vendorName), ("vendorId", encode b.vendorId),
      ("nodeLabel", encode b.nodeLabel), ("productName", encode b.productName),
      ("productLabel", encode b.productLabel), ("productId", encode b.productId),
      ("serialNumber", encode b.serialNumber), ("uniqueId", encode b.uniqueId)])
    (by decide) (fun _ => rfl) (fun _ => rfl) (fun _ => rfl) fun {n fs b} hn hfs h => ?_
  simp only [Json.bind_eq_ok, Json.pure_eq_ok] at h
  obtain ⟨vendorName, h₁, vendorId, h₂, nodeLabel, h₃, productName, h₄, productLabel, h₅,
    productId, h₆, serialNumber, h₇, uniqueId, h₈, rfl⟩ := h
  exact .required (hfs.kept hn h₁) <| .required (hfs.kept hn h₂) <| .required (hfs.kept hn h₃) <|
    .required (hfs.kept hn h₄) <| .required (hfs.kept hn h₅) <| .required (hfs.kept hn h₆) <|
    .required (hfs.kept hn h₇) <| .required (hfs.kept hn h₈) recovers_pure

/-! ## Connections -/

instance : Lawful Duration 0 where
  kept {n _ x} _ _ _ h := by
    obtain ⟨ms, -, rfl⟩ := Json.map_eq_ok.mp h
    have hms := Faithful.kept n ms
    have hencode : encode (Duration.ofMillis ms) = encode ms :=
      congrArg encode (Duration.millis_ofMillis ms)
    refine ⟨hencode ▸ hms.plain, fun d hd => ?_⟩
    exact Json.map_eq_ok.mpr ⟨ms, hms.reads d (hencode ▸ hd), rfl⟩

instance : Present Duration := ⟨nofun⟩

instance : Lawful ConnectOptions 1 := by
  refine lawful_record [
      "autoSubscribe", "connectTimeout", "subscribeMinIntervalFloor",
      "subscribeMaxIntervalCeiling"]
    (fun o => [
      ("autoSubscribe", encode o.autoSubscribe), ("connectTimeout", encode o.connectTimeout),
      ("subscribeMinIntervalFloor", encode o.subscribeMinIntervalFloor),
      ("subscribeMaxIntervalCeiling", encode o.subscribeMaxIntervalCeiling)])
    (by decide) (fun _ => rfl) (fun _ => rfl) (fun _ => rfl) fun {n fs o} hn hfs h => ?_
  simp only [Json.bind_eq_ok, Json.pure_eq_ok] at h
  obtain ⟨autoSubscribe, h₁, connectTimeout, h₂, floor, h₃, ceiling, h₄, rfl⟩ := h
  exact .optional (hfs.kept_optional hn (Faithful.kept n _) h₁) <|
    .optional (hfs.kept_optional hn kept_none h₂) <|
    .optional (hfs.kept_optional hn kept_none h₃) <|
    .optional (hfs.kept_optional hn kept_none h₄) recovers_pure

/-! ## Events -/

instance : Lawful TriggeredEvent 1 := by
  refine lawful_record ["eventName", "data"]
    (fun e => [("eventName", encode e.eventName), ("data", encode e.data)])
    (by decide) (fun _ => rfl) (fun _ => rfl) (fun _ => rfl) fun {n fs e} hn hfs h => ?_
  simp only [Json.bind_eq_ok, Json.pure_eq_ok] at h
  obtain ⟨eventName, h₁, data, h₂, rfl⟩ := h
  have hnull : Kept n Value.null := .of_scalar trivial rfl
  exact .required (hfs.kept hn h₁) (.optional (hfs.kept_optional hn hnull h₂) recovers_pure)

namespace BridgeEvent

/-- An event is read from a part of its document under a tag. -/
theorem exists_content {n : Nat} {d : Document} {x : BridgeEvent} (hfree : d.FloatFree)
    (hwithin : d.Within n) (h : decode d = .ok x) :
    ∃ tag content, content.FloatFree ∧ content.Within (n - 1) ∧ ofTagged tag content = .ok x := by
  simp only [decode] at h
  split at h
  · exact ⟨_, _, hfree.2.1, hwithin.2.2.1, h⟩
  · next members =>
    split at h
    · contradiction
    · next fs hnamed =>
      have hsound := (Json.Fields.sound_of_namedMembers hfree hwithin hnamed).filter
        fun f => f.1 = "type" ∨ f.1 = "data"
      split at h
      · next tag content hfs =>
        rw [hfs] at hsound
        obtain ⟨hfree, hwithin⟩ := hsound _ (List.mem_cons_of_mem _ List.mem_cons_self)
        exact ⟨_, _, hfree, hwithin, h⟩
      · next content tag hfs =>
        rw [hfs] at hsound
        obtain ⟨hfree, hwithin⟩ := hsound _ List.mem_cons_self
        split at h
        · exact ⟨_, _, hfree, hwithin, h⟩
        · contradiction
      · contradiction
  · contradiction

/-- An event is kept with its content. -/
theorem kept {n : Nat} {e : TriggeredEvent} (hpos : 0 < n) (he : Kept (n - 1) e) :
    Kept n (eventTriggered e) := by
  refine ⟨Json.plain_record hpos (by simp) ?_, fun d hd => ?_⟩
  · exact List.forall_mem_cons.mpr ⟨trivial, List.forall_mem_singleton.mpr he.plain⟩
  · obtain ⟨gs, hs, rfl, hgs, hp⟩ := Json.exists_of_reordered_record hd
    obtain ⟨⟨_, _⟩, _, ⟨rfl, rfl⟩, hrest, rfl⟩ := List.forall₂_cons_left_iff.mp hgs
    obtain ⟨⟨_, content⟩, _, ⟨rfl, hcontent⟩, hnil, rfl⟩ := List.forall₂_cons_left_iff.mp hrest
    obtain rfl := List.forall₂_nil_left_iff.mp hnil
    have hread : ofTagged (some eventTriggeredTag) content = .ok (eventTriggered e) := by
      rw [ofTagged, if_pos rfl, he.reads content hcontent]
      rfl
    obtain rfl | rfl := List.pair_perm.mp hp
    · exact hread
    · -- Content in front of its tag has a value, as it is plain.
      obtain ⟨v, hv, -⟩ := (he.plain.of_reordered hcontent).exists_toValue?
      have hdecode :
          decode (Document.record [("data", content), ("type", .string eventTriggeredTag)]) =
          if content.toValue?.isSome then ofTagged (some eventTriggeredTag) content
          else .error .mismatch := rfl
      rw [hdecode, if_pos (Option.isSome_of_eq_some hv), hread]

instance : Lawful BridgeEvent 2 where
  kept {n d x} hn hfree hwithin h := by
    obtain ⟨tag, content, hfree, hwithin, h⟩ := exists_content hfree hwithin h
    unfold ofTagged at h
    split at h
    · obtain ⟨e, he, rfl⟩ := Json.map_eq_ok.mp h
      exact BridgeEvent.kept (by omega) (Lawful.kept (by omega) hfree hwithin he)
    · contradiction

end BridgeEvent

/-! ## Settings -/

instance : Lawful BridgeConfig 1 := by
  refine lawful_record BridgeConfig.names
    (fun c => [
      ("storage_path", encode c.storagePath), ("device_name", encode c.deviceName),
      ("vendor_name", encode c.vendorName), ("passcode", encode c.passcode),
      ("discriminator", encode c.discriminator), ("vendor_id", encode c.vendorId),
      ("product_name", encode c.productName), ("product_id", encode c.productId),
      ("port", encode c.port)])
    (by decide) (fun _ => rfl) (fun _ => rfl) (fun _ => rfl) fun {n fs c} hn hfs h => ?_
  simp only [Json.bind_eq_ok, Json.pure_eq_ok] at h
  obtain ⟨storagePath, -, deviceName, -, vendorName, -, passcode, -, discriminator, -, vendorId, -,
    productName, -, productId, -, port, -, rfl⟩ := h
  exact .optional (Faithful.kept n _) <| .optional (Faithful.kept n _) <|
    .optional (Faithful.kept n _) <| .optional (Faithful.kept n _) <|
    .optional (Faithful.kept n _) <| .optional (Faithful.kept n _) <|
    .optional (Faithful.kept n _) <| .optional (Faithful.kept n _) <|
    .optional (Faithful.kept n _) recovers_pure

instance : Lawful ControllerConfig 1 := by
  refine lawful_record ControllerConfig.names
    (fun c => [
      ("storage_location", encode c.storageLocation), ("node_num", encode c.nodeNum),
      ("network_interface", encode c.networkInterface)])
    (by decide) (fun _ => rfl) (fun _ => rfl) (fun _ => rfl) fun {n fs c} hn hfs h => ?_
  simp only [Json.bind_eq_ok, Json.pure_eq_ok] at h
  obtain ⟨storageLocation, -, nodeNum, -, networkInterface, -, rfl⟩ := h
  exact .optional (Faithful.kept n _) <| .optional (Faithful.kept n _) <|
    .optional (Faithful.kept n _) recovers_pure

instance : Present ControllerConfig := ⟨nofun⟩

instance : Lawful DeviceConfig 2 := by
  refine lawful_record DeviceConfig.names
    (fun c => [
      ("type", encode c.deviceType), ("id", encode c.id), ("node_label", encode c.nodeLabel),
      ("product_name", encode c.productName), ("product_label", encode c.productLabel),
      ("serial_number", encode c.serialNumber), ("attributes", encode c.attributes)])
    (by decide) (fun _ => rfl) (fun _ => rfl) (fun _ => rfl) fun {n fs c} hn hfs h => ?_
  simp only [Json.bind_eq_ok, Json.pure_eq_ok] at h
  obtain ⟨deviceType, -, id, -, nodeLabel, -, productName, -, productLabel, -, serialNumber, -,
    attributes, hattributes, rfl⟩ := h
  have hnone : Kept n ([] : Dictionary String Value) := .dictionary .nil hn (List.forall_mem_nil _)
  exact .required (Faithful.kept n _) <| .required (Faithful.kept n _) <|
    .optional (Faithful.kept n _) <| .optional (Faithful.kept n _) <|
    .optional (Faithful.kept n _) <| .optional (Faithful.kept n _) <|
    .optional (hfs.kept_optional hn hnone hattributes) recovers_pure

/-- What a daemon falls back on is what it reads from an empty object. -/
theorem kept_standard {n : Nat} (hn : 1 ≤ n) : Kept n ({} : BridgeConfig) :=
  Lawful.kept hn (d := .object []) trivial ⟨hn, trivial⟩ rfl

instance : Lawful DaemonConfig 4 := by
  refine lawful_record DaemonConfig.names
    (fun c => [
      ("bridge", encode c.bridge), ("controller", encode c.controller),
      ("device", encode c.devices)])
    (by decide) (fun _ => rfl) (fun _ => rfl) (fun _ => rfl) fun {n fs c} hn hfs h => ?_
  simp only [Json.bind_eq_ok, Json.pure_eq_ok] at h
  obtain ⟨bridge, hbridge, controller, hcontroller, devices, hdevices, rfl⟩ := h
  exact .optional (hfs.kept_optional (by omega) (kept_standard (by omega)) hbridge) <|
    .optional (hfs.kept_optional (by omega) kept_none hcontroller) <|
    .optional (hfs.kept_optional hn (.list (by omega) (List.forall_mem_nil _)) hdevices)
      recovers_pure

/-! ## Round trips -/

/-- A type of which whatever is accepted is written in a form that is accepted as the same. -/
structure RoundTrips (α : Type) [Json.Codec α] : Prop where
  /-- The written text, with the members of each object in any order, is accepted as what it
  writes. -/
  text : ∀ {s : String} {x : α}, (∀ d, Json.read s = .ok d → d.FloatFree) →
    Json.decodeText s = .ok x → ∀ d, (encode x).Reordered d → Json.decodeText d.compact = .ok x
  /-- The written form has a value, and the value is accepted as well. -/
  value : ∀ {v : Value} {x : α}, v.FloatFree → Json.decodeValue v = .ok x →
    ∃ w, (encode x).toValue? = some w ∧ Json.decodeValue w = .ok x
  /-- All spellings of a value have one written text, and no other value has it. -/
  canonical : ∀ {s t : String} {x y : α}, (∀ d, Json.read s = .ok d → d.FloatFree) →
    (∀ d, Json.read t = .ok d → d.FloatFree) → Json.decodeText s = .ok x →
    Json.decodeText t = .ok y → (Json.encodeText x = Json.encodeText y ↔ x = y)

theorem RoundTrips.of_lawful {α : Type} [Json.Codec α] {levels : Nat} [Lawful α levels]
    (hlevels : levels ≤ Json.nestingLimit) : RoundTrips α where
  text hfree h d hd := (Json.kept_of_decodeText hlevels hfree h).decodeText_compact hd
  value hfree h := by
    obtain ⟨n, hkept⟩ := Json.exists_kept_of_decodeValue hfree h
    exact hkept.exists_decodeValue
  canonical {s t x y} hs ht hx hy := by
    have hx := (Json.kept_of_decodeText hlevels hs hx).decodeText_compact (.refl _)
    have hy := (Json.kept_of_decodeText hlevels ht hy).decodeText_compact (.refl _)
    refine ⟨fun h => Except.ok.inj (hx.symm.trans ?_), congrArg _⟩
    exact (congrArg Json.decodeText h).trans hy

/-- Whatever stands on the wire or in a file of settings is read back as it was written, however it
was spelled when it came in. -/
theorem roundTrips_wire_and_settings :
    RoundTrips NodeId ∧ RoundTrips UniqueId ∧ RoundTrips EndpointId ∧ RoundTrips DeviceType ∧
    RoundTrips DeviceInfo ∧ RoundTrips TriggeredEvent ∧ RoundTrips BridgeEvent ∧
    RoundTrips BridgeConfig ∧ RoundTrips ControllerConfig ∧ RoundTrips ConnectOptions ∧
    RoundTrips CommissioningState ∧ RoundTrips FabricInfo ∧ RoundTrips BasicInformation ∧
    RoundTrips ProductDescription ∧ RoundTrips CommissioningConfig ∧ RoundTrips DeviceConfig ∧
    RoundTrips DaemonConfig := by
  refine ⟨?_, ?_, ?_, ?_, ?_, ?_, ?_, ?_, ?_, ?_, ?_, ?_, ?_, ?_, ?_, ?_, ?_⟩ <;>
    exact .of_lawful (by decide)

example : ∀ s ∈ ["31", " 0x1fn ", "0o37", "0b11111"],
    Json.decodeValue (.string s) = .ok (⟨31⟩ : NodeId) := by decide

end DeviceBridge
