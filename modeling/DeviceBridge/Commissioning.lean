import DeviceBridge.Json.Codec

/-!
# DeviceBridge.Commissioning

What a commissioner needs to pair with a node: the secrets of the node, the codes that are made
from them, and whether the node lets itself be commissioned.
-/

namespace DeviceBridge

open Json (encode decode)

/-- The secrets of a node. -/
structure CommissioningConfig where
  passcode : UInt32
  discriminator : UInt16
deriving DecidableEq

instance : Json.Codec CommissioningConfig where
  encode c := .record [
    ("passcode", encode c.passcode), ("discriminator", encode c.discriminator)]
  decode d := do
    let fs ← d.fields ["passcode", "discriminator"]
    return {
      passcode := ← fs.required "passcode"
      discriminator := ← fs.required "discriminator" }

/-- The codes that a node advertises. -/
structure PairingCodes where
  manualPairingCode : String
  qrPairingCode : String
deriving DecidableEq

namespace PairingCodes

/-- A number in decimal, with zeros in front up to a width. -/
def padded (width n : Nat) : List Char :=
  let digits := Json.decimalDigits n
  List.replicate (width - digits.length) '0' ++ digits

/-- The codes made from the secrets: the discriminator in four digits and the passcode in eight,
and both numbers behind a mark. -/
def ofConfig (c : CommissioningConfig) : PairingCodes where
  manualPairingCode :=
    String.ofList (padded 4 c.discriminator.toNat ++ padded 8 c.passcode.toNat)
  qrPairingCode :=
    "MT:LOOPBACK-" ++ String.ofList (Json.decimalDigits c.discriminator.toNat) ++ "-" ++
      String.ofList (Json.decimalDigits c.passcode.toNat)

instance : Json.Codec PairingCodes where
  encode p := .record [
    ("manualPairingCode", encode p.manualPairingCode), ("qrPairingCode", encode p.qrPairingCode)]
  decode d := do
    let fs ← d.fields ["manualPairingCode", "qrPairingCode"]
    return {
      manualPairingCode := ← fs.required "manualPairingCode"
      qrPairingCode := ← fs.required "qrPairingCode" }

end PairingCodes

/-- What a node tells about its commissioning. -/
structure NodeCommissioning where
  /-- The node has joined a fabric. -/
  commissioned : Bool
  pairingCodes : PairingCodes
deriving DecidableEq

/-- What a commissioner is told about the bridge. -/
structure CommissioningState where
  pairingCodes : PairingCodes
  commissioningWindowOpen : Bool
deriving DecidableEq

instance : Json.Codec CommissioningState where
  encode s := .record [
    ("pairingCodes", encode s.pairingCodes),
    ("commissioningWindowOpen", encode s.commissioningWindowOpen)]
  decode d := do
    let fs ← d.fields ["pairingCodes", "commissioningWindowOpen"]
    return {
      pairingCodes := ← fs.required "pairingCodes"
      commissioningWindowOpen := ← fs.required "commissioningWindowOpen" }

end DeviceBridge
