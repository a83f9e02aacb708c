import Pytusk.Client
import Pytusk.Encoding.Redstuff

/-!
# `relay_upload/tip.py`: what an upload owes and the package that proves it
-/

namespace Pytusk.RelayUpload

open Pytusk.Lib

variable (w : World)

/-- `build_auth_package` -/
def buildAuthPackage (data : Bytes) : AuthPackage where
  nonce := w.tokenBytes
  blobDigest := w.sha256 data
  nonceDigest := w.sha256 w.tokenBytes
  unencodedLength := data.length

def computeTip (kind : TipKind) (unencodedLength nShards : Nat) : Nat :=
  match kind with
  | .constTip amount => amount
  | .linearTip base encodedSizeMulPerKib =>
      let encoded := Redstuff.encodedBlobLength unencodedLength nShards
      let kibs := (encoded + 1023) / 1024
      base + kibs * encodedSizeMulPerKib

/-- `assert_tip_within_ceiling` -/
def assertTipWithinCeiling (quote : TipQuote) (maxTip : Option Int) : Except PyExn Unit :=
  match maxTip, quote.amount with
  | some ceiling, some amount =>
      if amount ≤ ceiling then .ok ()
      else
        .error (.relayUpload .tipCeilingExceededError
          (s!"Relay quoted a tip of {amount} MIST, above the max_tip ceiling of " ++
            s!"{ceiling} MIST; nothing was composed, signed, or spent")
          "fetch_tip_config" none)
  | _, _ => .ok ()

def fetchTipConfig (relayUrl : String) : Except PyExn TipConfig := do
  match ← w.tipConfig with
  | .failed resultString =>
      .error (.relayUpload .tipConfigError
        s!"Cannot fetch tip config from {relayUrl}: {resultString}"
        "fetch_tip_config" none)
  | .ok data => World.resultData "requires_payment" data

def quoteTip (relayUrl : String) (unencodedLength nShards : Nat) :
    Except PyExn TipQuote := do
  let config ← fetchTipConfig w relayUrl
  match config.kind with
  | none => return { address := none, amount := none, kind := none }
  | some kind =>
      return {
        address := config.address
        amount := some (computeTip kind unencodedLength nShards)
        kind := some kind }

end Pytusk.RelayUpload
