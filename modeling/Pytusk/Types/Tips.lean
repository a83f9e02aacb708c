import Pytusk.Chain.Committee
import Pytusk.Lib.Base64
import Pytusk.Lib.LittleEndian

/-!
# `types/tips.py`: what a relay charges and how it is paid
-/

namespace Pytusk

open Pytusk.Lib

/-- A relay's formula. `_tip_amount` admits no negative number. -/
inductive TipKind where
  | constTip (amount : Nat)
  | linearTip (base encodedSizeMulPerKib : Nat)
  deriving DecidableEq, Repr

structure TipConfig where
  address : Option String
  kind : Option TipKind
  deriving DecidableEq, Repr

def TipConfig.requiresPayment (config : TipConfig) : Bool := config.kind.isSome

/-- What this upload owes. -/
structure TipQuote where
  address : Option String
  amount : Option Nat
  kind : Option TipKind
  deriving DecidableEq, Repr

def TipQuote.requiresPayment (quote : TipQuote) : Bool := quote.kind.isSome

/-- `FROM_GAS`, the tip source that is no object id. -/
def fromGas : String := "from_gas"

/-- What the relay checks a tip against. -/
structure AuthPackage where
  nonce : Bytes
  blobDigest : Bytes
  nonceDigest : Bytes
  unencodedLength : Nat
  deriving DecidableEq, Repr

namespace AuthPackage

/-- `bcs`; a length that eight bytes cannot hold does not occur. -/
def bcs (package : AuthPackage) : Bytes :=
  package.blobDigest ++ package.nonceDigest ++
    LittleEndian.encode 8 package.unencodedLength

def nonceBase64url (package : AuthPackage) : String :=
  String.ofList (Base64.encodeUrl package.nonce)

end AuthPackage

structure TipComposition where
  relayAddress : String
  tipAmount : Nat
  authPackage : AuthPackage
  paymentCoin : String
  deriving DecidableEq, Repr

end Pytusk
