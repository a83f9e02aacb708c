import Pytusk.Pipelines.Write

/-!
# `tusky/tusky_cmds_relay.py`: the relay commands in simulate mode

What the commands do up to the transaction whose simulation they print. The
two commands resolve what Tx1 needs by themselves and compose it directly.
-/

namespace Pytusk.Tusky

open Pytusk.Lib Pytusk.Ops Pytusk.Pipelines

/-- How a command ends early: `sys.exit(1)` after a line on stderr, or an
exception it does not catch. -/
inductive CliExn where
  | systemExit (line : String)
  | raised (e : PyExn)
  deriving DecidableEq, Repr

abbrev Command := Logged Event CliExn

/-- `except ..: print(.., file=sys.stderr); sys.exit(1)` -/
def orExit {α : Type} (catches : PyExn → Bool) (line : PyExn → String) (r : Except PyExn α) :
    Except CliExn α :=
  r.mapError fun e => if catches e then .systemExit (line e) else .raised e

theorem orExit_eq_ok {α : Type} {catches : PyExn → Bool} {line : PyExn → String}
    {r : Except PyExn α} {a : α} : orExit catches line r = .ok a ↔ r = .ok a :=
  mapError_eq_ok

/-- What pysui's configuration says of addresses. -/
structure AddressBook where
  aliasForAddress : String → Except PyExn Unit
  addressForAlias : String → Except PyExn String

/-- The arguments of the two commands, besides what they store. -/
structure RelayArgs where
  epochs : Int
  permanent : Bool
  relay : Option String
  sender : Option String
  sponsor : Option String
  recipient : Option String
  tipGasSource : String
  maxTip : Option Int
  deriving DecidableEq, Repr

variable (w : World) (book : AddressBook)

/-! ## Who sends and who sponsors -/

/-- `_resolve_address_or_alias` -/
def resolveAddressOrAlias (arg : String) : Except PyExn String :=
  if "0x".toList.isPrefixOf arg.toList then do
    book.aliasForAddress arg
    return arg
  else book.addressForAlias arg

def resolveSender (senderArg : Option String) : Except PyExn String :=
  match senderArg with
  | none => .ok w.activeAddress
  | some arg => if arg = "" then .ok w.activeAddress else resolveAddressOrAlias book arg

def resolveSponsor (sponsorArg : Option String) : Except PyExn (Option String) :=
  match sponsorArg with
  | none => .ok none
  | some arg => if arg = "" then .ok none else some <$> resolveAddressOrAlias book arg

def resolveParties (args : RelayArgs) : Except PyExn (String × Option String) := do
  let sender ← resolveSender w book args.sender
  let sponsor ← resolveSponsor book args.sponsor
  return (sender, sponsor)

/-! ## Execute mode -/

/-- `DEFAULT_MAX_UPLOAD_ATTEMPTS` -/
def defaultMaxUploadAttempts : Int := 5

/-- `_print_tip_quote`, which prints and raises nothing. -/
def printTipQuote (_ : TipQuote) : Except PyExn Unit := .ok ()

/-- What execute mode hands to the pipelines. -/
def RelayArgs.relayStore (args : RelayArgs) (sender : String) (sponsor : Option String) :
    RelayStore where
  epochs := args.epochs
  deletable := !args.permanent
  relayName := args.relay
  sender := some sender
  sponsor := sponsor
  recipient := args.recipient
  tipSource := args.tipGasSource
  maxTip := args.maxTip
  walPaymentCoin := none
  maxUploadAttempts := defaultMaxUploadAttempts
  onQuote := some printTipQuote

/-! ## Simulate mode -/

/-- `f"Error in {exc.stage}: {exc}"` -/
def stageLine (e : PyExn) : String := s!"Error in {e.stage}: {e.message}"

def isBlobTooLargeError : PyExn → Bool
  | .blobTooLargeError _ => true
  | _ => false

variable (args : RelayArgs)

/-- `_relay_simulate_context`, less its clock. -/
def relaySimulateContext (sponsor : Option String) :
    Except CliExn (String × WalrusCommittee) := do
  orExit PyExn.isRelayUploadError stageLine (preflightSponsor w sponsor)
  let relayUrl ← orExit PyExn.isValueError
    (fun e => s!"Error resolving --relay: {e.message}") (w.relayUrlFor args.relay)
  let committee ← orExit isReadError
    (fun e => s!"Error in register (Tx1): {e.message}") (w.committee 0)
  return (relayUrl, committee)

def walrusPackageId : Except CliExn String :=
  orExit PyExn.isRuntimeError (fun e => s!"Error fetching System object: {e.message}")
    (resolvePackageId w)

/-- The quote, and its ceiling, in one `try`. -/
def quoteWithinCeiling (relayUrl : String) (unencodedLength nShards : Nat) :
    Except PyExn TipQuote := do
  let quote ← RelayUpload.quoteTip w relayUrl unencodedLength nShards
  RelayUpload.assertTipWithinCeiling quote args.maxTip
  return quote

/-- `build_and_sign` -/
def buildAndSign (txn : Txn) : Program Unit := do
  Logged.emit (.signed .tx1 txn)
  Logged.lift (w.transaction .tx1).signing

/-- `_relay_simulate_report`, up to the transaction it hands to the simulation. -/
def relaySimulateReport (sender : String) (sponsor : Option String) (data : Bytes)
    (encoded : EncodedBlob) (committee : WalrusCommittee) (relayUrl : String)
    (attributes : List (String × String)) : Command Txn := do
  let quote ← Logged.lift <| orExit PyExn.isRelayUploadError stageLine <|
    quoteWithinCeiling w args relayUrl data.length committee.nShards
  let authPackage :=
    if quote.requiresPayment then some (RelayUpload.buildAuthPackage w data) else none
  let walrusPkg ← Logged.lift (walrusPackageId w)
  let resolvedWalCoin ← Logged.lift <| orExit PyExn.isRuntimeError
    (fun e => s!"Error in payment preflight: {e.message}") <|
    preflightPayment w sender sponsor
      (if quote.requiresPayment then some args.tipGasSource else none)
      (quote.amount.getD 0) none
  let txn ← (openTransaction w .tx1 sender sponsor).mapError .raised
  let tipComposition := authPackage.map fun package => {
    relayAddress := quote.address.getD ""
    tipAmount := quote.amount.getD 0
    authPackage := package
    paymentCoin := args.tipGasSource }
  let txn ← Logged.lift <| orExit PyExn.isRelayUploadError stageLine <|
    addRegistrationSequence (w.transaction .tx1).builder {
      encoded := encoded
      epochs := args.epochs
      deletable := !args.permanent
      packageId := walrusPkg
      systemObject := w.systemObject } txn sender resolvedWalCoin tipComposition attributes
  (buildAndSign w txn).mapError .raised
  return txn

/-- `encode_blob`, as the two commands call it. -/
def encodeOrExit (data : Bytes) (nShards : Int) : Except CliExn EncodedBlob :=
  orExit isBlobTooLargeError (fun e => s!"Error in encode: {e.message}")
    (Redstuff.encodeBlob w.redstuffEncode data nShards)

/-- `assemble_quilt`, as `store_quilt_relay` calls it. -/
def assembleOrExit (patches : List QuiltPatchInput) (nShards : Int) :
    Except CliExn AssembledQuilt :=
  (Quilt.assembleQuilt patches nShards).mapError fun e =>
    if e.isAssemblyError then .systemExit s!"Error in assemble: {e.text (reprStr w)}"
    else .raised (assemblyError w relayUploadError e)

def resolvePartiesOrExit : Except CliExn (String × Option String) :=
  orExit PyExn.isValueError
    (fun e => s!"Error resolving --sender/--sponsor: {e.message}") (resolveParties w book args)

/-- `store_blob_relay`, in simulate mode. -/
def simulateBlobRelay (data : Bytes) : Command Txn := do
  let (sender, sponsor) ← Logged.lift (resolvePartiesOrExit w book args)
  let (relayUrl, committee) ← Logged.lift (relaySimulateContext w args sponsor)
  let encoded ← Logged.lift (encodeOrExit w data committee.nShards)
  relaySimulateReport w args sender sponsor data encoded committee relayUrl []

/-- `store_quilt_relay`, in simulate mode. -/
def simulateQuiltRelay (patches : List QuiltPatchInput) : Command Txn := do
  let (sender, sponsor) ← Logged.lift (resolvePartiesOrExit w book args)
  let (relayUrl, committee) ← Logged.lift (relaySimulateContext w args sponsor)
  let assembled ← Logged.lift (assembleOrExit w patches committee.nShards)
  let encoded ← Logged.lift (encodeOrExit w assembled.data assembled.nShards)
  relaySimulateReport w args sender sponsor assembled.data encoded committee relayUrl
    quiltBlobAttributes

end Pytusk.Tusky
