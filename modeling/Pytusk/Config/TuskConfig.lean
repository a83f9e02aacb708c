import Pytusk.Lib.ExceptRules
import Pytusk.Lib.UrlParse
import Pytusk.Types.Errors
import Mathlib.Data.List.Dedup
import Mathlib.Data.List.Lex
import Mathlib.Data.List.Lookmap
import Mathlib.Data.Nat.Pairing

/-!
# `config/tusk_config.py`

The configuration of a user: named networks, each with named upload relays,
kept in one object and saved as JSON. Reading and writing the JSON is the work
of a third-party mixin; what it does is a parameter here.

In memory the relays of a network are a list object of `RelayConfig` objects.
Both can be reached from more than one network (`dataclasses.replace` copies a
network and shares its list), so both carry an identity, and a change through
one network is seen through every other one that shares the object.
-/

namespace Pytusk.Config

open Pytusk.Lib

/-! ## What the configuration asks of Python and of the machine -/

/-- Parts of the running Python, and of the machine it runs on. `isDigit` and
`decimal?` answer for characters outside ASCII. -/
structure Python where
  urls : UrlParse.Tables
  isDigit : Char → Bool
  decimal? : Char → Option Nat
  /-- `repr` of a string. -/
  repr : String → String
  /-- `str(Path(path).expanduser())` -/
  expanduser : String → Except PyExn String
  /-- `_detect_walrus_binary()` -/
  walrusBinary : Option String

/-- `f"{names}"` of a list of strings. -/
def Python.formatNames (py : Python) (names : List String) : String :=
  "[" ++ ", ".intercalate (names.map py.repr) ++ "]"

/-- `sorted(set(names))` -/
def sortedNames (names : List String) : List String := names.dedup.mergeSort (· ≤ ·)

/-! ## The data classes -/

inductive NetworkType where
  | test
  | production
  deriving DecidableEq, Repr

structure RelayConfig where
  relayName : String := ""
  relayUrl : String := ""
  deriving DecidableEq, Repr

/-- `ρ` is what holds the relays: their values in a file, objects in memory. -/
structure WalrusNetworkConfig (ρ : Type) where
  networkName : String := ""
  pysuiGroupName : String := ""
  pysuiProfileName : String := ""
  walrusAggregatorUrl : String := ""
  walrusPublisherUrl : String := ""
  systemObject : String := ""
  stakingObject : String := ""
  exchangeObjects : List String := []
  relays : ρ
  activeRelay : Option String := none
  walCoinType : String := ""
  networkType : NetworkType := .test
  deriving DecidableEq, Repr

structure PytuskConfigModel (ρ : Type) where
  version : String
  pysuiConfigPath : String
  walrusBinaryPath : Option String := none
  activeNetwork : String := "testnet"
  networks : List (WalrusNetworkConfig ρ) := []
  deriving DecidableEq, Repr

namespace RelayConfig

/-- The hosts that plain http is permitted for. None of their letters is the
lower case of a letter outside ASCII. -/
def loopbackHosts : List (List Char) :=
  ["localhost".toList, "127.0.0.1".toList, "::1".toList]

/-- What `__post_init__` asks of a relay's URL. -/
def checkUrl (py : Python) (relay : RelayConfig) : Except PyExn Unit :=
  match UrlParse.urlparse py.urls relay.relayUrl.toList with
  | .error message => .error (.valueError message)
  | .ok parsed =>
    if parsed.scheme = [] ∨ parsed.netloc = [] then
      .error (.valueError (s!"RelayConfig.relay_url for '{relay.relayName}' is not an " ++
        "absolute URL: " ++ py.repr relay.relayUrl))
    else if parsed.scheme ≠ "https".toList ∧ parsed.scheme ≠ "http".toList then
      .error (.valueError (s!"RelayConfig.relay_url for '{relay.relayName}' must use https, " ++
        "got scheme " ++ py.repr (String.ofList parsed.scheme)))
    else if parsed.scheme = "http".toList ∧ ∀ host ∈ parsed.hostname, host ∉ loopbackHosts then
      -- the Sui address that a tip is paid to is fetched over this URL
      .error (.valueError (s!"RelayConfig.relay_url for '{relay.relayName}' must use https: " ++
        "the tip destination address is fetched over this URL, so a " ++
        "plaintext connection lets an on-path attacker redirect the " ++
        "tip. http is permitted only for localhost."))
    else .ok ()

def postInit (py : Python) (relay : RelayConfig) : Except PyExn Unit :=
  if relay.relayName = "" then
    .error (.valueError "RelayConfig.relay_name must not be empty.")
  else if relay.relayUrl = "" then
    .error (.valueError s!"RelayConfig.relay_url must not be empty (relay '{relay.relayName}').")
  else relay.checkUrl py

/-- `RelayConfig(relay_name=..., relay_url=...)` -/
def new (py : Python) (relayName relayUrl : String) : Except PyExn RelayConfig := do
  let relay : RelayConfig := { relayName := relayName, relayUrl := relayUrl }
  relay.postInit py
  return relay

end RelayConfig

namespace WalrusNetworkConfig

variable {ρ σ : Type}

def postInit (network : WalrusNetworkConfig ρ) : Except PyExn Unit :=
  raiseIf (network.networkName = "")
    (.valueError "WalrusNetworkConfig.network_name must not be empty.")

def map (f : ρ → σ) (network : WalrusNetworkConfig ρ) : WalrusNetworkConfig σ :=
  { network with relays := f network.relays }

end WalrusNetworkConfig

/-- A network as a file holds it. -/
abbrev SavedNetwork := WalrusNetworkConfig (List RelayConfig)

abbrev SavedModel := PytuskConfigModel (List RelayConfig)

/-! ## Objects in memory -/

structure RelayObject where
  id : Nat
  config : RelayConfig
  deriving DecidableEq, Repr

/-- A list object of relays. -/
structure RelayList where
  id : Nat
  relays : List RelayObject
  deriving DecidableEq, Repr

abbrev Network := WalrusNetworkConfig RelayList

abbrev Model := PytuskConfigModel RelayList

def RelayList.values (relays : RelayList) : List RelayConfig := relays.relays.map (·.config)

/-- The values alone, which is what `==` compares and JSON holds. -/
def Model.values (model : Model) : SavedModel :=
  { model with networks := model.networks.map (·.map RelayList.values) }

/-- A newly made list of newly made relays. -/
def RelayList.alloc (id : Nat) (relays : List RelayConfig) : RelayList :=
  ⟨id, relays.mapIdx fun i relay => ⟨Nat.pair id i, relay⟩⟩

/-- The objects made for a model that was read: none of them is shared. -/
def SavedModel.alloc (model : SavedModel) : Model :=
  { model with networks := model.networks.mapIdx fun i network => network.map (RelayList.alloc i) }

/-! ## The JSON mixin -/

/-- `DataClassJsonMixin` of the third-party `dataclasses_json`, over the text
of a file. Reading is handed the checks that the constructors run. -/
structure DataClassJson (Text : Type) where
  toJson : SavedModel → Text
  fromJson : (RelayConfig → Except PyExn Unit) → (SavedNetwork → Except PyExn Unit) →
    Text → Except PyExn SavedModel

/-- Every relay and every network of the model passes its constructor's check. -/
def SavedModel.Constructs (relayInit : RelayConfig → Except PyExn Unit)
    (networkInit : SavedNetwork → Except PyExn Unit) (model : SavedModel) : Prop :=
  ∀ network ∈ model.networks,
    networkInit network = .ok () ∧ ∀ relay ∈ network.relays, relayInit relay = .ok ()

/-- What the mixin is documented to do: the data classes of a read model were
built by their constructors, and a written model is read back. -/
structure DataClassJson.Documented {Text : Type} (json : DataClassJson Text) : Prop where
  constructs : ∀ {relayInit networkInit text model},
    json.fromJson relayInit networkInit text = .ok model →
      model.Constructs relayInit networkInit
  reads_back : ∀ {relayInit networkInit} {model : SavedModel},
    model.Constructs relayInit networkInit →
      json.fromJson relayInit networkInit (json.toJson model) = .ok model

/-! ## Defaults -/

def reservedNetworks : List String := ["testnet", "mainnet"]

def configVersion : String := "1.1.0"

def mystenRelayName : String := "mysten"

/-- `_DEFAULT_RELAYS.get(network_name)`, where no entry is no relay. -/
def defaultRelays (networkName : String) : List RelayConfig :=
  if networkName = "testnet" then
    [⟨mystenRelayName, "https://upload-relay.testnet.walrus.space"⟩]
  else if networkName = "mainnet" then
    [⟨mystenRelayName, "https://upload-relay.mainnet.walrus.space"⟩]
  else []

def defaultNetworks : List SavedNetwork :=
  [{ networkName := "testnet"
     pysuiGroupName := "sui_gql_config"
     pysuiProfileName := "testnet"
     walrusAggregatorUrl := "https://aggregator.walrus-testnet.walrus.space"
     walrusPublisherUrl := "https://publisher.walrus-testnet.walrus.space"
     systemObject := "0x6c2547cbbc38025cf3adac45f63cb0a8d12ecf777cdc75a4971612bf97fdf6af"
     stakingObject := "0xbe46180321c30aab2f8b3501e24048377287fa708018a5b7c2792b35fe339ee3"
     exchangeObjects := [
       "0xf4d164ea2def5fe07dc573992a029e010dba09b1a8dcbc44c5c2e79567f39073",
       "0x19825121c52080bb1073662231cfea5c0e4d905fd13e95f21e9a018f2ef41862",
       "0x83b454e524c71f30803f4d6c302a86fb6a39e96cdfb873c2d1e93bc1c26a3bc5",
       "0x8d63209cf8589ce7aef8f262437163c67577ed09f3e636a9d8e0813843fb8bf1"]
     relays := []
     networkType := .test },
   { networkName := "mainnet"
     pysuiGroupName := "sui_gql_config"
     pysuiProfileName := "mainnet"
     walrusAggregatorUrl := "https://aggregator.walrus-mainnet.walrus.space"
     walrusPublisherUrl := ""
     systemObject := "0x2134d52768ea07e8c43570ef975eb3e4c27a39fa6396bef985b5abc58d03ddd2"
     stakingObject := "0x10b9d30c28448939ce6c4d6c6e0ffce4a7f8a4ada8248bdad09ef8b70e4a3904"
     exchangeObjects := []
     relays := []
     walCoinType :=
       "0x356a26eb9e012a68958082340d4c4116e7f55615cf27affcff209cf0ae544f59::wal::WAL"
     networkType := .production }]

/-- `_seed_default_relays`, on one network. -/
def seedNetwork (py : Python) (network : SavedNetwork) : Except PyExn SavedNetwork := do
  let defaults := defaultRelays network.networkName
  if defaults = [] then return network
  else
    let known := network.relays.map (·.relayName)
    let missing := defaults.filter fun entry => entry.relayName ∉ known
    let seeded ← missing.mapM fun entry => RelayConfig.new py entry.relayName entry.relayUrl
    return { network with
      relays := network.relays ++ seeded
      activeRelay := network.activeRelay.or (some mystenRelayName) }

/-- `_seed_default_relays` -/
def seedDefaultRelays (py : Python) (model : SavedModel) : Except PyExn SavedModel := do
  let networks ← model.networks.mapM (seedNetwork py)
  return { model with networks := networks }

/-- `_default_model` -/
def defaultModel (py : Python) : Except PyExn SavedModel := do
  let pysuiConfigPath ← py.expanduser "~/.pysui"
  seedDefaultRelays py {
    version := configVersion
    pysuiConfigPath := pysuiConfigPath
    walrusBinaryPath := py.walrusBinary
    networks := defaultNetworks }

/-! ## Migration -/

/-- `c.isdigit()` of one character. -/
def isDigit (py : Python) (c : Char) : Bool :=
  if c.toNat < 128 then c.isDigit else py.isDigit c

/-- The value of a character as a decimal digit. -/
def decimal? (py : Python) (c : Char) : Option Nat :=
  if c.toNat < 128 then if c.isDigit then some (c.toNat - 48) else none else py.decimal? c

/-- `int(part) if part.isdigit() else 0`. Some digits are no decimal digits,
and `int` refuses more than 4300 of them. -/
def versionPart (py : Python) (part : List Char) : Except PyExn Nat :=
  if part ≠ [] ∧ part.all (isDigit py) then
    match part.mapM (decimal? py) with
    | none =>
      .error (.valueError ("invalid literal for int() with base 10: " ++
        py.repr (String.ofList part)))
    | some digits =>
      if digits.length > 4300 then
        .error (.valueError ("Exceeds the limit (4300 digits) for integer string conversion: " ++
          s!"value has {digits.length} digits; " ++
          "use sys.set_int_max_str_digits() to increase the limit"))
      else .ok (digits.foldl (fun n d => 10 * n + d) 0)
  else .ok 0

/-- `_version_tuple` -/
def versionTuple (py : Python) (version : String) : Except PyExn (List Nat) :=
  (version.toList.splitOn '.').mapM (versionPart py)

/-- `_migrate_model`, with whether the model changed. -/
def migrateModel (py : Python) (model : SavedModel) : Except PyExn (SavedModel × Bool) := do
  let version ← versionTuple py model.version
  let current ← versionTuple py configVersion
  if current ≤ version then return (model, false)
  else
    let seeded ← seedDefaultRelays py model
    return ({ seeded with version := configVersion }, true)

end Pytusk.Config
