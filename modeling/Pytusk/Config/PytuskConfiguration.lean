import Pytusk.Config.TuskConfig

/-!
# `PytuskConfiguration`

The object that holds a model, and its file. A method changes the model or
raises before it changes anything; what `persist` adds is the same for all of
them, a write of the whole model at the end. The disk may refuse a write, and
then the method raises with the model already changed.
-/

namespace Pytusk.Config

open Pytusk.Lib

/-! ## Changes to a list of relays -/

namespace RelayList

def append (relay : RelayObject) (relays : RelayList) : RelayList :=
  { relays with relays := relays.relays ++ [relay] }

/-- `del relays[index]`, at the first relay of this name. -/
def remove (relayName : String) (relays : RelayList) : RelayList :=
  { relays with
    relays := relays.relays.eraseP fun relay => relay.config.relayName = relayName }

/-- The relay object of this identity, if it is in the list, has a new URL. -/
def setUrl (id : Nat) (relayUrl : String) (relays : RelayList) : RelayList :=
  { relays with
    relays := relays.relays.map fun relay =>
      if relay.id = id then { relay with config.relayUrl := relayUrl } else relay }

end RelayList

namespace Model

def networkNames (model : Model) : List String := model.networks.map (·.networkName)

def networkNotFound (networkName : String) : PyExn :=
  .valueError s!"Network '{networkName}' not found in configuration."

/-- `_network_for` -/
def networkFor (model : Model) (networkName : String) : Except PyExn Network :=
  match model.networks.find? fun network => network.networkName = networkName with
  | some network => .ok network
  | none => .error (networkNotFound networkName)

/-! ## Changes to the objects -/

/-- Change the network object that a loop over the names finds. -/
def onNetwork (networkName : String) (change : Network → Network) (model : Model) : Model :=
  { model with
    networks := model.networks.lookmap fun network =>
      if network.networkName = networkName then some (change network) else none }

/-- Change a list object of relays, wherever it is reached from. -/
def onRelays (id : Nat) (change : RelayList → RelayList) (model : Model) : Model :=
  { model with
    networks := model.networks.map fun network => network.map fun relays =>
      if relays.id = id then change relays else relays }

/-- Change the URL of a relay object, wherever it is reached from. -/
def setRelayUrl (id : Nat) (relayUrl : String) (model : Model) : Model :=
  { model with
    networks := model.networks.map fun network => network.map (RelayList.setUrl id relayUrl) }

def setActiveRelay (networkName : String) (activeRelay : Option String) (model : Model) : Model :=
  model.onNetwork networkName fun network => { network with activeRelay := activeRelay }

/-- An identity for a new relay object. -/
def freshId (model : Model) : Nat :=
  (model.networks.flatMap fun network => network.relays.relays.map (·.id)).foldr max 0 + 1

/-! ## The methods, up to `persist` -/

def setActiveNetwork (py : Python) (network : String) (model : Model) : Except PyExn Model :=
  if network ∈ model.networkNames then .ok { model with activeNetwork := network }
  else
    .error (.valueError (s!"Unknown network '{network}'. " ++
      "Must be one of " ++ py.formatNames (sortedNames model.networkNames) ++ "."))

def addNetwork (network : Network) (model : Model) : Except PyExn Model :=
  if network.networkName ∈ reservedNetworks then
    .error (.valueError (s!"Network name '{network.networkName}' is reserved. " ++
      "The built-in testnet and mainnet entries cannot be replaced."))
  else
    .ok { model with
      networks := (model.networks.filter (·.networkName ≠ network.networkName)) ++ [network] }

def removeNetwork (networkName : String) (model : Model) : Except PyExn Model :=
  if networkName ∈ reservedNetworks then
    .error (.valueError s!"Network '{networkName}' is reserved and cannot be removed.")
  else if networkName ∉ model.networkNames then
    .error (networkNotFound networkName)
  else
    -- `active_network` is left as it is
    .ok { model with networks := model.networks.filter (·.networkName ≠ networkName) }

def setPysuiConfigPath (py : Python) (path : String) (model : Model) : Except PyExn Model := do
  let expanded ← py.expanduser path
  return { model with pysuiConfigPath := expanded }

def setWalrusBinaryPath (py : Python) (path : String) (model : Model) : Except PyExn Model := do
  let expanded ← py.expanduser path
  return { model with walrusBinaryPath := some expanded }

/-- The loop of the methods that set one field of a network. -/
def setField (networkName : String) (change : Network → Network) (model : Model) :
    Except PyExn Model :=
  if networkName ∈ model.networkNames then .ok (model.onNetwork networkName change)
  else .error (networkNotFound networkName)

def setWalrusAggregatorUrl (networkName url : String) : Model → Except PyExn Model :=
  setField networkName fun network => { network with walrusAggregatorUrl := url }

def setWalrusPublisherUrl (networkName url : String) : Model → Except PyExn Model :=
  setField networkName fun network => { network with walrusPublisherUrl := url }

def setExchangeObjects (networkName : String) (exchangeObjects : List String) :
    Model → Except PyExn Model :=
  setField networkName fun network => { network with exchangeObjects := exchangeObjects }

def addRelay (py : Python) (networkName relayName relayUrl : String) (makeActive : Bool)
    (model : Model) : Except PyExn Model := do
  let net ← model.networkFor networkName
  raiseIf (∃ relay ∈ net.relays.relays, relay.config.relayName = relayName)
    (.valueError (s!"Relay '{relayName}' already exists on network '{networkName}'. " ++
      "Use update_relay to change its URL."))
  let relay ← RelayConfig.new py relayName relayUrl
  let added := model.onRelays net.relays.id (RelayList.append ⟨model.freshId, relay⟩)
  return if makeActive then added.setActiveRelay networkName (some relayName) else added

def relayNotFound (networkName relayName : String) : PyExn :=
  .valueError s!"Relay '{relayName}' not found on network '{networkName}'."

/-- The new URL is assigned as it is: the check of `RelayConfig` belongs to its
constructor. -/
def updateRelay (networkName relayName relayUrl : String) (makeActive : Bool)
    (model : Model) : Except PyExn Model := do
  let net ← model.networkFor networkName
  match net.relays.relays.find? fun relay => relay.config.relayName = relayName with
  | none => .error (relayNotFound networkName relayName)
  | some relay =>
    let updated := model.setRelayUrl relay.id relayUrl
    .ok (if makeActive then updated.setActiveRelay networkName (some relayName) else updated)

def removeRelay (networkName relayName : String) (model : Model) : Except PyExn Model := do
  let net ← model.networkFor networkName
  raiseIf (∀ relay ∈ net.relays.relays, relay.config.relayName ≠ relayName)
    (relayNotFound networkName relayName)
  let removed := model.onRelays net.relays.id (RelayList.remove relayName)
  return if net.activeRelay = some relayName then removed.setActiveRelay networkName none
    else removed

end Model

/-- A call of a method that changes the model. -/
inductive Mutation where
  | setActiveNetwork (network : String)
  | addNetwork (network : Network)
  | removeNetwork (networkName : String)
  | setPysuiConfigPath (path : String)
  | setWalrusBinaryPath (path : String)
  | setWalrusAggregatorUrl (networkName url : String)
  | setWalrusPublisherUrl (networkName url : String)
  | setExchangeObjects (networkName : String) (exchangeObjects : List String)
  | addRelay (networkName relayName relayUrl : String) (makeActive : Bool)
  | updateRelay (networkName relayName relayUrl : String) (makeActive : Bool)
  | removeRelay (networkName relayName : String)

def Mutation.apply (py : Python) : Mutation → Model → Except PyExn Model
  | .setActiveNetwork network => Model.setActiveNetwork py network
  | .addNetwork network => Model.addNetwork network
  | .removeNetwork networkName => Model.removeNetwork networkName
  | .setPysuiConfigPath path => Model.setPysuiConfigPath py path
  | .setWalrusBinaryPath path => Model.setWalrusBinaryPath py path
  | .setWalrusAggregatorUrl networkName url => Model.setWalrusAggregatorUrl networkName url
  | .setWalrusPublisherUrl networkName url => Model.setWalrusPublisherUrl networkName url
  | .setExchangeObjects networkName objects => Model.setExchangeObjects networkName objects
  | .addRelay networkName relayName relayUrl makeActive =>
      Model.addRelay py networkName relayName relayUrl makeActive
  | .updateRelay networkName relayName relayUrl makeActive =>
      Model.updateRelay networkName relayName relayUrl makeActive
  | .removeRelay networkName relayName => Model.removeRelay networkName relayName

/-! ## The file -/

variable {Text : Type}

/-- `_write_model`. The answer of the disk is the exception it raises, if any. -/
def writeModel (json : DataClassJson Text) (answer : Option PyExn) (model : SavedModel)
    (file : Option Text) : Except PyExn Unit × Option Text :=
  match answer with
  | some exc => (.error exc, file)
  | none => (.ok (), some (json.toJson model))

def writeIf (persist : Bool) (json : DataClassJson Text) (answer : Option PyExn)
    (model : SavedModel) (file : Option Text) : Except PyExn Unit × Option Text :=
  if persist then writeModel json answer model file else (.ok (), file)

/-- The model that `__init__` starts from, and whether it is to be written. -/
def readModel (py : Python) (json : DataClassJson Text) :
    Option Text → Except PyExn (SavedModel × Bool)
  | some text => do
    let model ← json.fromJson (RelayConfig.postInit py) WalrusNetworkConfig.postInit text
    migrateModel py model
  | none => do
    let model ← defaultModel py
    return (model, true)

/-- What `__init__` asks of the model, and the override of `active_network`. -/
def checkModel (py : Python) (activeNetwork : Option String) (model : SavedModel) :
    Except PyExn SavedModel := do
  let loadedNames := model.networks.map (·.networkName)
  let missing := reservedNetworks.filter (· ∉ loadedNames)
  raiseIf (missing ≠ [])
    (.valueError ("Configuration is missing required network(s): " ++
      py.formatNames (sortedNames missing) ++ ". " ++
      "The 'testnet' and 'mainnet' entries must always be present."))
  match activeNetwork with
  | none => .ok model
  | some network =>
    if network ∈ loadedNames then .ok { model with activeNetwork := network }
    else
      .error (.valueError (s!"Unknown network '{network}'. " ++
        "Must be one of " ++ py.formatNames (sortedNames loadedNames) ++ "."))

/-- `__init__`, on the file of its directory. A write comes first where the
model was made or migrated, and last where `persist` asks for it; `answers` are
the disk's to the two. -/
def init (py : Python) (json : DataClassJson Text) (activeNetwork : Option String)
    (persist : Bool) (answers : Option PyExn × Option PyExn) (file : Option Text) :
    Except PyExn SavedModel × Option Text :=
  match readModel py json file with
  | .error exc => (.error exc, file)
  | .ok (model, changed) =>
    match writeIf changed json answers.1 model file with
    | (.error exc, written) => (.error exc, written)
    | (.ok (), written) =>
      match checkModel py activeNetwork model with
      | .error exc => (.error exc, written)
      | .ok checked =>
        match writeIf persist json answers.2 checked written with
        | (.error exc, saved) => (.error exc, saved)
        | (.ok (), saved) => (.ok checked, saved)

/-! ## The object and its file -/

structure PytuskConfiguration (Text : Type) where
  model : Model
  file : Option Text

/-- What a user of the configuration does. A reload makes a new object from the
file; where that raises, the old one stays in use. -/
inductive Action where
  | mutate (mutation : Mutation) (persist : Bool) (answer : Option PyExn)
  | save (answer : Option PyExn)
  | reload (activeNetwork : Option String) (persist : Bool)
      (answers : Option PyExn × Option PyExn)

def PytuskConfiguration.perform (py : Python) (json : DataClassJson Text)
    (config : PytuskConfiguration Text) : Action → Except PyExn Unit × PytuskConfiguration Text
  | .mutate mutation persist answer =>
    match mutation.apply py config.model with
    | .error exc => (.error exc, config)
    | .ok model =>
      let written := writeIf persist json answer model.values config.file
      (written.1, ⟨model, written.2⟩)
  | .save answer =>
    let written := writeModel json answer config.model.values config.file
    (written.1, ⟨config.model, written.2⟩)
  | .reload activeNetwork persist answers =>
    match init py json activeNetwork persist answers config.file with
    | (.error exc, file) => (.error exc, ⟨config.model, file⟩)
    | (.ok model, file) => (.ok (), ⟨model.alloc, file⟩)

end Pytusk.Config
