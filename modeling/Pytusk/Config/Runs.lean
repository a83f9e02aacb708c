import Pytusk.Config.Preservation
import Pytusk.Types.Json

/-!
# Runs of a configuration

A run makes a configuration, from nothing or from a saved file, and then
changes, saves and reloads it. Three methods leave a check to their caller:
`update_relay` assigns a URL that the constructor of a relay would refuse,
`remove_network` leaves `active_network` behind, and `add_network` takes a
network as it is. A run in which no call relies on that keeps the invariant.
-/

namespace Pytusk.Config

open Pytusk.Lib

variable {Text : Type} {py : Python} {json : DataClassJson Text}

/-! ## Calls -/

/-- A list of relays that is in the configuration already comes as it is. -/
def Mutation.Possible (model : Model) : Mutation → Prop
  | .addNetwork network => ∀ other ∈ model.networks, other.networkName ≠ network.networkName →
      other.relays.id = network.relays.id → other.relays = network.relays
  | _ => True

/-- The call asks for nothing that the method should have refused. -/
def Mutation.Meets (py : Python) (model : Model) : Mutation → Prop
  | .addNetwork network => network.networkName ∈ reservedNetworks ∨ Network.Ok py network
  | .removeNetwork networkName =>
      networkName = model.activeNetwork → networkName ∈ reservedNetworks
  | .updateRelay networkName relayName relayUrl _ =>
      (∃ net ∈ model.networks, net.networkName = networkName ∧
        relayName ∈ Network.relayNames net) → RelayUrlOk py relayUrl
  | .removeRelay networkName relayName =>
      -- the active relay of another network that shares the list
      ∀ net ∈ model.networks, ∀ other ∈ model.networks, net.networkName = networkName →
        other.networkName ≠ networkName → other.relays.id = net.relays.id →
          other.activeRelay ≠ some relayName
  | _ => True

def Action.Possible (config : PytuskConfiguration Text) : Action → Prop
  | .mutate mutation _ _ => mutation.Possible config.model
  | _ => True

def Action.Meets (py : Python) (config : PytuskConfiguration Text) : Action → Prop
  | .mutate mutation _ _ => mutation.Meets py config.model
  | _ => True

/-- The configurations that runs reach whose calls are all allowed. A run starts
from the defaults, or from a file that loads to a valid model. -/
inductive Reached (py : Python) (json : DataClassJson Text)
    (allowed : PytuskConfiguration Text → Action → Prop) : PytuskConfiguration Text → Prop where
  | start {file written : Option Text} {activeNetwork : Option String} {persist : Bool}
      {answers : Option PyExn × Option PyExn} {model : SavedModel}
      (hfile : ∀ text, file = some text → ∀ loaded, Loads py json file loaded →
        Valid py json loaded)
      (hinit : init py json activeNetwork persist answers file = (.ok model, written)) :
      Reached py json allowed ⟨model.alloc, written⟩
  | step {config : PytuskConfiguration Text} {action : Action}
      (hreached : Reached py json allowed config) (hpossible : action.Possible config)
      (hallowed : allowed config action) :
      Reached py json allowed (config.perform py json action).2

/-! ## New objects -/

/-- What numbering makes of each item is undone. -/
theorem map_mapIdx_eq_self {α β : Type} {f : Nat → α → β} {g : β → α} (h : ∀ i x, g (f i x) = x)
    (xs : List α) : (xs.mapIdx f).map g = xs := by
  apply List.ext_getElem
  · simp
  · intro i _ _
    simp [h]

@[simp] theorem RelayList.values_alloc (id : Nat) (relays : List RelayConfig) :
    (RelayList.alloc id relays).values = relays :=
  map_mapIdx_eq_self (fun _ _ => rfl) relays

@[simp] theorem SavedModel.values_alloc (model : SavedModel) :
    Model.values model.alloc = model := by
  have hnetworks := map_mapIdx_eq_self
    (f := fun i (network : SavedNetwork) => network.map (RelayList.alloc i))
    (g := (·.map RelayList.values)) (by simp [WalrusNetworkConfig.map]) model.networks
  simp only [Model.values, SavedModel.alloc, hnetworks]

/-- The lists of a new object are all different ones. -/
theorem SavedModel.Ok.alloc {model : SavedModel} (h : SavedModel.Ok py model) :
    Model.Ok py model.alloc := by
  refine ⟨model.values_alloc.symm ▸ h, ?_⟩
  intro network hnetwork other hother heq
  obtain ⟨i, hi, rfl⟩ := List.mem_mapIdx.mp hnetwork
  obtain ⟨j, hj, rfl⟩ := List.mem_mapIdx.mp hother
  obtain rfl : i = j := heq
  rfl

/-! ## One call -/

/-- Every method keeps the invariant where nothing is left to it. -/
theorem Mutation.apply_ok {mutation : Mutation} {model after : Model} (hok : Model.Ok py model)
    (hpossible : mutation.Possible model) (hmeets : mutation.Meets py model)
    (h : mutation.apply py model = .ok after) : Model.Ok py after := by
  cases mutation with
  | setActiveNetwork network => exact hok.setActiveNetwork h
  | addNetwork network => exact hok.addNetwork hpossible hmeets h
  | removeNetwork networkName => exact hok.removeNetwork hmeets h
  | setPysuiConfigPath path =>
    obtain ⟨expanded, -, h⟩ := bind_eq_ok.mp h
    cases h
    exact ⟨{ hok.values_ok with }, hok.coherent⟩
  | setWalrusBinaryPath path =>
    obtain ⟨expanded, -, h⟩ := bind_eq_ok.mp h
    cases h
    exact ⟨{ hok.values_ok with }, hok.coherent⟩
  | setWalrusAggregatorUrl networkName url =>
    refine hok.setField ?_ ?_ ?_ h <;> exact fun _ => rfl
  | setWalrusPublisherUrl networkName url =>
    refine hok.setField ?_ ?_ ?_ h <;> exact fun _ => rfl
  | setExchangeObjects networkName objects =>
    refine hok.setField ?_ ?_ ?_ h <;> exact fun _ => rfl
  | addRelay networkName relayName relayUrl makeActive => exact hok.addRelay h
  | updateRelay networkName relayName relayUrl makeActive => exact hok.updateRelay hmeets h
  | removeRelay networkName relayName => exact hok.removeRelay hmeets h

/-- The model and its file are as they should be. -/
structure PytuskConfiguration.Ok (py : Python) (json : DataClassJson Text)
    (config : PytuskConfiguration Text) : Prop where
  model_ok : Model.Ok py config.model
  file_ok : FileOk py json config.file

/-- **One call**, whether it succeeds or raises, keeps the invariant. -/
theorem PytuskConfiguration.Ok.perform (hjson : json.Documented)
    {config : PytuskConfiguration Text} {action : Action}
    (hok : PytuskConfiguration.Ok py json config) (hpossible : action.Possible config)
    (hmeets : action.Meets py config) :
    PytuskConfiguration.Ok py json (config.perform py json action).2 := by
  obtain ⟨hmodel, hfile⟩ := hok
  cases action with
  | mutate mutation persist answer =>
    cases happly : mutation.apply py config.model with
    | error exc =>
      simp only [PytuskConfiguration.perform, happly]
      exact ⟨hmodel, hfile⟩
    | ok after =>
      simp only [PytuskConfiguration.perform, happly]
      have hafter := Mutation.apply_ok hmodel hpossible hmeets happly
      exact ⟨hafter, writeIf_fileOk persist answer hfile (hafter.values_ok.fileOk hjson)⟩
  | save answer =>
    exact ⟨hmodel, writeModel_fileOk hfile (hmodel.values_ok.fileOk hjson)⟩
  | reload activeNetwork persist answers =>
    obtain ⟨hloaded, hwritten⟩ := init_ok hjson activeNetwork persist answers hfile
    cases hinit : init py json activeNetwork persist answers config.file with
    | mk result written =>
      rw [hinit] at hloaded hwritten
      cases result with
      | error exc =>
        -- the object in use stays; the file may have been migrated
        simp only [PytuskConfiguration.perform, hinit]
        exact ⟨hmodel, hwritten⟩
      | ok loaded =>
        simp only [PytuskConfiguration.perform, hinit]
        exact ⟨(hloaded loaded rfl).alloc, hwritten⟩

/-! ## The condition is exact -/

theorem valid_iff_ok (hjson : json.Documented) {model : SavedModel} :
    Valid py json model ↔ SavedModel.Ok py model := by
  constructor
  · intro h
    obtain ⟨⟨changed, hread⟩, -⟩ := loads_iff.mp h.saved
    exact h.ok hjson hread
  · exact SavedModel.Ok.valid hjson

/-- An item that the function passes over stays. -/
theorem mem_lookmap_of_none {α : Type} {f : α → Option α} {x : α} {xs : List α} (hx : x ∈ xs)
    (hf : f x = none) : x ∈ xs.lookmap f := by
  induction xs with
  | nil => cases hx
  | cons first rest ih =>
    rw [List.lookmap_cons]
    cases hfirst : f first with
    | none =>
      rcases List.mem_cons.mp hx with rfl | hrest
      · exact List.mem_cons_self
      · exact List.mem_cons_of_mem _ (ih hrest)
    | some changed =>
      rcases List.mem_cons.mp hx with rfl | hrest
      · rw [hf] at hfirst
        cases hfirst
      · exact List.mem_cons_of_mem _ hrest

theorem setActiveRelay_relays (model : Model) (networkName : String)
    (activeRelay : Option String) :
    (model.setActiveRelay networkName activeRelay).networks.map (·.relays) =
      model.networks.map (·.relays) := by
  apply List.lookmap_map_eq
  intro network changed hchanged
  split at hchanged
  · cases hchanged
    rfl
  · cases hchanged

theorem relayUrlOk_of_mem {model : Model} (hok : SavedModel.Ok py model.values)
    {relays : RelayList} (hrelays : relays ∈ model.networks.map (·.relays)) {relay : RelayObject}
    (hrelay : relay ∈ relays.relays) : RelayUrlOk py relay.config.relayUrl := by
  obtain ⟨network, hnetwork, rfl⟩ := List.mem_map.mp hrelays
  have hnetworkOk := hok.networks_ok _ (List.mem_map_of_mem hnetwork)
  exact (hnetworkOk.relays_ok _ (List.mem_map_of_mem hrelay)).2

/-- With unique names, no relay of the removed name is left. -/
theorem not_mem_remove {network : Network} {relayName : String} (hok : Network.Ok py network) :
    relayName ∉ (RelayList.remove relayName network.relays).relays.map (·.config.relayName) := by
  have hnodup := (Network.ok_iff.mp hok).2.1
  intro hleft
  obtain ⟨relay, hrelay, hname⟩ := List.mem_map.mp hleft
  obtain ⟨removed, before, behind, hbefore, hremoved, hall, herased⟩ :=
    List.exists_of_eraseP (p := fun relay => decide (relay.config.relayName = relayName))
      (List.mem_of_mem_eraseP hrelay) (by simpa using hname)
  rw [RelayList.remove, herased] at hrelay
  rcases List.mem_append.mp hrelay with hmem | hmem
  · exact hbefore relay hmem (by simpa using hname)
  · rw [Network.relayNames, hall, List.map_append, List.map_cons] at hnodup
    have htail := (List.nodup_cons.mp (List.nodup_append'.mp hnodup).2.1).1
    refine htail (List.mem_map.mpr ⟨relay, hmem, ?_⟩)
    exact hname.trans (by simpa using hremoved : removed.config.relayName = relayName).symm

namespace Model.Ok

variable {model : Model} {networkName relayName relayUrl : String} {makeActive : Bool}

theorem networkFor_eq (hok : Model.Ok py model) {net : Network} (hmem : net ∈ model.networks) :
    model.networkFor net.networkName = .ok net := by
  unfold Model.networkFor
  cases hfind : model.networks.find? fun network => network.networkName = net.networkName with
  | none => exact absurd (List.find?_eq_none.mp hfind net hmem) (by simp)
  | some found =>
    have hname : found.networkName = net.networkName := by simpa using List.find?_some hfind
    rw [hok.eq_of_networkName (List.mem_of_find?_eq_some hfind) hmem hname]

theorem removeNetwork_breaks (hok : Model.Ok py model)
    (hfree : model.activeNetwork ∉ reservedNetworks) :
    ∃ after, Model.removeNetwork model.activeNetwork model = .ok after ∧
      ¬ SavedModel.Ok py after.values := by
  refine ⟨_, ite_error_eq_ok.mpr ⟨hfree, ite_error_eq_ok.mpr ⟨not_not.mpr hok.active_mem, rfl⟩⟩, ?_⟩
  intro hafter
  have hactive := hafter.active_network
  rw [values_networkNames, Model.networkNames, Model.filter_networkNames] at hactive
  simp [values] at hactive

theorem addNetwork_breaks {network : Network}
    (hfree : network.networkName ∉ reservedNetworks) (hnetwork : ¬ Network.Ok py network) :
    ∃ after, Model.addNetwork network model = .ok after ∧ ¬ SavedModel.Ok py after.values := by
  refine ⟨_, ite_error_eq_ok.mpr ⟨hfree, rfl⟩, ?_⟩
  intro hafter
  refine hnetwork (hafter.networks_ok _ (List.mem_map_of_mem ?_))
  simp

theorem updateRelay_breaks (hok : Model.Ok py model) {net : Network}
    (hmem : net ∈ model.networks) (hrelay : relayName ∈ Network.relayNames net)
    (hurl : ¬ RelayUrlOk py relayUrl) :
    ∃ after, Model.updateRelay net.networkName relayName relayUrl makeActive model = .ok after ∧
      ¬ SavedModel.Ok py after.values := by
  obtain ⟨relay, hfind⟩ : ∃ relay,
      net.relays.relays.find? (fun relay => relay.config.relayName = relayName) = some relay := by
    obtain ⟨relay, hobject, hname⟩ := List.mem_map.mp hrelay
    exact Option.isSome_iff_exists.mp
      (List.find?_isSome.mpr ⟨relay, hobject, by simpa using hname⟩)
  have hlist : RelayList.setUrl relay.id relayUrl net.relays ∈
      (model.setRelayUrl relay.id relayUrl).networks.map (·.relays) := by
    simp only [Model.setRelayUrl, List.map_map]
    exact List.mem_map.mpr ⟨net, hmem, rfl⟩
  have hmoved : { relay with config.relayUrl := relayUrl } ∈
      (RelayList.setUrl relay.id relayUrl net.relays).relays :=
    List.mem_map.mpr ⟨relay, List.mem_of_find?_eq_some hfind, if_pos rfl⟩
  cases makeActive with
  | false =>
    refine ⟨model.setRelayUrl relay.id relayUrl,
      bind_eq_ok.mpr ⟨net, hok.networkFor_eq hmem, by rw [hfind]; rfl⟩, ?_⟩
    intro hafter
    have hbad := relayUrlOk_of_mem hafter hlist hmoved
    exact hurl hbad
  | true =>
    refine ⟨(model.setRelayUrl relay.id relayUrl).setActiveRelay net.networkName (some relayName),
      bind_eq_ok.mpr ⟨net, hok.networkFor_eq hmem, by rw [hfind]; rfl⟩, ?_⟩
    intro hafter
    rw [← setActiveRelay_relays _ net.networkName (some relayName)] at hlist
    have hbad := relayUrlOk_of_mem hafter hlist hmoved
    exact hurl hbad

theorem removeRelay_breaks (hok : Model.Ok py model) {net other : Network}
    (hmem : net ∈ model.networks) (hother : other ∈ model.networks)
    (hname : other.networkName ≠ net.networkName) (hshared : other.relays.id = net.relays.id)
    (hactive : other.activeRelay = some relayName) :
    ∃ after, Model.removeRelay net.networkName relayName model = .ok after ∧
      ¬ SavedModel.Ok py after.values := by
  have hsame := hok.coherent other hother net hmem hshared
  have hknown : relayName ∈ Network.relayNames net := by
    have := (Network.ok_iff.mp (hok.network_ok hother)).2.2.1 relayName hactive
    rwa [Network.relayNames, hsame] at this
  -- the other network is reached with the changed list and its old active relay
  have hgone : ∀ after : Model, other.map (fun relays => if relays.id = net.relays.id then
      RelayList.remove relayName relays else relays) ∈ after.networks →
      ¬ SavedModel.Ok py after.values := by
    intro after hheld hafter
    have hleft := (Network.ok_iff.mp (hafter.networks_ok _ (List.mem_map_of_mem hheld))).2.2.1
      relayName hactive
    have hlist : Network.relayNames (other.map fun relays => if relays.id = net.relays.id then
        RelayList.remove relayName relays else relays) =
        (RelayList.remove relayName other.relays).relays.map (·.config.relayName) := by
      simp [Network.relayNames, WalrusNetworkConfig.map, hshared]
    rw [hlist] at hleft
    exact not_mem_remove (hok.network_ok hother) hleft
  have hraise : raiseIf (∀ relay ∈ net.relays.relays, relay.config.relayName ≠ relayName)
      (Model.relayNotFound net.networkName relayName) = .ok () := by
    rw [raiseIf_eq_ok]
    intro hnone
    obtain ⟨relay, hobject, hname⟩ := List.mem_map.mp hknown
    exact hnone relay hobject hname
  refine ⟨_, bind_eq_ok.mpr ⟨net, hok.networkFor_eq hmem,
    bind_eq_ok.mpr ⟨(), hraise, rfl⟩⟩, hgone _ ?_⟩
  have hheld : other.map (fun relays => if relays.id = net.relays.id then
      RelayList.remove relayName relays else relays) ∈
      (model.onRelays net.relays.id (RelayList.remove relayName)).networks :=
    List.mem_map.mpr ⟨other, hother, rfl⟩
  split
  · exact mem_lookmap_of_none hheld (if_neg hname)
  · exact hheld

end Model.Ok

/-- A call that relies on a missing check succeeds, and the invariant is gone. -/
theorem Mutation.apply_breaks {mutation : Mutation} {model : Model} (hok : Model.Ok py model)
    (hmeets : ¬ mutation.Meets py model) :
    ∃ after, mutation.apply py model = .ok after ∧ ¬ SavedModel.Ok py after.values := by
  cases mutation with
  | addNetwork network =>
    obtain ⟨hfree, hnetwork⟩ := not_or.mp hmeets
    exact Model.Ok.addNetwork_breaks hfree hnetwork
  | removeNetwork networkName =>
    obtain ⟨rfl, hfree⟩ := Classical.not_imp.mp hmeets
    exact hok.removeNetwork_breaks hfree
  | updateRelay networkName relayName relayUrl makeActive =>
    obtain ⟨⟨net, hmem, rfl, hrelay⟩, hurl⟩ := Classical.not_imp.mp hmeets
    exact hok.updateRelay_breaks hmem hrelay hurl
  | removeRelay networkName relayName =>
    simp only [Mutation.Meets, not_forall, not_not] at hmeets
    obtain ⟨net, hmem, other, hother, rfl, hname, hshared, hactive⟩ := hmeets
    exact hok.removeRelay_breaks hmem hother hname hshared hactive
  | _ => exact absurd trivial hmeets

theorem PytuskConfiguration.Ok.perform_valid_iff (hjson : json.Documented)
    {config : PytuskConfiguration Text} {action : Action}
    (hok : PytuskConfiguration.Ok py json config) (hpossible : action.Possible config) :
    Valid py json (config.perform py json action).2.model.values ↔ action.Meets py config := by
  constructor
  · intro hvalid
    by_contra hmeets
    cases action with
    | mutate mutation persist answer =>
      obtain ⟨after, happly, hbad⟩ := Mutation.apply_breaks hok.model_ok hmeets
      simp only [PytuskConfiguration.perform, happly] at hvalid
      exact hbad ((valid_iff_ok hjson).mp hvalid)
    | _ => exact hmeets trivial
  · intro hmeets
    exact (hok.perform hjson hpossible hmeets).model_ok.values_ok.valid hjson

/-! ## Every run -/

/-- A run starts with a configuration that is as it should be. -/
theorem fileOk_start (hjson : json.Documented) {file : Option Text}
    (hfile : ∀ text, file = some text → ∀ loaded, Loads py json file loaded →
      Valid py json loaded) : FileOk py json file := by
  intro loaded hloaded
  obtain ⟨⟨changed, hread⟩, -⟩ := loads_iff.mp hloaded
  cases file with
  | none =>
    obtain ⟨made, hmade, h⟩ := bind_eq_ok.mp hread
    cases h
    exact defaultModel_ok hmade
  | some text => exact (hfile text rfl loaded hloaded).ok hjson hread

theorem Reached.ok (hjson : json.Documented) {config : PytuskConfiguration Text}
    (h : Reached py json (fun config action => action.Meets py config) config) :
    PytuskConfiguration.Ok py json config := by
  induction h with
  | @start file written activeNetwork persist answers model hfile hinit =>
    obtain ⟨hloaded, hwritten⟩ := init_ok hjson activeNetwork persist answers
      (fileOk_start hjson hfile)
    rw [hinit] at hloaded hwritten
    exact ⟨(hloaded model rfl).alloc, hwritten⟩
  | step _ hpossible hmeets ih => exact ih.perform hjson hpossible hmeets

/-- **The configuration invariant**: in every run whose calls ask for nothing
that the methods should have refused, every configuration reached is valid, and
what `save` would write of it loads back. A call that asks for more than that
is not refused, and breaks it at once. -/
theorem configuration_valid (hjson : json.Documented) {config : PytuskConfiguration Text}
    (h : Reached py json (fun config action => action.Meets py config) config) :
    Valid py json config.model.values ∧
    ∀ action, action.Possible config →
      (Valid py json (config.perform py json action).2.model.values ↔
        action.Meets py config) := by
  have hok := Reached.ok hjson h
  refine ⟨hok.model_ok.values_ok.valid hjson, ?_⟩
  intro action hpossible
  exact hok.perform_valid_iff hjson hpossible

/-! ## A configuration of defaults -/

private def str (s : String) : Json := .str (Json.key s)

private def strOrNull : Option String → Json
  | none => .none
  | some s => str s

private def encodeRelay (relay : RelayConfig) : Json :=
  .dict [(Json.key "relay_name", str relay.relayName), (Json.key "relay_url", str relay.relayUrl)]

private def encodeNetworkType : NetworkType → Json
  | .test => str "test"
  | .production => str "production"

private def encodeNetwork (network : SavedNetwork) : Json :=
  .dict [(Json.key "network_name", str network.networkName),
    (Json.key "pysui_group_name", str network.pysuiGroupName),
    (Json.key "pysui_profile_name", str network.pysuiProfileName),
    (Json.key "walrus_aggregator_url", str network.walrusAggregatorUrl),
    (Json.key "walrus_publisher_url", str network.walrusPublisherUrl),
    (Json.key "system_object", str network.systemObject),
    (Json.key "staking_object", str network.stakingObject),
    (Json.key "exchange_objects", .list (network.exchangeObjects.map str)),
    (Json.key "relays", .list (network.relays.map encodeRelay)),
    (Json.key "active_relay", strOrNull network.activeRelay),
    (Json.key "wal_coin_type", str network.walCoinType),
    (Json.key "network_type", encodeNetworkType network.networkType)]

private def encodeModel (model : SavedModel) : Json :=
  .dict [(Json.key "version", str model.version),
    (Json.key "pysui_config_path", str model.pysuiConfigPath),
    (Json.key "walrus_binary_path", strOrNull model.walrusBinaryPath),
    (Json.key "active_network", str model.activeNetwork),
    (Json.key "networks", .list (model.networks.map encodeNetwork))]

private def decodeStr : Json → Option String
  | .str s => some (PyStr.textOf s)
  | _ => none

private def decodeStrOrNull : Json → Option (Option String)
  | .none => some none
  | .str s => some (some (PyStr.textOf s))
  | _ => none

private def decodeRelay : Json → Option RelayConfig
  | .dict [(_, name), (_, url)] => do return ⟨← decodeStr name, ← decodeStr url⟩
  | _ => none

private def decodeNetworkType (value : Json) : Option NetworkType := do
  let text ← decodeStr value
  if text = "test" then some .test else if text = "production" then some .production else none

private def decodeNetwork : Json → Option SavedNetwork
  | .dict [(_, name), (_, group), (_, profile), (_, aggregator), (_, publisher), (_, system),
      (_, staking), (_, .list objects), (_, .list relays), (_, active), (_, coin), (_, type)] => do
    return {
      networkName := ← decodeStr name
      pysuiGroupName := ← decodeStr group
      pysuiProfileName := ← decodeStr profile
      walrusAggregatorUrl := ← decodeStr aggregator
      walrusPublisherUrl := ← decodeStr publisher
      systemObject := ← decodeStr system
      stakingObject := ← decodeStr staking
      exchangeObjects := ← objects.mapM decodeStr
      relays := ← relays.mapM decodeRelay
      activeRelay := ← decodeStrOrNull active
      walCoinType := ← decodeStr coin
      networkType := ← decodeNetworkType type }
  | _ => none

private def decodeModel : Json → Option SavedModel
  | .dict [(_, version), (_, path), (_, binary), (_, active), (_, .list networks)] => do
    return {
      version := ← decodeStr version
      pysuiConfigPath := ← decodeStr path
      walrusBinaryPath := ← decodeStrOrNull binary
      activeNetwork := ← decodeStr active
      networks := ← networks.mapM decodeNetwork }
  | _ => none

private theorem mapM_map_eq_some {α β : Type} {encode : α → β} {decode : β → Option α}
    (h : ∀ x, decode (encode x) = some x) (xs : List α) :
    (xs.map encode).mapM decode = some xs := by
  induction xs with
  | nil => rfl
  | cons x rest ih => simp [h, ih]

private theorem decodeStr_str (s : String) : decodeStr (str s) = some s := by
  rw [str, decodeStr, Json.key, PyStr.textOf_ofChar]

private theorem decodeStrOrNull_strOrNull (s : Option String) :
    decodeStrOrNull (strOrNull s) = some s := by
  cases s with
  | none => rfl
  | some s => rw [strOrNull, str, decodeStrOrNull, Json.key, PyStr.textOf_ofChar]

private theorem decodeRelay_encodeRelay (relay : RelayConfig) :
    decodeRelay (encodeRelay relay) = some relay := by
  simp [decodeRelay, encodeRelay, decodeStr_str]

private theorem decodeNetwork_encodeNetwork (network : SavedNetwork) :
    decodeNetwork (encodeNetwork network) = some network := by
  have htype : decodeNetworkType (encodeNetworkType network.networkType) =
      some network.networkType := by
    cases network.networkType <;> simp [decodeNetworkType, encodeNetworkType, decodeStr_str]
  simp [decodeNetwork, encodeNetwork, decodeStr_str, decodeStrOrNull_strOrNull, htype,
    mapM_map_eq_some decodeStr_str, mapM_map_eq_some decodeRelay_encodeRelay]

private theorem decodeModel_encodeModel (model : SavedModel) :
    decodeModel (encodeModel model) = some model := by
  simp [decodeModel, encodeModel, decodeStr_str, decodeStrOrNull_strOrNull,
    mapM_map_eq_some decodeNetwork_encodeNetwork]

/-- The mixin over the JSON value that a file holds. -/
private def treeJson : DataClassJson Json where
  toJson := encodeModel
  fromJson relayInit networkInit tree :=
    match decodeModel tree with
    | none => .error (.valueError "not a saved configuration")
    | some model => do
      model.networks.forM fun network => do
        network.relays.forM relayInit
        networkInit network
      return model

private theorem forM_eq_ok {α : Type} {f : α → Except PyExn Unit} {xs : List α} :
    xs.forM f = .ok () ↔ ∀ x ∈ xs, f x = .ok () := by
  induction xs with
  | nil => simp [List.forM]
  | cons x rest ih =>
    show (f x >>= fun _ => rest.forM f) = .ok () ↔ _
    rw [bind_eq_ok, List.forall_mem_cons, ← ih]
    constructor
    · rintro ⟨⟨⟩, hx, hrest⟩
      exact ⟨hx, hrest⟩
    · rintro ⟨hx, hrest⟩
      exact ⟨(), hx, hrest⟩

private theorem treeJson_checks {relayInit : RelayConfig → Except PyExn Unit}
    {networkInit : SavedNetwork → Except PyExn Unit} {model : SavedModel} :
    (model.networks.forM fun network => do
      network.relays.forM relayInit
      networkInit network) = .ok () ↔ model.Constructs relayInit networkInit := by
  rw [forM_eq_ok]
  refine forall₂_congr fun network _ => ?_
  rw [bind_eq_ok]
  constructor
  · rintro ⟨⟨⟩, hrelays, hnetwork⟩
    exact ⟨hnetwork, forM_eq_ok.mp hrelays⟩
  · rintro ⟨hnetwork, hrelays⟩
    exact ⟨(), forM_eq_ok.mpr hrelays, hnetwork⟩

private theorem treeJson_documented : treeJson.Documented where
  constructs := by
    intro relayInit networkInit tree model h
    unfold treeJson at h
    cases hdecode : decodeModel tree with
    | none => simp [hdecode] at h
    | some decoded =>
      simp only [hdecode] at h
      obtain ⟨⟨⟩, hchecks, h⟩ := bind_eq_ok.mp h
      cases h
      exact treeJson_checks.mp hchecks
  reads_back := by
    intro relayInit networkInit model h
    simp only [treeJson, decodeModel_encodeModel]
    exact bind_eq_ok.mpr ⟨(), treeJson_checks.mpr h, rfl⟩

private def somePython : Python where
  urls := { nfkc := id, checkBracketedNetloc := fun _ => .ok () }
  isDigit := fun _ => false
  decimal? := fun _ => none
  repr := fun s => "'" ++ s ++ "'"
  expanduser := fun path => .ok (if path = "~/.pysui" then "/root/.pysui" else path)
  walrusBinary := none

private def firstModel : SavedModel where
  version := configVersion
  pysuiConfigPath := "/root/.pysui"
  networks := defaultNetworks.map fun network => { network with
    relays := defaultRelays network.networkName
    activeRelay := some mystenRelayName }

private def firstConfig : PytuskConfiguration Json :=
  ⟨firstModel.alloc, some (treeJson.toJson firstModel)⟩

private theorem firstConfig_reached {allowed : PytuskConfiguration Json → Action → Prop} :
    Reached somePython treeJson allowed firstConfig := by
  have hinit : init somePython treeJson none false (none, none) none =
      (.ok firstModel, some (treeJson.toJson firstModel)) := by rfl
  exact .start (by simp) hinit

private theorem plain_http_refused :
    ¬ RelayUrlOk somePython "http://relay.example.com" := by
  have hparse : UrlParse.urlparse somePython.urls "http://relay.example.com".toList =
      .ok ⟨"http".toList, "relay.example.com".toList⟩ := by rfl
  rintro ⟨parsed, h, -, -, hs | ⟨-, host, hhost, hloop⟩⟩
  · rw [hparse] at h
    cases h
    exact absurd hs (by decide)
  · rw [hparse] at h
    cases h
    have : UrlParse.ParseResult.hostname ⟨"http".toList, "relay.example.com".toList⟩ =
        some "relay.example.com".toList := by rfl
    rw [this] at hhost
    cases hhost
    exact absurd hloop (by decide)

private def addMine : Action :=
  .mutate (.addRelay "testnet" "mine" "https://mine.example.com" true) true none

private def moveMysten : Action :=
  .mutate (.updateRelay "testnet" "mysten" "http://relay.example.com" false) true none

/-- A relay is added to the defaults, made active and saved, and the file is
loaded again. -/
theorem configuration_valid_defaults :
    Valid somePython treeJson ((firstConfig.perform somePython treeJson addMine).2.perform
      somePython treeJson (.reload (some "mainnet") true (none, none))).2.model.values := by
  have hadded : Reached somePython treeJson (fun config action => action.Meets somePython config)
      (firstConfig.perform somePython treeJson addMine).2 := by
    apply Reached.step firstConfig_reached
    · exact trivial
    · exact trivial
  have hreloaded : Reached somePython treeJson
      (fun config action => action.Meets somePython config)
      ((firstConfig.perform somePython treeJson addMine).2.perform somePython treeJson
        (.reload (some "mainnet") true (none, none))).2 := by
    apply Reached.step hadded
    · exact trivial
    · exact trivial
  exact (configuration_valid treeJson_documented hreloaded).1

/-- `update_relay` moves the built-in relay to a plain http URL and saves that. -/
theorem configuration_valid_unchecked :
    treeJson.Documented ∧
    (firstConfig.perform somePython treeJson moveMysten).1 = .ok () ∧
    Reached somePython treeJson (fun _ _ => True)
      (firstConfig.perform somePython treeJson moveMysten).2 ∧
    ¬ Valid somePython treeJson
      (firstConfig.perform somePython treeJson moveMysten).2.model.values := by
  refine ⟨treeJson_documented, rfl, ?_, ?_⟩
  · apply Reached.step firstConfig_reached
    · exact trivial
    · exact trivial
  · have hok : PytuskConfiguration.Ok somePython treeJson firstConfig :=
      Reached.ok treeJson_documented firstConfig_reached
    have hpossible : moveMysten.Possible firstConfig := trivial
    rw [hok.perform_valid_iff treeJson_documented hpossible]
    intro hmeets
    refine plain_http_refused (hmeets ⟨_, List.mem_cons_self, rfl, ?_⟩)
    exact List.mem_cons_self

end Pytusk.Config
