import Pytusk.Config.PytuskConfiguration

/-!
# The invariant of the configuration

What every reachable configuration satisfies, as long as no call leaves out a
check of its own that the configuration relies on. The networks and relays a
method changes are found by name, so with unique names each change is a map
over the networks, and the invariant is about one network at a time.
-/

namespace Pytusk.Config

open Pytusk.Lib

/-! ## What is asked of a network and of a model -/

/-- A URL that tips may be fetched over: absolute, and https or else http to a
loopback host. -/
def RelayUrlOk (py : Python) (relayUrl : String) : Prop :=
  ∃ parsed, UrlParse.urlparse py.urls relayUrl.toList = .ok parsed ∧
    parsed.scheme ≠ [] ∧ parsed.netloc ≠ [] ∧
    (parsed.scheme = "https".toList ∨
      parsed.scheme = "http".toList ∧
        ∃ host ∈ parsed.hostname, host ∈ RelayConfig.loopbackHosts)

structure SavedNetwork.Ok (py : Python) (network : SavedNetwork) : Prop where
  named : network.networkName ≠ ""
  relay_names : (network.relays.map (·.relayName)).Nodup
  active_relay : ∀ name, network.activeRelay = some name →
    name ∈ network.relays.map (·.relayName)
  relays_ok : ∀ relay ∈ network.relays, relay.relayName ≠ "" ∧ RelayUrlOk py relay.relayUrl

/-- The schema version asks for no migration. -/
def Current (py : Python) (version : String) : Prop :=
  ∃ parts current, versionTuple py version = .ok parts ∧
    versionTuple py configVersion = .ok current ∧ current ≤ parts

structure SavedModel.Ok (py : Python) (model : SavedModel) : Prop where
  current : Current py model.version
  network_names : (model.networks.map (·.networkName)).Nodup
  reserved : ∀ name ∈ reservedNetworks, name ∈ model.networks.map (·.networkName)
  active_network : model.activeNetwork ∈ model.networks.map (·.networkName)
  networks_ok : ∀ network ∈ model.networks, SavedNetwork.Ok py network

/-! ## The constructors -/

theorem RelayConfig.checkUrl_eq_ok {py : Python} {relay : RelayConfig} :
    relay.checkUrl py = .ok () ↔ RelayUrlOk py relay.relayUrl := by
  unfold RelayConfig.checkUrl RelayUrlOk
  cases UrlParse.urlparse py.urls relay.relayUrl.toList with
  | error message => simp
  | ok parsed =>
    have hne : "https".toList ≠ "http".toList := by decide
    simp only [ite_error_eq_ok, Except.ok.injEq, exists_eq_left', and_true]
    constructor
    · rintro ⟨habs, hscheme, hhost⟩
      refine ⟨fun h => habs (.inl h), fun h => habs (.inr h), ?_⟩
      by_cases hs : parsed.scheme = "https".toList
      · exact .inl hs
      · have hp : parsed.scheme = "http".toList := by tauto
        refine .inr ⟨hp, ?_⟩
        by_contra hnone
        exact hhost ⟨hp, fun host hmem hloop => hnone ⟨host, hmem, hloop⟩⟩
    · rintro ⟨hscheme, hnetloc, hs | ⟨hp, host, hmem, hloop⟩⟩
      · rw [hs] at hscheme ⊢
        simp only [hnetloc, hscheme, hne]
        tauto
      · rw [hp] at hscheme ⊢
        simp only [hnetloc, hscheme]
        refine ⟨by simp, by simp, ?_⟩
        rintro ⟨-, hall⟩
        exact hall host hmem hloop

theorem RelayConfig.postInit_eq_ok {py : Python} {relay : RelayConfig} :
    relay.postInit py = .ok () ↔ relay.relayName ≠ "" ∧ RelayUrlOk py relay.relayUrl := by
  unfold RelayConfig.postInit
  rw [ite_error_eq_ok, ite_error_eq_ok, checkUrl_eq_ok]
  constructor
  · rintro ⟨hname, -, hurl⟩
    exact ⟨hname, hurl⟩
  · rintro ⟨hname, hurl⟩
    refine ⟨hname, ?_, hurl⟩
    -- an empty URL has no scheme
    intro hempty
    obtain ⟨parsed, hparse, hscheme, -⟩ := hurl
    rw [hempty] at hparse
    cases hparse
    exact hscheme rfl

/-- What the constructor returns. -/
theorem RelayConfig.new_eq_ok {py : Python} {relayName relayUrl : String} {relay : RelayConfig} :
    RelayConfig.new py relayName relayUrl = .ok relay ↔
      relay = ⟨relayName, relayUrl⟩ ∧ relayName ≠ "" ∧ RelayUrlOk py relayUrl := by
  unfold RelayConfig.new
  rw [bind_eq_ok]
  constructor
  · rintro ⟨⟨⟩, hinit, h⟩
    cases h
    exact ⟨rfl, postInit_eq_ok.mp hinit⟩
  · rintro ⟨rfl, hok⟩
    exact ⟨(), postInit_eq_ok.mpr hok, rfl⟩

theorem WalrusNetworkConfig.postInit_eq_ok {ρ : Type} {network : WalrusNetworkConfig ρ} :
    network.postInit = .ok () ↔ network.networkName ≠ "" := raiseIf_eq_ok

theorem SavedNetwork.Ok.constructs {py : Python} {network : SavedNetwork}
    (h : SavedNetwork.Ok py network) :
    network.postInit = .ok () ∧ ∀ relay ∈ network.relays, relay.postInit py = .ok () := by
  refine ⟨WalrusNetworkConfig.postInit_eq_ok.mpr h.named, ?_⟩
  intro relay hrelay
  exact RelayConfig.postInit_eq_ok.mpr (h.relays_ok relay hrelay)

theorem SavedModel.Ok.constructs {py : Python} {model : SavedModel} (h : SavedModel.Ok py model) :
    model.Constructs (RelayConfig.postInit py) WalrusNetworkConfig.postInit :=
  fun network hnetwork => (h.networks_ok network hnetwork).constructs

/-! ## Seeding and migrating -/

private theorem eq_of_mapM_new {py : Python} {entries added : List RelayConfig}
    (h : entries.mapM (fun entry => RelayConfig.new py entry.relayName entry.relayUrl) =
      .ok added) : added = entries := by
  induction mapM_eq_ok.mp h with
  | nil => rfl
  | cons hrelay hrest ih => rw [ih (mapM_eq_ok.mpr hrest), (RelayConfig.new_eq_ok.mp hrelay).1]

/-- Seeding keeps the name and what is there, and the relays it adds were built
by their constructor. -/
theorem seedNetwork_eq_ok {py : Python} {network seeded : SavedNetwork}
    (h : seedNetwork py network = .ok seeded) :
    seeded.networkName = network.networkName ∧
    ∃ added : List RelayConfig,
      seeded.relays = network.relays ++ added ∧
      added = (defaultRelays network.networkName).filter
        (fun entry => entry.relayName ∉ network.relays.map (·.relayName)) ∧
      (∀ relay ∈ added, relay.relayName ≠ "" ∧ RelayUrlOk py relay.relayUrl) ∧
      (seeded.activeRelay = network.activeRelay ∨
        defaultRelays network.networkName ≠ [] ∧ seeded.activeRelay = some mystenRelayName) := by
  unfold seedNetwork at h
  by_cases hnone : defaultRelays network.networkName = []
  · simp only [hnone, if_true] at h
    cases h
    exact ⟨rfl, [], by simp, by simp [hnone], by simp, .inl rfl⟩
  · simp only [hnone, if_false] at h
    obtain ⟨added, hadded, h⟩ := bind_eq_ok.mp h
    cases h
    refine ⟨rfl, added, rfl, eq_of_mapM_new hadded, ?_, ?_⟩
    · intro relay hrelay
      obtain ⟨entry, -, hentry⟩ := exists_of_mem_mapM hadded hrelay
      obtain ⟨rfl, hok⟩ := RelayConfig.new_eq_ok.mp hentry
      exact hok
    · cases network.activeRelay with
      | none => exact .inr ⟨hnone, rfl⟩
      | some name => exact .inl rfl

theorem defaultRelays_nodup (networkName : String) :
    ((defaultRelays networkName).map (·.relayName)).Nodup := by
  unfold defaultRelays
  split
  · simp
  · split <;> simp

theorem mysten_mem_defaultRelays {networkName : String} (h : defaultRelays networkName ≠ []) :
    mystenRelayName ∈ (defaultRelays networkName).map (·.relayName) := by
  unfold defaultRelays at h ⊢
  split
  · simp
  · split
    · simp
    · simp_all

/-- A seeded network is as it should be where it was before. -/
theorem SavedNetwork.Ok.seed {py : Python} {network seeded : SavedNetwork}
    (hok : SavedNetwork.Ok py network) (h : seedNetwork py network = .ok seeded) :
    SavedNetwork.Ok py seeded := by
  obtain ⟨hname, added, hrelays, hadded, haddedOk, hactive⟩ := seedNetwork_eq_ok h
  refine ⟨hname ▸ hok.named, ?_, ?_, ?_⟩
  · rw [hrelays, List.map_append, List.nodup_append']
    refine ⟨hok.relay_names, ?_, ?_⟩
    · rw [hadded]
      exact (defaultRelays_nodup _).sublist (List.filter_sublist.map _)
    · intro name hknown hnew
      rw [hadded] at hnew
      obtain ⟨entry, hentry, rfl⟩ := List.mem_map.mp hnew
      simp only [List.mem_filter, decide_eq_true_eq] at hentry
      exact hentry.2 hknown
  · intro name hname'
    rw [hrelays, List.map_append, List.mem_append]
    rcases hactive with hsame | ⟨hdefaults, hmysten⟩
    · exact .inl (hok.active_relay name (hsame ▸ hname'))
    · -- the built-in relay is there already, or it was added
      obtain rfl : mystenRelayName = name := Option.some.inj (hmysten ▸ hname')
      by_cases hknown : mystenRelayName ∈ network.relays.map (·.relayName)
      · exact .inl hknown
      · obtain ⟨entry, hentry, heq⟩ := List.mem_map.mp (mysten_mem_defaultRelays hdefaults)
        refine .inr (List.mem_map.mpr ⟨entry, ?_, heq⟩)
        simp only [hadded, List.mem_filter, decide_eq_true_eq]
        exact ⟨hentry, heq ▸ hknown⟩
  · intro relay hrelay
    rw [hrelays, List.mem_append] at hrelay
    rcases hrelay with hold | hnew
    · exact hok.relays_ok relay hold
    · exact haddedOk relay hnew

theorem seedDefaultRelays_eq_ok {py : Python} {model seeded : SavedModel}
    (h : seedDefaultRelays py model = .ok seeded) :
    ∃ networks, model.networks.mapM (seedNetwork py) = .ok networks ∧
      seeded = { model with networks := networks } := by
  obtain ⟨networks, hnetworks, h⟩ := bind_eq_ok.mp h
  cases h
  exact ⟨networks, hnetworks, rfl⟩

theorem seeded_networkNames {py : Python} {networks seeded : List SavedNetwork}
    (h : networks.mapM (seedNetwork py) = .ok seeded) :
    seeded.map (·.networkName) = networks.map (·.networkName) := by
  induction mapM_eq_ok.mp h with
  | nil => rfl
  | cons hfirst hrest ih =>
    rw [List.map_cons, List.map_cons, ih (mapM_eq_ok.mpr hrest), (seedNetwork_eq_ok hfirst).1]

theorem SavedModel.Constructs.seed {py : Python} {model seeded : SavedModel}
    (hbuilt : model.Constructs (RelayConfig.postInit py) WalrusNetworkConfig.postInit)
    (h : seedDefaultRelays py model = .ok seeded) :
    seeded.Constructs (RelayConfig.postInit py) WalrusNetworkConfig.postInit := by
  obtain ⟨networks, hnetworks, rfl⟩ := seedDefaultRelays_eq_ok h
  intro network hnetwork
  obtain ⟨before, hbefore, hseed⟩ := exists_of_mem_mapM hnetworks hnetwork
  obtain ⟨hname, added, hrelays, -, haddedOk, -⟩ := seedNetwork_eq_ok hseed
  obtain ⟨hinit, hrelayInit⟩ := hbuilt before hbefore
  constructor
  · rw [WalrusNetworkConfig.postInit_eq_ok, hname]
    exact WalrusNetworkConfig.postInit_eq_ok.mp hinit
  · intro relay hrelay
    rw [hrelays, List.mem_append] at hrelay
    rcases hrelay with hold | hnew
    · exact hrelayInit relay hold
    · exact RelayConfig.postInit_eq_ok.mpr (haddedOk relay hnew)

/-! ## Versions -/

theorem versionTuple_configVersion (py : Python) :
    versionTuple py configVersion = .ok [1, 1, 0] := by
  rfl

theorem current_configVersion (py : Python) : Current py configVersion :=
  ⟨_, _, versionTuple_configVersion py, versionTuple_configVersion py, by decide⟩

/-- A model of the current schema is left alone. -/
theorem migrateModel_of_current {py : Python} {model : SavedModel}
    (h : Current py model.version) : migrateModel py model = .ok (model, false) := by
  obtain ⟨parts, current, hparts, hcurrent, hle⟩ := h
  simp [migrateModel, hparts, hcurrent, hle]

theorem migrateModel_eq_ok {py : Python} {model migrated : SavedModel} {changed : Bool}
    (h : migrateModel py model = .ok (migrated, changed)) :
    Current py migrated.version ∧
      (migrated = model ∨
        ∃ seeded, seedDefaultRelays py model = .ok seeded ∧
          migrated = { seeded with version := configVersion }) := by
  obtain ⟨parts, hparts, h⟩ := bind_eq_ok.mp h
  obtain ⟨current, hcurrent, h⟩ := bind_eq_ok.mp h
  by_cases hle : current ≤ parts
  · simp only [hle, if_true] at h
    cases h
    exact ⟨⟨parts, current, hparts, hcurrent, hle⟩, .inl rfl⟩
  · simp only [hle, if_false] at h
    obtain ⟨seeded, hseeded, h⟩ := bind_eq_ok.mp h
    cases h
    exact ⟨current_configVersion py, .inr ⟨seeded, hseeded, rfl⟩⟩

/-! ## Reading and writing -/

variable {Text : Type} {py : Python} {json : DataClassJson Text}

theorem defaultModel_ok {model : SavedModel} (h : defaultModel py = .ok model) :
    SavedModel.Ok py model := by
  obtain ⟨path, -, h⟩ := bind_eq_ok.mp h
  obtain ⟨networks, hnetworks, rfl⟩ := seedDefaultRelays_eq_ok h
  have hnames : networks.map (·.networkName) = ["testnet", "mainnet"] :=
    seeded_networkNames hnetworks
  refine ⟨current_configVersion py, ?_, ?_, ?_, ?_⟩
  · show (networks.map (·.networkName)).Nodup
    simp [hnames]
  · show ∀ name ∈ reservedNetworks, name ∈ networks.map (·.networkName)
    simp [hnames, reservedNetworks]
  · show "testnet" ∈ networks.map (·.networkName)
    simp [hnames]
  · intro network hnetwork
    obtain ⟨before, hbefore, hseed⟩ := exists_of_mem_mapM hnetworks hnetwork
    refine SavedNetwork.Ok.seed ?_ hseed
    simp only [defaultNetworks, List.mem_cons, List.not_mem_nil, or_false] at hbefore
    rcases hbefore with rfl | rfl <;>
      exact ⟨by simp, by simp, by simp, by simp⟩

theorem readModel_eq_ok (hjson : json.Documented) {file : Option Text} {model : SavedModel}
    {changed : Bool} (h : readModel py json file = .ok (model, changed)) :
    Current py model.version ∧
      model.Constructs (RelayConfig.postInit py) WalrusNetworkConfig.postInit := by
  cases file with
  | none =>
    obtain ⟨made, hmade, h⟩ := bind_eq_ok.mp h
    cases h
    have hok := defaultModel_ok hmade
    exact ⟨hok.current, hok.constructs⟩
  | some text =>
    obtain ⟨loaded, hloaded, h⟩ := bind_eq_ok.mp h
    have hbuilt := hjson.constructs hloaded
    obtain ⟨hcurrent, rfl | ⟨seeded, hseeded, rfl⟩⟩ := migrateModel_eq_ok h
    · exact ⟨hcurrent, hbuilt⟩
    · have hseed := SavedModel.Constructs.seed hbuilt hseeded
      exact ⟨hcurrent, hseed⟩

/-- What was written is read back as it was, and is not written again. -/
theorem readModel_toJson (hjson : json.Documented) {model : SavedModel}
    (hcurrent : Current py model.version)
    (hbuilt : model.Constructs (RelayConfig.postInit py) WalrusNetworkConfig.postInit) :
    readModel py json (some (json.toJson model)) = .ok (model, false) := by
  show (json.fromJson (RelayConfig.postInit py) WalrusNetworkConfig.postInit
    (json.toJson model) >>= migrateModel py) = _
  rw [hjson.reads_back hbuilt, ok_bind]
  exact migrateModel_of_current hcurrent

/-- A new object, made of this file alone, starts with this model. -/
def Loads (py : Python) (json : DataClassJson Text) (file : Option Text) (model : SavedModel) :
    Prop :=
  (init py json none false (none, none) file).1 = .ok model

theorem checkModel_eq_ok {activeNetwork : Option String} {model checked : SavedModel}
    (h : checkModel py activeNetwork model = .ok checked) :
    (∀ name ∈ reservedNetworks, name ∈ model.networks.map (·.networkName)) ∧
      (activeNetwork = none ∧ checked = model ∨
        ∃ network, activeNetwork = some network ∧
          network ∈ model.networks.map (·.networkName) ∧
          checked = { model with activeNetwork := network }) := by
  obtain ⟨⟨⟩, hmissing, h⟩ := bind_eq_ok.mp h
  have hempty := not_not.mp (raiseIf_eq_ok.mp hmissing)
  constructor
  · intro name hname
    by_contra habsent
    exact List.filter_eq_nil_iff.mp hempty name hname (by simpa using habsent)
  · cases activeNetwork with
    | none =>
      cases h
      exact .inl ⟨rfl, rfl⟩
    | some network =>
      by_cases hmem : network ∈ model.networks.map (·.networkName)
      · simp only [hmem, if_true, Except.ok.injEq] at h
        exact .inr ⟨network, rfl, hmem, h.symm⟩
      · simp only [hmem, if_false, reduceCtorEq] at h

theorem checkModel_none {model : SavedModel}
    (h : ∀ name ∈ reservedNetworks, name ∈ model.networks.map (·.networkName)) :
    checkModel py none model = .ok model := by
  have hempty : reservedNetworks.filter (· ∉ model.networks.map (·.networkName)) = [] := by
    rw [List.filter_eq_nil_iff]
    intro name hname
    simpa using h name hname
  unfold checkModel
  simp only [hempty, raiseIf, ne_eq, not_true_eq_false, if_false, ok_bind]

theorem SavedModel.Ok.check {activeNetwork : Option String} {model checked : SavedModel}
    (hok : SavedModel.Ok py model) (h : checkModel py activeNetwork model = .ok checked) :
    SavedModel.Ok py checked := by
  obtain ⟨-, ⟨-, rfl⟩ | ⟨network, -, hmem, rfl⟩⟩ := checkModel_eq_ok h
  · exact hok
  · exact { hok with active_network := hmem }

theorem loads_iff {file : Option Text} {model : SavedModel} :
    Loads py json file model ↔
      (∃ changed, readModel py json file = .ok (model, changed)) ∧
        ∀ name ∈ reservedNetworks, name ∈ model.networks.map (·.networkName) := by
  unfold Loads init
  cases hread : readModel py json file with
  | error exc => simp
  | ok read =>
    obtain ⟨loaded, changed⟩ := read
    have hwrite : ∃ written, writeIf changed json none loaded file = (.ok (), written) := by
      cases changed <;> exact ⟨_, rfl⟩
    obtain ⟨written, hwrite⟩ := hwrite
    simp only [hwrite]
    cases hcheck : checkModel py none loaded with
    | error exc =>
      simp only [reduceCtorEq, Except.ok.injEq, Prod.mk.injEq, false_iff, not_and]
      rintro ⟨-, rfl, -⟩ hreserved
      rw [checkModel_none hreserved] at hcheck
      cases hcheck
    | ok checked =>
      obtain ⟨hreserved, ⟨-, rfl⟩ | ⟨network, hsome, -⟩⟩ := checkModel_eq_ok hcheck
      · simp only [writeIf, Bool.false_eq_true, if_false, Except.ok.injEq, Prod.mk.injEq]
        constructor
        · rintro rfl
          exact ⟨⟨changed, rfl, rfl⟩, hreserved⟩
        · rintro ⟨⟨-, rfl, -⟩, -⟩
          rfl
      · cases hsome

/-! ## The claim's invariant -/

/-- What a configuration satisfies. -/
structure Valid (py : Python) (json : DataClassJson Text) (model : SavedModel) : Prop where
  network_names : (model.networks.map (·.networkName)).Nodup
  reserved : ∀ name ∈ reservedNetworks, name ∈ model.networks.map (·.networkName)
  active_network : model.activeNetwork ∈ model.networks.map (·.networkName)
  relay_names : ∀ network ∈ model.networks, (network.relays.map (·.relayName)).Nodup
  active_relay : ∀ network ∈ model.networks, ∀ name, network.activeRelay = some name →
    name ∈ network.relays.map (·.relayName)
  relay_urls : ∀ network ∈ model.networks, ∀ relay ∈ network.relays,
    RelayUrlOk py relay.relayUrl
  saved : Loads py json (some (json.toJson model)) model

theorem SavedModel.Ok.valid (hjson : json.Documented) {model : SavedModel}
    (h : SavedModel.Ok py model) : Valid py json model where
  network_names := h.network_names
  reserved := h.reserved
  active_network := h.active_network
  relay_names := fun network hnetwork => (h.networks_ok network hnetwork).relay_names
  active_relay := fun network hnetwork => (h.networks_ok network hnetwork).active_relay
  relay_urls := fun network hnetwork relay hrelay =>
    ((h.networks_ok network hnetwork).relays_ok relay hrelay).2
  saved := loads_iff.mpr ⟨⟨false, readModel_toJson hjson h.current h.constructs⟩, h.reserved⟩

/-- What was read was built by the constructors, which check the names. -/
theorem Valid.ok (hjson : json.Documented) {file : Option Text} {model : SavedModel}
    {changed : Bool} (h : Valid py json model)
    (hread : readModel py json file = .ok (model, changed)) : SavedModel.Ok py model := by
  obtain ⟨hcurrent, hbuilt⟩ := readModel_eq_ok hjson hread
  refine ⟨hcurrent, h.network_names, h.reserved, h.active_network, ?_⟩
  intro network hnetwork
  obtain ⟨hinit, hrelays⟩ := hbuilt network hnetwork
  refine ⟨WalrusNetworkConfig.postInit_eq_ok.mp hinit, h.relay_names network hnetwork,
    h.active_relay network hnetwork, ?_⟩
  intro relay hrelay
  exact RelayConfig.postInit_eq_ok.mp (hrelays relay hrelay)

/-! ## What `__init__` leaves in the file -/

/-- Whatever a new object would start with is as it should be. -/
def FileOk (py : Python) (json : DataClassJson Text) (file : Option Text) : Prop :=
  ∀ model, Loads py json file model → SavedModel.Ok py model

/-- A file that a read model was written to makes the same model again. -/
theorem FileOk.rewrite (hjson : json.Documented) {file : Option Text} {model : SavedModel}
    {changed : Bool} (hfile : FileOk py json file)
    (hread : readModel py json file = .ok (model, changed)) :
    FileOk py json (some (json.toJson model)) := by
  intro loaded hloaded
  obtain ⟨⟨changed', hback⟩, hreserved⟩ := loads_iff.mp hloaded
  obtain ⟨hcurrent, hbuilt⟩ := readModel_eq_ok hjson hread
  rw [readModel_toJson hjson hcurrent hbuilt] at hback
  cases hback
  exact hfile model (loads_iff.mpr ⟨⟨changed, hread⟩, hreserved⟩)

theorem SavedModel.Ok.fileOk (hjson : json.Documented) {model : SavedModel}
    (h : SavedModel.Ok py model) : FileOk py json (some (json.toJson model)) := by
  intro loaded hloaded
  obtain ⟨⟨changed, hback⟩, -⟩ := loads_iff.mp hloaded
  rw [readModel_toJson hjson h.current h.constructs] at hback
  cases hback
  exact h

theorem writeModel_fileOk {answer : Option PyExn} {model : SavedModel} {file : Option Text}
    (hfile : FileOk py json file) (hmodel : FileOk py json (some (json.toJson model))) :
    FileOk py json (writeModel json answer model file).2 := by
  cases answer with
  | some exc => exact hfile
  | none => exact hmodel

theorem writeIf_fileOk (persist : Bool) (answer : Option PyExn) {model : SavedModel}
    {file : Option Text} (hfile : FileOk py json file)
    (hmodel : FileOk py json (some (json.toJson model))) :
    FileOk py json (writeIf persist json answer model file).2 := by
  cases persist with
  | false => exact hfile
  | true => exact writeModel_fileOk hfile hmodel

/-- **A new object is as it should be**, and so is the file it leaves, whatever
it overrides, persists or raises. -/
theorem init_ok (hjson : json.Documented) (activeNetwork : Option String) (persist : Bool)
    (answers : Option PyExn × Option PyExn) {file : Option Text} (hfile : FileOk py json file) :
    (∀ model, (init py json activeNetwork persist answers file).1 = .ok model →
      SavedModel.Ok py model) ∧
    FileOk py json (init py json activeNetwork persist answers file).2 := by
  unfold init
  cases hread : readModel py json file with
  | error exc => exact ⟨by simp, hfile⟩
  | ok read =>
    obtain ⟨model, changed⟩ := read
    have hwritten := writeIf_fileOk changed answers.1 hfile
      (hfile.rewrite hjson hread)
    simp only
    cases hwrite : writeIf changed json answers.1 model file with
    | mk result written =>
      rw [hwrite] at hwritten
      cases result with
      | error exc => exact ⟨by simp, hwritten⟩
      | ok _ =>
        simp only
        cases hcheck : checkModel py activeNetwork model with
        | error exc => exact ⟨by simp, hwritten⟩
        | ok checked =>
          have hreserved := (checkModel_eq_ok hcheck).1
          have hok : SavedModel.Ok py checked :=
            (hfile model (loads_iff.mpr ⟨⟨changed, hread⟩, hreserved⟩)).check hcheck
          have hsaved := writeIf_fileOk persist answers.2 hwritten
            (hok.fileOk hjson)
          simp only
          cases hsave : writeIf persist json answers.2 checked written with
          | mk result saved =>
            rw [hsave] at hsaved
            cases result with
            | error exc => exact ⟨by simp, hsaved⟩
            | ok _ =>
              refine ⟨?_, hsaved⟩
              intro final hfinal
              cases hfinal
              exact hok

end Pytusk.Config
