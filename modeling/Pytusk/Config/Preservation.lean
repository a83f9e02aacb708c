import Pytusk.Config.Invariant

/-!
# Every call keeps the invariant

Names are unique, so the network a method finds is the only one of its name,
and each change is a map over the networks. A list of relays that two networks
share is changed for both, which is why what is asked of one network is shown
for every network that holds the changed list.
-/

namespace Pytusk.Config

open Pytusk.Lib

variable {Text : Type} {py : Python} {json : DataClassJson Text}

/-! ## The model in memory -/

def Network.relayNames (network : Network) : List String :=
  network.relays.relays.map (·.config.relayName)

def Network.Ok (py : Python) (network : Network) : Prop :=
  SavedNetwork.Ok py (network.map RelayList.values)

/-- The values are as they should be, and two lists of one identity are one
list. -/
structure Model.Ok (py : Python) (model : Model) : Prop where
  values_ok : SavedModel.Ok py model.values
  coherent : ∀ network ∈ model.networks, ∀ other ∈ model.networks,
    network.relays.id = other.relays.id → network.relays = other.relays

theorem Network.ok_iff {network : Network} :
    Network.Ok py network ↔
      network.networkName ≠ "" ∧ network.relayNames.Nodup ∧
      (∀ name, network.activeRelay = some name → name ∈ network.relayNames) ∧
      ∀ relay ∈ network.relays.relays,
        relay.config.relayName ≠ "" ∧ RelayUrlOk py relay.config.relayUrl := by
  have hnames : ((network.map RelayList.values).relays.map (·.relayName)) =
      network.relayNames := by
    simp [WalrusNetworkConfig.map, RelayList.values, Network.relayNames]
  constructor
  · intro h
    refine ⟨h.named, hnames ▸ h.relay_names, fun name hname => hnames ▸ h.active_relay name hname,
      fun relay hrelay => h.relays_ok _ (List.mem_map_of_mem hrelay)⟩
  · rintro ⟨hnamed, hnodup, hactive, hrelays⟩
    refine ⟨hnamed, hnames.symm ▸ hnodup, fun name hname => hnames.symm ▸ hactive name hname, ?_⟩
    intro relay hrelay
    obtain ⟨object, hobject, rfl⟩ := List.mem_map.mp hrelay
    exact hrelays object hobject

@[simp] theorem Model.values_networkNames (model : Model) :
    model.values.networks.map (·.networkName) = model.networkNames := by
  simp [Model.values, Model.networkNames, WalrusNetworkConfig.map]

namespace Model.Ok

variable {model : Model}

theorem networkNames_nodup (h : Model.Ok py model) : model.networkNames.Nodup :=
  model.values_networkNames ▸ h.values_ok.network_names

theorem active_mem (h : Model.Ok py model) : model.activeNetwork ∈ model.networkNames :=
  model.values_networkNames ▸ h.values_ok.active_network

theorem network_ok (h : Model.Ok py model) {network : Network} (hmem : network ∈ model.networks) :
    Network.Ok py network :=
  h.values_ok.networks_ok _ (List.mem_map_of_mem hmem)

/-- The only network of its name. -/
theorem eq_of_networkName (h : Model.Ok py model) {network other : Network}
    (hnetwork : network ∈ model.networks) (hother : other ∈ model.networks)
    (hname : network.networkName = other.networkName) : network = other :=
  List.inj_on_of_nodup_map h.networkNames_nodup hnetwork hother hname

/-- A change of the networks that keeps their names and treats equal lists of
relays alike. -/
theorem mapNetworks (h : Model.Ok py model) {change : Network → Network}
    {f : RelayList → RelayList}
    (hname : ∀ network, (change network).networkName = network.networkName)
    (hrelays : ∀ network, (change network).relays = f network.relays)
    (hid : ∀ relays, (f relays).id = relays.id)
    (hok : ∀ network ∈ model.networks, Network.Ok py (change network)) :
    Model.Ok py { model with networks := model.networks.map change } := by
  have hnames : (model.networks.map change).map (·.networkName) = model.networkNames := by
    simp [networkNames, hname]
  have hvalues : (Model.values { model with networks := model.networks.map change }).networks.map
      (·.networkName) = model.values.networks.map (·.networkName) := by
    rw [values_networkNames, values_networkNames]
    exact hnames
  refine ⟨⟨h.values_ok.current, ?_, ?_, ?_, ?_⟩, ?_⟩
  · rw [hvalues]
    exact h.values_ok.network_names
  · rw [hvalues]
    exact h.values_ok.reserved
  · rw [hvalues]
    exact h.values_ok.active_network
  · intro saved hsaved
    obtain ⟨changed, hchanged, rfl⟩ := List.mem_map.mp hsaved
    obtain ⟨network, hnetwork, rfl⟩ := List.mem_map.mp hchanged
    exact hok network hnetwork
  · intro changed hchanged changed' hchanged' heq
    obtain ⟨network, hnetwork, rfl⟩ := List.mem_map.mp hchanged
    obtain ⟨other, hother, rfl⟩ := List.mem_map.mp hchanged'
    rw [hrelays, hrelays, hid, hid] at heq
    rw [hrelays, hrelays, h.coherent network hnetwork other hother heq]

end Model.Ok

/-! ## Finding a network -/

theorem Model.networkFor_eq_ok {model : Model} {networkName : String} {network : Network}
    (h : model.networkFor networkName = .ok network) :
    network ∈ model.networks ∧ network.networkName = networkName := by
  unfold Model.networkFor at h
  cases hfind : model.networks.find? fun network => network.networkName = networkName with
  | none =>
    rw [hfind] at h
    cases h
  | some found =>
    rw [hfind] at h
    cases h
    exact ⟨List.mem_of_find?_eq_some hfind, by simpa using List.find?_some hfind⟩

/-- Where names are unique, a loop that changes the first network of a name
changes the only one. -/
theorem lookmap_eq_map {networks : List Network} {networkName : String}
    {change : Network → Network} (hnodup : (networks.map (·.networkName)).Nodup) :
    (networks.lookmap fun network =>
      if network.networkName = networkName then some (change network) else none) =
    networks.map fun network =>
      if network.networkName = networkName then change network else network := by
  induction networks with
  | nil => rfl
  | cons first rest ih =>
    obtain ⟨hfirst, hrest⟩ := List.nodup_cons.mp hnodup
    by_cases hname : first.networkName = networkName
    · rw [List.lookmap_cons_some _ _ (by simp [hname]; rfl)]
      have hsame : rest.map (fun network =>
          if network.networkName = networkName then change network else network) = rest := by
        conv_rhs => rw [← List.map_id rest]
        apply List.map_congr_left
        intro network hnetwork
        have hne : network.networkName ≠ networkName := by
          intro heq
          exact hfirst (List.mem_map.mpr ⟨network, hnetwork, heq.trans hname.symm⟩)
        simp [hne]
      simp [hname, hsame]
    · rw [List.lookmap_cons_none _ _ (by simp [hname]), ih hrest]
      simp [hname]

/-! ## Networks added and removed -/

/-- The networks of other names. -/
theorem Model.filter_networkNames {networkName : String} (model : Model) :
    (model.networks.filter (·.networkName ≠ networkName)).map (·.networkName) =
      model.networkNames.filter (· ≠ networkName) := by
  rw [Model.networkNames, List.filter_map]
  rfl

namespace Model.Ok

variable {model after : Model}

theorem setActiveNetwork {network : String} (hok : Model.Ok py model)
    (h : Model.setActiveNetwork py network model = .ok after) : Model.Ok py after := by
  unfold Model.setActiveNetwork at h
  by_cases hmem : network ∈ model.networkNames
  · rw [if_pos hmem] at h
    cases h
    refine ⟨{ hok.values_ok with active_network := ?_ }, hok.coherent⟩
    show network ∈ model.values.networks.map (·.networkName)
    rwa [values_networkNames]
  · rw [if_neg hmem] at h
    cases h

theorem addNetwork {network : Network} (hok : Model.Ok py model)
    (hshared : ∀ other ∈ model.networks, other.networkName ≠ network.networkName →
      other.relays.id = network.relays.id → other.relays = network.relays)
    (hnetwork : network.networkName ∈ reservedNetworks ∨ Network.Ok py network)
    (h : Model.addNetwork network model = .ok after) : Model.Ok py after := by
  obtain ⟨hfree, h⟩ := ite_error_eq_ok.mp h
  cases h
  have hnetwork := hnetwork.resolve_left hfree
  have hnames : Model.networkNames { model with
      networks := (model.networks.filter (·.networkName ≠ network.networkName)) ++ [network] } =
      model.networkNames.filter (· ≠ network.networkName) ++ [network.networkName] := by
    rw [Model.networkNames, List.map_append, filter_networkNames]
    rfl
  -- every other name is kept, and the new one is there
  have hkept : ∀ name ∈ model.networkNames,
      name ∈ model.networkNames.filter (· ≠ network.networkName) ++ [network.networkName] := by
    intro name hname
    by_cases hsame : name = network.networkName
    · simp [hsame]
    · simp [hname, hsame]
  refine ⟨⟨hok.values_ok.current, ?_, ?_, ?_, ?_⟩, ?_⟩
  · rw [values_networkNames, hnames, List.nodup_append']
    refine ⟨hok.networkNames_nodup.filter _, by simp, ?_⟩
    simp [List.disjoint_singleton]
  · intro name hname
    rw [values_networkNames, hnames]
    exact hkept name (model.values_networkNames ▸ hok.values_ok.reserved name hname)
  · rw [values_networkNames, hnames]
    exact hkept _ hok.active_mem
  · intro saved hsaved
    obtain ⟨held, hheld, rfl⟩ := List.mem_map.mp hsaved
    rcases List.mem_append.mp hheld with hold | hnew
    · exact hok.network_ok (List.mem_of_mem_filter hold)
    · rw [List.mem_singleton.mp hnew]
      exact hnetwork
  · intro held hheld other hother heq
    have hold : ∀ held ∈ model.networks.filter (·.networkName ≠ network.networkName),
        held.relays.id = network.relays.id → held.relays = network.relays := by
      intro held hheld heq
      obtain ⟨hmem, hne⟩ := List.mem_filter.mp hheld
      exact hshared held hmem (by simpa using hne) heq
    rcases List.mem_append.mp hheld with h₁ | h₁ <;> rcases List.mem_append.mp hother with h₂ | h₂
    · exact hok.coherent held (List.mem_of_mem_filter h₁) other (List.mem_of_mem_filter h₂) heq
    · rw [List.mem_singleton.mp h₂] at heq ⊢
      exact hold held h₁ heq
    · rw [List.mem_singleton.mp h₁] at heq ⊢
      exact (hold other h₂ heq.symm).symm
    · rw [List.mem_singleton.mp h₁, List.mem_singleton.mp h₂]

theorem removeNetwork {networkName : String} (hok : Model.Ok py model)
    (hactive : networkName = model.activeNetwork → networkName ∈ reservedNetworks)
    (h : Model.removeNetwork networkName model = .ok after) : Model.Ok py after := by
  obtain ⟨hfree, h⟩ := ite_error_eq_ok.mp h
  obtain ⟨-, h⟩ := ite_error_eq_ok.mp h
  cases h
  have hkept : ∀ name ∈ model.networkNames, name ≠ networkName →
      name ∈ model.networkNames.filter (· ≠ networkName) := by
    intro name hname hne
    simp [hname, hne]
  refine ⟨⟨hok.values_ok.current, ?_, ?_, ?_, ?_⟩, ?_⟩
  · rw [values_networkNames, Model.networkNames, filter_networkNames]
    exact hok.networkNames_nodup.filter _
  · intro name hname
    rw [values_networkNames, Model.networkNames, filter_networkNames]
    refine hkept name (model.values_networkNames ▸ hok.values_ok.reserved name hname) ?_
    rintro rfl
    exact hfree hname
  · rw [values_networkNames, Model.networkNames, filter_networkNames]
    refine hkept _ hok.active_mem ?_
    intro heq
    exact hfree (hactive heq.symm)
  · intro saved hsaved
    obtain ⟨held, hheld, rfl⟩ := List.mem_map.mp hsaved
    exact hok.network_ok (List.mem_of_mem_filter hheld)
  · intro held hheld other hother heq
    exact hok.coherent held (List.mem_of_mem_filter hheld) other (List.mem_of_mem_filter hother)
      heq

end Model.Ok

/-! ## Fields of a network -/

/-- Only the name, the relays and the active relay are asked about. -/
theorem Network.Ok.congr {network changed : Network} (hok : Network.Ok py network)
    (hname : changed.networkName = network.networkName)
    (hrelays : changed.relays = network.relays)
    (hactive : changed.activeRelay = network.activeRelay) : Network.Ok py changed := by
  rw [Network.ok_iff] at hok ⊢
  unfold Network.relayNames at hok ⊢
  rw [hname, hrelays, hactive]
  exact hok

theorem Model.onNetwork_eq_map {model : Model} {networkName : String}
    {change : Network → Network} (hnodup : model.networkNames.Nodup) :
    model.onNetwork networkName change = { model with
      networks := model.networks.map fun network =>
        if network.networkName = networkName then change network else network } := by
  rw [Model.onNetwork, lookmap_eq_map hnodup]

namespace Model.Ok

variable {model after : Model} {networkName relayName relayUrl : String}

/-- A field that nothing here depends on is set. -/
theorem setField {change : Network → Network} (hok : Model.Ok py model)
    (hname : ∀ network, (change network).networkName = network.networkName)
    (hrelays : ∀ network, (change network).relays = network.relays)
    (hactive : ∀ network, (change network).activeRelay = network.activeRelay)
    (h : Model.setField networkName change model = .ok after) : Model.Ok py after := by
  unfold Model.setField at h
  by_cases hmem : networkName ∈ model.networkNames
  · rw [if_pos hmem] at h
    cases h
    rw [Model.onNetwork_eq_map hok.networkNames_nodup]
    refine hok.mapNetworks (f := id) ?_ ?_ (fun _ => rfl) ?_
    · intro network
      split
      · exact hname network
      · rfl
    · intro network
      split
      · exact hrelays network
      · rfl
    · intro network hnetwork
      have hnetworkOk := hok.network_ok hnetwork
      split
      · exact hnetworkOk.congr (hname network) (hrelays network) (hactive network)
      · exact hnetworkOk
  · rw [if_neg hmem] at h
    cases h

/-! ## Relays -/

/-- The lists of relays change, and with them the active relay of one network. -/
theorem mapRelays {f : RelayList → RelayList} (hok : Model.Ok py model)
    (hid : ∀ relays, (f relays).id = relays.id)
    (hnetwork : ∀ network ∈ model.networks, Network.Ok py (network.map f)) :
    Model.Ok py { model with networks := model.networks.map (·.map f) } :=
  hok.mapNetworks (fun _ => rfl) (fun _ => rfl) hid hnetwork

theorem mapRelays_setActiveRelay {f : RelayList → RelayList} {activeRelay : Option String}
    (hok : Model.Ok py model) (hid : ∀ relays, (f relays).id = relays.id)
    (hother : ∀ network ∈ model.networks, network.networkName ≠ networkName →
      Network.Ok py (network.map f))
    (hnamed : ∀ network ∈ model.networks, network.networkName = networkName →
      Network.Ok py { network.map f with activeRelay := activeRelay }) :
    Model.Ok py (Model.setActiveRelay networkName activeRelay
      { model with networks := model.networks.map (·.map f) }) := by
  have hnodup : (Model.networkNames
      { model with networks := model.networks.map (·.map f) }).Nodup := by
    have hsame : (model.networks.map (·.map f)).map (·.networkName) = model.networkNames := by
      simp [networkNames, WalrusNetworkConfig.map]
    rw [networkNames, hsame]
    exact hok.networkNames_nodup
  rw [Model.setActiveRelay, Model.onNetwork_eq_map hnodup, List.map_map]
  refine hok.mapNetworks (f := f) ?_ ?_ hid ?_
  · intro network
    simp only [Function.comp_apply]
    split <;> rfl
  · intro network
    simp only [Function.comp_apply]
    split <;> rfl
  · intro network hnetwork
    simp only [Function.comp_apply]
    split
    · rename_i hname
      exact hnamed network hnetwork hname
    · rename_i hname
      exact hother network hnetwork hname

end Model.Ok

/-- Another relay of the network, or none, becomes the active one. -/
theorem Network.Ok.activate {network : Network} (hok : Network.Ok py network)
    (activeRelay : Option String)
    (hactive : ∀ name, activeRelay = some name → name ∈ network.relayNames) :
    Network.Ok py { network with activeRelay := activeRelay } := by
  rw [Network.ok_iff] at hok ⊢
  obtain ⟨hnamed, hnodup, -, hrelays⟩ := hok
  exact ⟨hnamed, hnodup, hactive, hrelays⟩

/-- A relay of a new name is appended to the network's list. -/
theorem Network.Ok.append {network : Network} (hok : Network.Ok py network)
    (relay : RelayObject) (hnew : relay.config.relayName ∉ network.relayNames)
    (hrelay : relay.config.relayName ≠ "" ∧ RelayUrlOk py relay.config.relayUrl) :
    Network.Ok py (network.map (RelayList.append relay)) := by
  rw [Network.ok_iff] at hok ⊢
  obtain ⟨hnamed, hnodup, hactive, hrelays⟩ := hok
  have hnames : Network.relayNames (network.map (RelayList.append relay)) =
      network.relayNames ++ [relay.config.relayName] := by
    simp [relayNames, WalrusNetworkConfig.map, RelayList.append]
  refine ⟨hnamed, ?_, ?_, ?_⟩
  · rw [hnames, List.nodup_append']
    refine ⟨hnodup, by simp, ?_⟩
    simpa using hnew
  · intro name hname
    rw [hnames]
    exact List.mem_append_left _ (hactive name hname)
  · intro object hobject
    rcases List.mem_append.mp hobject with hold | hadded
    · exact hrelays object hold
    · rw [List.mem_singleton.mp hadded]
      exact hrelay

theorem Network.relayNames_setUrl (network : Network) (id : Nat) (relayUrl : String) :
    Network.relayNames (network.map (RelayList.setUrl id relayUrl)) = network.relayNames := by
  simp only [relayNames, WalrusNetworkConfig.map, RelayList.setUrl, List.map_map]
  apply List.map_congr_left
  intro relay _
  simp only [Function.comp_apply]
  split <;> rfl

/-- Some relays of the network are given a URL that passes the check. -/
theorem Network.Ok.setUrl {network : Network} {id : Nat} {relayUrl : String}
    (hok : Network.Ok py network) (hurl : RelayUrlOk py relayUrl) :
    Network.Ok py (network.map (RelayList.setUrl id relayUrl)) := by
  rw [Network.ok_iff] at hok ⊢
  obtain ⟨hnamed, hnodup, hactive, hrelays⟩ := hok
  have hnames := relayNames_setUrl network id relayUrl
  refine ⟨hnamed, hnames ▸ hnodup, ?_, ?_⟩
  · intro name hname
    rw [hnames]
    exact hactive name hname
  · intro object hobject
    obtain ⟨relay, hrelay, rfl⟩ := List.mem_map.mp hobject
    split
    · exact ⟨(hrelays relay hrelay).1, hurl⟩
    · exact hrelays relay hrelay

/-- Removing the first relay of a name keeps those of other names. -/
theorem Network.mem_relayNames_remove {network : Network} {relayName name : String}
    (hmem : name ∈ network.relayNames) (hne : name ≠ relayName) :
    name ∈ Network.relayNames (network.map (RelayList.remove relayName)) := by
  obtain ⟨relay, hrelay, rfl⟩ := List.mem_map.mp hmem
  refine List.mem_map.mpr ⟨relay, ?_, rfl⟩
  rw [WalrusNetworkConfig.map, RelayList.remove, List.mem_eraseP_of_neg]
  · exact hrelay
  · simpa using hne

/-- A relay is removed that is not the active one, or no longer is. -/
theorem Network.Ok.remove {network : Network} (hok : Network.Ok py network) (relayName : String)
    (activeRelay : Option String) (hkeep : ∀ name, activeRelay = some name →
      network.activeRelay = some name ∧ name ≠ relayName) :
    Network.Ok py { network.map (RelayList.remove relayName) with activeRelay := activeRelay } := by
  rw [Network.ok_iff] at hok ⊢
  obtain ⟨hnamed, hnodup, hactive, hrelays⟩ := hok
  refine ⟨hnamed, hnodup.sublist (List.eraseP_sublist.map _), ?_, ?_⟩
  · intro name hname
    obtain ⟨hwas, hne⟩ := hkeep name hname
    exact Network.mem_relayNames_remove (hactive name hwas) hne
  · intro relay hrelay
    exact hrelays relay (List.mem_of_mem_eraseP hrelay)

/-! ## Relays added, moved and removed -/

/-- A change of one list object keeps every list's identity. -/
theorem id_onRelays (id : Nat) (change : RelayList → RelayList)
    (hid : ∀ relays, (change relays).id = relays.id) (relays : RelayList) :
    (if relays.id = id then change relays else relays).id = relays.id := by
  split
  · exact hid relays
  · rfl

theorem Network.ok_map_id {network : Network} {f : RelayList → RelayList}
    (hok : Network.Ok py network) (hsame : f network.relays = network.relays) :
    Network.Ok py (network.map f) :=
  hok.congr rfl hsame rfl

namespace Model.Ok

variable {model after : Model} {networkName relayName relayUrl : String} {makeActive : Bool}

theorem addRelay (hok : Model.Ok py model)
    (h : Model.addRelay py networkName relayName relayUrl makeActive model = .ok after) :
    Model.Ok py after := by
  obtain ⟨net, hnet, h⟩ := bind_eq_ok.mp h
  obtain ⟨⟨⟩, hfresh, h⟩ := bind_eq_ok.mp h
  obtain ⟨relay, hrelay, h⟩ := bind_eq_ok.mp h
  obtain ⟨hmem, rfl⟩ := Model.networkFor_eq_ok hnet
  obtain ⟨rfl, hrelayOk⟩ := RelayConfig.new_eq_ok.mp hrelay
  have hnew : relayName ∉ net.relayNames := by
    intro hknown
    obtain ⟨object, hobject, hname⟩ := List.mem_map.mp hknown
    exact raiseIf_eq_ok.mp hfresh ⟨object, hobject, hname⟩
  -- a network that shares the list has the same relays, so the name is new there too
  have hnetwork : ∀ network ∈ model.networks, Network.Ok py (network.map fun relays =>
      if relays.id = net.relays.id then
        RelayList.append ⟨model.freshId, ⟨relayName, relayUrl⟩⟩ relays
      else relays) := by
    intro network hnetwork
    by_cases hshared : network.relays.id = net.relays.id
    · have hsame := hok.coherent network hnetwork net hmem hshared
      have hnew' : relayName ∉ Network.relayNames network := by
        rw [Network.relayNames, hsame]
        exact hnew
      have happend := (hok.network_ok hnetwork).append
        ⟨model.freshId, ⟨relayName, relayUrl⟩⟩ hnew' hrelayOk
      exact happend.congr rfl (if_pos hshared) rfl
    · exact Network.ok_map_id (hok.network_ok hnetwork) (if_neg hshared)
  have hid := id_onRelays net.relays.id
    (RelayList.append ⟨model.freshId, ⟨relayName, relayUrl⟩⟩) fun _ => rfl
  cases makeActive with
  | false =>
    cases h
    exact hok.mapRelays hid hnetwork
  | true =>
    cases h
    refine hok.mapRelays_setActiveRelay hid (fun network hmem' _ => hnetwork network hmem') ?_
    intro network hmem' hname
    obtain rfl := hok.eq_of_networkName hmem' hmem hname
    refine (hnetwork network hmem').activate _ ?_
    intro name hactive
    cases hactive
    simp [Network.relayNames, WalrusNetworkConfig.map, RelayList.append]

theorem updateRelay (hok : Model.Ok py model)
    (hurl : (∃ net ∈ model.networks, net.networkName = networkName ∧
      relayName ∈ Network.relayNames net) → RelayUrlOk py relayUrl)
    (h : Model.updateRelay networkName relayName relayUrl makeActive model = .ok after) :
    Model.Ok py after := by
  obtain ⟨net, hnet, h⟩ := bind_eq_ok.mp h
  obtain ⟨hmem, rfl⟩ := Model.networkFor_eq_ok hnet
  cases hfind : net.relays.relays.find? fun relay => relay.config.relayName = relayName with
  | none =>
    rw [hfind] at h
    cases h
  | some relay =>
    rw [hfind] at h
    have hknown : relayName ∈ Network.relayNames net := by
      refine List.mem_map.mpr ⟨relay, List.mem_of_find?_eq_some hfind, ?_⟩
      simpa using List.find?_some hfind
    have hnetwork : ∀ network ∈ model.networks,
        Network.Ok py (network.map (RelayList.setUrl relay.id relayUrl)) := by
      intro network hnetwork
      exact (hok.network_ok hnetwork).setUrl (hurl ⟨net, hmem, rfl, hknown⟩)
    cases makeActive with
    | false =>
      cases h
      exact hok.mapRelays (fun _ => rfl) hnetwork
    | true =>
      cases h
      refine hok.mapRelays_setActiveRelay (fun _ => rfl)
        (fun network hmem' _ => hnetwork network hmem') ?_
      intro network hmem' hname
      obtain rfl := hok.eq_of_networkName hmem' hmem hname
      refine (hnetwork network hmem').activate _ ?_
      intro name hactive
      cases hactive
      rw [Network.relayNames_setUrl]
      exact hknown

theorem removeRelay (hok : Model.Ok py model)
    (hshared : ∀ net ∈ model.networks, ∀ other ∈ model.networks, net.networkName = networkName →
      other.networkName ≠ networkName → other.relays.id = net.relays.id →
        other.activeRelay ≠ some relayName)
    (h : Model.removeRelay networkName relayName model = .ok after) : Model.Ok py after := by
  obtain ⟨net, hnet, h⟩ := bind_eq_ok.mp h
  obtain ⟨⟨⟩, -, h⟩ := bind_eq_ok.mp h
  obtain ⟨hmem, rfl⟩ := Model.networkFor_eq_ok hnet
  have hremoved : ∀ network ∈ model.networks, ∀ activeRelay,
      (∀ name, activeRelay = some name →
        network.activeRelay = some name ∧ (network.relays.id = net.relays.id → name ≠ relayName)) →
      Network.Ok py { network.map (fun relays => if relays.id = net.relays.id then
        RelayList.remove relayName relays else relays) with activeRelay := activeRelay } := by
    intro network hnetwork activeRelay hkeep
    have hnetworkOk := hok.network_ok hnetwork
    by_cases hid : network.relays.id = net.relays.id
    · have hremove := hnetworkOk.remove relayName activeRelay
        fun name hname => ⟨(hkeep name hname).1, (hkeep name hname).2 hid⟩
      exact hremove.congr rfl (if_pos hid) rfl
    · have hactive := hnetworkOk.activate activeRelay fun name hname =>
        (Network.ok_iff.mp hnetworkOk).2.2.1 name (hkeep name hname).1
      exact hactive.congr rfl (if_neg hid) rfl
  have hother : ∀ network ∈ model.networks, network.networkName ≠ net.networkName →
      Network.Ok py (network.map fun relays => if relays.id = net.relays.id then
        RelayList.remove relayName relays else relays) := by
    intro network hnetwork hname
    refine hremoved network hnetwork network.activeRelay fun name hactive => ⟨hactive, ?_⟩
    rintro hid rfl
    exact hshared net hmem network hnetwork rfl hname hid hactive
  have hid := id_onRelays net.relays.id (RelayList.remove relayName) fun _ => rfl
  by_cases hactive : net.activeRelay = some relayName
  · simp only [hactive, if_true] at h
    cases h
    refine hok.mapRelays_setActiveRelay hid hother ?_
    intro network hnetwork _
    exact hremoved network hnetwork none fun name hname => by cases hname
  · simp only [hactive, if_false] at h
    cases h
    refine hok.mapRelays hid ?_
    intro network hnetwork
    by_cases hname : network.networkName = net.networkName
    · obtain rfl := hok.eq_of_networkName hnetwork hmem hname
      refine hremoved network hnetwork network.activeRelay fun name hwas => ⟨hwas, ?_⟩
      rintro - rfl
      exact hactive hwas
    · exact hother network hnetwork hname

end Model.Ok

end Pytusk.Config
