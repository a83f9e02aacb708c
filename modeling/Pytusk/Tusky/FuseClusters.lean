import Pytusk.Tusky.FusePeriods
import Mathlib.Combinatorics.SimpleGraph.Connectivity.Connected

/-!
# The clusters of `--fuse-periods`

Compatibility by periods is a graph on the Storage objects. The code searches
it by object ids; where an id names one object of the list, what it returns
are the connected components of two objects or more.
-/

namespace Pytusk.Tusky

open Pytusk.Lib Pytusk.Ops Pytusk.StorageLedger

/-! ## The graph -/

section Graph

variable {first second : StorageObject}

theorem periodsCompatible_iff :
    periodsCompatible first second = true ↔
      ¬ (first.objectId ≠ "" ∧ first.objectId = second.objectId) ∧ Foldable first second := by
  unfold periodsCompatible Foldable
  rw [Bool.and_eq_true, decide_eq_true_eq, Option.isNone_iff_eq_none,
    fuseIncompatibility_eq_none]
  constructor
  · rintro ⟨hstart, hself, hfuse⟩
    rw [if_neg hstart] at hfuse
    exact ⟨hself, hstart, hfuse⟩
  · rintro ⟨hself, hstart, hfuse⟩
    rw [if_neg hstart]
    exact ⟨hstart, hself, hfuse⟩

theorem periodsCompatible_symm (h : periodsCompatible first second = true) :
    periodsCompatible second first = true := by
  obtain ⟨hself, hstart, hfuse⟩ := periodsCompatible_iff.mp h
  refine periodsCompatible_iff.mpr ⟨fun hsame => hself ⟨?_, hsame.2.symm⟩, hstart.symm,
    fusePeriodsIncompatibility_comm.mp hfuse⟩
  rw [← hsame.2]
  exact hsame.1

theorem not_periodsCompatible_self (storage : StorageObject) :
    ¬ periodsCompatible storage storage = true := fun h =>
  (periodsCompatible_iff.mp h).2.1 rfl

/-- The objects of a list, joined where they fuse by their periods. -/
def periodsGraph (storages : List StorageObject) : SimpleGraph StorageObject where
  Adj first second := first ∈ storages ∧ second ∈ storages ∧
    periodsCompatible first second = true
  symm := ⟨fun _ _ ⟨hfirst, hsecond, h⟩ => ⟨hsecond, hfirst, periodsCompatible_symm h⟩⟩
  loopless := ⟨fun storage h => not_periodsCompatible_self storage h.2.2⟩

/-- An id names one object of the list. -/
def IdsName (storages : List StorageObject) : Prop :=
  ∀ a ∈ storages, ∀ b ∈ storages, a.objectId = b.objectId → a = b

end Graph

/-! ## Its edges, by ids -/

section Edges

variable {storages : List StorageObject} {pairs : List (StorageObject × StorageObject)}
  {a b : StorageObject} {first second : String}

/-- Two compatible objects of a list, one before the other, are a pair. -/
theorem mem_fusePeriodsPairs_of_mem (ha : a ∈ storages) (hb : b ∈ storages)
    (h : periodsCompatible a b = true) :
    (a, b) ∈ fusePeriodsPairs storages ∨ (b, a) ∈ fusePeriodsPairs storages := by
  induction storages with
  | nil => cases ha
  | cons head rest ih =>
    simp only [fusePeriodsPairs, List.mem_append, List.mem_map, List.mem_filter]
    rcases List.mem_cons.mp ha with rfl | harest
    · rcases List.mem_cons.mp hb with rfl | hbrest
      · exact absurd h (not_periodsCompatible_self b)
      · exact .inl (.inl ⟨b, ⟨hbrest, h⟩, rfl⟩)
    · rcases List.mem_cons.mp hb with rfl | hbrest
      · exact .inr (.inl ⟨a, ⟨harest, periodsCompatible_symm h⟩, rfl⟩)
      · exact (ih harest hbrest).imp .inr .inr

theorem of_mem_fusePeriodsPairs (h : (a, b) ∈ fusePeriodsPairs storages) :
    a ∈ storages ∧ b ∈ storages ∧ periodsCompatible a b = true := by
  induction storages with
  | nil => cases h
  | cons head rest ih =>
    rcases List.mem_append.mp h with h | h
    · obtain ⟨second, hsecond, heq⟩ := List.mem_map.mp h
      obtain ⟨rfl, rfl⟩ := Prod.mk.inj heq
      obtain ⟨hmem, hcompatible⟩ := List.mem_filter.mp hsecond
      exact ⟨List.mem_cons_self, List.mem_cons_of_mem _ hmem, hcompatible⟩
    · obtain ⟨ha, hb, hcompatible⟩ := ih h
      exact ⟨List.mem_cons_of_mem _ ha, List.mem_cons_of_mem _ hb, hcompatible⟩

/-- What the pairs say about the ids, in both directions. -/
def idEdges (pairs : List (StorageObject × StorageObject)) : List (String × String) :=
  pairs.flatMap fun pair =>
    [(pair.1.objectId, pair.2.objectId), (pair.2.objectId, pair.1.objectId)]

theorem mem_idEdges : (first, second) ∈ idEdges pairs ↔
    ∃ pair ∈ pairs, (pair.1.objectId = first ∧ pair.2.objectId = second) ∨
      (pair.2.objectId = first ∧ pair.1.objectId = second) := by
  simp [idEdges, eq_comm]

theorem adjacencyOf_eq : adjacencyOf pairs =
    Dict.groupFold (fun ids id => ids.insert id) [] (idEdges pairs) := by
  rw [adjacencyOf, Dict.groupFold, idEdges, List.foldl_flatMap]
  rfl

theorem mem_foldl_insert {ids : List String} {id : String} (acc : List String) :
    id ∈ ids.foldl (fun ids id => ids.insert id) acc ↔ id ∈ acc ∨ id ∈ ids := by
  induction ids generalizing acc with
  | nil => simp
  | cons head rest ih =>
    rw [List.foldl_cons, ih, List.mem_insert_iff, List.mem_cons]
    tauto

theorem mem_neighbours :
    second ∈ neighbours (adjacencyOf pairs) first ↔ (first, second) ∈ idEdges pairs := by
  rw [neighbours, adjacencyOf_eq, Dict.get?_groupFold]
  have hunder : second ∈ Dict.under first (idEdges pairs) ↔ (first, second) ∈ idEdges pairs := by
    simp [Dict.under, List.mem_filterMap]
  split
  · rw [Option.getD_some, mem_foldl_insert, hunder]
    simp
  · rename_i hkey
    refine iff_of_false (by simp) fun h => hkey ?_
    exact List.mem_map.mpr ⟨_, h, rfl⟩

theorem mem_keys_adjacencyOf :
    first ∈ Dict.keys (adjacencyOf pairs) ↔ ∃ second, (first, second) ∈ idEdges pairs := by
  rw [adjacencyOf_eq, Dict.mem_keys_groupFold, List.mem_map]
  constructor
  · rintro ⟨⟨_, second⟩, h, rfl⟩
    exact ⟨second, h⟩
  · rintro ⟨second, h⟩
    exact ⟨_, h, rfl⟩

/-- Ids are neighbours where objects under them are compatible. -/
theorem mem_neighbours_periods :
    second ∈ neighbours (adjacencyOf (fusePeriodsPairs storages)) first ↔
      ∃ a b, (periodsGraph storages).Adj a b ∧ a.objectId = first ∧ b.objectId = second := by
  rw [mem_neighbours, mem_idEdges]
  constructor
  · rintro ⟨⟨a, b⟩, hpair, ⟨ha, hb⟩ | ⟨hb, ha⟩⟩
    · exact ⟨a, b, of_mem_fusePeriodsPairs hpair, ha, hb⟩
    · have hadj : (periodsGraph storages).Adj a b := of_mem_fusePeriodsPairs hpair
      exact ⟨b, a, hadj.symm, hb, ha⟩
  · rintro ⟨a, b, ⟨ha, hb, hcompatible⟩, hfirst, hsecond⟩
    rcases mem_fusePeriodsPairs_of_mem ha hb hcompatible with h | h
    · exact ⟨_, h, .inl ⟨hfirst, hsecond⟩⟩
    · exact ⟨_, h, .inr ⟨hfirst, hsecond⟩⟩

end Edges

/-! ## The search -/

section Search

variable (order : SetOrder) {storages : List StorageObject} {a : StorageObject}
  {first second : String}

/-- The neighbours of an id in the graph of a list. -/
abbrev nextIds (storages : List StorageObject) : String → List String :=
  neighbours (adjacencyOf (fusePeriodsPairs storages))

theorem pushes_pushes (adjacency : Dict String (List String)) :
    GraphSearch.Pushes (neighbours adjacency) (pushes order adjacency) :=
  fun collected _ => order.perm collected _

theorem componentIds_spec (adjacency : Dict String (List String)) (objectId : String) :
    (componentIds order adjacency objectId).Nodup ∧
      ∀ id, id ∈ componentIds order adjacency objectId ↔
        GraphSearch.Reachable (neighbours adjacency) objectId id := by
  have hnodes : ∀ id, id ∉ Dict.keys adjacency → neighbours adjacency id = [] := by
    intro id hid
    rw [neighbours, Dict.get?_eq_none_iff.mpr hid]
    rfl
  exact GraphSearch.search_spec (pushes_pushes order adjacency)
    (GraphSearch.whileEnds_search (pushes_pushes order adjacency) hnodes le_rfl)

theorem collectComponents_eq (adjacency : Dict String (List String)) :
    collectComponents order adjacency =
      GraphSearch.classes (componentIds order adjacency) (Dict.keys adjacency) := rfl

theorem nextIds_symm (h : second ∈ nextIds storages first) : first ∈ nextIds storages second := by
  obtain ⟨a, b, hadj, ha, hb⟩ := mem_neighbours_periods.mp h
  exact mem_neighbours_periods.mpr ⟨b, a, hadj.symm, hb, ha⟩

theorem reachable_nextIds_symm (h : GraphSearch.Reachable (nextIds storages) first second) :
    GraphSearch.Reachable (nextIds storages) second first := by
  induction h with
  | refl => exact .refl
  | tail _ hstep ih => exact ih.head (nextIds_symm hstep)

/-- The ids that can be reached are those of the objects that can be. -/
theorem reachable_nextIds (hids : IdsName storages) (ha : a ∈ storages) {id : String} :
    GraphSearch.Reachable (nextIds storages) a.objectId id ↔
      ∃ b ∈ storages, b.objectId = id ∧ (periodsGraph storages).Reachable a b := by
  constructor
  · intro h
    induction h with
    | refl => exact ⟨a, ha, rfl, .refl a⟩
    | tail _ hstep ih =>
      obtain ⟨b, hb, hid, hreach⟩ := ih
      obtain ⟨b', c, hadj, hb', hc⟩ := mem_neighbours_periods.mp hstep
      have hsame : b' = b := hids b' hadj.1 b hb (hb'.trans hid.symm)
      rw [hsame] at hadj
      exact ⟨c, hadj.2.1, hc, hreach.trans hadj.reachable⟩
  · rintro ⟨b, -, rfl, hreach⟩
    rw [SimpleGraph.reachable_iff_reflTransGen] at hreach
    clear ha
    induction hreach with
    | refl => exact .refl
    | tail _ hadj ih => exact ih.tail (mem_neighbours_periods.mpr ⟨_, _, hadj, rfl, rfl⟩)

theorem partition_collectComponents :
    GraphSearch.Partition
      (componentIds order (adjacencyOf (fusePeriodsPairs storages)))
      (Dict.keys (adjacencyOf (fusePeriodsPairs storages)))
      (collectComponents order (adjacencyOf (fusePeriodsPairs storages))) := by
  rw [collectComponents_eq]
  refine GraphSearch.partition_classes (fun id => ?_) (fun u v w hu hv => ?_) _
  · exact ((componentIds_spec order _ id).2 id).mpr .refl
  · rw [(componentIds_spec order _ _).2] at hu hv ⊢
    exact hu.trans (reachable_nextIds_symm hv)

end Search

/-! ## The objects of a component -/

section Components

variable {order : SetOrder} {storages : List StorageObject} {ids : List String}
  {component : List StorageObject} {a b : StorageObject}

/-- `by_id` -/
abbrev byIds (storages : List StorageObject) : Dict String StorageObject :=
  Dict.fromItems (·.objectId) id storages

theorem lookupStorage_eq_ok {byId : Dict String StorageObject} {id : String} :
    lookupStorage byId id = .ok a ↔ Dict.get? byId id = some a := by
  unfold lookupStorage
  cases Dict.get? byId id with
  | none => simp
  | some storage => simp

theorem of_lookupStorage {id : String} (h : lookupStorage (byIds storages) id = .ok a) :
    a ∈ storages ∧ a.objectId = id := by
  obtain ⟨b, hb, hid, rfl⟩ := Dict.exists_of_get?_fromItems (lookupStorage_eq_ok.mp h)
  exact ⟨hb, hid⟩

theorem lookupStorage_of_mem (hids : IdsName storages) (ha : a ∈ storages) :
    lookupStorage (byIds storages) a.objectId = .ok a := by
  obtain ⟨b, hb⟩ : ∃ b, Dict.get? (byIds storages) a.objectId = some b :=
    Dict.exists_get?_fromItems ha
  obtain ⟨hmem, hid⟩ := of_lookupStorage (lookupStorage_eq_ok.mpr hb)
  rw [lookupStorage_eq_ok, hb, hids b hmem a ha hid]

/-- The ids of what is looked up are the ids it is looked up by. -/
theorem map_objectId_of_mapM (h : ids.mapM (lookupStorage (byIds storages)) = .ok component) :
    component.map (·.objectId) = ids := by
  induction mapM_eq_ok.mp h with
  | nil => rfl
  | cons hhead htail ih =>
    rw [List.map_cons, (of_lookupStorage hhead).2, ih (mapM_eq_ok.mpr htail)]

theorem mem_of_mapM (hids : IdsName storages)
    (h : ids.mapM (lookupStorage (byIds storages)) = .ok component) :
    a ∈ component ↔ a ∈ storages ∧ a.objectId ∈ ids := by
  constructor
  · intro ha
    obtain ⟨id, hid, hlookup⟩ := exists_of_mem_mapM h ha
    obtain ⟨hmem, rfl⟩ := of_lookupStorage hlookup
    exact ⟨hmem, hid⟩
  · rintro ⟨hmem, hid⟩
    obtain ⟨b, hb, hlookup⟩ := exists_mem_of_mapM h hid
    rw [lookupStorage_of_mem hids hmem] at hlookup
    cases hlookup
    exact hb

theorem map_map_objectId_of_mapM {groups : List (List String)}
    {components : List (List StorageObject)}
    (h : groups.mapM (fun ids => (ids.mergeSort (· ≤ ·)).mapM (lookupStorage (byIds storages))) =
      .ok components) :
    components.map (·.map (·.objectId)) = groups.map (·.mergeSort (· ≤ ·)) := by
  induction mapM_eq_ok.mp h with
  | nil => rfl
  | cons hhead htail ih =>
    rw [List.map_cons, List.map_cons, map_objectId_of_mapM hhead, ih (mapM_eq_ok.mpr htail)]

/-- What the search collects from the list. -/
abbrev collected (order : SetOrder) (storages : List StorageObject) : List (List String) :=
  (collectComponents order (adjacencyOf (fusePeriodsPairs storages))).2

/-- What is collected at once are the ids of what one object can reach, itself
not alone. -/
theorem of_mem_collected (hids : IdsName storages) (h : ids ∈ collected order storages) :
    ids.Nodup ∧ ∃ a b, (periodsGraph storages).Adj a b ∧
      ∀ id, id ∈ ids ↔ ∃ c ∈ storages, c.objectId = id ∧ (periodsGraph storages).Reachable a c := by
  obtain ⟨root, hroot, rfl⟩ := (partition_collectComponents order).searched ids h
  obtain ⟨next, hnext⟩ := mem_keys_adjacencyOf.mp hroot
  obtain ⟨a, b, hadj, rfl, -⟩ := mem_neighbours_periods.mp (mem_neighbours.mpr hnext)
  obtain ⟨hnodup, hmem⟩ := componentIds_spec order (adjacencyOf (fusePeriodsPairs storages))
    a.objectId
  exact ⟨hnodup, a, b, hadj, fun id => (hmem id).trans (reachable_nextIds hids hadj.1)⟩

theorem mem_collected (h : (periodsGraph storages).Adj a b) :
    ∃ ids ∈ collected order storages, a.objectId ∈ ids := by
  have hpartition : GraphSearch.Partition _ _
    (collectComponents order (adjacencyOf (fusePeriodsPairs storages))) :=
    partition_collectComponents order
  refine (hpartition.met a.objectId).mp (hpartition.covered a.objectId ?_)
  exact mem_keys_adjacencyOf.mpr
    ⟨b.objectId, mem_neighbours.mp (mem_neighbours_periods.mpr ⟨a, b, h, rfl, rfl⟩)⟩

/-- Only objects of the list can be reached from one. -/
theorem mem_of_reachable (ha : a ∈ storages) (h : (periodsGraph storages).Reachable a b) :
    b ∈ storages := by
  rw [SimpleGraph.reachable_iff_reflTransGen] at h
  cases h with
  | refl => exact ha
  | tail _ hadj => exact hadj.2.1

/-- The objects under the ids of a component are a component of the graph. -/
theorem mem_component (hids : IdsName storages) (ha : a ∈ storages)
    (hreach : ∀ id, id ∈ ids ↔
      ∃ c ∈ storages, c.objectId = id ∧ (periodsGraph storages).Reachable a c)
    (h : (ids.mergeSort (· ≤ ·)).mapM (lookupStorage (byIds storages)) = .ok component) :
    b ∈ component ↔ (periodsGraph storages).Reachable a b := by
  rw [mem_of_mapM hids h, List.mem_mergeSort, hreach]
  constructor
  · rintro ⟨hb, c, hc, hid, hreach⟩
    rwa [← hids c hc b hb hid]
  · intro hreach
    have hb := mem_of_reachable ha hreach
    exact ⟨hb, b, hb, rfl, hreach⟩

/-- The connected components of two objects or more, each of them once. -/
structure Clusters (storages : List StorageObject)
    (components : List (List StorageObject)) : Prop where
  nodup : ∀ component ∈ components, (component.map (·.objectId)).Nodup
  disjoint : components.Pairwise List.Disjoint
  complete : ∀ objects : Set StorageObject,
    (∃ component ∈ components, {storage | storage ∈ component} = objects) ↔
      ∃ cluster : (periodsGraph storages).ConnectedComponent,
        cluster.supp = objects ∧ objects.Nontrivial

/-- A component that is returned is one of the graph, of some object with a
neighbour. -/
theorem of_mem_components (hids : IdsName storages) {components : List (List StorageObject)}
    (h : periodsComponents order storages = .ok components) (hc : component ∈ components) :
    (component.map (·.objectId)).Nodup ∧ ∃ a b, (periodsGraph storages).Adj a b ∧
      ∀ c, c ∈ component ↔ (periodsGraph storages).Reachable a c := by
  obtain ⟨ids, hmem, hlookup⟩ := exists_of_mem_mapM h hc
  obtain ⟨hnodup, a, b, hadj, hreach⟩ := of_mem_collected hids hmem
  refine ⟨?_, a, b, hadj, fun c => mem_component hids hadj.1 hreach hlookup⟩
  rw [map_objectId_of_mapM hlookup]
  exact (List.mergeSort_perm ids _).nodup_iff.mpr hnodup

theorem mem_components (hids : IdsName storages) {components : List (List StorageObject)}
    (h : periodsComponents order storages = .ok components)
    (hadj : (periodsGraph storages).Adj a b) :
    ∃ component ∈ components, a ∈ component := by
  obtain ⟨ids, hmem, hid⟩ : ∃ ids ∈ collected order storages, a.objectId ∈ ids :=
    mem_collected hadj
  obtain ⟨component, hcomponent, hlookup⟩ := exists_mem_of_mapM h hmem
  exact ⟨component, hcomponent,
    (mem_of_mapM hids hlookup).mpr ⟨hadj.1, List.mem_mergeSort.mpr hid⟩⟩

/-- Every id of a component is found. -/
theorem exists_periodsComponents (order : SetOrder) (hids : IdsName storages) :
    ∃ components, periodsComponents order storages = .ok components := by
  refine exists_mapM_ok fun ids hmem => exists_mapM_ok fun id hid => ?_
  obtain ⟨-, _, _, -, hreach⟩ := of_mem_collected hids hmem
  obtain ⟨c, hc, rfl, -⟩ := (hreach id).mp (List.mem_mergeSort.mp hid)
  exact ⟨c, lookupStorage_of_mem hids hc⟩

/-- **The components are the connected components.** -/
theorem clusters_periodsComponents (hids : IdsName storages)
    {components : List (List StorageObject)}
    (h : periodsComponents order storages = .ok components) :
    Clusters storages components where
  nodup component hc := (of_mem_components hids h hc).1
  disjoint := by
    have hpartition : GraphSearch.Partition _ _
      (collectComponents order (adjacencyOf (fusePeriodsPairs storages))) :=
      partition_collectComponents order
    have hsorted : ((collected order storages).map (·.mergeSort (· ≤ ·))).Pairwise
        List.Disjoint :=
      List.pairwise_map.mpr (hpartition.disjoint.imp fun hdisjoint id hfirst hsecond =>
        hdisjoint (List.mem_mergeSort.mp hfirst) (List.mem_mergeSort.mp hsecond))
    rw [← map_map_objectId_of_mapM h] at hsorted
    exact (List.pairwise_map.mp hsorted).imp fun hdisjoint c hfirst hsecond =>
      hdisjoint (List.mem_map_of_mem hfirst) (List.mem_map_of_mem hsecond)
  complete objects := by
    constructor
    · rintro ⟨component, hc, rfl⟩
      obtain ⟨-, a, b, hadj, hreach⟩ := of_mem_components hids h hc
      refine ⟨(periodsGraph storages).connectedComponentMk a, ?_, ?_⟩
      · ext c
        rw [SimpleGraph.ConnectedComponent.mem_supp_iff, SimpleGraph.ConnectedComponent.eq]
        exact ⟨fun hca => (hreach c).mpr hca.symm, fun hc => ((hreach c).mp hc).symm⟩
      · exact ⟨a, (hreach a).mpr (.refl a), b, (hreach b).mpr hadj.reachable, hadj.ne⟩
    · rintro ⟨cluster, rfl, hnontrivial⟩
      obtain ⟨a, ha, c, hc, hne⟩ := hnontrivial
      -- the way from the one to the other begins with a neighbour
      have hway := cluster.reachable_of_mem_supp ha hc
      rw [SimpleGraph.reachable_iff_reflTransGen] at hway
      obtain heq | ⟨b, hadj, -⟩ := hway.cases_head
      · exact absurd heq hne
      · obtain ⟨component, hmem, hin⟩ := mem_components hids h hadj
        obtain ⟨-, root, -, -, hreach⟩ := of_mem_components hids h hmem
        refine ⟨component, hmem, ?_⟩
        rw [SimpleGraph.ConnectedComponent.mem_supp_iff] at ha
        rw [← ha]
        ext d
        rw [SimpleGraph.ConnectedComponent.mem_supp_iff, SimpleGraph.ConnectedComponent.eq]
        have hroot := (hreach a).mp hin
        exact ⟨fun hd => ((hreach d).mp hd).symm.trans hroot,
          fun hd => (hreach d).mpr (hroot.trans hd.symm)⟩

end Components

/-! ## The hub and its spokes -/

section Targets

variable {order : SetOrder} {storages spokes : List StorageObject} {hub : StorageObject}
  {fuseTo : Option String}

/-- The hub is one object of a component, and the spokes are the others. -/
theorem of_resolvePeriodsTargets (h : resolvePeriodsTargets order storages fuseTo =
      .ok (hub, spokes)) :
    ∃ components, periodsComponents order storages = .ok components ∧
      ∃ component ∈ components, hub ∈ component ∧
        spokes = component.filter (·.objectId ≠ hub.objectId) := by
  obtain ⟨components, hcomponents, h⟩ := bind_eq_ok.mp h
  refine ⟨components, hcomponents, ?_⟩
  split at h
  · rename_i id _
    split at h
    · cases h
    · rename_i component hfind
      split at h
      · cases h
      · rename_i found hfound
        cases h
        have hid : hub.objectId = id := by simpa using List.find?_some hfound
        exact ⟨component, List.mem_of_find?_eq_some hfind, List.mem_of_find?_eq_some hfound,
          by rw [hid]⟩
  · split at h
    · cases h
    · rename_i component
      split at h
      · cases h
      · rename_i found hfound
        cases h
        exact ⟨component, List.mem_singleton_self component,
          List.argmin_mem hfound, rfl⟩
    · cases h

/-- The hub of a cluster has a neighbour among its spokes. -/
theorem exists_foldable_of_targets (hids : IdsName storages)
    (h : resolvePeriodsTargets order storages fuseTo = .ok (hub, spokes)) :
    ∃ spoke ∈ spokes, Foldable hub spoke := by
  obtain ⟨components, hcomponents, component, hmem, hhub, rfl⟩ := of_resolvePeriodsTargets h
  obtain ⟨-, a, b, hadj, hreach⟩ := of_mem_components hids hcomponents hmem
  have hhubs := (hreach hub).mp hhub
  -- some other object of the component is reached from the hub
  obtain ⟨c, hc, hne⟩ : ∃ c, (periodsGraph storages).Reachable hub c ∧ c ≠ hub := by
    by_cases hsame : a = hub
    · exact ⟨b, hhubs.symm.trans hadj.reachable, fun hb => hadj.ne (hsame.trans hb.symm)⟩
    · exact ⟨a, hhubs.symm, hsame⟩
  rw [SimpleGraph.reachable_iff_reflTransGen] at hc
  obtain heq | ⟨spoke, hspoke, -⟩ := hc.cases_head
  · exact absurd heq.symm hne
  · obtain ⟨hhubMem, hspokeMem, hcompatible⟩ := hspoke
    refine ⟨spoke, List.mem_filter.mpr ⟨(hreach spoke).mpr (hhubs.trans ?_), ?_⟩,
      (periodsCompatible_iff.mp hcompatible).2⟩
    · have hadj' : (periodsGraph storages).Adj hub spoke := ⟨hhubMem, hspokeMem, hcompatible⟩
      exact hadj'.reachable
    · rw [decide_eq_true_eq]
      intro hid
      rw [hids spoke hspokeMem hub hhubMem hid] at hcompatible
      exact not_periodsCompatible_self hub hcompatible

/-- **Greedy fusing is sound, and it makes progress on a cluster.** From any
hub and spokes the loop ends, and Move accepts its calls as calls that go by
periods; what they consume and what is left over are the spokes, capacity is
kept, and Move refuses to fold any leftover in by periods. On the hub and
spokes of a list in which an id names one object, at least one call is made. -/
theorem fusePeriodsChain_greedy :
    (∀ (ledger : Ledger) (hub : StorageObject) (spokes : List StorageObject),
      ((hub :: spokes).map (·.objectId)).Nodup →
      (∀ s ∈ hub :: spokes, s.startEpoch < s.endEpoch) →
      (∀ s ∈ hub :: spokes, ledger s.objectId = some s) →
      ∃ final : Folding,
        WhileEnds Folding.goesOn Folding.pass (Folding.start hub spokes) final ∧
        fusePeriodsChain hub spokes = (final.pairs, final.remaining) ∧
        ∃ ledger' survivor,
          Lts.run fuse ledger final.pairs = some ledger' ∧
          Lts.run fuseByPeriods ledger final.pairs = some ledger' ∧
          ledger' hub.objectId = some survivor ∧
          (∀ pair ∈ final.pairs, pair.1 = hub.objectId) ∧
          (final.pairs.map Prod.snd).Nodup ∧
          (∀ id ∈ final.pairs.map Prod.snd, id ∈ spokes.map (·.objectId)) ∧
          (final.pairs.map Prod.snd ++ final.remaining.map (·.objectId)).Perm
            (spokes.map (·.objectId)) ∧
          final.remaining.Sublist spokes ∧
          totalVolume (survivor :: final.remaining) = totalVolume (hub :: spokes) ∧
          ∀ spoke ∈ final.remaining, ledger' spoke.objectId = some spoke ∧
            fuseByPeriods ledger' (hub.objectId, spoke.objectId) = none) ∧
    ∀ (order : SetOrder) (storages : List StorageObject), IdsName storages →
      ∃ components, periodsComponents order storages = .ok components ∧
        Clusters storages components ∧
        ∀ fuseTo hub spokes,
          resolvePeriodsTargets order storages fuseTo = .ok (hub, spokes) →
          (fusePeriodsChain hub spokes).1 ≠ [] := by
  constructor
  · intro ledger hub spokes hnodup hranges hledger
    have hfolds := folds_foldAll hledger hnodup hranges
    obtain ⟨ledger', hrun, hsurvivor, hkept⟩ := hfolds.runs
    refine ⟨foldAll hub spokes, whileEnds_foldAll hub spokes, rfl, ledger', _,
      run_fuse_of_run_fuseByPeriods hrun, hrun, hsurvivor, hfolds.into, nodup_of_run hrun,
      fun id hid => hfolds.shared.subset (List.mem_append_left _ hid), hfolds.shared,
      hfolds.sublist, hfolds.worth, fun spoke hspoke => ⟨hkept spoke hspoke, ?_⟩⟩
    have hstuck := not_foldable_foldAll hub spokes spoke hspoke
    exact apply_eq_none hsurvivor (hkept spoke hspoke) (fusedByPeriods_eq_none hstuck)
  · intro order storages hids
    obtain ⟨components, hcomponents⟩ := exists_periodsComponents order hids
    refine ⟨components, hcomponents, clusters_periodsComponents hids hcomponents, ?_⟩
    intro fuseTo hub spokes h
    obtain ⟨spoke, hspoke, hfoldable⟩ := exists_foldable_of_targets hids h
    exact pairs_ne_nil hspoke hfoldable

/-- Three ranges that touch. -/
private def touching : List StorageObject := [⟨"a", 0, 5, 1⟩, ⟨"b", 5, 10, 1⟩, ⟨"c", 10, 15, 1⟩]

theorem fusePeriodsChain_greedy_touching :
    (∃ ledger', Lts.run fuse (fun id => touching.find? (·.objectId = id))
      (fusePeriodsChain ⟨"a", 0, 5, 1⟩ [⟨"b", 5, 10, 1⟩, ⟨"c", 10, 15, 1⟩]).1 = some ledger') ∧
    (fusePeriodsChain ⟨"a", 0, 5, 1⟩ [⟨"b", 5, 10, 1⟩, ⟨"c", 10, 15, 1⟩]).1 ≠ [] := by
  constructor
  · obtain ⟨final, -, hchain, ledger', -, hrun, -⟩ := fusePeriodsChain_greedy.1
      (fun id => touching.find? (·.objectId = id)) ⟨"a", 0, 5, 1⟩
      [⟨"b", 5, 10, 1⟩, ⟨"c", 10, 15, 1⟩] (by decide) (by decide) (by decide)
    rw [hchain]
    exact ⟨ledger', hrun⟩
  · obtain ⟨components, -, -, hpairs⟩ := fusePeriodsChain_greedy.2 listOrder touching
      (by unfold IdsName; decide)
    refine hpairs none _ _ ?_
    have hcollected : collected listOrder touching = [["c", "b", "a"]] := by decide
    have hsorted : ["c", "b", "a"].mergeSort (· ≤ ·) = ["a", "b", "c"] := by
      simp [List.mergeSort]
    unfold resolvePeriodsTargets periodsComponents
    simp only [hcollected, List.mapM_cons, List.mapM_nil, hsorted]
    rfl

/-- Where an id comes twice, the object that is looked up under it need not be
the one that is compatible. -/
theorem no_pair_of_two_under_one_id :
    ∃ hub spokes,
      resolvePeriodsTargets listOrder
        [⟨"a", 0, 5, 1⟩, ⟨"b", 5, 10, 1⟩, ⟨"a", 100, 200, 1⟩] none = .ok (hub, spokes) ∧
      ((hub :: spokes).map (·.objectId)).Nodup ∧
      (∀ s ∈ hub :: spokes, s.startEpoch < s.endEpoch) ∧
      (fusePeriodsChain hub spokes).1 = [] := by
  refine ⟨⟨"a", 100, 200, 1⟩, [⟨"b", 5, 10, 1⟩], ?_, by decide, by decide, by decide⟩
  have hcollected : collected listOrder
      [⟨"a", 0, 5, 1⟩, ⟨"b", 5, 10, 1⟩, ⟨"a", 100, 200, 1⟩] = [["b", "a"]] := by decide
  have hsorted : ["b", "a"].mergeSort (· ≤ ·) = ["a", "b"] := by simp [List.mergeSort]
  unfold resolvePeriodsTargets periodsComponents
  simp only [hcollected, List.mapM_cons, List.mapM_nil, hsorted]
  rfl

end Targets

end Pytusk.Tusky
