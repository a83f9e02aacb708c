import Pytusk.Chain.ShardAssignment
import Pytusk.CommitteeFanout.Schedules
import Pytusk.NativeUpload.NodeUpload

/-!
# The sliver fan-out accounts for every node

The driver's run is a run of the shared fan-out whose tasks end as their nodes
did, so each dispatched node has exactly one outcome, and what a succeeded
outcome says is what the node's own invariant guarantees.
-/

namespace Pytusk.SliverFanout

open Pytusk.Lib Pytusk.Certification Pytusk.CommitteeFanout

variable {u : Upload}

/-! ## Who is dispatched -/

/-- The ids of the nodes that hold shards. -/
def HoldsShards (u : Upload) (nodeId : String) : Prop :=
  ∃ m ∈ u.committee.members, m.nodeId = nodeId ∧ m.shardIndices ≠ []

/-- Every shard of a partitioned committee contributes its holder's id. -/
private theorem shardsByNode_keys (hp : u.committee.PartitionsShards) :
    ∃ shards, shardsByNode u = .ok shards ∧ (Dict.keys shards).Nodup ∧
      ∀ id, id ∈ Dict.keys shards ↔ HoldsShards u id := by
  have hfound : ∀ shard ∈ List.range u.committee.nShards, ∃ m ∈ u.committee.members,
      u.committee.memberForShard shard = .ok m ∧ shard ∈ m.shardIndices :=
    fun shard hs => WalrusCommittee.memberForShard_of_partitions hp (List.mem_range.mp hs)
  obtain ⟨holders, hholders⟩ := exists_mapM_ok (f := shardHolder u) fun shard hs => by
    obtain ⟨m, -, hm, -⟩ := hfound shard hs
    exact ⟨(m.nodeId, shard), by rw [shardHolder, hm]; rfl⟩
  refine ⟨_, bind_eq_ok.mpr ⟨holders, hholders, rfl⟩, Dict.nodup_keys_groupFold _, fun id => ?_⟩
  rw [Dict.mem_keys_groupFold, List.mem_map]
  constructor
  · rintro ⟨item, hitem, rfl⟩
    obtain ⟨shard, hs, heq⟩ := exists_of_mem_mapM hholders hitem
    obtain ⟨m, hm, hok, hshard⟩ := hfound shard hs
    rw [shardHolder, hok, ok_bind] at heq
    cases heq
    exact ⟨m, hm, rfl, List.ne_nil_of_mem hshard⟩
  · rintro ⟨m, hm, rfl, hne⟩
    obtain ⟨shard, hshard⟩ := List.exists_mem_of_ne_nil _ hne
    have hs := List.mem_range.mpr (WalrusCommittee.lt_of_mem_shardIndices hp hm hshard)
    obtain ⟨m', hm', hok, hshard'⟩ := hfound shard hs
    obtain rfl := WalrusCommittee.eq_of_shared_shard hp hm hm' hshard hshard'
    obtain ⟨item, hitem, heq⟩ := exists_mem_of_mapM hholders hs
    rw [shardHolder, hok, ok_bind] at heq
    cases heq
    exact ⟨_, hitem, rfl⟩

private theorem exists_memberByNodeId {nodeId : String} (h : HoldsShards u nodeId) :
    ∃ m, memberByNodeId u nodeId = .ok m := by
  obtain ⟨m, hm, rfl, -⟩ := h
  obtain ⟨found, hget⟩ : ∃ found, Dict.get? (membersByNodeId u) m.nodeId = some found :=
    Dict.exists_get?_fromItems hm
  unfold memberByNodeId
  split
  · exact ⟨_, rfl⟩
  · rename_i hnone
    rw [hget] at hnone
    cases hnone

theorem exists_dispatched (hp : u.committee.PartitionsShards)
    (hslivers : u.encoded.slivers ≠ []) : ∃ ms, dispatched u = .ok ms := by
  obtain ⟨shards, hshards, -, hkeys⟩ := shardsByNode_keys hp
  obtain ⟨ms, hms⟩ := exists_mapM_ok (f := memberByNodeId u) fun id hid =>
    exists_memberByNodeId ((hkeys id).mp hid)
  exact ⟨ms, by rw [dispatched, if_neg hslivers, hshards, ok_bind, hms]⟩

/-! ## The run as a whole -/

section Run

variable {ms : List u.Member} {acts : List (Action ms)} {s v : State ms}

/-- The nodes keep their invariants, the driver's run is one of the shared
fan-out, and its tasks end as their nodes did. -/
structure Inv (s : State ms) : Prop where
  node : ∀ i, NodeInv u (ms.get i).1 (s.nodes i)
  ended : ∀ i r, s.driver.result i = some r → (s.nodes i).phase = .ended r
  driver : ∃ as, CommitteeFanout.Runs (callbacks ms) (tasks ms) .empty as s.driver

private theorem step_driver {a : CommitteeFanout.Action (NodeTask ms) PyExn NodeUploadOutcome}
    (h : step ms s (.driver a) = some v) :
    (∀ i r, a = .finish i r → (s.nodes i).phase = .ended r) ∧
      ∃ driver, CommitteeFanout.step (callbacks ms) (tasks ms) s.driver a = some driver ∧
        v = { s with driver := driver } := by
  cases a with
  | finish i r =>
    simp only [step, Option.ite_none_right_eq_some] at h
    obtain ⟨hended, h⟩ := h
    obtain ⟨driver, hdriver, h⟩ := Option.bind_eq_some_iff.mp h
    cases h
    refine ⟨?_, driver, hdriver, rfl⟩
    rintro _ _ ⟨⟩
    exact hended
  | _ =>
    simp only [step] at h
    obtain ⟨driver, hdriver, h⟩ := Option.bind_eq_some_iff.mp h
    cases h
    exact ⟨by simp, driver, hdriver, rfl⟩

theorem inv_start : Inv (start ms) := by
  refine ⟨fun i => nodeInv_start, fun i r h => ?_, [], rfl⟩
  simp only [start, CommitteeFanout.start, leaveLoop] at h
  split at h
  · simp at h
  · cases h

theorem Inv.step {a : Action ms} (hinv : Inv s) (h : step ms s a = some v) : Inv v := by
  cases a with
  | node i a =>
    obtain ⟨node, hnode, h⟩ := Option.bind_eq_some_iff.mp h
    cases h
    refine ⟨fun j => ?_, fun j r hj => ?_, hinv.driver⟩
    · by_cases hij : j = i
      · subst hij
        simp only [Function.update_self]
        exact (hinv.node j).step hnode
      · simp only [Function.update_of_ne hij]
        exact hinv.node j
    · have hended := hinv.ended j r hj
      -- a node the driver knows the end of takes no further step
      have hij : j ≠ i := by
        rintro rfl
        rw [nodeStep_ended hended a] at hnode
        cases hnode
      simp only [Function.update_of_ne hij]
      exact hended
  | driver a =>
    obtain ⟨hfinish, driver, hdriver, rfl⟩ := step_driver h
    obtain ⟨as, has⟩ := hinv.driver
    refine ⟨hinv.node, fun i r hr => ?_, as ++ [a],
      Lts.run_snoc_eq_some.mpr ⟨s.driver, has, hdriver⟩⟩
    rcases step_result hdriver hr with hold | hnew
    · exact hinv.ended i r hold
    · exact hfinish i r hnew

theorem Runs.inv (hrun : Runs ms acts s) : Inv s :=
  Lts.run_invariant inv_start (fun _ _ _ h hs => h.step hs) hrun

/-- While nobody cancels the driver's task, its run is an undisturbed one. -/
theorem Runs.driver_undisturbed (hrun : Runs ms acts s)
    (hcancel : .driver .cancelDriver ∉ acts) :
    ∃ as, CommitteeFanout.Runs (callbacks ms) (tasks ms) .empty as s.driver ∧
      .cancelDriver ∉ as := by
  refine Lts.run_invariant_on (Q := fun a => a ≠ .driver .cancelDriver)
    (P := fun w : State ms => ∃ as,
      CommitteeFanout.Runs (callbacks ms) (tasks ms) .empty as w.driver ∧ .cancelDriver ∉ as)
    ?_ (fun a ha e => hcancel (by rwa [← e])) ?_ hrun
  · exact ⟨[], rfl, by simp⟩
  intro w a w' ha hw h
  obtain ⟨as, has, hnone⟩ := hw
  cases a with
  | node i a =>
    obtain ⟨node, -, h⟩ := Option.bind_eq_some_iff.mp h
    cases h
    exact ⟨as, has, hnone⟩
  | driver a =>
    obtain ⟨-, driver, hdriver, rfl⟩ := step_driver h
    refine ⟨as ++ [a], Lts.run_snoc_eq_some.mpr ⟨w.driver, has, hdriver⟩, ?_⟩
    simp only [List.mem_append, List.mem_singleton, not_or]
    exact ⟨hnone, fun e => ha (by rw [← e])⟩

/-! ## The outcomes -/

/-- One node's task is brought to its end; the driver does not move. -/
private theorem exists_run_node (hpermits : u.maxNodeConnections ≠ 0) (hinv : Inv s)
    (i : NodeTask ms) :
    ∃ as v, Lts.run (step ms) s as = some v ∧ v.driver = s.driver ∧
      .driver .cancelDriver ∉ as ∧ (∃ r, (v.nodes i).phase = .ended r) ∧
      ∀ j r, (s.nodes j).phase = .ended r → (v.nodes j).phase = .ended r := by
  by_cases hend : ∃ r, (s.nodes i).phase = .ended r
  · exact ⟨[], s, rfl, rfl, by simp, hend, fun _ _ h => h⟩
  · obtain ⟨as, node, r, hrun, -, hended⟩ := (hinv.node i).exists_end hpermits
    have hlift := Lts.run_lift (step ms) (Q := fun _ => True)
      (fun n => { s with nodes := Function.update s.nodes i n }) (.node i)
      (fun _ _ => trivial) (fun n a n' _ hn => by
        simp only [step, Function.update_self, hn, Option.bind_eq_bind, Option.bind_some,
          Function.update_idem]) hrun
    rw [Function.update_eq_self] at hlift
    refine ⟨_, _, hlift, rfl, by simp, ⟨r, by simpa using hended⟩, fun j q hj => ?_⟩
    have hij : j ≠ i := by
      rintro rfl
      exact hend ⟨q, hj⟩
    simpa [Function.update_of_ne hij] using hj

/-- All of them are, one after the other. -/
private theorem exists_run_nodes (hpermits : u.maxNodeConnections ≠ 0) (hinv : Inv s)
    (l : List (NodeTask ms)) :
    ∃ as v, Lts.run (step ms) s as = some v ∧ v.driver = s.driver ∧
      .driver .cancelDriver ∉ as ∧ (∀ i ∈ l, ∃ r, (v.nodes i).phase = .ended r) ∧
      ∀ j r, (s.nodes j).phase = .ended r → (v.nodes j).phase = .ended r := by
  induction l generalizing s with
  | nil => exact ⟨[], s, rfl, rfl, by simp, by simp, fun _ _ h => h⟩
  | cons i rest ih =>
    obtain ⟨as, w, hrun, hdriver, hcancel, ⟨r, hr⟩, hkeep⟩ := exists_run_node hpermits hinv i
    have hinv' : Inv w := Lts.run_invariant hinv (fun _ _ _ h hs => h.step hs) hrun
    obtain ⟨bs, v, hrest, hdriver', hcancel', hended, hkeep'⟩ := ih hinv'
    refine ⟨as ++ bs, v, Lts.run_append_eq_some.mpr ⟨w, hrun, hrest⟩, hdriver'.trans hdriver,
      by simp [hcancel, hcancel'], List.forall_mem_cons.mpr ⟨⟨r, hkeep' i r hr⟩, hended⟩,
      fun j q hj => hkeep' j q (hkeep j q hj)⟩

/-- **The call ends**: unless its own task is cancelled, and where a PUT can be
sent at all, a run can always be continued, by answers to the nodes' requests
alone, to the normal end of the fan-out. -/
theorem Runs.exists_return (hpermits : u.maxNodeConnections ≠ 0) (hrun : Runs ms acts s)
    (hcancel : .driver .cancelDriver ∉ acts) :
    ∃ acts' v, Runs ms (acts ++ acts') v ∧ v.driver.phase = .exited .returned := by
  obtain ⟨as, w, hnodes, hdriver, hnone, hended, -⟩ :=
    exists_run_nodes hpermits hrun.inv (tasks ms)
  have hrun' : Runs ms (acts ++ as) w := Lts.run_append_eq_some.mpr ⟨s, hrun, hnodes⟩
  choose f hf using fun i : NodeTask ms => hended i (List.mem_finRange i)
  obtain ⟨ds, hds, hquiet⟩ := hrun'.driver_undisturbed (by simp [hcancel, hnone])
  obtain ⟨ds', d, hrest, hexit, -, -, hfinish⟩ :=
    CommitteeFanout.Runs.exists_return hds hquiet (List.nodup_finRange _) f
  have hlift := Lts.run_lift (step ms)
    (Q := fun a => ∀ i r, a = .finish i r → (w.nodes i).phase = .ended r)
    (fun d => { w with driver := d }) .driver
    (fun a ha i r hi => by rw [hfinish i r (hi ▸ ha)]; exact hf i) (fun d a d' ha hd => by
      cases a with
      | finish i r => simp [step, ha i r rfl, hd]
      | _ => simp [step, hd]) hrest
  exact ⟨as ++ ds'.map .driver, _, by
    rw [← List.append_assoc]
    exact Lts.run_append_eq_some.mpr ⟨w, hrun', hlift⟩, hexit⟩

end Run

/-- **An upload that fails raises a `NativeUploadError`**, over a partitioned
committee. -/
theorem Uploads.raises {e : PyExn} (hp : u.committee.PartitionsShards)
    (hslivers : u.encoded.slivers ≠ []) (h : Uploads u (.error e)) :
    e.isNativeUploadError = true := by
  generalize hresult : Except.error e = result at h
  cases h with
  | undispatched herror =>
    obtain ⟨ms, hms⟩ := exists_dispatched hp hslivers
    exact nomatch hms.symm.trans herror
  | uploaded hms hrun hexit =>
    unfold finish at hresult
    dsimp only at hresult
    split at hresult
    · cases hresult
      rfl
    · cases hresult

/-- **An upload that returns** had nodes to store at. -/
theorem Uploads.members_ne_nil {report : FanoutReport} (h : Uploads u (.ok report)) :
    u.committee.members ≠ [] := by
  intro hnone
  generalize hresult : Except.ok report = result at h
  cases h with
  | undispatched herror => cases hresult
  | @uploaded ms acts s hms hrun hexit =>
    obtain ⟨as, has⟩ := hrun.inv.driver
    have hnobody : ∀ i : NodeTask ms, False :=
      fun i => List.ne_nil_of_mem (ms.get i).2 hnone
    have hreports : s.driver.reports = [] :=
      List.eq_nil_iff_forall_not_mem.mpr fun rep _ => hnobody rep.task
    have hacc : s.driver.acc = Tally.empty := by
      rw [(CommitteeFanout.Runs.inv has).acc, hreports]
      rfl
    have hpos := (minWeightForValidity_pos (Int.natCast_nonneg u.committee.nShards)).trans_le
      (minWeightForValidity_le_quorum (Int.natCast_nonneg u.committee.nShards))
    unfold finish at hresult
    dsimp only at hresult
    rw [hacc] at hresult
    split at hresult
    · cases hresult
    · rename_i hquorum
      exact hquorum hpos

/-- Four shards over three nodes, one retry for each PUT. -/
private def fourShards : Upload where
  committee :=
    { epoch := 1, nShards := 4,
      members := [⟨"a", [0, 2], "a:1", []⟩, ⟨"b", [1], "b:1", []⟩, ⟨"c", [3], "c:1", []⟩] }
  encoded :=
    { blobId := [7], rootHash := [], unencodedLength := 1, nShards := 4,
      slivers := [⟨2, [1], [2]⟩, ⟨3, [3], [4]⟩, ⟨0, [5], [6]⟩, ⟨1, [7], [8]⟩],
      metadataBcs := [3] }
  maxRetries := 1
  maxNodeConnections := 1

private def shardHolders : List fourShards.Member :=
  [⟨⟨"a", [0, 2], "a:1", []⟩, by decide⟩, ⟨⟨"b", [1], "b:1", []⟩, by decide⟩,
    ⟨⟨"c", [3], "c:1", []⟩, by decide⟩]

private def nodeTask (i : Fin 3) : NodeTask shardHolders := i

/-- Node `i` stores the PUT it was sent. -/
private def stores (i : Fin 3) (put : PutAction → NodeAction) : List (Action shardHolders) :=
  [.node (nodeTask i) (put .send), .node (nodeTask i) (put (.answer (.ok (.ok none))))]

end Pytusk.SliverFanout
