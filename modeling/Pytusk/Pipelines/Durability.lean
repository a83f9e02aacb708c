import Pytusk.Chain.ShardAssignment
import Pytusk.NativeUpload.ConfirmRuns
import Pytusk.Pipelines.Read
import Mathlib.Algebra.BigOperators.Fin
import Mathlib.Algebra.Order.BigOperators.Group.Finset

/-!
# A certified blob stays readable

The signers of a certificate hold a quorum of the shards. If they keep what they
signed for and `max_n_faulty` shards are lost, enough shards for the primary
axis remain, so `read_blob_native` finds the blob that `collect_confirmations`
saw stored.
-/

namespace Pytusk.Pipelines

open Pytusk.Lib Pytusk.NativeRead Pytusk.Certification

/-! ## The shards of some members -/

section Shards

variable {c : WalrusCommittee}

def shardsOf (c : WalrusCommittee) (nodes : Finset (Fin c.members.length)) : Finset Nat :=
  nodes.biUnion fun i => (c.members.get i).shardIndices.toFinset

def weightOf (c : WalrusCommittee) (nodes : Finset (Fin c.members.length)) : Nat :=
  ∑ i ∈ nodes, (c.members.get i).weight

/-- The members at the positions a certificate names. -/
def signers (c : WalrusCommittee) (cert : Certificate) : Finset (Fin c.members.length) :=
  Finset.univ.filter fun i => i.val ∈ cert.signerPositions

private theorem flatMap_finRange (c : WalrusCommittee) :
    (List.finRange c.members.length).flatMap (fun i => (c.members.get i).shardIndices) =
      c.members.flatMap (·.shardIndices) := by
  conv_rhs => rw [← List.map_get_finRange c.members]
  rw [List.flatMap_map]

/-- No shard counts twice. -/
theorem card_shardsOf (hp : c.PartitionsShards) (nodes : Finset (Fin c.members.length)) :
    (shardsOf c nodes).card = weightOf c nodes := by
  have hnodup : ((List.finRange c.members.length).flatMap fun i =>
      (c.members.get i).shardIndices).Nodup := by
    rw [flatMap_finRange]
    exact hp.nodup_iff.mpr List.nodup_range
  obtain ⟨hown, hdisjoint⟩ := List.nodup_flatMap.mp hnodup
  have hpair : (nodes : Set (Fin c.members.length)).PairwiseDisjoint
      fun i => (c.members.get i).shardIndices.toFinset := by
    intro i _ j _ hne
    rw [Function.onFun, List.disjoint_toFinset_iff_disjoint]
    have hsymm : Std.Symm (Function.onFun List.Disjoint fun i : Fin c.members.length =>
        (c.members.get i).shardIndices) := ⟨fun _ _ h => h.symm⟩
    exact hdisjoint.forall (List.mem_finRange i) (List.mem_finRange j) hne
  unfold shardsOf weightOf
  rw [Finset.card_biUnion hpair]
  exact Finset.sum_congr rfl fun i _ => List.toFinset_card_of_nodup (hown i (List.mem_finRange i))

private theorem weightOf_le (nodes lost : Finset (Fin c.members.length)) :
    weightOf c nodes ≤ weightOf c (nodes \ lost) + weightOf c lost := by
  unfold weightOf
  rw [← Finset.sum_inter_add_sum_sdiff nodes lost, Nat.add_comm]
  exact Nat.add_le_add_left (Finset.sum_le_sum_of_subset Finset.inter_subset_right) _

private theorem weight_of_positions {positions : List Nat}
    (hinside : ∀ p ∈ positions, p < c.committeeSize) :
    ((positions.filterMap (c.members[·]?)).map (·.weight)).sum =
      (positions.map fun p => (c.members[p]?.map (·.weight)).getD 0).sum := by
  induction positions with
  | nil => rfl
  | cons p positions ih =>
    obtain ⟨hp, hrest⟩ := List.forall_mem_cons.mp hinside
    have hmember : c.members[p]? = some c.members[p] := List.getElem?_eq_getElem hp
    rw [List.filterMap_cons, hmember, List.map_cons, List.sum_cons, List.map_cons, List.sum_cons,
      ih hrest, hmember]
    rfl

/-- The weight of a sound certificate is that of the members it names. -/
theorem weightOf_signers {cert : Certificate} (h : Sound c cert) :
    weightOf c (signers c cert) = cert.weight := by
  obtain ⟨members, hmembers, hweight⟩ := h.weight
  obtain ⟨hinside, rfl⟩ := WalrusCommittee.membersAt_eq_ok.mp hmembers
  have hnodup : cert.signerPositions.Nodup := h.ascending.imp Nat.ne_of_lt
  have himage : (signers c cert).image Fin.val = cert.signerPositions.toFinset := by
    ext p
    simp only [signers, Finset.mem_image, Finset.mem_filter, Finset.mem_univ, true_and,
      List.mem_toFinset]
    constructor
    · rintro ⟨i, hi, rfl⟩
      exact hi
    · intro hp
      exact ⟨⟨p, hinside p hp⟩, hp, rfl⟩
  rw [hweight, weight_of_positions hinside, ← List.sum_toFinset _ hnodup, ← himage,
    Finset.sum_image fun i _ j _ h => Fin.ext h]
  refine Finset.sum_congr rfl fun i _ => ?_
  simp

end Shards

/-! ## What the nodes keep -/

/-- After the certificate, members of `max_n_faulty` shards may be lost, of which
one may serve anything. The other signers serve the metadata, and the slivers of
their shards; nobody else serves a sliver that does not verify. -/
structure Keeps (w : ReadWorld) (call : ReadCall) (c : WalrusCommittee) (cert : Certificate)
    (lost : Finset (Fin c.members.length)) (liar : String) (sliverOf : Int → Bytes) : Prop where
  few : (weightOf c lost : Int) ≤ Redstuff.maxNFaulty c.nShards
  liarLost : ∀ i, (c.members.get i).nodeId = liar → i ∈ lost
  metadata : ∀ i ∈ signers c cert, i ∉ lost →
    ∃ metadata, (w.metadataFetch call c).Supplies i metadata
  slivers : ∀ i ∈ signers c cert, i ∉ lost → ∀ (round place shard : Nat) (command : ReadSliver),
    (c.members.get i).shardIndices[place]? = some shard →
    Redstuff.shardIndexToPairIndex shard call.blobId c.nShards = .ok command.sliverPairIndex →
    command.blobId = call.blobId → command.sliverType = call.axis →
    w.sliverAnswers c round i place command = .ok (.ok (some (sliverOf command.sliverPairIndex)))
  honest : ∀ j metadata, (w.metadataFetch call c).Supplies j metadata →
    ∀ round i, (c.members.get i).nodeId ≠ liar →
      ∀ sliver ∈ (w.read call c metadata).serves (w.sliverAnswers c) round i,
        (w.codec metadata call.axis).verifies sliver = true
  distinct : ∀ pair < c.nShards, ∀ pair' < c.nShards,
    sliverOf (pair : Nat) = sliverOf (pair' : Nat) → pair = pair'
  reachable : ∀ i, ¬ (w.metadataFetch call c).Raises i

variable {w : ReadWorld} {call : ReadCall} {c : WalrusCommittee} {cert : Certificate}
variable {lost : Finset (Fin c.members.length)} {liar : String} {sliverOf : Int → Bytes}

/-- A signer that keeps what it signed for serves each of its shards. -/
private theorem Keeps.mem_serves (h : Keeps w call c cert lost liar sliverOf)
    {i : Fin c.members.length} (hi : i ∈ signers c cert) (hkept : i ∉ lost) {shard pair : Nat}
    (hshard : shard ∈ (c.members.get i).shardIndices)
    (hpair : Redstuff.shardIndexToPairIndex shard call.blobId c.nShards = .ok ((pair : Nat) : Int))
    (metadata : VerifiedBlobMetadata) (round : Nat) :
    sliverOf pair ∈ (w.read call c metadata).serves (w.sliverAnswers c) round i := by
  obtain ⟨place, hplace⟩ := List.getElem?_of_mem hshard
  refine List.mem_filterMap.mpr
    ⟨(shard, place), List.mem_zipIdx_iff_getElem?.mpr hplace, ?_⟩
  have hanswer := h.slivers i hi hkept round place shard {
      blobId := call.blobId
      sliverPairIndex := pair
      sliverType := call.axis
      maxBytes := some (sliverCap ⟨metadata.nShards, metadata.unencodedLength⟩)
      baseUrl := (c.members.get i).baseUrl } hplace hpair rfl rfl
  have hrequest : ((w.read call c metadata).fetch []).request (c.members.get i) shard = .ok {
      blobId := call.blobId
      sliverPairIndex := pair
      sliverType := call.axis
      maxBytes := some (sliverCap ⟨metadata.nShards, metadata.unencodedLength⟩)
      baseUrl := (c.members.get i).baseUrl } := by
    have hsame : Redstuff.shardIndexToPairIndex shard ((w.read call c metadata).fetch []).blobId
        ((w.read call c metadata).fetch []).committee.nShards = .ok ((pair : Nat) : Int) := hpair
    unfold Fetch.request
    rw [hsame]
    rfl
  show Fetch.gathered (Fetch.one _ (c.members.get i) (w.sliverAnswers c round i place) shard) = _
  unfold Fetch.one
  rw [hrequest, ok_bind, hanswer]
  rfl

/-- The shards of the signers that are left suffice for the primary axis. -/
private theorem Keeps.threshold_le (h : Keeps w call c cert lost liar sliverOf)
    (hp : c.PartitionsShards) (hsound : Sound c cert) :
    decodingThreshold .primary c.nShards ≤ (shardsOf c (signers c cert \ lost)).card := by
  have hquorum := (isQuorum_iff _ _).mp hsound.quorum
  have hfew := h.few
  have hsplit := weightOf_le (signers c cert) lost
  rw [weightOf_signers hsound] at hsplit
  rw [card_shardsOf hp]
  simp only [decodingThreshold, Redstuff.sourceSymbolCounts, Redstuff.minNCorrect,
    Redstuff.maxNFaulty, minWeightForQuorum] at *
  omega

/-- The signers that are left. -/
private def remaining (c : WalrusCommittee) (cert : Certificate)
    (lost : Finset (Fin c.members.length)) : List (Fin c.members.length) :=
  (List.finRange c.members.length).filter fun i => i ∈ signers c cert \ lost

private theorem mem_remaining {i : Fin c.members.length} :
    i ∈ remaining c cert lost ↔ i ∈ signers c cert ∧ i ∉ lost := by
  simp [remaining]

/-- They serve that many slivers, in every round. -/
private theorem Keeps.enough (h : Keeps w call c cert lost liar sliverOf)
    (hp : c.PartitionsShards) (hsound : Sound c cert) (hlength : call.blobId.length = 32)
    (metadata : VerifiedBlobMetadata) (round : Nat) :
    decodingThreshold .primary c.nShards ≤ ((w.read call c metadata).available (w.sliverAnswers c)
      round (remaining c cert lost)).card := by
  have hpairs : ∀ shard, ∃ pair, shard < c.nShards → pair < c.nShards ∧
      Redstuff.shardIndexToPairIndex shard call.blobId c.nShards = .ok ((pair : Nat) : Int) ∧
      Redstuff.pairIndexToShardIndex pair call.blobId c.nShards = .ok ((shard : Nat) : Int) := by
    intro shard
    by_cases hshard : shard < c.nShards
    · obtain ⟨pair, hpair⟩ := Redstuff.pairIndex_of_shardIndex hlength hshard
      exact ⟨pair, fun _ => hpair⟩
    · exact ⟨0, fun hlt => absurd hlt hshard⟩
  choose pairOf hpairOf using hpairs
  have hinside : ∀ shard ∈ shardsOf c (signers c cert \ lost), shard < c.nShards := by
    intro shard hshard
    obtain ⟨i, -, hi⟩ := Finset.mem_biUnion.mp hshard
    exact WalrusCommittee.lt_of_mem_shardIndices hp (List.get_mem _ i) (List.mem_toFinset.mp hi)
  have hinj : Set.InjOn (fun shard => sliverOf (pairOf shard))
      (shardsOf c (signers c cert \ lost) : Set Nat) := by
    intro shard hshard shard' hshard' heq
    obtain ⟨hlt, -, hback⟩ := hpairOf shard (hinside shard hshard)
    obtain ⟨hlt', -, hback'⟩ := hpairOf shard' (hinside shard' hshard')
    rw [h.distinct _ hlt _ hlt' heq] at hback
    exact_mod_cast Except.ok.inj (hback.symm.trans hback')
  refine (h.threshold_le hp hsound).trans ?_
  rw [← Finset.card_image_of_injOn hinj]
  refine Finset.card_le_card fun sliver hsliver => ?_
  obtain ⟨shard, hshard, rfl⟩ := Finset.mem_image.mp hsliver
  obtain ⟨i, hi, hheld⟩ := Finset.mem_biUnion.mp hshard
  obtain ⟨hsigner, hkept⟩ := Finset.mem_sdiff.mp hi
  refine Read.mem_available.mpr ⟨i, ?_, ?_⟩
  · exact mem_remaining.mpr ⟨hsigner, hkept⟩
  · exact h.mem_serves hsigner hkept (List.mem_toFinset.mp hheld)
      (hpairOf shard (hinside shard hshard)).2.1 metadata round

/-! ## Reading a certified blob -/

private theorem threshold_pos (n : Nat) : 0 < decodingThreshold .primary n := by
  simp only [decodingThreshold, Redstuff.sourceSymbolCounts, Redstuff.minNCorrect,
    Redstuff.maxNFaulty]
  omega

/-- Some signer is left to serve the metadata. -/
private theorem Keeps.exists_supplies (h : Keeps w call c cert lost liar sliverOf)
    (hp : c.PartitionsShards) (hsound : Sound c cert) :
    ∃ i metadata, (w.metadataFetch call c).Supplies i metadata := by
  have hpos := (threshold_pos c.nShards).trans_le (h.threshold_le hp hsound)
  obtain ⟨shard, hshard⟩ := Finset.card_pos.mp hpos
  obtain ⟨i, hi, -⟩ := Finset.mem_biUnion.mp hshard
  obtain ⟨hsigner, hkept⟩ := Finset.mem_sdiff.mp hi
  exact ⟨i, h.metadata i hsigner hkept⟩

/-- The lost ones but the liar are harmless, and the others serve enough. -/
private theorem Keeps.oneFaulty (h : Keeps w call c cert lost liar sliverOf)
    (hp : c.PartitionsShards) (hsound : Sound c cert) (hlength : call.blobId.length = 32)
    (haxis : call.axis = .primary) {j : Fin c.members.length} {metadata : VerifiedBlobMetadata}
    (hsupplies : (w.metadataFetch call c).Supplies j metadata) :
    (w.read call c metadata).OneFaulty (w.sliverAnswers c) liar where
  honest := h.honest j metadata hsupplies
  enough round := by
    show decodingThreshold call.axis c.nShards ≤ _
    rw [haxis]
    refine (h.enough hp hsound hlength metadata round).trans (Finset.card_le_card ?_)
    refine Fetch.contents_mono fun i hi => ?_
    have hkept := (mem_remaining.mp hi).2
    exact List.mem_filter.mpr ⟨List.mem_finRange i,
      decide_eq_true fun hliar => hkept (h.liarLost i hliar)⟩

def isLost {c : WalrusCommittee} (lost : Finset (Fin c.members.length))
    (i : Fin c.members.length) : Bool := i ∈ lost

/-- A fan-out of the read can return although nobody lost answers. -/
private theorem Keeps.fanOut_returns (h : Keeps w call c cert lost liar sliverOf)
    (hp : c.PartitionsShards) (hsound : Sound c cert) (hlength : call.blobId.length = 32)
    (haxis : call.axis = .primary) {maxNodeConnections : Nat}
    (hconnections : 0 < maxNodeConnections)
    (hfew : weightOf c lost < defaultMaxConcurrentRequests)
    {silent : Fin c.members.length → Nat → Bool}
    (hsilent : ∀ i place, silent i place = true → i ∈ lost)
    {metadata : VerifiedBlobMetadata} {round : Nat} {excluded : List String}
    (hexcluded : ∀ node ∈ excluded, node = liar)
    {acts : List ((w.read call c metadata).fetch excluded).PermittedAction}
    {s : ((w.read call c metadata).fetch excluded).Permitted}
    (hrun : ((w.read call c metadata).fetch excluded).PermittedRuns
      (readLimits maxNodeConnections) silent (w.sliverAnswers c round) acts s) :
    ((w.read call c metadata).fetch excluded).CanReturn (readLimits maxNodeConnections) silent
      (w.sliverAnswers c round) s := by
  apply hrun.canReturn
  · show 0 < decodingThreshold call.axis c.nShards
    rw [haxis]
    exact threshold_pos _
  · show decodingThreshold call.axis c.nShards ≤ _
    rw [haxis]
    refine (h.enough hp hsound hlength metadata round).trans (Finset.card_le_card ?_)
    intro sliver hsliver
    obtain ⟨i, hi, hserves⟩ := Read.mem_available.mp hsliver
    have hkept := (mem_remaining.mp hi).2
    have hasked : i ∈ (w.read call c metadata).asked excluded :=
      Read.mem_asked_of_serves hserves fun hmem => hkept (h.liarLost i (hexcluded _ hmem))
    refine Fetch.mem_contents.mpr ⟨i, Fetch.mem_passing.mpr ⟨hasked, ?_⟩, hserves⟩
    refine Fetch.nodePasses_of_few (isLost lost) hasked
      (fun j place hj => decide_eq_true (hsilent j place hj)) (decide_eq_false hkept)
      hconnections ?_
    refine (Fetch.countP_before_le (f := (w.read call c metadata).fetch excluded) (isLost lost)
      i).trans_lt ?_
    have hlost : (Finset.univ.filter fun j => isLost lost j = true) = lost := by
      ext j
      simp [isLost]
    exact (Finset.sum_congr hlost fun j _ => rfl).trans_lt hfew

/-- **A certified blob stays readable** while no more than `max_n_faulty` shards
are lost, one of their nodes serving anything at all: a read along the primary
axis returns the blob, in whatever order the nodes answer, and if the lost shards
cannot take all permits, each of its fan-outs can return although requests to
those that are lost are never answered. -/
theorem readBlobNative_durable {q : Confirm.Query} {blob : Bytes}
    {lost : Finset (Fin q.committee.members.length)}
    (hd : q.committee.Distinct) (hp : q.committee.PartitionsShards)
    (hwhole : q.positions = none) (hcert : Confirm.Collects q (.ok cert))
    (hc : w.committee = .ok q.committee) (hlength : call.blobId.length = 32)
    (haxis : call.axis = .primary) (hverify : call.verify = true) (hbinds : w.Binds call blob)
    (hfans : w.FansOut call) (hverification : (w.metadataFetch call q.committee).VerifyDocumented)
    (hkeeps : Keeps w call q.committee cert lost liar sliverOf) :
    (∃ r, (w.readBlobNative call).result = .ok r ∧ r.content = blob) ∧
    ∀ maxNodeConnections, 0 < maxNodeConnections →
      weightOf q.committee lost < defaultMaxConcurrentRequests →
      ∀ silent : Fin q.committee.members.length → Nat → Bool,
        (∀ i place, silent i place = true → i ∈ lost) →
        ∀ metadata round excluded, (∀ node ∈ excluded, node = liar) → ∀ acts s,
          ((w.read call q.committee metadata).fetch excluded).PermittedRuns
            (readLimits maxNodeConnections) silent (w.sliverAnswers q.committee round) acts s →
          ((w.read call q.committee metadata).fetch excluded).CanReturn
            (readLimits maxNodeConnections) silent (w.sliverAnswers q.committee round) s := by
  have hsound := (hcert.sound hd hwhole).1
  refine ⟨?_, fun maxNodeConnections hconnections hfew silent hsilent metadata round excluded
    hexcluded acts s hrun => hkeeps.fanOut_returns hp hsound hlength haxis hconnections hfew
      hsilent hexcluded hrun⟩
  have hundisturbed : (w.metadataFetch call q.committee).Undisturbed w.start :=
    fun before i after _ hraises => absurd hraises (hkeeps.reachable i)
  have hfetch := (MetadataFetch.fetchVerifiedMetadata_course hverification
    w.start).end_of_undisturbed hundisturbed
  have hcourse := w.readBlobNative_course call
  generalize w.readBlobNative call = read at hcourse ⊢
  cases hcourse with
  | refused h => exact absurd hlength h
  | uncommitted h => exact nomatch (w.readCommittee_eq_ok.mpr hc).symm.trans h
  | undescribed hc' h =>
    obtain rfl := Except.ok.inj (hc.symm.trans hc')
    rcases hfetch with ⟨i, metadata, -, hok⟩ | ⟨hnone, -⟩
    · exact nomatch hok.symm.trans h
    · obtain ⟨i, metadata, hsupplies⟩ := hkeeps.exists_supplies hp hsound
      exact absurd hsupplies (hnone i metadata)
  | @reconstructed c metadata i hc' hsupplies _ =>
    obtain rfl := Except.ok.inj (hc.symm.trans hc')
    obtain ⟨orders, hreconstructs⟩ := hfans _ metadata hc
    obtain ⟨n, hresult⟩ := (hkeeps.oneFaulty hp hsound hlength haxis hsupplies).returns
      (hbinds _ metadata i hc hsupplies) hverify hreconstructs
    refine ⟨call.result q.committee (blob, n), ?_, rfl⟩
    dsimp only [ReadWorld.reconstruct]
    rw [Logged.result_mapLog, Logged.result_mapError, hresult]
    rfl

/-! ### The member with one shard is lost -/

private def smallBls : Bls where
  confirmationBytes _ _ _ := [5]
  aggregate _ := .ok [9]
  aggregateVerify _ _ _ := .ok true
  verify _ _ _ := .ok true

private def smallQuery : Confirm.Query where
  bls := smallBls
  committee := ReadWorld.smallCommittee
  blobId := ReadWorld.smallCall.blobId
  registration :=
    { objectId := "0x1", blobId := ReadWorld.smallCall.blobId, endEpoch := 9, deletable := false,
      digest := "" }
  positions := none
  answers i := .ok (if i = 0 then .ok (some ⟨[5], [1]⟩) else .failed "503")

private def smallPoll : Confirm.Poll where
  bls := smallBls
  committee := ReadWorld.smallCommittee
  expectedMessage := [5]
  candidates := ReadWorld.smallCommittee.members
  answers := smallQuery.answers

private def smallCertificate : Certificate := ⟨[5], [9], [1], [0], 3⟩

private def first : smallPoll.Request := ⟨0, by decide⟩

private def second : smallPoll.Request := ⟨1, by decide⟩

private def stragglerB : List (CommitteeFanout.Action smallPoll.Request PyExn
    (ExecuteOutcome Confirm.SignedConfirmation)) :=
  [.finish first (.returned (smallPoll.answers 0)), .wake [first], .closeGrace [] [second],
    .finish second .cancelled, .drained]

private theorem smallQuery_collects : Confirm.Collects smallQuery (.ok smallCertificate) := by
  obtain ⟨s, hrun, hexit, hreports, hfinish⟩ :
      ∃ s, CommitteeFanout.Runs smallPoll.callbacks (List.finRange smallPoll.candidates.length)
          .empty stragglerB s ∧ s.phase = .exited .returned ∧
        s.reports = [.completed first (.returned (smallPoll.answers 0)), .cancelled second] ∧
        smallPoll.finish s.acc = .ok smallCertificate := ⟨_, rfl, rfl, rfl, rfl⟩
  have hpoll : smallQuery.poll = .ok smallPoll := rfl
  refine hfinish ▸ .collected hpoll hrun hexit fun i r hr => ?_
  rw [hreports] at hr
  rcases List.mem_cons.mp hr with hr | hr
  · cases hr
    rfl
  · cases List.mem_singleton.mp hr

private def memberB : Fin ReadWorld.smallCommittee.members.length := ⟨1, by decide⟩

private def smallSliver (pairIndex : Int) : Bytes := [UInt8.ofNat pairIndex.toNat]

private theorem eq_zero_of_ne (i : Fin ReadWorld.smallCommittee.members.length)
    (h : i ≠ memberB) : i = ⟨0, by decide⟩ := by
  obtain ⟨_ | _ | n, hn⟩ := i
  · rfl
  · exact absurd rfl h
  · exact absurd hn (by simp [ReadWorld.smallCommittee])

private theorem small_pair {shard : Nat} {pair : Int} (hshard : shard < 3)
    (h : Redstuff.shardIndexToPairIndex shard ReadWorld.smallCall.blobId 4 = .ok pair) :
    pair = shard := by
  have hall : ∀ shard < 3, Redstuff.shardIndexToPairIndex (shard : Nat)
      ReadWorld.smallCall.blobId 4 = .ok ((shard : Nat) : Int) := by decide
  exact Except.ok.inj (h.symm.trans (hall shard hshard))

private theorem small_keeps :
    Keeps .small ReadWorld.smallCall ReadWorld.smallCommittee smallCertificate {memberB} "b"
      smallSliver where
  few := by decide
  liarLost := by decide
  metadata i _ hkept := by
    obtain rfl := eq_zero_of_ne i (by simpa using hkept)
    exact ⟨_, _, rfl, rfl, rfl⟩
  slivers i _ hkept round place shard command hplace hpair _ _ := by
    obtain rfl := eq_zero_of_ne i (by simpa using hkept)
    have hshard : [0, 1, 2][place]? = some shard := hplace
    have hlt : place < 3 := (List.getElem?_eq_some_iff.mp hshard).1
    have hplaces : ∀ place : Nat, place < 3 → ([0, 1, 2] : List Nat)[place]? = some place ∧
        ([[0], [1], [2]] : List Bytes)[place]? = some (smallSliver (place : Int)) := by
      decide
    obtain rfl : place = shard := Option.some.inj ((hplaces place hlt).1.symm.trans hshard)
    rw [small_pair hlt hpair, ← (hplaces place hlt).2]
    rfl
  honest j metadata _ round i hother sliver hsliver := by
    obtain rfl := eq_zero_of_ne i (by rintro rfl; exact hother rfl)
    have hserves : sliver ∈ [[0], [1], [2]] := hsliver
    have hgood : ∀ sliver ∈ ([[0], [1], [2]] : List Bytes),
        (ReadWorld.small.codec metadata .primary).verifies sliver = true := by
      simp only [List.forall_mem_cons]
      exact ⟨rfl, rfl, rfl, List.forall_mem_nil _⟩
    exact hgood sliver hserves
  distinct := by decide
  reachable i := by
    rintro ⟨exc, hexc⟩
    cases hexc

theorem readBlobNative_durable_small :
    ∃ r, (ReadWorld.small.readBlobNative ReadWorld.smallCall).result = .ok r ∧ r.content = [7] :=
  (readBlobNative_durable (by decide) (by decide) rfl smallQuery_collects rfl rfl rfl rfl
    ReadWorld.small_binds ReadWorld.small_fansOut (by rintro content exc h; cases h) small_keeps).1

end Pytusk.Pipelines
