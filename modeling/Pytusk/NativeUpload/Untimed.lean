import Pytusk.NativeUpload.Certify
import Pytusk.NativeUpload.Fanout

/-!
# Errors that carry no duration

A receipt takes the duration of Tx2 from the error that ended the write. What
the sliver fan-out and the collection of confirmations raise has none.
-/

namespace Pytusk

open Pytusk.Lib Pytusk.Certification

abbrev Untimed {α : Type} (x : Except PyExn α) : Prop :=
  OnlyRaises (fun e => e.duration = none) x

theorem untimed_error {α : Type} {e : PyExn} (h : e.duration = none) :
    Untimed (.error e : Except PyExn α) := onlyRaises_error h

/-! ## Certificates -/

theorem checkMessages_untimed (confirmations : List NodeConfirmation) (reference : Bytes) :
    Untimed (checkMessages confirmations reference) := by
  unfold checkMessages
  split
  · exact untimed_error rfl
  · exact onlyRaises_ok ()

theorem checkSignatures_untimed (bls : Bls) (confirmations : List NodeConfirmation)
    (reference : Bytes) : Untimed (checkSignatures bls confirmations reference) := by
  have hexclude : Untimed (excludeBad bls confirmations reference) := by
    unfold excludeBad
    dsimp only
    split
    · exact untimed_error rfl
    · split
      · exact untimed_error rfl
      · split
        · exact untimed_error rfl
        · exact onlyRaises_ok _
  unfold checkSignatures
  split
  · exact onlyRaises_ok _
  · exact hexclude

theorem assemble_untimed (signed : Signed) (committeeSize nShards : Nat) (reference : Bytes) :
    Untimed (assemble signed committeeSize nShards reference) := by
  refine (OnlyRaises.foldlM ?_ _ _).bind fun weighed _ => ?_
  · intro seen c
    unfold countWeight
    split
    · exact untimed_error rfl
    · exact onlyRaises_ok _
  · dsimp only
    split
    · refine (OnlyRaises.foldlM ?_ _ _).bind fun bitmap _ => onlyRaises_ok _
      intro bitmap position
      split
      · exact untimed_error rfl
      · exact onlyRaises_ok _
    · unfold quorumNotReached
      dsimp only
      split
      · exact untimed_error rfl
      · exact untimed_error rfl

theorem buildCertificate_untimed (bls : Bls) (confirmations : List NodeConfirmation)
    (committeeSize nShards : Nat) (expectedMessage : Option Bytes) :
    Untimed (buildCertificate bls confirmations committeeSize nShards expectedMessage) := by
  cases confirmations with
  | nil => exact untimed_error rfl
  | cons first rest =>
    refine (checkMessages_untimed _ _).bind fun _ _ => ?_
    exact (checkSignatures_untimed _ _ _).bind fun _ _ => assemble_untimed _ _ _ _

/-! ## Confirmations -/

/-- An exception of Python itself. -/
def PyExn.IsBuiltin (e : PyExn) : Prop := ∃ cls message, e = .builtin cls message

theorem objectIdToRawBytes_raises (objectId : String) :
    OnlyRaises PyExn.IsBuiltin (ObjectIds.objectIdToRawBytes objectId) := by
  unfold ObjectIds.objectIdToRawBytes
  split
  · exact onlyRaises_error ⟨_, _, rfl⟩
  · split
    · exact onlyRaises_error ⟨_, _, rfl⟩
    · exact onlyRaises_ok _

/-- Nothing that stops a collection before its requests is its own error. -/
theorem Confirm.Query.poll_raises (q : Confirm.Query) : OnlyRaises PyExn.IsBuiltin q.poll := by
  have hmessage : OnlyRaises PyExn.IsBuiltin q.expectedMessage := by
    unfold Confirm.Query.expectedMessage
    split
    · exact (objectIdToRawBytes_raises _).bind fun _ _ => onlyRaises_ok _
    · exact onlyRaises_ok _
  have hcandidates : OnlyRaises PyExn.IsBuiltin q.candidates := by
    unfold Confirm.Query.candidates
    split
    · exact onlyRaises_ok _
    · refine OnlyRaises.mapM fun position _ => ?_
      split
      · exact onlyRaises_ok _
      · exact onlyRaises_error ⟨_, _, rfl⟩
  exact hmessage.bind fun _ _ => hcandidates.bind fun _ _ => onlyRaises_ok _

theorem PyExn.IsBuiltin.isNativeUploadError {e : PyExn} (h : e.IsBuiltin) :
    e.isNativeUploadError = false := by
  obtain ⟨cls, message, rfl⟩ := h
  rfl

/-- Either a collection is stopped before its requests, and not by an error of
its own, or it ends as its machine does. -/
theorem NativeUpload.collectConfirmations_cases (w : World) (k : Nat) (maxRequests : Int)
    (committee : WalrusCommittee) (blobId : Bytes) (registration : Registration) :
    (∃ e : PyExn, e.isNativeUploadError = false ∧ collectConfirmations w k maxRequests
      committee blobId registration = Logged.raise e) ∨
    collectConfirmations w k maxRequests committee blobId registration =
      ⟨w.confirmations k,
        [.collecting k (confirmationQuery w k committee blobId registration)]⟩ := by
  unfold collectConfirmations
  dsimp only
  cases hpoll : (confirmationQuery w k committee blobId registration).poll with
  | error e =>
    exact .inl ⟨e, (Confirm.Query.poll_raises _ _ hpoll).isNativeUploadError, rfl⟩
  | ok poll =>
    rw [Logged.lift_ok_bind]
    by_cases hnegative : maxRequests < 0
    · rw [raiseIf, if_pos hnegative]
      exact .inl ⟨_, rfl, rfl⟩
    · rw [raiseIf, if_neg hnegative, Logged.lift_ok_bind]
      by_cases hstuck : maxRequests = 0 ∧ committee.members ≠ []
      · rw [raiseIf, if_pos hstuck]
        exact .inl ⟨_, rfl, rfl⟩
      · rw [raiseIf, if_neg hstuck]
        exact .inr rfl

theorem Confirm.Collects.untimed {q : Confirm.Query} {result : Except PyExn Certificate}
    (h : Confirm.Collects q result) : Untimed result := by
  cases h with
  | undispatched hpoll =>
    obtain ⟨cls, message, rfl⟩ := q.poll_raises _ hpoll
    exact untimed_error rfl
  | collected hpoll hrun hexit hans =>
    unfold Confirm.Poll.finish
    split
    · exact untimed_error rfl
    · split
      · exact untimed_error rfl
      · exact untimed_error rfl
      · exact untimed_error rfl
      · exact buildCertificate_untimed _ _ _ _ _

/-! ## Slivers -/

theorem memberForShard_untimed (committee : WalrusCommittee) (shardIndex : Nat) :
    Untimed (committee.memberForShard shardIndex) := by
  have hassign : ∀ table shard position,
      Untimed (WalrusCommittee.assignShard table shard position) := by
    intro table shard position
    unfold WalrusCommittee.assignShard
    split
    · exact onlyRaises_ok _
    · exact untimed_error rfl
  have hposition : Untimed (committee.positionForShard shardIndex) := by
    unfold WalrusCommittee.positionForShard
    split
    · exact untimed_error rfl
    · refine (OnlyRaises.foldlM (fun table m => ?_) _ _).bind fun table _ => ?_
      · exact OnlyRaises.foldlM (fun t shard => hassign t shard m.2) _ _
      · split
        · exact onlyRaises_ok _
        · exact untimed_error rfl
  refine hposition.bind fun position _ => ?_
  split
  · exact onlyRaises_ok _
  · exact untimed_error rfl

theorem SliverFanout.dispatched_untimed (u : SliverFanout.Upload) :
    Untimed (SliverFanout.dispatched u) := by
  unfold SliverFanout.dispatched
  split
  · exact untimed_error rfl
  · have hshards : Untimed (SliverFanout.shardsByNode u) := by
      refine (OnlyRaises.mapM fun shard _ => ?_).bind fun _ _ => onlyRaises_ok _
      exact (memberForShard_untimed u.committee shard).bind fun _ _ => onlyRaises_ok _
    refine hshards.bind fun shards _ => OnlyRaises.mapM fun nodeId _ => ?_
    unfold SliverFanout.memberByNodeId
    split
    · exact onlyRaises_ok _
    · exact untimed_error rfl

theorem SliverFanout.Uploads.untimed {u : SliverFanout.Upload}
    {result : Except PyExn SliverFanout.FanoutReport} (h : SliverFanout.Uploads u result) :
    Untimed result := by
  cases h with
  | undispatched hdispatched =>
    exact untimed_error (SliverFanout.dispatched_untimed u _ hdispatched)
  | uploaded hdispatched hrun hexit =>
    unfold SliverFanout.finish
    split
    · exact untimed_error rfl
    · exact onlyRaises_ok _

end Pytusk
