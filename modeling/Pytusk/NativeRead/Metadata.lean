import Pytusk.Encoding.Redstuff
import Pytusk.Lib.Logged
import Pytusk.Types.Protocols
import Mathlib.Data.List.FinRange
import Mathlib.Data.List.Rotate

/-!
# `native_read/metadata.py`: the metadata of a blob

The members are asked one after the other, from a random one on, until one
supplies metadata that verifies and is that of the blob. An answer may also be
an exception: `client.execute` converts only HTTP, TLS and socket errors.
-/

namespace Pytusk.NativeRead

open Pytusk.Lib

/-! ## Verification -/

/-- What a metadata read can raise. -/
inductive MetadataExn where
  | metadataFetchError (message stage : String)
  | metadataVerificationError (message : String)
  | raised (exc : PyExn)
  deriving DecidableEq, Repr

/-- The extension's handle on verified metadata. -/
structure MetadataHandle where
  blobId : Bytes
  unencodedLength : Nat
  nShards : Nat
  deriving DecidableEq, Repr

structure VerifiedBlobMetadata where
  blobId : Bytes
  unencodedLength : Nat
  nShards : Nat
  handle : MetadataHandle
  deriving DecidableEq, Repr

/-- `_METADATA_FAILURE_CODES` -/
def metadataFailureCodes : List String :=
  ["invalid_metadata_bcs", "blob_id_mismatch", "invalid_hash_count", "unencoded_length_too_large"]

/-- The extension's `redstuff_verify_metadata`. -/
abbrev RedstuffVerifyMetadata := Bytes → Nat → Except PyExn MetadataHandle

/-- `verify_blob_metadata`; the code of the extension's `ValueError` is its text. -/
def verifyBlobMetadata (redstuffVerifyMetadata : RedstuffVerifyMetadata) (metadataBcs : Bytes)
    (nShards : Nat) : Except MetadataExn VerifiedBlobMetadata :=
  if nShards < 1 then
    .error (.raised (.valueError s!"n_shards must be at least 1, got {nShards}"))
  else
    match redstuffVerifyMetadata metadataBcs nShards with
    | .ok handle => .ok {
        blobId := handle.blobId
        unencodedLength := handle.unencodedLength
        nShards := handle.nShards
        handle := handle }
    | .error exc =>
        let code := exc.message
        if exc.isValueError ∧ code ∈ metadataFailureCodes then
          .error (.metadataVerificationError s!"Blob metadata failed verification ({code})")
        else .error (.raised exc)

/-! ## The walk over the members -/

/-- One `ReadMetadata`, with the node it is sent to. -/
structure ReadMetadata where
  blobId : Bytes
  maxBytes : Option Nat
  baseUrl : String
  deriving DecidableEq, Repr

/-- The data of a successful result: a `MetadataData`, or some other object. -/
inductive NodePayload where
  | metadataData (content : Bytes)
  | other
  deriving DecidableEq, Repr

/-- `_METADATA_CAP_SLACK` -/
def metadataCapSlack : Nat := 4096

/-- What `fetch_verified_metadata` is called with, and how each node answers. -/
structure MetadataFetch where
  committee : WalrusCommittee
  blobId : Bytes
  redstuffVerifyMetadata : RedstuffVerifyMetadata
  answers : Fin committee.members.length → ExecuteOutcome NodePayload

namespace MetadataFetch

variable (f : MetadataFetch)

/-- A node, by its committee position. -/
abbrev Node := Fin f.committee.members.length

def member (i : f.Node) : WalrusCommitteeMember := f.committee.members.get i

/-- What the outside sees: the nodes that are asked, with the request. -/
abbrev Asked := f.Node × ReadMetadata

def request (i : f.Node) : f.Asked :=
  (i, {
    blobId := f.blobId
    maxBytes := some (Redstuff.metadataLength f.committee.nShards + metadataCapSlack)
    baseUrl := (f.member i).baseUrl })

/-- The body of the loop after the request: metadata to return, or none. -/
def consider (outcome : ExecuteOutcome NodePayload) :
    Except MetadataExn (Option VerifiedBlobMetadata) :=
  match outcome with
  | .error exc => .error (.raised exc)
  | .ok (.ok (some (.metadataData content))) =>
      match verifyBlobMetadata f.redstuffVerifyMetadata content f.committee.nShards with
      | .ok metadata => .ok (if metadata.blobId ≠ f.blobId then none else some metadata)
      | .error (.metadataVerificationError _) => .ok none
      | .error exc => .error exc
  | .ok _ => .ok none

/-- `members[(start + offset) % len(members)]`, offset by offset. -/
def order (start : Nat) : List f.Node :=
  (List.finRange f.committee.members.length).map fun (offset : f.Node) =>
    ⟨(start + offset) % f.committee.members.length, Nat.mod_lt _ offset.pos⟩

/-- The loop, over the nodes that are left; `attempts` were asked. -/
def tryNodes (attempts : Nat) : List f.Node → Logged f.Asked MetadataExn VerifiedBlobMetadata
  | [] =>
      let blobId := Redstuff.blobIdToUrlBase64 f.blobId
      Logged.raise (.metadataFetchError
        (s!"No storage node supplied verifiable metadata for blob {blobId} " ++
          s!"after {attempts} node(s)")
        "fetch_metadata")
  | i :: rest => do
      Logged.emit (f.request i)
      match ← Logged.lift (f.consider (f.answers i)) with
      | some metadata => return metadata
      | none => tryNodes (attempts + 1) rest

/-- `fetch_verified_metadata`, from the random `start` on. -/
def fetchVerifiedMetadata (start : Nat) : Logged f.Asked MetadataExn VerifiedBlobMetadata :=
  if f.committee.members = [] then
    Logged.raise (.metadataFetchError "Committee has no members to read metadata from"
      "fetch_metadata")
  else f.tryNodes 0 (f.order start)

/-! ## The order -/

/-- The nodes are asked around the committee, from `start` on. -/
theorem order_eq_rotate (start : Nat) :
    f.order start = (List.finRange f.committee.members.length).rotate start := by
  refine List.ext_getElem (by simp [order]) fun k _ _ => ?_
  rw [List.getElem_rotate]
  simp [order, Nat.add_comm]

theorem nodup_order (start : Nat) : (f.order start).Nodup := by
  rw [order_eq_rotate, List.nodup_rotate]
  exact List.nodup_finRange _

theorem mem_order (start : Nat) (i : f.Node) : i ∈ f.order start := by
  rw [order_eq_rotate, List.mem_rotate]
  exact List.mem_finRange i

/-! ## What a node does -/

/-- The node's answer carries verified metadata of the blob. -/
def Supplies (i : f.Node) (metadata : VerifiedBlobMetadata) : Prop :=
  ∃ content, f.answers i = .ok (.ok (some (.metadataData content))) ∧
    verifyBlobMetadata f.redstuffVerifyMetadata content f.committee.nShards = .ok metadata ∧
    metadata.blobId = f.blobId

/-- `client.execute` raises. -/
def Raises (i : f.Node) : Prop := ∃ exc, f.answers i = .error exc

/-- `verify_blob_metadata` returns or raises `MetadataVerificationError`. -/
def VerifyDocumented : Prop :=
  ∀ content exc, verifyBlobMetadata f.redstuffVerifyMetadata content f.committee.nShards =
    .error exc → ∃ message, exc = .metadataVerificationError message

variable {f}

theorem consider_eq_some {i : f.Node} {metadata : VerifiedBlobMetadata} :
    f.consider (f.answers i) = .ok (some metadata) ↔ f.Supplies i metadata := by
  unfold consider Supplies
  split
  · rename_i h
    simp [h]
  · rename_i content h
    simp only [h, Except.ok.injEq, SuiRpcResult.ok.injEq, Option.some.injEq,
      NodePayload.metadataData.injEq, exists_eq_left']
    split
    · rename_i found hfound
      simp only [Except.ok.injEq, ne_eq]
      grind
    · rename_i hfound
      simp [hfound]
    · rename_i hfound
      simp [hfound]
  · rename_i result hother h
    constructor
    · intro hnone
      cases hnone
    · rintro ⟨content, hcontent, -⟩
      rw [h] at hcontent
      cases hcontent
      exact absurd rfl (hother content)

theorem consider_eq_error (hverify : f.VerifyDocumented) {i : f.Node} {exc : MetadataExn} :
    f.consider (f.answers i) = .error exc ↔ ∃ e, f.answers i = .error e ∧ exc = .raised e := by
  unfold consider
  split
  · rename_i e h
    simp [h, eq_comm]
  · rename_i content h
    simp only [h, reduceCtorEq, false_and, exists_false, iff_false]
    split
    · simp
    · simp
    · rename_i e hne he
      obtain ⟨message, rfl⟩ := hverify content e he
      exact absurd rfl (hne message)
  · rename_i result _ h
    simp [h]

/-- A node that is passed over. -/
def Declines (i : f.Node) : Prop := f.consider (f.answers i) = .ok none

theorem Declines.not_raises {i : f.Node} (h : f.Declines i) : ¬ f.Raises i := by
  rintro ⟨exc, hraises⟩
  unfold Declines consider at h
  rw [hraises] at h
  cases h

theorem Declines.not_supplies {i : f.Node} (h : f.Declines i) (metadata : VerifiedBlobMetadata) :
    ¬ f.Supplies i metadata := by
  intro hsupplies
  have hsome := consider_eq_some.mpr hsupplies
  rw [h] at hsome
  cases hsome

theorem not_raises_of_supplies {i : f.Node} {metadata : VerifiedBlobMetadata}
    (h : f.Supplies i metadata) : ¬ f.Raises i := by
  obtain ⟨content, hanswer, -⟩ := h
  rintro ⟨exc, hraises⟩
  rw [hanswer] at hraises
  cases hraises

/-! ## How a walk goes -/

/-- The nodes before the last one asked decline; it supplies, or raises, or
there is none left. -/
inductive Course (f : MetadataFetch) :
    List f.Node → Logged f.Asked MetadataExn VerifiedBlobMetadata → Prop where
  | served {before after : List f.Node} {i : f.Node} {metadata : VerifiedBlobMetadata}
      (hbefore : ∀ j ∈ before, f.Declines j) (hsupplies : f.Supplies i metadata) :
      Course f (before ++ i :: after) ⟨.ok metadata, (before ++ [i]).map f.request⟩
  | aborted {before after : List f.Node} {i : f.Node} {exc : PyExn}
      (hbefore : ∀ j ∈ before, f.Declines j) (hraises : f.answers i = .error exc) :
      Course f (before ++ i :: after) ⟨.error (.raised exc), (before ++ [i]).map f.request⟩
  | exhausted {nodes : List f.Node} {message : String} (hnodes : ∀ j ∈ nodes, f.Declines j) :
      Course f nodes ⟨.error (.metadataFetchError message "fetch_metadata"),
        nodes.map f.request⟩

/-- A node that declines, before the others. -/
theorem Course.cons {nodes : List f.Node} {i : f.Node}
    {x : Logged f.Asked MetadataExn VerifiedBlobMetadata} (hi : f.Declines i)
    (h : Course f nodes x) : Course f (i :: nodes) (x.after [f.request i]) := by
  cases h with
  | served hbefore hsupplies =>
    rw [Logged.after_mk]
    exact .served (List.forall_mem_cons.mpr ⟨hi, hbefore⟩) hsupplies
  | aborted hbefore hraises =>
    rw [Logged.after_mk]
    exact .aborted (List.forall_mem_cons.mpr ⟨hi, hbefore⟩) hraises
  | exhausted hnodes =>
    rw [Logged.after_mk]
    exact .exhausted (List.forall_mem_cons.mpr ⟨hi, hnodes⟩)

theorem tryNodes_course (hverify : f.VerifyDocumented) (attempts : Nat) (nodes : List f.Node) :
    Course f nodes (f.tryNodes attempts nodes) := by
  induction nodes generalizing attempts with
  | nil => exact .exhausted (by simp)
  | cons i rest ih =>
    rw [tryNodes, Logged.emit_bind]
    cases hconsider : f.consider (f.answers i) with
    | error exc =>
      obtain ⟨e, hraises, rfl⟩ := (consider_eq_error hverify).mp hconsider
      exact @Course.aborted f [] rest i e (by simp) hraises
    | ok found =>
      cases found with
      | none => exact (ih (attempts + 1)).cons hconsider
      | some metadata =>
        exact @Course.served f [] rest i metadata (by simp) (consider_eq_some.mp hconsider)

theorem fetchVerifiedMetadata_course (hverify : f.VerifyDocumented) (start : Nat) :
    Course f (f.order start) (f.fetchVerifiedMetadata start) := by
  unfold fetchVerifiedMetadata
  split
  · rename_i hmembers
    have horder : f.order start = [] := by
      simp [order_eq_rotate, List.finRange_eq_nil_iff, hmembers]
    rw [horder]
    exact .exhausted (by simp)
  · exact tryNodes_course hverify 0 _

/-- Metadata that is returned is what the last node asked supplied. -/
theorem tryNodes_eq_ok {attempts : Nat} {nodes : List f.Node} {metadata : VerifiedBlobMetadata}
    (h : (f.tryNodes attempts nodes).result = .ok metadata) :
    ∃ asked i, (f.tryNodes attempts nodes).log = asked ++ [f.request i] ∧
      f.Supplies i metadata := by
  induction nodes generalizing attempts with
  | nil => cases h
  | cons i rest ih =>
    rw [tryNodes, Logged.emit_bind] at h ⊢
    cases hconsider : f.consider (f.answers i) with
    | error exc =>
      rw [hconsider] at h
      cases h
    | ok found =>
      rw [hconsider] at h
      cases found with
      | some supplied =>
        cases h
        exact ⟨[], i, rfl, consider_eq_some.mp hconsider⟩
      | none =>
        obtain ⟨asked, j, hlog, hsupplies⟩ := ih h
        refine ⟨f.request i :: asked, j, ?_, hsupplies⟩
        show f.request i :: (f.tryNodes (attempts + 1) rest).log = _
        rw [hlog]
        rfl

theorem fetchVerifiedMetadata_eq_ok {start : Nat} {metadata : VerifiedBlobMetadata}
    (h : (f.fetchVerifiedMetadata start).result = .ok metadata) :
    ∃ asked i, (f.fetchVerifiedMetadata start).log = asked ++ [f.request i] ∧
      f.Supplies i metadata := by
  unfold fetchVerifiedMetadata at h ⊢
  split at h
  · cases h
  · rename_i hmembers
    rw [if_neg hmembers]
    exact tryNodes_eq_ok h

/-! ## What a fetch owes -/

/-- The members are asked in cyclic order and once at most, what is returned is
verified metadata of the blob, and only `MetadataFetchError` is raised, exactly
when no member supplies any. -/
structure Serves (f : MetadataFetch) (start : Nat) : Prop where
  asked : (f.fetchVerifiedMetadata start).log.map Prod.fst <+:
    (List.finRange f.committee.members.length).rotate start
  once : ((f.fetchVerifiedMetadata start).log.map Prod.fst).Nodup
  returned : ∀ metadata, (f.fetchVerifiedMetadata start).result = .ok metadata →
    metadata.blobId = f.blobId ∧ ∃ content,
      verifyBlobMetadata f.redstuffVerifyMetadata content f.committee.nShards = .ok metadata
  raises : (∃ exc, (f.fetchVerifiedMetadata start).result = .error exc) ↔
    ∀ i metadata, ¬ f.Supplies i metadata
  only : ∀ exc, (f.fetchVerifiedMetadata start).result = .error exc →
    ∃ message, exc = .metadataFetchError message "fetch_metadata"

/-- In cyclic order, a node whose `execute` raises comes after one that
supplies metadata. -/
def Undisturbed (f : MetadataFetch) (start : Nat) : Prop :=
  ∀ before i after, f.order start = before ++ i :: after → f.Raises i →
    ∃ j ∈ before, ∃ metadata, f.Supplies j metadata

theorem Course.log_prefix {nodes : List f.Node}
    {x : Logged f.Asked MetadataExn VerifiedBlobMetadata} (h : Course f nodes x) :
    x.log.map Prod.fst <+: nodes := by
  have hfst (asked : List f.Node) : (asked.map f.request).map Prod.fst = asked := by
    rw [List.map_map]
    exact List.map_id' asked
  cases h with
  | @served before after i metadata hbefore hsupplies =>
    rw [hfst]
    exact ⟨after, by simp⟩
  | @aborted before after i exc hbefore hraises =>
    rw [hfst]
    exact ⟨after, by simp⟩
  | exhausted hnodes => rw [hfst]

/-- Of two nodes in one list, one supplies after only declining nodes: it comes
before one that raises. -/
theorem mem_of_served {before after before' after' : List f.Node} {i i' : f.Node}
    {metadata : VerifiedBlobMetadata} (horder : before ++ i :: after = before' ++ i' :: after')
    (hraises : f.Raises i) (hbefore' : ∀ j ∈ before', f.Declines j)
    (hsupplies : f.Supplies i' metadata) : i' ∈ before := by
  rcases List.append_eq_append_iff.mp horder with ⟨rest, hbefore, hrest⟩ | ⟨rest, hbefore, hrest⟩
  · cases rest with
    | nil =>
      cases hrest
      exact absurd hraises (not_raises_of_supplies hsupplies)
    | cons head rest =>
      cases hrest
      exact absurd hraises (hbefore' i (by simp [hbefore])).not_raises
  · cases rest with
    | nil =>
      cases hrest
      exact absurd hraises (not_raises_of_supplies hsupplies)
    | cons head rest =>
      cases hrest
      simp [hbefore]

/-- No exception out of `execute` ends an undisturbed walk. -/
theorem Course.end_of_undisturbed {start : Nat}
    {x : Logged f.Asked MetadataExn VerifiedBlobMetadata} (h : Course f (f.order start) x)
    (hundisturbed : f.Undisturbed start) :
    (∃ i metadata, f.Supplies i metadata ∧ x.result = .ok metadata) ∨
      (∀ i metadata, ¬ f.Supplies i metadata) ∧
        ∃ message, x.result = .error (.metadataFetchError message "fetch_metadata") := by
  have hmem := f.mem_order start
  unfold Undisturbed at hundisturbed
  generalize f.order start = nodes at h hundisturbed hmem
  cases h with
  | @served before after i metadata hbefore hsupplies => exact .inl ⟨i, metadata, hsupplies, rfl⟩
  | @aborted before after i exc hbefore hraises =>
    obtain ⟨j, hj, metadata, hsupplies⟩ := hundisturbed before i after rfl ⟨exc, hraises⟩
    exact absurd hsupplies ((hbefore j hj).not_supplies metadata)
  | exhausted hdecline =>
    exact .inr ⟨fun i metadata => (hdecline i (hmem i)).not_supplies metadata, _, rfl⟩

/-- **A fetch does what it owes** exactly when no exception out of `execute`
precedes the first metadata. -/
theorem fetchVerifiedMetadata_serves_iff (f : MetadataFetch) (start : Nat)
    (hverify : f.VerifyDocumented) : f.Serves start ↔ f.Undisturbed start := by
  have hcourse := fetchVerifiedMetadata_course hverify start
  constructor
  · intro hserves before i after horder hraises
    have honly := hserves.only
    generalize hnodes : f.order start = nodes at hcourse horder
    generalize f.fetchVerifiedMetadata start = x at hcourse honly
    cases hcourse with
    | @served before' after' i' metadata hbefore' hsupplies =>
      exact ⟨i', mem_of_served horder.symm hraises hbefore' hsupplies, metadata, hsupplies⟩
    | aborted _ _ =>
      obtain ⟨message, h⟩ := honly _ rfl
      cases h
    | exhausted hdecline =>
      exact absurd hraises (hdecline i (by simp [horder])).not_raises
  · intro hundisturbed
    have hend := hcourse.end_of_undisturbed hundisturbed
    refine {
      asked := f.order_eq_rotate start ▸ hcourse.log_prefix
      once := (f.nodup_order start).sublist hcourse.log_prefix.sublist
      returned := ?_
      raises := ?_
      only := ?_ }
    · intro metadata hresult
      rcases hend with ⟨i, found, ⟨content, -, hverified, hblobId⟩, hfound⟩ | ⟨-, message, herror⟩
      · rw [hfound] at hresult
        cases hresult
        exact ⟨hblobId, content, hverified⟩
      · rw [herror] at hresult
        cases hresult
    · rcases hend with ⟨i, found, hsupplies, hfound⟩ | ⟨hnone, message, herror⟩
      · constructor
        · rintro ⟨exc, hresult⟩
          rw [hfound] at hresult
          cases hresult
        · intro hnone
          exact absurd hsupplies (hnone i found)
      · exact ⟨fun _ => hnone, fun _ => ⟨_, herror⟩⟩
    · intro exc hresult
      rcases hend with ⟨i, found, -, hfound⟩ | ⟨-, message, herror⟩
      · rw [hfound] at hresult
        cases hresult
      · rw [herror] at hresult
        cases hresult
        exact ⟨message, rfl⟩

/-! ### An unusable address before a node that serves -/

private def twoNodes (first : ExecuteOutcome NodePayload) : MetadataFetch where
  committee := ⟨1, 1, [⟨"a", [0], "a\x01b", []⟩, ⟨"b", [], "b:1", []⟩]⟩
  blobId := [7]
  redstuffVerifyMetadata content nShards := .ok ⟨content, 1, nShards⟩
  answers
    | ⟨0, _⟩ => first
    | _ => .ok (.ok (some (.metadataData [7])))

private def invalidURL : PyExn :=
  .builtin .exception "Invalid non-printable ASCII character in URL, '\\x01' at position 9."

private theorem twoNodes_verify (first : ExecuteOutcome NodePayload) :
    (twoNodes first).VerifyDocumented := by
  intro content exc h
  cases h

private theorem twoNodes_supplies (first : ExecuteOutcome NodePayload) :
    (twoNodes first).Supplies ⟨1, show 1 < 2 by decide⟩ ⟨[7], 1, 1, ⟨[7], 1, 1⟩⟩ :=
  ⟨[7], rfl, rfl, rfl⟩

theorem fetchVerifiedMetadata_serves_failed :
    (twoNodes (.ok (.failed "ConnectError"))).VerifyDocumented ∧
      (twoNodes (.ok (.failed "ConnectError"))).Serves 0 := by
  refine ⟨twoNodes_verify _,
    (fetchVerifiedMetadata_serves_iff _ 0 (twoNodes_verify _)).mpr fun before i after _ h => ?_⟩
  obtain ⟨exc, hraises⟩ := h
  match i, hraises with
  | ⟨0, _⟩, hraises => cases hraises
  | ⟨1, _⟩, hraises => cases hraises

theorem fetchVerifiedMetadata_invalidURL :
    ((twoNodes (.error invalidURL)).fetchVerifiedMetadata 0).result =
        .error (.raised invalidURL) ∧
      (∃ i metadata, (twoNodes (.error invalidURL)).Supplies i metadata) ∧
      ¬ ∀ (f : MetadataFetch) (start : Nat), f.VerifyDocumented → f.Serves start := by
  have hresult : ((twoNodes (.error invalidURL)).fetchVerifiedMetadata 0).result =
      .error (.raised invalidURL) := rfl
  refine ⟨hresult, ⟨_, _, twoNodes_supplies _⟩, fun h => ?_⟩
  obtain ⟨message, hother⟩ := (h _ 0 (twoNodes_verify _)).only _ hresult
  cases hother

end MetadataFetch

end Pytusk.NativeRead
