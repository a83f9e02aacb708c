import Pytusk.NativeRead.Metadata
import Pytusk.NativeRead.Tolerance
import Pytusk.Ops.SystemReads

/-!
# `pipelines/read.py`: reading a blob from the storage nodes

The committee, the metadata of the blob, and the reconstruction from slivers,
in that order. Nothing is caught but what the committee read raises.
-/

namespace Pytusk.Pipelines

open Pytusk.Lib Pytusk.NativeRead

/-- What a native read can raise. -/
inductive NativeReadExn where
  | raised (exc : PyExn)
  | nativeReadError (message stage : String)
  | metadata (exc : MetadataExn)
  | slivers (exc : ReadExn)
  deriving DecidableEq, Repr

/-- The errors of the docstring. -/
inductive NativeReadExn.Named : NativeReadExn → Prop where
  | valueError {message} : Named (.raised (.valueError message))
  | nativeReadError {message} : Named (.nativeReadError message "committee")
  | metadataFetchError {message} : Named (.metadata (.metadataFetchError message "fetch_metadata"))
  | sliverFetchError {message} : Named (.slivers (.sliverFetchError message "fetch_slivers"))
  | blobDecodeError {message} : Named (.slivers (.blobDecodeError message))

structure NativeReadResult where
  content : Bytes
  blobId : Bytes
  epoch : Nat
  axis : Axis
  sliversUsed : Nat
  deriving DecidableEq, Repr

/-- What an outside observer sees: the chain read, the metadata requests with
the position of the member asked, and the steps of the reconstruction. -/
inductive ReadEvent where
  | committee
  | metadata (position : Nat) (request : ReadMetadata)
  | slivers (event : NativeRead.Event)
  deriving DecidableEq, Repr

/-- What the outside answers to a read: the chain, the extension, the nodes
(asked for slivers in either round), and what the sliver fan-outs end in. -/
structure ReadWorld where
  committee : Except PyExn WalrusCommittee
  start : Nat
  redstuffVerifyMetadata : RedstuffVerifyMetadata
  codec : VerifiedBlobMetadata → Axis → Codec
  metadataAnswers : (c : WalrusCommittee) → Fin c.members.length → ExecuteOutcome NodePayload
  sliverAnswers : (c : WalrusCommittee) → Nat → Fin c.members.length → Nat → ReadSliver →
    ExecuteOutcome Bytes
  rounds : Read → Nat → Except ReadExn (List Attributed)

/-- The arguments of `read_blob_native`, less the timings. -/
structure ReadCall where
  blobId : Bytes
  axis : Axis := .primary
  verify : Bool := true
  deriving DecidableEq, Repr

def ReadCall.result (call : ReadCall) (c : WalrusCommittee) (reconstructed : Bytes × Nat) :
    NativeReadResult :=
  let (content, sliversUsed) := reconstructed
  {
    content := content
    blobId := call.blobId
    epoch := c.epoch
    axis := call.axis
    sliversUsed := sliversUsed }

/-- The slivers a decoder needs along an axis. -/
def decodingThreshold (axis : Axis) (nShards : Nat) : Nat :=
  let (primaryThreshold, secondaryThreshold) := Redstuff.sourceSymbolCounts nShards
  (match axis with
    | .primary => primaryThreshold
    | .secondary => secondaryThreshold).toNat

namespace ReadWorld

variable (w : ReadWorld) (call : ReadCall)

/-- The call of `fetch_verified_metadata`. -/
def metadataFetch (c : WalrusCommittee) : MetadataFetch where
  committee := c
  blobId := call.blobId
  redstuffVerifyMetadata := w.redstuffVerifyMetadata
  answers := w.metadataAnswers c

/-- The call of `reconstruct_blob`. -/
def read (c : WalrusCommittee) (metadata : VerifiedBlobMetadata) : Read where
  committee := c
  blobId := call.blobId
  axis := call.axis
  threshold := decodingThreshold call.axis c.nShards
  metadata := ⟨metadata.nShards, metadata.unencodedLength⟩
  verify := call.verify
  codec := w.codec metadata call.axis

/-- `client.committee()` under its `try`. -/
def readCommittee : Except NativeReadExn WalrusCommittee :=
  match w.committee with
  | .ok committee => .ok committee
  | .error exc =>
      .error (if Ops.isReadError exc then .nativeReadError exc.message "committee" else .raised exc)

def fetchMetadata (c : WalrusCommittee) : Logged ReadEvent NativeReadExn VerifiedBlobMetadata :=
  (((w.metadataFetch call c).fetchVerifiedMetadata w.start).mapError .metadata).mapLog
    fun asked => .metadata asked.1 asked.2

def reconstruct (c : WalrusCommittee) (metadata : VerifiedBlobMetadata) :
    Logged ReadEvent NativeReadExn (Bytes × Nat) :=
  (((w.read call c metadata).reconstructBlob (w.rounds (w.read call c metadata))).mapError
    .slivers).mapLog .slivers

/-- `read_blob_native` -/
def readBlobNative : Logged ReadEvent NativeReadExn NativeReadResult :=
  if call.blobId.length ≠ 32 then
    Logged.raise (.raised (.valueError s!"blob_id must be 32 bytes, got {call.blobId.length}"))
  else do
    Logged.emit .committee
    let committee ← Logged.lift w.readCommittee
    let metadata ← w.fetchMetadata call committee
    return call.result committee (← w.reconstruct call committee metadata)

/-! ## How a read goes -/

/-- Refused before any request, left without a committee or without metadata, or
reconstructed on the metadata that the last node asked supplied. -/
inductive Course (w : ReadWorld) (call : ReadCall) :
    Logged ReadEvent NativeReadExn NativeReadResult → Prop where
  | refused (h : call.blobId.length ≠ 32) :
      Course w call
        ⟨.error (.raised (.valueError s!"blob_id must be 32 bytes, got {call.blobId.length}")), []⟩
  | uncommitted {exc} (h : w.readCommittee = .error exc) :
      Course w call ⟨.error exc, [.committee]⟩
  | undescribed {c exc} (hc : w.committee = .ok c)
      (h : ((w.metadataFetch call c).fetchVerifiedMetadata w.start).result = .error exc) :
      Course w call ⟨.error (.metadata exc), .committee :: (w.fetchMetadata call c).log⟩
  | reconstructed {c metadata i} (hc : w.committee = .ok c)
      (hsupplies : (w.metadataFetch call c).Supplies i metadata)
      (hasked : .metadata i ((w.metadataFetch call c).request i).2 ∈ (w.fetchMetadata call c).log) :
      Course w call
        ⟨(w.reconstruct call c metadata).result.map (call.result c),
          .committee :: (w.fetchMetadata call c).log ++ (w.reconstruct call c metadata).log⟩

theorem readCommittee_eq_ok {c : WalrusCommittee} :
    w.readCommittee = .ok c ↔ w.committee = .ok c := by
  unfold readCommittee
  cases w.committee with
  | error exc => simp
  | ok committee => simp

/-- What follows the metadata. -/
private theorem course_of_metadata {c : WalrusCommittee} {metadata : VerifiedBlobMetadata}
    (hc : w.committee = .ok c)
    (h : ((w.metadataFetch call c).fetchVerifiedMetadata w.start).result = .ok metadata) :
    Course w call ((w.reconstruct call c metadata >>= fun reconstructed =>
      pure (call.result c reconstructed)).after (.committee :: (w.fetchMetadata call c).log)) := by
  obtain ⟨asked, i, hlog, hsupplies⟩ := MetadataFetch.fetchVerifiedMetadata_eq_ok h
  have hasked : .metadata i ((w.metadataFetch call c).request i).2 ∈
      (w.fetchMetadata call c).log := by
    unfold fetchMetadata
    rw [Logged.log_mapLog, Logged.log_mapError, hlog]
    exact List.mem_map.mpr ⟨_, List.mem_append_right _ (List.mem_singleton.mpr rfl), rfl⟩
  have hcourse := Course.reconstructed hc hsupplies hasked
  generalize w.reconstruct call c metadata = reconstruction at hcourse ⊢
  obtain ⟨result, log⟩ := reconstruction
  cases result with
  | error exc => exact hcourse
  | ok content =>
    rw [Logged.mk_ok_bind, Logged.pure_eq_mk, Logged.after_mk, Logged.after_mk, List.append_nil]
    exact hcourse

theorem readBlobNative_course : Course w call (w.readBlobNative call) := by
  unfold readBlobNative
  split
  · rename_i hlength
    exact .refused hlength
  · rw [Logged.emit_bind]
    cases hcommittee : w.readCommittee with
    | error exc => exact .uncommitted hcommittee
    | ok c =>
      have hc := w.readCommittee_eq_ok.mp hcommittee
      rw [Logged.lift_ok_bind]
      cases hfetch : ((w.metadataFetch call c).fetchVerifiedMetadata w.start).result with
      | error exc =>
        have hmetadata : w.fetchMetadata call c =
            ⟨.error (.metadata exc), (w.fetchMetadata call c).log⟩ := by
          unfold fetchMetadata Logged.mapLog Logged.mapError
          rw [hfetch]
          rfl
        rw [hmetadata, Logged.mk_error_bind]
        exact .undescribed hc hfetch
      | ok metadata =>
        have hmetadata : w.fetchMetadata call c = ⟨.ok metadata, (w.fetchMetadata call c).log⟩ := by
          unfold fetchMetadata Logged.mapLog Logged.mapError
          rw [hfetch]
          rfl
        rw [hmetadata, Logged.mk_ok_bind]
        exact w.course_of_metadata call hc hfetch

/-! ## What a read owes -/

/-- The rounds of a reconstruction are what its fan-outs end in, in whatever
order the nodes answer. -/
def FansOut : Prop :=
  ∀ c metadata, w.committee = .ok c → ∃ orders,
    (w.read call c metadata).Reconstructs (w.sliverAnswers c) orders
      (w.rounds (w.read call c metadata))

/-- Metadata that verifies under the id of the blob makes the decoder that of
the blob. -/
def Binds (blob : Bytes) : Prop :=
  ∀ c metadata i, w.committee = .ok c → (w.metadataFetch call c).Supplies i metadata →
    (w.codec metadata call.axis).Ideal blob (decodingThreshold call.axis c.nShards)

/-- The committee read, the verification and the requests for metadata raise
nothing but what they document. -/
structure Documented : Prop where
  committee : ∀ exc, w.committee = .error exc → Ops.isReadError exc = true
  verification : ∀ c, (w.metadataFetch call c).VerifyDocumented
  requests : ∀ c i, ¬ (w.metadataFetch call c).Raises i

/-- No sliver is asked for before a node supplied metadata of the blob. -/
def Phased (log : List ReadEvent) : Prop :=
  ∀ before event after, log = before ++ .slivers event :: after → ∃ c i metadata,
    w.committee = .ok c ∧ (w.metadataFetch call c).Supplies i metadata ∧
      .metadata i ((w.metadataFetch call c).request i).2 ∈ before

/-- What is returned is the blob, from a full threshold of slivers of the
committee's epoch; what is raised is named; the phases come in order. -/
structure Faithful (blob : Bytes) : Prop where
  returned : ∀ r, (w.readBlobNative call).result = .ok r → ∃ c, w.committee = .ok c ∧
    r.content = blob ∧ r.blobId = call.blobId ∧ r.epoch = c.epoch ∧ r.axis = call.axis ∧
      decodingThreshold call.axis c.nShards ≤ r.sliversUsed
  raised : w.Documented call → ∀ exc, (w.readBlobNative call).result = .error exc → exc.Named
  phased : w.Phased call (w.readBlobNative call).log

variable {w call}

/-- What a reconstruction returns or raises, on metadata of the blob. -/
private theorem reconstruct_ends {blob : Bytes} {c : WalrusCommittee}
    {metadata : VerifiedBlobMetadata}
    (ideal : (w.codec metadata call.axis).Ideal blob (decodingThreshold call.axis c.nShards))
    (hc : w.committee = .ok c) (hfans : w.FansOut call) (hverify : call.verify = true) :
    Logged.EndsIn NativeReadExn.Named
      (fun content => content.1 = blob ∧ decodingThreshold call.axis c.nShards ≤ content.2)
      (w.reconstruct call c metadata).result := by
  obtain ⟨orders, hreconstructs⟩ := hfans c metadata hc
  have hends := hreconstructs.ends ideal hverify
  have hcontent := (hreconstructs.safe ideal hverify).2.2
  unfold reconstruct
  rw [Logged.result_mapLog, Logged.result_mapError]
  revert hends hcontent
  cases ((w.read call c metadata).reconstructBlob (w.rounds (w.read call c metadata))).result with
  | ok content => exact fun hends hcontent => ⟨hcontent _ _ rfl, hends⟩
  | error exc =>
    rintro (⟨message, rfl⟩ | ⟨message, rfl⟩) -
    · exact .sliverFetchError
    · exact .blobDecodeError

/-- A fetch that documents what it raises raises `MetadataFetchError`. -/
private theorem named_of_fetch {c : WalrusCommittee} {exc : MetadataExn}
    (hdocumented : w.Documented call)
    (h : ((w.metadataFetch call c).fetchVerifiedMetadata w.start).result = .error exc) :
    (NativeReadExn.metadata exc).Named := by
  have hcourse := MetadataFetch.fetchVerifiedMetadata_course (hdocumented.verification c) w.start
  have hundisturbed : (w.metadataFetch call c).Undisturbed w.start :=
    fun before i after _ hraises => absurd hraises (hdocumented.requests c i)
  rcases hcourse.end_of_undisturbed hundisturbed with ⟨i, metadata, -, hok⟩ | ⟨-, message, herr⟩
  · exact nomatch hok.symm.trans h
  · obtain rfl := Except.error.inj (herr.symm.trans h)
    exact .metadataFetchError

/-- A committee read that documents what it raises is named. -/
private theorem named_of_committee {exc : NativeReadExn} (hdocumented : w.Documented call)
    (h : w.readCommittee = .error exc) : exc.Named := by
  unfold readCommittee at h
  cases hcommittee : w.committee with
  | ok c =>
    rw [hcommittee] at h
    cases h
  | error raised =>
    rw [hcommittee] at h
    dsimp only at h
    rw [if_pos (hdocumented.committee raised hcommittee)] at h
    cases h
    exact .nativeReadError

private theorem slivers_notMem_fetchMetadata {c : WalrusCommittee} (event : NativeRead.Event) :
    ReadEvent.slivers event ∉ ReadEvent.committee :: (w.fetchMetadata call c).log := by
  simp [fetchMetadata]

/-- What stands before an element that a list does not have, in the list and
what follows it, begins with the list. -/
private theorem prefix_of_notMem {α : Type*} {front back before after : List α} {a : α}
    (ha : a ∉ front) (h : front ++ back = before ++ a :: after) : front <+: before := by
  rcases List.append_eq_append_iff.mp h with ⟨rest, rfl, -⟩ | ⟨rest, rfl, hrest⟩
  · exact List.prefix_append _ _
  · cases rest with
    | nil => simp
    | cons head rest =>
      obtain ⟨rfl, -⟩ := List.cons.inj hrest
      exact absurd (by simp) ha

/-- **A native read is faithful**, whatever the nodes answer and in whatever
order: it returns the blob of the id or raises what it names, and asks no node
for slivers until one supplied verified metadata of that blob. -/
theorem readBlobNative_faithful {blob : Bytes} (hbinds : w.Binds call blob)
    (hfans : w.FansOut call) (hverify : call.verify = true) : w.Faithful call blob := by
  have hcourse := w.readBlobNative_course call
  constructor
  · intro r hresult
    revert hcourse
    generalize w.readBlobNative call = read at hresult ⊢
    intro hcourse
    cases hcourse with
    | refused _ => cases hresult
    | uncommitted _ => cases hresult
    | undescribed _ _ => cases hresult
    | @reconstructed c metadata i hc hsupplies _ =>
      have hends := reconstruct_ends (hbinds c metadata i hc hsupplies) hc hfans hverify
      revert hends hresult
      cases (w.reconstruct call c metadata).result with
      | error exc => exact fun hresult => nomatch hresult
      | ok content =>
        rintro ⟨rfl⟩ ⟨hcontent, henough⟩
        exact ⟨c, hc, hcontent, rfl, rfl, rfl, henough⟩
  · intro hdocumented exc hresult
    generalize w.readBlobNative call = read at hcourse hresult
    cases hcourse with
    | refused _ =>
      cases hresult
      exact .valueError
    | uncommitted h =>
      cases hresult
      exact named_of_committee hdocumented h
    | undescribed hc h =>
      cases hresult
      exact named_of_fetch hdocumented h
    | @reconstructed c metadata i hc hsupplies _ =>
      have hends := reconstruct_ends (hbinds c metadata i hc hsupplies) hc hfans hverify
      dsimp only at hresult
      generalize (w.reconstruct call c metadata).result = result at hends hresult
      cases result with
      | ok content => cases hresult
      | error exc =>
        cases hresult
        exact hends
  · intro before event after hlog
    have hmem : .slivers event ∈ (w.readBlobNative call).log := by
      rw [hlog]
      simp
    generalize w.readBlobNative call = read at hcourse hlog hmem
    cases hcourse with
    | refused _ => simp at hmem
    | uncommitted _ => simp at hmem
    | undescribed _ _ => exact absurd hmem (slivers_notMem_fetchMetadata event)
    | @reconstructed c metadata i hc hsupplies hasked =>
      refine ⟨c, i, metadata, hc, hsupplies, ?_⟩
      have hprefix := prefix_of_notMem (slivers_notMem_fetchMetadata event) hlog
      exact hprefix.subset (List.mem_cons_of_mem _ hasked)

/-! ### Two members, one of which answers -/

def smallCommittee : WalrusCommittee :=
  ⟨1, 4, [⟨"a", [0, 1, 2], "a:1", [5]⟩, ⟨"b", [3], "b:1", [6]⟩]⟩

private def smallCodec : Codec where
  decodeBlob slivers _ :=
    if (∀ s ∈ slivers, [[0], [1], [2], [3]].contains s) ∧ 2 ≤ slivers.length then .ok [7]
    else .error (.blobDecodeError "unusable slivers")
  verifySliver sliver :=
    if [[0], [1], [2], [3]].contains sliver then .ok ()
    else .error (.sliverVerificationError "unusable sliver")

private def smallSliverAnswers (c : WalrusCommittee) (_round : Nat) (i : Fin c.members.length)
    (place : Nat) (_command : ReadSliver) : ExecuteOutcome Bytes :=
  .ok (if i.val = 0 then .ok ([[0], [1], [2]][place]?) else .failed "503")

private def onlyFirst (r : Read) : List r.Node :=
  (List.finRange r.committee.members.length).filter fun i => i.val = 0

def small : ReadWorld where
  committee := .ok smallCommittee
  start := 0
  redstuffVerifyMetadata content nShards := .ok ⟨content, 1, nShards⟩
  codec _ _ := smallCodec
  metadataAnswers _ i :=
    .ok (if i.val = 0 then .ok (some (.metadataData (List.replicate 32 0))) else .failed "503")
  sliverAnswers := smallSliverAnswers
  rounds r round := (r.fetch []).finish
    ((r.fetch []).collect (smallSliverAnswers r.committee round) (onlyFirst r))

def smallCall : ReadCall where
  blobId := List.replicate 32 0

private theorem smallCodec_ideal : smallCodec.Ideal [7] 2 where
  verdict sliver := by
    unfold smallCodec
    dsimp only
    split
    · exact .inl rfl
    · exact .inr ⟨_, rfl⟩
  decodes slivers _ hgood henough := by
    refine if_pos ⟨fun s hs => ?_, henough⟩
    by_contra hbad
    have hverifies := hgood s hs
    unfold Codec.verifies smallCodec at hverifies
    dsimp only at hverifies
    rw [if_neg hbad] at hverifies
    cases hverifies
  otherwise slivers := by
    unfold smallCodec
    dsimp only
    split
    · exact .inl rfl
    · exact .inr ⟨_, rfl⟩

theorem small_binds : small.Binds smallCall [7] := by
  intro c metadata i hc _
  obtain rfl : smallCommittee = c := Except.ok.inj hc
  exact smallCodec_ideal

theorem small_fansOut : small.FansOut smallCall := by
  intro c metadata hc
  obtain rfl : smallCommittee = c := Except.ok.inj hc
  refine ⟨fun _ => onlyFirst (small.read smallCall smallCommittee metadata), ?_⟩
  have hlog : ((small.read smallCall smallCommittee metadata).reconstructBlob
      (small.rounds (small.read smallCall smallCommittee metadata))).log =
        [.fanOut 0 [], .decode [[0], [1], [2]]] :=
    rfl
  intro round excluded hmem
  rw [hlog] at hmem
  obtain ⟨rfl, rfl⟩ : round = 0 ∧ excluded = [] := by simpa using hmem
  have hserved : (((small.read smallCall smallCommittee metadata).fetch []).contents
      (smallSliverAnswers smallCommittee 0)
      (onlyFirst (small.read smallCall smallCommittee metadata))).card = 3 := rfl
  refine Fetch.exists_ends (f := (small.read smallCall smallCommittee metadata).fetch [])
    ((List.nodup_finRange _).filter _) ?_ ?_ (.inr ?_)
  · exact List.cons_ne_nil _ _
  · intro i hi
    obtain rfl : i = ⟨0, show 0 < 2 by decide⟩ :=
      Fin.ext (of_decide_eq_true (List.mem_filter.mp hi).2)
    exact List.mem_filter.mpr ⟨List.mem_finRange _, rfl⟩
  · exact (show 2 ≤ 3 by decide).trans_eq hserved.symm

theorem readBlobNative_faithful_small : small.Faithful smallCall [7] :=
  readBlobNative_faithful small_binds small_fansOut rfl

end ReadWorld

end Pytusk.Pipelines
