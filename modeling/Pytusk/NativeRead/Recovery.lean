import Pytusk.NativeRead.Reconstruct

/-!
# What a read survives

The courses a read can take with an ideal codec, and what they say about faulty
nodes: one of them denies nothing and nothing but the blob is ever returned;
bad servers are barred from the retry as far as they are blamed; the retry needs
a full threshold of its own.
-/

namespace Pytusk.NativeRead

open Pytusk.Lib Pytusk.CommitteeFanout

namespace Read

variable {r : Read} {blob : Bytes} {rounds : Nat → Except ReadExn (List Attributed)}

/-! ## The courses of a call -/

/-- What a decode of the slivers ends in. -/
def decoded (r : Read) (attributed : List Attributed) : Except ReadExn (Bytes × Nat) :=
  (r.codec.decodeBlob (FirstWins.keys attributed) r.verify).map fun content =>
    (content, attributed.length)

theorem decodeAttributed_eq (attributed : List Attributed) :
    r.decodeAttributed attributed =
      ⟨r.decoded attributed, [.decode (FirstWins.keys attributed)]⟩ := by
  unfold decodeAttributed decoded FirstWins.keys
  dsimp only
  rw [Logged.emit_bind]
  cases r.codec.decodeBlob (attributed.map Prod.fst) r.verify with
  | error e => rfl
  | ok content =>
    rw [Logged.lift_ok_bind, Logged.pure_eq_mk, Logged.after_mk, List.length_map]
    rfl

/-- How a verified read goes: it is not served, or its first decode succeeds, or
it fails and the survivors are decoded, or served again and decoded then. -/
inductive Course (r : Read) (rounds : Nat → Except ReadExn (List Attributed)) :
    Logged Event ReadExn (Bytes × Nat) → Prop where
  | unserved {e} (h : rounds 0 = .error e) : Course r rounds ⟨.error e, [.fanOut 0 []]⟩
  | decodes {first result} (h : rounds 0 = .ok first) (hdecoded : r.decoded first = .ok result) :
      Course r rounds ⟨.ok result, [.fanOut 0 [], .decode (FirstWins.keys first)]⟩
  | blameless {first message} (h : rounds 0 = .ok first)
      (hdecoded : r.decoded first = .error (.blobDecodeError message))
      (hnone : r.indicted first = []) :
      Course r rounds
        ⟨.error (.blobDecodeError message), [.fanOut 0 [], .decode (FirstWins.keys first)]⟩
  | survives {first message} (h : rounds 0 = .ok first)
      (hdecoded : r.decoded first = .error (.blobDecodeError message))
      (hsome : r.indicted first ≠ []) (henough : r.threshold ≤ (r.verified first).length) :
      Course r rounds ⟨r.decoded (r.verified first),
        [.fanOut 0 [], .decode (FirstWins.keys first),
          .decode (FirstWins.keys (r.verified first))]⟩
  | unservedAgain {first message e} (h : rounds 0 = .ok first)
      (hdecoded : r.decoded first = .error (.blobDecodeError message))
      (hsome : r.indicted first ≠ []) (hless : (r.verified first).length < r.threshold)
      (hagain : rounds 1 = .error e) :
      Course r rounds ⟨.error e,
        [.fanOut 0 [], .decode (FirstWins.keys first), .fanOut 1 (r.indicted first)]⟩
  | servedAgain {first message second} (h : rounds 0 = .ok first)
      (hdecoded : r.decoded first = .error (.blobDecodeError message))
      (hsome : r.indicted first ≠ []) (hless : (r.verified first).length < r.threshold)
      (hagain : rounds 1 = .ok second) :
      Course r rounds ⟨r.decoded (mergeDistinct (r.verified first) second),
        [.fanOut 0 [], .decode (FirstWins.keys first), .fanOut 1 (r.indicted first),
          .decode (FirstWins.keys (mergeDistinct (r.verified first) second))]⟩

/-- A verified decode gives the blob, or raises `BlobDecodeError`. -/
theorem decoded_cases (ideal : r.codec.Ideal blob r.threshold) (hverify : r.verify = true)
    (attributed : List Attributed) :
    r.decoded attributed = .ok (blob, attributed.length) ∨
      ∃ message, r.decoded attributed = .error (.blobDecodeError message) := by
  unfold decoded
  rw [hverify]
  rcases ideal.otherwise (FirstWins.keys attributed) with hok | ⟨message, herr⟩
  · rw [hok]
    exact .inl rfl
  · rw [herr]
    exact .inr ⟨message, rfl⟩

/-- What follows a first fan-out that was served. -/
private theorem reconstructBlob_of_served {first : List Attributed}
    (hfirst : rounds 0 = .ok first) :
    r.reconstructBlob rounds =
      (match r.decoded first with
        | .ok result => pure result
        | .error (.blobDecodeError message) =>
            r.recover rounds first (.blobDecodeError message)
        | .error e => Logged.raise e : Logged Event ReadExn (Bytes × Nat)).after
          [.fanOut 0 [], .decode (FirstWins.keys first)] := by
  unfold reconstructBlob
  rw [Logged.emit_bind, hfirst, Logged.lift_ok_bind, decodeAttributed_eq, Logged.attempt_mk,
    Logged.mk_ok_bind]
  rfl

/-- The `except` clause, under an ideal codec. -/
private theorem recover_course (ideal : r.codec.Ideal blob r.threshold)
    {first : List Attributed} {message : String} (hfirst : rounds 0 = .ok first)
    (hdecoded : r.decoded first = .error (.blobDecodeError message)) :
    Course r rounds ((r.recover rounds first (.blobDecodeError message)).after
      [.fanOut 0 [], .decode (FirstWins.keys first)]) := by
  unfold recover
  rw [partitionByVerification_eq ideal, Logged.lift_ok_bind]
  dsimp only
  by_cases hsome : r.indicted first = []
  · rw [if_pos hsome]
    exact .blameless hfirst hdecoded hsome
  · rw [if_neg hsome]
    by_cases henough : r.threshold ≤ (r.verified first).length
    · rw [if_pos henough, decodeAttributed_eq]
      exact .survives hfirst hdecoded hsome henough
    · rw [if_neg henough, Logged.emit_bind]
      cases hagain : rounds 1 with
      | error e => exact .unservedAgain hfirst hdecoded hsome (not_le.mp henough) hagain
      | ok second =>
        rw [Logged.lift_ok_bind, decodeAttributed_eq]
        exact .servedAgain hfirst hdecoded hsome (not_le.mp henough) hagain

/-- **Every verified read takes one of the six courses.** -/
theorem reconstructBlob_course (ideal : r.codec.Ideal blob r.threshold)
    (hverify : r.verify = true) (rounds : Nat → Except ReadExn (List Attributed)) :
    Course r rounds (r.reconstructBlob rounds) := by
  cases hfirst : rounds 0 with
  | error e =>
    unfold reconstructBlob
    rw [Logged.emit_bind, hfirst]
    exact .unserved hfirst
  | ok first =>
    rw [reconstructBlob_of_served hfirst]
    rcases decoded_cases ideal hverify first with hok | ⟨message, herr⟩
    · simp only [hok]
      exact .decodes hfirst hok
    · simp only [herr]
      exact recover_course ideal hfirst herr

/-! ## The second fan-out -/

/-- A call that gets to its second fan-out: what it kept and whom it blamed, and
how the fan-out's result ends the call. No codec is assumed to be ideal here. -/
theorem reconstructBlob_retry {excludeNodeIds : List String}
    (h : .fanOut 1 excludeNodeIds ∈ (r.reconstructBlob rounds).log) :
    ∃ first kept, rounds 0 = .ok first ∧
      r.partitionByVerification first = .ok (kept, excludeNodeIds) ∧
      excludeNodeIds ≠ [] ∧ kept.length < r.threshold ∧
      r.reconstructBlob rounds =
        (Logged.lift (rounds 1) >>= fun second =>
          r.decodeAttributed (mergeDistinct kept second)).after
            [.fanOut 0 [], .decode (FirstWins.keys first), .fanOut 1 excludeNodeIds] := by
  cases hfirst : rounds 0 with
  | error e =>
    have hcall : r.reconstructBlob rounds = ⟨.error e, [.fanOut 0 []]⟩ := by
      unfold reconstructBlob
      rw [hfirst]
      rfl
    rw [hcall] at h
    simp at h
  | ok first =>
    rw [reconstructBlob_of_served hfirst] at h ⊢
    cases hdecoded : r.decoded first with
    | ok result =>
      rw [hdecoded] at h
      simp [Logged.after] at h
    | error e =>
      rw [hdecoded] at h
      cases e with
      | blobDecodeError message =>
        dsimp only at h ⊢
        unfold recover at h ⊢
        cases hpartition : r.partitionByVerification first with
        | error e =>
          rw [hpartition] at h
          simp [Logged.after] at h
        | ok split =>
          obtain ⟨kept, indicted⟩ := split
          rw [hpartition, Logged.lift_ok_bind] at h
          rw [Logged.lift_ok_bind]
          dsimp only at h ⊢
          by_cases hnone : indicted = []
          · rw [if_pos hnone] at h
            simp [Logged.after] at h
          · rw [if_neg hnone] at h ⊢
            by_cases henough : r.threshold ≤ kept.length
            · rw [if_pos henough, decodeAttributed_eq] at h
              simp [Logged.after] at h
            · rw [if_neg henough, Logged.emit_bind] at h ⊢
              obtain rfl : excludeNodeIds = indicted := by
                cases hagain : rounds 1 with
                | error e =>
                  rw [hagain] at h
                  simpa [Logged.after] using h
                | ok second =>
                  rw [hagain, Logged.lift_ok_bind, decodeAttributed_eq] at h
                  simpa [Logged.after] using h
              exact ⟨first, kept, rfl, hpartition, hnone, not_le.mp henough, rfl⟩
      | sliverFetchError message stage => simp [Logged.after] at h
      | sliverVerificationError message => simp [Logged.after] at h
      | raised exc => simp [Logged.after] at h

end Read

end Pytusk.NativeRead
