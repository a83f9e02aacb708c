import Pytusk.RelayUpload.Upload

/-!
# Runs of the relay upload

A run makes some attempts whose replies are worth another one and then a last
one; the last reply alone decides what the run reports. A POST that raises ends
the run with what it raises.
-/

namespace Pytusk.RelayUpload

open Pytusk.Lib

/-- A transport failure, or a refusal whose status says "not now". -/
def RelayReply.Retryable : RelayReply → Prop
  | .accepted _ => False
  | .unreachable _ => True
  | .declined ack => ∃ status, ack.relayStatus = some status ∧
      (500 ≤ status ∨ status = 408 ∨ status = 425 ∨ status = 429)

theorem isFinal_eq_false {relayStatus : Option Nat} :
    isFinal relayStatus = false ↔ ∃ status, relayStatus = some status ∧
      (500 ≤ status ∨ status = 408 ∨ status = 425 ∨ status = 429) := by
  cases relayStatus with
  | none => simp [isFinal]
  | some status =>
    simp only [isFinal, retryableClientStatuses, Option.some.injEq, exists_eq_left']
    grind

theorem retryable_declined {ack : RelayUploadAck} :
    (RelayReply.declined ack).Retryable ↔ isFinal ack.relayStatus = false :=
  isFinal_eq_false.symm

section

variable (w : World) (relayUrl : String) (command : WriteRelayBlob)

/-- The `k`-th POST is answered with a reply that is worth another one. -/
def Retried (k : Nat) : Prop := ∃ reply, replyOf (w.relay k) = .ok reply ∧ reply.Retryable

/-- How the attempts from `start` on went, under a budget: how many were
followed by another one. -/
structure Conducted (start budget retried : Nat) : Prop where
  within : retried < budget
  earlier : ∀ k < retried, Retried w (start + k)
  stopped : retried + 1 < budget → ¬ Retried w (start + retried)

/-- What a run reports that ends with this reply. -/
def reportOf (attempts : Nat) : RelayReply → RelayUploadResult
  | .accepted ack => uploadResult relayUrl command .uploaded ack.confirmationCertificate attempts
      ⟨none, ack.relayStatus, none⟩
  | .unreachable resultString => uploadResult relayUrl command .unanswered .none attempts
      ⟨some resultString, none, none⟩
  | .declined ack => uploadResult relayUrl command
      (if isFinal ack.relayStatus then .refused else .unanswered) .none attempts
      ⟨none, ack.relayStatus, ack.relayMessage⟩

/-- The run that ends with the POST of this number: it reports the reply, or
raises what the POST does. -/
def lastPost (retried : Nat) : Except PyExn RelayUploadResult :=
  (replyOf (w.relay retried)).map (reportOf relayUrl command (retried + 1))

/-- An attempt that was worth another one, before the others. -/
theorem Conducted.cons {w : World} {start budget retried : Nat} (hfirst : Retried w start)
    (hrest : Conducted w (start + 1) budget retried) :
    Conducted w start (budget + 1) (retried + 1) := by
  constructor
  · have := hrest.within
    omega
  · intro k hk
    cases k with
    | zero => exact hfirst
    | succ k =>
      have := hrest.earlier k (by omega)
      rwa [show start + (k + 1) = start + 1 + k by omega]
  · intro hbudget
    have := hrest.stopped (by omega)
    rwa [show start + (retried + 1) = start + 1 + retried by omega]

/-- The first attempt, when it is the last one as well. -/
theorem Conducted.single {w : World} {start budget : Nat}
    (hlast : budget = 0 ∨ ¬ Retried w start) : Conducted w start (budget + 1) 0 := by
  constructor
  · omega
  · simp
  · intro hbudget
    exact hlast.resolve_left (by omega)

/-- One attempt: the run ends with it, or goes on with the rest of the budget. -/
theorem attemptUpload_succ (budget start : Nat) (last : LastFailure) :
    attemptUpload w relayUrl command (budget + 1) start last =
        ⟨lastPost w relayUrl command start, [.posted command]⟩ ∧
          (budget = 0 ∨ ¬ Retried w start) ∨
      Retried w start ∧ budget ≠ 0 ∧ ∃ last',
        attemptUpload w relayUrl command (budget + 1) start last =
          (attemptUpload w relayUrl command budget (start + 1) last').after
            [.posted command] := by
  rw [attemptUpload, Logged.emit_bind]
  unfold Retried lastPost
  cases hreply : replyOf (w.relay start) with
  | error e =>
    left
    simp [Logged.lift_error_bind, Logged.raise, Logged.after_mk, Except.map]
  | ok reply =>
    rw [Logged.lift_ok_bind]
    simp only [Except.ok.injEq, exists_eq_left']
    cases reply with
    | accepted ack =>
      left
      constructor
      · simp [reportOf, Except.map, Logged.pure_eq_mk, Logged.after_mk]
      · simp [RelayReply.Retryable]
    | unreachable resultString =>
      cases budget with
      | zero =>
        left
        simp [reportOf, attemptUpload, Except.map, Logged.pure_eq_mk, Logged.after_mk]
      | succ budget => exact .inr ⟨trivial, Nat.succ_ne_zero _, _, rfl⟩
    | declined ack =>
      rw [retryable_declined]
      cases hfinal : isFinal ack.relayStatus with
      | true =>
        left
        simp [reportOf, hfinal, Except.map, Logged.pure_eq_mk, Logged.after_mk]
      | false =>
        cases budget with
        | zero =>
          left
          simp [reportOf, hfinal, attemptUpload, Except.map, Logged.pure_eq_mk,
            Logged.after_mk]
        | succ budget =>
          refine .inr ⟨rfl, Nat.succ_ne_zero _, ⟨none, ack.relayStatus, ack.relayMessage⟩, ?_⟩
          simp [hfinal]

theorem attemptUpload_run (budget start : Nat) (last : LastFailure) :
    ∃ retried, Conducted w start (budget + 1) retried ∧
      attemptUpload w relayUrl command (budget + 1) start last =
        ⟨lastPost w relayUrl command (start + retried),
          List.replicate (retried + 1) (.posted command)⟩ := by
  induction budget generalizing start last with
  | zero =>
    rcases attemptUpload_succ w relayUrl command 0 start last with ⟨hrun, hlast⟩ | ⟨-, h, -⟩
    · exact ⟨0, .single hlast, hrun⟩
    · exact absurd rfl h
  | succ budget ih =>
    rcases attemptUpload_succ w relayUrl command (budget + 1) start last with
      ⟨hrun, hlast⟩ | ⟨hretry, -, last', hrun⟩
    · exact ⟨0, .single hlast, hrun⟩
    · obtain ⟨retried, hconducted, hrest⟩ := ih (start + 1) last'
      refine ⟨retried + 1, hconducted.cons hretry, ?_⟩
      rw [hrun, hrest, Logged.after_mk, show start + 1 + retried = start + (retried + 1) by omega]
      rfl

/-- The upload is the run of its attempts. -/
theorem uploadToRelay_run {maxAttempts : Int} (hmax : 1 ≤ maxAttempts) :
    ∃ retried, Conducted w 0 maxAttempts.toNat retried ∧
      uploadToRelay w relayUrl command maxAttempts =
        ⟨lastPost w relayUrl command retried,
          List.replicate (retried + 1) (.posted command)⟩ := by
  obtain ⟨budget, hbudget⟩ : ∃ budget : Nat, maxAttempts.toNat = budget + 1 :=
    ⟨maxAttempts.toNat - 1, by omega⟩
  obtain ⟨retried, hconducted, hrun⟩ :=
    attemptUpload_run w relayUrl command budget 0 ⟨none, none, none⟩
  rw [Nat.zero_add] at hrun
  refine ⟨retried, hbudget ▸ hconducted, ?_⟩
  rw [uploadToRelay, if_neg (by omega), hbudget, hrun]

/-! ## A POST that raises -/

/-- No POST that is made raises: those before it were worth another one. -/
def Answered (maxAttempts : Int) : Prop :=
  ∀ k : Nat, (k : Int) < maxAttempts → (∀ j < k, Retried w j) →
    ∃ reply, replyOf (w.relay k) = .ok reply

/-- **The upload returns** exactly if no POST that it makes raises. -/
theorem uploadToRelay_returns_iff {maxAttempts : Int} (hmax : 1 ≤ maxAttempts) :
    (∃ result, (uploadToRelay w relayUrl command maxAttempts).result = .ok result) ↔
      Answered w maxAttempts := by
  obtain ⟨retried, hconducted, hrun⟩ := uploadToRelay_run w relayUrl command hmax
  have hwithin := hconducted.within
  have hearlier : ∀ j < retried, Retried w j := by simpa using hconducted.earlier
  rw [hrun]
  unfold lastPost
  constructor
  · rintro ⟨result, hresult⟩ k hk hretried
    rcases Nat.lt_trichotomy k retried with hlt | rfl | hgt
    · obtain ⟨reply, hreply, -⟩ := hearlier k hlt
      exact ⟨reply, hreply⟩
    · cases hreply : replyOf (w.relay k) with
      | error e =>
        rw [hreply] at hresult
        cases hresult
      | ok reply => exact ⟨reply, rfl⟩
    · -- a reply worth another attempt is not the last one
      exact absurd (hretried retried hgt) (by simpa using hconducted.stopped (by omega))
  · intro hanswered
    obtain ⟨reply, hreply⟩ := hanswered retried (by omega) hearlier
    exact ⟨_, by rw [hreply]; rfl⟩

end

/-! ## What the last reply says -/

/-- The parts of a result that speak of an attempt, as its reply has them. -/
def Describes (reply : RelayReply) (result : RelayUploadResult) : Prop :=
  match reply with
  | .accepted ack => result.relayStatus = ack.relayStatus ∧ result.relayMessage = none ∧
      result.transportError = none ∧ result.certificate = ack.confirmationCertificate
  | .unreachable resultString => result.relayStatus = none ∧ result.relayMessage = none ∧
      result.transportError = some resultString ∧ result.certificate = .none
  | .declined ack => result.relayStatus = ack.relayStatus ∧
      result.relayMessage = ack.relayMessage ∧ result.transportError = none ∧
      result.certificate = .none

/-- The tokens a later POST has to repeat. -/
def CarriesTokens (command : WriteRelayBlob) (result : RelayUploadResult) : Prop :=
  result.blobId = command.blobId ∧
    result.registerTipTxDigest = command.registerTipTxDigest ∧ result.nonce = command.nonce

section

variable {relayUrl : String} {command : WriteRelayBlob} {attempts : Nat}

theorem describes_reportOf (reply : RelayReply) :
    Describes reply (reportOf relayUrl command attempts reply) := by
  cases reply with
  | accepted ack => exact ⟨rfl, rfl, rfl, rfl⟩
  | unreachable resultString => exact ⟨rfl, rfl, rfl, rfl⟩
  | declined ack => exact ⟨rfl, rfl, rfl, rfl⟩

theorem carriesTokens_reportOf (reply : RelayReply) :
    CarriesTokens command (reportOf relayUrl command attempts reply) := by
  cases reply with
  | accepted ack => exact ⟨rfl, rfl, rfl⟩
  | unreachable resultString => exact ⟨rfl, rfl, rfl⟩
  | declined ack => exact ⟨rfl, rfl, rfl⟩

theorem attempts_reportOf (reply : RelayReply) :
    (reportOf relayUrl command attempts reply).attempts = attempts := by
  cases reply with
  | accepted ack => rfl
  | unreachable resultString => rfl
  | declined ack => rfl

theorem reportOf_uploaded {reply : RelayReply} :
    (reportOf relayUrl command attempts reply).outcome = .uploaded ↔
      ∃ ack, reply = .accepted ack := by
  cases reply with
  | accepted ack => simp [reportOf, uploadResult]
  | unreachable resultString => simp [reportOf, uploadResult]
  | declined ack => cases h : isFinal ack.relayStatus <;> simp [reportOf, uploadResult, h]

theorem reportOf_refused {reply : RelayReply} :
    (reportOf relayUrl command attempts reply).outcome = .refused ↔
      (∃ ack, reply = .declined ack) ∧ ¬ reply.Retryable := by
  cases reply with
  | accepted ack => simp [reportOf, uploadResult]
  | unreachable resultString => simp [reportOf, uploadResult]
  | declined ack =>
    rw [retryable_declined]
    cases h : isFinal ack.relayStatus <;> simp [reportOf, uploadResult, h]

theorem reportOf_unanswered {reply : RelayReply} :
    (reportOf relayUrl command attempts reply).outcome = .unanswered ↔ reply.Retryable := by
  cases reply with
  | accepted ack => simp [reportOf, uploadResult, RelayReply.Retryable]
  | unreachable resultString => simp [reportOf, uploadResult, RelayReply.Retryable]
  | declined ack =>
    rw [retryable_declined]
    cases h : isFinal ack.relayStatus <;> simp [reportOf, uploadResult, h]

end

/-- The last reply asks for another attempt only when the budget is used up,
and then every reply did. -/
theorem Conducted.exhausted {w : World} {budget retried : Nat}
    (h : Conducted w 0 budget retried) :
    Retried w retried ↔ retried + 1 = budget ∧ ∀ k ≤ retried, Retried w k := by
  constructor
  · intro hlast
    constructor
    · by_contra hne
      have hwithin := h.within
      exact h.stopped (by omega) (by rwa [Nat.zero_add])
    · intro k hk
      rcases Nat.lt_or_eq_of_le hk with hlt | rfl
      · simpa using h.earlier k hlt
      · exact hlast
  · rintro ⟨-, hall⟩
    exact hall retried le_rfl

/-- What an upload leaves behind, over the replies `reply k` of the attempts:
its `n + 1` POSTs all carry one command, only the last reply may end the run,
and the result reports that reply. -/
structure Uploads (relayUrl : String) (command : WriteRelayBlob) (maxAttempts : Int)
    (reply : Nat → RelayReply) (n : Nat) (result : RelayUploadResult) : Prop where
  within : (n : Int) + 1 ≤ maxAttempts
  earlier : ∀ k < n, (reply k).Retryable
  stopped : (n : Int) + 1 < maxAttempts → ¬ (reply n).Retryable
  attempts : result.attempts = n + 1
  uploaded : result.outcome = .uploaded ↔ ∃ ack, reply n = .accepted ack
  refused : result.outcome = .refused ↔ (∃ ack, reply n = .declined ack) ∧ ¬ (reply n).Retryable
  unanswered : result.outcome = .unanswered ↔
    (n : Int) + 1 = maxAttempts ∧ ∀ k ≤ n, (reply k).Retryable
  describes : Describes (reply n) result
  tokens : CarriesTokens command result

/-- The upload, every POST of which returns, returns after at least one and at
most `max_attempts` equal POSTs, and reports the last reply. -/
theorem uploadToRelay_uploads (w : World) (relayUrl : String) (command : WriteRelayBlob)
    (maxAttempts : Int) (hmax : 1 ≤ maxAttempts) (reply : Nat → RelayReply)
    (hreply : ∀ k, replyOf (w.relay k) = .ok (reply k)) :
    ∃ n result, uploadToRelay w relayUrl command maxAttempts =
        ⟨.ok result, List.replicate (n + 1) (.posted command)⟩ ∧
      Uploads relayUrl command maxAttempts reply n result := by
  obtain ⟨n, hconducted, hrun⟩ := uploadToRelay_run w relayUrl command hmax
  have hwithin := hconducted.within
  have hretried : ∀ k, Retried w k ↔ (reply k).Retryable := by
    intro k
    unfold Retried
    simp [hreply k]
  refine ⟨n, reportOf relayUrl command (n + 1) (reply n), ?_, ?_⟩
  · rw [hrun, lastPost, hreply n]
    rfl
  constructor
  case within => omega
  case earlier => simpa [hretried] using hconducted.earlier
  case stopped =>
    intro hlt
    simpa [hretried] using hconducted.stopped (by omega)
  case attempts => exact attempts_reportOf _
  case uploaded => exact reportOf_uploaded
  case refused => exact reportOf_refused
  case unanswered =>
    have hexhausted := hconducted.exhausted
    simp only [hretried] at hexhausted
    rw [reportOf_unanswered, hexhausted]
    have : n + 1 = maxAttempts.toNat ↔ (n : Int) + 1 = maxAttempts := by omega
    rw [this]
  case describes => exact describes_reportOf _
  case tokens => exact carriesTokens_reportOf _

/-- The relay is overloaded, then out of reach, and then takes the blob. -/
private def overloaded : World :=
  { World.small with
    relay := fun k => match k with
      | 0 => .response ⟨503, .ok "overloaded", .error (.valueError "Expecting value")⟩
      | 1 => .unreachable "ConnectTimeout"
      | _ => .response ⟨200, .ok "", .ok (.dict [(Json.key "blob_id", .str (Json.key "AAAA")),
          (Json.key "confirmation_certificate", .dict [])])⟩ }

private def overloadedReply : Nat → RelayReply
  | 0 => .declined ⟨.refused, .none, .none, some 503, some "overloaded"⟩
  | 1 => .unreachable "ConnectTimeout"
  | _ => .accepted ⟨.uploaded, .str (Json.key "AAAA"), .dict [], some 200, none⟩

theorem uploadToRelay_uploads_overloaded :
    (1 : Int) ≤ 5 ∧ ∃ n result,
      uploadToRelay overloaded "https://relay" ⟨"AAAA", [1, 2, 3], none, none, none⟩ 5 =
        ⟨.ok result, List.replicate (n + 1)
          (.posted ⟨"AAAA", [1, 2, 3], none, none, none⟩)⟩ ∧
      Uploads "https://relay" ⟨"AAAA", [1, 2, 3], none, none, none⟩ 5 overloadedReply n result :=
  ⟨by decide, uploadToRelay_uploads overloaded _ _ _ (by decide) _ fun k => by
    rcases k with _ | _ | k <;> rfl⟩

end Pytusk.RelayUpload
