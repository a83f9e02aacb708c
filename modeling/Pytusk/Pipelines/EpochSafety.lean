import Pytusk.NativeUpload.Untimed
import Pytusk.Pipelines.Origins

/-!
# Certification under a moving epoch

`certify` holds a committee and a certificate and reads the epoch against them.
Tx2 is submitted at most once, and only with a certificate for the committee
whose epoch was read last; every refetch replaces both.
-/

namespace Pytusk

open Pytusk.Lib

/-- The event is the submission of Tx2. -/
def Event.submitsTx2 : Event → Bool
  | .submitted .tx2 _ => true
  | _ => false

def Event.isEpochRead : Event → Bool
  | .readEpoch => true
  | _ => false

def Event.isCommitteeRead : Event → Bool
  | .readCommittee => true
  | _ => false

end Pytusk

namespace Pytusk.Pipelines

open Pytusk.Lib Pytusk.Ops Pytusk.NativeUpload

variable (w : World)

/-! ## The loop -/

/-- The `k`-th refetch, or the collection of confirmations after it, raises. -/
def RefetchRaises (blobId : Bytes) (registration : Registration) (k : Nat) (e : PyExn) : Prop :=
  w.committee k = .error e ∨
    ∃ committee, w.committee k = .ok committee ∧
      (collectConfirmations w k defaultMaxConfirmationRequests committee blobId
        registration).result = .error e

/-- How the loop goes, with `refetches` still allowed after `attempts` reads and
holding this committee and certificate. -/
inductive Settles (blobId : Bytes) (registration : Registration) :
    Nat → Nat → WalrusCommittee → Certificate →
      Program (WalrusCommittee × Certificate) → Prop where
  | unread {refetches attempts committee certificate e}
      (h : w.epoch attempts = .error e) :
      Settles blobId registration refetches attempts committee certificate
        ⟨.error e, [.readEpoch]⟩
  | current {refetches attempts committee certificate}
      (h : w.epoch attempts = .ok committee.epoch) :
      Settles blobId registration refetches attempts committee certificate
        ⟨.ok (committee, certificate), [.readEpoch]⟩
  | mismatch {attempts committee certificate epoch} (message : String)
      (h : w.epoch attempts = .ok epoch) (hmoved : epoch ≠ committee.epoch) :
      Settles blobId registration 0 attempts committee certificate
        ⟨.error (.nativeUpload .epochMismatchError message "certify" none), [.readEpoch]⟩
  | unrefetched {refetches attempts committee certificate epoch e} {rest : List Event}
      (h : w.epoch attempts = .ok epoch) (hmoved : epoch ≠ committee.epoch)
      (hrest : ∀ event ∈ rest, ∃ query, event = .collecting (attempts + 1) query)
      (hraises : RefetchRaises w blobId registration (attempts + 1) e) :
      Settles blobId registration (refetches + 1) attempts committee certificate
        ⟨.error e, .readEpoch :: .readCommittee :: rest⟩
  | again {refetches attempts committee certificate epoch refetched collected call}
      (h : w.epoch attempts = .ok epoch) (hmoved : epoch ≠ committee.epoch)
      (hread : w.committee (attempts + 1) = .ok refetched)
      (hcollected : w.confirmations (attempts + 1) = .ok collected)
      (hrest : Settles blobId registration refetches (attempts + 1) refetched collected call) :
      Settles blobId registration (refetches + 1) attempts committee certificate
        (call.after [.readEpoch, .readCommittee, .collecting (attempts + 1)
          (confirmationQuery w (attempts + 1) refetched blobId registration)])

variable {w} {blobId : Bytes} {registration : Registration}

theorem settleCommittee_settles (refetches attempts : Nat) (committee : WalrusCommittee)
    (certificate : Certificate) :
    Settles w blobId registration refetches attempts committee certificate
      (settleCommittee w blobId registration refetches attempts committee certificate) := by
  induction refetches generalizing attempts committee certificate with
  | zero =>
    unfold settleCommittee
    rw [Logged.emit_bind]
    cases h : w.epoch attempts with
    | error e => exact .unread h
    | ok epoch =>
      rw [Logged.lift_ok_bind]
      by_cases hmoved : epoch = committee.epoch
      · rw [if_pos hmoved]
        exact .current (hmoved ▸ h)
      · rw [if_neg hmoved]
        exact .mismatch _ h hmoved
  | succ refetches ih =>
    unfold settleCommittee
    rw [Logged.emit_bind]
    cases h : w.epoch attempts with
    | error e => exact .unread h
    | ok epoch =>
      rw [Logged.lift_ok_bind]
      by_cases hmoved : epoch = committee.epoch
      · rw [if_pos hmoved]
        exact .current (hmoved ▸ h)
      · rw [if_neg hmoved]
        dsimp only
        rw [Logged.emit_bind]
        cases hread : w.committee (attempts + 1) with
        | error e =>
          exact .unrefetched h hmoved (by simp) (.inl hread)
        | ok refetched =>
          rw [Logged.lift_ok_bind]
          rcases collectConfirmations_cases w (attempts + 1) defaultMaxConfirmationRequests
              refetched blobId registration with ⟨e, -, hfailed⟩ | hran
          · rw [hfailed, Logged.raise, Logged.mk_error_bind]
            exact .unrefetched h hmoved (by simp)
              (.inr ⟨refetched, hread, by rw [hfailed, Logged.raise]⟩)
          · rw [hran]
            cases hcollected : w.confirmations (attempts + 1) with
            | error e =>
              rw [Logged.mk_error_bind]
              refine .unrefetched h hmoved ?_
                (.inr ⟨refetched, hread, by rw [hran, hcollected]⟩)
              simp
            | ok collected =>
              rw [Logged.mk_ok_bind]
              exact .again h hmoved hread hcollected (ih (attempts + 1) refetched collected)

/-! ### What the loop leaves -/

namespace Settles

variable {refetches attempts : Nat} {committee : WalrusCommittee} {certificate : Certificate}
variable {call : Program (WalrusCommittee × Certificate)}

theorem reads_le (h : Settles w blobId registration refetches attempts committee certificate call) :
    call.log.countP Event.isEpochRead ≤ refetches + 1 ∧
      call.log.countP Event.isCommitteeRead ≤ refetches := by
  induction h with
  | unread h => simp [Event.isEpochRead, Event.isCommitteeRead]
  | current h => simp [Event.isEpochRead, Event.isCommitteeRead]
  | mismatch message h hmoved => simp [Event.isEpochRead, Event.isCommitteeRead]
  | @unrefetched refetches attempts committee certificate epoch e rest h hmoved hrest hraises =>
    -- a collection is neither of the two reads
    have hnone : ∀ p : Event → Bool, (∀ k query, p (.collecting k query) = false) →
        rest.countP p = 0 := by
      intro p hp
      apply List.countP_eq_zero.mpr
      intro event hevent
      obtain ⟨query, rfl⟩ := hrest event hevent
      simp [hp]
    have hepoch := hnone Event.isEpochRead fun _ _ => rfl
    have hcommittee := hnone Event.isCommitteeRead fun _ _ => rfl
    simp [List.countP_cons, hepoch, hcommittee, Event.isEpochRead, Event.isCommitteeRead]
  | again h hmoved hread hcollected hrest ih =>
    simp only [Logged.after, List.countP_append]
    simp [List.countP_cons, Event.isEpochRead, Event.isCommitteeRead]
    omega

/-- Only reads and collections are shown before Tx2. -/
theorem quiet (h : Settles w blobId registration refetches attempts committee certificate call) :
    ∀ event ∈ call.log, event = .readEpoch ∨ event = .readCommittee ∨
      ∃ k query, event = .collecting k query := by
  induction h with
  | unread h => simp
  | current h => simp
  | mismatch message h hmoved => simp
  | unrefetched h hmoved hrest hraises =>
    intro event hevent
    simp only [List.mem_cons] at hevent
    rcases hevent with rfl | rfl | hevent
    · exact .inl rfl
    · exact .inr (.inl rfl)
    · obtain ⟨query, rfl⟩ := hrest event hevent
      exact .inr (.inr ⟨_, query, rfl⟩)
  | again h hmoved hread hcollected hrest ih =>
    intro event hevent
    rcases List.mem_append.mp hevent with hevent | hevent
    · simp only [List.mem_cons, List.not_mem_nil, or_false] at hevent
      rcases hevent with rfl | rfl | rfl
      · exact .inl rfl
      · exact .inr (.inl rfl)
      · exact .inr (.inr ⟨_, _, rfl⟩)
    · exact ih event hevent

/-- The committee and the certificate it settles on: the given ones, or those of
the last refetch. -/
theorem settled (h : Settles w blobId registration refetches attempts committee certificate call)
    {current : WalrusCommittee} {built : Certificate} (hok : call.result = .ok (current, built)) :
    ∃ n, call.log.countP Event.isCommitteeRead = n ∧
      call.log.countP Event.isEpochRead = n + 1 ∧ w.epoch (attempts + n) = .ok current.epoch ∧
      (n = 0 ∧ current = committee ∧ built = certificate ∨
        0 < n ∧ w.committee (attempts + n) = .ok current ∧
          w.confirmations (attempts + n) = .ok built ∧
          .collecting (attempts + n)
            (confirmationQuery w (attempts + n) current blobId registration) ∈ call.log) := by
  induction h with
  | unread h => cases hok
  | current h =>
    cases hok
    exact ⟨0, rfl, rfl, h, .inl ⟨rfl, rfl, rfl⟩⟩
  | mismatch message h hmoved => cases hok
  | unrefetched h hmoved hrest hraises => cases hok
  | @again refetches attempts committee certificate epoch refetched collected call h hmoved hread
      hcollected hrest ih =>
    obtain ⟨n, hrefetches, hreads, hepoch, hsource⟩ := ih hok
    refine ⟨n + 1, ?_, ?_, ?_, .inr ⟨Nat.succ_pos n, ?_⟩⟩
    · simp [Logged.after, List.countP_cons, Event.isCommitteeRead, hrefetches]
    · simp [Logged.after, List.countP_cons, Event.isEpochRead, hreads]
    · rw [← Nat.add_assoc, Nat.add_right_comm]
      exact hepoch
    · rw [← Nat.add_assoc, Nat.add_right_comm]
      rcases hsource with ⟨rfl, rfl, rfl⟩ | ⟨-, hcommittee, hconfirmations, hcollecting⟩
      · exact ⟨hread, hcollected, List.mem_append_left _ (by simp)⟩
      · exact ⟨hcommittee, hconfirmations, List.mem_append_right _ hcollecting⟩

/-- Otherwise it gave up after all its reads, or something it called raised. -/
theorem raised (h : Settles w blobId registration refetches attempts committee certificate call)
    {e : PyExn} (herror : call.result = .error e) :
    (∃ message, e = .nativeUpload .epochMismatchError message "certify" none ∧
      call.log.countP Event.isEpochRead = refetches + 1) ∨
    (∃ k < call.log.countP Event.isEpochRead, w.epoch (attempts + k) = .error e) ∨
    0 < call.log.countP Event.isCommitteeRead ∧ RefetchRaises w blobId registration
      (attempts + call.log.countP Event.isCommitteeRead) e := by
  induction h with
  | unread h =>
    cases herror
    exact .inr (.inl ⟨0, by simp [Event.isEpochRead], h⟩)
  | current h => cases herror
  | mismatch message h hmoved =>
    cases herror
    exact .inl ⟨message, rfl, by simp [Event.isEpochRead]⟩
  | @unrefetched refetches attempts committee certificate epoch e rest h hmoved hrest hraises =>
    cases herror
    have hcount : List.countP Event.isCommitteeRead (.readEpoch :: .readCommittee :: rest) = 1 := by
      have hnone : rest.countP Event.isCommitteeRead = 0 := by
        apply List.countP_eq_zero.mpr
        intro event hevent
        obtain ⟨query, rfl⟩ := hrest event hevent
        simp [Event.isCommitteeRead]
      simp [List.countP_cons, hnone, Event.isCommitteeRead]
    refine .inr (.inr ?_)
    rw [hcount]
    exact ⟨Nat.one_pos, hraises⟩
  | @again refetches attempts committee certificate epoch refetched collected call h hmoved hread
      hcollected hrest ih =>
    have hcount : (call.after [.readEpoch, .readCommittee, .collecting (attempts + 1)
        (confirmationQuery w (attempts + 1) refetched blobId registration)]).log.countP
          Event.isEpochRead = call.log.countP Event.isEpochRead + 1 := by
      simp [Logged.after, List.countP_cons, Event.isEpochRead]
    have hrefetches : (call.after [.readEpoch, .readCommittee, .collecting (attempts + 1)
        (confirmationQuery w (attempts + 1) refetched blobId registration)]).log.countP
          Event.isCommitteeRead = call.log.countP Event.isCommitteeRead + 1 := by
      simp [Logged.after, List.countP_cons, Event.isCommitteeRead]
    rw [hcount, hrefetches]
    rcases ih herror with ⟨message, rfl, hreads⟩ | ⟨k, hk, hunread⟩ |
      ⟨-, hraises⟩
    · exact .inl ⟨message, rfl, by rw [hreads]⟩
    · refine .inr (.inl ⟨k + 1, by omega, ?_⟩)
      rw [← Nat.add_assoc, Nat.add_right_comm]
      exact hunread
    · refine .inr (.inr ⟨Nat.succ_pos _, ?_⟩)
      rw [← Nat.add_assoc, Nat.add_right_comm]
      exact hraises

end Settles

/-! ## Tx2 -/

/-- What a submission shows: its certificate, for the committee it was checked
against, and a transaction that carries it. -/
theorem submitCertification_events {committee : WalrusCommittee} {terms : CertifyTerms}
    {certificate : Certificate} {errorType : ErrorType} :
    ∀ event ∈ (submitCertification w committee terms certificate errorType).log,
      event.isEpochRead = false ∧ event.isCommitteeRead = false ∧
      (∀ current registered built, event = .certifying current registered built →
        current = committee ∧ built = certificate) ∧
      ∀ txn, event = .submitted .tx2 txn →
        .certifying committee terms.registration certificate ∈
          (submitCertification w committee terms certificate errorType).log ∧
        CertifyTerms.Composes w terms certificate txn := by
  have h : Shows (· ∈ (submitCertification w committee terms certificate errorType).log)
      (fun event => event.isEpochRead = false ∧ event.isCommitteeRead = false ∧
        (∀ current registered built, event = .certifying current registered built →
          current = committee ∧ built = certificate) ∧
        ∀ txn, event = .submitted .tx2 txn →
          .certifying committee terms.registration certificate ∈
            (submitCertification w committee terms certificate errorType).log ∧
          CertifyTerms.Composes w terms certificate txn) (fun _ => True)
      (submitCertification w committee terms certificate errorType) := by
    refine submitCertification_shows fun signers hsigners hverify => ⟨?_, fun hshown => ⟨?_, ?_⟩⟩
    · refine ⟨rfl, rfl, ?_, fun txn hevent => nomatch hevent⟩
      rintro current registered built ⟨⟩
      exact ⟨rfl, rfl⟩
    · exact ⟨rfl, rfl, fun _ _ _ hevent => (nomatch hevent), fun _ hevent => nomatch hevent⟩
    · intro txn hcomposes
      refine ⟨⟨rfl, rfl, fun _ _ _ hevent => (nomatch hevent), fun _ hevent => nomatch hevent⟩,
        rfl, rfl, fun _ _ _ hevent => (nomatch hevent), ?_⟩
      rintro txn' ⟨⟩
      exact ⟨hshown, hcomposes⟩
  exact (h fun event hevent => hevent).1

private theorem signAndExecute_once {tx : TxLabel} {txn : Txn} {label : String} :
    (signAndExecute w tx txn label).log.countP Event.submitsTx2 ≤ 1 := by
  refine Logged.countP_log_bind_le (m := 0) (n := 1) (by simp [Event.submitsTx2]) fun _ _ => ?_
  refine Logged.countP_log_bind_le (m := 0) (n := 1) (by simp) fun _ _ => ?_
  refine Logged.countP_log_bind_le (m := 1) (n := 0) ?_ fun _ _ => (by simp)
  exact List.countP_le_length

private theorem executeCertify_once {terms : CertifyTerms} {certificate : Certificate} :
    (executeCertify w terms certificate).log.countP Event.submitsTx2 ≤ 1 := by
  refine Logged.countP_log_bind_le (m := 0) (n := 1) ?_ fun txn _ => ?_
  · refine Logged.countP_log_bind_le (m := 0) (n := 0) (by simp [Event.submitsTx2]) fun _ _ => ?_
    exact Logged.countP_log_bind_le (m := 0) (n := 0) (by simp) fun _ _ => (by simp)
  · refine Logged.countP_log_bind_le (m := 0) (n := 1) (by simp) fun _ _ => ?_
    exact Logged.countP_log_bind_le (m := 1) (n := 0) signAndExecute_once fun _ _ => (by simp)

/-- Tx2 is submitted once at most. -/
theorem submitCertification_once {committee : WalrusCommittee} {terms : CertifyTerms}
    {certificate : Certificate} {errorType : ErrorType} :
    (submitCertification w committee terms certificate errorType).log.countP
      Event.submitsTx2 ≤ 1 := by
  refine Logged.countP_log_bind_le (m := 0) (n := 1) (by simp) fun signers _ => ?_
  split
  · refine Logged.countP_log_bind_le (m := 0) (n := 1) (by simp [Event.submitsTx2])
      fun _ _ => ?_
    refine Logged.countP_log_bind_le (m := 1) (n := 0) executeCertify_once fun r _ => ?_
    split
    · simp
    · simp
  · simp

/-! ## Epoch safety -/

/-- `current_committee` at an epoch read, by its number. -/
def heldCommittee (w : World) (committee : WalrusCommittee) : Nat → Except PyExn WalrusCommittee
  | 0 => .ok committee
  | k + 1 => w.committee (k + 1)

/-- Each of the first reads returned another epoch than that of the committee
held then. -/
def Disagrees (w : World) (committee : WalrusCommittee) (reads : Nat) : Prop :=
  ∀ k < reads, ∃ epoch held, w.epoch k = .ok epoch ∧ heldCommittee w committee k = .ok held ∧
    epoch ≠ held.epoch

/-- After so many refetches, the certificate was built against the committee: both
are the given ones, or those of the last refetch. -/
def BuiltAgainst (w : World) (blobId : Bytes) (registration : Registration)
    (given : WalrusCommittee × Certificate) (log : List Event) (refetches : Nat)
    (committee : WalrusCommittee) (certificate : Certificate) : Prop :=
  refetches = 0 ∧ committee = given.1 ∧ certificate = given.2 ∨
    0 < refetches ∧ w.committee refetches = .ok committee ∧
      w.confirmations refetches = .ok certificate ∧
      .collecting refetches (confirmationQuery w refetches committee blobId registration) ∈ log

/-- What holds of a call of `certify`, whatever it reads. -/
structure EpochSafe (w : World) (blobId : Bytes) (terms : CertifyTerms)
    (given : WalrusCommittee × Certificate) (maxAttempts : Int)
    (call : Program NativeBlobReceipt) : Prop where
  once : call.log.countP Event.submitsTx2 ≤ 1
  /-- Tx2 carries a certificate that was checked against a committee -/
  carries : ∀ txn, .submitted .tx2 txn ∈ call.log → ∃ committee certificate,
    .certifying committee terms.registration certificate ∈ call.log ∧
      CertifyTerms.Composes w terms certificate txn
  /-- that committee is the current one, and the certificate is its own -/
  current : ∀ committee registration certificate,
    .certifying committee registration certificate ∈ call.log →
      call.log.countP Event.isEpochRead = call.log.countP Event.isCommitteeRead + 1 ∧
      w.epoch (call.log.countP Event.isCommitteeRead) = .ok committee.epoch ∧
      BuiltAgainst w blobId terms.registration given call.log
        (call.log.countP Event.isCommitteeRead) committee certificate
  reads : (call.log.countP Event.isEpochRead : Int) ≤ max 1 maxAttempts
  refetches : (call.log.countP Event.isCommitteeRead : Int) ≤ max 1 maxAttempts - 1
  /-- nothing is submitted if every read disagrees; it gives up after its last
  read, or its last refetch raises -/
  disagreeing : Disagrees w given.1 (call.log.countP Event.isEpochRead) →
    (∀ tx txn, .submitted tx txn ∉ call.log) ∧
    ((∃ message, call.result =
        .error (.nativeUpload .epochMismatchError message "certify" none) ∧
        (call.log.countP Event.isEpochRead : Int) = max 1 maxAttempts) ∨
      0 < call.log.countP Event.isCommitteeRead ∧ ∃ e, call.result = .error e ∧
        RefetchRaises w blobId terms.registration (call.log.countP Event.isCommitteeRead) e)

/-- The loop gave up, or was stopped. -/
private theorem Settles.epochSafe_of_raised {terms : CertifyTerms} {maxAttempts : Int}
    {given : WalrusCommittee × Certificate} {e : PyExn} {log : List Event}
    (h : Settles w blobId terms.registration (maxAttempts - 1).toNat 0 given.1 given.2
      ⟨.error e, log⟩) :
    EpochSafe w blobId terms given maxAttempts ⟨.error e, log⟩ := by
  have hreads : log.countP Event.isEpochRead ≤ (maxAttempts - 1).toNat + 1 := h.reads_le.1
  have hrefetches : log.countP Event.isCommitteeRead ≤ (maxAttempts - 1).toNat := h.reads_le.2
  have hquiet : ∀ event ∈ log, event = .readEpoch ∨ event = .readCommittee ∨
      ∃ k query, event = .collecting k query := h.quiet
  refine ⟨?_, ?_, ?_, ?_, ?_, fun hdisagrees => ⟨?_, ?_⟩⟩
  · have hnone : log.countP Event.submitsTx2 = 0 := by
      apply List.countP_eq_zero.mpr
      intro event hevent
      rcases hquiet event hevent with rfl | rfl | ⟨k, query, rfl⟩ <;> simp [Event.submitsTx2]
    exact hnone.le.trans (Nat.zero_le 1)
  · intro txn hmem
    rcases hquiet _ hmem with h | h | ⟨k, query, h⟩ <;> cases h
  · intro committee registration certificate hmem
    rcases hquiet _ hmem with h | h | ⟨k, query, h⟩ <;> cases h
  · show (log.countP Event.isEpochRead : Int) ≤ max 1 maxAttempts
    omega
  · show (log.countP Event.isCommitteeRead : Int) ≤ max 1 maxAttempts - 1
    omega
  · intro tx txn hmem
    rcases hquiet _ hmem with h | h | ⟨k, query, h⟩ <;> cases h
  · rcases h.raised rfl with ⟨message, rfl, hall⟩ | ⟨k, hk, hunread⟩ | ⟨hrefetched, hraises⟩
    · refine .inl ⟨message, rfl, ?_⟩
      show (log.countP Event.isEpochRead : Int) = max 1 maxAttempts
      have hall' : log.countP Event.isEpochRead = (maxAttempts - 1).toNat + 1 := hall
      omega
    · obtain ⟨epoch, held, hread, -, -⟩ := hdisagrees k hk
      rw [Nat.zero_add] at hunread
      exact nomatch hread.symm.trans hunread
    · rw [Nat.zero_add] at hraises
      exact .inr ⟨hrefetched, e, rfl, hraises⟩

/-- The loop settled, and what it settled on was submitted. -/
private theorem Settles.epochSafe_of_settled {terms : CertifyTerms} {maxAttempts : Int}
    {given : WalrusCommittee × Certificate} {current : WalrusCommittee} {built : Certificate}
    {log : List Event} {errorType : ErrorType} (receipt : CertificationOutcome → NativeBlobReceipt)
    (h : Settles w blobId terms.registration (maxAttempts - 1).toNat 0 given.1 given.2
      ⟨.ok (current, built), log⟩) :
    EpochSafe w blobId terms given maxAttempts
      ((submitCertification w current terms built errorType >>= fun outcome =>
        pure (receipt outcome)).after log) := by
  have hreads : log.countP Event.isEpochRead ≤ (maxAttempts - 1).toNat + 1 := h.reads_le.1
  have hrefetches : log.countP Event.isCommitteeRead ≤ (maxAttempts - 1).toNat := h.reads_le.2
  have hquiet : ∀ event ∈ log, event = .readEpoch ∨ event = .readCommittee ∨
      ∃ k query, event = .collecting k query := h.quiet
  obtain ⟨n, hcommittees, hepochs, hepoch, hsource⟩ := h.settled rfl
  simp only [Nat.zero_add] at hcommittees hepochs hepoch hsource
  obtain ⟨tx2, htx2⟩ : ∃ tx2, tx2 = submitCertification w current terms built errorType :=
    ⟨_, rfl⟩
  obtain ⟨call, hcall⟩ : ∃ call : Program NativeBlobReceipt,
    call = (tx2 >>= fun outcome => pure (receipt outcome)).after log := ⟨_, rfl⟩
  rw [← htx2, ← hcall]
  have hlog : call.log = log ++ tx2.log := by
    rw [hcall]
    show log ++ (tx2 >>= fun outcome => pure (receipt outcome)).log = log ++ tx2.log
    rw [Logged.log_bind_pure]
  have htx2Events : ∀ event ∈ tx2.log, event.isEpochRead = false ∧
      event.isCommitteeRead = false ∧
      (∀ committee registration certificate,
        event = .certifying committee registration certificate →
          committee = current ∧ certificate = built) ∧
      ∀ txn, event = .submitted .tx2 txn →
        .certifying current terms.registration built ∈ tx2.log ∧
          CertifyTerms.Composes w terms built txn := by
    rw [htx2]
    exact submitCertification_events
  have hepochReads : call.log.countP Event.isEpochRead = n + 1 := by
    have hnone : tx2.log.countP Event.isEpochRead = 0 :=
      List.countP_eq_zero.mpr fun event hevent => by simp [(htx2Events event hevent).1]
    rw [hlog, List.countP_append, hnone]
    exact hepochs
  have hcommitteeReads : call.log.countP Event.isCommitteeRead = n := by
    have hnone : tx2.log.countP Event.isCommitteeRead = 0 :=
      List.countP_eq_zero.mpr fun event hevent => by simp [(htx2Events event hevent).2.1]
    rw [hlog, List.countP_append, hnone]
    exact hcommittees
  have hbuilt : BuiltAgainst w blobId terms.registration given call.log n current built := by
    rcases hsource with hgiven | ⟨hpos, hcommittee, hconfirmations, hcollecting⟩
    · exact .inl hgiven
    · exact .inr ⟨hpos, hcommittee, hconfirmations, hlog ▸ List.mem_append_left _ hcollecting⟩
  constructor
  · have hnone : log.countP Event.submitsTx2 = 0 := by
      apply List.countP_eq_zero.mpr
      intro event hevent
      rcases hquiet event hevent with rfl | rfl | ⟨k, query, rfl⟩ <;> simp [Event.submitsTx2]
    rw [hlog, List.countP_append, hnone, Nat.zero_add, htx2]
    exact submitCertification_once
  · intro txn hmem
    rw [hlog] at hmem ⊢
    rcases List.mem_append.mp hmem with hmem | hmem
    · rcases hquiet _ hmem with h | h | ⟨k, query, h⟩ <;> cases h
    · obtain ⟨-, -, -, hcarries⟩ := htx2Events _ hmem
      obtain ⟨hcertifying, hcomposes⟩ := hcarries txn rfl
      exact ⟨current, built, List.mem_append_right _ hcertifying, hcomposes⟩
  · intro committee registration certificate hmem
    have hsubmitted : committee = current ∧ certificate = built := by
      rw [hlog] at hmem
      rcases List.mem_append.mp hmem with hmem | hmem
      · rcases hquiet _ hmem with h | h | ⟨k, query, h⟩ <;> cases h
      · exact (htx2Events _ hmem).2.2.1 _ _ _ rfl
    obtain ⟨rfl, rfl⟩ := hsubmitted
    rw [hepochReads, hcommitteeReads]
    exact ⟨rfl, hepoch, hbuilt⟩
  · omega
  · omega
  · intro hdisagrees
    obtain ⟨epoch, held, hread, hheld, hmoved⟩ := hdisagrees n (by omega)
    obtain rfl : current.epoch = epoch := Except.ok.inj (hepoch.symm.trans hread)
    -- the committee held at the last read is the one that is submitted
    have hsame : held = current := by
      rcases hsource with ⟨rfl, rfl, -⟩ | ⟨hpos, hcommittee, -⟩
      · exact (Except.ok.inj hheld).symm
      · obtain ⟨k, rfl⟩ : ∃ k, n = k + 1 := ⟨n - 1, by omega⟩
        exact Except.ok.inj (hheld.symm.trans hcommittee)
    exact absurd (congrArg WalrusCommittee.epoch hsame.symm) hmoved

/-- **Certification is epoch safe.** Tx2 is submitted at most once, with a
certificate built against the committee it is checked against, whose epoch is
the one read last; there are no more reads than allowed and one refetch fewer.
If every read disagrees nothing is submitted, and the call gives up or raises
what a refetch raised. -/
theorem certify_epochSafe (w : World) (committee : WalrusCommittee) (blobId : Bytes)
    (terms : CertifyTerms) (certificate : Certificate) (maxAttempts : Int)
    (stageTimings : StageTimings) :
    EpochSafe w blobId terms (committee, certificate) maxAttempts
      (certify w committee blobId terms certificate maxAttempts stageTimings) := by
  obtain ⟨loop, hloop⟩ : ∃ loop, loop = settleCommittee w blobId terms.registration
    (maxAttempts - 1).toNat 0 committee certificate := ⟨_, rfl⟩
  have hsettles : Settles w blobId terms.registration (maxAttempts - 1).toNat 0 committee
      certificate loop := hloop ▸ settleCommittee_settles _ _ _ _
  unfold certify
  rw [← hloop]
  clear hloop
  obtain ⟨result, log⟩ := loop
  cases result with
  | error e =>
    rw [Logged.mk_error_bind]
    exact hsettles.epochSafe_of_raised
  | ok settled =>
    obtain ⟨current, built⟩ := settled
    rw [Logged.mk_ok_bind]
    exact hsettles.epochSafe_of_settled _

/-! The epoch has moved on, and the one node of the new committee does not
answer. -/

namespace UnconfirmedRetry

private def moved : WalrusCommittee := ⟨2, 1, [⟨"node", [0], "node:1", [6]⟩]⟩

private def unconfirmed : String :=
  "No storage node returned a usable confirmation out of 1 candidates queried"

private def world : World :=
  { World.small with
    epoch := fun _ => .ok 2
    committee := fun _ => .ok moved
    nodeAnswers := fun _ _ => .ok (.failed "unreachable")
    confirmations := fun _ => .error (.nativeUpload .confirmationCollectionError unconfirmed
      "collect_confirmations" none) }

private def smallBlobId : Bytes := List.replicate 32 7

private def stored : Registration := ⟨"0xb", smallBlobId, 9, false, "digest"⟩

private def given : WalrusCommittee := ⟨1, 1, [⟨"node", [0], "node:1", [6]⟩]⟩

private def terms : CertifyTerms := ⟨stored, "0x1", none, none, none⟩

private def givenCertificate : Certificate := ⟨[], [1], [1], [0], 1⟩

private def timings : StageTimings := ⟨none, none, none, none, none, none⟩

private def call : Program NativeBlobReceipt :=
  certify world given smallBlobId terms givenCertificate 2 timings

private def poll : Confirm.Poll where
  bls := world.bls
  committee := moved
  expectedMessage := [0, 0, 0, 2, 0, 0, 0] ++ List.replicate 32 7
  candidates := moved.members
  answers := world.nodeAnswers 1

private def request : poll.Request := ⟨0, by decide⟩

private def fails : List (CommitteeFanout.Action poll.Request PyExn
    (ExecuteOutcome Confirm.SignedConfirmation)) :=
  [.finish request (.returned (poll.answers 0)), .wake [request]]

private theorem collects :
    Confirm.Collects (confirmationQuery world 1 moved smallBlobId stored)
      (world.confirmations 1) := by
  obtain ⟨s, hrun, hexit, hreports, hfinish⟩ :
      ∃ s, CommitteeFanout.Runs poll.callbacks (List.finRange poll.candidates.length) .empty
          fails s ∧ s.phase = .exited .returned ∧
        s.reports = [.completed request (.returned (poll.answers 0))] ∧
        poll.finish s.acc = world.confirmations 1 := ⟨_, rfl, rfl, rfl, rfl⟩
  have hmessage : (confirmationQuery world 1 moved smallBlobId stored).expectedMessage =
      .ok poll.expectedMessage := by
    unfold Confirm.Query.expectedMessage
    rw [show (confirmationQuery world 1 moved smallBlobId stored).registration.deletable = false
      from rfl, if_neg Bool.false_ne_true]
    exact congrArg Except.ok (by decide : Certification.confirmationMessage world.bls 2
      smallBlobId none = poll.expectedMessage)
  have hpoll : (confirmationQuery world 1 moved smallBlobId stored).poll = .ok poll := by
    unfold Confirm.Query.poll
    rw [hmessage]
    rfl
  refine hfinish ▸ .collected hpoll hrun hexit fun i r hr => ?_
  rw [hreports, List.mem_singleton] at hr
  cases hr
  rfl

end UnconfirmedRetry

/-- A refetch that finds no quorum ends the call with its own error. -/
theorem certify_epochSafe_unconfirmed :
    ¬ ∀ (w : World) (committee : WalrusCommittee) (blobId : Bytes) (terms : CertifyTerms)
      (certificate : Certificate) (maxAttempts : Int) (stageTimings : StageTimings),
      let call := certify w committee blobId terms certificate maxAttempts stageTimings
      (∀ k, ∃ epoch, w.epoch k = .ok epoch) → (∀ k, ∃ c, w.committee k = .ok c) →
      (∀ event ∈ call.log, w.Possible event) →
      Disagrees w committee (call.log.countP Event.isEpochRead) →
      ∃ message, call.result =
        .error (.nativeUpload .epochMismatchError message "certify" none) := by
  intro hclaim
  have hlog : UnconfirmedRetry.call.log = [.readEpoch, .readCommittee, .collecting 1
      (confirmationQuery UnconfirmedRetry.world 1 UnconfirmedRetry.moved
        UnconfirmedRetry.smallBlobId UnconfirmedRetry.stored)] := rfl
  obtain ⟨message, hmismatch⟩ := hclaim UnconfirmedRetry.world UnconfirmedRetry.given
    UnconfirmedRetry.smallBlobId UnconfirmedRetry.terms UnconfirmedRetry.givenCertificate 2
    UnconfirmedRetry.timings (fun _ => ⟨2, rfl⟩) (fun _ => ⟨UnconfirmedRetry.moved, rfl⟩)
    (by
      show ∀ event ∈ UnconfirmedRetry.call.log, UnconfirmedRetry.world.Possible event
      rw [hlog]
      simp [World.Possible, UnconfirmedRetry.collects])
    (by
      show Disagrees _ _ (UnconfirmedRetry.call.log.countP Event.isEpochRead)
      rw [hlog]
      intro k hk
      obtain rfl : k = 0 := Nat.lt_one_iff.mp hk
      exact ⟨2, UnconfirmedRetry.given, rfl, rfl, by decide⟩)
  have hresult : UnconfirmedRetry.call.result = .error (.nativeUpload
      .confirmationCollectionError UnconfirmedRetry.unconfirmed "collect_confirmations" none) :=
    rfl
  cases hmismatch.symm.trans hresult

end Pytusk.Pipelines
