import Pytusk.Certification.Soundness
import Pytusk.CommitteeFanout.Choreography
import Pytusk.NativeUpload.Confirm

/-!
# What a collection of confirmations folds

A run's accumulators are the confirmations of the requests whose answers were
folded, each request at most once. Where every member of the committee is
asked and node ids are distinct, each confirmation is of the member at its
position, and no two share one.
-/

namespace Pytusk.Confirm

open Pytusk.Lib Pytusk.Certification Pytusk.CommitteeFanout

namespace Poll

variable (p : Poll)

/-! ## How the requests would be answered -/

/-- The usable confirmation a request would bring, if any. -/
def confirmation (i : p.Request) : Option NodeConfirmation :=
  (confirmationOutcomeFromTask p.committee (p.candidates.get i)
    (.returned (p.answers i))).1

/-- The committee position of the node behind a request. -/
def position (i : p.Request) : Except PyExn Nat :=
  p.committee.positionOf (p.candidates.get i).nodeId

variable {p}

/-- What a confirmation takes from the member that sent it. -/
theorem confirmation_eq_some {i : p.Request} {conf : NodeConfirmation}
    (h : p.confirmation i = some conf) :
    conf.weight = (p.candidates.get i).weight ∧
      conf.publicKey = (p.candidates.get i).publicKey ∧
      p.position i = .ok conf.position := by
  unfold position
  unfold confirmation confirmationOutcomeFromTask at h
  generalize p.candidates.get i = m at h ⊢
  cases hans : p.answers i with
  | error e => simp [hans, confirmNode] at h
  | ok result =>
    cases result with
    | failed text => simp [hans, confirmNode] at h
    | ok data =>
      cases data with
      | none => simp [hans, confirmNode] at h
      | some signed =>
        cases hpos : p.committee.positionOf m.nodeId with
        | error e => simp [hans, confirmNode, hpos] at h
        | ok position =>
          simp only [hans, confirmNode, hpos, ok_bind, pure_eq_ok,
            Option.some.injEq] at h
          subst h
          exact ⟨rfl, rfl, rfl⟩

/-! ## What a run folds -/

/-- The accumulators once the answers to `l` have been folded. -/
def collect (p : Poll) (l : List p.Request) : Collected :=
  { confirmations := l.filterMap p.confirmation
    weightConfirmed := totalWeight (l.filterMap p.confirmation) }

theorem fold_collect (l : List p.Request) (i : p.Request) :
    fold p.committee (p.candidates.get i) (p.collect l) (.returned (p.answers i)) =
      p.collect (l ++ [i]) := by
  have hconf : (confirmationOutcomeFromTask p.committee (p.candidates.get i)
    (.returned (p.answers i))).1 = p.confirmation i := rfl
  simp only [fold, hconf, collect, List.filterMap_append]
  cases hi : p.confirmation i with
  | none => simp [hi]
  | some conf => simp [hi, totalWeight]

/-- Folding is collecting what was folded. -/
theorem replay_eq_collect
    (reports : List (Report p.Request PyExn (ExecuteOutcome SignedConfirmation)))
    (hans : ∀ i r, Report.completed i r ∈ reports → r = .returned (p.answers i)) :
    replay p.callbacks .empty reports = p.collect (folded reports) := by
  induction reports using List.reverseRecOn with
  | nil => rfl
  | append_singleton front last ih =>
    have hfront := ih fun i r h => hans i r (List.mem_append_left _ h)
    rw [replay_append, hfront]
    cases last with
    | cancelled i => simp [replay, applyReport, callbacks, folded]
    | completed i r =>
      obtain rfl := hans i r (by simp)
      have hfolded : folded (front ++ [.completed i (.returned (p.answers i))]) =
          folded front ++ [i] := by
        simp [folded]
      rw [hfolded, ← fold_collect]
      rfl

/-- **What a run has collected** is the confirmations of the requests it folded,
each of them once. -/
theorem acc_eq_collect
    {acts : List (Action p.Request PyExn (ExecuteOutcome SignedConfirmation))}
    {s : State p.Request PyExn (ExecuteOutcome SignedConfirmation) Collected}
    (hrun : Runs p.callbacks (List.finRange p.candidates.length) .empty acts s)
    (hans : ∀ i r, Report.completed i r ∈ s.reports → r = .returned (p.answers i)) :
    s.acc = p.collect (folded s.reports) ∧ (folded s.reports).Nodup :=
  ⟨hrun.inv.acc.trans (replay_eq_collect s.reports hans),
    (hrun.reported_nodup (List.nodup_finRange _)).sublist (folded_sublist _)⟩

/-! ## Asking the whole committee -/

section WholeCommittee

variable (hd : p.committee.Distinct) (hall : p.candidates = p.committee.members)
include hd hall

/-- Request `i` brings a confirmation of the member at position `i`. -/
theorem confirmation_position {i : p.Request} {conf : NodeConfirmation}
    (h : p.confirmation i = some conf) : conf.position = i.val := by
  have hmember : p.committee.members[i.val]? = some (p.candidates.get i) := by
    rw [← hall]
    exact List.getElem?_eq_getElem i.isLt
  have hposition := WalrusCommittee.positionOf_of_getElem? hd hmember
  have hconf := (confirmation_eq_some h).2.2
  exact Except.ok.inj (hconf.symm.trans hposition)

theorem collect_fromMember (l : List p.Request) :
    ∀ conf ∈ (p.collect l).confirmations, FromMember p.committee conf := by
  intro conf hconf
  obtain ⟨i, -, hi⟩ := List.mem_filterMap.mp hconf
  obtain ⟨hweight, hkey, -⟩ := confirmation_eq_some hi
  refine ⟨p.candidates.get i, ?_, hweight, hkey⟩
  rw [confirmation_position hd hall hi, ← hall]
  exact List.getElem?_eq_getElem i.isLt

theorem collect_positions_nodup {l : List p.Request} (hl : l.Nodup) :
    ((p.collect l).confirmations.map (·.position)).Nodup := by
  show ((l.filterMap p.confirmation).map (·.position)).Nodup
  rw [List.map_filterMap]
  refine List.Nodup.filterMap ?_ hl
  intro i j position hi hj
  obtain ⟨a, ha, hpa⟩ := Option.map_eq_some_iff.mp hi
  obtain ⟨b, hb, hpb⟩ := Option.map_eq_some_iff.mp hj
  rw [confirmation_position hd hall ha] at hpa
  rw [confirmation_position hd hall hb] at hpb
  exact Fin.ext (hpa.trans hpb.symm)

end WholeCommittee

theorem finish_eq_ok {l : List p.Request} {cert : Certificate}
    (h : p.finish (p.collect l) = .ok cert) :
    buildCertificate p.bls (p.collect l).confirmations p.committee.committeeSize
      p.committee.nShards (some p.expectedMessage) = .ok cert := by
  unfold finish at h
  split at h
  · cases h
  · split at h
    · cases h
    · cases h
    · cases h
    · exact h

end Poll

namespace Query

variable {q : Query}

/-- A query of the whole committee. -/
theorem poll_whole {p : Poll} (hwhole : q.positions = none) (h : q.poll = .ok p) :
    p.bls = q.bls ∧ p.committee = q.committee ∧
      p.candidates = p.committee.members ∧ q.expectedMessage = .ok p.expectedMessage := by
  obtain ⟨message, hmessage, hrest⟩ := bind_eq_ok.mp h
  obtain ⟨candidates, hcandidates, hp⟩ := bind_eq_ok.mp hrest
  rw [Query.candidates, hwhole] at hcandidates
  cases hcandidates
  cases hp
  exact ⟨rfl, rfl, rfl, hmessage⟩

end Query

/-- **A collected certificate is sound**, and is over the expected message. -/
theorem Collects.sound {q : Query} {cert : Certificate} (hd : q.committee.Distinct)
    (hwhole : q.positions = none) (h : Collects q (.ok cert)) :
    Sound q.committee cert ∧ q.expectedMessage = .ok cert.serializedMessage := by
  generalize hresult : Except.ok cert = result at h
  cases h with
  | undispatched => cases hresult
  | collected hp hrun _ hans =>
    obtain ⟨-, hcommittee, hcandidates, hmessage⟩ := q.poll_whole hwhole hp
    obtain ⟨hacc, -⟩ := Poll.acc_eq_collect hrun hans
    rw [hacc] at hresult
    have hbuild := Poll.finish_eq_ok hresult.symm
    rw [← hcommittee] at hd ⊢
    obtain ⟨hsound, hserialized⟩ := buildCertificate_sound
      (Poll.collect_fromMember hd hcandidates _) hbuild
    exact ⟨hsound, hserialized ▸ hmessage⟩

/-! ## What is raised instead -/

theorem Poll.finish_raises {p : Poll} {l : List p.Request} (hagg : AggregatesVerified p.bls)
    (hd : p.committee.Distinct) (hall : p.candidates = p.committee.members) (hl : l.Nodup) :
    OnlyRaises (·.isNativeUploadError = true) (p.finish (p.collect l)) := by
  unfold finish
  split
  · exact onlyRaises_error rfl
  · rename_i hne
    have hraises : OnlyRaises (isCertificateError · = true) (buildCertificate p.bls
        (p.collect l).confirmations p.committee.committeeSize p.committee.nShards
        (some p.expectedMessage)) :=
      buildCertificate_raises hagg hne (collect_fromMember hd hall l)
        (collect_positions_nodup hd hall hl)
    split
    · exact onlyRaises_error rfl
    · exact onlyRaises_error rfl
    · exact onlyRaises_error rfl
    · rename_i hquorum hmismatch hinvalid
      intro e he
      have herror : isCertificateError e = true := hraises e he
      unfold isCertificateError at herror
      split at herror
      · exact absurd he (hquorum _)
      · exact absurd he (hmismatch _)
      · exact absurd he (hinvalid _)
      · cases herror

/-- **A collection that fails raises a `NativeUploadError`**, once it has been
dispatched to a whole committee. -/
theorem Collects.raises {q : Query} {e : PyExn} (hagg : AggregatesVerified q.bls)
    (hd : q.committee.Distinct) (hwhole : q.positions = none) (hpoll : ∃ p, q.poll = .ok p)
    (h : Collects q (.error e)) : e.isNativeUploadError = true := by
  generalize hresult : Except.error e = result at h
  cases h with
  | undispatched herror =>
    obtain ⟨p, hp⟩ := hpoll
    exact nomatch hp.symm.trans herror
  | collected hp hrun _ hans =>
    obtain ⟨hbls, hcommittee, hcandidates, -⟩ := q.poll_whole hwhole hp
    obtain ⟨hacc, hnodup⟩ := Poll.acc_eq_collect hrun hans
    rw [hacc] at hresult
    exact Poll.finish_raises (hbls ▸ hagg) (hcommittee ▸ hd) hcandidates hnodup e hresult.symm

end Pytusk.Confirm
