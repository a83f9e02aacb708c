import Pytusk.Chain.BlobFields
import Pytusk.Commands.WalrusCommand
import Pytusk.Encoding.Redstuff
import Pytusk.Types.BlobStatus
import Pytusk.Types.Protocols

/-!
# `commands/node_commands.py`: reading a node's blob status

The status is an externally tagged union. `parse_response` is stated against
the encodings it reads: a status is returned exactly for the bodies that encode
it, and nothing is raised for any other that can be decoded.
-/

namespace Pytusk.Commands

open Pytusk.Lib

/-! ## The parts of a status -/

section Parse

variable (parseInt : PyStr → Option Int) (repr : Json → String) (context : String)

/-- `_parse_event_ref`. A number stands for itself, a string for the number
`int` reads. -/
def parseEventRef (raw : Json) : Except PyExn EventRef :=
  match raw with
  | .dict fields =>
      let shownRaw := repr raw
      match get fields "txDigest" with
      | .str txDigest =>
          let convert (eventSeq : Json) : Except PyExn EventRef :=
            match BlobFields.pyInt parseInt eventSeq with
            | .ok n => .ok { txDigest := txDigest, eventSeq := n }
            | .error e =>
                if e.isValueError then
                  let exc := e.message
                  .error (.valueError s!"event has non-integer 'eventSeq' [{context}]: {exc}")
                else .error e
          match get fields "eventSeq" with
          | .str s => convert (.str s)
          | .int n => convert (.int n)
          | _ => .error (.typeError s!"event missing 'eventSeq' [{context}]: {shownRaw}")
      | _ => .error (.typeError s!"event missing 'txDigest' [{context}]: {shownRaw}")
  | raw => .error (.typeError (s!"event is not an object [{context}]: " ++ repr raw))

/-- One count of `deletableCounts`; a `bool` is no integer here. -/
def deletableCount (fields : List (PyStr × Json)) (name : String) : Except PyExn Int :=
  match get fields name with
  | .int n => .ok n
  | _ =>
      let shownRaw := repr (.dict fields)
      .error (.typeError s!"deletableCounts missing '{name}' [{context}]: {shownRaw}")

/-- `_parse_deletable_counts` -/
def parseDeletableCounts (raw : Json) : Except PyExn DeletableCounts :=
  match raw with
  | .dict fields => do
      let total ← deletableCount repr context fields "count_deletable_total"
      let certified ← deletableCount repr context fields "count_deletable_certified"
      return { total := total, certified := certified }
  | raw => .error (.typeError (s!"deletableCounts is not an object [{context}]: " ++ repr raw))

/-- `_parse_optional_epoch` -/
def parseOptionalEpoch (raw : Json) (field : String) : Except PyExn (Option Int) :=
  match raw with
  | .none => .ok none
  | .int n => .ok (some n)
  | raw => .error (.typeError (s!"{field} is not an integer [{context}]: " ++ repr raw))

/-- What the `try` makes of a variant and its payload; `none` is a variant it
does not know. -/
def parseVariant (variant : PyStr) (payload : List (PyStr × Json)) :
    Except PyExn (Option ReportedStatus) :=
  let shownPayload := repr (.dict payload)
  if variant = Json.key "permanent" then
    match get payload "endEpoch", get payload "isCertified" with
    | .int endEpoch, .bool isCertified => do
        let statusEvent ← parseEventRef parseInt repr context (get payload "statusEvent")
        let counts ← parseDeletableCounts repr context (get payload "deletableCounts")
        let epoch ← parseOptionalEpoch repr context (get payload "initialCertifiedEpoch")
          "initialCertifiedEpoch"
        return some (.permanent endEpoch isCertified statusEvent counts epoch)
    | .int _, _ => .error (.valueError s!"missing 'isCertified' [{context}]: {shownPayload}")
    | _, _ => .error (.valueError s!"missing 'endEpoch' [{context}]: {shownPayload}")
  else if variant = Json.key "deletable" then do
    let counts ← parseDeletableCounts repr context (get payload "deletableCounts")
    let epoch ← parseOptionalEpoch repr context (get payload "initialCertifiedEpoch")
      "initialCertifiedEpoch"
    return some (.deletable counts epoch)
  else if variant = Json.key "invalid" then do
    let statusEvent ← parseEventRef parseInt repr context (get payload "event")
    return some (.invalid statusEvent)
  else .ok none

/-- `parse_response`, of the unwrapped `data`. -/
def parseData (data : EnvelopeData) : ExecuteOutcome ReportedStatus :=
  match data with
  | .str s =>
      let shownData := repr (.str s)
      if s = Json.key "nonexistent" then .ok (.ok (some .nonexistent))
      else .ok (.failed s!"Unknown blob-status variant [{context}]: {shownData}")
  | .dict [(variant, payload)] =>
      let shownVariant := repr (.str variant)
      match payload with
      | .dict fields =>
          match parseVariant parseInt repr context variant fields with
          | .ok (some status) => .ok (.ok (some status))
          | .ok none => .ok (.failed s!"Unknown blob-status variant [{context}]: {shownVariant}")
          | .error e =>
              if e.isTypeError || e.isValueError then
                let exc := e.message
                .ok (.failed s!"Malformed blob-status {shownVariant} payload: {exc}")
              else .error e
      | payload =>
          let shownPayload := repr payload
          .ok (.failed (s!"blob-status variant {shownVariant} payload is not an object " ++
            s!"[{context}]: {shownPayload}"))
  | .dict items =>
      let variants := repr (.list (((Dict.keys items).insertionSort (· ≤ ·)).map .str))
      .ok (.failed s!"Expected exactly one blob-status variant [{context}]: {variants}")

end Parse

/-- `ReadBlobStatus.parse_response` -/
def parseResponse (parseInt : PyStr → Option Int) (repr : Json → String)
    (isPrintable : Char → Bool) (blobId : Bytes) (response : NodeResponse) :
    ExecuteOutcome ReportedStatus :=
  let blobId := Redstuff.blobIdToUrlBase64 blobId
  let context := s!"blob_id={blobId}"
  if response.isError then
    (httpFailureMessage isPrintable response context).map .failed
  else
    match unwrapStorageNodeEnvelope repr response context with
    | .ok data => parseData parseInt repr context data
    | .error (.storageNodeEnvelopeError message) => .ok (.failed message)
    | .error (.raised exc) => .error exc

/-! ## The encoding

Objects are read by their members: in any order, next to any others. How a
sequence number is written is a parameter of the relations. -/

section Encoding

variable (Seq : Int → Json → Prop)

def EncodesEvent (event : EventRef) (raw : Json) : Prop :=
  ∃ fields, raw = .dict fields ∧ get fields "txDigest" = .str event.txDigest ∧
    Seq event.eventSeq (get fields "eventSeq")

def EncodesCounts (counts : DeletableCounts) (raw : Json) : Prop :=
  ∃ fields, raw = .dict fields ∧ get fields "count_deletable_total" = .int counts.total ∧
    get fields "count_deletable_certified" = .int counts.certified

/-- An absent member is read like a `null`. -/
def encodeEpoch : Option Int → Json
  | none => .none
  | some epoch => .int epoch

inductive EncodesStatus : ReportedStatus → EnvelopeData → Prop
  | nonexistent : EncodesStatus .nonexistent (.str (Json.key "nonexistent"))
  | invalid {event : EventRef} {payload : List (PyStr × Json)}
      (hevent : EncodesEvent Seq event (get payload "event")) :
      EncodesStatus (.invalid event) (.dict [(Json.key "invalid", .dict payload)])
  | permanent {endEpoch : Int} {isCertified : Bool} {event : EventRef}
      {counts : DeletableCounts} {epoch : Option Int} {payload : List (PyStr × Json)}
      (hendEpoch : get payload "endEpoch" = .int endEpoch)
      (hisCertified : get payload "isCertified" = .bool isCertified)
      (hevent : EncodesEvent Seq event (get payload "statusEvent"))
      (hcounts : EncodesCounts counts (get payload "deletableCounts"))
      (hepoch : get payload "initialCertifiedEpoch" = encodeEpoch epoch) :
      EncodesStatus (.permanent endEpoch isCertified event counts epoch)
        (.dict [(Json.key "permanent", .dict payload)])
  | deletable {counts : DeletableCounts} {epoch : Option Int} {payload : List (PyStr × Json)}
      (hcounts : EncodesCounts counts (get payload "deletableCounts"))
      (hepoch : get payload "initialCertifiedEpoch" = encodeEpoch epoch) :
      EncodesStatus (.deletable counts epoch)
        (.dict [(Json.key "deletable", .dict payload)])

end Encoding

/-- The numbers a node's value is read as. -/
def ReadsAs (parseInt : PyStr → Option Int) (n : Int) (value : Json) : Prop :=
  value = .int n ∨ ∃ s, value = .str s ∧ parseInt s = some n

def envelope (data : EnvelopeData) : Json :=
  .dict [(Json.key "success", .dict [
    (Json.key "code", .int 200), (Json.key "data", data.toJson)])]

theorem EncodesEvent.mono {Seq Seq' : Int → Json → Prop} (h : ∀ n value, Seq n value → Seq' n value)
    {event : EventRef} {raw : Json} (hevent : EncodesEvent Seq event raw) :
    EncodesEvent Seq' event raw := by
  obtain ⟨fields, rfl, htxDigest, hseq⟩ := hevent
  exact ⟨fields, rfl, htxDigest, h _ _ hseq⟩

theorem EncodesStatus.mono {Seq Seq' : Int → Json → Prop}
    (h : ∀ n value, Seq n value → Seq' n value) {status : ReportedStatus} {data : EnvelopeData}
    (hstatus : EncodesStatus Seq status data) : EncodesStatus Seq' status data := by
  cases hstatus with
  | nonexistent => exact .nonexistent
  | invalid hevent => exact .invalid (hevent.mono h)
  | permanent hendEpoch hisCertified hevent hcounts hepoch =>
    exact .permanent hendEpoch hisCertified (hevent.mono h) hcounts hepoch
  | deletable hcounts hepoch => exact .deletable hcounts hepoch

section Reading

variable {parseInt : PyStr → Option Int} {repr : Json → String} {context : String}

theorem parseEventRef_eq_ok {raw : Json} {event : EventRef} :
    parseEventRef parseInt repr context raw = .ok event ↔
      EncodesEvent (ReadsAs parseInt) event raw := by
  constructor
  · intro h
    unfold parseEventRef at h
    split at h
    · rename_i fields
      dsimp only at h
      split at h
      · rename_i txDigest htxDigest
        split at h
        · rename_i s hseq
          cases hparse : parseInt s with
          | none => simp [BlobFields.pyInt, hparse, PyExn.isValueError, PyExn.valueError] at h
          | some n =>
            simp only [BlobFields.pyInt, hparse, Except.ok.injEq] at h
            subst h
            exact ⟨fields, rfl, htxDigest, .inr ⟨s, hseq, hparse⟩⟩
        · rename_i n hseq
          cases h
          exact ⟨fields, rfl, htxDigest, .inl hseq⟩
        · cases h
      · cases h
    · cases h
  · rintro ⟨fields, rfl, htxDigest, hseq | ⟨s, hseq, hparse⟩⟩
    · simp [parseEventRef, htxDigest, hseq, BlobFields.pyInt]
    · simp [parseEventRef, htxDigest, hseq, BlobFields.pyInt, hparse]

theorem deletableCount_eq_ok {fields : List (PyStr × Json)} {name : String} {n : Int} :
    deletableCount repr context fields name = .ok n ↔ get fields name = .int n := by
  unfold deletableCount
  split
  · rename_i m hget
    simp [hget]
  · rename_i hget
    simp only [reduceCtorEq, false_iff]
    exact hget n

theorem parseDeletableCounts_eq_ok {raw : Json} {counts : DeletableCounts} :
    parseDeletableCounts repr context raw = .ok counts ↔ EncodesCounts counts raw := by
  constructor
  · intro h
    unfold parseDeletableCounts at h
    split at h
    · rename_i fields
      obtain ⟨total, htotal, h⟩ := bind_eq_ok.mp h
      obtain ⟨certified, hcertified, h⟩ := bind_eq_ok.mp h
      cases h
      exact ⟨fields, rfl, deletableCount_eq_ok.mp htotal, deletableCount_eq_ok.mp hcertified⟩
    · cases h
  · rintro ⟨fields, rfl, htotal, hcertified⟩
    exact bind_eq_ok.mpr ⟨_, deletableCount_eq_ok.mpr htotal,
      bind_eq_ok.mpr ⟨_, deletableCount_eq_ok.mpr hcertified, rfl⟩⟩

theorem parseOptionalEpoch_eq_ok {raw : Json} {field : String} {epoch : Option Int} :
    parseOptionalEpoch repr context raw field = .ok epoch ↔ raw = encodeEpoch epoch := by
  cases epoch with
  | none => cases raw <;> simp [parseOptionalEpoch, encodeEpoch]
  | some n => cases raw <;> simp [parseOptionalEpoch, encodeEpoch]

theorem parseVariant_eq_ok {variant : PyStr} {payload : List (PyStr × Json)}
    {status : ReportedStatus} :
    parseVariant parseInt repr context variant payload = .ok (some status) ↔
      EncodesStatus (ReadsAs parseInt) status (.dict [(variant, .dict payload)]) := by
  constructor
  · intro h
    unfold parseVariant at h
    dsimp only at h
    split at h
    · rename_i hvariant
      subst hvariant
      split at h
      · rename_i endEpoch isCertified hendEpoch hisCertified
        obtain ⟨event, hevent, h⟩ := bind_eq_ok.mp h
        obtain ⟨counts, hcounts, h⟩ := bind_eq_ok.mp h
        obtain ⟨epoch, hepoch, h⟩ := bind_eq_ok.mp h
        cases h
        exact .permanent hendEpoch hisCertified (parseEventRef_eq_ok.mp hevent)
          (parseDeletableCounts_eq_ok.mp hcounts) (parseOptionalEpoch_eq_ok.mp hepoch)
      · cases h
      · cases h
    · split at h
      · rename_i hvariant
        subst hvariant
        obtain ⟨counts, hcounts, h⟩ := bind_eq_ok.mp h
        obtain ⟨epoch, hepoch, h⟩ := bind_eq_ok.mp h
        cases h
        exact .deletable (parseDeletableCounts_eq_ok.mp hcounts)
          (parseOptionalEpoch_eq_ok.mp hepoch)
      · split at h
        · rename_i hvariant
          subst hvariant
          obtain ⟨event, hevent, h⟩ := bind_eq_ok.mp h
          cases h
          exact .invalid (parseEventRef_eq_ok.mp hevent)
        · cases h
  · intro h
    cases h with
    | invalid hevent =>
      have hne : Json.key "invalid" ≠ Json.key "permanent" ∧
          Json.key "invalid" ≠ Json.key "deletable" := by decide
      simp [parseVariant, hne.1, hne.2, parseEventRef_eq_ok.mpr hevent]
    | permanent hendEpoch hisCertified hevent hcounts hepoch =>
      simp [parseVariant, hendEpoch, hisCertified, parseEventRef_eq_ok.mpr hevent,
        parseDeletableCounts_eq_ok.mpr hcounts, parseOptionalEpoch_eq_ok.mpr hepoch]
    | deletable hcounts hepoch =>
      have hne : Json.key "deletable" ≠ Json.key "permanent" := by decide
      simp [parseVariant, hne, parseDeletableCounts_eq_ok.mpr hcounts,
        parseOptionalEpoch_eq_ok.mpr hepoch]

/-- An answer: a status or the text of a failure. -/
def Answers (outcome : ExecuteOutcome ReportedStatus) (P : ReportedStatus → Prop) : Prop :=
  (∃ status, outcome = .ok (.ok (some status)) ∧ P status) ∨
    ∃ resultString, outcome = .ok (.failed resultString)

theorem parseData_of_encodes {data : EnvelopeData} {status : ReportedStatus}
    (h : EncodesStatus (ReadsAs parseInt) status data) :
    parseData parseInt repr context data = .ok (.ok (some status)) := by
  cases h with
  | nonexistent => simp [parseData]
  | invalid hevent => simp [parseData, parseVariant_eq_ok.mpr (.invalid hevent)]
  | permanent hendEpoch hisCertified hevent hcounts hepoch =>
    simp [parseData,
      parseVariant_eq_ok.mpr (.permanent hendEpoch hisCertified hevent hcounts hepoch)]
  | deletable hcounts hepoch =>
    simp [parseData, parseVariant_eq_ok.mpr (.deletable hcounts hepoch)]

end Reading

/-- A response answers with a status: a success whose body is the envelope of
an encoding of it. -/
def Carries (Seq : Int → Json → Prop) (response : NodeResponse) (status : ReportedStatus) : Prop :=
  response.isError = false ∧ ∃ body data, response.json = .ok body ∧ Envelope body data ∧
    EncodesStatus Seq status data

section Response

variable (parseInt : PyStr → Option Int) (repr : Json → String) (isPrintable : Char → Bool)
  (blobId : Bytes) (response : NodeResponse)

theorem parseResponse_of_carries {status : ReportedStatus}
    (h : Carries (ReadsAs parseInt) response status) :
    parseResponse parseInt repr isPrintable blobId response = .ok (.ok (some status)) := by
  obtain ⟨hsuccess, body, data, hjson, henvelope, hencodes⟩ := h
  unfold parseResponse
  dsimp only
  rw [if_neg (by simp [hsuccess]), unwrapStorageNodeEnvelope_eq_ok.mpr ⟨body, hjson, henvelope⟩]
  exact parseData_of_encodes hencodes

/-- No response carries two statuses. -/
theorem Carries.unique {parseInt : PyStr → Option Int} {response : NodeResponse}
    {status status' : ReportedStatus} (h : Carries (ReadsAs parseInt) response status)
    (h' : Carries (ReadsAs parseInt) response status') : status = status' := by
  have hread := parseResponse_of_carries parseInt (fun _ => "") (fun _ => true) [] response h
  rw [parseResponse_of_carries parseInt (fun _ => "") (fun _ => true) [] response h'] at hread
  simpa using hread.symm

end Response

end Pytusk.Commands
