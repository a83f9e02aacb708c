import Pytusk.Lib.Dict
import Pytusk.Types.Json

/-!
# `commands/walrus_command.py`: what a storage node answers

A 2xx body wraps its payload as `{"success": {"code": 200, "data": ..}}`; an
error body does not. `repr(value)` and `char.isprintable()` are parameters:
they only go into messages, which are kept here without surrogates.
-/

namespace Pytusk.Commands

open Pytusk.Lib

/-- A storage node's HTTP response. `text` is `response.text`, or the `repr` of
the content where that raises; `url` is absent where no request is attached,
and `json` is what `response.json()` returns or raises: a `ValueError` where the
body is no JSON, a `RecursionError` where it is nested too deeply. -/
structure NodeResponse where
  statusCode : Nat
  reasonPhrase : String
  url : Option String
  text : String
  json : Except PyExn Json

/-- `response.is_error` -/
def NodeResponse.isError (response : NodeResponse) : Bool :=
  400 ≤ response.statusCode && response.statusCode ≤ 599

/-- `fields.get(name)` -/
def get (fields : List (PyStr × Json)) (name : String) : Json :=
  (Dict.get? fields (Json.key name)).getD .none

theorem get_eq_of_get? {fields : List (PyStr × Json)} {name : String} {value : Json}
    (h : Dict.get? fields (Json.key name) = some value) : get fields name = value := by
  rw [get, h, Option.getD_some]

theorem get?_of_get {fields : List (PyStr × Json)} {name : String} {value : Json}
    (h : get fields name = value) (hvalue : value ≠ .none) :
    Dict.get? fields (Json.key name) = some value := by
  unfold get at h
  cases hget : Dict.get? fields (Json.key name) with
  | none =>
    rw [hget] at h
    exact absurd h.symm hvalue
  | some found => rw [← h, hget, Option.getD_some]

/-! ## Messages -/

/-- `_MAX_ERROR_BODY_CHARS` -/
def maxErrorBodyChars : Nat := 512

/-- `_response_body_for_log` -/
def responseBodyForLog (isPrintable : Char → Bool) (response : NodeResponse) : String :=
  let body := response.text.toList.map fun char =>
    if char = '\t' || char = '\n' || isPrintable char then char else ' '
  if maxErrorBodyChars < body.length then
    String.ofList (body.take maxErrorBodyChars) ++ "...[truncated]"
  else String.ofList body

/-- The loop over `details`: the first object that has a `reason` decides. -/
def firstReason : List Json → Option PyStr
  | [] => none
  | .dict detail :: rest =>
      match Dict.get? detail (Json.key "reason") with
      | some (.str reason) => some reason
      | some _ => none
      | none => firstReason rest
  | _ :: rest => firstReason rest

/-- The reason in a body that was decoded. -/
def reasonIn : Json → Option PyStr
  | .dict body =>
      match get body "error" with
      | .dict error =>
          match get error "details" with
          | .list details => firstReason details
          | _ => none
      | _ => none
  | _ => none

def errorReason (response : NodeResponse) : Except PyExn (Option PyStr) := do
  let body ← PyExn.noneOnValueError response.json
  return body.bind reasonIn

def httpFailureMessage (isPrintable : Char → Bool) (response : NodeResponse) (context : String) :
    Except PyExn String := do
  let reason ← errorReason response
  let reasonSuffix :=
    match reason with
    | some (c :: cs) =>
        let reason := PyStr.textOf (c :: cs)
        s!" (reason={reason})"
    | _ => ""
  let statusCode := response.statusCode
  let reasonPhrase := response.reasonPhrase
  let url := response.url.getD "<unknown url>"
  let body := responseBodyForLog isPrintable response
  return s!"HTTP {statusCode} {reasonPhrase} for {url} [{context}]{reasonSuffix}: {body}"

/-! ## The success envelope -/

/-- What `unwrap_storage_node_envelope` raises: its own exception, or one that
`response.json()` raises and it does not catch. -/
inductive EnvelopeExn where
  | storageNodeEnvelopeError (message : String)
  | raised (exc : PyExn)
  deriving DecidableEq, Repr

/-- A `data` member: an object, or the name of a unit variant. -/
inductive EnvelopeData where
  | dict (items : List (PyStr × Json))
  | str (s : PyStr)

/-- The member as it stood in the body. -/
def EnvelopeData.toJson : EnvelopeData → Json
  | .dict items => .dict items
  | .str s => .str s

/-- `f"{value}"`, where a string stands for itself. -/
def shown (repr : Json → String) : Json → String
  | .str s => PyStr.textOf s
  | value => repr value

def unwrapStorageNodeEnvelope (repr : Json → String) (response : NodeResponse)
    (context : String) : Except EnvelopeExn EnvelopeData :=
  let envelopeError (message : String) : Except EnvelopeExn EnvelopeData :=
    .error (.storageNodeEnvelopeError message)
  match response.json with
  | .error e =>
      if e.isValueError then
        let exc := e.message
        envelopeError s!"Malformed storage-node response body [{context}]: {exc}"
      else .error (.raised e)
  | .ok (.dict body) =>
      let shownBody := repr (.dict body)
      match get body "success" with
      | .dict success =>
          match Dict.get? success (Json.key "data") with
          | none => envelopeError
              s!"Unexpected storage-node response, missing 'data' [{context}]: {shownBody}"
          | some (.dict items) => .ok (.dict items)
          | some (.str s) => .ok (.str s)
          | some data =>
              let shownData := repr data
              envelopeError s!"Unexpected storage-node 'data' member [{context}]: {shownData}"
      | _ => envelopeError
          s!"Unexpected storage-node response, missing 'success' [{context}]: {shownBody}"
  | .ok body =>
      let shownBody := shown repr body
      envelopeError s!"Unexpected storage-node response [{context}]: {shownBody}"

/-- A body is the success envelope of its `data`. -/
def Envelope (body : Json) (data : EnvelopeData) : Prop :=
  ∃ members success, body = .dict members ∧
    Dict.get? members (Json.key "success") = some (.dict success) ∧
    Dict.get? success (Json.key "data") = some data.toJson

/-- What is unwrapped is what was wrapped. -/
theorem unwrapStorageNodeEnvelope_eq_ok {repr : Json → String} {response : NodeResponse}
    {context : String} {data : EnvelopeData} :
    unwrapStorageNodeEnvelope repr response context = .ok data ↔
      ∃ body, response.json = .ok body ∧ Envelope body data := by
  constructor
  · intro h
    unfold unwrapStorageNodeEnvelope at h
    split at h
    · split at h <;> cases h
    · rename_i body hjson
      dsimp only at h
      split at h
      · rename_i success hsuccess
        have hmember := get?_of_get hsuccess (by simp)
        split at h
        · cases h
        · rename_i items hdata
          cases h
          exact ⟨_, hjson, _, _, rfl, hmember, hdata⟩
        · rename_i s hdata
          cases h
          exact ⟨_, hjson, _, _, rfl, hmember, hdata⟩
        · cases h
      · cases h
    · cases h
  · rintro ⟨body, hjson, members, success, rfl, hsuccess, hdata⟩
    unfold unwrapStorageNodeEnvelope
    rw [hjson]
    dsimp only
    rw [get_eq_of_get? hsuccess]
    dsimp only
    rw [hdata]
    cases data with
    | dict items => rfl
    | str s => rfl

end Pytusk.Commands
