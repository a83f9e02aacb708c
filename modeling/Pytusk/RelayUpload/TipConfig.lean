import Pytusk.Encoding.ObjectIds
import Pytusk.RelayUpload.Tip

/-!
# `commands/relay_commands.py`: parsing a relay's tip config

The only gate between the relay's JSON and what a write is asked to pay, and
to whom. A relay that charges names an address.
-/

namespace Pytusk.RelayUpload

open Pytusk.Lib

section Parse

variable (repr : Json → String)

/-- `_tip_amount`; a `bool` is no integer here. -/
def tipAmount (value : Json) (field : String) : Except PyExn Nat :=
  match value with
  | .int n =>
      if n < 0 then .error (.valueError s!"{field} must not be negative, got {n}")
      else .ok n.toNat
  | value => .error (.typeError (s!"{field} must be an integer, got " ++ repr value))

/-- `body[name]`, with a `KeyError` turned into a `ValueError`. -/
def tipField (what : String) (body : List (PyStr × Json)) (name : String) :
    Except PyExn Json :=
  match Dict.get? body (Json.key name) with
  | some value => .ok value
  | none => .error (.valueError s!"{what} is missing field '{name}'")

/-- `_parse_tip_kind` -/
def parseTipKind (payload : Json) : Except PyExn TipKind :=
  match payload with
  | .dict [(tag, body)] =>
      if tag = Json.key "const" then
        TipKind.constTip <$> tipAmount repr body "const tip amount"
      else if tag = Json.key "linear" then
        match body with
        | .dict fields => do
            let base ← tipField "linear tip" fields "base"
            let multiplier ← tipField "linear tip" fields "encoded_size_mul_per_kib"
            let base ← tipAmount repr base "linear tip base"
            let multiplier ←
              tipAmount repr multiplier "linear tip encoded_size_mul_per_kib"
            return .linearTip base multiplier
        | body => .error (.valueError ("linear tip body must be an object, got " ++ repr body))
      else .error (.valueError ("Unknown tip kind " ++ repr (.str tag)))
  | payload => .error (.valueError ("Unrecognised tip kind payload: " ++ repr payload))

/-- `bytes.fromhex(digits.rjust(64, "0"))` does not raise. -/
def isHex (digits : PyStr) : Bool :=
  match digits.mapM PyStr.toChar? with
  | some chars =>
      (ObjectIds.fromHex (List.replicate (64 - chars.length) '0' ++ chars)).isSome
  | none => false

/-- `_tip_address` -/
def tipAddress (value : Json) : Except PyExn PyStr :=
  match value with
  | .str address => do
      raiseIf (¬ Json.key "0x" <+: address)
        (.valueError ("tip address must be 0x-prefixed, got " ++ repr (.str address)))
      let digits := address.drop 2
      raiseIf (digits = [] ∨ 64 < digits.length)
        (.valueError ("tip address is not a Sui address: " ++ repr (.str address)))
      raiseIf (isHex digits = false)
        (.valueError ("tip address is not valid hex: " ++ repr (.str address)))
      return address
  | value => .error (.typeError ("tip address must be a string, got " ++ repr value))

/-- `_parse_tip_config`. An address is a string without surrogates, and is kept
as such. -/
def parseTipConfig (payload : Json) : Except PyExn TipConfig :=
  let unrecognised : Except PyExn TipConfig :=
    .error (.valueError ("Unrecognised tip config payload: " ++ repr payload))
  match payload with
  | .str tag =>
      if tag = Json.key "no_tip" then .ok { address := none, kind := none }
      else unrecognised
  | .dict items =>
      if items ≠ [] ∧ ∀ item ∈ items, item.1 = Json.key "send_tip" then
        match Dict.get? items (Json.key "send_tip") with
        | some (.dict body) => do
            let address ← tipField "send_tip" body "address"
            let kind ← tipField "send_tip" body "kind"
            let address ← tipAddress repr address
            let kind ← parseTipKind repr kind
            return {
              address := some (String.ofList (address.filterMap PyStr.toChar?))
              kind := some kind }
        | some body =>
            .error (.valueError ("send_tip body must be an object, got " ++ repr body))
        | none => unrecognised
      else unrecognised
  | _ => unrecognised

end Parse

/-- **A config that charges names an address**, and one that does not names
none. -/
theorem parseTipConfig_address {repr : Json → String} {payload : Json} {config : TipConfig}
    (h : parseTipConfig repr payload = .ok config) :
    config.address.isSome = config.requiresPayment := by
  unfold parseTipConfig at h
  dsimp only at h
  split at h
  · split at h
    · cases h
      rfl
    · cases h
  · split at h
    · split at h
      · obtain ⟨rawAddress, -, h⟩ := bind_eq_ok.mp h
        obtain ⟨rawKind, -, h⟩ := bind_eq_ok.mp h
        obtain ⟨address, -, h⟩ := bind_eq_ok.mp h
        obtain ⟨kind, -, h⟩ := bind_eq_ok.mp h
        cases h
        rfl
      · cases h
      · cases h
    · cases h
  · cases h

/-- What the relay's answer was parsed from. -/
def TipConfigParsed (w : World) : Prop :=
  ∀ config, w.tipConfig = .ok (.ok (some config)) →
    ∃ payload, parseTipConfig w.repr payload = .ok config

end Pytusk.RelayUpload
