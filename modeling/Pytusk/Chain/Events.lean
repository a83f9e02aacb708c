import Pytusk.Chain.Committee
import Pytusk.Lib.Dict
import Pytusk.Lib.PyStr

/-!
# `chain/events.py`: the blob object that an event names

An event's `contents` is the BCS encoding of Sui's event envelope: the calling
package, the transaction module, the sender, the type of the event and, last,
the Move payload. The decoder walks it by offsets. The warning that is logged
about a payload of another size is left out.
-/

namespace Pytusk.Events

open Pytusk.Lib

/-! ## The layouts -/

abbrev EventLayout := List (String × Nat)

/-- A Python string literal. -/
def pyStr (text : String) : PyStr := text.toList.map PyStr.ofChar

def sizeU8 : Nat := 1
def sizeBool : Nat := 1
def sizeU32 : Nat := 4
def sizeU64 : Nat := 8
def sizeU256 : Nat := 32
def sizeId : Nat := 32

/-- `_EVENT_LAYOUTS` -/
def eventLayouts : Dict PyStr EventLayout :=
  [(pyStr "BlobRegistered",
      [("epoch", sizeU32), ("blob_id", sizeU256), ("size", sizeU64), ("encoding_type", sizeU8),
        ("end_epoch", sizeU32), ("deletable", sizeBool), ("object_id", sizeId)]),
    (pyStr "BlobCertified",
      [("epoch", sizeU32), ("blob_id", sizeU256), ("end_epoch", sizeU32),
        ("deletable", sizeBool), ("object_id", sizeId), ("is_extension", sizeBool)]),
    (pyStr "BlobDeleted",
      [("epoch", sizeU32), ("blob_id", sizeU256), ("end_epoch", sizeU32),
        ("object_id", sizeId), ("was_certified", sizeBool)]),
    (pyStr "InvalidBlobID", [("epoch", sizeU32), ("blob_id", sizeU256)])]

/-! ## Reading the envelope -/

/-- `raw[index]` -/
def byteAt (raw : Bytes) (index : Nat) : Except PyExn UInt8 :=
  match raw[index]? with
  | some byte => .ok byte
  | none => .error (.indexError "index out of range")

/-- The `while index < len(raw)` loop; each turn reads one byte. -/
def readUlebLoop (raw : Bytes) :
    (turns value shift index : Nat) → Except PyExn (Option (Nat × Nat))
  | 0, _, _, _ => .ok none
  | turns + 1, value, shift, index =>
      if index < raw.length then do
        let byte ← byteAt raw index
        let value := value ||| (byte.toNat &&& 0x7F) <<< shift
        if byte.toNat &&& 0x80 = 0 then return some (value, index + 1)
        else if shift + 7 > 35 then return none
        else readUlebLoop raw turns value (shift + 7) (index + 1)
      else return none

/-- `_read_uleb`: the number and the offset behind it. -/
def readUleb (raw : Bytes) (offset : Nat) : Except PyExn (Option (Nat × Nat)) :=
  readUlebLoop raw (raw.length - offset) 0 0 offset

/-- `if x is None: return None`, before the rest. -/
def ifSome {α β : Type} (x : Except PyExn (Option α)) (rest : α → Except PyExn (Option β)) :
    Except PyExn (Option β) := do
  match ← x with
  | none => return none
  | some a => rest a

/-- `_skip_uleb_bytes` -/
def skipUlebBytes (raw : Bytes) (offset : Nat) : Except PyExn (Option Nat) :=
  ifSome (readUleb raw offset) fun (length, nextOffset) =>
    let stop := nextOffset + length
    return if stop ≤ raw.length then some stop else none

/-- `_event_payload` -/
def eventPayload (raw : Bytes) : Except PyExn (Option Bytes) :=
  if 32 > raw.length then return none
  else
    ifSome (skipUlebBytes raw 32) fun skipped =>
      let offset := skipped + 32 + 32
      if offset > raw.length then return none
      else
        -- the module of the type, then its name
        ifSome (skipUlebBytes raw offset) fun offset =>
        ifSome (skipUlebBytes raw offset) fun offset =>
        ifSome (readUleb raw offset) fun (typeParamCount, offset) =>
          if typeParamCount ≠ 0 then return none
          else
            ifSome (readUleb raw offset) fun (length, offset) =>
              if offset + length ≠ raw.length then return none
              else return some ((raw.drop offset).take length)

/-! ## The object id -/

/-- What follows the last `::`, if there is one. -/
def afterLastColons : PyStr → Option PyStr
  | [] => none
  | c :: rest =>
      match afterLastColons rest with
      | some name => some name
      | none => if pyStr "::" = (c :: rest).take 2 then some (rest.drop 1) else none

/-- `event_type.rsplit("::", 1)[-1]` -/
def structName (eventType : PyStr) : PyStr := (afterLastColons eventType).getD eventType

def hexDigitChar (n : Nat) : Char :=
  if n < 10 then Char.ofNat ('0'.toNat + n) else Char.ofNat ('a'.toNat + (n - 10))

/-- `bytes.hex()` -/
def hex (bytes : Bytes) : List Char :=
  bytes.flatMap fun b => [hexDigitChar (b.toNat / 16), hexDigitChar (b.toNat % 16)]

/-- The loop over the fields of the layout. -/
def objectIdField (payload : Bytes) : (layout : EventLayout) → (offset : Nat) → Option String
  | [], _ => none
  | (name, size) :: rest, offset =>
      if name = "object_id" then
        some ("0x" ++ String.ofList (hex ((payload.drop offset).take size)))
      else objectIdField payload rest (offset + size)

def eventObjectId (eventType : PyStr) (contents : Bytes) : Except PyExn (Option String) :=
  match eventLayouts.get? (structName eventType) with
  | none => return none
  | some layout =>
    ifSome (eventPayload contents) fun payload =>
      if payload.length ≠ (layout.map Prod.snd).sum then return none
      else return objectIdField payload layout 0

end Pytusk.Events
