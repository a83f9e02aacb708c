import Pytusk.Chain.EventDecoding

/-!
# The object id of an event

An event is its envelope around the fields of a layout. What the decoder
returns for its encoding is the field named `object_id`, and whatever it
returns an id for decomposes that way.
-/

namespace Pytusk.Events

open Pytusk.Lib

/-! ## Fields of a layout -/

/-- A value for each field, of the size of the field. -/
def HasLayout (layout : EventLayout) (values : List Bytes) : Prop :=
  List.Forall₂ (fun field value => value.length = field.2) layout values

/-- The value of the field that `object_id` names. -/
def objectIdOf : EventLayout → List Bytes → Option Bytes
  | (name, _) :: layout, value :: values =>
      if name = "object_id" then some value else objectIdOf layout values
  | _, _ => none

/-- An id as text. -/
def objectIdText (objectId : Bytes) : String := "0x" ++ String.ofList (hex objectId)

theorem length_flatten_of_hasLayout {layout : EventLayout} {values : List Bytes}
    (h : HasLayout layout values) : values.flatten.length = (layout.map Prod.snd).sum := by
  induction h with
  | nil => rfl
  | cons hsize _ ih => simp [hsize, ih]

/-- Bytes of the size of the layout are the fields of one. -/
theorem exists_hasLayout {layout : EventLayout} {payload : Bytes}
    (h : payload.length = (layout.map Prod.snd).sum) :
    ∃ values, HasLayout layout values ∧ values.flatten = payload := by
  induction layout generalizing payload with
  | nil => exact ⟨[], .nil, (List.eq_nil_of_length_eq_zero h).symm⟩
  | cons field layout ih =>
    rw [List.map_cons, List.sum_cons] at h
    obtain ⟨value, rest, rfl, hsize⟩ := exists_append payload field.2 (by omega)
    rw [List.length_append] at h
    obtain ⟨values, hvalues, rfl⟩ := ih (by omega : rest.length = _)
    exact ⟨value :: values, .cons hsize hvalues, rfl⟩

theorem objectIdField_eq {layout : EventLayout} {values : List Bytes}
    (h : HasLayout layout values) (before : Bytes) :
    objectIdField (before ++ values.flatten) layout before.length =
      (objectIdOf layout values).map objectIdText := by
  induction h generalizing before with
  | nil => rfl
  | @cons field value layout values hsize _ ih =>
    rw [objectIdField, objectIdOf, List.flatten_cons]
    split
    · rw [List.drop_left, ← hsize, List.take_left]
      rfl
    · rw [← hsize, ← List.length_append, ← List.append_assoc]
      exact ih (before ++ value)

/-- Sui's `Event` around the payload of an event, its names as UTF-8. -/
structure EventEnvelope where
  packageId : Bytes
  transactionModule : Bytes
  sender : Bytes
  typeAddress : Bytes
  typeModule : Bytes
  typeName : Bytes
  length_packageId : packageId.length = 32
  transactionModule_lt : transactionModule.length < 2 ^ 32
  length_sender : sender.length = 32
  length_typeAddress : typeAddress.length = 32
  typeModule_lt : typeModule.length < 2 ^ 32
  typeName_lt : typeName.length < 2 ^ 32

/-- A BCS string or vector of bytes. -/
def encodeRun (run : Bytes) : Bytes := Wire.uleb run.length ++ run

/-- The BCS encoding; the vector of type parameters is empty. -/
def EventEnvelope.encode (envelope : EventEnvelope) (payload : Bytes) : Bytes :=
  envelope.packageId ++ (encodeRun envelope.transactionModule ++
    (envelope.sender ++ envelope.typeAddress ++ (encodeRun envelope.typeModule ++
      (encodeRun envelope.typeName ++ (Wire.uleb 0 ++ encodeRun payload)))))

theorem eventObjectId_of_unknown {eventType : PyStr} (contents : Bytes)
    (h : eventLayouts.get? (structName eventType) = none) :
    eventObjectId eventType contents = .ok none := by
  rw [eventObjectId, h]
  rfl

theorem eventObjectId_of_known {eventType : PyStr} {contents : Bytes} {layout : EventLayout}
    (h : eventLayouts.get? (structName eventType) = some layout) :
    eventObjectId eventType contents =
      ifSome (eventPayload contents) fun payload =>
        if payload.length ≠ (layout.map Prod.snd).sum then return none
        else return objectIdField payload layout 0 := by
  rw [eventObjectId, h]

/-- The fields of a payload that decomposes; there is an answer for each. -/
theorem eventObjectId_of_decomposes {eventType : PyStr} {contents : Bytes}
    {layout : EventLayout} {values : List Bytes}
    (hlayout : eventLayouts.get? (structName eventType) = some layout)
    (hvalues : HasLayout layout values) (h : Decomposes contents values.flatten) :
    eventObjectId eventType contents = .ok ((objectIdOf layout values).map objectIdText) := by
  have hfield := objectIdField_eq hvalues []
  rw [List.nil_append, List.length_nil] at hfield
  rw [eventObjectId_of_known hlayout, eventPayload_eq_some.mpr h, ← hfield]
  exact if_neg (not_not.mpr (length_flatten_of_hasLayout hvalues))

/-- An id is the object id of contents that decompose. -/
theorem decomposes_of_eventObjectId {eventType : PyStr} {contents : Bytes} {id : String}
    (h : eventObjectId eventType contents = .ok (some id)) :
    ∃ layout values objectId, eventLayouts.get? (structName eventType) = some layout ∧
      HasLayout layout values ∧ Decomposes contents values.flatten ∧
      objectIdOf layout values = some objectId ∧ id = objectIdText objectId := by
  cases hlayout : eventLayouts.get? (structName eventType) with
  | none =>
    rw [eventObjectId_of_unknown contents hlayout] at h
    cases h
  | some layout =>
    have hread := h
    rw [eventObjectId_of_known hlayout, ifSome_eq_some] at hread
    obtain ⟨payload, hpayload, hread⟩ := hread
    obtain ⟨hsize, -⟩ := ite_none_eq_some.mp hread
    obtain ⟨values, hvalues, rfl⟩ := exists_hasLayout (not_not.mp hsize)
    have hdecomposes := eventPayload_eq_some.mp hpayload
    rw [eventObjectId_of_decomposes hlayout hvalues hdecomposes, Except.ok.injEq,
      Option.map_eq_some_iff] at h
    obtain ⟨objectId, hobjectId, hid⟩ := h
    exact ⟨layout, values, objectId, rfl, hvalues, hdecomposes, hobjectId, hid.symm⟩

/-! ## The decoder -/

def Accepted (eventType : PyStr) (contents : Bytes) : Prop :=
  ∃ id, eventObjectId eventType contents = .ok (some id)

/-- **Accepted bytes** neither start others nor continue others. -/
theorem Accepted.append {eventType : PyStr} {contents suffix : Bytes}
    (h : Accepted eventType contents) (h' : Accepted eventType (contents ++ suffix)) :
    suffix = [] := by
  obtain ⟨id, h⟩ := h
  obtain ⟨id', h'⟩ := h'
  obtain ⟨_, _, _, -, -, hdecomposes, -⟩ := decomposes_of_eventObjectId h
  obtain ⟨_, _, _, -, -, hdecomposes', -⟩ := decomposes_of_eventObjectId h'
  exact (hdecomposes.append hdecomposes').1

end Pytusk.Events
