import Pytusk.Types.Errors

/-!
# `chain/effects.py`: reading a transaction's effects
-/

namespace Pytusk

inductive ChangedObjectIdOperation where
  | unknown
  | none
  | created
  | deleted
  deriving DecidableEq, Repr

/-- The owner of an object; `address` is an account for an owned object, the
parent's id for a child object, and absent for a shared or immutable one. -/
structure Owner where
  address : Option String
  deriving DecidableEq, Repr

structure ChangedObject where
  objectId : Option String
  idOperation : ChangedObjectIdOperation
  outputOwner : Option Owner
  deriving DecidableEq, Repr

/-- `status`, with `status.error.description` when there is an error. -/
structure ExecutionStatus where
  success : Bool
  error : Option String
  deriving DecidableEq, Repr

structure TransactionEffects where
  status : Option ExecutionStatus
  changedObjects : List ChangedObject
  deriving DecidableEq, Repr

structure ExecutedTransaction where
  digest : String
  effects : Option TransactionEffects
  deriving DecidableEq, Repr

namespace Effects

/-- The test `find_created_object_id` makes of one change: the id it takes. -/
def createdFor (owner : String) (change : ChangedObject) : Option String :=
  if change.idOperation = .created ∧ change.outputOwner.bind (·.address) = some owner then
    match change.objectId with
    | some objectId => if objectId = "" then none else some objectId
    | none => none
  else none

def findCreatedObjectId (effects : TransactionEffects) (owner : String) :
    Except PyExn String :=
  match effects.changedObjects.findSome? (createdFor owner) with
  | some objectId => .ok objectId
  | none =>
      .error (.runtimeError <|
        s!"Could not find a newly created object owned by {owner} in the " ++
        "transaction effects.")

/-- Where one id can be taken, it is, wherever the changes that give it stand. -/
theorem findCreatedObjectId_eq_ok {effects : TransactionEffects} {owner objectId : String}
    (hmem : ∃ change ∈ effects.changedObjects, createdFor owner change = some objectId)
    (hunique : ∀ change ∈ effects.changedObjects, ∀ other,
      createdFor owner change = some other → other = objectId) :
    findCreatedObjectId effects owner = .ok objectId := by
  unfold findCreatedObjectId
  cases hfound : effects.changedObjects.findSome? (createdFor owner) with
  | none =>
    obtain ⟨change, hchange, hid⟩ := hmem
    have hnone := List.findSome?_eq_none_iff.mp hfound change hchange
    exact nomatch hnone.symm.trans hid
  | some found =>
    obtain ⟨change, hchange, hid⟩ := List.exists_of_findSome?_eq_some hfound
    exact congrArg Except.ok (hunique change hchange found hid)

/-- An id that was found was taken from one of the changes. -/
theorem exists_of_findCreatedObjectId {effects : TransactionEffects} {owner objectId : String}
    (h : findCreatedObjectId effects owner = .ok objectId) :
    ∃ change ∈ effects.changedObjects, createdFor owner change = some objectId := by
  unfold findCreatedObjectId at h
  split at h
  · rename_i found hfound
    cases h
    exact List.exists_of_findSome?_eq_some hfound
  · cases h

def requireSuccess (executed : ExecutedTransaction) (label : String) :
    Except PyExn TransactionEffects :=
  let failed (description : String) : Except PyExn TransactionEffects :=
    .error (.runtimeError s!"{label} transaction aborted on-chain: {description}")
  match executed.effects with
  | none => failed "unknown error"
  | some effects =>
      match effects.status with
      | none => failed "unknown error"
      | some status =>
          if status.success then .ok effects
          else failed (status.error.getD "unknown error")

/-- Effects are handed on exactly when they report success. -/
theorem requireSuccess_eq_ok {executed : ExecutedTransaction} {label : String}
    {effects : TransactionEffects} :
    requireSuccess executed label = .ok effects ↔
      executed.effects = some effects ∧
        ∃ status, effects.status = some status ∧ status.success = true := by
  unfold requireSuccess
  constructor
  · intro h
    split at h
    · cases h
    · rename_i effects' heffects
      split at h
      · cases h
      · rename_i status hstatus
        split at h
        · rename_i hsuccess
          cases h
          exact ⟨heffects, status, hstatus, hsuccess⟩
        · cases h
  · rintro ⟨heffects, status, hstatus, hsuccess⟩
    simp only [heffects, hstatus, hsuccess, if_true]

end Effects

end Pytusk
