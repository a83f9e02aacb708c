import Pytusk.Lib.Lts
import Pytusk.Ops.StorageCompose
import Mathlib.Data.Int.Order.Basic
import Mathlib.Logic.Function.Basic

/-!
# Move's rules for fusing

What the chain does with `storage_resource::fuse`: the first object is changed
in place, the second is taken by value and deleted. `fuse` goes by the start
epochs. `fuse_amount` asks for one epoch range and adds the sizes up;
`fuse_periods` asks for one size and for ranges that touch, and joins them.
-/

namespace Pytusk.StorageLedger

open Pytusk.Lib Pytusk.Ops

/-- The Storage objects there are, by their ids. -/
abbrev Ledger := String → Option StorageObject

/-- The two ways `fuse` can go. -/
inductive FuseRoute where
  | amount
  | periods
  deriving DecidableEq, Repr

def route (first second : StorageObject) : FuseRoute :=
  if first.startEpoch = second.startEpoch then .amount else .periods

/-- What `fuse_amount` makes of the first object, unless it aborts. -/
def fuseAmount (first second : StorageObject) : Option StorageObject :=
  if first.startEpoch = second.startEpoch ∧ first.endEpoch = second.endEpoch then
    some { first with storageSize := first.storageSize + second.storageSize }
  else none

/-- What `fuse_periods` makes of the first object, unless it aborts. -/
def fusePeriods (first second : StorageObject) : Option StorageObject :=
  if first.storageSize ≠ second.storageSize then none
  else if first.endEpoch = second.startEpoch then
    some { first with endEpoch := second.endEpoch }
  else if first.startEpoch = second.endEpoch then
    some { first with startEpoch := second.startEpoch }
  else none

def fused (first second : StorageObject) : Option StorageObject :=
  match route first second with
  | .amount => fuseAmount first second
  | .periods => fusePeriods first second

/-- `fused`, if it goes by periods. -/
def fusedByPeriods (first second : StorageObject) : Option StorageObject :=
  match route first second with
  | .amount => none
  | .periods => fusePeriods first second

/-- The ledger after one call. One object is not passed by reference and by
value at once. -/
def apply (rule : StorageObject → StorageObject → Option StorageObject) (ledger : Ledger)
    (pair : String × String) : Option Ledger :=
  if pair.1 = pair.2 then none
  else do
    let first ← ledger pair.1
    let second ← ledger pair.2
    let survivor ← rule first second
    return Function.update (Function.update ledger pair.2 none) pair.1 (some survivor)

/-- One `fuse` call. -/
abbrev fuse : Ledger → String × String → Option Ledger := apply fused

/-- One `fuse` call that goes by periods. -/
abbrev fuseByPeriods : Ledger → String × String → Option Ledger := apply fusedByPeriods

/-- An object is found under its own id, and its epochs are a range. -/
structure Proper (ledger : Ledger) : Prop where
  named : ∀ id storage, ledger id = some storage → storage.objectId = id
  range : ∀ id storage, ledger id = some storage → storage.startEpoch < storage.endEpoch

/-! ## One call -/

section Call

variable {rule : StorageObject → StorageObject → Option StorageObject} {ledger ledger' : Ledger}
  {pair : String × String} {first second survivor : StorageObject}

theorem apply_eq_some : apply rule ledger pair = some ledger' ↔
    pair.1 ≠ pair.2 ∧ ∃ first second survivor, ledger pair.1 = some first ∧
      ledger pair.2 = some second ∧ rule first second = some survivor ∧
      ledger' = Function.update (Function.update ledger pair.2 none) pair.1
        (some survivor) := by
  unfold apply
  split
  · rename_i hsame
    exact iff_of_false (by simp) fun h => h.1 hsame
  · rename_i hne
    simp only [Option.bind_eq_bind, Option.bind_eq_some_iff, Option.pure_def,
      Option.some.injEq]
    constructor
    · rintro ⟨first, hfirst, second, hsecond, survivor, hrule, rfl⟩
      exact ⟨hne, first, second, survivor, hfirst, hsecond, hrule, rfl⟩
    · rintro ⟨-, first, second, survivor, hfirst, hsecond, hrule, rfl⟩
      exact ⟨first, hfirst, second, hsecond, survivor, hrule, rfl⟩

/-- A call on two objects that the rule refuses aborts. -/
theorem apply_eq_none (hfirst : ledger pair.1 = some first) (hsecond : ledger pair.2 = some second)
    (hrule : rule first second = none) : apply rule ledger pair = none := by
  unfold apply
  split
  · rfl
  · simp [hfirst, hsecond, hrule]

theorem apply_consumed (h : apply rule ledger pair = some ledger') : ledger' pair.2 = none := by
  obtain ⟨hne, _, _, _, -, -, -, rfl⟩ := apply_eq_some.mp h
  rw [Function.update_of_ne (Ne.symm hne), Function.update_self]

/-- What does not exist is not made. -/
theorem apply_none (h : apply rule ledger pair = some ledger') {id : String}
    (hid : ledger id = none) : ledger' id = none := by
  obtain ⟨-, first, _, _, hfirst, -, -, rfl⟩ := apply_eq_some.mp h
  have hfst : id ≠ pair.1 := by
    rintro rfl
    exact nomatch hid.symm.trans hfirst
  rw [Function.update_of_ne hfst]
  by_cases hsnd : id = pair.2
  · rw [hsnd, Function.update_self]
  · rw [Function.update_of_ne hsnd, hid]

/-- A call that goes by periods is a `fuse` call. -/
theorem fuse_of_fuseByPeriods (h : fuseByPeriods ledger pair = some ledger') :
    fuse ledger pair = some ledger' := by
  obtain ⟨hne, first, second, survivor, hfirst, hsecond, hrule, rfl⟩ := apply_eq_some.mp h
  refine apply_eq_some.mpr ⟨hne, first, second, survivor, hfirst, hsecond, ?_, rfl⟩
  unfold fusedByPeriods at hrule
  unfold fused
  cases hroute : route first second with
  | amount =>
    rw [hroute] at hrule
    cases hrule
  | periods =>
    rw [hroute] at hrule
    exact hrule

end Call

/-! ## Runs -/

section Runs

variable {rule : StorageObject → StorageObject → Option StorageObject} {ledger ledger' : Ledger}
  {pairs : List (String × String)}

/-- What is gone stays gone. -/
theorem run_none (h : Lts.run (apply rule) ledger pairs = some ledger') {id : String}
    (hid : ledger id = none) : ledger' id = none :=
  Lts.run_invariant (P := fun l => l id = none) hid (fun _ _ _ hu hstep => apply_none hstep hu) h

/-- **Nothing is consumed twice** in a run that does not abort. -/
theorem nodup_of_run (h : Lts.run (apply rule) ledger pairs = some ledger') :
    (pairs.map Prod.snd).Nodup := by
  induction pairs generalizing ledger with
  | nil => exact List.nodup_nil
  | cons pair rest ih =>
    obtain ⟨next, hstep, hrest⟩ := Option.bind_eq_some_iff.mp h
    rw [List.map_cons, List.nodup_cons]
    refine ⟨fun hmem => ?_, ih hrest⟩
    obtain ⟨again, hagain, heq⟩ := List.mem_map.mp hmem
    obtain ⟨before, after, rfl⟩ := List.append_of_mem hagain
    obtain ⟨middle, hbefore, hafter⟩ := Lts.run_append_eq_some.mp hrest
    obtain ⟨_, hcall, -⟩ := Option.bind_eq_some_iff.mp hafter
    -- the object was deleted by the first of the two calls
    have hgone : middle again.2 = none :=
      run_none hbefore (heq ▸ apply_consumed hstep)
    obtain ⟨-, _, second, _, -, hsecond, -⟩ := apply_eq_some.mp hcall
    exact nomatch hgone.symm.trans hsecond

theorem run_fuse_of_run_fuseByPeriods (h : Lts.run fuseByPeriods ledger pairs = some ledger') :
    Lts.run fuse ledger pairs = some ledger' := by
  have hlift := Lts.run_lift fuse id id (Q := fun _ => True) (fun _ _ => trivial)
    (fun _ _ _ _ hstep => fuse_of_fuseByPeriods hstep) h
  simpa using hlift

end Runs

end Pytusk.StorageLedger
