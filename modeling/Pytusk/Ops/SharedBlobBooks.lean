import Pytusk.Lib.CoinLedger

/-!
# SharedBlobs: the books

What the chain keeps of Blobs and of SharedBlobs with their pools, and what it
makes of a request. The books know the WAL of everyone as one sum.
-/

namespace Pytusk.SharedBlobs

open Pytusk.Lib

/-! ## The vault -/

/-- What the calls read of a Blob or change. -/
structure BlobState where
  objectId : String
  deletable : Bool
  storageSize : Nat
  endEpoch : Int
  deriving DecidableEq, Repr

def BlobState.extended (blob : BlobState) (epochs : Int) : BlobState :=
  { blob with endEpoch := blob.endEpoch + epochs }

/-- The system the calls are made on. -/
structure System where
  packageId : String
  systemObject : String
  /-- what `system::extend_blob` takes for some epochs, or `none` where it refuses -/
  price : BlobState → Nat → Option Nat

/-- The number of epochs is a `u32`. -/
def System.cost (system : System) (blob : BlobState) (epochs : Int) : Option Nat :=
  if 0 ≤ epochs then system.price blob epochs.toNat else none

/-- Blobs, and SharedBlobs with the pools they are extended from. -/
structure Vault where
  pools : CoinLedger String
  blobs : String → Option BlobState
  wrapped : String → BlobState
  paid : Nat

namespace Vault

/-- `shared_blob::new`: a deletable Blob cannot be shared. -/
def share (blobObject newId : String) (vault : Vault) : Option Vault := do
  let blob ← vault.blobs blobObject
  if blob.deletable then none
  else do
    let pools ← vault.pools.create newId
    return { vault with
      pools
      blobs := Function.update vault.blobs blobObject none
      wrapped := Function.update vault.wrapped newId blob }

/-- `shared_blob::fund` -/
def fund (sharedBlobObject : String) (amount : Nat) (vault : Vault) : Option Vault :=
  (vault.pools.deposit sharedBlobObject amount).map ({ vault with pools := · })

/-- `shared_blob::extend`: what is taken from the pool and not needed goes back. -/
def extendShared (system : System) (sharedBlobObject : String) (epochs : Int) (vault : Vault) :
    Option Vault := do
  let blob := vault.wrapped sharedBlobObject
  let cost ← system.cost blob epochs
  let pools ← vault.pools.spend sharedBlobObject cost
  return { vault with
    pools
    wrapped := Function.update vault.wrapped sharedBlobObject (blob.extended epochs)
    paid := vault.paid + cost }

/-- `system::extend_blob`, with what it costs. -/
def extendBlob (system : System) (blobObject : String) (epochs : Int) (vault : Vault) :
    Option (Vault × Nat) := do
  let blob ← vault.blobs blobObject
  let cost ← system.cost blob epochs
  return ({ vault with
    blobs := Function.update vault.blobs blobObject (some (blob.extended epochs))
    paid := vault.paid + cost }, cost)

end Vault

/-! ## The books -/

/-- What somebody asks for. -/
inductive Request where
  | share (blobObject newId : String)
  | fund (sharedBlobObject : String) (amount : Nat)
  | extendShared (sharedBlobObject : String) (epochs : Int)
  /-- with what the coins that may be used hold -/
  | extendBlob (blobObject : String) (epochs : Int) (available : Nat)
  deriving DecidableEq, Repr

structure Books where
  purse : Nat
  vault : Vault

/-- What a request makes of the books, or `none` where it cannot be served. -/
def Request.apply (system : System) (books : Books) : Request → Option Books
  | .share blobObject newId => (books.vault.share blobObject newId).map ({ books with vault := · })
  | .fund sharedBlobObject amount =>
      if amount ≤ books.purse then
        (books.vault.fund sharedBlobObject amount).map (⟨books.purse - amount, ·⟩)
      else none
  | .extendShared sharedBlobObject epochs =>
      (books.vault.extendShared system sharedBlobObject epochs).map ({ books with vault := · })
  | .extendBlob blobObject epochs available => do
      let (vault, cost) ← books.vault.extendBlob system blobObject epochs
      if cost ≤ available ∧ cost ≤ books.purse then return ⟨books.purse - cost, vault⟩ else none

/-- What cannot be served changes nothing. -/
def Books.serve (system : System) (books : Books) (request : Request) : Books :=
  (request.apply system books).getD books

/-! ### What the books keep -/

/-- All the WAL there is. -/
def Books.wal (books : Books) : Nat := books.purse + books.vault.pools.total + books.vault.paid

/-- A Blob as it is later: the same, but for its end. -/
def BlobState.Later (before after : BlobState) : Prop :=
  ∃ epochs, 0 ≤ epochs ∧ after = before.extended epochs

/-- What stays, from one state of the books to a later one. -/
structure Keeps (before after : Books) : Prop where
  wal : after.wal = before.wal
  paid : before.vault.paid ≤ after.vault.paid
  shared : ∀ id ∈ before.vault.pools.owned, id ∈ after.vault.pools.owned ∧
    (before.vault.wrapped id).Later (after.vault.wrapped id) ∧
    before.vault.pools.balance id + before.vault.paid ≤
      after.vault.pools.balance id + after.vault.paid
  blobs : ∀ id blob, before.vault.blobs id = some blob → ∃ later, blob.Later later ∧
    (after.vault.blobs id = some later ∨ later.deletable = false ∧
      ∃ newId ∈ after.vault.pools.owned, newId ∉ before.vault.pools.owned ∧
        after.vault.wrapped newId = later)

section Keeps

variable {system : System} {books after last : Books} {vault vault' : Vault}
  {blob blob' : BlobState} {blobObject sharedBlobObject newId : String} {amount : Nat}
  {epochs : Int}

@[simp] theorem extended_zero (blob : BlobState) : blob.extended 0 = blob := by
  simp [BlobState.extended]

theorem BlobState.Later.refl (blob : BlobState) : blob.Later blob :=
  ⟨0, le_rfl, (extended_zero blob).symm⟩

theorem BlobState.Later.trans {blob'' : BlobState} (h : blob.Later blob')
    (h' : blob'.Later blob'') : blob.Later blob'' := by
  obtain ⟨m, hm, rfl⟩ := h
  obtain ⟨n, hn, rfl⟩ := h'
  refine ⟨m + n, by omega, ?_⟩
  simp [BlobState.extended, Int.add_assoc]

theorem later_extended {cost : Nat} (h : system.cost blob epochs = some cost) :
    blob.Later (blob.extended epochs) := by
  rw [System.cost, Option.ite_none_right_eq_some] at h
  exact ⟨epochs, h.1, rfl⟩

theorem BlobState.Later.deletable (h : blob.Later blob') : blob'.deletable = blob.deletable := by
  obtain ⟨_, -, rfl⟩ := h
  rfl

theorem Keeps.refl (books : Books) : Keeps books books where
  wal := rfl
  paid := le_rfl
  shared _ hid := ⟨hid, .refl _, le_rfl⟩
  blobs _ blob hblob := ⟨blob, .refl blob, .inl hblob⟩

theorem Keeps.trans (h : Keeps books after) (h' : Keeps after last) : Keeps books last where
  wal := h'.wal.trans h.wal
  paid := h.paid.trans h'.paid
  shared id hid := by
    obtain ⟨hafter, hlater, hpool⟩ := h.shared id hid
    obtain ⟨hlast, hlater', hpool'⟩ := h'.shared id hafter
    exact ⟨hlast, hlater.trans hlater', hpool.trans hpool'⟩
  blobs id blob hblob := by
    obtain ⟨later, hlater, hstill | ⟨hpermanent, newId, hnew, hfresh, hwrapped⟩⟩ :=
      h.blobs id blob hblob
    · obtain ⟨later', hlater', hwhere⟩ := h'.blobs id later hstill
      refine ⟨later', hlater.trans hlater', ?_⟩
      rcases hwhere with hstill' | ⟨hpermanent, newId, hnew, hfresh, hwrapped⟩
      · exact .inl hstill'
      · exact .inr ⟨hpermanent, newId, hnew, fun hold => hfresh (h.shared newId hold).1, hwrapped⟩
    · -- shared already, and extended since at most
      obtain ⟨hlast, hlater', -⟩ := h'.shared newId hnew
      rw [hwrapped] at hlater'
      exact ⟨_, hlater.trans hlater',
        .inr ⟨hlater'.deletable.trans hpermanent, newId, hlast, hfresh, rfl⟩⟩

theorem keeps_share (h : books.vault.share blobObject newId = some vault') :
    Keeps books { books with vault := vault' } := by
  obtain ⟨blob, hblob, h⟩ := Option.bind_eq_some_iff.mp h
  split at h
  · cases h
  rename_i hpermanent
  obtain ⟨pools, hcreate, heq⟩ := Option.bind_eq_some_iff.mp h
  cases heq
  have htotal := CoinLedger.total_create hcreate
  rw [CoinLedger.create, Option.ite_none_right_eq_some] at hcreate
  obtain ⟨hnew, heq⟩ := hcreate
  cases heq
  constructor
  case wal => simp only [Books.wal, htotal]
  case paid => exact le_rfl
  case shared =>
    intro id hid
    have hne : id ≠ newId := fun heq => hnew (heq ▸ hid)
    simp only [Function.update_of_ne hne]
    exact ⟨Finset.mem_insert_of_mem hid, .refl _, le_rfl⟩
  case blobs =>
    intro id other hother
    by_cases heq : id = blobObject
    · subst heq
      cases hother.symm.trans hblob
      exact ⟨_, .refl _, .inr ⟨Bool.eq_false_of_not_eq_true hpermanent, newId,
        Finset.mem_insert_self .., hnew, Function.update_self ..⟩⟩
    · exact ⟨other, .refl _, .inl ((Function.update_of_ne heq ..).trans hother)⟩

theorem keeps_fund (hcovers : amount ≤ books.purse)
    (h : books.vault.fund sharedBlobObject amount = some vault') :
    Keeps books ⟨books.purse - amount, vault'⟩ := by
  obtain ⟨pools, hdeposit, rfl⟩ := Option.map_eq_some_iff.mp h
  have htotal := CoinLedger.total_deposit hdeposit
  rw [CoinLedger.deposit, Option.ite_none_right_eq_some] at hdeposit
  obtain ⟨-, heq⟩ := hdeposit
  cases heq
  constructor
  case wal =>
    simp only [Books.wal, htotal]
    omega
  case paid => exact le_rfl
  case shared =>
    intro id hid
    refine ⟨hid, .refl _, ?_⟩
    by_cases heq : id = sharedBlobObject
    · subst heq
      simp only [Function.update_self]
      omega
    · simp only [Function.update_of_ne heq]
      exact le_rfl
  case blobs => exact fun _ blob hblob => ⟨blob, .refl _, .inl hblob⟩

theorem keeps_extendShared
    (h : books.vault.extendShared system sharedBlobObject epochs = some vault') :
    Keeps books { books with vault := vault' } := by
  obtain ⟨cost, hcost, h⟩ := Option.bind_eq_some_iff.mp h
  obtain ⟨pools, hspend, heq⟩ := Option.bind_eq_some_iff.mp h
  cases heq
  have htotal := CoinLedger.total_spend hspend
  rw [CoinLedger.spend, Option.ite_none_right_eq_some] at hspend
  obtain ⟨⟨-, hcovers⟩, heq⟩ := hspend
  cases heq
  constructor
  case wal =>
    simp only [Books.wal]
    omega
  case paid => exact Nat.le_add_right ..
  case shared =>
    intro id hid
    refine ⟨hid, ?_⟩
    by_cases heq : id = sharedBlobObject
    · subst heq
      simp only [Function.update_self]
      exact ⟨later_extended hcost, by omega⟩
    · simp only [Function.update_of_ne heq]
      exact ⟨.refl _, by omega⟩
  case blobs => exact fun _ blob hblob => ⟨blob, .refl _, .inl hblob⟩

theorem keeps_extendBlob {cost : Nat} (hcovers : cost ≤ books.purse)
    (h : books.vault.extendBlob system blobObject epochs = some (vault', cost)) :
    Keeps books ⟨books.purse - cost, vault'⟩ := by
  obtain ⟨blob, hblob, h⟩ := Option.bind_eq_some_iff.mp h
  obtain ⟨cost', hcost, heq⟩ := Option.bind_eq_some_iff.mp h
  cases heq
  constructor
  case wal =>
    simp only [Books.wal]
    omega
  case paid => exact Nat.le_add_right ..
  case shared => exact fun id hid => ⟨hid, .refl _, Nat.add_le_add_left (Nat.le_add_right ..) _⟩
  case blobs =>
    intro id other hother
    by_cases heq : id = blobObject
    · subst heq
      cases hother.symm.trans hblob
      exact ⟨_, later_extended hcost, .inl (Function.update_self ..)⟩
    · exact ⟨other, .refl _, .inl ((Function.update_of_ne heq ..).trans hother)⟩

/-- One request, served or not. -/
theorem keeps_serve (system : System) (books : Books) (request : Request) :
    Keeps books (books.serve system request) := by
  unfold Books.serve
  cases happly : request.apply system books with
  | none => exact .refl books
  | some after =>
    cases request with
    | share blobObject newId =>
      obtain ⟨vault, hshare, rfl⟩ := Option.map_eq_some_iff.mp happly
      exact keeps_share hshare
    | fund sharedBlobObject amount =>
      obtain ⟨hcovers, hmap⟩ := Option.ite_none_right_eq_some.mp happly
      obtain ⟨vault, hfund, rfl⟩ := Option.map_eq_some_iff.mp hmap
      exact keeps_fund hcovers hfund
    | extendShared sharedBlobObject epochs =>
      obtain ⟨vault, hextend, rfl⟩ := Option.map_eq_some_iff.mp happly
      exact keeps_extendShared hextend
    | extendBlob blobObject epochs available =>
      obtain ⟨⟨vault, cost⟩, hextend, hrest⟩ := Option.bind_eq_some_iff.mp happly
      obtain ⟨⟨-, hcovers⟩, heq⟩ := Option.ite_none_right_eq_some.mp hrest
      cases heq
      exact keeps_extendBlob hcovers hextend

/-- All requests, in whatever order. -/
theorem keeps_foldl_serve (system : System) (books : Books) (requests : List Request) :
    Keeps books (requests.foldl (Books.serve system) books) := by
  induction requests generalizing books with
  | nil => exact .refl books
  | cons request requests ih =>
    rw [List.foldl_cons]
    exact (keeps_serve system books request).trans (ih _)

/-- A SharedBlob as it was, with no less in its pool. -/
def Spared (id : String) (before after : Vault) : Prop :=
  id ∈ after.pools.owned ∧ after.wrapped id = before.wrapped id ∧
    before.pools.balance id ≤ after.pools.balance id

/-- Nothing but extending a SharedBlob is paid from its pool. -/
theorem spared_serve {id : String} {request : Request} (hid : id ∈ books.vault.pools.owned)
    (hother : ∀ epochs, request ≠ .extendShared id epochs) :
    Spared id books.vault (books.serve system request).vault := by
  unfold Books.serve
  cases happly : request.apply system books with
  | none => exact ⟨hid, rfl, le_rfl⟩
  | some after =>
    cases request with
    | share blobObject newId =>
      obtain ⟨vault, hshare, rfl⟩ := Option.map_eq_some_iff.mp happly
      obtain ⟨blob, -, h⟩ := Option.bind_eq_some_iff.mp hshare
      split at h
      · cases h
      obtain ⟨pools, hcreate, heq⟩ := Option.bind_eq_some_iff.mp h
      cases heq
      obtain ⟨hnew, heq⟩ := Option.ite_none_right_eq_some.mp hcreate
      cases heq
      have hne : id ≠ newId := fun heq => hnew (heq ▸ hid)
      exact ⟨Finset.mem_insert_of_mem hid, Function.update_of_ne hne ..,
        (Function.update_of_ne hne ..).ge⟩
    | fund sharedBlobObject amount =>
      obtain ⟨hcovers, hmap⟩ := Option.ite_none_right_eq_some.mp happly
      obtain ⟨vault, hfund, rfl⟩ := Option.map_eq_some_iff.mp hmap
      have hkeeps := (keeps_fund hcovers hfund).shared id hid
      obtain ⟨pools, -, rfl⟩ := Option.map_eq_some_iff.mp hfund
      exact ⟨hkeeps.1, rfl, Nat.le_of_add_le_add_right hkeeps.2.2⟩
    | extendShared sharedBlobObject epochs =>
      obtain ⟨vault, hextend, rfl⟩ := Option.map_eq_some_iff.mp happly
      obtain ⟨cost, -, h⟩ := Option.bind_eq_some_iff.mp hextend
      obtain ⟨pools, hspend, heq⟩ := Option.bind_eq_some_iff.mp h
      cases heq
      have hne : id ≠ sharedBlobObject := fun heq => hother epochs (heq ▸ rfl)
      have hholds := CoinLedger.holds_spend hspend ⟨hid, rfl⟩ hne
      exact ⟨hholds.1, Function.update_of_ne hne .., hholds.2.ge⟩
    | extendBlob blobObject epochs available =>
      obtain ⟨⟨vault, cost⟩, hextend, hrest⟩ := Option.bind_eq_some_iff.mp happly
      obtain ⟨-, heq⟩ := Option.ite_none_right_eq_some.mp hrest
      obtain ⟨blob, -, h⟩ := Option.bind_eq_some_iff.mp hextend
      obtain ⟨cost', -, heq'⟩ := Option.bind_eq_some_iff.mp h
      cases heq
      cases heq'
      exact ⟨hid, rfl, le_rfl⟩

theorem spared_foldl_serve {id : String} {requests : List Request}
    (hid : id ∈ books.vault.pools.owned)
    (hothers : ∀ request ∈ requests, ∀ epochs, request ≠ .extendShared id epochs) :
    Spared id books.vault (requests.foldl (Books.serve system) books).vault := by
  induction requests generalizing books with
  | nil => exact ⟨hid, rfl, le_rfl⟩
  | cons request requests ih =>
    obtain ⟨hfirst, hrest⟩ := List.forall_mem_cons.mp hothers
    obtain ⟨hmem, hwrapped, hpool⟩ := @spared_serve system books id request hid hfirst
    obtain ⟨hmem', hwrapped', hpool'⟩ := ih hmem hrest
    exact ⟨hmem', hwrapped'.trans hwrapped, hpool.trans hpool'⟩

end Keeps

end Pytusk.SharedBlobs
