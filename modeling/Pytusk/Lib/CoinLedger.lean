import Mathlib.Algebra.BigOperators.Group.Finset.Piecewise
import Mathlib.Algebra.GroupWithZero.Nat
import Pytusk.Lib.Dict

/-!
# Coins that are merged and split

The coins a transaction may use, each with its balance. Merging uses its
sources up; splitting takes no more than there is. What a command cannot use
makes it abort, and a command that does not abort keeps the total.
-/

namespace Pytusk.Lib

variable {κ : Type} [DecidableEq κ]

structure CoinLedger (κ : Type) where
  owned : Finset κ
  balance : κ → Nat

namespace CoinLedger

def total (ledger : CoinLedger κ) : Nat := ∑ coin ∈ ledger.owned, ledger.balance coin

/-- `coin` holds exactly `amount`. -/
def Holds (ledger : CoinLedger κ) (coin : κ) (amount : Nat) : Prop :=
  coin ∈ ledger.owned ∧ ledger.balance coin = amount

/-- One source is used up for the destination. -/
def join (dest : κ) (ledger : CoinLedger κ) (source : κ) : Option (CoinLedger κ) :=
  if dest ∈ ledger.owned ∧ source ∈ ledger.owned ∧ source ≠ dest then
    some {
      owned := ledger.owned.erase source
      balance := Function.update ledger.balance dest
        (ledger.balance dest + ledger.balance source) }
  else none

/-- There must be a source. -/
def merge (dest : κ) (sources : List κ) (ledger : CoinLedger κ) : Option (CoinLedger κ) :=
  if sources = [] then none else sources.foldlM (join dest) ledger

/-- A new coin with what is taken from `source`. -/
def split (source new : κ) (amount : Nat) (ledger : CoinLedger κ) : Option (CoinLedger κ) :=
  if source ∈ ledger.owned ∧ new ∉ ledger.owned ∧ amount ≤ ledger.balance source then
    some {
      owned := insert new ledger.owned
      balance := Function.update
        (Function.update ledger.balance source (ledger.balance source - amount)) new amount }
  else none

/-- Part of a coin is paid out of it. -/
def spend (coin : κ) (amount : Nat) (ledger : CoinLedger κ) : Option (CoinLedger κ) :=
  if coin ∈ ledger.owned ∧ amount ≤ ledger.balance coin then
    some { ledger with
      balance := Function.update ledger.balance coin (ledger.balance coin - amount) }
  else none

/-- A coin is paid whole. -/
def consume (coin : κ) (ledger : CoinLedger κ) : Option (CoinLedger κ) :=
  if coin ∈ ledger.owned then some { ledger with owned := ledger.owned.erase coin } else none

/-- Something is paid into a coin. -/
def deposit (coin : κ) (amount : Nat) (ledger : CoinLedger κ) : Option (CoinLedger κ) :=
  if coin ∈ ledger.owned then
    some { ledger with
      balance := Function.update ledger.balance coin (ledger.balance coin + amount) }
  else none

/-- A new coin with nothing. -/
def create (new : κ) (ledger : CoinLedger κ) : Option (CoinLedger κ) :=
  if new ∉ ledger.owned then
    some { owned := insert new ledger.owned, balance := Function.update ledger.balance new 0 }
  else none

/-! ## The total -/

/-- Changing one balance changes the sum by the difference. -/
private theorem sum_update_add {coins : Finset κ} {coin : κ} (h : coin ∈ coins)
    (balance : κ → Nat) (n : Nat) :
    ∑ c ∈ coins, Function.update balance coin n c + balance coin =
      ∑ c ∈ coins, balance c + n := by
  have hrest := Finset.add_sum_erase coins balance h
  rw [Finset.sum_update_of_mem h, Finset.sdiff_singleton_eq_erase]
  omega

theorem total_join {ledger ledger' : CoinLedger κ} {dest source : κ}
    (h : join dest ledger source = some ledger') : ledger'.total = ledger.total := by
  rw [join, Option.ite_none_right_eq_some] at h
  obtain ⟨⟨hdest, hsource, hne⟩, heq⟩ := h
  cases heq
  have hdest' : dest ∈ ledger.owned.erase source := Finset.mem_erase.mpr ⟨hne.symm, hdest⟩
  have hall := Finset.add_sum_erase ledger.owned ledger.balance hsource
  have hupdate := sum_update_add hdest' ledger.balance
    (ledger.balance dest + ledger.balance source)
  simp only [total]
  omega

theorem total_split {ledger ledger' : CoinLedger κ} {source new : κ} {amount : Nat}
    (h : split source new amount ledger = some ledger') : ledger'.total = ledger.total := by
  rw [split, Option.ite_none_right_eq_some] at h
  obtain ⟨⟨hsource, hnew, hamount⟩, heq⟩ := h
  cases heq
  have hupdate := sum_update_add hsource ledger.balance (ledger.balance source - amount)
  simp only [total]
  rw [Finset.sum_insert hnew, Function.update_self, Finset.sum_update_of_notMem hnew]
  omega

theorem total_foldlM_join {ledger ledger' : CoinLedger κ} {dest : κ} {sources : List κ}
    (h : sources.foldlM (join dest) ledger = some ledger') : ledger'.total = ledger.total := by
  induction sources generalizing ledger with
  | nil =>
    cases h
    rfl
  | cons source sources ih =>
    rw [List.foldlM_cons] at h
    obtain ⟨joined, hjoin, hrest⟩ := Option.bind_eq_some_iff.mp h
    rw [ih hrest, total_join hjoin]

theorem total_merge {ledger ledger' : CoinLedger κ} {dest : κ} {sources : List κ}
    (h : merge dest sources ledger = some ledger') : ledger'.total = ledger.total := by
  rw [merge, Option.ite_none_left_eq_some] at h
  exact total_foldlM_join h.2

theorem total_spend {ledger ledger' : CoinLedger κ} {coin : κ} {amount : Nat}
    (h : spend coin amount ledger = some ledger') : ledger'.total + amount = ledger.total := by
  rw [spend, Option.ite_none_right_eq_some] at h
  obtain ⟨⟨hcoin, hamount⟩, heq⟩ := h
  cases heq
  have hupdate := sum_update_add hcoin ledger.balance (ledger.balance coin - amount)
  simp only [total]
  omega

theorem total_consume {ledger ledger' : CoinLedger κ} {coin : κ}
    (h : consume coin ledger = some ledger') :
    ledger'.total + ledger.balance coin = ledger.total := by
  rw [consume, Option.ite_none_right_eq_some] at h
  obtain ⟨hcoin, heq⟩ := h
  cases heq
  exact Finset.sum_erase_add _ _ hcoin

theorem total_deposit {ledger ledger' : CoinLedger κ} {coin : κ} {amount : Nat}
    (h : deposit coin amount ledger = some ledger') : ledger'.total = ledger.total + amount := by
  rw [deposit, Option.ite_none_right_eq_some] at h
  obtain ⟨hcoin, heq⟩ := h
  cases heq
  have hupdate := sum_update_add hcoin ledger.balance (ledger.balance coin + amount)
  simp only [total]
  omega

theorem total_create {ledger ledger' : CoinLedger κ} {new : κ}
    (h : create new ledger = some ledger') : ledger'.total = ledger.total := by
  rw [create, Option.ite_none_right_eq_some] at h
  obtain ⟨hnew, heq⟩ := h
  cases heq
  simp only [total]
  rw [Finset.sum_insert hnew, Function.update_self, Finset.sum_update_of_notMem hnew, Nat.zero_add]

/-! ## What stays as it is -/

/-- Merging adds no coins. -/
theorem owned_merge_subset {ledger ledger' : CoinLedger κ} {dest : κ} {sources : List κ}
    (h : merge dest sources ledger = some ledger') : ledger'.owned ⊆ ledger.owned := by
  rw [merge, Option.ite_none_left_eq_some] at h
  obtain ⟨-, hfold⟩ := h
  induction sources generalizing ledger with
  | nil =>
    cases hfold
    exact subset_rfl
  | cons source sources ih =>
    rw [List.foldlM_cons] at hfold
    obtain ⟨joined, hjoin, hrest⟩ := Option.bind_eq_some_iff.mp hfold
    rw [join, Option.ite_none_right_eq_some] at hjoin
    obtain ⟨-, heq⟩ := hjoin
    cases heq
    exact (ih hrest).trans (Finset.erase_subset ..)

section Untouched

variable {ledger ledger' : CoinLedger κ} {dest other : κ} {amount : Nat}

theorem holds_join {source : κ} (h : join dest ledger source = some ledger')
    (hother : ledger.Holds other amount) (hdest : other ≠ dest) (hsource : other ≠ source) :
    ledger'.Holds other amount := by
  rw [join, Option.ite_none_right_eq_some] at h
  obtain ⟨-, heq⟩ := h
  cases heq
  exact ⟨Finset.mem_erase.mpr ⟨hsource, hother.1⟩,
    (Function.update_of_ne hdest ..).trans hother.2⟩

theorem holds_merge {sources : List κ} (h : merge dest sources ledger = some ledger')
    (hother : ledger.Holds other amount) (hnot : other ∉ dest :: sources) :
    ledger'.Holds other amount := by
  rw [merge, Option.ite_none_left_eq_some] at h
  obtain ⟨-, hfold⟩ := h
  obtain ⟨hdest, hsources⟩ := not_or.mp (List.mem_cons.not.mp hnot)
  clear hnot
  induction sources generalizing ledger with
  | nil =>
    cases hfold
    exact hother
  | cons source sources ih =>
    rw [List.foldlM_cons] at hfold
    obtain ⟨joined, hjoin, hrest⟩ := Option.bind_eq_some_iff.mp hfold
    obtain ⟨hsource, hsources⟩ := not_or.mp (List.mem_cons.not.mp hsources)
    exact ih (holds_join hjoin hother hdest hsource) hrest hsources

theorem holds_spend {coin : κ} {spent : Nat} (h : spend coin spent ledger = some ledger')
    (hother : ledger.Holds other amount) (hne : other ≠ coin) : ledger'.Holds other amount := by
  rw [spend, Option.ite_none_right_eq_some] at h
  obtain ⟨-, heq⟩ := h
  cases heq
  exact ⟨hother.1, (Function.update_of_ne hne ..).trans hother.2⟩

theorem holds_consume {coin : κ} (h : consume coin ledger = some ledger')
    (hother : ledger.Holds other amount) (hne : other ≠ coin) : ledger'.Holds other amount := by
  rw [consume, Option.ite_none_right_eq_some] at h
  obtain ⟨-, heq⟩ := h
  cases heq
  exact ⟨Finset.mem_erase.mpr ⟨hne, hother.1⟩, hother.2⟩

theorem mem_of_split {source new : κ} (h : split source new amount ledger = some ledger')
    (hother : other ∈ ledger'.owned) : other = new ∨ other ∈ ledger.owned := by
  rw [split, Option.ite_none_right_eq_some] at h
  obtain ⟨-, heq⟩ := h
  cases heq
  exact Finset.mem_insert.mp hother

theorem owned_spend {coin : κ} {spent : Nat} (h : spend coin spent ledger = some ledger') :
    ledger'.owned = ledger.owned := by
  rw [spend, Option.ite_none_right_eq_some] at h
  obtain ⟨-, heq⟩ := h
  cases heq
  rfl

theorem mem_of_consume {coin : κ} (h : consume coin ledger = some ledger')
    (hother : other ∈ ledger'.owned) : other ≠ coin ∧ other ∈ ledger.owned := by
  rw [consume, Option.ite_none_right_eq_some] at h
  obtain ⟨-, heq⟩ := h
  cases heq
  exact Finset.mem_erase.mp hother

end Untouched

/-! ## When nothing aborts -/

theorem join_of_mem {ledger : CoinLedger κ} {dest source : κ} (hdest : dest ∈ ledger.owned)
    (hsource : source ∈ ledger.owned) (hne : source ≠ dest) :
    ∃ joined, join dest ledger source = some joined ∧
      joined.owned = ledger.owned.erase source ∧
      joined.balance = Function.update ledger.balance dest
        (ledger.balance dest + ledger.balance source) :=
  ⟨_, if_pos ⟨hdest, hsource, hne⟩, rfl, rfl⟩

/-- Distinct coins that are there are merged, none into itself. -/
theorem exists_foldlM_join {ledger : CoinLedger κ} {dest : κ} {sources : List κ}
    (hdest : dest ∈ ledger.owned) (hsources : ∀ source ∈ sources, source ∈ ledger.owned)
    (hnodup : (dest :: sources).Nodup) :
    ∃ ledger', sources.foldlM (join dest) ledger = some ledger' ∧
      ledger'.owned ⊆ ledger.owned ∧
      ledger'.Holds dest (ledger.balance dest + (sources.map ledger.balance).sum) := by
  induction sources generalizing ledger with
  | nil => exact ⟨ledger, rfl, subset_rfl, hdest, rfl⟩
  | cons source sources ih =>
    obtain ⟨hdestNot, hnodup⟩ := List.nodup_cons.mp hnodup
    obtain ⟨hsourceNot, hnodup⟩ := List.nodup_cons.mp hnodup
    obtain ⟨hne, hdestNot⟩ := not_or.mp (List.mem_cons.not.mp hdestNot)
    obtain ⟨joined, hjoin, howned, hbalance⟩ :=
      join_of_mem hdest (hsources source List.mem_cons_self) (Ne.symm hne)
    -- the other sources are still there, with their balances
    have hdest' : dest ∈ joined.owned := howned ▸ Finset.mem_erase.mpr ⟨hne, hdest⟩
    have hsources' : ∀ other ∈ sources, other ∈ joined.owned := by
      intro other hother
      rw [howned]
      refine Finset.mem_erase.mpr ⟨?_, hsources other (List.mem_cons_of_mem _ hother)⟩
      rintro rfl
      exact hsourceNot hother
    have hbalances : sources.map joined.balance = sources.map ledger.balance := by
      rw [hbalance]
      refine List.map_congr_left fun other hother => Function.update_of_ne ?_ ..
      rintro rfl
      exact hdestNot hother
    obtain ⟨ledger', hrest, hsub, hmem, hsum⟩ :=
      ih hdest' hsources' (List.nodup_cons.mpr ⟨hdestNot, hnodup⟩)
    refine ⟨ledger', ?_, ?_, hmem, ?_⟩
    · rw [List.foldlM_cons, hjoin]
      exact hrest
    · exact hsub.trans (howned ▸ Finset.erase_subset ..)
    · rw [hsum, hbalances, hbalance, Function.update_self, List.map_cons, List.sum_cons,
        Nat.add_assoc]

theorem exists_merge {ledger : CoinLedger κ} {dest : κ} {sources : List κ}
    (hdest : dest ∈ ledger.owned) (hsources : ∀ source ∈ sources, source ∈ ledger.owned)
    (hnodup : (dest :: sources).Nodup) (hsome : sources ≠ []) :
    ∃ ledger', merge dest sources ledger = some ledger' ∧ ledger'.owned ⊆ ledger.owned ∧
      ledger'.Holds dest (ledger.balance dest + (sources.map ledger.balance).sum) := by
  rw [merge, if_neg hsome]
  exact exists_foldlM_join hdest hsources hnodup

theorem spend_of_holds {ledger : CoinLedger κ} {coin : κ} {balance amount : Nat}
    (hcoin : ledger.Holds coin balance) (hamount : amount ≤ balance) :
    ∃ ledger', spend coin amount ledger = some ledger' ∧ ledger'.Holds coin (balance - amount) := by
  obtain ⟨hmem, rfl⟩ := hcoin
  rw [spend, if_pos ⟨hmem, hamount⟩]
  exact ⟨_, rfl, hmem, Function.update_self ..⟩

theorem consume_of_holds {ledger : CoinLedger κ} {coin : κ} {balance : Nat}
    (hcoin : ledger.Holds coin balance) :
    ∃ ledger', consume coin ledger = some ledger' := ⟨_, if_pos hcoin.1⟩

theorem le_total_of_holds {ledger : CoinLedger κ} {coin : κ} {balance : Nat}
    (hcoin : ledger.Holds coin balance) : balance ≤ ledger.total := by
  obtain ⟨ledger', hconsume⟩ := consume_of_holds hcoin
  rw [← total_consume hconsume, hcoin.2]
  exact Nat.le_add_left ..

theorem exists_split {ledger : CoinLedger κ} {source new : κ} {balance amount : Nat}
    (hsource : ledger.Holds source balance) (hnew : new ∉ ledger.owned)
    (hamount : amount ≤ balance) :
    ∃ ledger', split source new amount ledger = some ledger' ∧ ledger'.Holds new amount := by
  obtain ⟨hmem, rfl⟩ := hsource
  rw [split, if_pos ⟨hmem, hnew, hamount⟩]
  exact ⟨_, rfl, Finset.mem_insert_self .., Function.update_self ..⟩

/-! ## Reading the coins -/

/-- Listed coins, with distinct names. -/
def ofCoins (coins : Dict κ Nat) : CoinLedger κ where
  owned := coins.keys.toFinset
  balance coin := (coins.get? coin).getD 0

theorem holds_ofCoins {coins : Dict κ Nat} (h : coins.keys.Nodup) {coin : κ} {amount : Nat}
    (hmem : (coin, amount) ∈ coins) : (ofCoins coins).Holds coin amount := by
  refine ⟨List.mem_toFinset.mpr (List.mem_map_of_mem hmem), ?_⟩
  show (coins.get? coin).getD 0 = amount
  rw [(Dict.mem_iff_get? h).mp hmem, Option.getD_some]

theorem total_ofCoins {coins : Dict κ Nat} (h : coins.keys.Nodup) :
    (ofCoins coins).total = (coins.map Prod.snd).sum := by
  have hbalances : coins.keys.map (ofCoins coins).balance = coins.map Prod.snd := by
    rw [Dict.keys, List.map_map]
    exact List.map_congr_left fun entry hentry => (holds_ofCoins h hentry).2
  rw [total, ← hbalances]
  exact List.sum_toFinset _ h

end CoinLedger

end Pytusk.Lib
