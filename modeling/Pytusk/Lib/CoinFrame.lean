import Pytusk.Lib.CoinLedger

/-!
# Commands on a part of the coins

A command that runs with some of the coins runs as well with all of them, and
leaves the others as they are.
-/

namespace Pytusk.Lib.CoinLedger

variable {κ : Type} [DecidableEq κ]

/-- The coins are those of `part` and those of `rest`, and none is in both. -/
structure IsUnion (whole part rest : CoinLedger κ) : Prop where
  owned : whole.owned = part.owned ∪ rest.owned
  disjoint : ∀ coin ∈ part.owned, coin ∉ rest.owned
  ofPart : ∀ coin ∈ part.owned, whole.balance coin = part.balance coin
  ofRest : ∀ coin ∈ rest.owned, whole.balance coin = rest.balance coin

/-- The coins other than those given. -/
def without (coins : Finset κ) (ledger : CoinLedger κ) : CoinLedger κ :=
  { ledger with owned := ledger.owned \ coins }

theorem isUnion_without {whole part : CoinLedger κ}
    (h : ∀ coin ∈ part.owned, whole.Holds coin (part.balance coin)) :
    IsUnion whole part (whole.without part.owned) where
  owned := (Finset.union_sdiff_of_subset fun coin hcoin => (h coin hcoin).1).symm
  disjoint _ hcoin hrest := (Finset.mem_sdiff.mp hrest).2 hcoin
  ofPart coin hcoin := (h coin hcoin).2
  ofRest _ _ := rfl

variable {whole part rest part' : CoinLedger κ} {coin dest source new : κ} {amount : Nat}

namespace IsUnion

theorem total (h : IsUnion whole part rest) : whole.total = part.total + rest.total := by
  unfold CoinLedger.total
  rw [h.owned, Finset.sum_union (Finset.disjoint_left.mpr h.disjoint),
    Finset.sum_congr rfl h.ofPart, Finset.sum_congr rfl h.ofRest]

theorem mem (h : IsUnion whole part rest) (hcoin : coin ∈ part.owned) : coin ∈ whole.owned := by
  rw [h.owned]
  exact Finset.mem_union_left _ hcoin

theorem holds (h : IsUnion whole part rest) (hholds : part.Holds coin amount) :
    whole.Holds coin amount :=
  ⟨h.mem hholds.1, (h.ofPart coin hholds.1).trans hholds.2⟩

theorem holds_rest (h : IsUnion whole part rest) (hholds : rest.Holds coin amount) :
    whole.Holds coin amount := by
  refine ⟨?_, (h.ofRest coin hholds.1).trans hholds.2⟩
  rw [h.owned]
  exact Finset.mem_union_right _ hholds.1

/-- Balances of the part that change, change in the whole. -/
private theorem update (h : IsUnion whole part rest) (hcoin : coin ∈ part.owned) (n : Nat) :
    IsUnion { whole with balance := Function.update whole.balance coin n }
      { part with balance := Function.update part.balance coin n } rest where
  owned := h.owned
  disjoint := h.disjoint
  ofPart other hother := by
    by_cases heq : other = coin
    · subst heq
      simp only [Function.update_self]
    · simp only [Function.update_of_ne heq]
      exact h.ofPart other hother
  ofRest other hother := by
    have hne : other ≠ coin := by
      rintro rfl
      exact h.disjoint other hcoin hother
    simp only [Function.update_of_ne hne]
    exact h.ofRest other hother

private theorem erase (h : IsUnion whole part rest) (hcoin : coin ∈ part.owned) :
    IsUnion { whole with owned := whole.owned.erase coin }
      { part with owned := part.owned.erase coin } rest where
  owned := by
    simp only [h.owned]
    rw [Finset.erase_union_distrib, Finset.erase_eq_of_notMem (h.disjoint coin hcoin)]
  disjoint other hother := h.disjoint other (Finset.mem_of_mem_erase hother)
  ofPart other hother := h.ofPart other (Finset.mem_of_mem_erase hother)
  ofRest := h.ofRest

/-- A new coin of the part, which is none of the others, is new in the whole. -/
private theorem insert (h : IsUnion whole part rest) (hnew : new ∉ rest.owned) (n : Nat) :
    IsUnion ⟨Insert.insert new whole.owned, Function.update whole.balance new n⟩
      ⟨Insert.insert new part.owned, Function.update part.balance new n⟩ rest where
  owned := by
    simp only [h.owned]
    rw [Finset.insert_union]
  disjoint other hother := by
    rcases Finset.mem_insert.mp hother with rfl | hother
    · exact hnew
    · exact h.disjoint other hother
  ofPart other hother := by
    by_cases heq : other = new
    · subst heq
      simp only [Function.update_self]
    · simp only [Function.update_of_ne heq]
      exact h.ofPart other (Finset.mem_of_mem_insert_of_ne hother heq)
  ofRest other hother := by
    have hne : other ≠ new := by
      rintro rfl
      exact hnew hother
    simp only [Function.update_of_ne hne]
    exact h.ofRest other hother

theorem spend (h : IsUnion whole part rest) (hspend : part.spend coin amount = some part') :
    ∃ whole', whole.spend coin amount = some whole' ∧ IsUnion whole' part' rest := by
  rw [CoinLedger.spend, Option.ite_none_right_eq_some] at hspend
  obtain ⟨⟨hcoin, hamount⟩, heq⟩ := hspend
  cases heq
  have hbalance := h.ofPart coin hcoin
  refine ⟨_, if_pos ⟨h.mem hcoin, hbalance ▸ hamount⟩, ?_⟩
  rw [hbalance]
  exact h.update hcoin _

theorem consume (h : IsUnion whole part rest) (hconsume : part.consume coin = some part') :
    ∃ whole', whole.consume coin = some whole' ∧ IsUnion whole' part' rest := by
  rw [CoinLedger.consume, Option.ite_none_right_eq_some] at hconsume
  obtain ⟨hcoin, heq⟩ := hconsume
  cases heq
  exact ⟨_, if_pos (h.mem hcoin), h.erase hcoin⟩

theorem join (h : IsUnion whole part rest) (hjoin : CoinLedger.join dest part source = some part') :
    ∃ whole', CoinLedger.join dest whole source = some whole' ∧ IsUnion whole' part' rest := by
  rw [CoinLedger.join, Option.ite_none_right_eq_some] at hjoin
  obtain ⟨⟨hdest, hsource, hne⟩, heq⟩ := hjoin
  cases heq
  refine ⟨_, if_pos ⟨h.mem hdest, h.mem hsource, hne⟩, ?_⟩
  rw [h.ofPart dest hdest, h.ofPart source hsource]
  exact (h.erase hsource).update (Finset.mem_erase.mpr ⟨hne.symm, hdest⟩) _

theorem merge {sources : List κ} (h : IsUnion whole part rest)
    (hmerge : part.merge dest sources = some part') :
    ∃ whole', whole.merge dest sources = some whole' ∧ IsUnion whole' part' rest := by
  rw [CoinLedger.merge, Option.ite_none_left_eq_some] at hmerge
  obtain ⟨hsome, hfold⟩ := hmerge
  rw [CoinLedger.merge, if_neg hsome]
  clear hsome
  induction sources generalizing whole part with
  | nil =>
    cases hfold
    exact ⟨whole, rfl, h⟩
  | cons source sources ih =>
    rw [List.foldlM_cons] at hfold
    obtain ⟨joined, hjoin, hrest⟩ := Option.bind_eq_some_iff.mp hfold
    obtain ⟨whole', hjoin', h'⟩ := h.join hjoin
    obtain ⟨after, hfold', hafter⟩ := ih h' hrest
    refine ⟨after, ?_, hafter⟩
    rw [List.foldlM_cons, hjoin']
    exact hfold'

/-- The new coin must not be one of the others. -/
theorem split (h : IsUnion whole part rest) (hnew : new ∉ rest.owned)
    (hsplit : part.split source new amount = some part') :
    ∃ whole', whole.split source new amount = some whole' ∧ IsUnion whole' part' rest := by
  rw [CoinLedger.split, Option.ite_none_right_eq_some] at hsplit
  obtain ⟨⟨hsource, hfresh, hamount⟩, heq⟩ := hsplit
  cases heq
  have hbalance := h.ofPart source hsource
  have hfresh' : new ∉ whole.owned := by
    rw [h.owned]
    exact Finset.notMem_union.mpr ⟨hfresh, hnew⟩
  refine ⟨_, if_pos ⟨h.mem hsource, hfresh', hbalance ▸ hamount⟩, ?_⟩
  rw [hbalance]
  exact (h.update hsource _).insert hnew amount

end IsUnion

end Pytusk.Lib.CoinLedger
