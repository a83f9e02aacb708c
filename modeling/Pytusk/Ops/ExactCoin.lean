import Pytusk.Lib.CoinLedger
import Pytusk.Ops.Coins

/-!
# A coin of an exact amount

The calls that `prepare_wal_coin_for_amount` makes are replayed over the
ledger of the owner's coins. The coins are told apart by the arguments that
stand for them: an owned coin by its id, a coin that was split off by the
command it results from.
-/

namespace Pytusk.Ops

open Pytusk.Lib

/-! ## Replaying coin commands -/

/-- The meaning of the `command`-th command. -/
def replayCall (command : Nat) (ledger : CoinLedger Argument) :
    BuilderCall → Option (CoinLedger Argument)
  | .mergeCoins mergeTo mergeFrom => ledger.merge mergeTo mergeFrom
  | .splitCoin coin [amount] => ledger.split coin (.result command) amount
  | _ => none

/-- `none` where a command aborts. -/
def replay : (command : Nat) → List BuilderCall → CoinLedger Argument →
    Option (CoinLedger Argument)
  | _, [], ledger => some ledger
  | command, call :: calls, ledger => do
      replay (command + 1) calls (← replayCall command ledger call)

/-- The coins that a reply lists. -/
def ownedCoins (coins : List CoinView) : CoinLedger Argument :=
  CoinLedger.ofCoins (coins.map fun coin => (.str coin.objectId, balanceOf coin))

theorem total_replayCall {command : Nat} {ledger ledger' : CoinLedger Argument}
    {call : BuilderCall} (h : replayCall command ledger call = some ledger') :
    ledger'.total = ledger.total := by
  unfold replayCall at h
  split at h
  · exact CoinLedger.total_merge h
  · exact CoinLedger.total_split h
  · cases h

/-- **No command makes or loses money.** -/
theorem total_replay {command : Nat} {calls : List BuilderCall}
    {ledger ledger' : CoinLedger Argument} (h : replay command calls ledger = some ledger') :
    ledger'.total = ledger.total := by
  induction calls generalizing command ledger with
  | nil =>
    cases h
    rfl
  | cons call calls ih =>
    obtain ⟨next, hcall, hrest⟩ := Option.bind_eq_some_iff.mp h
    rw [ih hrest, total_replayCall hcall]

/-! ## The owned coins -/

section Owned

variable {coins : List CoinView} (hdistinct : (coins.map CoinView.objectId).Nodup)

include hdistinct

private theorem nodup_keys :
    (Dict.keys (coins.map fun coin => (Argument.str coin.objectId, balanceOf coin))).Nodup := by
  rw [Dict.keys, List.map_map]
  have hinj : Function.Injective Argument.str := fun _ _ h => Argument.str.inj h
  have h := hdistinct.map hinj
  rwa [List.map_map] at h

theorem total_ownedCoins : (ownedCoins coins).total = (coins.map balanceOf).sum := by
  rw [ownedCoins, CoinLedger.total_ofCoins (nodup_keys hdistinct), List.map_map]
  rfl

theorem holds_ownedCoins {coin : CoinView} (h : coin ∈ coins) :
    (ownedCoins coins).Holds (.str coin.objectId) (balanceOf coin) :=
  CoinLedger.holds_ofCoins (nodup_keys hdistinct) (List.mem_map_of_mem h)

end Owned

/-- No result of a command is among them. -/
theorem result_notMem_ownedCoins (coins : List CoinView) (command : Nat) :
    .result command ∉ (ownedCoins coins).owned := by
  simp [ownedCoins, CoinLedger.ofCoins, Dict.keys]

theorem richestFirst_perm (coins : List CoinView) : (richestFirst coins).Perm coins :=
  List.mergeSort_perm ..

/-! ## Replaying what is composed -/

section Replay

variable {ledger : CoinLedger Argument} {command amount balance : Nat} {coin : Argument}

theorem replay_split (hcoin : ledger.Holds coin balance) (hnew : .result command ∉ ledger.owned)
    (hamount : amount ≤ balance) :
    ∃ ledger', replay command [.splitCoin coin [amount]] ledger = some ledger' ∧
      ledger'.Holds (.result command) amount := by
  obtain ⟨ledger', hsplit, hholds⟩ := CoinLedger.exists_split hcoin hnew hamount
  exact ⟨ledger', by rw [replay, replayCall, hsplit]; rfl, hholds⟩

theorem replay_mergeSplit {sources : List Argument} (hcoin : ledger.Holds coin balance)
    (hsources : ∀ source ∈ sources, source ∈ ledger.owned) (hnodup : (coin :: sources).Nodup)
    (hsome : sources ≠ []) (hnew : .result (command + 1) ∉ ledger.owned)
    (hamount : amount ≤ balance + (sources.map ledger.balance).sum) :
    ∃ ledger', replay command [.mergeCoins coin sources, .splitCoin coin [amount]] ledger =
        some ledger' ∧ ledger'.Holds (.result (command + 1)) amount := by
  obtain ⟨hmem, rfl⟩ := hcoin
  obtain ⟨merged, hmerge, hsub, hholds⟩ :=
    CoinLedger.exists_merge hmem hsources hnodup hsome
  obtain ⟨ledger', hsplit, hledger'⟩ :=
    replay_split hholds (fun h => hnew (hsub h)) hamount
  exact ⟨ledger', by rw [replay, replayCall, hmerge]; exact hsplit, hledger'⟩

end Replay

/-! ## The preparation -/

/-- The reads answer, and the coins of an owner who has any are listed with
their type. -/
structure ReadsCoins (w : World) (coinMetadata : ExecuteOutcome CoinMetadataView)
    (coins : List CoinView) : Prop where
  balances : ∃ balances, w.balances = .ok (.ok (some balances)) ∧
    (coins ≠ [] → ∃ entry ∈ balances, isWalEntry w entry = true)
  metadata : ∃ decimals, coinMetadata = .ok (.ok (some ⟨some ⟨some decimals⟩⟩))
  coins : w.walCoins = .ok (.ok (some coins))

section Prepare

variable {w : World} {coinMetadata : ExecuteOutcome CoinMetadataView} {coins : List CoinView}
  {builder : Builder}

theorem walBalanceAndDecimals_of_reads (h : ReadsCoins w coinMetadata coins) (owner : String) :
    (∃ entry, walBalanceAndDecimals w coinMetadata owner = .ok entry) ∨
      (coins = [] ∧ walBalanceAndDecimals w coinMetadata owner =
        .error (.runtimeError s!"No WAL coins found for {owner}.")) := by
  obtain ⟨balances, hbalances, hlisted⟩ := h.balances
  obtain ⟨decimals, hmetadata⟩ := h.metadata
  rw [walBalanceAndDecimals, hbalances, hmetadata]
  cases hfind : balances.find? (isWalEntry w) with
  | some entry => exact .inl ⟨(entry, decimals), by simp [World.resultData, hfind]⟩
  | none =>
    refine .inr ⟨?_, by simp [World.resultData, hfind]⟩
    by_contra hsome
    obtain ⟨entry, hentry, hwal⟩ := hlisted hsome
    exact absurd hwal (List.find?_eq_none.mp hfind entry hentry)

theorem callOn_eq (hbuilder : ∀ n, builder n = .ok ()) (txn : Txn) (call : BuilderCall) :
    callOn builder txn call =
      ⟨.ok ({ txn with calls := txn.calls ++ [call] }, .result txn.commands.length), [call]⟩ := by
  rw [callOn, Txn.add, hbuilder]
  rfl

/-- What was composed leaves `coin` with the amount. -/
structure Prepares (command : Nat) (ledger : CoinLedger Argument) (amount : Nat)
    (calls : List BuilderCall) (coin : Argument) : Prop where
  replayed : ∃ ledger', replay command calls ledger = some ledger' ∧ ledger'.Holds coin amount
  merged : ∀ mergeTo mergeFrom, .mergeCoins mergeTo mergeFrom ∈ calls →
    (mergeTo :: mergeFrom).Nodup

/-- From the richest coin that is not of the amount itself. -/
theorem prepares_of_split {command amount : Nat} {primary : CoinView}
    (hdistinct : (coins.map CoinView.objectId).Nodup) (hprimary : primary ∈ coins)
    (hamount : amount ≤ balanceOf primary) :
    Prepares command (ownedCoins coins) amount [.splitCoin (.str primary.objectId) [amount]]
      (.result command) where
  replayed := replay_split (holds_ownedCoins hdistinct hprimary)
    (result_notMem_ownedCoins coins command) hamount
  merged := by simp

/-- The sources are other coins, and what they add is enough. -/
theorem prepares_of_merge {command amount : Nat} {primary : CoinView} {others : List CoinView}
    (hdistinct : (coins.map CoinView.objectId).Nodup) (hperm : (primary :: others).Perm coins)
    (hless : balanceOf primary < amount) (htotal : amount ≤ (coins.map balanceOf).sum) :
    Prepares command (ownedCoins coins) amount
      [.mergeCoins (.str primary.objectId)
          ((mergeSources amount (balanceOf primary) others).map .str),
        .splitCoin (.str primary.objectId) [amount]]
      (.result (command + 1)) := by
  obtain ⟨merged, hmerged⟩ : ∃ merged,
    merged = Greedy.gather balanceOf amount (balanceOf primary) others := ⟨_, rfl⟩
  have hprefix : merged <+: others := hmerged ▸ Greedy.gather_isPrefix ..
  have hsum := (hperm.map balanceOf).sum_eq
  rw [List.map_cons, List.sum_cons] at hsum
  have hcovered : amount ≤ balanceOf primary + Greedy.total balanceOf merged :=
    hmerged ▸ Greedy.le_gather (by unfold Greedy.total; omega)
  rw [mergeSources, ← hmerged, List.map_map]
  have hmem : ∀ coin ∈ primary :: merged, coin ∈ coins := fun coin hcoin =>
    hperm.subset ((List.cons_subset_cons primary hprefix.subset) hcoin)
  have hnodup : ((primary :: merged).map fun coin => Argument.str coin.objectId).Nodup := by
    have hids : ((primary :: others).map CoinView.objectId).Nodup :=
      (hperm.map CoinView.objectId).nodup_iff.mpr hdistinct
    have hsub : List.Sublist (primary :: merged) (primary :: others) :=
      hprefix.sublist.cons_cons primary
    have hinj : Function.Injective Argument.str := fun _ _ h => Argument.str.inj h
    have hstr := ((hsub.map CoinView.objectId).nodup hids).map hinj
    rwa [List.map_map] at hstr
  have hbalances : (merged.map (Argument.str ∘ CoinView.objectId)).map
      (ownedCoins coins).balance = merged.map balanceOf := by
    rw [List.map_map]
    exact List.map_congr_left fun coin hcoin =>
      (holds_ownedCoins hdistinct (hmem coin (List.mem_cons_of_mem _ hcoin))).2
  refine ⟨replay_mergeSplit (holds_ownedCoins hdistinct (hmem primary List.mem_cons_self))
    ?_ hnodup ?_ (result_notMem_ownedCoins coins _) ?_, ?_⟩
  · intro source hsource
    obtain ⟨coin, hcoin, rfl⟩ := List.mem_map.mp hsource
    exact (holds_ownedCoins hdistinct (hmem coin (List.mem_cons_of_mem _ hcoin))).1
  · -- the richest coin alone is not enough
    rintro hnil
    rw [List.map_eq_nil_iff.mp hnil] at hcovered
    simp at hcovered
    omega
  · rw [hbalances]
    exact hcovered
  · intro mergeTo mergeFrom hcall
    simp only [List.mem_cons, BuilderCall.mergeCoins.injEq, reduceCtorEq, List.not_mem_nil,
      or_false] at hcall
    obtain ⟨rfl, rfl⟩ := hcall
    exact hnodup

theorem coinForAmount_cases (hbuilder : ∀ n, builder n = .ok ())
    (hdistinct : (coins.map CoinView.objectId).Nodup) {sorted : List CoinView}
    (hperm : sorted.Perm coins) (txn : Txn) (owner : String) (amount : Nat) :
    (∃ message, coinForAmount builder txn owner amount sorted =
        ⟨.error (.runtimeError message), []⟩ ∧
      (coins = [] ∨ (coins.map balanceOf).sum < amount)) ∨
    (∃ coin calls, coinForAmount builder txn owner amount sorted = ⟨.ok coin, calls⟩ ∧
      ¬ (coins = [] ∨ (coins.map balanceOf).sum < amount) ∧
      Prepares txn.commands.length (ownedCoins coins) amount calls coin) := by
  cases sorted with
  | nil => exact .inl ⟨_, rfl, .inl hperm.nil_eq.symm⟩
  | cons primary others =>
    have hsum := (hperm.map balanceOf).sum_eq
    have hprimary : primary ∈ coins := hperm.subset List.mem_cons_self
    rw [coinForAmount, hsum]
    by_cases htotal : (coins.map balanceOf).sum < amount
    · rw [if_pos htotal]
      exact .inl ⟨_, rfl, .inr htotal⟩
    · rw [if_neg htotal]
      have henough : ¬ (coins = [] ∨ (coins.map balanceOf).sum < amount) :=
        not_or.mpr ⟨List.ne_nil_of_mem hprimary, htotal⟩
      refine .inr ?_
      cases hfind : (primary :: others).find? (fun coin => balanceOf coin = amount) with
      | some exactMatch =>
        have hbalance := List.find?_some hfind
        have hmem := hperm.subset (List.mem_of_find?_eq_some hfind)
        have hholds := holds_ownedCoins hdistinct hmem
        rw [of_decide_eq_true hbalance] at hholds
        exact ⟨_, [], rfl, henough, ⟨_, rfl, hholds⟩, by simp⟩
      | none =>
        have hne : balanceOf primary ≠ amount := by
          simpa using List.find?_eq_none.mp hfind primary List.mem_cons_self
        dsimp only
        by_cases hmore : balanceOf primary > amount
        · rw [if_pos hmore, callOn_eq hbuilder]
          exact ⟨_, _, rfl, henough, prepares_of_split hdistinct hprimary (by omega)⟩
        · rw [if_neg hmore, callOn_eq hbuilder]
          simp only [Logged.mk_ok_bind, callOn_eq hbuilder]
          refine ⟨_, _, rfl, henough, ?_⟩
          have hcommand : ({ txn with calls := txn.calls ++ [BuilderCall.mergeCoins
              (.str primary.objectId)
                ((mergeSources amount (balanceOf primary) others).map .str)] } :
                Txn).commands.length = txn.commands.length + 1 := by
            rw [Txn.commands, List.filter_append, List.length_append]
            rfl
          rw [hcommand]
          exact prepares_of_merge hdistinct hperm (by omega) (by omega)

/-- **An exact coin**: the preparation raises, and composes nothing, exactly
when the coins are not enough; otherwise what it composed runs, keeps the
total and leaves a coin of the amount. -/
theorem prepareWalCoinForAmount_exact (hreads : ReadsCoins w coinMetadata coins)
    (hbuilder : ∀ n, builder n = .ok ()) (hdistinct : (coins.map CoinView.objectId).Nodup)
    (txn : Txn) (owner : String) (amount : Nat) :
    (coins = [] ∨ (coins.map balanceOf).sum < amount →
      ∃ message, prepareWalCoinForAmount w coinMetadata builder txn owner amount =
        ⟨.error (.runtimeError message), []⟩) ∧
    (¬ (coins = [] ∨ (coins.map balanceOf).sum < amount) →
      ∃ coin calls ledger, prepareWalCoinForAmount w coinMetadata builder txn owner amount =
        ⟨.ok coin, calls⟩ ∧
        (∀ mergeTo mergeFrom, .mergeCoins mergeTo mergeFrom ∈ calls →
          (mergeTo :: mergeFrom).Nodup) ∧
        replay txn.commands.length calls (ownedCoins coins) = some ledger ∧
        ledger.total = (coins.map balanceOf).sum ∧ ledger.Holds coin amount) := by
  have hrun : (coins = [] ∧ ∃ message,
      prepareWalCoinForAmount w coinMetadata builder txn owner amount =
        ⟨.error (.runtimeError message), []⟩) ∨
      prepareWalCoinForAmount w coinMetadata builder txn owner amount =
        coinForAmount builder txn owner amount (richestFirst coins) := by
    unfold prepareWalCoinForAmount
    rcases walBalanceAndDecimals_of_reads hreads owner with ⟨entry, hentry⟩ | ⟨hnone, hraise⟩
    · rw [hentry, hreads.coins]
      exact .inr rfl
    · rw [hraise]
      exact .inl ⟨hnone, _, rfl⟩
  rcases hrun with ⟨hnone, hraise⟩ | hrun
  · exact ⟨fun _ => hraise, fun henough => absurd (.inl hnone) henough⟩
  rw [hrun]
  rcases coinForAmount_cases hbuilder hdistinct (richestFirst_perm coins) txn owner amount with
    ⟨message, hraise, hshort⟩ | ⟨coin, calls, hok, henough, hprepares⟩
  · exact ⟨fun _ => ⟨message, hraise⟩, fun henough => absurd hshort henough⟩
  · obtain ⟨⟨ledger, hreplay, hholds⟩, hmerged⟩ := hprepares
    refine ⟨fun hshort => absurd hshort henough, fun _ => ?_⟩
    exact ⟨coin, calls, ledger, hok, hmerged, hreplay,
      by rw [total_replay hreplay, total_ownedCoins hdistinct], hholds⟩

end Prepare

/-- No one coin of the three is enough. -/
private def threeCoins : List CoinView :=
  [⟨"0xa", some 3⟩, ⟨"0xb", some 5⟩, ⟨"0xc", some 4⟩]

private def threeCoinsWorld : World :=
  { World.small with
    balances := .ok (.ok (some [⟨some "wal"⟩]))
    walCoins := .ok (.ok (some threeCoins)) }

theorem prepareWalCoinForAmount_exact_threeCoins :
    ∃ coin calls ledger,
      prepareWalCoinForAmount threeCoinsWorld (.ok (.ok (some ⟨some ⟨some 9⟩⟩))) (fun _ => .ok ())
        ⟨"0xowner", none, []⟩ "0xowner" 10 = ⟨.ok coin, calls⟩ ∧
      (∀ mergeTo mergeFrom, .mergeCoins mergeTo mergeFrom ∈ calls →
        (mergeTo :: mergeFrom).Nodup) ∧
      replay 0 calls (ownedCoins threeCoins) = some ledger ∧ ledger.total = 12 ∧
      ledger.Holds coin 10 :=
  (prepareWalCoinForAmount_exact
    ⟨⟨[⟨some "wal"⟩], rfl, fun _ => ⟨_, List.mem_cons_self, by decide⟩⟩, ⟨9, rfl⟩, rfl⟩
    (fun _ => rfl) (by decide) _ "0xowner" 10).2 (by decide)

end Pytusk.Ops
