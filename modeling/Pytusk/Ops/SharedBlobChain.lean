import Pytusk.Lib.CoinFrame
import Pytusk.Ops.SharedBlob
import Pytusk.Ops.SharedBlobBooks

/-!
# SharedBlobs: the chain

The treasury knows the coins, and carries out transactions call by call. A
transaction that serves a request does to the books what the request says,
however the coins are merged and split for it.
-/

namespace Pytusk.SharedBlobs

open Pytusk.Lib Pytusk.Ops

/-! ## The treasury -/

structure Treasury where
  coins : CoinLedger Argument
  vault : Vault

def Treasury.books (treasury : Treasury) : Books := ⟨treasury.coins.total, treasury.vault⟩

/-- One call: the `command`-th command of a transaction that would give a new
SharedBlob the id `newId`. -/
def Treasury.call (system : System) (newId : String) (command : Nat) (treasury : Treasury) :
    BuilderCall → Option Treasury
  | .moveCall target [.str blobObject] =>
      if target = system.packageId ++ "::shared_blob::new" then
        (treasury.vault.share blobObject newId).map ({ treasury with vault := · })
      else none
  | .moveCall target [.str sharedBlobObject, coin] =>
      if target = system.packageId ++ "::shared_blob::fund" then do
        let coins ← treasury.coins.consume coin
        let vault ← treasury.vault.fund sharedBlobObject (treasury.coins.balance coin)
        return ⟨coins, vault⟩
      else none
  | .moveCall target [.str sharedBlobObject, .str systemObject, .int epochs] =>
      if target = system.packageId ++ "::shared_blob::extend" ∧
          systemObject = system.systemObject then
        (treasury.vault.extendShared system sharedBlobObject epochs).map
          ({ treasury with vault := · })
      else none
  | .moveCall target [.str systemObject, .str blobObject, .int epochs, coin] =>
      if target = system.packageId ++ "::system::extend_blob" ∧
          systemObject = system.systemObject then do
        let (vault, cost) ← treasury.vault.extendBlob system blobObject epochs
        let coins ← treasury.coins.spend coin cost
        return ⟨coins, vault⟩
      else none
  | call => (replayCall command treasury.coins call).map ({ treasury with coins := · })

def isResult : Argument → Bool
  | .result _ => true
  | _ => false

/-- No coin is left that a command has returned and nothing has taken. -/
def Treasury.Settled (treasury : Treasury) : Prop :=
  ∀ coin ∈ treasury.coins.owned, isResult coin = false

instance Treasury.decidableSettled (treasury : Treasury) : Decidable treasury.Settled :=
  inferInstanceAs (Decidable (∀ coin ∈ treasury.coins.owned, isResult coin = false))

/-- All the calls, one after the other. -/
def Treasury.calls (system : System) (newId : String) :
    (command : Nat) → List BuilderCall → Treasury → Option Treasury
  | _, [], treasury => some treasury
  | command, call :: rest, treasury => do
      Treasury.calls system newId (command + 1) rest (← treasury.call system newId command call)

/-- **A transaction**: all its calls, and nothing left untaken, or it aborts. -/
def Treasury.execute (system : System) (treasury : Treasury) (txn : Txn) (newId : String) :
    Option Treasury := do
  let after ← Treasury.calls system newId 0 txn.calls treasury
  if after.Settled then return after else none

/-- A transaction that aborts changes nothing. -/
def Treasury.settle (system : System) (treasury : Treasury) (txn : Txn) (newId : String) :
    Treasury :=
  (treasury.execute system txn newId).getD treasury

/-! ## Coins that are got ready -/

section Frame

variable {system : System} {newId : String} {treasury : Treasury}
  {part part' rest : CoinLedger Argument} {command : Nat} {calls later : List BuilderCall}
  {call : BuilderCall}

theorem calls_append :
    Treasury.calls system newId command (calls ++ later) treasury =
      (Treasury.calls system newId command calls treasury).bind
        (Treasury.calls system newId (command + calls.length) later) := by
  induction calls generalizing command treasury with
  | nil => rfl
  | cons call calls ih =>
    rw [List.cons_append, Treasury.calls, Treasury.calls]
    cases treasury.call system newId command call with
    | none => rfl
    | some next =>
      simp only [Option.bind_eq_bind, Option.bind_some]
      rw [ih, List.length_cons, Nat.add_assoc, Nat.add_comm 1]

/-- Only merging and splitting is replayed. -/
theorem call_of_replayCall {coins : CoinLedger Argument}
    (h : replayCall command coins call ≠ none) :
    treasury.call system newId command call =
      (replayCall command treasury.coins call).map ({ treasury with coins := · }) := by
  cases call with
  | mergeCoins mergeTo mergeFrom => rfl
  | splitCoin coin amounts => rfl
  | inputPure value => exact absurd rfl h
  | transferObjects transfers recipient => exact absurd rfl h
  | moveCall target arguments => exact absurd rfl h

/-- What is replayed with some of the coins is replayed with all. -/
theorem replayCall_whole {whole : CoinLedger Argument} (h : whole.IsUnion part rest)
    (hfresh : ∀ n, .result n ∉ rest.owned) (hreplay : replayCall command part call = some part') :
    ∃ whole', replayCall command whole call = some whole' ∧ whole'.IsUnion part' rest := by
  unfold replayCall at hreplay ⊢
  split at hreplay
  · exact h.merge hreplay
  · exact h.split (hfresh command) hreplay
  · cases hreplay

theorem calls_of_replay (h : treasury.coins.IsUnion part rest)
    (hfresh : ∀ n, .result n ∉ rest.owned) (hreplay : replay command calls part = some part') :
    ∃ coins, Treasury.calls system newId command calls treasury = some { treasury with coins } ∧
      coins.IsUnion part' rest := by
  induction calls generalizing command treasury part with
  | nil =>
    cases hreplay
    exact ⟨treasury.coins, rfl, h⟩
  | cons call calls ih =>
    obtain ⟨next, hcall, hrest⟩ := Option.bind_eq_some_iff.mp hreplay
    obtain ⟨coins, hwhole, hnext⟩ := replayCall_whole h hfresh hcall
    obtain ⟨coins', hcalls, hunion⟩ := @ih { treasury with coins } _ _ hnext hrest
    refine ⟨coins', ?_, hunion⟩
    rw [Treasury.calls, call_of_replayCall (by rw [hcall]; simp), hwhole]
    exact hcalls

/-! ### The coin of an exact amount -/

theorem callOn_eq_ok {builder : Builder} {txn : Txn} {added : Txn × Argument}
    (h : (callOn builder txn call).result = .ok added) :
    callOn builder txn call = ⟨.ok ({ txn with calls := txn.calls ++ [call] },
      .result txn.commands.length), [call]⟩ := by
  unfold callOn Txn.add at h ⊢
  cases hbuilder : builder txn.calls.length with
  | error e =>
    rw [hbuilder] at h
    cases h
  | ok _ => rfl

/-- How a coin of an amount is got ready: it is there, it is split off, or others are merged
first. -/
inductive GetsReady (amount : Nat) : Argument → List BuilderCall → Prop
  | owned (objectId : String) : GetsReady amount (.str objectId) []
  | split (source : Argument) : GetsReady amount (.result 0) [.splitCoin source [amount]]
  | mergeSplit (source : Argument) (others : List Argument) :
      GetsReady amount (.result 1) [.mergeCoins source others, .splitCoin source [amount]]

/-- Where the builder did not raise, it is as if it never did. -/
theorem coinForAmount_eq_ok {builder : Builder} {sender owner : String} {sponsor : Option String}
    {amount : Nat} {coin : Argument} {sorted : List CoinView}
    (h : (coinForAmount builder ⟨sender, sponsor, []⟩ owner amount sorted).result = .ok coin) :
    GetsReady amount coin (coinForAmount builder ⟨sender, sponsor, []⟩ owner amount sorted).log ∧
      coinForAmount builder ⟨sender, sponsor, []⟩ owner amount sorted =
        coinForAmount (fun _ => .ok ()) ⟨sender, sponsor, []⟩ owner amount sorted := by
  cases sorted with
  | nil => cases h
  | cons primary others =>
    unfold coinForAmount at h ⊢
    dsimp only at h ⊢
    split at h
    · cases h
    rename_i hcovers
    rw [if_neg hcovers, if_neg hcovers]
    split at h
    · rename_i exactMatch hfind
      cases h
      exact ⟨.owned exactMatch.objectId, rfl⟩
    · rename_i hfind
      split at h
      · rename_i hmore
        obtain ⟨added, hsplit, hcoin⟩ := Logged.result_bind_eq_ok.mp h
        rw [if_pos hmore, if_pos hmore, callOn_eq_ok hsplit]
        rw [callOn_eq_ok hsplit] at hsplit
        cases hsplit
        cases hcoin
        exact ⟨.split _, rfl⟩
      · rename_i hless
        obtain ⟨merged, hmerge, hrest⟩ := Logged.result_bind_eq_ok.mp h
        obtain ⟨added, hsplit, hcoin⟩ := Logged.result_bind_eq_ok.mp hrest
        rw [if_neg hless, if_neg hless, callOn_eq_ok hmerge]
        rw [callOn_eq_ok hmerge] at hmerge
        cases hmerge
        have hsplit' := callOn_eq_ok hsplit
        rw [hsplit'] at hsplit
        cases hsplit
        cases hcoin
        simp only [Logged.mk_ok_bind]
        rw [hsplit']
        exact ⟨.mergeSplit _ _, rfl⟩

theorem mem_ownedCoins {coins : List CoinView} {coin : Argument} :
    coin ∈ (ownedCoins coins).owned ↔ ∃ listed ∈ coins, .str listed.objectId = coin := by
  simp [ownedCoins, CoinLedger.ofCoins, Dict.keys]

theorem isResult_of_mem_ownedCoins {coins : List CoinView} {coin : Argument}
    (h : coin ∈ (ownedCoins coins).owned) : isResult coin = false := by
  obtain ⟨listed, -, rfl⟩ := mem_ownedCoins.mp h
  rfl

/-- What else is left was not made on the way. -/
theorem left_of_getsReady {coins : List CoinView} {amount : Nat} {coin : Argument}
    {ledger : CoinLedger Argument} (hready : GetsReady amount coin calls)
    (hreplay : replay 0 calls (ownedCoins coins) = some ledger) :
    ∀ other ∈ ledger.owned, other ≠ coin → isResult other = false := by
  intro other hother hne
  cases hready with
  | owned objectId =>
    cases hreplay
    exact isResult_of_mem_ownedCoins hother
  | split source =>
    obtain ⟨after, hsplit, heq⟩ := Option.bind_eq_some_iff.mp hreplay
    cases heq
    exact isResult_of_mem_ownedCoins ((CoinLedger.mem_of_split hsplit hother).resolve_left hne)
  | mergeSplit source others =>
    obtain ⟨merged, hmerge, hrest⟩ := Option.bind_eq_some_iff.mp hreplay
    obtain ⟨after, hsplit, heq⟩ := Option.bind_eq_some_iff.mp hrest
    cases heq
    exact isResult_of_mem_ownedCoins (CoinLedger.owned_merge_subset hmerge
      ((CoinLedger.mem_of_split hsplit hother).resolve_left hne))

/-- **A coin that was got ready** holds the amount, and nothing else was left over. -/
theorem prepareWalCoinForAmount_eq_ok {w : World}
    {coinMetadata : ExecuteOutcome CoinMetadataView} {coins : List CoinView} {builder : Builder}
    {sender owner : String} {sponsor : Option String} {amount : Nat} {coin : Argument}
    (hcoins : w.walCoins = .ok (.ok (some coins)))
    (hdistinct : (coins.map CoinView.objectId).Nodup)
    (h : (prepareWalCoinForAmount w coinMetadata builder ⟨sender, sponsor, []⟩ owner
      amount).result = .ok coin) :
    ¬ (coins = [] ∨ (coins.map balanceOf).sum < amount) ∧
    ∃ ledger, replay 0 (prepareWalCoinForAmount w coinMetadata builder ⟨sender, sponsor, []⟩ owner
        amount).log (ownedCoins coins) = some ledger ∧ ledger.Holds coin amount ∧
      ∀ other ∈ ledger.owned, other ≠ coin → isResult other = false := by
  have hrun : prepareWalCoinForAmount w coinMetadata builder ⟨sender, sponsor, []⟩ owner amount =
      coinForAmount builder ⟨sender, sponsor, []⟩ owner amount (richestFirst coins) := by
    unfold prepareWalCoinForAmount at h ⊢
    cases hbalance : walBalanceAndDecimals w coinMetadata owner with
    | error e =>
      rw [hbalance] at h
      cases h
    | ok entry =>
      rw [hcoins]
      rfl
  rw [hrun] at h ⊢
  obtain ⟨hready, hbuilder⟩ := coinForAmount_eq_ok h
  rw [hbuilder] at h hready ⊢
  rcases coinForAmount_cases (fun _ => rfl) hdistinct (richestFirst_perm coins)
      ⟨sender, sponsor, []⟩ owner amount with
    ⟨message, hraise, -⟩ | ⟨coin', calls, hok, henough, hprepares⟩
  · rw [hraise] at h
    cases h
  · rw [hok] at h hready ⊢
    cases h
    obtain ⟨ledger, hreplay, hholds⟩ := hprepares.replayed
    exact ⟨henough, ledger, hreplay, hholds, left_of_getsReady hready hreplay⟩

/-- The coins that were listed are there, with these balances. -/
structure Lists (treasury : Treasury) (coins : List CoinView) : Prop where
  distinct : (coins.map CoinView.objectId).Nodup
  held : ∀ coin ∈ coins, treasury.coins.Holds (.str coin.objectId) (balanceOf coin)

/-- The coins of the treasury that were not listed. -/
def unlisted (treasury : Treasury) (coins : List CoinView) : CoinLedger Argument :=
  treasury.coins.without (ownedCoins coins).owned

theorem Lists.isUnion {coins : List CoinView} (h : Lists treasury coins) :
    treasury.coins.IsUnion (ownedCoins coins) (unlisted treasury coins) := by
  refine CoinLedger.isUnion_without fun coin hcoin => ?_
  obtain ⟨listed, hlisted, rfl⟩ := mem_ownedCoins.mp hcoin
  rw [(holds_ownedCoins h.distinct hlisted).2]
  exact h.held listed hlisted

end Frame

/-! ## Serving requests -/

section Serving

variable {system : System} {newId sharedBlobObject blobObject : String} {treasury : Treasury}
  {txn : Txn} {coin : Argument} {amount : Nat} {epochs : Int}

theorem settled_settle (h : treasury.Settled) : (treasury.settle system txn newId).Settled := by
  unfold Treasury.settle
  cases hexecute : treasury.execute system txn newId with
  | none => exact h
  | some after =>
    obtain ⟨last, -, hlast⟩ := Option.bind_eq_some_iff.mp hexecute
    split at hlast
    · rename_i hsettled
      cases hlast
      exact hsettled
    · cases hlast

/-- What all the calls lead to decides, if it leaves nothing untaken. -/
theorem execute_of_calls {after : Option Treasury}
    (hcalls : Treasury.calls system newId 0 txn.calls treasury = after)
    (hsettled : ∀ last, after = some last → last.Settled) :
    treasury.execute system txn newId = after := by
  unfold Treasury.execute
  rw [hcalls]
  cases after with
  | none => rfl
  | some last =>
    simp only [Option.bind_eq_bind, Option.bind_some]
    exact if_pos (hsettled last rfl)

/-- A call that leaves the coins alone. -/
theorem execute_of_vault {call : BuilderCall} {after : Option Vault} (hsettled : treasury.Settled)
    (htxn : txn.calls = [call])
    (hcall : treasury.call system newId 0 call = after.map ({ treasury with vault := · })) :
    treasury.execute system txn newId = after.map ({ treasury with vault := · }) := by
  refine execute_of_calls ?_ ?_
  · rw [htxn, Treasury.calls, hcall]
    cases after with
    | none => rfl
    | some vault => rfl
  · intro last hlast
    obtain ⟨vault, -, rfl⟩ := Option.map_eq_some_iff.mp hlast
    exact hsettled

theorem execute_share (hsettled : treasury.Settled)
    (htxn : txn.calls = [shareCall system.packageId blobObject]) :
    treasury.execute system txn newId =
      (treasury.vault.share blobObject newId).map ({ treasury with vault := · }) :=
  execute_of_vault hsettled htxn (if_pos rfl)

theorem execute_extendShared (hsettled : treasury.Settled)
    (htxn : txn.calls =
      [extendSharedCall system.packageId sharedBlobObject system.systemObject epochs]) :
    treasury.execute system txn newId =
      (treasury.vault.extendShared system sharedBlobObject epochs).map
        ({ treasury with vault := · }) :=
  execute_of_vault hsettled htxn (if_pos ⟨rfl, rfl⟩)

theorem books_settle_share (hsettled : treasury.Settled)
    (htxn : txn.calls = [shareCall system.packageId blobObject]) :
    (treasury.settle system txn newId).books =
      treasury.books.serve system (.share blobObject newId) := by
  rw [Treasury.settle, execute_share hsettled htxn]
  show _ = ((treasury.vault.share blobObject newId).map _).getD _
  cases treasury.vault.share blobObject newId with
  | none => rfl
  | some vault => rfl

theorem books_settle_extendShared (hsettled : treasury.Settled)
    (htxn : txn.calls =
      [extendSharedCall system.packageId sharedBlobObject system.systemObject epochs]) :
    (treasury.settle system txn newId).books =
      treasury.books.serve system (.extendShared sharedBlobObject epochs) := by
  rw [Treasury.settle, execute_extendShared hsettled htxn]
  show _ = ((treasury.vault.extendShared system sharedBlobObject epochs).map _).getD _
  cases treasury.vault.extendShared system sharedBlobObject epochs with
  | none => rfl
  | some vault => rfl

variable (system newId sharedBlobObject treasury) in
theorem call_fundCall (command : Nat) (coin : Argument) :
    treasury.call system newId command (fundCall system.packageId sharedBlobObject coin) =
      (treasury.coins.consume coin).bind fun coins =>
        (treasury.vault.fund sharedBlobObject (treasury.coins.balance coin)).map (⟨coins, ·⟩) := by
  refine (if_pos rfl).trans ?_
  cases treasury.coins.consume coin with
  | none => rfl
  | some coins => exact Option.map_eq_bind.symm

variable (system newId blobObject epochs treasury) in
theorem call_extendBlobCall (command : Nat) (coin : Argument) :
    treasury.call system newId command
        (extendBlobCall system.packageId system.systemObject blobObject epochs coin) =
      (treasury.vault.extendBlob system blobObject epochs).bind fun done =>
        (treasury.coins.spend coin done.2).map (⟨·, done.1⟩) := by
  refine (if_pos ⟨rfl, rfl⟩).trans ?_
  cases treasury.vault.extendBlob system blobObject epochs with
  | none => rfl
  | some done => exact Option.map_eq_bind.symm

section Prepared

/-! What comes before the last call only merges and splits. -/

variable {prepared : List BuilderCall} {coins : CoinLedger Argument}

/-- What is consumed at the end goes to the pool. -/
theorem execute_fund
    (hprepared : Treasury.calls system newId 0 prepared treasury = some { treasury with coins })
    (hcoin : coins.Holds coin amount)
    (hleft : ∀ other ∈ coins.owned, other ≠ coin → isResult other = false)
    (htxn : txn.calls = prepared ++ [fundCall system.packageId sharedBlobObject coin]) :
    ∃ after, coins.consume coin = some after ∧ treasury.execute system txn newId =
      (treasury.vault.fund sharedBlobObject amount).map (⟨after, ·⟩) := by
  obtain ⟨after, hconsume⟩ := CoinLedger.consume_of_holds hcoin
  refine ⟨after, hconsume, execute_of_calls ?_ ?_⟩
  · rw [htxn, calls_append, hprepared]
    simp only [Option.bind_some, Treasury.calls]
    rw [call_fundCall, hconsume, hcoin.2]
    cases treasury.vault.fund sharedBlobObject amount with
    | none => rfl
    | some vault => rfl
  · intro last hlast
    obtain ⟨vault, -, rfl⟩ := Option.map_eq_some_iff.mp hlast
    intro other hother
    obtain ⟨hne, hmem⟩ := CoinLedger.mem_of_consume hconsume hother
    exact hleft other hmem hne

/-- **A coin of the amount is paid in**: whatever made it, the books only see
the amount go to the pool. -/
theorem books_settle_fund
    (hprepared : Treasury.calls system newId 0 prepared treasury = some { treasury with coins })
    (htotal : coins.total = treasury.coins.total) (hcoin : coins.Holds coin amount)
    (hleft : ∀ other ∈ coins.owned, other ≠ coin → isResult other = false)
    (htxn : txn.calls = prepared ++ [fundCall system.packageId sharedBlobObject coin]) :
    (treasury.settle system txn newId).books =
      treasury.books.serve system (.fund sharedBlobObject amount) := by
  obtain ⟨after, hconsume, hexecute⟩ := execute_fund hprepared hcoin hleft htxn
  have hafter : after.total = treasury.coins.total - amount := by
    have := CoinLedger.total_consume hconsume
    rw [hcoin.2] at this
    omega
  have hcovers : amount ≤ treasury.coins.total := htotal ▸ CoinLedger.le_total_of_holds hcoin
  have happly : Request.apply system treasury.books (.fund sharedBlobObject amount) =
      (treasury.vault.fund sharedBlobObject amount).map (⟨after.total, ·⟩) := by
    rw [hafter]
    exact if_pos hcovers
  rw [Treasury.settle, hexecute, Books.serve, happly]
  cases treasury.vault.fund sharedBlobObject amount with
  | none => rfl
  | some vault => rfl

theorem execute_extendBlob
    (hprepared : Treasury.calls system newId 0 prepared treasury = some { treasury with coins })
    (hleft : ∀ other ∈ coins.owned, isResult other = false)
    (htxn : txn.calls = prepared ++
      [extendBlobCall system.packageId system.systemObject blobObject epochs coin]) :
    treasury.execute system txn newId =
      (treasury.vault.extendBlob system blobObject epochs).bind fun done =>
        (coins.spend coin done.2).map (⟨·, done.1⟩) := by
  refine execute_of_calls ?_ ?_
  · rw [htxn, calls_append, hprepared]
    simp only [Option.bind_some, Treasury.calls]
    rw [call_extendBlobCall]
    cases treasury.vault.extendBlob system blobObject epochs with
    | none => rfl
    | some done =>
      simp only [Option.bind_some]
      cases coins.spend coin done.2 with
      | none => rfl
      | some after => rfl
  · intro last hlast
    obtain ⟨done, -, hspent⟩ := Option.bind_eq_some_iff.mp hlast
    obtain ⟨after, hspend, rfl⟩ := Option.map_eq_some_iff.mp hspent
    intro other hother
    exact hleft other (CoinLedger.owned_spend hspend ▸ hother)

/-- **A Blob is extended**: whatever was merged for it, the books only see what
it costs go, if the coin has it. -/
theorem books_settle_extendBlob {available : Nat}
    (hprepared : Treasury.calls system newId 0 prepared treasury = some { treasury with coins })
    (htotal : coins.total = treasury.coins.total) (hcoin : coins.Holds coin available)
    (hleft : ∀ other ∈ coins.owned, isResult other = false)
    (htxn : txn.calls = prepared ++
      [extendBlobCall system.packageId system.systemObject blobObject epochs coin]) :
    (treasury.settle system txn newId).books =
      treasury.books.serve system (.extendBlob blobObject epochs available) := by
  have hpurse : available ≤ treasury.coins.total := htotal ▸ CoinLedger.le_total_of_holds hcoin
  rw [Treasury.settle, execute_extendBlob hprepared hleft htxn]
  unfold Books.serve Request.apply
  show _ = ((treasury.vault.extendBlob system blobObject epochs).bind _).getD _
  cases treasury.vault.extendBlob system blobObject epochs with
  | none => rfl
  | some done =>
    simp only [Option.bind_some]
    by_cases hcost : done.2 ≤ available
    · obtain ⟨after, hspend, -⟩ := CoinLedger.spend_of_holds hcoin hcost
      have htotal' := CoinLedger.total_spend hspend
      rw [hspend, if_pos ⟨hcost, hcost.trans hpurse⟩]
      show Books.mk after.total done.1 = ⟨treasury.coins.total - done.2, done.1⟩
      congr 1
      omega
    · have hnone : coins.spend coin done.2 = none :=
        if_neg fun hboth => hcost (hcoin.2 ▸ hboth.2)
      rw [hnone, if_neg fun hboth => hcost hboth.1]
      rfl

end Prepared

end Serving

end Pytusk.SharedBlobs
