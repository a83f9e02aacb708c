import Pytusk.NativeRead.Permits
import Pytusk.NativeRead.Recovery

/-!
# Faulty nodes, and what a read survives

Nodes answer as they like and a verified read still returns the blob: always
when only one of them is faulty and every node answers, and with more as far as
all of them are blamed in the first round. One that stays silent can deny a read
if it holds so many shards that its requests take all permits. The retry is a
threshold search of its own.
-/

namespace Pytusk.NativeRead

open Pytusk.Lib Pytusk.CommitteeFanout

/-- The event is a fan-out. -/
def Event.isFanOut : Event → Bool
  | .fanOut _ _ => true
  | .decode _ => false

namespace Read

variable {r : Read} {blob : Bytes} {answers : Nat → (r.fetch []).Answers}
variable {orders : Nat → List r.Node} {rounds : Nat → Except ReadExn (List Attributed)}

def nodeId (r : Read) (i : r.Node) : String := (r.committee.members.get i).nodeId

/-- What a node serves in a fan-out, whomever that excludes. -/
def serves (r : Read) (answers : Nat → (r.fetch []).Answers) (round : Nat) (i : r.Node) :
    List Bytes :=
  (r.fetch []).slivers (answers round) i

/-- The distinct slivers that some nodes serve in a fan-out. -/
def available (r : Read) (answers : Nat → (r.fetch []).Answers) (round : Nat)
    (nodes : List r.Node) : Finset Bytes :=
  (r.fetch []).contents (answers round) nodes

/-- The nodes a fan-out asks. -/
def asked (r : Read) (excludeNodeIds : List String) : List r.Node :=
  (r.fetch excludeNodeIds).tasks

theorem mem_available {round : Nat} {nodes : List r.Node} {sliver : Bytes} :
    sliver ∈ r.available answers round nodes ↔
      ∃ i ∈ nodes, sliver ∈ r.serves answers round i :=
  Fetch.mem_contents

theorem mem_asked_of_serves {round : Nat} {i : r.Node} {sliver : Bytes}
    {excludeNodeIds : List String} (h : sliver ∈ r.serves answers round i)
    (hallowed : r.nodeId i ∉ excludeNodeIds) : i ∈ r.asked excludeNodeIds :=
  Fetch.mem_tasks_of_serves (f := r.fetch excludeNodeIds) h hallowed

theorem nodeId_notMem_of_mem_asked {i : r.Node} {excludeNodeIds : List String}
    (h : i ∈ r.asked excludeNodeIds) : r.nodeId i ∉ excludeNodeIds := by
  unfold asked Fetch.tasks at h
  exact (of_decide_eq_true (List.mem_filter.mp h).2).2

/-! ## The slivers of the two fan-outs -/

/-- The first fan-out is always there. -/
theorem first_mem_log (r : Read) (rounds : Nat → Except ReadExn (List Attributed)) :
    .fanOut 0 [] ∈ (r.reconstructBlob rounds).log := by
  unfold reconstructBlob
  rw [Logged.emit_bind]
  exact List.mem_append_left _ (List.mem_singleton.mpr rfl)

theorem Reconstructs.first (h : r.Reconstructs answers orders rounds) :
    (r.fetch []).Ends (answers 0) (orders 0) (rounds 0) :=
  h 0 [] (r.first_mem_log rounds)

/-- What a fan-out returned: distinct slivers, enough of them, from nodes it asked. -/
private theorem Fetch.Ends.returned {excludeNodeIds : List String} {round : Nat}
    {order : List r.Node} {attributed : List Attributed}
    (h : (r.fetch excludeNodeIds).Ends (answers round) order (.ok attributed)) :
    (FirstWins.keys attributed).Nodup ∧ r.threshold ≤ attributed.length ∧
      ∀ sliver node, (sliver, node) ∈ attributed →
        ∃ i ∈ order, i ∈ r.asked excludeNodeIds ∧ sliver ∈ r.serves answers round i ∧
          r.nodeId i = node := by
  obtain ⟨rfl, henough⟩ := h.ok
  refine ⟨Fetch.nodup_collected (f := r.fetch excludeNodeIds) order, ?_, ?_⟩
  · rw [Fetch.length_collected]
    exact henough
  · intro sliver node hmem
    obtain ⟨before, i, after, rfl, hserves, -, hnode⟩ := Fetch.mem_collected.mp hmem
    have hi : i ∈ before ++ i :: after := by simp
    exact ⟨i, hi, h.complete.1.asked i hi, hserves, hnode⟩

private theorem nodup_keys_verified {attributed : List Attributed}
    (h : (FirstWins.keys attributed).Nodup) :
    (FirstWins.keys (r.verified attributed)).Nodup :=
  h.sublist (List.filter_sublist.map _)

private theorem verifies_of_mem_verified {attributed : List Attributed} {item : Attributed}
    (h : item ∈ r.verified attributed) : r.codec.verifies item.1 = true := by
  simpa using (List.mem_filter.mp h).2

private theorem verifies_of_indicted_eq_nil {attributed : List Attributed}
    (h : r.indicted attributed = []) : ∀ item ∈ attributed, r.codec.verifies item.1 = true := by
  intro item hitem
  by_contra hbad
  have hblamed : item.2 ∈ r.indicted attributed :=
    mem_indicted.mpr ⟨item.1, hitem, by simpa using hbad⟩
  rw [h] at hblamed
  cases hblamed

/-- Enough distinct slivers that verify decode to the blob. -/
private theorem decoded_of_verifies (ideal : r.codec.Ideal blob r.threshold)
    (hverify : r.verify = true) {attributed : List Attributed}
    (hnodup : (FirstWins.keys attributed).Nodup)
    (hgood : ∀ item ∈ attributed, r.codec.verifies item.1 = true)
    (henough : r.threshold ≤ attributed.length) :
    r.decoded attributed = .ok (blob, attributed.length) := by
  have hdecodes := ideal.decodes (FirstWins.keys attributed) hnodup
    (fun sliver hsliver => by
      obtain ⟨item, hitem, rfl⟩ := List.mem_map.mp hsliver
      exact hgood item hitem)
    (by simpa [FirstWins.keys] using henough)
  unfold decoded
  rw [hverify, hdecodes]
  rfl

private theorem decoded_eq_error {attributed : List Attributed} {e : ReadExn} :
    r.decoded attributed = .error e ↔
      r.codec.decodeBlob (FirstWins.keys attributed) r.verify = .error e := by
  unfold decoded
  cases r.codec.decodeBlob (FirstWins.keys attributed) r.verify with
  | error e' => simp [Except.map]
  | ok content => simp [Except.map]

/-- When a read returns the blob: there is enough to fetch, and whoever is asked
again serves what verifies, and enough of it. -/
theorem Reconstructs.returns (h : r.Reconstructs answers orders rounds)
    (ideal : r.codec.Ideal blob r.threshold) (hverify : r.verify = true)
    (henough : r.threshold ≤ (r.available answers 0 (r.asked [])).card)
    (hagain : ∀ excludeNodeIds, .fanOut 1 excludeNodeIds ∈ (r.reconstructBlob rounds).log →
      r.threshold ≤ (r.available answers 1 (r.asked excludeNodeIds)).card ∧
        ∀ i ∈ r.asked excludeNodeIds, ∀ sliver ∈ r.serves answers 1 i,
          r.codec.verifies sliver = true) :
    ∃ n, (r.reconstructBlob rounds).result = .ok (blob, n) := by
  obtain ⟨first, hfirst⟩ := h.first.isOk henough
  obtain ⟨hnodup, hlength, -⟩ := Fetch.Ends.returned (hfirst ▸ h.first)
  obtain ⟨call, hcall⟩ : ∃ call, call = r.reconstructBlob rounds := ⟨_, rfl⟩
  have hcourse : Course r rounds call := hcall ▸ reconstructBlob_course ideal hverify rounds
  have hround : ∀ {k ex}, .fanOut k ex ∈ call.log →
      (r.fetch ex).Ends (answers k) (orders k) (rounds k) := fun {k ex} hmem =>
    h k ex (hcall ▸ hmem)
  rw [← hcall] at hagain ⊢
  clear hcall
  cases hcourse with
  | unserved hunserved => exact nomatch hunserved.symm.trans hfirst
  | @decodes first' result hfirst' hdecoded =>
    rcases decoded_cases ideal hverify first' with hok | ⟨message, herr⟩
    · exact ⟨_, congrArg _ (Except.ok.inj (hdecoded.symm.trans hok))⟩
    · exact nomatch hdecoded.symm.trans herr
  | @blameless first' message hfirst' hdecoded hnone =>
    obtain rfl : first' = first := Except.ok.inj (hfirst'.symm.trans hfirst)
    have hgood := verifies_of_indicted_eq_nil hnone
    exact nomatch hdecoded.symm.trans (decoded_of_verifies ideal hverify hnodup hgood hlength)
  | @survives first' message hfirst' hdecoded hsome hkept =>
    obtain rfl : first' = first := Except.ok.inj (hfirst'.symm.trans hfirst)
    exact ⟨_, decoded_of_verifies ideal hverify (nodup_keys_verified hnodup)
      (fun item hitem => verifies_of_mem_verified hitem) hkept⟩
  | @unservedAgain first' message e hfirst' hdecoded hsome hless herror =>
    have hmem : Event.fanOut 1 (r.indicted first') ∈ [.fanOut 0 [],
      .decode (FirstWins.keys first'), .fanOut 1 (r.indicted first')] := by simp
    obtain ⟨second, hsecond⟩ := (hround hmem).isOk (hagain _ hmem).1
    exact nomatch herror.symm.trans hsecond
  | @servedAgain first' message second hfirst' hdecoded hsome hless hsecond =>
    obtain rfl : first' = first := Except.ok.inj (hfirst'.symm.trans hfirst)
    have hmem : Event.fanOut 1 (r.indicted first') ∈ [.fanOut 0 [],
      .decode (FirstWins.keys first'), .fanOut 1 (r.indicted first'),
      .decode (FirstWins.keys (mergeDistinct (r.verified first') second))] := by simp
    obtain ⟨hnodup₂, hlength₂, hserved₂⟩ := Fetch.Ends.returned (hsecond ▸ hround hmem)
    have hmerged : (FirstWins.keys (mergeDistinct (r.verified first') second)).Nodup :=
      FirstWins.nodup_addAll (nodup_keys_verified hnodup) second
    refine ⟨_, decoded_of_verifies ideal hverify hmerged ?_ ?_⟩
    · intro item hitem
      rcases FirstWins.mem_of_mem_addAll hitem with hkept | hnew
      · exact verifies_of_mem_verified hkept
      · obtain ⟨i, -, hasked, hserves, -⟩ := hserved₂ item.1 item.2 hnew
        exact (hagain _ hmem).2 i hasked item.1 hserves
    · -- every sliver of the second round is in the merged list
      refine hlength₂.trans ?_
      have hsub : (FirstWins.keys second).toFinset ⊆
          (FirstWins.keys (mergeDistinct (r.verified first') second)).toFinset := by
        intro sliver hsliver
        rw [List.mem_toFinset] at hsliver ⊢
        exact FirstWins.mem_keys_addAll.mpr (.inr hsliver)
      have hcard := Finset.card_le_card hsub
      rwa [← FirstWins.length_eq_card hnodup₂, ← FirstWins.length_eq_card hmerged] at hcard

/-! ## Who is blamed -/

/-- The node of that id was the first to serve some sliver that does not verify,
among those folded in the first fan-out. -/
def FirstWithBad (r : Read) (answers : Nat → (r.fetch []).Answers) (order : List r.Node)
    (node : String) : Prop :=
  ∃ before i after sliver, order = before ++ i :: after ∧ r.nodeId i = node ∧
    sliver ∈ r.serves answers 0 i ∧ r.codec.verifies sliver = false ∧
    ∀ j ∈ before, sliver ∉ r.serves answers 0 j

/-- Whom the second fan-out excludes. -/
theorem mem_excluded_iff (ideal : r.codec.Ideal blob r.threshold)
    (hfirst : (r.fetch []).Ends (answers 0) (orders 0) (rounds 0))
    {excludeNodeIds : List String}
    (hretry : .fanOut 1 excludeNodeIds ∈ (r.reconstructBlob rounds).log) {node : String} :
    node ∈ excludeNodeIds ↔ r.FirstWithBad answers (orders 0) node := by
  obtain ⟨first, kept, hreturned, hpartition, -, -, -⟩ := reconstructBlob_retry hretry
  rw [hreturned] at hfirst
  rw [partitionByVerification_eq ideal] at hpartition
  obtain ⟨rfl, -⟩ := hfirst.ok
  obtain ⟨-, rfl⟩ := Prod.mk.inj (Except.ok.inj hpartition)
  rw [mem_indicted]
  constructor
  · rintro ⟨sliver, hmem, hbad⟩
    obtain ⟨before, i, after, horder, hserves, hfresh, hnode⟩ := Fetch.mem_collected.mp hmem
    exact ⟨before, i, after, sliver, horder, hnode, hserves, hbad, hfresh⟩
  · rintro ⟨before, i, after, sliver, horder, hnode, hserves, hbad, hfresh⟩
    exact ⟨sliver, Fetch.mem_collected.mpr ⟨before, i, after, horder, hserves, hfresh, hnode⟩,
      hbad⟩

/-! ## One faulty node -/

/-- Every node but those of one id serves slivers that verify, and these nodes
together serve enough. -/
structure OneFaulty (r : Read) (answers : Nat → (r.fetch []).Answers) (faulty : String) :
    Prop where
  honest : ∀ round i, r.nodeId i ≠ faulty →
    ∀ sliver ∈ r.serves answers round i, r.codec.verifies sliver = true
  enough : ∀ round, r.threshold ≤ (r.available answers round
    ((List.finRange r.committee.members.length).filter fun i => r.nodeId i ≠ faulty)).card

/-- Only the faulty node is ever excluded. -/
private theorem OneFaulty.excluded {faulty : String} (hone : r.OneFaulty answers faulty)
    (ideal : r.codec.Ideal blob r.threshold)
    (hfirst : (r.fetch []).Ends (answers 0) (orders 0) (rounds 0))
    {excludeNodeIds : List String}
    (hretry : .fanOut 1 excludeNodeIds ∈ (r.reconstructBlob rounds).log) :
    ∀ node ∈ excludeNodeIds, node = faulty := by
  intro node hnode
  obtain ⟨-, i, -, sliver, -, rfl, hserves, hbad, -⟩ :=
    (mem_excluded_iff ideal hfirst hretry).mp hnode
  by_contra hother
  rw [hone.honest 0 i hother sliver hserves] at hbad
  cases hbad

/-- The others are asked, whatever is excluded. -/
private theorem OneFaulty.enough_asked {faulty : String} (hone : r.OneFaulty answers faulty)
    (round : Nat) {excludeNodeIds : List String} (h : ∀ node ∈ excludeNodeIds, node = faulty) :
    r.threshold ≤ (r.available answers round
      ((r.asked excludeNodeIds).filter fun i => r.nodeId i ≠ faulty)).card := by
  refine (hone.enough round).trans (Finset.card_le_card fun sliver hsliver => ?_)
  obtain ⟨i, hi, hserves⟩ := mem_available.mp hsliver
  have hother : r.nodeId i ≠ faulty := by simpa using (List.mem_filter.mp hi).2
  have hasked : i ∈ r.asked excludeNodeIds :=
    mem_asked_of_serves hserves fun hex => hother (h _ hex)
  exact mem_available.mpr ⟨i, List.mem_filter.mpr ⟨hasked, by simpa using hother⟩, hserves⟩

private theorem available_filter_card_le (round : Nat) (nodes : List r.Node)
    (p : r.Node → Bool) :
    (r.available answers round (nodes.filter p)).card ≤ (r.available answers round nodes).card :=
  Finset.card_le_card (Fetch.contents_mono fun _ hi => (List.mem_filter.mp hi).1)

/-- A read with one faulty node returns the blob. -/
theorem OneFaulty.returns {faulty : String} (hone : r.OneFaulty answers faulty)
    (ideal : r.codec.Ideal blob r.threshold) (hverify : r.verify = true)
    (h : r.Reconstructs answers orders rounds) :
    ∃ n, (r.reconstructBlob rounds).result = .ok (blob, n) := by
  apply h.returns ideal hverify
  · exact (hone.enough_asked 0 (by simp)).trans
      (available_filter_card_le 0 _ _)
  · intro excludeNodeIds hretry
    have hexcluded := hone.excluded ideal h.first hretry
    constructor
    · exact (hone.enough_asked 1 hexcluded).trans (available_filter_card_le 1 _ _)
    · -- the faulty node is among the excluded: somebody is, and nobody else can be
      intro i hi sliver hserves
      apply hone.honest 1 i ?_ sliver hserves
      rintro rfl
      obtain ⟨-, -, -, -, hsome, -, -⟩ := reconstructBlob_retry hretry
      obtain ⟨node, hnode⟩ := List.exists_mem_of_ne_nil _ hsome
      exact nodeId_notMem_of_mem_asked hi (hexcluded node hnode ▸ hnode)

/-- Whatever the nodes answer: two fan-outs at most, distinct slivers for every
decode, and nothing but the blob. -/
theorem Reconstructs.safe (h : r.Reconstructs answers orders rounds)
    (ideal : r.codec.Ideal blob r.threshold) (hverify : r.verify = true) :
    ((r.reconstructBlob rounds).log.filter Event.isFanOut).length ≤ 2 ∧
      (∀ slivers, .decode slivers ∈ (r.reconstructBlob rounds).log → slivers.Nodup) ∧
      ∀ content n, (r.reconstructBlob rounds).result = .ok (content, n) → content = blob := by
  have hcontent : ∀ attributed content n, r.decoded attributed = .ok (content, n) →
      content = blob := by
    intro attributed content n hdecoded
    rcases decoded_cases ideal hverify attributed with hok | ⟨message, herr⟩
    · exact congrArg Prod.fst (Except.ok.inj (hdecoded.symm.trans hok))
    · exact nomatch hdecoded.symm.trans herr
  have hdistinct : ∀ first, rounds 0 = .ok first → (FirstWins.keys first).Nodup :=
    fun first hfirst => (Fetch.Ends.returned (hfirst ▸ h.first)).1
  obtain ⟨call, hcall⟩ : ∃ call, call = r.reconstructBlob rounds := ⟨_, rfl⟩
  have hcourse : Course r rounds call := hcall ▸ reconstructBlob_course ideal hverify rounds
  rw [← hcall]
  clear hcall
  cases hcourse with
  | unserved hunserved => simp [List.filter_cons, Event.isFanOut]
  | decodes hfirst hdecoded =>
    refine ⟨by simp [List.filter_cons, Event.isFanOut], ?_, ?_⟩
    · simpa using hdistinct _ hfirst
    · rintro content n ⟨rfl⟩
      exact hcontent _ _ _ hdecoded
  | blameless hfirst hdecoded hnone =>
    refine ⟨by simp [List.filter_cons, Event.isFanOut], ?_, by simp⟩
    simpa using hdistinct _ hfirst
  | survives hfirst hdecoded hsome hkept =>
    refine ⟨by simp [List.filter_cons, Event.isFanOut], ?_, hcontent _⟩
    simpa using ⟨hdistinct _ hfirst, nodup_keys_verified (hdistinct _ hfirst)⟩
  | unservedAgain hfirst hdecoded hsome hless herror =>
    refine ⟨by simp [List.filter_cons, Event.isFanOut], ?_, by simp⟩
    simpa using hdistinct _ hfirst
  | servedAgain hfirst hdecoded hsome hless hsecond =>
    refine ⟨by simp [List.filter_cons, Event.isFanOut], ?_, hcontent _⟩
    simpa using ⟨hdistinct _ hfirst,
      FirstWins.nodup_addAll (nodup_keys_verified (hdistinct _ hfirst)) _⟩

/-- What a fan-out of the call ends in. -/
private theorem Reconstructs.fanOut (h : r.Reconstructs answers orders rounds)
    {call : Logged Event ReadExn (Bytes × Nat)} (hcall : r.reconstructBlob rounds = call)
    {round : Nat} {excluded : List String} (hmem : .fanOut round excluded ∈ call.log) :
    (r.fetch excluded).Ends (answers round) (orders round) (rounds round) :=
  h round excluded (hcall ▸ hmem)

/-- The two errors of a reconstruction. -/
def Expected (exc : ReadExn) : Prop :=
  (∃ message, exc = .sliverFetchError message "fetch_slivers") ∨
    ∃ message, exc = .blobDecodeError message

/-- The decoder is given a full threshold of slivers, and its own failure or a
fan-out's is what a verified read raises. -/
theorem Reconstructs.ends (h : r.Reconstructs answers orders rounds)
    (ideal : r.codec.Ideal blob r.threshold) (hverify : r.verify = true) :
    Logged.EndsIn Expected (fun content => r.threshold ≤ content.2)
      (r.reconstructBlob rounds).result := by
  have hunserved {k excluded e} (hends : (r.fetch excluded).Ends (answers k) (orders k) (rounds k))
      (herror : rounds k = .error e) : Expected e :=
    .inl (herror ▸ hends).error.1
  have hserved {k excluded attributed}
      (hends : (r.fetch excluded).Ends (answers k) (orders k) (rounds k))
      (hok : rounds k = .ok attributed) :
      (FirstWins.keys attributed).Nodup ∧ r.threshold ≤ attributed.length := by
    obtain ⟨rfl, henough⟩ := (hok ▸ hends).ok
    exact ⟨Fetch.nodup_collected _, henough.trans_eq (Fetch.length_collected _).symm⟩
  have hdecoded {attributed} (henough : r.threshold ≤ List.length attributed) :
      Logged.EndsIn Expected (fun content => r.threshold ≤ content.2) (r.decoded attributed) := by
    rcases decoded_cases ideal hverify attributed with hok | ⟨message, herr⟩
    · rw [hok]
      exact henough
    · rw [herr]
      exact .inr ⟨message, rfl⟩
  obtain ⟨call, hcall⟩ : ∃ call, r.reconstructBlob rounds = call := ⟨_, rfl⟩
  have hcourse : Course r rounds call := hcall ▸ reconstructBlob_course ideal hverify rounds
  have hround {k excluded} (hmem : .fanOut k excluded ∈ call.log) := h.fanOut hcall hmem
  rw [hcall]
  clear hcall
  cases hcourse with
  | unserved hfirst => exact hunserved h.first hfirst
  | decodes hfirst hresult => exact hresult ▸ hdecoded (hserved h.first hfirst).2
  | blameless hfirst hresult hnone => exact .inr ⟨_, rfl⟩
  | survives hfirst hresult hsome henough => exact hdecoded henough
  | @unservedAgain first message e hfirst hresult hsome hless hagain =>
    exact hunserved (@hround 1 (r.indicted first) (by simp)) hagain
  | @servedAgain first message second hfirst hresult hsome hless hagain =>
    have hkept : (FirstWins.keys (r.verified first)).Nodup :=
      (hserved h.first hfirst).1.sublist (List.filter_sublist.map _)
    obtain ⟨hnodup, henough⟩ := hserved (@hround 1 (r.indicted first) (by simp)) hagain
    exact hdecoded (henough.trans (FirstWins.length_le_addAll hkept hnodup))

/-- A fan-out of a call is the first one, or the second. -/
private theorem fanOut_mem_log (ideal : r.codec.Ideal blob r.threshold)
    (hverify : r.verify = true) {round : Nat} {excludeNodeIds : List String}
    (h : .fanOut round excludeNodeIds ∈ (r.reconstructBlob rounds).log) :
    round = 0 ∧ excludeNodeIds = [] ∨ round = 1 := by
  obtain ⟨call, hcall⟩ : ∃ call, call = r.reconstructBlob rounds := ⟨_, rfl⟩
  have hcourse : Course r rounds call := hcall ▸ reconstructBlob_course ideal hverify rounds
  rw [← hcall] at h
  clear hcall
  cases hcourse <;> simp at h <;> tauto

/-! ### A node that does not answer -/

/-- The nodes that a silent one cannot shut out: fewer requests to it stand before
theirs than there are permits. -/
def unblocked (r : Read) (faulty : String) : List r.Node :=
  (r.asked []).filter fun i => r.nodeId i ≠ faulty ∧
    ((r.fetch []).before i).countP (fun request => r.nodeId request.1 = faulty) <
      defaultMaxConcurrentRequests

/-- Whichever requests the faulty node never answers, a fan-out that the call comes
to can return, from wherever it is. -/
def NeverDenied (r : Read) (maxNodeConnections : Nat) (answers : Nat → (r.fetch []).Answers)
    (faulty : String) : Prop :=
  ∀ silent : r.Node → Nat → Bool, (∀ i place, silent i place = true → r.nodeId i = faulty) →
    ∀ (orders : Nat → List r.Node) (rounds : Nat → Except ReadExn (List Attributed))
      (round : Nat) (excludeNodeIds : List String),
      .fanOut round excludeNodeIds ∈ (r.reconstructBlob rounds).log →
      (∀ earlier < round, ∀ excluded,
        .fanOut earlier excluded ∈ (r.reconstructBlob rounds).log →
        (r.fetch excluded).Ends (answers earlier) (orders earlier) (rounds earlier)) →
      ∀ acts s, (r.fetch excludeNodeIds).PermittedRuns (readLimits maxNodeConnections) silent
        (answers round) acts s →
        (r.fetch excludeNodeIds).CanReturn (readLimits maxNodeConnections) silent
          (answers round) s

/-- The nodes that pass beside a silent one are those that it cannot shut out. -/
private theorem mem_unblocked_of_passing {maxNodeConnections : Nat} {faulty : String}
    {sliver : Bytes} (h : sliver ∈ r.available answers 0
      ((r.fetch []).passing (readLimits maxNodeConnections) fun i _ => r.nodeId i = faulty)) :
    0 < maxNodeConnections ∧ sliver ∈ r.available answers 0 (r.unblocked faulty) := by
  obtain ⟨i, hi, hserves⟩ := mem_available.mp h
  obtain ⟨hasked, hpasses⟩ := Fetch.mem_passing.mp hi
  obtain ⟨hconnections, hquick, hfew⟩ := Fetch.few_of_nodePasses (fun j => r.nodeId j = faulty)
    hasked (fun _ _ hslow => hslow) (Fetch.places_ne_nil hserves) hpasses
  refine ⟨hconnections, mem_available.mpr ⟨i, List.mem_filter.mpr ⟨hasked, ?_⟩, hserves⟩⟩
  exact decide_eq_true ⟨of_decide_eq_false hquick, hfew⟩

/-- Beside one that may be silent, the nodes pass that it cannot shut out. -/
private theorem passing_of_unblocked {maxNodeConnections : Nat} {faulty : String}
    {silent : r.Node → Nat → Bool} (hconnections : 0 < maxNodeConnections)
    (hsilent : ∀ i place, silent i place = true → r.nodeId i = faulty) {i : r.Node}
    (hi : i ∈ r.unblocked faulty) :
    i ∈ (r.fetch []).passing (readLimits maxNodeConnections) silent := by
  obtain ⟨hasked, hopen⟩ := List.mem_filter.mp hi
  obtain ⟨hother, hfew⟩ := of_decide_eq_true hopen
  refine Fetch.mem_passing.mpr ⟨hasked, ?_⟩
  exact Fetch.nodePasses_of_few (fun j => r.nodeId j = faulty) hasked
    (fun j place hj => decide_eq_true (hsilent j place hj)) (decide_eq_false hother)
    hconnections hfew

/-- Where the silent one is excluded, all pass. -/
private theorem passing_of_excluded {maxNodeConnections : Nat} {faulty : String}
    {silent : r.Node → Nat → Bool} (hconnections : 0 < maxNodeConnections)
    (hsilent : ∀ i place, silent i place = true → r.nodeId i = faulty)
    {excludeNodeIds : List String} (hexcluded : faulty ∈ excludeNodeIds) {i : r.Node}
    (hi : i ∈ r.asked excludeNodeIds) :
    i ∈ (r.fetch excludeNodeIds).passing (readLimits maxNodeConnections) silent := by
  have hother : ∀ j ∈ r.asked excludeNodeIds, decide (r.nodeId j = faulty) = false := by
    rintro j hj
    refine decide_eq_false ?_
    rintro rfl
    exact nodeId_notMem_of_mem_asked hj hexcluded
  refine Fetch.mem_passing.mpr ⟨hi, ?_⟩
  refine Fetch.nodePasses_of_few (fun j => r.nodeId j = faulty) hi
    (fun j place hj => decide_eq_true (hsilent j place hj)) (hother i hi) hconnections ?_
  have hnone : ((r.fetch excludeNodeIds).before i).countP
      (fun request => decide (r.nodeId request.1 = faulty)) = 0 := by
    rw [List.countP_eq_zero]
    intro request hrequest
    obtain ⟨j, hj, hmem⟩ := List.mem_flatMap.mp hrequest
    rw [Fetch.mem_nodeRequests hmem, hother j ((List.takeWhile_sublist _).subset hj)]
    exact Bool.false_ne_true
  rw [hnone]
  exact Nat.succ_pos 511

/-- When one silent node cannot deny a read. -/
private theorem OneFaulty.neverDenied_iff {faulty : String} (hone : r.OneFaulty answers faulty)
    (ideal : r.codec.Ideal blob r.threshold) (hverify : r.verify = true) (hpos : 0 < r.threshold)
    (maxNodeConnections : Nat) :
    r.NeverDenied maxNodeConnections answers faulty ↔
      0 < maxNodeConnections ∧
        r.threshold ≤ (r.available answers 0 (r.unblocked faulty)).card := by
  constructor
  · -- let the faulty node answer nothing
    intro hnever
    obtain ⟨acts, s, hrun, hexit, -⟩ := hnever (fun i _ => r.nodeId i = faulty)
      (fun i _ hi => of_decide_eq_true hi) (fun _ => [])
      (fun _ => .error (.sliverFetchError "" "")) 0 [] (r.first_mem_log _)
      (fun earlier hearlier => absurd hearlier (Nat.not_lt_zero _)) [] _ rfl
    have henough : r.threshold ≤ (r.available answers 0 ((r.fetch []).passing
        (readLimits maxNodeConnections) fun i _ => r.nodeId i = faulty)).card := by
      rcases Fetch.PermittedRuns.enough hrun hexit with hall | henough
      · have hnobody : ∀ node ∈ ([] : List String), node = faulty := by simp
        refine ((hone.enough_asked 0 hnobody).trans (available_filter_card_le 0 _ _)).trans ?_
        exact Finset.card_le_card (Fetch.contents_mono fun i hi =>
          Fetch.mem_passing.mpr ⟨hi, hall i hi⟩)
      · exact henough
    obtain ⟨sliver, hsliver⟩ := Finset.card_pos.mp (hpos.trans_le henough)
    exact ⟨(mem_unblocked_of_passing hsliver).1, henough.trans
      (Finset.card_le_card fun sliver hsliver => (mem_unblocked_of_passing hsliver).2)⟩
  · rintro ⟨hconnections, henough⟩ silent hsilent orders rounds round excludeNodeIds hmem hearlier
      acts s hrun
    apply hrun.canReturn hpos
    rcases fanOut_mem_log ideal hverify hmem with ⟨rfl, rfl⟩ | rfl
    · refine henough.trans (Finset.card_le_card (Fetch.contents_mono fun i hi => ?_))
      exact passing_of_unblocked hconnections hsilent hi
    · have hexcluded := hone.excluded ideal (hearlier 0 one_pos [] (r.first_mem_log rounds)) hmem
      obtain ⟨-, -, -, -, hsome, -, -⟩ := reconstructBlob_retry hmem
      obtain ⟨node, hnode⟩ := List.exists_mem_of_ne_nil _ hsome
      refine ((hone.enough_asked 1 hexcluded).trans (available_filter_card_le 1 _ _)).trans ?_
      refine Finset.card_le_card (Fetch.contents_mono fun i hi => ?_)
      exact passing_of_excluded hconnections hsilent (hexcluded node hnode ▸ hnode) hi

/-- **One faulty node**, and any number of them. Whatever all nodes answer and in
which order, a call makes two fan-outs at most, gives every decode distinct
slivers and returns nothing but the blob; if only one node is faulty and all
answer, it does return it. If that node leaves requests unanswered, each fan-out can still
return, exactly if the nodes that it cannot shut out serve enough. -/
theorem reconstructBlob_oneFaulty (ideal : r.codec.Ideal blob r.threshold)
    (hverify : r.verify = true) (answers : Nat → (r.fetch []).Answers)
    (maxNodeConnections : Nat) :
    (∀ orders rounds, r.Reconstructs answers orders rounds →
      ((r.reconstructBlob rounds).log.filter Event.isFanOut).length ≤ 2 ∧
      (∀ slivers, .decode slivers ∈ (r.reconstructBlob rounds).log → slivers.Nodup) ∧
      ∀ content n, (r.reconstructBlob rounds).result = .ok (content, n) → content = blob) ∧
    ∀ faulty, r.OneFaulty answers faulty →
      (∀ orders rounds, r.Reconstructs answers orders rounds →
        ∃ n, (r.reconstructBlob rounds).result = .ok (blob, n)) ∧
      (0 < r.threshold →
        (r.NeverDenied maxNodeConnections answers faulty ↔
          0 < maxNodeConnections ∧
            r.threshold ≤ (r.available answers 0 (r.unblocked faulty)).card)) :=
  ⟨fun _ _ h => h.safe ideal hverify, fun _ hone =>
    ⟨fun _ _ h => hone.returns ideal hverify h, fun hpos =>
      hone.neverDenied_iff ideal hverify hpos maxNodeConnections⟩⟩

/-! A committee of four nodes with a shard each, and a codec for which the
slivers of the blob are four given ones. -/

private def smallSlivers : List Bytes := [[0], [1], [2], [3]]

private def smallCodec (threshold : Nat) : Codec where
  decodeBlob slivers _ :=
    if (∀ s ∈ slivers, s ∈ smallSlivers) ∧ threshold ≤ slivers.length then .ok [7]
    else .error (.blobDecodeError "unusable slivers")
  verifySliver sliver :=
    if sliver ∈ smallSlivers then .ok ()
    else .error (.sliverVerificationError "unusable sliver")

private theorem smallCodec_ideal (threshold : Nat) :
    (smallCodec threshold).Ideal [7] threshold where
  verdict sliver := by
    unfold smallCodec
    dsimp only
    split
    · exact .inl rfl
    · exact .inr ⟨_, rfl⟩
  decodes slivers hnodup hgood henough := by
    refine if_pos ⟨fun s hs => ?_, henough⟩
    by_contra hbad
    have := hgood s hs
    simp [Codec.verifies, smallCodec, hbad] at this
  otherwise slivers := by
    unfold smallCodec
    dsimp only
    split
    · exact .inl rfl
    · exact .inr ⟨_, rfl⟩

private def smallRead (axis : Axis) (threshold : Nat) (members : List WalrusCommitteeMember) :
    Read where
  committee := ⟨1, 4, members⟩
  blobId := List.replicate 32 0
  axis := axis
  threshold := threshold
  metadata := ⟨4, 1⟩
  verify := true
  codec := smallCodec threshold

private def fourNodes : Read :=
  smallRead .primary 2 [⟨"a", [0], "a", []⟩, ⟨"b", [1], "b", []⟩, ⟨"c", [2], "c", []⟩,
    ⟨"d", [3], "d", []⟩]

/-- Every node answers from a table, in both fan-outs. -/
private def fromTable (r : Read) (table : List (List Bytes)) (_round : Nat) :
    (r.fetch []).Answers :=
  fun i place _ => .ok (.ok ((table[i.val]?).bind (·[place]?)))

/-- What fan-outs that fold in the given orders end in. -/
private def roundsOf (r : Read) (answers : Nat → (r.fetch []).Answers)
    (orders : Nat → List r.Node) : Nat → Except ReadExn (List Attributed) := fun round =>
  (r.fetch []).finish ((r.fetch []).collect (answers round) (orders round))

/-- The orders are possible, if the second fan-out excludes some nodes. -/
private def Possible (r : Read) (answers : Nat → (r.fetch []).Answers)
    (order : List r.Node) (round : Nat) (excludeNodeIds : List String) : Prop :=
  order.Nodup ∧ order ≠ [] ∧ (∀ i ∈ order, i ∈ r.asked excludeNodeIds) ∧
    ((∀ i ∈ r.asked excludeNodeIds, i ∈ order) ∨
      r.threshold ≤ (r.available answers round order).card)

private instance (r : Read) (answers : Nat → (r.fetch []).Answers) (order : List r.Node)
    (round : Nat) (excludeNodeIds : List String) :
    Decidable (r.Possible answers order round excludeNodeIds) :=
  inferInstanceAs (Decidable (_ ∧ _))

private theorem reconstructs_of_possible {excluded : List String}
    (hfirst : r.Possible answers (orders 0) 0 [])
    (hsecond : r.Possible answers (orders 1) 1 excluded)
    (hlog : (r.reconstructBlob (roundsOf r answers orders)).log.filter Event.isFanOut =
      [.fanOut 0 [], .fanOut 1 excluded]) :
    r.Reconstructs answers orders (roundsOf r answers orders) := by
  intro round excludeNodeIds hmem
  have hfanOut : Event.fanOut round excludeNodeIds ∈
      (r.reconstructBlob (roundsOf r answers orders)).log.filter Event.isFanOut :=
    List.mem_filter.mpr ⟨hmem, rfl⟩
  rw [hlog] at hfanOut
  have hcases : (round = 0 ∧ excludeNodeIds = []) ∨ (round = 1 ∧ excludeNodeIds = excluded) := by
    simpa using hfanOut
  rcases hcases with ⟨rfl, rfl⟩ | ⟨rfl, rfl⟩
  · exact Fetch.exists_ends (f := r.fetch []) hfirst.1 hfirst.2.1 hfirst.2.2.1 hfirst.2.2.2
  · exact Fetch.exists_ends (f := r.fetch excludeNodeIds) hsecond.1 hsecond.2.1 hsecond.2.2.1
      hsecond.2.2.2

/-- One node lies. -/
private def liar : Nat → (fourNodes.fetch []).Answers :=
  fromTable fourNodes [[[9]], [[1]], [[2]], [[3]]]

private def liarFirst : Nat → List fourNodes.Node
  | 0 => [⟨0, by decide⟩, ⟨2, by decide⟩]
  | _ => [⟨1, by decide⟩, ⟨2, by decide⟩]

private theorem liar_reconstructs :
    fourNodes.Reconstructs liar liarFirst (roundsOf fourNodes liar liarFirst) :=
  reconstructs_of_possible (by decide) (by decide) rfl

private theorem liar_oneFaulty : fourNodes.OneFaulty liar "a" where
  honest round := by
    show ∀ i, fourNodes.nodeId i ≠ "a" → ∀ sliver ∈ fourNodes.serves liar 0 i,
      fourNodes.codec.verifies sliver = true
    decide
  enough round := by
    show 2 ≤ (fourNodes.available liar 0 _).card
    decide

theorem reconstructBlob_oneFaulty_liar :
    (∃ n, (fourNodes.reconstructBlob (roundsOf fourNodes liar liarFirst)).result =
      .ok ([7], n)) ∧ fourNodes.NeverDenied 10 liar "a" := by
  obtain ⟨hreturns, hdenied⟩ :=
    (reconstructBlob_oneFaulty (smallCodec_ideal 2) rfl liar 10).2 "a" liar_oneFaulty
  exact ⟨hreturns _ _ liar_reconstructs, (hdenied (by decide)).mpr (by decide)⟩

/-! A node of 512 shards is listed first. -/

private def placeSliver (place : Nat) : Bytes := [UInt8.ofNat (place / 256), UInt8.ofNat place]

private def pairCodec (threshold : Nat) : Codec where
  decodeBlob slivers _ :=
    if (∀ s ∈ slivers, s.length = 2) ∧ threshold ≤ slivers.length then .ok [7]
    else .error (.blobDecodeError "unusable slivers")
  verifySliver sliver :=
    if sliver.length = 2 then .ok () else .error (.sliverVerificationError "unusable sliver")

private theorem pairCodec_ideal (threshold : Nat) : (pairCodec threshold).Ideal [7] threshold where
  verdict sliver := by
    unfold pairCodec
    dsimp only
    split
    · exact .inl rfl
    · exact .inr ⟨_, rfl⟩
  decodes slivers hnodup hgood henough := by
    refine if_pos ⟨fun s hs => ?_, henough⟩
    by_contra hbad
    have := hgood s hs
    simp [Codec.verifies, pairCodec, hbad] at this
  otherwise slivers := by
    unfold pairCodec
    dsimp only
    split
    · exact .inl rfl
    · exact .inr ⟨_, rfl⟩

/-- As many shards as may be faulty, and one node for the others. -/
private def largeNode : Read where
  committee := ⟨1, 1537, [⟨"a", List.range 512, "a", []⟩,
    ⟨"b", (List.range 1025).map (· + 512), "b", []⟩]⟩
  blobId := List.replicate 32 0
  axis := .primary
  threshold := 513
  metadata := ⟨1537, 1⟩
  verify := true
  codec := pairCodec 513

private def byPlace (_round : Nat) : (largeNode.fetch []).Answers :=
  fun _ place _ => .ok (.ok (some (placeSliver place)))

private theorem serves_memberB (round : Nat) :
    largeNode.serves byPlace round ⟨1, by decide⟩ = (List.range 1025).map placeSliver := by
  show largeNode.serves byPlace 0 ⟨1, by decide⟩ = _
  decide +kernel

private theorem placeSliver_injOn {m n : Nat} (hm : m < 1025) (hn : n < 1025)
    (h : placeSliver m = placeSliver n) : m = n := by
  have hbytes : (m / 256) % 256 = (n / 256) % 256 ∧ m % 256 = n % 256 := by
    have hhigh := congrArg UInt8.toNat (List.cons.inj h).1
    have hlow := congrArg UInt8.toNat (List.cons.inj (List.cons.inj h).2).1
    simpa using And.intro hhigh hlow
  omega

private theorem largeNode_oneFaulty : largeNode.OneFaulty byPlace "a" where
  honest round i _ sliver hsliver := by
    obtain ⟨⟨shard, place⟩, -, hserved⟩ := List.mem_filterMap.mp hsliver
    unfold Fetch.one at hserved
    cases hrequest : (largeNode.fetch []).request ((largeNode.fetch []).member i) shard with
    | error e =>
      rw [hrequest] at hserved
      cases hserved
    | ok command =>
      rw [hrequest] at hserved
      obtain rfl : placeSliver place = sliver := Option.some.inj hserved
      rfl
  enough round := by
    have hinj : Set.InjOn placeSliver (Finset.range 1025 : Set Nat) := fun m hm n hn h =>
      placeSliver_injOn (by simpa using hm) (by simpa using hn) h
    have hsub : (Finset.range 1025).image placeSliver ⊆ largeNode.available byPlace round
        ((List.finRange largeNode.committee.members.length).filter fun i =>
          largeNode.nodeId i ≠ "a") := by
      intro sliver hsliver
      obtain ⟨place, hplace, rfl⟩ := Finset.mem_image.mp hsliver
      refine mem_available.mpr ⟨⟨1, by decide⟩, by decide, ?_⟩
      rw [serves_memberB]
      exact List.mem_map.mpr ⟨place, List.mem_range.mpr (Finset.mem_range.mp hplace), rfl⟩
    have hcard := Finset.card_le_card hsub
    rw [Finset.card_image_of_injOn hinj, Finset.card_range] at hcard
    exact le_trans (by decide) hcard

/-- The silent node keeps all permits, and the other is never asked. -/
theorem reconstructBlob_oneFaulty_silent :
    largeNode.codec.Ideal [7] largeNode.threshold ∧ largeNode.verify = true ∧
      0 < largeNode.threshold ∧ largeNode.OneFaulty byPlace "a" ∧
      ¬ largeNode.NeverDenied 10 byPlace "a" := by
  refine ⟨pairCodec_ideal 513, rfl, by decide, largeNode_oneFaulty, fun hnever => ?_⟩
  have hblocked : largeNode.unblocked "a" = [] := by decide +kernel
  obtain ⟨-, henough⟩ := (largeNode_oneFaulty.neverDenied_iff (pairCodec_ideal 513) rfl
    (by decide) 10).mp hnever
  rw [hblocked] at henough
  exact absurd henough (by decide)

/-! ## Any number of faulty nodes -/

/-- The node serves a sliver that does not verify. -/
def ServesBad (r : Read) (answers : Nat → (r.fetch []).Answers) (round : Nat) (i : r.Node) :
    Prop :=
  ∃ sliver ∈ r.serves answers round i, r.codec.verifies sliver = false

/-- What was folded meets the threshold, does not decode, and fewer slivers than
the threshold verify. -/
def Retries (r : Read) (answers : Nat → (r.fetch []).Answers) (order : List r.Node) : Prop :=
  r.threshold ≤ (r.available answers 0 order).card ∧
    ((r.available answers 0 order).filter fun s => r.codec.verifies s).card < r.threshold ∧
    ∃ message, r.codec.decodeBlob
      (FirstWins.keys ((r.fetch []).collect (answers 0) order).collected) r.verify =
        .error (.blobDecodeError message)

/-- Whoever ever serves bad slivers did so in the first fan-out, which folded its
answer, and the other nodes serve enough. -/
structure Recoverable (r : Read) (answers : Nat → (r.fetch []).Answers) (order : List r.Node) :
    Prop where
  folded : ∀ round i, r.ServesBad answers round i → i ∈ order ∧ r.ServesBad answers 0 i
  enough : ∃ remaining : List r.Node,
    (∀ i ∈ remaining, ∀ round j, r.ServesBad answers round j → r.nodeId j ≠ r.nodeId i) ∧
    ∀ round, r.threshold ≤ (r.available answers round remaining).card

private theorem length_verified (order : List r.Node) :
    (r.verified ((r.fetch []).collect (answers 0) order).collected).length =
      ((r.available answers 0 order).filter fun s => r.codec.verifies s).card := by
  obtain ⟨collected, hcollected⟩ :
      ∃ collected, collected = ((r.fetch []).collect (answers 0) order).collected := ⟨_, rfl⟩
  have hnodup : (FirstWins.keys collected).Nodup :=
    hcollected ▸ Fetch.nodup_collected (f := r.fetch []) order
  have hkeys : (FirstWins.keys collected).toFinset = r.available answers 0 order :=
    hcollected ▸ Fetch.keys_collected_toFinset (f := r.fetch []) order
  rw [← hcollected, ← hkeys, FirstWins.length_eq_card (nodup_keys_verified hnodup)]
  congr 1
  ext sliver
  simp [verified, FirstWins.keys]

/-- What the first fan-out of a call returns decides whether there is a second. -/
private theorem retries_iff_of_returned
    (hfirst : (r.fetch []).Ends (answers 0) (orders 0) (rounds 0)) {first : List Attributed}
    (hreturned : rounds 0 = .ok first) :
    r.Retries answers (orders 0) ↔ r.threshold ≤ first.length ∧
      (r.verified first).length < r.threshold ∧
      ∃ message, r.decoded first = .error (.blobDecodeError message) := by
  rw [hreturned] at hfirst
  obtain ⟨rfl, -⟩ := hfirst.ok
  unfold Retries
  rw [length_verified, Fetch.length_collected]
  simp only [decoded_eq_error]
  rfl

/-- When the second fan-out runs. -/
private theorem retry_iff (ideal : r.codec.Ideal blob r.threshold) (hverify : r.verify = true)
    (hfirst : (r.fetch []).Ends (answers 0) (orders 0) (rounds 0)) :
    (∃ excludeNodeIds, .fanOut 1 excludeNodeIds ∈ (r.reconstructBlob rounds).log) ↔
      r.Retries answers (orders 0) := by
  obtain ⟨call, hcall⟩ : ∃ call, call = r.reconstructBlob rounds := ⟨_, rfl⟩
  have hcourse : Course r rounds call := hcall ▸ reconstructBlob_course ideal hverify rounds
  rw [← hcall]
  clear hcall
  have hlength : ∀ first, rounds 0 = .ok first → r.threshold ≤ first.length :=
    fun first h => (Fetch.Ends.returned (h ▸ hfirst)).2.1
  cases hcourse with
  | unserved h =>
    constructor
    · simp
    · intro hretries
      have hasked := hfirst.complete.1.asked
      have hmore : (r.available answers 0 (orders 0)).card ≤
          (r.available answers 0 (r.asked [])).card :=
        Finset.card_le_card (Fetch.contents_mono hasked)
      exact absurd (hretries.1.trans hmore) (not_le.mpr (h ▸ hfirst).error.2)
  | decodes h hdecoded =>
    rw [retries_iff_of_returned hfirst h]
    simp [hdecoded]
  | @blameless first message h hdecoded hnone =>
    rw [retries_iff_of_returned hfirst h]
    have hall : r.verified first = first :=
      List.filter_eq_self.mpr (verifies_of_indicted_eq_nil hnone)
    simp [hall, hlength first h]
  | survives h hdecoded hsome hkept =>
    rw [retries_iff_of_returned hfirst h]
    simp [not_lt.mpr hkept]
  | unservedAgain h hdecoded hsome hless herror =>
    rw [retries_iff_of_returned hfirst h]
    simp [hdecoded, hless, hlength _ h]
  | servedAgain h hdecoded hsome hless hsecond =>
    rw [retries_iff_of_returned hfirst h]
    simp [hdecoded, hless, hlength _ h]

/-- **When every bad server is barred from the retry**, and the read returns the
blob where it could: exactly if, whenever the retry runs, each node whose answer
was folded with a bad sliver was the first to serve one. Two nodes that serve
the same bad slivers are blamed for them once. -/
theorem reconstructBlob_barred (ideal : r.codec.Ideal blob r.threshold)
    (hverify : r.verify = true) (h : r.Reconstructs answers orders rounds) :
    ((∀ excludeNodeIds, .fanOut 1 excludeNodeIds ∈ (r.reconstructBlob rounds).log →
        ∀ i ∈ r.asked excludeNodeIds, i ∈ orders 0 → ¬ r.ServesBad answers 0 i) ∧
      (r.Recoverable answers (orders 0) →
        ∃ n, (r.reconstructBlob rounds).result = .ok (blob, n))) ↔
    (r.Retries answers (orders 0) → ∀ i ∈ orders 0, r.ServesBad answers 0 i →
      r.FirstWithBad answers (orders 0) (r.nodeId i)) := by
  constructor
  · rintro ⟨hbarred, -⟩ hretries i hi hbad
    obtain ⟨excludeNodeIds, hretry⟩ := (retry_iff ideal hverify h.first).mpr hretries
    rw [← mem_excluded_iff ideal h.first hretry]
    by_contra hallowed
    obtain ⟨sliver, hserves, -⟩ := id hbad
    exact hbarred _ hretry i (mem_asked_of_serves hserves hallowed) hi hbad
  · intro hblamed
    have hbarred : ∀ excludeNodeIds,
        .fanOut 1 excludeNodeIds ∈ (r.reconstructBlob rounds).log →
        ∀ i ∈ r.asked excludeNodeIds, i ∈ orders 0 → ¬ r.ServesBad answers 0 i := by
      intro excludeNodeIds hretry i hasked hi hbad
      have hretries := (retry_iff ideal hverify h.first).mp ⟨_, hretry⟩
      exact nodeId_notMem_of_mem_asked hasked
        ((mem_excluded_iff ideal h.first hretry).mpr (hblamed hretries i hi hbad))
    refine ⟨hbarred, fun hrecoverable => ?_⟩
    obtain ⟨remaining, hremaining, henough⟩ := hrecoverable.enough
    -- the remaining nodes are asked both times
    have hasked : ∀ round excludeNodeIds,
        (∀ i ∈ remaining, r.nodeId i ∉ excludeNodeIds) →
        r.threshold ≤ (r.available answers round (r.asked excludeNodeIds)).card := by
      intro round excludeNodeIds hallowed
      refine (henough round).trans (Finset.card_le_card fun sliver hsliver => ?_)
      obtain ⟨i, hi, hserves⟩ := mem_available.mp hsliver
      exact mem_available.mpr ⟨i, mem_asked_of_serves hserves (hallowed i hi), hserves⟩
    apply h.returns ideal hverify (hasked 0 [] (by simp))
    intro excludeNodeIds hretry
    constructor
    · apply hasked 1
      intro i hi hexcluded
      obtain ⟨-, j, -, sliver, -, hnode, hserves, hbad, -⟩ :=
        (mem_excluded_iff ideal h.first hretry).mp hexcluded
      exact hremaining i hi 0 j ⟨sliver, hserves, hbad⟩ hnode
    · intro i hi sliver hserves
      by_contra hbad
      obtain ⟨hfolded, hbefore⟩ :=
        hrecoverable.folded 1 i ⟨sliver, hserves, by simpa using hbad⟩
      exact hbarred _ hretry i hi hfolded hbefore

theorem reconstructBlob_barred_liar :
    (∀ excludeNodeIds, .fanOut 1 excludeNodeIds ∈
        (fourNodes.reconstructBlob (roundsOf fourNodes liar liarFirst)).log →
      ∀ i ∈ fourNodes.asked excludeNodeIds, i ∈ liarFirst 0 → ¬ fourNodes.ServesBad liar 0 i) ∧
    (fourNodes.Recoverable liar (liarFirst 0) → ∃ n,
      (fourNodes.reconstructBlob (roundsOf fourNodes liar liarFirst)).result = .ok ([7], n)) := by
  refine (reconstructBlob_barred (smallCodec_ideal 2) rfl liar_reconstructs).mpr ?_
  intro _ i hi hbad
  have honly : ∀ i ∈ liarFirst 0,
      (∃ sliver ∈ fourNodes.serves liar 0 i, fourNodes.codec.verifies sliver = false) →
        i = ⟨0, by decide⟩ := by decide
  obtain rfl := honly i hi hbad
  exact ⟨[], ⟨0, by decide⟩, [⟨2, by decide⟩], [9], rfl, rfl, by decide, by decide, by simp⟩

/-- Two nodes serve the same forged sliver. -/
private def colluders : Nat → (fourNodes.fetch []).Answers :=
  fromTable fourNodes [[[9]], [[9]], [[2]], [[3]]]

private def colludersFirst : Nat → List fourNodes.Node
  | 0 => [⟨0, by decide⟩, ⟨1, by decide⟩, ⟨2, by decide⟩]
  | _ => [⟨1, by decide⟩, ⟨2, by decide⟩]

/-- The second colluder is not blamed, is asked again and denies the read. -/
theorem reconstructBlob_barred_colluders :
    fourNodes.codec.Ideal [7] fourNodes.threshold ∧ fourNodes.verify = true ∧
    fourNodes.Reconstructs colluders colludersFirst
      (roundsOf fourNodes colluders colludersFirst) ∧
    (∃ i ∈ fourNodes.asked ["a"], i ∈ colludersFirst 0 ∧ fourNodes.ServesBad colluders 0 i) ∧
    .fanOut 1 ["a"] ∈
      (fourNodes.reconstructBlob (roundsOf fourNodes colluders colludersFirst)).log ∧
    fourNodes.Recoverable colluders (colludersFirst 0) ∧
    (fourNodes.reconstructBlob (roundsOf fourNodes colluders colludersFirst)).result =
      .error (.blobDecodeError "unusable slivers") := by
  have hlog : (fourNodes.reconstructBlob (roundsOf fourNodes colluders colludersFirst)).log =
      [.fanOut 0 [], .decode [[9], [2]], .fanOut 1 ["a"], .decode [[2], [9]]] := rfl
  refine ⟨smallCodec_ideal 2, rfl, ?_, ?_, ?_, ⟨?_, ?_⟩, rfl⟩
  · exact reconstructs_of_possible (by decide) (by decide) rfl
  · exact ⟨⟨1, by decide⟩, by decide, by decide, [9], by decide, by decide⟩
  · rw [hlog]
    simp
  · intro round
    show ∀ i, (∃ sliver ∈ fourNodes.serves colluders 0 i,
        fourNodes.codec.verifies sliver = false) →
      i ∈ colludersFirst 0 ∧ ∃ sliver ∈ fourNodes.serves colluders 0 i,
        fourNodes.codec.verifies sliver = false
    decide
  · refine ⟨[⟨2, by decide⟩, ⟨3, by decide⟩], fun i hi round => ?_, fun round => ?_⟩
    · have hothers : ∀ i ∈ ([⟨2, by decide⟩, ⟨3, by decide⟩] : List fourNodes.Node), ∀ j,
          (∃ sliver ∈ fourNodes.serves colluders 0 j,
            fourNodes.codec.verifies sliver = false) →
          fourNodes.nodeId j ≠ fourNodes.nodeId i := by decide
      exact hothers i hi
    · show 2 ≤ (fourNodes.available colluders 0 _).card
      decide

/-! ## The threshold of the retry -/

/-- **The retry is a threshold search of its own**: what verified in the first
fan-out does not count in the second, which raises if the nodes it asks serve
too little, and only then; otherwise the call decodes what verified together
with what the second fan-out folded. -/
theorem reconstructBlob_retryThreshold (h : r.Reconstructs answers orders rounds)
    {excludeNodeIds : List String}
    (hretry : .fanOut 1 excludeNodeIds ∈ (r.reconstructBlob rounds).log) :
    ∃ first kept, rounds 0 = .ok first ∧
      r.partitionByVerification first = .ok (kept, excludeNodeIds) ∧
      ((r.available answers 1 (r.asked excludeNodeIds)).card < r.threshold →
        (∃ message, (r.reconstructBlob rounds).result =
          .error (.sliverFetchError message "fetch_slivers")) ∧
        (r.reconstructBlob rounds).log =
          [.fanOut 0 [], .decode (FirstWins.keys first), .fanOut 1 excludeNodeIds]) ∧
      (r.threshold ≤ (r.available answers 1 (r.asked excludeNodeIds)).card →
        ∃ union, union.toFinset =
            (FirstWins.keys kept).toFinset ∪ r.available answers 1 (orders 1) ∧
          r.threshold ≤ (r.available answers 1 (orders 1)).card ∧
          (r.reconstructBlob rounds).log = [.fanOut 0 [], .decode (FirstWins.keys first),
            .fanOut 1 excludeNodeIds, .decode union] ∧
          (r.reconstructBlob rounds).result = (r.codec.decodeBlob union r.verify).map
            fun content => (content, union.length)) := by
  obtain ⟨first, kept, hfirst, hpartition, -, -, hcall⟩ := reconstructBlob_retry hretry
  have hsecond := h 1 excludeNodeIds hretry
  refine ⟨first, kept, hfirst, hpartition, ?_, ?_⟩
  · intro hless
    cases hagain : rounds 1 with
    | error e =>
      obtain ⟨⟨message, rfl⟩, -⟩ := (hagain ▸ hsecond).error
      rw [hcall, hagain]
      exact ⟨⟨message, rfl⟩, rfl⟩
    | ok second =>
      have henough := (hagain ▸ hsecond).ok.2
      have hmore : (r.available answers 1 (orders 1)).card ≤
          (r.available answers 1 (r.asked excludeNodeIds)).card :=
        Finset.card_le_card (Fetch.contents_mono hsecond.complete.1.asked)
      exact absurd (henough.trans hmore) (not_le.mpr hless)
  · intro henough
    obtain ⟨second, hagain⟩ := hsecond.isOk henough
    obtain ⟨hcollected, hthreshold⟩ := (hagain ▸ hsecond).ok
    have hkeys : (FirstWins.keys second).toFinset = r.available answers 1 (orders 1) := by
      rw [hcollected]
      exact Fetch.keys_collected_toFinset (f := r.fetch excludeNodeIds) (orders 1)
    refine ⟨FirstWins.keys (mergeDistinct kept second), ?_, hthreshold, ?_, ?_⟩
    · ext sliver
      rw [← hkeys, Finset.mem_union, List.mem_toFinset, List.mem_toFinset, List.mem_toFinset]
      exact FirstWins.mem_keys_addAll
    · rw [hcall, hagain, Logged.lift_ok_bind, decodeAttributed_eq]
      rfl
    · rw [hcall, hagain, Logged.lift_ok_bind, decodeAttributed_eq]
      simp [Logged.after, decoded, FirstWins.keys]

private def threeNodes : Read :=
  smallRead .secondary 3 [⟨"a", [0, 1], "a", []⟩, ⟨"b", [2], "b", []⟩, ⟨"c", [3], "c", []⟩]

/-- One of the first node's two slivers is good. -/
private def halfBad : Nat → (threeNodes.fetch []).Answers :=
  fromTable threeNodes [[[0], [9]], [[2]], [[3]]]

private def halfBadFirst : Nat → List threeNodes.Node
  | 0 => [⟨0, by decide⟩, ⟨1, by decide⟩]
  | _ => [⟨1, by decide⟩, ⟨2, by decide⟩]

private theorem halfBad_reconstructs :
    threeNodes.Reconstructs halfBad halfBadFirst (roundsOf threeNodes halfBad halfBadFirst) :=
  reconstructs_of_possible (by decide) (by decide) rfl

private theorem halfBad_retries : .fanOut 1 ["a"] ∈
    (threeNodes.reconstructBlob (roundsOf threeNodes halfBad halfBadFirst)).log := by
  have hlog : (threeNodes.reconstructBlob (roundsOf threeNodes halfBad halfBadFirst)).log =
      [.fanOut 0 [], .decode [[0], [9], [2]], .fanOut 1 ["a"]] := rfl
  rw [hlog]
  simp

theorem reconstructBlob_retryThreshold_halfBad :
    ∃ message, (threeNodes.reconstructBlob (roundsOf threeNodes halfBad halfBadFirst)).result =
      .error (.sliverFetchError message "fetch_slivers") := by
  obtain ⟨first, kept, -, -, hless, -⟩ :=
    reconstructBlob_retryThreshold halfBad_reconstructs halfBad_retries
  exact (hless (by decide)).1

/-- Together with what verified there would have been enough. -/
theorem reconstructBlob_retryThreshold_discards :
    ¬ ∀ (r : Read) (answers : Nat → (r.fetch []).Answers) (orders : Nat → List r.Node)
      (rounds : Nat → Except ReadExn (List Attributed)) (excludeNodeIds : List String)
      (first kept : List Attributed), r.Reconstructs answers orders rounds →
      .fanOut 1 excludeNodeIds ∈ (r.reconstructBlob rounds).log →
      rounds 0 = .ok first → r.partitionByVerification first = .ok (kept, excludeNodeIds) →
      r.threshold ≤ ((FirstWins.keys kept).toFinset ∪
        r.available answers 1 (r.asked excludeNodeIds)).card →
      ∀ message stage,
        (r.reconstructBlob rounds).result ≠ .error (.sliverFetchError message stage) := by
  intro hclaim
  exact hclaim threeNodes halfBad halfBadFirst _ ["a"] [([0], "a"), ([9], "a"), ([2], "b")]
    [([0], "a"), ([2], "b")] halfBad_reconstructs halfBad_retries rfl rfl (by decide) _ _ rfl

end Read

end Pytusk.NativeRead
