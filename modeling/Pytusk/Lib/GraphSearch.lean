import Pytusk.Lib.WhileLoop
import Mathlib.Algebra.GroupWithZero.Nat
import Mathlib.Algebra.Order.BigOperators.Group.List
import Mathlib.Algebra.Order.Group.Nat
import Mathlib.Data.List.Induction
import Mathlib.Data.List.Perm.Basic
import Mathlib.Logic.Relation

/-!
# Collecting what can be reached

The loop that pops a node, skips it if it was met before and otherwise
collects it and pushes the neighbours that were not. The neighbours may be
pushed in any order, which may change from turn to turn. The loop ends, with
exactly the nodes that can be reached from the one it started at. Searching
from one node after another splits the nodes into classes.
-/

namespace Pytusk.Lib.GraphSearch

variable {α : Type*}

/-- The nodes still to be looked at, the next one first, and those met. -/
structure State (α : Type*) where
  stack : List α
  collected : List α

/-- The state in which the search from a node begins. -/
def start (root : α) : State α := ⟨[root], []⟩

def pending (s : State α) : Bool := !s.stack.isEmpty

theorem pending_iff {s : State α} : pending s = true ↔ s.stack ≠ [] := by
  simp [pending]

variable [DecidableEq α]

/-- One turn: `push` says what goes on the stack after a node that is met for
the first time, by the nodes met until then, itself included. -/
def visit (push : List α → α → List α) (s : State α) : State α :=
  match s.stack with
  | [] => s
  | current :: rest =>
      if current ∈ s.collected then { s with stack := rest }
      else
        let collected := current :: s.collected
        { stack := push collected current ++ rest, collected := collected }

/-- The neighbours that were not met are pushed, in some order. -/
def Pushes (next : α → List α) (push : List α → α → List α) : Prop :=
  ∀ collected v, (push collected v).Perm ((next v).filter (· ∉ collected))

variable {next : α → List α} {push : List α → α → List α}

theorem Pushes.mem_iff (h : Pushes next push) {collected : List α} {v w : α} :
    w ∈ push collected v ↔ w ∈ next v ∧ w ∉ collected := by
  rw [(h collected v).mem_iff, List.mem_filter, decide_eq_true_eq]

theorem Pushes.length_le (h : Pushes next push) (collected : List α) (v : α) :
    (push collected v).length ≤ (next v).length := by
  rw [(h collected v).length_eq]
  exact List.length_filter_le _ _

/-! ## The search ends -/

/-- What a list of nodes can still contribute to the stack. -/
def outstanding (next : α → List α) (collected nodes : List α) : Nat :=
  ((nodes.filter (· ∉ collected)).map fun v => (next v).length + 1).sum

theorem outstanding_cons_le (next : α → List α) (collected : List α) (v : α)
    (nodes : List α) :
    outstanding next (v :: collected) nodes ≤ outstanding next collected nodes := by
  have hsub : (nodes.filter (· ∉ v :: collected)).Sublist (nodes.filter (· ∉ collected)) :=
    List.monotone_filter_right nodes fun u hu => by
      rw [decide_eq_true_eq] at hu ⊢
      exact fun hmem => hu (List.mem_cons_of_mem v hmem)
  exact (hsub.map _).sum_le_sum fun _ _ => Nat.zero_le _

/-- A node that is collected no longer counts. -/
theorem outstanding_cons_lt (next : α → List α) {collected nodes : List α} {v : α}
    (hnew : v ∉ collected) (hv : v ∈ nodes) :
    outstanding next (v :: collected) nodes + (next v).length <
      outstanding next collected nodes := by
  induction nodes with
  | nil => cases hv
  | cons u rest ih =>
    by_cases huv : u = v
    · subst huv
      have hle := outstanding_cons_le next collected u rest
      unfold outstanding at hle ⊢
      rw [List.filter_cons_of_neg (by simp), List.filter_cons_of_pos (by simpa using hnew),
        List.map_cons, List.sum_cons]
      omega
    · have hlt := ih (List.mem_of_ne_of_mem (Ne.symm huv) hv)
      unfold outstanding at hlt ⊢
      by_cases hu : u ∈ collected
      · rw [List.filter_cons_of_neg (by simp [hu]), List.filter_cons_of_neg (by simp [hu])]
        exact hlt
      · rw [List.filter_cons_of_pos (by simp [hu, huv]), List.filter_cons_of_pos (by simp [hu]),
          List.map_cons, List.map_cons, List.sum_cons, List.sum_cons]
        omega

/-- What every turn lowers, where only `nodes` have neighbours. -/
def remaining (next : α → List α) (nodes : List α) (s : State α) : Nat :=
  s.stack.length + outstanding next s.collected nodes

theorem remaining_visit_lt (hpush : Pushes next push) {nodes : List α}
    (hnodes : ∀ v, v ∉ nodes → next v = []) {s : State α} (hs : pending s = true) :
    remaining next nodes (visit push s) < remaining next nodes s := by
  obtain ⟨stack, collected⟩ := s
  unfold remaining visit
  cases stack with
  | nil => simp [pending] at hs
  | cons v rest =>
    dsimp only
    split
    · simp
    · rename_i hnew
      have hlen := hpush.length_le (v :: collected) v
      simp only [List.length_append, List.length_cons]
      by_cases hv : v ∈ nodes
      · have hlt := outstanding_cons_lt next hnew hv
        omega
      · have hle := outstanding_cons_le next collected v nodes
        rw [hnodes v hv, List.length_nil] at hlen
        omega

/-! ## What it collects -/

/-- There is a way from the one node to the other. -/
def Reachable (next : α → List α) : α → α → Prop :=
  Relation.ReflTransGen fun v w => w ∈ next v

/-- What holds at each point of the search from `root`. -/
structure Searching (next : α → List α) (root : α) (s : State α) : Prop where
  started : root ∈ s.collected ∨ root ∈ s.stack
  reached : ∀ v, v ∈ s.collected ∨ v ∈ s.stack → Reachable next root v
  closed : ∀ v ∈ s.collected, ∀ w ∈ next v, w ∈ s.collected ∨ w ∈ s.stack
  nodup : s.collected.Nodup

omit [DecidableEq α] in
theorem searching_start (root : α) : Searching next root (start root) where
  started := .inr (List.mem_singleton_self root)
  reached v hv := by
    rcases hv with hv | hv
    · cases hv
    · rw [List.mem_singleton.mp hv]
      exact .refl
  closed v hv := nomatch hv
  nodup := List.nodup_nil

theorem Searching.visit (hpush : Pushes next push) {root : α} {s : State α}
    (h : Searching next root s) : Searching next root (visit push s) := by
  obtain ⟨stack, collected⟩ := s
  unfold GraphSearch.visit
  cases stack with
  | nil => exact h
  | cons v rest =>
    dsimp only
    split
    · rename_i hmet
      -- a node that was met before leaves the stack and nothing else changes
      have hstill : ∀ w, w ∈ collected ∨ w ∈ v :: rest → w ∈ collected ∨ w ∈ rest := by
        rintro w (hw | hw)
        · exact .inl hw
        · rcases List.mem_cons.mp hw with rfl | hw
          · exact .inl hmet
          · exact .inr hw
      constructor
      case started => exact hstill root h.started
      case reached => exact fun w hw => h.reached w (hw.imp_right (List.mem_cons_of_mem v))
      case closed => exact fun w hw u hu => hstill u (h.closed w hw u hu)
      case nodup => exact h.nodup
    · rename_i hnew
      have hmoved : ∀ w, w ∈ collected ∨ w ∈ v :: rest →
          w ∈ v :: collected ∨ w ∈ push (v :: collected) v ++ rest := by
        rintro w (hw | hw)
        · exact .inl (List.mem_cons_of_mem v hw)
        · rcases List.mem_cons.mp hw with rfl | hw
          · exact .inl List.mem_cons_self
          · exact .inr (List.mem_append_right _ hw)
      have hv : Reachable next root v := h.reached v (.inr List.mem_cons_self)
      constructor
      case started => exact hmoved root h.started
      case reached =>
        rintro w (hw | hw)
        · rcases List.mem_cons.mp hw with rfl | hw
          · exact hv
          · exact h.reached w (.inl hw)
        · rcases List.mem_append.mp hw with hw | hw
          · exact hv.tail (hpush.mem_iff.mp hw).1
          · exact h.reached w (.inr (List.mem_cons_of_mem v hw))
      case closed =>
        intro w hw u hu
        rcases List.mem_cons.mp hw with rfl | hw
        · by_cases hmet : u ∈ w :: collected
          · exact .inl hmet
          · exact .inr (List.mem_append_left _ (hpush.mem_iff.mpr ⟨hu, hmet⟩))
        · exact hmoved u (h.closed w hw u hu)
      case nodup => exact List.nodup_cons.mpr ⟨hnew, h.nodup⟩

/-- **The search collects what can be reached**, each node once. -/
theorem search_spec (hpush : Pushes next push) {root : α} {t : State α}
    (h : WhileEnds pending (visit push) (start root) t) :
    t.collected.Nodup ∧ ∀ v, v ∈ t.collected ↔ Reachable next root v := by
  obtain ⟨hdone, hend⟩ := h.invariant (searching_start root)
    fun _ _ hs => hs.visit hpush
  have hempty : t.stack = [] := by
    by_contra hne
    exact nomatch hdone.symm.trans (pending_iff.mpr hne)
  refine ⟨hend.nodup, fun v => ⟨fun hv => hend.reached v (.inl hv), fun hv => ?_⟩⟩
  induction hv with
  | refl =>
    rcases hend.started with hroot | hroot
    · exact hroot
    · rw [hempty] at hroot
      cases hroot
  | tail _ hstep ih =>
    rcases hend.closed _ ih _ hstep with hmem | hmem
    · exact hmem
    · rw [hempty] at hmem
      cases hmem

/-- With the turns that `remaining` counts the search reaches its end. -/
theorem whileEnds_search (hpush : Pushes next push) {nodes : List α}
    (hnodes : ∀ v, v ∉ nodes → next v = []) {root : α} {turns : Nat}
    (h : remaining next nodes (start root) ≤ turns) :
    WhileEnds pending (visit push) (start root)
      (whileRun pending (visit push) turns (start root)) :=
  whileEnds_whileRun (remaining next nodes)
    (fun _ hs => remaining_visit_lt hpush hnodes hs) h

/-! ## Every class once -/

/-- A search from every node of a list that no earlier one met: what was met,
and what each of them collected. -/
def classes (search : α → List α) (nodes : List α) : List α × List (List α) :=
  nodes.foldl (fun acc v =>
    if v ∈ acc.1 then acc
    else (acc.1 ++ search v, acc.2 ++ [search v])) ([], [])

/-- The classes of the nodes: no two share a node, and no node is missing. -/
structure Partition (search : α → List α) (nodes : List α) (acc : List α × List (List α)) :
    Prop where
  met : ∀ v, v ∈ acc.1 ↔ ∃ c ∈ acc.2, v ∈ c
  searched : ∀ c ∈ acc.2, ∃ v ∈ nodes, c = search v
  covered : ∀ v ∈ nodes, v ∈ acc.1
  disjoint : acc.2.Pairwise List.Disjoint

omit [DecidableEq α] in
/-- A node that an earlier search met. -/
theorem Partition.add_met {search : α → List α} {nodes : List α} {acc : List α × List (List α)}
    (h : Partition search nodes acc) {last : α} (hmet : last ∈ acc.1) :
    Partition search (nodes ++ [last]) acc where
  met := h.met
  searched := by
    intro c hc
    obtain ⟨v, hv, heq⟩ := h.searched c hc
    exact ⟨v, List.mem_append_left _ hv, heq⟩
  covered := by
    intro v hv
    rcases List.mem_append.mp hv with hold | hlast
    · exact h.covered v hold
    · rw [List.mem_singleton.mp hlast]
      exact hmet
  disjoint := h.disjoint

omit [DecidableEq α] in
/-- A node that no earlier search met, which is searched from. -/
theorem Partition.add_new {search : α → List α} (hself : ∀ v, v ∈ search v)
    (hmeet : ∀ u v w, w ∈ search u → w ∈ search v → v ∈ search u) {nodes : List α}
    {acc : List α × List (List α)} (h : Partition search nodes acc) {last : α}
    (hnew : last ∉ acc.1) :
    Partition search (nodes ++ [last]) (acc.1 ++ search last, acc.2 ++ [search last]) where
  met := by
    intro v
    simp only [List.mem_append, List.mem_singleton, h.met v]
    constructor
    · intro hv
      rcases hv with ⟨c, hc, hv⟩ | hv
      · exact ⟨c, .inl hc, hv⟩
      · exact ⟨_, .inr rfl, hv⟩
    · intro hc
      obtain ⟨c, hc | rfl, hv⟩ := hc
      · exact .inl ⟨c, hc, hv⟩
      · exact .inr hv
  searched := by
    intro c hc
    rcases List.mem_append.mp hc with hold | hlast
    · obtain ⟨v, hv, heq⟩ := h.searched c hold
      exact ⟨v, List.mem_append_left _ hv, heq⟩
    · exact ⟨last, by simp, List.mem_singleton.mp hlast⟩
  covered := by
    intro v hv
    rcases List.mem_append.mp hv with hold | hlast
    · exact List.mem_append_left _ (h.covered v hold)
    · rw [List.mem_singleton.mp hlast]
      exact List.mem_append_right _ (hself last)
  disjoint := by
    refine List.pairwise_append.mpr ⟨h.disjoint, List.pairwise_singleton _ _, ?_⟩
    intro c hc d hd w hwc hwd
    -- a shared node would put the last one into the earlier class
    obtain ⟨v, -, rfl⟩ := h.searched c hc
    rw [List.mem_singleton.mp hd] at hwd
    exact hnew ((h.met last).mpr ⟨_, hc, hmeet v last w hwc hwd⟩)

theorem partition_classes {search : α → List α} (hself : ∀ v, v ∈ search v)
    (hmeet : ∀ u v w, w ∈ search u → w ∈ search v → v ∈ search u) (nodes : List α) :
    Partition search nodes (classes search nodes) := by
  induction nodes using List.reverseRecOn with
  | nil => exact ⟨by simp [classes], by simp [classes], by simp, .nil⟩
  | append_singleton nodes last ih =>
    have hstep : classes search (nodes ++ [last]) =
        if last ∈ (classes search nodes).1 then classes search nodes
        else ((classes search nodes).1 ++ search last,
          (classes search nodes).2 ++ [search last]) := by
      rw [classes, List.foldl_append]
      rfl
    rw [hstep]
    split
    · rename_i hmet
      exact ih.add_met hmet
    · rename_i hnew
      exact ih.add_new hself hmeet hnew

end Pytusk.Lib.GraphSearch
