import Vmqant.Common.GoInt
import Vmqant.Registry.Service

/-!
# Strategies of selection

Reference: `selector/strategy.go`, lines 16-56; `registry/service.go`.

A strategy puts the nodes of all services into one slice and returns the function that picks from it. The
counter of `RoundRobin` is an `int` that starts at a random number and is reduced when it is used, so it may
pass the largest `int`: what comes after that is negative.
-/

namespace Vmqant.Selection

open GoInt
open Registry (Metadata Endpoint)

/-- `registry.Node`, whose metadata may be `nil`. -/
structure Node where
  id : String
  address : String := ""
  port : ℤ := 0
  metadata : Option Metadata := none
deriving DecidableEq

/-- `registry.Service`. -/
structure Service where
  name : String
  version : String := ""
  metadata : Metadata := ∅
  endpoints : List Endpoint := []
  nodes : List Node := []

/-- The loop with which both strategies begin. -/
def nodesOf (services : List Service) : List Node := services.flatMap Service.nodes

/-! ## The functions that are returned -/

/-- What a call of `Next` leads to. -/
inductive Outcome where
  /-- The node at a place of the slice. -/
  | returns (place : ℕ) (node : Node)
  /-- `ErrNoneAvailable`. -/
  | noneAvailable
  | panics (v : PanicValue)
  /-- The mutex is held by a call that has panicked. -/
  | blocks
deriving DecidableEq

/-- `nodes[i % len(nodes)]`. -/
def pick (nodes : List Node) (i : Int64) : Outcome :=
  match atInt nodes (i % Int64.ofNat nodes.length) with
  | .ok node => .returns (i % Int64.ofNat nodes.length).toNatClampNeg node
  | .error v => .panics v

/-- The variables of the function that `RoundRobin` returns. -/
structure RoundRobin where
  nodes : List Node
  i : Int64
  locked : Bool
deriving DecidableEq

namespace RoundRobin

/-- `RoundRobin`; `i` is what `rand.Int()` returns. -/
def start (services : List Service) (i : Int64) : RoundRobin := ⟨nodesOf services, i, false⟩

def call (s : RoundRobin) : Outcome × RoundRobin :=
  if s.nodes.length = 0 then (.noneAvailable, s)
  else if s.locked then (.blocks, s)
  else
    match pick s.nodes s.i with
    | .returns place node => (.returns place node, { s with i := s.i + 1 })
    | outcome => (outcome, { s with locked := true })

/-- What `n` calls lead to. -/
def calls : ℕ → RoundRobin → List Outcome
  | 0, _ => []
  | n + 1, s => s.call.1 :: calls n s.call.2

end RoundRobin

/-! ## One pick -/

variable {nodes : List Node}

/-- What a pick returns while the counter is a natural number. -/
def served (nodes : List Node) (m : ℕ) : Outcome :=
  match nodes[m % nodes.length]? with
  | some node => .returns (m % nodes.length) node
  | none => .noneAvailable

theorem served_eq (hpos : 0 < nodes.length) (m : ℕ) :
    ∃ node, nodes[m % nodes.length]? = some node ∧ served nodes m = .returns (m % nodes.length) node := by
  have hlt : m % nodes.length < nodes.length := Nat.mod_lt m hpos
  refine ⟨nodes[m % nodes.length], List.getElem?_eq_getElem hlt, ?_⟩
  rw [served, List.getElem?_eq_getElem hlt]

/-- The index is the counter modulo the length. -/
theorem pick_eq (hpos : 0 < nodes.length) {i : Int64} {m : ℕ}
    (hi : IsNat (i % Int64.ofNat nodes.length) (m % nodes.length)) : pick nodes i = served nodes m := by
  obtain ⟨node, hnode, hserved⟩ := served_eq hpos m
  have hnat : (i % Int64.ofNat nodes.length).toNatClampNeg = m % nodes.length := congrArg Int.toNat hi
  rw [hserved, pick, hi.atInt_eq, Slice.index, hnode, hnat]

theorem isNat_length (hlen : nodes.length < 2 ^ 63) : IsNat (Int64.ofNat nodes.length) nodes.length :=
  Int64.toInt_ofNat_of_lt hlen

theorem pick_of_lt (hpos : 0 < nodes.length) (hlen : nodes.length < 2 ^ 63) {m : ℕ} (hm : m < 2 ^ 63) :
    pick nodes (Int64.ofNat m) = served nodes m := by
  have hi : IsNat (Int64.ofNat m) m := Int64.toInt_ofNat_of_lt hm
  exact pick_eq hpos (hi.mod (isNat_length hlen))

theorem pick_cases (nodes : List Node) (i : Int64) :
    (∃ place node, pick nodes i = .returns place node) ∨ ∃ v, pick nodes i = .panics v := by
  unfold pick
  split
  · exact .inl ⟨_, _, rfl⟩
  · exact .inr ⟨_, rfl⟩

theorem pick_ne_noneAvailable (nodes : List Node) (i : Int64) : pick nodes i ≠ .noneAvailable := by
  rcases pick_cases nodes i with ⟨place, node, hpick⟩ | ⟨v, hpick⟩ <;> rw [hpick] <;> nofun

/-- A negative counter that the length divides is reduced to 0, and another one panics. -/
theorem toInt_mod_of_neg (hlen : nodes.length < 2 ^ 63) {i : Int64} {m : ℕ} (hi : i.toInt = -m) :
    (i % Int64.ofNat nodes.length).toInt = -(m % nodes.length : ℕ) := by
  rw [Int64.toInt_mod, isNat_length hlen, hi, Int.neg_tmod]
  rfl

theorem pick_of_neg (hlen : nodes.length < 2 ^ 63) {i : Int64} {m : ℕ} (hi : i.toInt = -m)
    (hm : ¬ nodes.length ∣ m) : ∃ v, pick nodes i = .panics v := by
  have hneg : (i % Int64.ofNat nodes.length).toInt < 0 := by
    have hrest : 0 < m % nodes.length := Nat.pos_of_ne_zero fun h => hm (Nat.dvd_of_mod_eq_zero h)
    rw [toInt_mod_of_neg hlen hi]
    omega
  rw [pick, atInt_of_neg hneg]
  exact ⟨_, rfl⟩

/-- The counter after the largest `int`. -/
theorem pick_wrapped (hpos : 0 < nodes.length) (hlen : nodes.length < 2 ^ 63)
    (hdvd : nodes.length ∣ 2 ^ 63) : pick nodes (Int64.ofNat (2 ^ 63)) = served nodes (2 ^ 63) := by
  refine pick_eq hpos ?_
  have hi : (Int64.ofNat (2 ^ 63)).toInt = -(2 ^ 63 : ℕ) := by decide
  rw [IsNat, toInt_mod_of_neg hlen hi, Nat.mod_eq_zero_of_dvd hdvd]
  rfl

theorem pick_of_length_one (hone : nodes.length = 1) (i : Int64) (m : ℕ) : pick nodes i = served nodes m := by
  have hpos : 0 < nodes.length := by omega
  refine pick_eq hpos ?_
  rw [IsNat, Int64.toInt_mod, isNat_length (by omega), hone, Nat.mod_one]
  exact Int.tmod_one _

/-- Two more than the largest `int`. -/
theorem pick_after_wrapped (hlen : nodes.length < 2 ^ 63) (hone : nodes.length ≠ 1)
    (hdvd : nodes.length ∣ 2 ^ 63) : ∃ v, pick nodes (Int64.ofNat (2 ^ 63 + 1)) = .panics v := by
  have hi : (Int64.ofNat (2 ^ 63 + 1)).toInt = -(2 ^ 63 - 1 : ℕ) := by decide
  refine pick_of_neg hlen hi fun hdvd' => hone ?_
  have hsub := Nat.dvd_sub hdvd hdvd'
  exact Nat.dvd_one.mp hsub

/-! ## Runs of calls -/

theorem call_of_returns (hpos : 0 < nodes.length) {i : Int64} {place : ℕ} {node : Node}
    (hpick : pick nodes i = .returns place node) :
    (RoundRobin.mk nodes i false).call = (.returns place node, ⟨nodes, i + 1, false⟩) := by
  rw [RoundRobin.call, if_neg (Nat.ne_of_gt hpos), if_neg Bool.false_ne_true, hpick]

theorem call_of_panics (hpos : 0 < nodes.length) {i : Int64} {v : PanicValue}
    (hpick : pick nodes i = .panics v) :
    (RoundRobin.mk nodes i false).call = (.panics v, ⟨nodes, i, true⟩) := by
  rw [RoundRobin.call, if_neg (Nat.ne_of_gt hpos), if_neg Bool.false_ne_true, hpick]

/-- As long as the picks are those of a natural number, the calls go on with them. -/
theorem calls_eq (hpos : 0 < nodes.length) {m n : ℕ}
    (hpick : ∀ k < n, pick nodes (Int64.ofNat (m + k)) = served nodes (m + k)) :
    (RoundRobin.mk nodes (Int64.ofNat m) false).calls n = (List.range n).map fun k => served nodes (m + k) := by
  induction n generalizing m with
  | zero => rfl
  | succ n ih =>
    obtain ⟨node, -, hserved⟩ := served_eq hpos m
    have hfirst : pick nodes (Int64.ofNat m) = served nodes m := hpick 0 (by omega)
    have hnext : ∀ k < n, pick nodes (Int64.ofNat (m + 1 + k)) = served nodes (m + 1 + k) := by
      intro k hk
      have hk' := hpick (k + 1) (by omega)
      rwa [show m + (k + 1) = m + 1 + k by omega] at hk'
    rw [RoundRobin.calls, call_of_returns hpos (hfirst.trans hserved), ← hserved]
    show served nodes m :: (RoundRobin.mk nodes (Int64.ofNat m + Int64.ofNat 1) false).calls n = _
    rw [← Int64.ofNat_add, ih hnext, List.range_succ_eq_map, List.map_cons, List.map_map]
    refine congrArg (served nodes m :: ·) (List.map_congr_left fun k _ => ?_)
    show served nodes (m + 1 + k) = served nodes (m + (k + 1))
    rw [show m + (k + 1) = m + 1 + k by omega]

/-- Where a pick panics, the calls up to it do not all return. -/
theorem exists_not_returns (hpos : 0 < nodes.length) {m n k : ℕ} (hk : k < n)
    (hpanic : ∃ v, pick nodes (Int64.ofNat (m + k)) = .panics v) :
    ∃ o ∈ (RoundRobin.mk nodes (Int64.ofNat m) false).calls n, ∀ place node, o ≠ .returns place node := by
  obtain ⟨n, rfl⟩ : ∃ n', n = n' + 1 := ⟨n - 1, by omega⟩
  induction k generalizing m n with
  | zero =>
    obtain ⟨v, hv⟩ := hpanic
    rw [Nat.add_zero] at hv
    refine ⟨.panics v, ?_, nofun⟩
    rw [RoundRobin.calls, call_of_panics hpos hv]
    exact List.mem_cons_self
  | succ k ih =>
    rcases pick_cases nodes (Int64.ofNat m) with ⟨place, node, hpick⟩ | ⟨v, hpick⟩
    · obtain ⟨n, rfl⟩ : ∃ n', n = n' + 1 := ⟨n - 1, by omega⟩
      rw [show m + (k + 1) = m + 1 + k by omega] at hpanic
      obtain ⟨o, ho, hne⟩ := ih hpanic n (by omega)
      refine ⟨o, ?_, hne⟩
      rw [RoundRobin.calls, call_of_returns hpos hpick]
      refine List.mem_cons_of_mem _ ?_
      rwa [Int64.ofNat_add] at ho
    · refine ⟨.panics v, ?_, nofun⟩
      rw [RoundRobin.calls, call_of_panics hpos hpick]
      exact List.mem_cons_self

/-! ## Fairness -/

/-- Every call returns a node, and any `length` calls in a row return each place once. -/
structure Fair (nodes : List Node) (outcomes : List Outcome) : Prop where
  returns : ∀ o ∈ outcomes, ∃ place node, o = .returns place node ∧ nodes[place]? = some node
  once : ∀ j, j + nodes.length ≤ outcomes.length → ∀ place < nodes.length,
    ∃! k, k < nodes.length ∧ ∃ node, outcomes[j + k]? = some (.returns place node)

/-- Of `n` numbers in a row one leaves a given remainder. -/
theorem existsUnique_add_mod {n p : ℕ} (hp : p < n) (a : ℕ) : ∃! k, k < n ∧ (a + k) % n = p := by
  have hlt := Nat.mod_lt a (Nat.zero_lt_of_lt hp)
  have hmod : (a + (p + (n - a % n)) % n) % n = p := by
    have hsum : a + (p + (n - a % n)) = p + n * (a / n + 1) := by
      have hdiv := Nat.div_add_mod a n
      rw [Nat.mul_add]
      omega
    rw [Nat.add_mod_mod, hsum, Nat.add_mul_mod_self_left, Nat.mod_eq_of_lt hp]
  refine ⟨(p + (n - a % n)) % n, ⟨Nat.mod_lt _ (Nat.zero_lt_of_lt hp), hmod⟩, ?_⟩
  rintro k ⟨hk, hk'⟩
  have hequiv : a + k ≡ a + (p + (n - a % n)) % n [MOD n] := hk'.trans hmod.symm
  exact (Nat.ModEq.add_left_cancel' a hequiv).eq_of_lt_of_lt hk (Nat.mod_lt _ (Nat.zero_lt_of_lt hp))

/-- Picks of consecutive natural numbers are fair. -/
theorem fair_served (hpos : 0 < nodes.length) (m n : ℕ) :
    Fair nodes ((List.range n).map fun k => served nodes (m + k)) where
  returns o ho := by
    obtain ⟨k, -, rfl⟩ := List.mem_map.mp ho
    obtain ⟨node, hnode, hserved⟩ := served_eq hpos (m + k)
    exact ⟨_, node, hserved, hnode⟩
  once j hj place hplace := by
    rw [List.length_map, List.length_range] at hj
    obtain ⟨k, ⟨hk, hmod⟩, hunique⟩ := existsUnique_add_mod hplace (m + j)
    have hget : ∀ k < nodes.length, ∃ node,
        ((List.range n).map fun k => served nodes (m + k))[j + k]? =
          some (.returns ((m + j + k) % nodes.length) node) := by
      intro k hk
      obtain ⟨node, -, hserved⟩ := served_eq hpos (m + j + k)
      refine ⟨node, ?_⟩
      rw [List.getElem?_map, List.getElem?_range (by omega), Option.map_some, ← Nat.add_assoc, hserved]
    refine ⟨k, ⟨hk, hmod ▸ hget k hk⟩, fun k' hk' => ?_⟩
    obtain ⟨hlt, node, hnode⟩ := hk'
    obtain ⟨node', hnode'⟩ := hget k' hlt
    refine hunique k' ⟨hlt, ?_⟩
    rw [hnode'] at hnode
    exact (Outcome.returns.inj (Option.some.inj hnode)).1

/-- **Round robin**: `n` calls from the random number `i` are fair exactly if there is one node, or the
counter stays an `int`, or it passes the largest `int` in the last call only and the length divides
`2 ^ 63`. -/
theorem roundRobin_fair_iff (services : List Service) (i : Int64) (n : ℕ) (hnodes : nodesOf services ≠ [])
    (hlen : (nodesOf services).length < 2 ^ 63) (hi : 0 ≤ i) :
    Fair (nodesOf services) ((RoundRobin.start services i).calls n) ↔
      (nodesOf services).length = 1 ∨ i.toInt + n ≤ 2 ^ 63 ∨
        (i.toInt + n = 2 ^ 63 + 1 ∧ (nodesOf services).length ∣ 2 ^ 63) := by
  obtain ⟨m, hm, rfl⟩ : ∃ m < 2 ^ 63, i = Int64.ofNat m :=
    ⟨i.toNatClampNeg, i.toNatClampNeg_lt, (Int64.ofNat_toNatClampNeg i hi).symm⟩
  have hpos : 0 < (nodesOf services).length := List.length_pos_of_ne_nil hnodes
  rw [Int64.toInt_ofNat_of_lt hm, RoundRobin.start]
  generalize nodesOf services = nodes at hpos hlen
  constructor
  · intro hfair
    by_contra hnot
    push Not at hnot
    obtain ⟨hone, hover, hlast⟩ := hnot
    obtain ⟨k, hk, hpanic⟩ : ∃ k < n, ∃ v, pick nodes (Int64.ofNat (m + k)) = .panics v := by
      by_cases hdvd : nodes.length ∣ 2 ^ 63
      · have hne : (m : ℤ) + n ≠ 2 ^ 63 + 1 := fun h => hlast h hdvd
        refine ⟨2 ^ 63 + 1 - m, by omega, ?_⟩
        rw [show m + (2 ^ 63 + 1 - m) = 2 ^ 63 + 1 by omega]
        exact pick_after_wrapped hlen hone hdvd
      · have hwrapped : (Int64.ofNat (2 ^ 63)).toInt = -(2 ^ 63 : ℕ) := by decide
        refine ⟨2 ^ 63 - m, by omega, ?_⟩
        rw [show m + (2 ^ 63 - m) = 2 ^ 63 by omega]
        exact pick_of_neg hlen hwrapped hdvd
    obtain ⟨o, ho, hne⟩ := exists_not_returns hpos hk hpanic
    obtain ⟨place, node, hreturns, -⟩ := hfair.returns o ho
    exact hne place node hreturns
  · intro h
    have hpick : ∀ k < n, pick nodes (Int64.ofNat (m + k)) = served nodes (m + k) := by
      intro k hk
      rcases h with hone | hin | ⟨hlast, hdvd⟩
      · exact pick_of_length_one hone _ _
      · exact pick_of_lt hpos hlen (by omega)
      · by_cases hwrapped : m + k = 2 ^ 63
        · rw [hwrapped]
          exact pick_wrapped hpos hlen hdvd
        · exact pick_of_lt hpos hlen (by omega)
    rw [calls_eq hpos hpick]
    exact fair_served hpos m n

/-! Three nodes in two services. -/

def sampleServices : List Service :=
  [{ name := "test1", version := "latest", nodes := [⟨"a", "10.0.0.1", 1001, none⟩, ⟨"b", "10.0.0.2", 1002, none⟩] },
    { name := "test1", version := "default", nodes := [⟨"c", "10.0.0.3", 1003, none⟩] }]

theorem roundRobin_fair_sample :
    nodesOf sampleServices ≠ [] ∧ (nodesOf sampleServices).length < 2 ^ 63 ∧ (0 : Int64) ≤ 7 ∧
      Fair (nodesOf sampleServices) ((RoundRobin.start sampleServices 7).calls 100) := by
  have hnodes : nodesOf sampleServices ≠ [] := by decide
  have hlen : (nodesOf sampleServices).length < 2 ^ 63 := by decide
  exact ⟨hnodes, hlen, by decide,
    (roundRobin_fair_iff sampleServices 7 100 hnodes hlen (by decide)).mpr (.inr (.inl (by decide)))⟩

/-- The counter starts at the largest `int`: the second call panics and keeps the mutex. -/
theorem roundRobin_not_fair :
    (RoundRobin.start sampleServices Int64.maxValue).calls 3 =
        [.returns 1 ⟨"b", "10.0.0.2", 1002, none⟩,
          .panics (.error "runtime error: index out of range [-2]"), .blocks] ∧
      ¬ Fair (nodesOf sampleServices) ((RoundRobin.start sampleServices Int64.maxValue).calls 3) := by
  have hcalls : (RoundRobin.start sampleServices Int64.maxValue).calls 3 =
      [.returns 1 ⟨"b", "10.0.0.2", 1002, none⟩,
        .panics (.error "runtime error: index out of range [-2]"), .blocks] := by
    decide +kernel
  refine ⟨hcalls, fun hfair => ?_⟩
  obtain ⟨place, node, hreturns, -⟩ := hfair.returns .blocks (by simp [hcalls])
  cases hreturns

end Vmqant.Selection
