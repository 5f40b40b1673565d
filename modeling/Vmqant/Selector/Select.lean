import Vmqant.Selector.Get
import Vmqant.Selector.Strategy

/-!
# Selection with filters

Reference: `selector/filter.go`, lines 8-72; `selector/cache/cache.go`, lines 350-378; `selector/strategy.go`,
lines 16-56.

Two filters keep whole services, and the third keeps nodes and leaves out a service that has none left.
`Select` looks at the services that are left, and the function that it returns at their nodes.
-/

namespace Vmqant.Selection

/-! ## The filters -/

/-- `FilterEndpoint`. -/
def filterEndpoint (name : String) (old : List Service) : List Service :=
  old.filter fun service => service.endpoints.any fun ep => ep.name = name

/-- The test of `FilterLabel`; a key that is missing is read as the empty string. -/
def hasLabel (key val : String) (node : Node) : Bool :=
  match node.metadata with
  | none => false
  | some metadata => (metadata.lookup key).getD "" = val

/-- `FilterLabel`. -/
def filterLabel (key val : String) (old : List Service) : List Service :=
  old.filterMap fun service =>
    let nodes := service.nodes.filter (hasLabel key val)
    if nodes.length > 0 then some { service with nodes := nodes } else none

/-- `FilterVersion`. -/
def filterVersion (version : String) (old : List Service) : List Service :=
  old.filter fun service => service.version = version

/-- A filter of one of the three functions. -/
inductive Filter where
  | endpoint (name : String)
  | label (key val : String)
  | version (version : String)

namespace Filter

def apply : Filter → List Service → List Service
  | .endpoint name => filterEndpoint name
  | .label key val => filterLabel key val
  | .version v => filterVersion v

/-- What a filter asks of a node of a service. -/
def Satisfies (service : Service) (node : Node) : Filter → Prop
  | .endpoint name => ∃ ep ∈ service.endpoints, ep.name = name
  | .label key val => hasLabel key val node
  | .version v => service.version = v

end Filter

/-! ## Select -/

inductive Strategy where
  | random
  | roundRobin

/-- The function that a strategy returns, with its variables. -/
inductive Next where
  | random (nodes : List Node)
  | roundRobin (s : RoundRobin)

/-- `rand` is what `rand.Int()` returns. -/
def Strategy.start (services : List Service) (rand : Int64) : Strategy → Next
  | random => .random (nodesOf services)
  | roundRobin => .roundRobin (RoundRobin.start services rand)

namespace Next

def call (rand : Int64) : Next → Outcome × Next
  | random nodes => (if nodes.length = 0 then .noneAvailable else pick nodes rand, random nodes)
  | roundRobin s => (s.call.1, roundRobin s.call.2)

def calls : List Int64 → Next → List Outcome
  | [], _ => []
  | rand :: rands, next => (next.call rand).1 :: calls rands (next.call rand).2

end Next

inductive SelectError where
  | get (err : Selector.GetError)
  | noneAvailable

/-- The loop over the filters. -/
def applyAll (filters : List Filter) (services : List Service) : List Service :=
  filters.foldl (fun services filter => filter.apply services) services

/-- `Select`; `services` is what `get` returns. -/
def select (strategy : Strategy) (filters : List Filter) (rand : Int64)
    (services : Except Selector.GetError (List Service)) : Except SelectError Next :=
  match services with
  | .error err => .error (.get err)
  | .ok services =>
    let services := applyAll filters services
    if services.length = 0 then .error .noneAvailable else .ok (strategy.start services rand)

/-! ## What the filters leave -/

variable {services : List Service} {node : Node}

/-- A property of services and nodes that does not look at the nodes of the service. -/
def Ignores (Q : Service → Node → Prop) : Prop :=
  ∀ service nodes node, Q { service with nodes := nodes } node ↔ Q service node

theorem ignores_satisfies (filter : Filter) : Ignores fun service node => filter.Satisfies service node := by
  intro service nodes node
  cases filter <;> exact Iff.rfl

/-- Some service has the node, and `Q` holds of them. -/
def Has (services : List Service) (Q : Service → Node → Prop) (node : Node) : Prop :=
  ∃ service ∈ services, node ∈ service.nodes ∧ Q service node

theorem has_filter (p : Service → Bool) (Q : Service → Node → Prop) :
    Has (services.filter p) Q node ↔
      Has services (fun service node => p service = true ∧ Q service node) node := by
  refine exists_congr fun service => ?_
  rw [List.mem_filter]
  tauto

/-- A service that `FilterLabel` leaves is one of those before, with fewer nodes. -/
theorem has_filterLabel (key val : String) {Q : Service → Node → Prop} (hQ : Ignores Q) :
    Has (filterLabel key val services) Q node ↔
      Has services (fun service node => hasLabel key val node ∧ Q service node) node := by
  constructor
  · rintro ⟨service, hservice, hnode, hholds⟩
    obtain ⟨old, hold, hkept⟩ := List.mem_filterMap.mp hservice
    dsimp only at hkept
    split at hkept
    · obtain rfl := Option.some.inj hkept
      obtain ⟨hmem, hlabel⟩ := List.mem_filter.mp hnode
      exact ⟨old, hold, hmem, hlabel, (hQ old _ node).mp hholds⟩
    · cases hkept
  · rintro ⟨old, hold, hmem, hlabel, hholds⟩
    have hnode : node ∈ old.nodes.filter (hasLabel key val) := List.mem_filter.mpr ⟨hmem, hlabel⟩
    refine ⟨{ old with nodes := old.nodes.filter (hasLabel key val) }, ?_, hnode, (hQ old _ node).mpr hholds⟩
    exact List.mem_filterMap.mpr ⟨old, hold, if_pos (List.length_pos_of_mem hnode)⟩

/-- One filter leaves the nodes that satisfy it. -/
theorem has_apply (filter : Filter) {Q : Service → Node → Prop} (hQ : Ignores Q) :
    Has (filter.apply services) Q node ↔
      Has services (fun service node => filter.Satisfies service node ∧ Q service node) node := by
  cases filter with
  | endpoint name =>
    show Has (services.filter _) Q node ↔ _
    rw [has_filter]
    simp only [List.any_eq_true, decide_eq_true_eq, Filter.Satisfies]
  | label key val => exact has_filterLabel key val hQ
  | version v =>
    show Has (services.filter _) Q node ↔ _
    rw [has_filter]
    simp only [decide_eq_true_eq, Filter.Satisfies]

/-- All filters leave the nodes that satisfy each of them. -/
theorem has_applyAll (filters : List Filter) {Q : Service → Node → Prop} (hQ : Ignores Q) :
    Has (applyAll filters services) Q node ↔
      Has services (fun service node => (∀ filter ∈ filters, filter.Satisfies service node) ∧ Q service node)
        node := by
  induction filters generalizing services with
  | nil => simp [applyAll, Has]
  | cons filter filters ih =>
    have hrest : Ignores fun service node =>
        (∀ filter ∈ filters, filter.Satisfies service node) ∧ Q service node := fun service nodes node =>
      and_congr (forall₂_congr fun filter _ => ignores_satisfies filter service nodes node)
        (hQ service nodes node)
    show Has (applyAll filters (filter.apply services)) Q node ↔ _
    rw [ih, has_apply filter hrest]
    simp only [Has, List.forall_mem_cons, and_assoc]

theorem mem_nodesOf : node ∈ nodesOf services ↔ Has services (fun _ _ => True) node := by
  rw [nodesOf, List.mem_flatMap]
  simp only [Has, and_true]

theorem nodesOf_filterLabel_sublist (key val : String) (services : List Service) :
    (nodesOf (filterLabel key val services)).Sublist (nodesOf services) := by
  induction services with
  | nil => exact List.Sublist.slnil
  | cons service services ih =>
    have hfew : (service.nodes.filter (hasLabel key val)).Sublist service.nodes := List.filter_sublist
    unfold filterLabel
    rw [List.filterMap_cons]
    dsimp only
    split
    · next hnone => exact ih.trans (List.sublist_append_right service.nodes _)
    · next kept hkept =>
      split at hkept
      · obtain rfl := Option.some.inj hkept
        exact hfew.append ih
      · cases hkept

theorem nodesOf_apply_sublist (filter : Filter) (services : List Service) :
    (nodesOf (filter.apply services)).Sublist (nodesOf services) := by
  cases filter with
  | endpoint name => exact List.filter_sublist.flatMap _
  | label key val => exact nodesOf_filterLabel_sublist key val services
  | version v => exact List.filter_sublist.flatMap _

theorem length_nodesOf_applyAll (filters : List Filter) (services : List Service) :
    (nodesOf (applyAll filters services)).length ≤ (nodesOf services).length := by
  induction filters generalizing services with
  | nil => exact le_rfl
  | cons filter filters ih => exact (ih _).trans (nodesOf_apply_sublist filter services).length_le

/-! ## What the calls yield -/

namespace Next

/-- The slice of the nodes. -/
def nodes : Next → List Node
  | .random nodes => nodes
  | .roundRobin s => s.nodes

variable {next : Next} {rand : Int64} {place : ℕ}

theorem mem_of_pick {nodes : List Node} {i : Int64} (h : pick nodes i = .returns place node) :
    node ∈ nodes := by
  unfold pick at h
  split at h
  · next hnode =>
    obtain rfl := (Outcome.returns.inj h).2
    exact GoInt.mem_of_atInt hnode
  · cases h

/-- A call of the function of `RoundRobin` picks, or it has no node. -/
theorem roundRobin_call (s : RoundRobin) :
    s.call.2.nodes = s.nodes ∧ ∀ {place node}, s.call.1 = .returns place node → node ∈ s.nodes := by
  unfold RoundRobin.call
  split
  · exact ⟨rfl, nofun⟩
  split
  · exact ⟨rfl, nofun⟩
  split
  · next hpick =>
    refine ⟨rfl, fun h => ?_⟩
    obtain ⟨rfl, rfl⟩ := Outcome.returns.inj h
    exact mem_of_pick hpick
  · exact ⟨rfl, fun h => mem_of_pick h⟩

theorem nodes_call (next : Next) (rand : Int64) : (next.call rand).2.nodes = next.nodes := by
  cases next with
  | random nodes => rfl
  | roundRobin s => exact (roundRobin_call s).1

/-- A call returns one of the nodes. -/
theorem mem_of_call (h : (next.call rand).1 = .returns place node) : node ∈ next.nodes := by
  cases next with
  | random nodes =>
    unfold call at h
    dsimp only at h
    split at h
    · cases h
    · exact mem_of_pick h
  | roundRobin s => exact (roundRobin_call s).2 h

theorem mem_of_calls {rands : List Int64} (h : .returns place node ∈ next.calls rands) :
    node ∈ next.nodes := by
  induction rands generalizing next with
  | nil => cases h
  | cons rand rands ih =>
    rcases List.mem_cons.mp h with hfirst | hrest
    · exact mem_of_call hfirst.symm
    · have hmem := ih hrest
      rwa [nodes_call] at hmem

end Next

theorem nodes_start (strategy : Strategy) (services : List Service) (rand : Int64) :
    (strategy.start services rand).nodes = nodesOf services := by
  cases strategy <;> rfl

theorem call_start_of_nil (strategy : Strategy) (hnil : nodesOf services = []) (rand rand' : Int64) :
    ((strategy.start services rand).call rand').1 = .noneAvailable := by
  cases strategy with
  | random => simp [Strategy.start, Next.call, hnil]
  | roundRobin => simp [Strategy.start, Next.call, RoundRobin.start, RoundRobin.call, hnil]

/-- Where there are nodes, the first call picks. -/
theorem call_start (strategy : Strategy) (hpos : 0 < (nodesOf services).length) (rand rand' : Int64) :
    ((strategy.start services rand).call rand').1 =
      pick (nodesOf services) (match strategy with | .random => rand' | .roundRobin => rand) := by
  have hne : (nodesOf services).length ≠ 0 := Nat.ne_of_gt hpos
  cases strategy with
  | random => exact if_neg hne
  | roundRobin =>
    rcases pick_cases (nodesOf services) rand with ⟨place, node, hpick⟩ | ⟨v, hpick⟩
    · exact (congrArg Prod.fst (call_of_returns hpos hpick)).trans hpick.symm
    · exact (congrArg Prod.fst (call_of_panics hpos hpick)).trans hpick.symm

/-- The first call may return any node. -/
theorem call_start_of_mem (strategy : Strategy) (hlen : (nodesOf services).length < 2 ^ 63)
    (hnode : node ∈ nodesOf services) :
    ∃ rand : Int64, 0 ≤ rand ∧ ∃ place, ((strategy.start services rand).call rand).1 = .returns place node := by
  obtain ⟨place, hplace, rfl⟩ := List.getElem_of_mem hnode
  have hpos : 0 < (nodesOf services).length := by omega
  have hnat : GoInt.IsNat (Int64.ofNat place) place := Int64.toInt_ofNat_of_lt (by omega)
  refine ⟨Int64.ofNat place, (GoInt.isNat_zero.le_iff hnat).mpr (Nat.zero_le place), place, ?_⟩
  rw [call_start strategy hpos]
  have hpick : pick (nodesOf services) (Int64.ofNat place) = .returns place (nodesOf services)[place] := by
    rw [pick_of_lt hpos hlen (by omega), served, Nat.mod_eq_of_lt hplace, List.getElem?_eq_getElem hplace]
  cases strategy <;> exact hpick

/-! ## The selection -/

/-- `Select` and some calls of what it returns yield the node, for some random numbers. -/
def Yields (strategy : Strategy) (filters : List Filter) (services : List Service) (node : Node) : Prop :=
  ∃ rand : Int64, 0 ≤ rand ∧ ∃ next, select strategy filters rand (.ok services) = .ok next ∧
    ∃ rands : List Int64, (∀ r ∈ rands, 0 ≤ r) ∧ ∃ place, .returns place node ∈ next.calls rands

/-- `Select` or the first call fails with `ErrNoneAvailable`. -/
def NoneAvailable (strategy : Strategy) (filters : List Filter) (services : List Service)
    (rand rand' : Int64) : Prop :=
  match select strategy filters rand (.ok services) with
  | .error err => err = .noneAvailable
  | .ok next => (next.call rand').1 = .noneAvailable

/-- Some service has the node, and they satisfy every filter. -/
def Offers (filters : List Filter) (services : List Service) (node : Node) : Prop :=
  Has services (fun service node => ∀ filter ∈ filters, filter.Satisfies service node) node

variable {strategy : Strategy} {filters : List Filter}

theorem mem_nodesOf_applyAll :
    node ∈ nodesOf (applyAll filters services) ↔ Offers filters services node := by
  have hall : Has (applyAll filters services) (fun _ _ => True) node ↔ _ :=
    has_applyAll filters fun _ _ _ => Iff.rfl
  rw [mem_nodesOf, hall]
  simp only [and_true]
  rfl

/-- Without services there is an error, else the strategy starts with those that are left. -/
theorem select_cases (strategy : Strategy) (filters : List Filter) (services : List Service) (rand : Int64) :
    (applyAll filters services = [] ∧ select strategy filters rand (.ok services) = .error .noneAvailable) ∨
      select strategy filters rand (.ok services) = .ok (strategy.start (applyAll filters services) rand) := by
  unfold select
  dsimp only
  split
  · next hlength => exact .inl ⟨List.length_eq_zero_iff.mp hlength, rfl⟩
  · exact .inr rfl

theorem yields_iff (hlen : (nodesOf services).length < 2 ^ 63) :
    Yields strategy filters services node ↔ Offers filters services node := by
  have hlen' : (nodesOf (applyAll filters services)).length < 2 ^ 63 :=
    (length_nodesOf_applyAll filters services).trans_lt hlen
  rw [← mem_nodesOf_applyAll]
  constructor
  · rintro ⟨rand, -, next, hselect, rands, -, place, hmem⟩
    rcases select_cases strategy filters services rand with ⟨-, hnone⟩ | hsome
    · rw [hnone] at hselect
      cases hselect
    · obtain rfl := Except.ok.inj (hsome.symm.trans hselect)
      rw [← nodes_start strategy (applyAll filters services) rand]
      exact Next.mem_of_calls hmem
  · intro hnode
    obtain ⟨rand, hrand, place, hcall⟩ := call_start_of_mem strategy hlen' hnode
    refine ⟨rand, hrand, strategy.start (applyAll filters services) rand, ?_, [rand], ?_, place, ?_⟩
    · rcases select_cases strategy filters services rand with ⟨hnil, -⟩ | hsome
      · rw [hnil] at hnode
        cases hnode
      · exact hsome
    · simpa using hrand
    · exact List.mem_singleton.mpr hcall.symm

theorem noneAvailable_iff (rand rand' : Int64) :
    NoneAvailable strategy filters services rand rand' ↔ ∀ node, ¬ Offers filters services node := by
  have hempty : (∀ node, ¬ Offers filters services node) ↔ nodesOf (applyAll filters services) = [] := by
    rw [List.eq_nil_iff_forall_not_mem]
    exact forall_congr' fun node => not_congr mem_nodesOf_applyAll.symm
  rw [hempty]
  unfold NoneAvailable
  rcases select_cases strategy filters services rand with ⟨hnil, hnone⟩ | hsome
  · rw [hnone, hnil]
    exact iff_of_true rfl rfl
  · rw [hsome]
    show ((strategy.start (applyAll filters services) rand).call rand').1 = .noneAvailable ↔ _
    constructor
    · intro hcall
      by_contra hne
      rw [call_start strategy (List.length_pos_of_ne_nil hne)] at hcall
      exact pick_ne_noneAvailable _ _ hcall
    · intro hnil
      exact call_start_of_nil strategy hnil rand rand'

/-- What a selection may yield are the nodes that the services have for the filters, and it fails if there are
none. -/
structure Honours (strategy : Strategy) (filters : List Filter) (services : List Service) : Prop where
  yields : {node | Yields strategy filters services node} = {node | Offers filters services node}
  order : ∀ filters', (∀ filter, filter ∈ filters' ↔ filter ∈ filters) →
    {node | Yields strategy filters' services node} = {node | Yields strategy filters services node}
  none : ∀ rand rand' : Int64, 0 ≤ rand → 0 ≤ rand' →
    (NoneAvailable strategy filters services rand rand' ↔ {node | Offers filters services node} = ∅)

end Vmqant.Selection
