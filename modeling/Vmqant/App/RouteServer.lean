import Vmqant.Common.Printf
import Vmqant.Gate.Mqtt.Pack

/-!
# The node that a filter names

Reference: `app/app.go`, lines 305-313, 334-354 and 363-430; `module/base/ServerSession.go`, lines 27-39 and
72-75; `selector/default.go`, lines 30-54; `selector/strategy.go`, lines 16-32.

`GetRouteServer` takes a filter `moduleType` or `moduleType@moduleID`. The second form is the id of a node;
the first one asks the selector for any node of the type. A filter with a second `@` is neither, and goes to
the selector as well. Sessions are pointers: they are numbered as they are made, and `SetNode` changes a
session for all who hold it. The calls of this module come one after another.
-/

namespace Vmqant.App

open Mqtt (GoString)
open Printf (ascii)

/-- `@`. -/
def atSign : UInt8 := '@'.toUInt8

/-- What is read of a `registry.Node`. -/
structure RouteNode where
  id : GoString
  address : GoString

structure RouteService where
  name : GoString
  nodes : List RouteNode

/-- A `serverSession`. -/
structure ServerSession where
  name : GoString
  node : RouteNode

/-- What a call finds: the services of the selector, the filters and the strategy that it selects with, and
the error of `NewRPCClient`, if there is one. -/
structure Surroundings where
  getService : GoString → Except GoString (List RouteService)
  filters : List (List RouteService → List RouteService)
  strategy : List RouteService → Except GoString RouteNode
  newRPCClient : GoString → RouteNode → Option GoString

/-- `selector.ErrNoneAvailable`. -/
def errNoneAvailable : GoString := ascii "none available"

/-- `selector.Random`, with the number that `rand.Int` gives. -/
def random (i : ℕ) (services : List RouteService) : Except GoString RouteNode :=
  let nodes := services.flatMap RouteService.nodes
  match nodes[i % nodes.length]? with
  | none => .error errNoneAvailable
  | some node => .ok node

/-- `Select`, and the function that it returns. -/
def Surroundings.select (env : Surroundings) (service : GoString) : Except GoString RouteNode := do
  let services ← env.getService service
  -- apply the filters
  let services := env.filters.foldl (fun services filter => filter services) services
  if services.length = 0 then .error errNoneAvailable else env.strategy services

/-- The sessions, of which `serverList` holds some by the ids of their nodes. -/
structure RouteState where
  serverList : GoString → Option ℕ
  session : ℕ → ServerSession
  /-- How many sessions were made. -/
  made : ℕ

namespace RouteState

def init : RouteState where
  serverList := fun _ => none
  session := fun _ => ⟨[], ⟨[], []⟩⟩
  made := 0

/-- `SetNode`. -/
def setNode (app : RouteState) (x : ℕ) (node : RouteNode) : RouteState :=
  { app with session := Function.update app.session x { app.session x with node := node } }

/-- `NewServerSession`, and then `Store`. -/
def store (app : RouteState) (serviceName : GoString) (node : RouteNode) : RouteState where
  serverList := Function.update app.serverList node.id (some app.made)
  session := Function.update app.session app.made ⟨serviceName, node⟩
  made := app.made + 1

theorem setNode_session (app : RouteState) (x : ℕ) (node : RouteNode) (y : ℕ) :
    (app.setNode x node).session y = if y = x then { app.session x with node := node } else app.session y :=
  Function.update_apply _ _ _ _

theorem store_serverList (app : RouteState) (serviceName : GoString) (node : RouteNode) (k : GoString) :
    (app.store serviceName node).serverList k = if k = node.id then some app.made else app.serverList k :=
  Function.update_apply _ _ _ _

theorem store_session (app : RouteState) (serviceName : GoString) (node : RouteNode) (x : ℕ) :
    (app.store serviceName node).session x = if x = app.made then ⟨serviceName, node⟩ else app.session x :=
  Function.update_apply _ _ _ _

/-- The session of a node that was looked up. -/
def sessionOf (env : Surroundings) (app : RouteState) (serviceName : GoString) (node : RouteNode) :
    Except GoString ℕ × RouteState :=
  match app.serverList node.id with
  | none =>
    match env.newRPCClient serviceName node with
    | some err => (.error err, app)
    | none => (.ok app.made, app.store serviceName node)
  | some x => (.ok x, app.setNode x node)

def getServerBySelector (env : Surroundings) (app : RouteState) (serviceName : GoString) :
    Except GoString ℕ × RouteState :=
  match env.select serviceName with
  | .error err => (.error err, app)
  | .ok node => app.sessionOf env serviceName node

/-- One round of the loop of `GetServersByType`. -/
def addSession (env : Surroundings) (serviceName : GoString) (acc : List ℕ × RouteState) (node : RouteNode) :
    List ℕ × RouteState :=
  match acc.2.sessionOf env serviceName node with
  | (.error _, app) => (acc.1, app)
  | (.ok x, app) => (acc.1 ++ [x], app)

def getServersByType (env : Surroundings) (app : RouteState) (serviceName : GoString) : List ℕ × RouteState :=
  match env.getService serviceName with
  | .error _ => ([], app)
  | .ok services => (services.flatMap RouteService.nodes).foldl (addSession env serviceName) ([], app)

def getServerByID (env : Surroundings) (app : RouteState) (serverID : GoString) :
    Except GoString ℕ × RouteState :=
  match app.serverList serverID with
  | some x => (.ok x, app)
  | none =>
    match serverID.splitOn atSign with
    | [serviceName, _] =>
      let (sessions, app) := app.getServersByType env serviceName
      match sessions.find? fun x => (app.session x).node.id = serverID with
      | some x => (.ok x, app)
      | none => (.error (ascii "nofound " ++ serverID), app)
    | _ => (.error (ascii "serverID is error " ++ serverID), app)

/-- `GetRouteServer`; `strings.Split` gives one part at least. -/
def getRouteServer (env : Surroundings) (mapRoute : Option (GoString → GoString)) (app : RouteState)
    (filter : GoString) : Except GoString ℕ × RouteState :=
  let filter := match mapRoute with
    | none => filter
    | some mapRoute => mapRoute filter
  let sl := filter.splitOn atSign
  if sl.length = 2 ∧ sl.getD 1 [] ≠ [] then app.getServerByID env filter
  else app.getServerBySelector env (sl.headD [])

/-- `Watcher`: the session of a node that is gone is taken off the list. -/
def watcher (app : RouteState) (id : GoString) : RouteState :=
  { app with serverList := Function.update app.serverList id none }

theorem watcher_serverList (app : RouteState) (id k : GoString) :
    (app.watcher id).serverList k = if k = id then none else app.serverList k :=
  Function.update_apply _ _ _ _

end RouteState

/-- The calls that change the list. -/
inductive RouteOp where
  | getServerByID (serverID : GoString)
  | getServerBySelector (serviceName : GoString)
  | getServersByType (serviceName : GoString)
  | getRouteServer (filter : GoString)
  | watcher (id : GoString)

namespace RouteState

/-- One call, in its surroundings. -/
def step (mapRoute : Option (GoString → GoString)) (app : RouteState) :
    Surroundings × RouteOp → RouteState
  | (env, .getServerByID serverID) => (app.getServerByID env serverID).2
  | (env, .getServerBySelector serviceName) => (app.getServerBySelector env serviceName).2
  | (env, .getServersByType serviceName) => (app.getServersByType env serviceName).2
  | (env, .getRouteServer filter) => (app.getRouteServer env mapRoute filter).2
  | (_, .watcher id) => app.watcher id

/-- The list after a sequence of calls. -/
def after (mapRoute : Option (GoString → GoString)) (ops : List (Surroundings × RouteOp)) : RouteState :=
  ops.foldl (step mapRoute) init

/-! ## The list is kept by id -/

/-- A session in the list was made, and has the id under which it is there. -/
def Keyed (app : RouteState) : Prop :=
  ∀ k x, app.serverList k = some x → x < app.made ∧ (app.session x).node.id = k

/-- What a call that ends with a session does. -/
structure Gives (id : GoString) (r : Except GoString ℕ × RouteState) : Prop where
  keyed : r.2.Keyed
  id_eq : ∀ x, r.1 = .ok x → (r.2.session x).node.id = id

variable {env : Surroundings} {app : RouteState}

theorem keyed_init : init.Keyed := nofun

theorem keyed_watcher (happ : app.Keyed) (id : GoString) : (app.watcher id).Keyed := by
  intro k x hx
  rw [watcher_serverList] at hx
  split at hx
  · cases hx
  · exact happ k x hx

theorem keyed_store (happ : app.Keyed) (serviceName : GoString) (node : RouteNode) :
    (app.store serviceName node).Keyed := by
  intro k x hx
  rw [store_serverList] at hx
  rw [store_session]
  split at hx
  · next hk =>
    obtain rfl := Option.some.inj hx
    rw [if_pos rfl]
    exact ⟨Nat.lt_succ_self _, hk.symm⟩
  · obtain ⟨hlt, hid⟩ := happ k x hx
    rw [if_neg hlt.ne]
    exact ⟨Nat.lt_succ_of_lt hlt, hid⟩

/-- The node that a session gets has the id of the one that it had. -/
theorem keyed_setNode (happ : app.Keyed) {x : ℕ} {node : RouteNode} (hx : app.serverList node.id = some x) :
    (app.setNode x node).Keyed := by
  intro k y hy
  obtain ⟨hlt, hid⟩ := happ k y hy
  refine ⟨hlt, ?_⟩
  rw [setNode_session]
  split
  · next hyx => exact (happ node.id x hx).2.symm.trans (hyx ▸ hid)
  · exact hid

theorem sessionOf_gives (happ : app.Keyed) (serviceName : GoString) (node : RouteNode) :
    Gives node.id (app.sessionOf env serviceName node) := by
  unfold sessionOf
  cases hlist : app.serverList node.id with
  | none =>
    cases env.newRPCClient serviceName node with
    | some err => exact ⟨happ, nofun⟩
    | none =>
      refine ⟨keyed_store happ serviceName node, fun x hx => ?_⟩
      obtain rfl := Except.ok.inj hx
      dsimp only
      rw [store_session, if_pos rfl]
  | some x =>
    refine ⟨keyed_setNode happ hlist, fun x' hx' => ?_⟩
    obtain rfl := Except.ok.inj hx'
    dsimp only
    rw [setNode_session, if_pos rfl]

theorem keyed_getServerBySelector (happ : app.Keyed) (serviceName : GoString) :
    (app.getServerBySelector env serviceName).2.Keyed := by
  unfold getServerBySelector
  cases env.select serviceName with
  | error err => exact happ
  | ok node => exact (sessionOf_gives happ serviceName node).keyed

theorem keyed_getServersByType (happ : app.Keyed) (serviceName : GoString) :
    (app.getServersByType env serviceName).2.Keyed := by
  have hround : ∀ (acc : List ℕ × RouteState) (node : RouteNode), acc.2.Keyed →
      (addSession env serviceName acc node).2.Keyed := by
    intro acc node hacc
    have hnode : (acc.2.sessionOf env serviceName node).2.Keyed :=
      (sessionOf_gives hacc serviceName node).keyed
    unfold addSession
    rcases h : acc.2.sessionOf env serviceName node with ⟨_ | x, app⟩
    · rw [h] at hnode
      exact hnode
    · rw [h] at hnode
      exact hnode
  have hloop : ∀ (nodes : List RouteNode) (acc : List ℕ × RouteState), acc.2.Keyed →
      (nodes.foldl (addSession env serviceName) acc).2.Keyed := by
    intro nodes
    induction nodes with
    | nil => exact fun _ => id
    | cons node nodes ih => exact fun acc hacc => ih _ (hround acc node hacc)
  unfold getServersByType
  cases env.getService serviceName with
  | error err => exact happ
  | ok services => exact hloop _ ([], app) happ

/-- `GetServerByID` does not give a session with another id. -/
theorem getServerByID_gives (happ : app.Keyed) (serverID : GoString) :
    Gives serverID (app.getServerByID env serverID) := by
  unfold getServerByID
  cases hlist : app.serverList serverID with
  | some x =>
    refine ⟨happ, fun x' hx' => ?_⟩
    obtain rfl := Except.ok.inj hx'
    exact (happ serverID x hlist).2
  | none =>
    dsimp only
    split
    · next serviceName _ _ =>
      have htype : (app.getServersByType env serviceName).2.Keyed := keyed_getServersByType happ serviceName
      split
      · next x hx =>
        refine ⟨htype, fun x' hx' => ?_⟩
        obtain rfl := Except.ok.inj hx'
        have hid := List.find?_some hx
        exact of_decide_eq_true hid
      · exact ⟨htype, nofun⟩
    · exact ⟨happ, nofun⟩

theorem keyed_getRouteServer (happ : app.Keyed) (mapRoute : Option (GoString → GoString))
    (filter : GoString) : (app.getRouteServer env mapRoute filter).2.Keyed := by
  have hfilter : ∀ filter, (app.getRouteServer env none filter).2.Keyed := by
    intro filter
    unfold getRouteServer
    dsimp only
    split
    · exact (getServerByID_gives happ filter).keyed
    · exact keyed_getServerBySelector happ _
  cases mapRoute with
  | none => exact hfilter filter
  | some mapRoute => exact hfilter (mapRoute filter)

/-- One call keeps the list, and so does every sequence of calls. -/
theorem keyed_step (happ : app.Keyed) (mapRoute : Option (GoString → GoString))
    (op : Surroundings × RouteOp) : (app.step mapRoute op).Keyed := by
  obtain ⟨env, op⟩ := op
  cases op with
  | getServerByID serverID => exact (getServerByID_gives happ serverID).keyed
  | getServerBySelector serviceName => exact keyed_getServerBySelector happ serviceName
  | getServersByType serviceName => exact keyed_getServersByType happ serviceName
  | getRouteServer filter => exact keyed_getRouteServer happ mapRoute filter
  | watcher id => exact keyed_watcher happ id

theorem keyed_after (mapRoute : Option (GoString → GoString)) (ops : List (Surroundings × RouteOp)) :
    (after mapRoute ops).Keyed := by
  unfold after
  induction ops using List.reverseRecOn with
  | nil => exact keyed_init
  | append_singleton ops op ih =>
    rw [List.foldl_concat]
    exact keyed_step ih mapRoute op

/-! ## Filters with an id -/

section Filter

variable {moduleType moduleID : GoString}

/-- The filter `moduleType@moduleID`. -/
def nodeFilter (moduleType moduleID : GoString) : GoString := moduleType ++ atSign :: moduleID

theorem splitOn_nodeFilter (htype : atSign ∉ moduleType) (moduleID : GoString) :
    (nodeFilter moduleType moduleID).splitOn atSign = moduleType :: moduleID.splitOn atSign :=
  List.splitOn_append_cons_self_of_not_mem htype _

/-- A second `@` makes a third part. -/
theorem length_splitOn_eq_one_iff : (moduleID.splitOn atSign).length = 1 ↔ atSign ∉ moduleID := by
  constructor
  · intro hlen hmem
    obtain ⟨s, t, rfl⟩ := List.append_of_mem hmem
    rw [List.splitOn_append_cons_self, List.length_append] at hlen
    have hs := List.length_pos_of_ne_nil (List.splitOn_ne_nil atSign s)
    have ht := List.length_pos_of_ne_nil (List.splitOn_ne_nil atSign t)
    omega
  · intro hmem
    rw [List.splitOn_eq_singleton hmem]
    rfl

theorem getRouteServer_of_not_mem (htype : atSign ∉ moduleType) (hid : moduleID ≠ [])
    (hone : atSign ∉ moduleID) :
    app.getRouteServer env none (nodeFilter moduleType moduleID)
      = app.getServerByID env (nodeFilter moduleType moduleID) := by
  unfold getRouteServer
  dsimp only
  rw [splitOn_nodeFilter htype, List.splitOn_eq_singleton hone]
  exact if_pos ⟨rfl, hid⟩

/-- The rest of the filter is not looked at. -/
theorem getRouteServer_of_mem (htype : atSign ∉ moduleType) (hmore : atSign ∈ moduleID) :
    app.getRouteServer env none (nodeFilter moduleType moduleID)
      = app.getServerBySelector env moduleType := by
  unfold getRouteServer
  dsimp only
  rw [splitOn_nodeFilter htype, if_neg]
  · rfl
  · rintro ⟨hlen, -⟩
    exact length_splitOn_eq_one_iff.mp (Nat.succ.inj hlen) hmore

/-- A registry with one node of the type, whose id is `moduleType@0`. -/
def oneNode (moduleType : GoString) : Surroundings where
  getService _ := .ok [⟨moduleType, [⟨nodeFilter moduleType (ascii "0"), ascii "nats"⟩]⟩]
  filters := []
  strategy := random 0
  newRPCClient _ _ := none

theorem getServerBySelector_oneNode (moduleType : GoString) :
    init.getServerBySelector (oneNode moduleType) moduleType
      = (.ok init.made, init.store moduleType ⟨nodeFilter moduleType (ascii "0"), ascii "nats"⟩) := rfl

/-- A filter that names a node is answered by an error or by a session of that node, after any sequence of
calls and in any surroundings, if and only if it has no second `@`. -/
theorem getRouteServer_exact_iff (htype : atSign ∉ moduleType) (hid : moduleID ≠ []) :
    (∀ ops env x app,
        (after none ops).getRouteServer env none (nodeFilter moduleType moduleID) = (.ok x, app) →
          (app.session x).node.id = nodeFilter moduleType moduleID)
      ↔ atSign ∉ moduleID := by
  constructor
  · intro h hmore
    have hcall : init.getRouteServer (oneNode moduleType) none (nodeFilter moduleType moduleID) = _ :=
      (getRouteServer_of_mem htype hmore).trans (getServerBySelector_oneNode moduleType)
    have hother := h [] (oneNode moduleType) _ _ hcall
    rw [store_session, if_pos rfl] at hother
    have hzero : ascii "0" = moduleID := (List.cons.inj (List.append_cancel_left hother)).2
    rw [← hzero] at hmore
    exact absurd hmore (by decide)
  · intro hone ops env x app hcall
    have hgives : Gives (nodeFilter moduleType moduleID)
        ((after none ops).getServerByID env (nodeFilter moduleType moduleID)) :=
      getServerByID_gives (keyed_after none ops) _
    rw [← getRouteServer_of_not_mem htype hid hone, hcall] at hgives
    exact hgives.id_eq x rfl

/-- The filter `chat@1`. -/
theorem getRouteServer_exact_iff_sample :
    (∀ ops env x app,
        (after none ops).getRouteServer env none (nodeFilter (ascii "chat") (ascii "1")) = (.ok x, app) →
          (app.session x).node.id = nodeFilter (ascii "chat") (ascii "1"))
      ↔ atSign ∉ ascii "1" :=
  getRouteServer_exact_iff (by decide) (by decide)

/-- The filter `chat@1@2` is answered with a session of `chat@0`. -/
theorem getRouteServer_twoSigns :
    ∃ app, init.getRouteServer (oneNode (ascii "chat")) none (ascii "chat@1@2") = (.ok 0, app) ∧
      (app.session 0).node.id = ascii "chat@0" :=
  ⟨_, rfl, rfl⟩

end Filter

end RouteState

end Vmqant.App
