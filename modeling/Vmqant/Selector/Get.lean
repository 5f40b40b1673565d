import Vmqant.Selector.Cache

/-!
# Look-ups in the caching selector

Reference: `selector/cache/cache.go`, lines 42-76 and 83-145.

`get` reads the clock twice: when it looks at the entry, and when `set` stores the answer of the
registry. What `get` and `update` write to the two maps is a `Write`, so the calls of `set` in a run
can be followed.
-/

namespace Vmqant.Selector

open Registry

/-- An error of `Registry.GetService`; `notFound` is `registry.ErrNotFound`. -/
inductive RegistryError where
  | notFound
  | other (text : String)
deriving DecidableEq

/-- An error of `get`: the registry's own, or `selector.ErrNotFound`. -/
inductive GetError where
  | registry (err : RegistryError)
  | notFound
deriving DecidableEq

/-- The selector with the services it watches. -/
structure WatchingSelector extends CacheSelector where
  watched : String → Bool

/-- `cp`: a copy of each service, with copies of its nodes and endpoints. -/
def cp (current : List Service) : List Service :=
  current.map fun service =>
    { service with
      nodes := service.nodes.map fun node => { node with }
      endpoints := service.endpoints.map fun ep => { ep with } }

@[simp] theorem cp_eq (current : List Service) : cp current = current := by
  simp [cp]

/-- What a call of `get` leads to. -/
structure Got where
  services : Except GetError (List Service)
  /-- The registry was asked. -/
  asked : Bool
  /-- A watcher was started for the service. -/
  run : Bool
  selector : WatchingSelector

namespace WatchingSelector

/-- The local function `get`: the answer of the registry, which is cached at the time `answered`. -/
def ask (c : WatchingSelector) (answered : ℤ) (service : String)
    (registry : Except RegistryError (List Service)) :
    Except RegistryError (List Service) × WatchingSelector :=
  match registry with
  | .error err => (.error err, c)
  | .ok services =>
    (.ok services, { c with toCacheSelector := c.toCacheSelector.set answered service (cp services) })

/-- The expired entry: `services` is assigned by the second look-up, so the last resort is a copy of
what that look-up gave along with its error, which is `nil`. -/
def renew (c : WatchingSelector) (answered : ℤ) (service : String)
    (registry : Except RegistryError (List Service)) :
    Except GetError (List Service) × WatchingSelector :=
  match c.ask answered service registry with
  | (.ok services, c) => (.ok services, c)
  | (.error .notFound, c) => (.error .notFound, c)
  | (.error (.other _), c) => (.ok (cp []), c)

/-- `get`; `registry` is what `Registry.GetService(service)` returns if it is called. -/
def get (c : WatchingSelector) (now answered : ℤ) (service : String)
    (registry : Except RegistryError (List Service)) : Got :=
  let run := !c.watched service
  let c := { c with watched := Function.update c.watched service true }
  -- cache miss or no services
  let miss : Got :=
    let (services, c) := c.ask answered service registry
    ⟨services.mapError .registry, true, run, c⟩
  let expired : Got :=
    let (services, c) := c.renew answered service registry
    ⟨services, true, run, c⟩
  match c.cache service with
  | none => miss
  | some services =>
    if services.length = 0 then miss
    else
      match c.ttls service with
      | none => expired
      | some ttl => if now - ttl < c.ttl then ⟨.ok (cp services), false, run, c⟩ else expired

end WatchingSelector

/-! ## What the calls write -/

/-- What a call does to the maps of the selector. -/
inductive Write where
  | keep
  | del (service : String)
  | set (service : String) (services : List Service)

/-- Do it. -/
def Write.apply (c : CacheSelector) (now : ℤ) : Write → CacheSelector
  | .keep => c
  | .del service => c.del service
  | .set service services => c.set now service services

/-- The write of the local function `get`. -/
def askWrite (service : String) : Except RegistryError (List Service) → Write
  | .error _ => .keep
  | .ok services => .set service services

/-- The write of `get`: the answer of the registry, if it was asked and gave one. -/
def Got.write (got : Got) (service : String) (registry : Except RegistryError (List Service)) :
    Write :=
  if got.asked then askWrite service registry else .keep

theorem ask_write (c : WatchingSelector) (answered : ℤ) (service : String)
    (registry : Except RegistryError (List Service)) :
    (c.ask answered service registry).2.toCacheSelector
      = (askWrite service registry).apply c.toCacheSelector answered := by
  cases registry with
  | error err => rfl
  | ok services => simp only [WatchingSelector.ask, askWrite, Write.apply, cp_eq]

theorem renew_selector (c : WatchingSelector) (answered : ℤ) (service : String)
    (registry : Except RegistryError (List Service)) :
    (c.renew answered service registry).2 = (c.ask answered service registry).2 := by
  rcases registry with ( _ | text) | services <;> rfl

/-- `get` makes exactly the write `Got.write`. -/
theorem get_write (c : WatchingSelector) (now answered : ℤ) (service : String)
    (registry : Except RegistryError (List Service)) :
    (c.get now answered service registry).selector.toCacheSelector
      = ((c.get now answered service registry).write service registry).apply
          c.toCacheSelector answered := by
  unfold WatchingSelector.get
  dsimp only
  cases c.cache service with
  | none => exact ask_write ..
  | some services =>
    dsimp only
    by_cases hempty : services.length = 0
    · rw [if_pos hempty]
      exact ask_write ..
    · rw [if_neg hempty]
      cases c.ttls service with
      | none => exact (congrArg _ (renew_selector ..)).trans (ask_write ..)
      | some ttl =>
        dsimp only
        by_cases hlt : now - ttl < c.ttl
        · rw [if_pos hlt]
          rfl
        · rw [if_neg hlt]
          exact (congrArg _ (renew_selector ..)).trans (ask_write ..)

/-- Without asking, `get` answers with a non-empty entry whose stored time is less than `ttl` ago. -/
theorem get_asked_eq_false_iff (c : WatchingSelector) (now answered : ℤ) (service : String)
    (registry : Except RegistryError (List Service)) :
    (c.get now answered service registry).asked = false ↔
      ∃ services ttl, c.cache service = some services ∧ services ≠ [] ∧
        c.ttls service = some ttl ∧ now - ttl < c.ttl := by
  unfold WatchingSelector.get
  dsimp only
  cases hcache : c.cache service with
  | none => simp
  | some services =>
    cases services with
    | nil => simp
    | cons first rest =>
      cases httl : c.ttls service with
      | none => simp
      | some ttl =>
        by_cases hlt : now - ttl < c.ttl
        · simp [hlt]
        · simp [hlt]

/-- The write of `case "create", "update"`. -/
def updateNodesWrite (services : List Service) (res : Service) : Write :=
  match findVersion res.version services with
  | none => .set res.name (services ++ [res])
  | some (index, service) =>
    .set res.name (services.set index { res with nodes := appendOld res.nodes service.nodes })

/-- The write of `case "delete"`. -/
def deleteNodesWrite (services : List Service) (res : Service) : Write :=
  match findVersion res.version services with
  | none => .keep
  | some (index, service) =>
    let nodes := service.nodes.filter fun cur => !seen res.nodes cur
    if nodes.length > 0 then .set service.name (services.set index { service with nodes })
    else if services.length = 1 then .del service.name
    else .set service.name (services.filter fun s => s.version ≠ service.version)

/-- The write of `update`. -/
def updateWrite (c : CacheSelector) : Option Result → Write
  | none => .keep
  | some res =>
    match c.cache res.service.name with
    | none => .keep
    | some services =>
      if res.service.nodes.length = 0 then
        match res.action with
        | .delete => .del res.service.name
        | _ => .keep
      else
        match res.action with
        | .create | .update => updateNodesWrite services res.service
        | .delete => deleteNodesWrite services res.service
        | .other _ => .keep

theorem updateNodes_write (c : CacheSelector) (now : ℤ) (services : List Service) (res : Service) :
    updateNodes c now services res = (updateNodesWrite services res).apply c now := by
  unfold updateNodes updateNodesWrite
  cases findVersion res.version services with
  | none => rfl
  | some found => rfl

theorem deleteNodes_write (c : CacheSelector) (now : ℤ) (services : List Service) (res : Service) :
    (deleteNodes c now services res).1 = (deleteNodesWrite services res).apply c now := by
  unfold deleteNodes deleteNodesWrite
  cases findVersion res.version services with
  | none => rfl
  | some found =>
    dsimp only
    split
    · rfl
    · split
      · rfl
      · rfl

/-- `update` makes exactly the write `updateWrite`. -/
theorem update_write (c : CacheSelector) (now : ℤ) (res : Option Result) :
    (update c now res).1 = (updateWrite c res).apply c now := by
  cases res with
  | none => rfl
  | some res =>
    unfold update updateWrite
    dsimp only
    cases c.cache res.service.name with
    | none => rfl
    | some services =>
      dsimp only
      by_cases hnodes : res.service.nodes.length = 0
      · rw [if_pos hnodes, if_pos hnodes]
        cases res.action <;> rfl
      · rw [if_neg hnodes, if_neg hnodes]
        cases res.action with
        | create => exact updateNodes_write c now services res.service
        | update => exact updateNodes_write c now services res.service
        | delete => exact deleteNodes_write c now services res.service
        | other text => rfl

end Vmqant.Selector
