import Vmqant.Registry.Service

/-!
# The caching selector

Reference: `selector/cache/cache.go`, lines 78-81 and 142-257.

The cache and its expiry times are maps from service names. `update` runs under the lock, so one call
is one step; it also gives the nodes for which the watcher of the options is called.
-/

namespace Vmqant.Selector

open Registry

/-- The part of `cacheSelector` that `update` works on. Times and durations are in nanoseconds. -/
structure CacheSelector where
  cache : String → Option (List Service)
  ttls : String → Option ℤ
  ttl : ℤ
  /-- `Options().Watcher` is not `nil`. -/
  watcher : Bool

namespace CacheSelector

def del (c : CacheSelector) (service : String) : CacheSelector :=
  { c with
    cache := Function.update c.cache service none
    ttls := Function.update c.ttls service none }

def set (c : CacheSelector) (now : ℤ) (service : String) (services : List Service) :
    CacheSelector :=
  { c with
    cache := Function.update c.cache service (some services)
    ttls := Function.update c.ttls service (some (now + c.ttl)) }

end CacheSelector

/-- The search for the version: the loop does not stop at a match, so the last one wins. -/
def findVersion (version : String) (services : List Service) : Option (ℕ × Service) :=
  services.zipIdx.foldl
    (fun found p => if p.1.version = version then some (p.2, p.1) else found) none

/-- Append the old nodes to those of the new service. The nodes appended before are looked at, too. -/
def appendOld (nodes old : List Node) : List Node :=
  old.foldl (fun nodes cur => if seen nodes cur then nodes else nodes ++ [cur]) nodes

/-- `case "create", "update"`. -/
def updateNodes (c : CacheSelector) (now : ℤ) (services : List Service) (res : Service) :
    CacheSelector :=
  match findVersion res.version services with
  | none => c.set now res.name (services ++ [res])
  | some (index, service) =>
    c.set now res.name
      (services.set index { res with nodes := appendOld res.nodes service.nodes })

/-- `case "delete"`, with the nodes the watcher is called for. -/
def deleteNodes (c : CacheSelector) (now : ℤ) (services : List Service) (res : Service) :
    CacheSelector × List Node :=
  match findVersion res.version services with
  | none => (c, [])
  | some (index, service) =>
    let nodes := service.nodes.filter fun cur => !seen res.nodes cur
    let dead := if c.watcher then service.nodes.filter fun cur => seen res.nodes cur else []
    if nodes.length > 0 then
      (c.set now service.name (services.set index { service with nodes }), dead)
    else if services.length = 1 then (c.del service.name, dead)
    else
      (c.set now service.name (services.filter fun s => s.version ≠ service.version), dead)

/-- `update`; `none` is a `nil` result or one without service. -/
def update (c : CacheSelector) (now : ℤ) : Option Result → CacheSelector × List Node
  | none => (c, [])
  | some res =>
    match c.cache res.service.name with
    -- we're not going to cache anything unless there was already a lookup
    | none => (c, [])
    | some services =>
      if res.service.nodes.length = 0 then
        match res.action with
        | .delete => (c.del res.service.name, [])
        | _ => (c, [])
      else
        match res.action with
        | .create | .update => (updateNodes c now services res.service, [])
        | .delete => deleteNodes c now services res.service
        | .other _ => (c, [])

end Vmqant.Selector
