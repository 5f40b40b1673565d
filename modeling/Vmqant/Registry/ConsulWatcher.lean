import Vmqant.Registry.Service

/-!
# The Consul watcher

Reference: `registry/consul_watcher.go`, lines 51-185.

`serviceHandler` gets the health snapshot of a service, groups its entries by version and sends the
difference to the snapshot before as results. The map of the versions is a list in the order of first
appearance; the order in which the handler goes through it is an argument.
-/

namespace Vmqant.Registry.Consul

/-- The fields of an `api.AgentService` the handler reads. -/
structure AgentService where
  id : String
  service : String
  tags : List String
  port : ℤ
  address : String

/-- An `api.ServiceEntry`: the address of its node, the service, and the states of its checks. -/
structure ServiceEntry where
  nodeAddress : String
  service : AgentService
  checks : List String

/-- The decoders of the tags (`registry/encoding.go`). -/
structure TagDecoder where
  version : List String → String × Bool
  endpoints : List String → List Endpoint
  metadata : List String → Metadata

/-- The services of the last snapshots, by name. -/
structure ConsulWatcher where
  services : String → Option (List Service)

/-- `newConsulWatcher`. -/
def ConsulWatcher.new : ConsulWatcher := ⟨fun _ => none⟩

variable (dec : TagDecoder)

/-- Version is a tag. -/
def ServiceEntry.version (e : ServiceEntry) : String := (dec.version e.service.tags).1

/-- Delete the node if the status of a check is critical. -/
def ServiceEntry.critical (e : ServiceEntry) : Bool := e.checks.any fun status => status = "critical"

/-- The node of an entry; the service address, or else that of the node. -/
def ServiceEntry.node (e : ServiceEntry) : Node where
  id := e.service.id
  address := if e.service.address.length = 0 then e.nodeAddress else e.service.address
  port := e.service.port
  metadata := dec.metadata e.service.tags

/-- One round of the loop over the entries: the service of the version is made when it is not there,
and gets the node unless the node is to be deleted. -/
def addEntry (serviceMap : List Service) (e : ServiceEntry) : List Service :=
  let version := e.version dec
  let serviceMap :=
    if serviceMap.any fun svc => svc.version = version then serviceMap
    else
      serviceMap ++ [{ name := e.service.service, version,
                       endpoints := dec.endpoints e.service.tags }]
  if e.critical then serviceMap
  else serviceMap.map fun svc =>
    if svc.version = version then { svc with nodes := svc.nodes ++ [e.node dec] } else svc

/-- The services of a snapshot by version. -/
def serviceMap (entries : List ServiceEntry) : List Service := entries.foldl (addEntry dec) []

/-- `serviceName`: that of the last entry, and empty when there is none. -/
def serviceName (entries : List ServiceEntry) : String :=
  entries.foldl (fun _ e => e.service.service) ""

/-- The results for one service of the new snapshot: a delete of the nodes that are gone from the old
service of that version, then the service itself. -/
def newResults (oldServices : Option (List Service)) (newService : Service) : List Result :=
  match oldServices with
  | none => [⟨.create, newService⟩]
  | some oldServices =>
    let deleted := oldServices.flatMap fun oldService =>
      if oldService.version ≠ newService.version then []
      else
        let nodes := oldService.nodes.filter fun oldNode => !seen newService.nodes oldNode
        if nodes.length > 0 then [⟨.delete, { oldService with nodes }⟩] else []
    let action :=
      if oldServices.any fun oldService => oldService.version = newService.version then .update
      else .create
    deleted ++ [⟨action, newService⟩]

/-- The results for the old versions that are not in the new snapshot. -/
def oldResults (oldServices newServices : List Service) : List Result :=
  (oldServices.filter fun old => !newServices.any fun s => s.version = old.version).map
    fun old => ⟨.delete, old⟩

/-- A snapshot, with the order in which the handler goes through the versions. -/
structure Delivery where
  entries : List ServiceEntry
  order : List Service → List Service
  perm : ∀ l, (order l).Perm l

/-- `serviceHandler`: the watcher after it and the results it sends, in order. -/
def serviceHandler (cw : ConsulWatcher) (d : Delivery) : ConsulWatcher × List Result :=
  let name := serviceName d.entries
  let newServices := d.order (serviceMap dec d.entries)
  let oldServices := cw.services name
  (⟨Function.update cw.services name (some newServices)⟩,
    newServices.flatMap (newResults oldServices) ++ oldResults (oldServices.getD []) newServices)

end Vmqant.Registry.Consul
