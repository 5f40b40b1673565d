import Vmqant.Registry.GetService
import Vmqant.Registry.KubernetesWatcher

/-!
# The Kubernetes registry

Reference: `registry/kubernetes/kubernetes.go`, lines 24-45 and 78-279; `registry/kubernetes/client/client.go`,
lines 85-92 and 123-142.

A pod registers its services as annotations of its own, under a label that selects it. `Deregister` does not
remove either: the strategic merge patch makes both empty. The pods change between the calls.
-/

namespace Vmqant.Registry.Kubernetes

open Etcdv3 (versioned nodesOf)

def servicePrefix : String := "go.micro/"

def serviceValue : String := "service"

def labelTypeKey : String := "micro"

def labelTypeValue : String := "service"

/-- `labelRe.Match` of one byte. -/
def validByte (r : UInt8) : Bool :=
  r = '-'.toUInt8 || 'A'.toUInt8 ≤ r && r ≤ 'Z'.toUInt8 || 'a'.toUInt8 ≤ r && r ≤ 'z'.toUInt8 ||
    '0'.toUInt8 ≤ r && r ≤ '9'.toUInt8 || r = '_'.toUInt8 || r = '.'.toUInt8

/-- `serviceName`, byte by byte. -/
def serviceName (name : String) : String :=
  String.ofList (name.toUTF8.toList.map fun r => if validByte r then Char.ofNat r.toNat else '_')

/-! ## The pods -/

abbrev Labels := AList fun _ : String => String

/-- A pod as the API server has it. -/
structure PodResource where
  phase : String
  labels : Labels
  annotations : Annotations

/-- The pods of the namespace by their names. -/
abbrev Pods := AList fun _ : String => PodResource

/-- A strategic merge patch of the metadata. -/
def PodResource.patch (p : PodResource) (labels : Labels) (annotations : Annotations) : PodResource where
  phase := p.phase
  labels := labels.foldl (fun m k v => m.insert k v) p.labels
  annotations := annotations.foldl (fun m k v => m.insert k v) p.annotations

/-- How a request ends: it is answered, or it fails and may have been served all the same. -/
inductive Reply where
  | answer
  | failed (text : String) (served : Bool)

def Reply.served : Reply → Bool
  | .answer => true
  | .failed _ served => served

/-- `Update`: the pods afterwards, and the error. -/
def update (pods : Pods) (podName : String) (labels : Labels) (annotations : Annotations) (r : Reply) :
    Pods × Option String :=
  let patched := (pods.lookup podName).map fun p => pods.insert podName (p.patch labels annotations)
  match r with
  | .failed text served => (if served then patched.getD pods else pods, some text)
  | .answer =>
    match patched with
    | none => (pods, some "kubernetes: resource not found")
    | some pods => (pods, none)

/-- `Get` of the pods with a label. -/
def Pods.selected (pods : Pods) (key value : String) : List PodResource :=
  (pods.entries.map Sigma.snd).filter fun p => p.labels.lookup key = some value

/-! ## The registry -/

/-- `encoding/json` for a service. -/
structure Json where
  marshal : Service → Except String String
  unmarshal : String → Option Service

variable (json : Json)

def register (pods : Pods) (podName : String) (s : Service) (r : Reply) : Pods × Option String :=
  if s.nodes.length = 0 then (pods, some "no nodes")
  else
    match json.marshal s with
    | .error err => (pods, some err)
    | .ok svc =>
      update pods podName
        ((AList.singleton labelTypeKey labelTypeValue).insert (servicePrefix ++ serviceName s.name) serviceValue)
        (AList.singleton (annotationPrefix ++ serviceName s.name) svc) r

def deregister (pods : Pods) (podName : String) (s : Service) (r : Reply) : Pods × Option String :=
  if s.nodes.length = 0 then (pods, some "you must deregister at least one node")
  else
    update pods podName (AList.singleton (servicePrefix ++ serviceName s.name) "")
      (AList.singleton (annotationPrefix ++ serviceName s.name) "") r

/-- Merge up the pod service with the versioned service. -/
def mergeService (svcs : AList fun _ : String => Service) (svc : Service) : AList fun _ : String => Service :=
  match svcs.lookup svc.version with
  | none => svcs.insert svc.version svc
  | some vs => svcs.insert svc.version { vs with nodes := vs.nodes ++ svc.nodes }

/-- A round of the loop of `GetService`. -/
def addPod (name : String) (svcs : AList fun _ : String => Service) (pod : PodResource) :
    Except String (AList fun _ : String => Service) :=
  if pod.phase ≠ podRunning then pure svcs
  else
    match pod.annotations.lookup (annotationPrefix ++ serviceName name) with
    | none => pure svcs
    | some svcStr =>
      match json.unmarshal svcStr with
      | none => throw s!"could not unmarshal service '{name}' from pod annotation"
      | some svc => pure (mergeService svcs svc)

/-- `GetService` with the answer of the API server. -/
def getService (name : String) : Except String (List PodResource) → Except String (Multiset Service)
  | .error err => .error err
  | .ok pods =>
    if pods.length = 0 then .error "not found"
    else (pods.foldlM (addPod json name) ∅).map fun svcs => (svcs.entries.map Sigma.snd : List Service)

/-- The names that a round of the loop of `ListServices` adds. -/
def podNames (pod : PodResource) : List String :=
  if pod.phase ≠ podRunning then []
  else
    pod.annotations.entries.filterMap fun e =>
      if isNotation e.1 then (json.unmarshal e.2).map Service.name else none

/-- `ListServices` with the answer of the API server. -/
def listServices : Except String (List PodResource) → Except String (Finset String)
  | .error err => .error err
  | .ok pods => .ok (pods.flatMap (podNames json)).toFinset

/-! ## The pods in a run -/

/-- What happens to the pods: the calls of the registries in them, and what is done by others. -/
inductive Op where
  | register (podName : String) (s : Service) (r : Reply)
  | deregister (podName : String) (s : Service) (r : Reply)
  | phase (podName phase : String)
  | create (podName : String)
  | delete (podName : String)

def Pods.step (pods : Pods) : Op → Pods
  | .register podName s r => (Kubernetes.register json pods podName s r).1
  | .deregister podName s r => (Kubernetes.deregister pods podName s r).1
  | .phase podName phase =>
    match pods.lookup podName with
    | none => pods
    | some p => pods.insert podName { p with phase }
  | .create podName => GoMap.insertNew pods podName ⟨"Pending", ∅, ∅⟩
  | .delete podName => pods.erase podName

def Pods.run (ops : List Op) : Pods := ops.foldl (Pods.step json) ∅

end Vmqant.Registry.Kubernetes
