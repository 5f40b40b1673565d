import Vmqant.Common.Panic
import Vmqant.Common.Lts
import Vmqant.Registry.Service

/-!
# The watcher of the Kubernetes registry

Reference: `registry/kubernetes/watcher.go`, lines 53-194; `registry/kubernetes/client/types.go`, lines
91-106; `registry/kubernetes/kubernetes.go`, lines 35-40.

The watcher compares the annotations of a pod with those it had at the last event, and sends a result for
each service notation that was added, changed or removed. `σ` are the values of a `*registry.Service`, and
`decode` is `json.Unmarshal` into one. The watcher is not stopped.
-/

namespace Vmqant.Registry.Kubernetes

/-! ## The watcher -/

abbrev Annotations := AList fun _ : String => String

/-- `client.Metadata`. -/
structure PodMetadata where
  name : String
  annotations : Annotations

structure PodStatus where
  phase : String

/-- `client.Pod`; both pointers may be nil. -/
structure Pod where
  metadata : Option PodMetadata
  status : Option PodStatus

inductive EventType where
  | added
  | modified
  | deleted
  | error

/-- `client.Event`; the object is `none` when it cannot be unmarshalled. -/
structure Event where
  type : EventType
  object : Option Pod

/-- A result, with the annotation that it is about. -/
structure Result (σ : Type) where
  action : Action
  annotation : String
  service : σ

structure K8sWatcher where
  pods : String → Option Pod

def annotationPrefix : String := "go.micro/"

def podRunning : String := "Running"

/-- The annotation key is that of a service notation. -/
def isNotation (ak : String) : Bool := annotationPrefix.toList.isPrefixOf ak.toList

/-- The orders in which the two loops go through the annotations. -/
structure Ranges where
  pod : Annotations → List ((_ : String) × String)
  cache : Annotations → List ((_ : String) × String)
  pod_perm : ∀ m, (pod m).Perm m.entries
  cache_perm : ∀ m, (cache m).Perm m.entries

/-- The annotations that a loop over a pod sees, which may be nil or without metadata. -/
def annotations (pod : Option Pod) : Annotations :=
  (pod.bind Pod.metadata).elim ∅ PodMetadata.annotations

variable {σ : Type} (decode : String → Option σ)

/-- A round of the loop over the annotations of the pod. -/
def podResult (cache : Annotations) (e : (_ : String) × String) : Option (Result σ) :=
  if isNotation e.1 = false then none
  else if e.2.length = 0 then none
  else
    let cav := cache.lookup e.1
    -- service notation exists and is identical
    if cav.any fun cav => cav.length > 0 && cav = e.2 then none
    else (decode e.2).map fun service =>
      { action := if cav.isSome then .update else .create, annotation := e.1, service }

/-- The annotations that the loop over the cache leaves to the one over the pod. -/
def ignored (e : (_ : String) × String) : Bool := isNotation e.1 && e.2.length != 0

/-- A round of the loop over the annotations of the cache. -/
def cachedResult (ignore : List String) (e : (_ : String) × String) : Option (Result σ) :=
  if e.1 ∈ ignore then none
  else if isNotation e.1 = false then none
  else (decode e.2).map fun service => { action := .delete, annotation := e.1, service }

/-- `buildPodResults`. -/
def buildPodResults (ranges : Ranges) (pod : Pod) (cache : Option Pod) : List (Result σ) :=
  let entries := ranges.pod (annotations (some pod))
  let ignore := (entries.filter ignored).map Sigma.fst
  entries.filterMap (podResult decode (annotations cache)) ++
    (ranges.cache (annotations cache)).filterMap (cachedResult decode ignore)

/-- `handleEvent`: the results that are sent, and the watcher after it. -/
def handleEvent (ranges : Ranges) (k : K8sWatcher) (event : Event) :
    Except PanicValue (List (Result σ) × K8sWatcher) :=
  match event.object with
  | none => pure ([], k)
  | some pod =>
    match event.type with
    | .modified =>
      match pod.metadata, pod.status with
      | some metadata, some status =>
        let cache := k.pods metadata.name
        let results :=
          if status.phase = podRunning then buildPodResults decode ranges pod cache
          else (buildPodResults decode ranges pod none).map fun r => { r with action := .delete }
        pure (results, { k with pods := Function.update k.pods metadata.name (some pod) })
      | _, _ => throw .nilDereference
    | .deleted =>
      let results := (buildPodResults decode ranges pod none).map fun r => { r with action := .delete }
      match pod.metadata with
      | some metadata =>
        pure (results, { k with pods := Function.update k.pods metadata.name none })
      | none => throw .nilDereference
    | .added | .error => pure ([], k)

/-! ## What a consumer makes of the results -/

/-- The services that a consumer knows, by pod and annotation. -/
abbrev Consumer (σ : Type) := String → String → Option σ

/-- What a result makes of the entry that it is about. -/
def Result.effect (r : Result σ) (old : Option σ) : Option σ :=
  match r.action with
  | .create | .update => some r.service
  | .delete => none
  | .other _ => old

def Consumer.apply (c : Consumer σ) (pod : String) (r : Result σ) : Consumer σ :=
  Function.update c pod (Function.update (c pod) r.annotation (r.effect (c pod r.annotation)))

theorem Consumer.apply_apply (c : Consumer σ) (pod : String) (r : Result σ) (p ak : String) :
    c.apply pod r p ak = if p = pod ∧ ak = r.annotation then r.effect (c p ak) else c p ak := by
  unfold Consumer.apply
  by_cases hp : p = pod
  · subst hp
    rw [Function.update_self]
    by_cases hak : ak = r.annotation
    · subst hak
      rw [Function.update_self, if_pos ⟨rfl, rfl⟩]
    · rw [Function.update_of_ne hak, if_neg fun h => hak h.2]
  · rw [Function.update_of_ne hp, if_neg fun h => hp h.1]

/-- A loop over a map that sends at most one result for each key changes each entry at most once. -/
theorem Consumer.foldl_apply {l : List ((_ : String) × String)} (hl : l.NodupKeys)
    {f : (_ : String) × String → Option (Result σ)} (hf : ∀ e r, f e = some r → r.annotation = e.1)
    (c : Consumer σ) (pod ak : String) :
    (l.filterMap f).foldl (fun c r => c.apply pod r) c pod ak
      = ((l.dlookup ak).bind fun av => f ⟨ak, av⟩).elim (c pod ak) fun r => r.effect (c pod ak) := by
  induction l generalizing c with
  | nil => rfl
  | cons e l ih =>
    obtain ⟨hfresh, hl⟩ := List.nodupKeys_cons.mp hl
    cases he : f e with
    | none =>
      rw [List.filterMap_cons_none he, ih hl]
      by_cases hak : ak = e.1
      · subst hak
        rw [List.dlookup_eq_none.mpr hfresh, List.dlookup_cons_eq, Option.bind_some, he]
        rfl
      · rw [List.dlookup_cons_ne _ _ hak]
    | some r =>
      have hr := hf e r he
      rw [List.filterMap_cons_some he, List.foldl_cons, ih hl, Consumer.apply_apply]
      by_cases hak : ak = e.1
      · -- the key is not met again
        subst hak
        rw [List.dlookup_eq_none.mpr hfresh, List.dlookup_cons_eq, Option.bind_some, he, if_pos ⟨rfl, hr.symm⟩]
        rfl
      · rw [List.dlookup_cons_ne _ _ hak, if_neg fun h => hak (h.2.trans hr)]

theorem Consumer.foldl_apply_of_ne {p pod : String} (hp : p ≠ pod) (rs : List (Result σ)) (c : Consumer σ) :
    rs.foldl (fun c r => c.apply pod r) c p = c p := by
  induction rs generalizing c with
  | nil => rfl
  | cons r rs ih =>
    rw [List.foldl_cons, ih]
    exact Function.update_of_ne hp _ _

end Vmqant.Registry.Kubernetes
