import Vmqant.Registry.KubernetesRegistry

/-!
# What the Kubernetes registry knows

Over the pods there is a table: the phase of each pod, and the services registered in it under the names that
`serviceName` gives them. A call that is served writes one place of it, and the annotations and labels of the
pods follow the table in every run. `GetService` and `ListServices` give what the running pods have in it.
-/

namespace Vmqant.Registry.Kubernetes

open Etcdv3 (versioned nodesOf services add foldl_add byVersion_empty nodup_versions)

variable (json : Json)

/-! ## The table -/

/-- What is known of a pod: `services` are those registered in it, by `serviceName`. -/
structure Instance where
  phase : String
  services : String → Option Service

abbrev Table := String → Option Instance

def Table.modify (t : Table) (podName : String) (f : Instance → Instance) : Table :=
  Function.update t podName ((t podName).map f)

def Instance.set (i : Instance) (n : String) (s : Option Service) : Instance :=
  { i with services := Function.update i.services n s }

/-- `Register` gets as far as the request. -/
def Registrable (s : Service) : Prop := s.nodes ≠ [] ∧ ∃ svc, json.marshal s = .ok svc

open Classical in
noncomputable def Table.step (t : Table) : Op → Table
  | .register podName s r =>
    if Registrable json s ∧ r.served = true then t.modify podName (·.set (serviceName s.name) (some s)) else t
  | .deregister podName s r =>
    if s.nodes ≠ [] ∧ r.served = true then t.modify podName (·.set (serviceName s.name) none) else t
  | .phase podName phase => t.modify podName fun i => { i with phase }
  | .create podName => Function.update t podName (some ((t podName).getD ⟨"Pending", fun _ => none⟩))
  | .delete podName => Function.update t podName none

noncomputable def Table.run (ops : List Op) : Table := ops.foldl (Table.step json) fun _ => none

/-- The service of a running pod under the name. -/
def Instance.offered (i : Instance) (n : String) : Option Service :=
  if i.phase = podRunning then i.services n else none

/-- The service that the table has for the pod under the name. -/
def Table.offered (t : Table) (n podName : String) : Option Service := (t podName).bind (·.offered n)

/-! ## The pods follow the table -/

/-- The text decodes to the service. -/
structure Announces (p : PodResource) (n : String) (s : Service) : Prop where
  micro : p.labels.lookup labelTypeKey = some labelTypeValue
  label : p.labels.lookup (servicePrefix ++ n) = some serviceValue
  decodes : (p.annotations.lookup (annotationPrefix ++ n)).bind json.unmarshal = some s
  name : serviceName s.name = n

structure Silent (p : PodResource) (n : String) : Prop where
  label : p.labels.lookup (servicePrefix ++ n) ≠ some serviceValue
  decodes : (p.annotations.lookup (annotationPrefix ++ n)).bind json.unmarshal = none

structure Follows (p : PodResource) (i : Instance) : Prop where
  phase : p.phase = i.phase
  announces : ∀ n s, i.services n = some s → Announces json p n s
  silent : ∀ n, i.services n = none → Silent json p n

def Refines (pods : Pods) (t : Table) : Prop :=
  ∀ podName, Option.Rel (Follows json) (pods.lookup podName) (t podName)

/-- What is known of `encoding/json`: the services that are registered come back, and the empty text is no
service. -/
structure Json.Sound (ss : Set Service) : Prop where
  roundTrip : ∀ s ∈ ss, ∀ svc, json.marshal s = .ok svc → json.unmarshal svc = some s
  empty : json.unmarshal "" = none

variable {json}

theorem labelTypeKey_ne (n : String) : labelTypeKey ≠ servicePrefix ++ n := by
  intro h
  have hlist := congrArg String.toList h
  rw [String.toList_append] at hlist
  exact absurd (List.cons.inj hlist).1 (by decide)

theorem lookup_patch_labels (p : PodResource) (labels : Labels) (annotations : Annotations) (k : String) :
    (p.patch labels annotations).labels.lookup k = (labels.lookup k).or (p.labels.lookup k) :=
  GoMap.lookup_foldl_insert labels p.labels k

theorem lookup_patch_annotations (p : PodResource) (labels : Labels) (annotations : Annotations) (k : String) :
    (p.patch labels annotations).annotations.lookup k = (annotations.lookup k).or (p.annotations.lookup k) :=
  GoMap.lookup_foldl_insert annotations p.annotations k

theorem lookup_singleton (k k' v : String) :
    (AList.singleton k v : AList fun _ : String => String).lookup k' = if k' = k then some v else none := by
  have h := GoMap.lookup_insert ∅ k k' v
  rwa [AList.insert_empty, AList.lookup_empty] at h

section Patch

variable {p : PodResource} {i : Instance} {labels : Labels} {annotations : Annotations} {n : String}

/-- The patch does not concern the services under another name. -/
def Concerns (labels : Labels) (annotations : Annotations) (n : String) : Prop :=
  ∀ n' ≠ n, labels.lookup (servicePrefix ++ n') = none ∧ annotations.lookup (annotationPrefix ++ n') = none

/-- A patch of one name writes one place of the table. -/
theorem Follows.patch (h : Follows json p i) (hother : Concerns labels annotations n)
    (hmicro : ∀ v ∈ labels.lookup labelTypeKey, v = labelTypeValue) {s : Option Service}
    (hsome : ∀ s', s = some s' → Announces json (p.patch labels annotations) n s')
    (hnone : s = none → Silent json (p.patch labels annotations) n) :
    Follows json (p.patch labels annotations) (i.set n s) where
  phase := h.phase
  announces := by
    intro n' s' hs'
    unfold Instance.set at hs'
    dsimp only at hs'
    by_cases hn : n' = n
    · subst hn
      rw [Function.update_self] at hs'
      exact hsome s' hs'
    · rw [Function.update_of_ne hn] at hs'
      have hold := h.announces n' s' hs'
      obtain ⟨hlabel, hdecodes⟩ := hother n' hn
      refine ⟨?_, ?_, ?_, hold.name⟩
      · rw [lookup_patch_labels, hold.micro]
        cases hlookup : labels.lookup labelTypeKey with
        | none => rfl
        | some v => rw [Option.some_or, hmicro v hlookup]
      · rw [lookup_patch_labels, hlabel, Option.none_or, hold.label]
      · rw [lookup_patch_annotations, hdecodes, Option.none_or, hold.decodes]
  silent := by
    intro n' hs'
    unfold Instance.set at hs'
    dsimp only at hs'
    by_cases hn : n' = n
    · subst hn
      rw [Function.update_self] at hs'
      exact hnone hs'
    · rw [Function.update_of_ne hn] at hs'
      have hold := h.silent n' hs'
      obtain ⟨hlabel, hdecodes⟩ := hother n' hn
      refine ⟨?_, ?_⟩
      · rw [lookup_patch_labels, hlabel, Option.none_or]
        exact hold.label
      · rw [lookup_patch_annotations, hdecodes, Option.none_or, hold.decodes]

/-- The labels and the annotation of `Register`. -/
theorem Follows.register (h : Follows json p i) {s : Service} {svc : String} (hsvc : json.unmarshal svc = some s) :
    Follows json (p.patch
        ((AList.singleton labelTypeKey labelTypeValue).insert (servicePrefix ++ serviceName s.name) serviceValue)
        (AList.singleton (annotationPrefix ++ serviceName s.name) svc))
      (i.set (serviceName s.name) (some s)) := by
  refine h.patch ?_ ?_ ?_ nofun
  · intro n' hn'
    rw [GoMap.lookup_insert, lookup_singleton, lookup_singleton, if_neg (by simpa using hn'),
      if_neg (labelTypeKey_ne n').symm, if_neg (by simpa using hn')]
    exact ⟨rfl, rfl⟩
  · intro v hv
    rw [GoMap.lookup_insert, if_neg (labelTypeKey_ne _), lookup_singleton, if_pos rfl] at hv
    exact (Option.some.inj hv).symm
  · rintro s' hs'
    obtain rfl := Option.some.inj hs'
    refine ⟨?_, ?_, ?_, rfl⟩
    · rw [lookup_patch_labels, GoMap.lookup_insert, if_neg (labelTypeKey_ne _), lookup_singleton, if_pos rfl,
        Option.some_or]
    · rw [lookup_patch_labels, AList.lookup_insert, Option.some_or]
    · rw [lookup_patch_annotations, lookup_singleton, if_pos rfl, Option.some_or, Option.bind_some, hsvc]

/-- The label and the annotation of `Deregister`. -/
theorem Follows.deregister (h : Follows json p i) (hempty : json.unmarshal "" = none) (n : String) :
    Follows json (p.patch (AList.singleton (servicePrefix ++ n) "") (AList.singleton (annotationPrefix ++ n) ""))
      (i.set n none) := by
  refine h.patch ?_ ?_ nofun fun _ => ?_
  · intro n' hn'
    rw [lookup_singleton, lookup_singleton, if_neg (by simpa using hn'), if_neg (by simpa using hn')]
    exact ⟨rfl, rfl⟩
  · intro v hv
    rw [lookup_singleton, if_neg (labelTypeKey_ne n)] at hv
    cases hv
  · refine ⟨?_, ?_⟩
    · rw [lookup_patch_labels, lookup_singleton, if_pos rfl, Option.some_or]
      decide
    · rw [lookup_patch_annotations, lookup_singleton, if_pos rfl, Option.some_or, Option.bind_some, hempty]

theorem Follows.phaseChange (h : Follows json p i) (phase : String) :
    Follows json { p with phase } { i with phase } where
  phase := rfl
  announces := by
    intro n s hs
    have hold := h.announces n s hs
    exact ⟨hold.micro, hold.label, hold.decodes, hold.name⟩
  silent := by
    intro n hs
    have hold := h.silent n hs
    exact ⟨hold.label, hold.decodes⟩

end Patch

/-! ## The run -/

section Run

variable {pods : Pods} {t : Table} {ss : Set Service}

/-- The services that an operation registers. -/
def Op.service : Op → Option Service
  | .register _ s _ => some s
  | _ => none

theorem Refines.lookup (h : Refines json pods t) {podName : String} {p : PodResource}
    (hp : pods.lookup podName = some p) : ∃ i, t podName = some i ∧ Follows json p i := by
  have hrel := h podName
  rw [hp] at hrel
  cases hi : t podName with
  | none =>
    rw [hi] at hrel
    cases hrel
  | some i =>
    rw [hi] at hrel
    cases hrel with
    | some hfollows => exact ⟨i, rfl, hfollows⟩

theorem Refines.lookup_none (h : Refines json pods t) {podName : String} (hp : pods.lookup podName = none) :
    t podName = none := by
  have hrel := h podName
  rw [hp] at hrel
  cases hi : t podName with
  | none => rfl
  | some i =>
    rw [hi] at hrel
    cases hrel

/-- A pod is written where the table is. -/
theorem Refines.insert (h : Refines json pods t) {podName : String} {p : PodResource} {i : Option Instance}
    (hp : ∃ i', i = some i' ∧ Follows json p i') :
    Refines json (pods.insert podName p) (Function.update t podName i) := by
  obtain ⟨i', rfl, hfollows⟩ := hp
  intro podName'
  rw [GoMap.lookup_insert]
  by_cases hname : podName' = podName
  · subst hname
    rw [if_pos rfl, Function.update_self]
    exact .some hfollows
  · rw [if_neg hname, Function.update_of_ne hname]
    exact h podName'

theorem Refines.modify_none (h : Refines json pods t) {podName : String} (hp : pods.lookup podName = none)
    (f : Instance → Instance) : Refines json pods (t.modify podName f) := by
  unfold Table.modify
  rw [h.lookup_none hp, Option.map_none, ← h.lookup_none hp, Function.update_eq_self]
  exact h

/-- A request that is served patches the pod if there is one. -/
theorem Refines.update (h : Refines json pods t) (podName : String) {labels : Labels} {annotations : Annotations}
    {f : Instance → Instance} (hf : ∀ p i, Follows json p i → Follows json (p.patch labels annotations) (f i))
    (r : Reply) :
    Refines json (Kubernetes.update pods podName labels annotations r).1
      (if r.served = true then t.modify podName f else t) := by
  have hserved : Refines json
      (((pods.lookup podName).map fun p => pods.insert podName (p.patch labels annotations)).getD pods)
      (t.modify podName f) := by
    cases hp : pods.lookup podName with
    | none => exact h.modify_none hp f
    | some p =>
      obtain ⟨i, hi, hfollows⟩ := h.lookup hp
      refine h.insert ⟨f i, ?_, hf p i hfollows⟩
      rw [hi, Option.map_some]
  cases r with
  | answer =>
    rw [if_pos (show Reply.served .answer = true from rfl)]
    unfold Kubernetes.update
    cases hp : pods.lookup podName <;> rw [hp] at hserved <;> exact hserved
  | failed text served =>
    cases served with
    | false => exact h
    | true => exact hserved

theorem Refines.step (hjson : json.Sound ss) (h : Refines json pods t) (op : Op) (hop : ∀ s ∈ op.service, s ∈ ss) :
    Refines json (pods.step json op) (t.step json op) := by
  cases op with
  | register podName s r =>
    unfold Pods.step Table.step Kubernetes.register
    dsimp only
    by_cases hnodes : s.nodes = []
    · rw [if_pos (by rw [hnodes, List.length_nil]), if_neg (fun hreg => hreg.1.1 hnodes)]
      exact h
    · rw [if_neg (mt List.length_eq_zero_iff.mp hnodes)]
      cases hsvc : json.marshal s with
      | error err =>
        rw [if_neg]
        · exact h
        · rintro ⟨⟨-, svc, hsvc'⟩, -⟩
          rw [hsvc] at hsvc'
          cases hsvc'
      | ok svc =>
        have hback := hjson.roundTrip s (hop s rfl) svc hsvc
        have hupdate := h.update podName (fun p i hfollows => hfollows.register hback) r
        by_cases hserved : r.served = true
        · rw [if_pos hserved] at hupdate
          rwa [if_pos ⟨⟨hnodes, svc, hsvc⟩, hserved⟩]
        · rw [if_neg hserved] at hupdate
          rwa [if_neg fun hreg => hserved hreg.2]
  | deregister podName s r =>
    unfold Pods.step Table.step Kubernetes.deregister
    dsimp only
    by_cases hnodes : s.nodes = []
    · rw [if_pos (by rw [hnodes, List.length_nil]), if_neg (fun hreg => hreg.1 hnodes)]
      exact h
    · rw [if_neg (mt List.length_eq_zero_iff.mp hnodes)]
      have hupdate := h.update podName
        (fun p i hfollows => hfollows.deregister hjson.empty (serviceName s.name)) r
      by_cases hserved : r.served = true
      · rw [if_pos hserved] at hupdate
        rwa [if_pos ⟨hnodes, hserved⟩]
      · rw [if_neg hserved] at hupdate
        rwa [if_neg fun hreg => hserved hreg.2]
  | phase podName phase =>
    unfold Pods.step Table.step
    dsimp only
    cases hp : pods.lookup podName with
    | none => exact h.modify_none hp _
    | some p =>
      obtain ⟨i, hi, hfollows⟩ := h.lookup hp
      refine h.insert ⟨{ i with phase }, ?_, hfollows.phaseChange phase⟩
      rw [hi, Option.map_some]
  | create podName =>
    unfold Pods.step Table.step GoMap.insertNew
    dsimp only
    cases hp : pods.lookup podName with
    | some p =>
      obtain ⟨i, hi, hfollows⟩ := h.lookup hp
      rw [Option.isSome_some, if_pos rfl, hi, Option.getD_some, ← hi, Function.update_eq_self]
      exact h
    | none =>
      rw [Option.isSome_none, if_neg Bool.false_ne_true]
      refine h.insert ⟨⟨"Pending", fun _ => none⟩, ?_, rfl, nofun, fun n _ => ⟨?_, rfl⟩⟩
      · rw [h.lookup_none hp, Option.getD_none]
      · exact (Option.some_ne_none serviceValue).symm
  | delete podName =>
    intro podName'
    unfold Pods.step Table.step
    dsimp only
    rw [GoMap.lookup_erase]
    by_cases hname : podName' = podName
    · subst hname
      rw [if_pos rfl, Function.update_self]
      exact .none
    · rw [if_neg hname, Function.update_of_ne hname]
      exact h podName'

/-- **The pods follow the table** in every run. -/
theorem refines_run (hjson : json.Sound ss) {ops : List Op} (hops : ∀ op ∈ ops, ∀ s ∈ op.service, s ∈ ss) :
    Refines json (Pods.run json ops) (Table.run json ops) := by
  unfold Pods.run Table.run
  have hstart : Refines json ∅ fun _ => none := fun podName => .none
  generalize (∅ : Pods) = pods at hstart ⊢
  generalize (fun _ => none : Table) = t at hstart ⊢
  induction ops generalizing pods t with
  | nil => exact hstart
  | cons op ops ih =>
    exact ih (fun op' hop' => hops op' (List.mem_cons_of_mem _ hop')) _ _
      (hstart.step hjson op (hops op List.mem_cons_self))

end Run

/-! ## What the calls give -/

section Calls

variable {pods : Pods} {t : Table}

theorem mergeService_eq_add (svcs : AList fun _ : String => Service) (svc : Service) :
    mergeService svcs svc = add svcs svc := by
  unfold mergeService add
  cases svcs.lookup svc.version <;> rfl

variable (json) in
/-- The service that the pod announces under the name while it is running. -/
def PodResource.offered (n : String) (p : PodResource) : Option Service :=
  if p.phase = podRunning then (p.annotations.lookup (annotationPrefix ++ n)).bind json.unmarshal else none

theorem Follows.offered {p : PodResource} {i : Instance} (h : Follows json p i) (n : String) :
    p.offered json n = i.offered n := by
  unfold PodResource.offered Instance.offered
  rw [h.phase]
  refine if_congr Iff.rfl ?_ rfl
  cases hs : i.services n with
  | none => exact (h.silent n hs).decodes
  | some s => exact (h.announces n s hs).decodes

theorem addPod_eq {name : String} {p : PodResource} {s : Service} (m : AList fun _ : String => Service)
    (h : (p.annotations.lookup (annotationPrefix ++ serviceName name)).bind json.unmarshal = some s) :
    addPod json name m p = .ok (((p.offered json (serviceName name)).toList).foldl add m) := by
  obtain ⟨svcStr, hlookup, hs⟩ := Option.bind_eq_some_iff.mp h
  unfold addPod PodResource.offered
  by_cases hphase : p.phase = podRunning
  · rw [if_neg (not_not.mpr hphase), if_pos hphase, h]
    simp only [hlookup, hs]
    rw [mergeService_eq_add]
    rfl
  · rw [if_pos hphase, if_neg hphase]
    rfl

/-- The loop of `GetService` does not fail when each annotation decodes. -/
theorem foldlM_addPod {name : String} {ps : List PodResource}
    (h : ∀ p ∈ ps, ∃ s, (p.annotations.lookup (annotationPrefix ++ serviceName name)).bind json.unmarshal = some s)
    (m : AList fun _ : String => Service) :
    ps.foldlM (addPod json name) m = .ok ((ps.filterMap (PodResource.offered json (serviceName name))).foldl add m) := by
  induction ps generalizing m with
  | nil => rfl
  | cons p ps ih =>
    obtain ⟨s, hs⟩ := h p List.mem_cons_self
    rw [List.foldlM_cons, addPod_eq m hs]
    refine (ih (fun p' hp' => h p' (List.mem_cons_of_mem _ hp')) _).trans ?_
    cases hoffered : p.offered json (serviceName name) with
    | none => rw [List.filterMap_cons_none hoffered, Option.toList_none, List.foldl_nil]
    | some s =>
      rw [List.filterMap_cons_some hoffered, Option.toList_some, List.foldl_cons, List.foldl_cons, List.foldl_nil]

theorem mem_selected {p : PodResource} {key value : String} :
    p ∈ pods.selected key value ↔ ∃ podName, pods.lookup podName = some p ∧ p.labels.lookup key = some value := by
  unfold Pods.selected
  rw [List.mem_filter, List.mem_map, decide_eq_true_iff, ← exists_and_right]
  constructor
  · rintro ⟨e, ⟨he, rfl⟩, hlabel⟩
    exact ⟨e.1, AList.mem_lookup_iff.mpr he, hlabel⟩
  · rintro ⟨podName, hp, hlabel⟩
    exact ⟨⟨podName, p⟩, ⟨AList.mem_lookup_iff.mp hp, rfl⟩, hlabel⟩

/-- The pods that have the label of a service are those that have it in the table. -/
theorem Refines.mem_selected (h : Refines json pods t) {n : String} {p : PodResource} :
    p ∈ pods.selected (servicePrefix ++ n) serviceValue ↔
      ∃ podName i s, pods.lookup podName = some p ∧ t podName = some i ∧ i.services n = some s := by
  rw [Kubernetes.mem_selected]
  refine exists_congr fun podName => ?_
  constructor
  · rintro ⟨hp, hlabel⟩
    obtain ⟨i, hi, hfollows⟩ := h.lookup hp
    cases hs : i.services n with
    | none => exact absurd hlabel (hfollows.silent n hs).label
    | some s => exact ⟨i, s, hp, hi, hs⟩
  · rintro ⟨i, s, hp, hi, hs⟩
    obtain ⟨i', hi', hfollows⟩ := h.lookup hp
    obtain rfl := Option.some.inj (hi.symm.trans hi')
    exact ⟨hp, (hfollows.announces n s hs).label⟩

theorem Refines.filterMap_selected (h : Refines json pods t) (n : String) :
    (pods.selected (servicePrefix ++ n) serviceValue).filterMap (PodResource.offered json n) =
      pods.keys.filterMap (t.offered n) := by
  unfold Pods.selected AList.keys List.keys
  rw [List.filterMap_filter, List.filterMap_map, List.filterMap_map]
  refine List.filterMap_congr fun e he => ?_
  obtain ⟨i, hi, hfollows⟩ := h.lookup (AList.mem_lookup_iff.mpr he)
  have htable : t.offered n e.1 = i.offered n := by
    unfold Table.offered
    rw [hi, Option.bind_some]
  simp only [Function.comp_apply]
  rw [htable, ← hfollows.offered n]
  split
  · rfl
  · next hlabel =>
    rw [decide_eq_true_eq] at hlabel
    have hnone : i.services n = none := by
      by_contra hs
      obtain ⟨s, hs⟩ := Option.ne_none_iff_exists'.mp hs
      exact hlabel (hfollows.announces n s hs).label
    unfold PodResource.offered
    rw [(hfollows.silent n hnone).decodes, ite_self]

theorem Refines.keys_perm (h : Refines json pods t) {podNames : List String} (hnodup : podNames.Nodup)
    (hall : ∀ podName, t podName ≠ none → podName ∈ podNames) (n : String) :
    (pods.keys.filterMap (t.offered n)).Perm (podNames.filterMap (t.offered n)) := by
  have hdrop : ∀ l : List String,
      (l.filter fun podName => (t podName).isSome).filterMap (t.offered n) = l.filterMap (t.offered n) := by
    intro l
    rw [List.filterMap_filter]
    refine List.filterMap_congr fun podName _ => ?_
    split
    · rfl
    · next hnone =>
      unfold Table.offered
      rw [Option.not_isSome_iff_eq_none.mp hnone, Option.bind_none]
  rw [← hdrop, ← hdrop podNames]
  refine List.Perm.filterMap _ ((List.perm_ext_iff_of_nodup ?_ ?_).mpr fun podName => ?_)
  · exact pods.nodupKeys.filter _
  · exact hnodup.filter _
  · rw [List.mem_filter, List.mem_filter]
    refine and_congr_left fun hsome => iff_of_true ?_ (hall podName (Option.isSome_iff_ne_none.mp hsome))
    rw [← AList.mem_keys, ← AList.lookup_isSome]
    by_contra hnone
    rw [h.lookup_none (Option.not_isSome_iff_eq_none.mp hnone)] at hsome
    cases hsome

/-- `result` is what `GetService` should give: the pods are in `podNames`. -/
structure Discovers (t : Table) (name : String) (podNames : List String) (result : Except String (Multiset Service)) :
    Prop where
  /-- Each node of a running pod comes once, with its version. -/
  nodes : nodesOf result = (podNames.filterMap (t.offered (serviceName name))).flatMap versioned
  versions : ∀ services, result = .ok services → (services.map Service.version).Nodup
  error : ∀ err, result = .error err ↔
    err = "not found" ∧ ∀ podName i, t podName = some i → i.services (serviceName name) = none

theorem Refines.discovers (h : Refines json pods t) {podNames : List String} (hnodup : podNames.Nodup)
    (hall : ∀ podName, t podName ≠ none → podName ∈ podNames) (name : String) :
    Discovers t name podNames
      (getService json name (.ok (pods.selected (servicePrefix ++ serviceName name) serviceValue))) := by
  set n := serviceName name with hn
  have hperm := h.keys_perm hnodup hall n
  rw [← h.filterMap_selected] at hperm
  have hmem : ∀ p, p ∈ pods.selected (servicePrefix ++ n) serviceValue ↔
      ∃ podName i s, pods.lookup podName = some p ∧ t podName = some i ∧ i.services n = some s :=
    fun p => h.mem_selected
  generalize pods.selected (servicePrefix ++ n) serviceValue = ps at hperm hmem
  unfold getService
  dsimp only
  by_cases hps : ps = []
  · subst hps
    rw [if_pos List.length_nil]
    refine ⟨?_, nofun, fun err => ?_⟩
    · rw [hperm.symm.eq_nil]
      rfl
    · rw [Except.error.injEq, eq_comm]
      refine (and_iff_left fun podName i hi => ?_).symm
      by_contra hs
      obtain ⟨s, hs⟩ := Option.ne_none_iff_exists'.mp hs
      cases hp : pods.lookup podName with
      | none =>
        rw [h.lookup_none hp] at hi
        cases hi
      | some p => cases (hmem p).mpr ⟨podName, i, s, hp, hi, hs⟩
  · have hdecodes : ∀ p ∈ ps, ∃ s,
        (p.annotations.lookup (annotationPrefix ++ n)).bind json.unmarshal = some s := by
      intro p hp
      obtain ⟨podName, i, s, hp, hi, hs⟩ := (hmem p).mp hp
      obtain ⟨i', hi', hfollows⟩ := h.lookup hp
      obtain rfl := Option.some.inj (hi.symm.trans hi')
      exact ⟨s, (hfollows.announces n s hs).decodes⟩
    rw [if_neg (mt List.length_eq_zero_iff.mp hps), foldlM_addPod hdecodes]
    have hadd := foldl_add byVersion_empty (ps.filterMap (PodResource.offered json n))
    refine ⟨?_, ?_, fun err => ⟨nofun, ?_⟩⟩
    · unfold nodesOf Except.map
      dsimp only
      rw [Multiset.coe_bind]
      exact Multiset.coe_eq_coe.mpr (hadd.2.trans (hperm.flatMap_right _))
    · intro services hservices
      obtain rfl := Except.ok.inj hservices
      exact nodup_versions hadd.1
    · rintro ⟨-, hnone⟩
      obtain ⟨p, hp⟩ := List.exists_mem_of_ne_nil ps hps
      obtain ⟨podName, i, s, -, hi, hs⟩ := (hmem p).mp hp
      rw [hnone podName i hi] at hs
      cases hs

theorem mem_podNames {p : PodResource} {name : String} :
    name ∈ podNames json p ↔ p.phase = podRunning ∧ ∃ n s, s.name = name ∧
      (p.annotations.lookup (annotationPrefix ++ n)).bind json.unmarshal = some s := by
  unfold podNames
  split
  · next hphase => simp [hphase]
  · next hphase =>
    rw [List.mem_filterMap, and_iff_right (not_not.mp hphase)]
    constructor
    · rintro ⟨⟨k, svcStr⟩, he, hname⟩
      dsimp only at hname
      split at hname
      · next hprefix =>
        obtain ⟨s, hs, hsname⟩ := Option.map_eq_some_iff.mp hname
        obtain ⟨l, hl⟩ := List.isPrefixOf_iff_prefix.mp hprefix
        refine ⟨String.ofList l, s, hsname, ?_⟩
        have hk : annotationPrefix ++ String.ofList l = k := by
          rw [← String.toList_inj, String.toList_append, String.toList_ofList, hl]
        rw [hk, AList.mem_lookup_iff.mpr he, Option.bind_some, hs]
      · cases hname
    · rintro ⟨n, s, hsname, hbind⟩
      obtain ⟨svcStr, hlookup, hs⟩ := Option.bind_eq_some_iff.mp hbind
      refine ⟨⟨annotationPrefix ++ n, svcStr⟩, AList.mem_lookup_iff.mp hlookup, ?_⟩
      have hprefix : isNotation (annotationPrefix ++ n) = true := by
        unfold isNotation
        rw [List.isPrefixOf_iff_prefix, String.toList_append]
        exact List.prefix_append _ _
      dsimp only
      rw [if_pos hprefix, hs, Option.map_some, hsname]

/-- The names that `ListServices` gives are those of the services of the running pods. -/
theorem Refines.mem_listServices (h : Refines json pods t) {name : String} :
    name ∈ ((pods.selected labelTypeKey labelTypeValue).flatMap (podNames json)).toFinset ↔
      ∃ podName n s, t.offered n podName = some s ∧ s.name = name := by
  rw [List.mem_toFinset, List.mem_flatMap]
  constructor
  · rintro ⟨p, hp, hname⟩
    obtain ⟨podName, hp, -⟩ := Kubernetes.mem_selected.mp hp
    obtain ⟨hphase, n, s, hsname, hbind⟩ := mem_podNames.mp hname
    obtain ⟨i, hi, hfollows⟩ := h.lookup hp
    refine ⟨podName, n, s, ?_, hsname⟩
    unfold Table.offered
    rw [hi, Option.bind_some, ← hfollows.offered n]
    unfold PodResource.offered
    rw [if_pos hphase, hbind]
  · rintro ⟨podName, n, s, hoffered, hsname⟩
    obtain ⟨i, hi, hs⟩ := Option.bind_eq_some_iff.mp hoffered
    cases hp : pods.lookup podName with
    | none =>
      rw [h.lookup_none hp] at hi
      cases hi
    | some p =>
      obtain ⟨i', hi', hfollows⟩ := h.lookup hp
      obtain rfl := Option.some.inj (hi.symm.trans hi')
      unfold Instance.offered at hs
      split at hs
      · next hphase =>
        have hannounces := hfollows.announces n s hs
        exact ⟨p, Kubernetes.mem_selected.mpr ⟨podName, hp, hannounces.micro⟩,
          mem_podNames.mpr ⟨hfollows.phase.trans hphase, n, s, hsname, hannounces.decodes⟩⟩
      · cases hs

/-- **`GetService` and `ListServices` give what the running pods have registered**, after every run. -/
theorem discovers_of_run {ss : Set Service} (hjson : json.Sound ss) {ops : List Op}
    (hops : ∀ op ∈ ops, ∀ s ∈ op.service, s ∈ ss) {podNames : List String} (hnodup : podNames.Nodup)
    (hall : ∀ podName, Table.run json ops podName ≠ none → podName ∈ podNames) :
    (∀ name, Discovers (Table.run json ops) name podNames (getService json name
      (.ok ((Pods.run json ops).selected (servicePrefix ++ serviceName name) serviceValue)))) ∧
    ∃ names, listServices json (.ok ((Pods.run json ops).selected labelTypeKey labelTypeValue)) = .ok names ∧
      ∀ name, name ∈ names ↔ ∃ podName n s, (Table.run json ops).offered n podName = some s ∧ s.name = name := by
  have hrefines := refines_run hjson hops
  exact ⟨hrefines.discovers hnodup hall, _, rfl, fun name => hrefines.mem_listServices⟩

end Calls

/-! A service that two pods register, and one of them deregisters. -/

def usersService (id address : String) : Service :=
  { name := "users", version := "1.0", nodes := [{ id, address, port := 80 }] }

def usersText (id address : String) : String :=
  "\x7b\"name\":\"users\",\"version\":\"1.0\",\"metadata\":null,\"endpoints\":null,\"nodes\":[\x7b\"id\":\"" ++
    id ++ "\",\"address\":\"" ++ address ++ "\",\"port\":80,\"metadata\":null\x7d]\x7d"

def usersServices : List (String × String) := [("users-0", "10.0.0.1"), ("users-1", "10.0.0.2")]

/-- The texts of the services of the two pods. -/
def usersJson : Json where
  marshal s := .ok (s.nodes.head?.elim "null" fun node => usersText node.id node.address)
  unmarshal text := (usersServices.find? fun u => usersText u.1 u.2 = text).map fun u => usersService u.1 u.2

def usersRun : List Op :=
  [.create "web-0", .create "web-1", .phase "web-0" "Running", .phase "web-1" "Running",
    .register "web-0" (usersService "users-0" "10.0.0.1") .answer,
    .register "web-1" (usersService "users-1" "10.0.0.2") .answer,
    .deregister "web-0" (usersService "users-0" "10.0.0.1") .answer]

theorem usersJson_sound : usersJson.Sound {s | ∃ u ∈ usersServices, s = usersService u.1 u.2} where
  roundTrip := by
    rintro s ⟨u, hu, rfl⟩ svc hsvc
    obtain rfl := Except.ok.inj hsvc
    simp only [usersServices, List.mem_cons, List.not_mem_nil, or_false] at hu
    rcases hu with rfl | rfl
    · rfl
    · rfl
  empty := rfl

theorem usersRun_pods {podName : String} (h : Table.run usersJson usersRun podName ≠ none) :
    podName ∈ ["web-0", "web-1"] := by
  by_contra hmem
  obtain ⟨h0, h1⟩ : podName ≠ "web-0" ∧ podName ≠ "web-1" := by simpa using hmem
  refine h ?_
  unfold Table.run usersRun
  simp only [List.foldl_cons, List.foldl_nil, Table.step, Table.modify]
  split_ifs <;> simp [Function.update_of_ne h0, Function.update_of_ne h1]

theorem discovers_of_run_users :
    (∀ name, Discovers (Table.run usersJson usersRun) name ["web-0", "web-1"] (getService usersJson name
      (.ok ((Pods.run usersJson usersRun).selected (servicePrefix ++ serviceName name) serviceValue)))) ∧
    ∃ names, listServices usersJson (.ok ((Pods.run usersJson usersRun).selected labelTypeKey labelTypeValue)) =
        .ok names ∧
      ∀ name, name ∈ names ↔
        ∃ podName n s, (Table.run usersJson usersRun).offered n podName = some s ∧ s.name = name := by
  refine discovers_of_run usersJson_sound ?_ (by decide) fun podName => usersRun_pods
  intro op hop s hs
  simp only [usersRun, List.mem_cons, List.not_mem_nil, or_false] at hop
  rcases hop with rfl | rfl | rfl | rfl | rfl | rfl | rfl
  · cases hs
  · cases hs
  · cases hs
  · cases hs
  · exact ⟨("users-0", "10.0.0.1"), by decide, (Option.some.inj hs).symm⟩
  · exact ⟨("users-1", "10.0.0.2"), by decide, (Option.some.inj hs).symm⟩
  · cases hs

end Vmqant.Registry.Kubernetes
