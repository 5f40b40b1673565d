import Vmqant.Registry.KubernetesWatcher

/-!
# Tracking the running pods

What the consumer of the watcher should know is a function of the latest event of each pod: the services
that the notations of a running pod announce. The watcher sends too little in three cases. A pod that starts
to run with the notations that it had before is not announced; a notation that a pod loses in the same event
in which it stops running, or is deleted, is not taken back; nor is one that is replaced by a text that
cannot be decoded. `tracks_iff_complete` says that nothing else goes wrong.
-/

namespace Vmqant.Registry.Kubernetes

open Lts

variable {σ : Type} (decode : String → Option σ)

/-! ## The pods and their services -/

/-- A `MODIFIED` or `DELETED` event of a pod, with the orders in which its annotations are looked at. -/
structure PodEvent where
  deleted : Bool
  metadata : PodMetadata
  status : PodStatus
  ranges : Ranges

namespace PodEvent

def pod (a : PodEvent) : Pod := ⟨some a.metadata, some a.status⟩

def event (a : PodEvent) : Event := ⟨if a.deleted then .deleted else .modified, some a.pod⟩

/-- The pod exists and is running. -/
def Running (a : PodEvent) : Prop := a.deleted = false ∧ a.status.phase = podRunning

instance (a : PodEvent) : Decidable a.Running := inferInstanceAs (Decidable (_ ∧ _))

end PodEvent

/-- The pods that exist, as of their latest events. -/
abbrev Cluster := String → Option Pod

def Cluster.apply (c : Cluster) (a : PodEvent) : Cluster :=
  Function.update c a.metadata.name (if a.deleted then none else some a.pod)

def Pod.Running (pod : Option Pod) : Prop := (pod.bind Pod.status).map PodStatus.phase = some podRunning

instance (pod : Option Pod) : Decidable (Pod.Running pod) := inferInstanceAs (Decidable (_ = _))

/-- The service that an annotation of a pod announces. -/
def announced (pod : Option Pod) (ak : String) : Option σ :=
  if Pod.Running pod ∧ isNotation ak = true then
    ((annotations pod).lookup ak).bind fun av => if av.length = 0 then none else decode av
  else none

/-! ## The run -/

/-- The watcher and its consumer. -/
structure State (σ : Type) where
  watcher : K8sWatcher
  consumer : Consumer σ

def start : State σ := ⟨⟨fun _ => none⟩, fun _ _ => none⟩

/-- An event is handled, and the results are applied. -/
def step (s : State σ) (a : PodEvent) : Option (State σ) :=
  match handleEvent decode a.ranges s.watcher a.event with
  | .error _ => none
  | .ok (results, watcher) =>
    some ⟨watcher, results.foldl (fun c r => c.apply a.metadata.name r) s.consumer⟩

/-- The consumer knows the services of the running pods, and no others. -/
def Tracks (cluster : Cluster) (s : State σ) : Prop :=
  ∀ p ak, s.consumer p ak = announced decode (cluster p) ak

/-- The watcher sends all that the consumer needs: what the cache of the pod announced is taken back where
it has to be, and a notation of a running pod is not passed over as known. -/
def Complete (s : State σ) (a : PodEvent) : Prop :=
  let cache := s.watcher.pods a.metadata.name
  if a.Running then
    ∀ ak av, isNotation ak = true → a.metadata.annotations.lookup ak = some av → av.length ≠ 0 →
      (¬ Pod.Running cache → (annotations cache).lookup ak = some av → decode av = none) ∧
        (decode av = none → announced decode cache ak = none)
  else
    ∀ ak, announced decode cache ak ≠ none →
      ∃ av, a.metadata.annotations.lookup ak = some av ∧ av.length ≠ 0 ∧ decode av ≠ none

/-! ## One event -/

section Step

variable {decode} {s s' : State σ} {a : PodEvent}

theorem dlookup_order {m : Annotations} {l : List ((_ : String) × String)} (h : l.Perm m.entries)
    (ak : String) : l.dlookup ak = m.lookup ak :=
  List.perm_dlookup ak ((List.perm_nodupKeys h).mpr m.nodupKeys) h

theorem mem_ignore {m : Annotations} {l : List ((_ : String) × String)} (h : l.Perm m.entries)
    {ak : String} :
    ak ∈ (l.filter ignored).map Sigma.fst ↔
      isNotation ak = true ∧ ∃ av, m.lookup ak = some av ∧ av.length ≠ 0 := by
  have hnodup : l.NodupKeys := (List.perm_nodupKeys h).mpr m.nodupKeys
  have hmem : ∀ av, ⟨ak, av⟩ ∈ l ↔ m.lookup ak = some av := by
    intro av
    rw [← dlookup_order h]
    exact (List.mem_dlookup_iff hnodup).symm
  rw [List.mem_map]
  constructor
  · rintro ⟨⟨k, av⟩, he, rfl⟩
    obtain ⟨hl, hignored⟩ := List.mem_filter.mp he
    obtain ⟨hmark, hlen⟩ := Bool.and_eq_true_iff.mp hignored
    exact ⟨hmark, av, (hmem av).mp hl, by simpa using hlen⟩
  · rintro ⟨hmark, av, hlookup, hlen⟩
    refine ⟨⟨ak, av⟩, List.mem_filter.mpr ⟨(hmem av).mpr hlookup, ?_⟩, rfl⟩
    exact Bool.and_eq_true_iff.mpr ⟨hmark, by simpa using hlen⟩

theorem podResult_annotation {cache : Annotations} (e : (_ : String) × String) (r : Result σ)
    (h : podResult decode cache e = some r) : r.annotation = e.1 := by
  unfold podResult at h
  split at h
  · cases h
  · split at h
    · cases h
    · dsimp only at h
      split at h
      · cases h
      · obtain ⟨service, -, rfl⟩ := Option.map_eq_some_iff.mp h
        rfl

theorem cachedResult_annotation {ignore : List String} (e : (_ : String) × String) (r : Result σ)
    (h : cachedResult decode ignore e = some r) : r.annotation = e.1 := by
  unfold cachedResult at h
  split at h
  · cases h
  · split at h
    · cases h
    · obtain ⟨service, -, rfl⟩ := Option.map_eq_some_iff.mp h
      rfl

/-- What a loop of `buildPodResults` makes of the entry of an annotation. -/
def loopEffect (result : Option (Result σ)) (old : Option σ) : Option σ :=
  result.elim old fun r => r.effect old

/-- What the two loops make of the entry of an annotation. -/
theorem buildPodResults_effect (ranges : Ranges) (pod : Pod) (cache : Option Pod) (c : Consumer σ)
    (p ak : String) :
    let ignore := ((ranges.pod (annotations (some pod))).filter ignored).map Sigma.fst
    (buildPodResults decode ranges pod cache).foldl (fun c r => c.apply p r) c p ak
      = loopEffect (((annotations cache).lookup ak).bind fun av => cachedResult decode ignore ⟨ak, av⟩)
          (loopEffect (((annotations (some pod)).lookup ak).bind fun av =>
            podResult decode (annotations cache) ⟨ak, av⟩) (c p ak)) := by
  have hpod := ranges.pod_perm (annotations (some pod))
  have hcache := ranges.cache_perm (annotations cache)
  unfold buildPodResults
  dsimp only
  rw [List.foldl_append,
    Consumer.foldl_apply ((List.perm_nodupKeys hcache).mpr (annotations cache).nodupKeys)
      cachedResult_annotation,
    Consumer.foldl_apply ((List.perm_nodupKeys hpod).mpr (annotations (some pod)).nodupKeys)
      podResult_annotation,
    dlookup_order hpod, dlookup_order hcache]
  rfl

theorem podResult_of_notation {cache : Annotations} {ak av : String} (hak : isNotation ak = true)
    (hav : av.length ≠ 0) (hnew : cache.lookup ak ≠ some av) :
    podResult decode cache ⟨ak, av⟩ = (decode av).map fun service =>
      { action := if (cache.lookup ak).isSome then .update else .create, annotation := ak, service } := by
  have hany : ¬ (cache.lookup ak).any (fun cav => cav.length > 0 && cav = av) = true := by
    intro hany
    cases hcav : cache.lookup ak with
    | none =>
      rw [hcav] at hany
      cases hany
    | some cav =>
      rw [hcav] at hany
      have heq : cav = av := of_decide_eq_true (Bool.and_eq_true_iff.mp hany).2
      exact hnew (hcav.trans (congrArg some heq))
  unfold podResult
  dsimp only
  rw [if_neg (by rw [hak]; exact nofun), if_neg hav, if_neg hany]

theorem podResult_of_known {cache : Annotations} {ak av : String} (hknown : cache.lookup ak = some av) :
    podResult decode cache ⟨ak, av⟩ = none := by
  unfold podResult
  dsimp only
  split
  · rfl
  · split
    · rfl
    · next hav =>
      have hany : (cache.lookup ak).any (fun cav => cav.length > 0 && cav = av) = true := by
        rw [hknown]
        simpa using Nat.pos_of_ne_zero hav
      rw [if_pos hany]

theorem podResult_of_other {cache : Annotations} {ak av : String}
    (h : ¬ (isNotation ak = true ∧ av.length ≠ 0)) : podResult decode cache ⟨ak, av⟩ = none := by
  unfold podResult
  dsimp only
  split
  · rfl
  · next hak =>
    have hav : av.length = 0 := by
      by_contra hav
      exact h ⟨by simpa using hak, hav⟩
    rw [if_pos hav]

/-- The loop over the cache passes over an annotation that is no notation, and over one that the pod has. -/
theorem cachedResult_of_ignored {cache : Annotations} {ignore : List String} {ak : String}
    (h : isNotation ak = false ∨ ak ∈ ignore) :
    ((cache.lookup ak).bind fun av => cachedResult decode ignore ⟨ak, av⟩) = none := by
  cases cache.lookup ak with
  | none => rfl
  | some cav =>
    rw [Option.bind_some]
    unfold cachedResult
    rcases h with hak | hmem
    · dsimp only
      rw [if_pos hak, ite_self]
    · rw [if_pos hmem]

/-- The loop over the cache takes a notation back that the pod does not have. -/
theorem cachedResult_effect {cache : Annotations} {ignore : List String} {ak : String}
    (hak : isNotation ak = true) (hnot : ak ∉ ignore) (old : Option σ) :
    loopEffect ((cache.lookup ak).bind fun av => cachedResult decode ignore ⟨ak, av⟩) old
      = ((cache.lookup ak).bind decode).elim old fun _ => none := by
  cases cache.lookup ak with
  | none => rfl
  | some cav =>
    rw [Option.bind_some, Option.bind_some]
    unfold cachedResult
    dsimp only
    rw [if_neg hnot, if_neg (by rw [hak]; exact nofun)]
    cases decode cav <;> rfl

/-- The effect of the results of a running pod on the entry of a notation. -/
theorem running_effect (ranges : Ranges) (pod : Pod) (cache : Option Pod) (c : Consumer σ) (p ak : String) :
    (buildPodResults decode ranges pod cache).foldl (fun c r => c.apply p r) c p ak =
      if isNotation ak = false then c p ak
      else
        match (annotations (some pod)).lookup ak with
        | some av =>
          if av.length = 0 then (((annotations cache).lookup ak).bind decode).elim (c p ak) fun _ => none
          else if (annotations cache).lookup ak = some av then c p ak
          else (decode av).elim (c p ak) some
        | none => (((annotations cache).lookup ak).bind decode).elim (c p ak) fun _ => none := by
  rw [buildPodResults_effect]
  have hignore :
      ak ∈ ((ranges.pod (annotations (some pod))).filter ignored).map Sigma.fst ↔
        isNotation ak = true ∧ ∃ av, (annotations (some pod)).lookup ak = some av ∧ av.length ≠ 0 :=
    mem_ignore (ranges.pod_perm (annotations (some pod)))
  generalize hignore' : ((ranges.pod (annotations (some pod))).filter ignored).map Sigma.fst = ignore at *
  by_cases hak : isNotation ak = false
  · rw [if_pos hak]
    have hnot : ¬ isNotation ak = true := by
      rw [hak]
      exact nofun
    have hfirst : (((annotations (some pod)).lookup ak).bind fun av =>
        podResult decode (annotations cache) ⟨ak, av⟩) = none := by
      cases (annotations (some pod)).lookup ak with
      | none => rfl
      | some av => exact podResult_of_other fun h => hnot h.1
    rw [hfirst, cachedResult_of_ignored (.inl hak)]
    rfl
  · rw [if_neg hak]
    have hak' : isNotation ak = true := by simpa using hak
    cases hpod : (annotations (some pod)).lookup ak with
    | none =>
      have hnot : ak ∉ ignore := by
        rw [hignore, hpod]
        rintro ⟨-, av, hav, -⟩
        cases hav
      exact cachedResult_effect hak' hnot _
    | some av =>
      by_cases hav : av.length = 0
      · have hnot : ak ∉ ignore := by
          rw [hignore, hpod]
          rintro ⟨-, av', hav', hlen⟩
          exact hlen (Option.some.inj hav' ▸ hav)
        dsimp only
        rw [if_pos hav, Option.bind_some, podResult_of_other fun h => h.2 hav]
        exact cachedResult_effect hak' hnot _
      · have hmem : ak ∈ ignore := hignore.mpr ⟨hak', av, hpod, hav⟩
        dsimp only
        rw [if_neg hav, Option.bind_some, cachedResult_of_ignored (.inr hmem)]
        by_cases hknown : (annotations cache).lookup ak = some av
        · rw [if_pos hknown, podResult_of_known hknown]
          rfl
        · rw [if_neg hknown, podResult_of_notation hak' hav hknown]
          cases decode av with
          | none => rfl
          | some service =>
            cases (annotations cache).lookup ak <;> rfl

/-- The effect of the results of a pod that does not run. -/
theorem stopped_effect (ranges : Ranges) (pod : Pod) (c : Consumer σ) (p ak : String) :
    ((buildPodResults decode ranges pod none).map fun r => { r with action := .delete }).foldl
        (fun c r => c.apply p r) c p ak =
      if isNotation ak = false then c p ak
      else
        match (annotations (some pod)).lookup ak with
        | some av => if av.length = 0 then c p ak else (decode av).elim (c p ak) fun _ => none
        | none => c p ak := by
  have hpod := ranges.pod_perm (annotations (some pod))
  have hcache : ranges.cache (annotations none) = [] := (ranges.cache_perm (annotations none)).eq_nil
  have hresults : (buildPodResults decode ranges pod none).map (fun r => { r with action := .delete })
      = (ranges.pod (annotations (some pod))).filterMap fun e =>
          (podResult decode (annotations none) e).map fun r => { r with action := .delete } := by
    unfold buildPodResults
    dsimp only
    rw [hcache, List.filterMap_nil, List.append_nil, List.map_filterMap]
  have hannotation : ∀ (e : (_ : String) × String) (r : Result σ),
      (podResult decode (annotations none) e).map (fun r => { r with action := .delete }) = some r →
        r.annotation = e.1 := by
    intro e r h
    obtain ⟨r', hr', rfl⟩ := Option.map_eq_some_iff.mp h
    exact podResult_annotation e r' hr'
  rw [hresults, Consumer.foldl_apply ((List.perm_nodupKeys hpod).mpr (annotations (some pod)).nodupKeys)
    hannotation, dlookup_order hpod]
  cases (annotations (some pod)).lookup ak with
  | none => rw [Option.bind_none, Option.elim_none, ite_self]
  | some av =>
    rw [Option.bind_some]
    dsimp only
    by_cases hak : isNotation ak = true
    · rw [if_neg (by rw [hak]; exact nofun)]
      by_cases hav : av.length = 0
      · rw [if_pos hav, podResult_of_other fun h => h.2 hav]
        rfl
      · have hnew : (annotations none).lookup ak ≠ some av := by
          have hnone : (annotations none).lookup ak = none := AList.lookup_empty ak
          rw [hnone]
          exact nofun
        rw [if_neg hav, podResult_of_notation hak hav hnew]
        cases decode av <;> rfl
    · rw [if_pos (by simpa using hak), podResult_of_other fun h => hak h.1]
      rfl

/-- The pod and its entries after an event. -/
structure Handled (decode : String → Option σ) (s : State σ) (a : PodEvent) (s' : State σ) : Prop where
  pods : s'.watcher.pods = Cluster.apply s.watcher.pods a
  others : ∀ p, p ≠ a.metadata.name → s'.consumer p = s.consumer p
  running : a.Running → ∀ ak, s'.consumer a.metadata.name ak =
    (buildPodResults decode a.ranges a.pod (s.watcher.pods a.metadata.name)).foldl
      (fun c r => c.apply a.metadata.name r) s.consumer a.metadata.name ak
  stopped : ¬ a.Running → ∀ ak, s'.consumer a.metadata.name ak =
    ((buildPodResults decode a.ranges a.pod none).map fun r => { r with action := .delete }).foldl
      (fun c r => c.apply a.metadata.name r) s.consumer a.metadata.name ak

theorem step_handled (decode : String → Option σ) (s : State σ) (a : PodEvent) :
    ∃ s', step decode s a = some s' ∧ Handled decode s a s' := by
  obtain ⟨deleted, metadata, status, ranges⟩ := a
  cases deleted with
  | true =>
    refine ⟨_, rfl, ⟨rfl, fun p hp => Consumer.foldl_apply_of_ne hp _ _, ?_, fun _ ak => rfl⟩⟩
    rintro ⟨hdeleted, -⟩
    cases hdeleted
  | false =>
    by_cases hphase : status.phase = podRunning
    · have hhandle : handleEvent decode ranges s.watcher (PodEvent.event ⟨false, metadata, status, ranges⟩)
          = .ok (buildPodResults decode ranges (PodEvent.pod ⟨false, metadata, status, ranges⟩)
              (s.watcher.pods metadata.name),
            ⟨Function.update s.watcher.pods metadata.name
              (some (PodEvent.pod ⟨false, metadata, status, ranges⟩))⟩) := by
        unfold handleEvent PodEvent.event PodEvent.pod
        dsimp only
        rw [if_pos hphase]
        rfl
      refine ⟨_, by unfold step; rw [hhandle], ⟨rfl, fun p hp => Consumer.foldl_apply_of_ne hp _ _,
        fun _ ak => rfl, fun hnot => absurd ⟨rfl, hphase⟩ hnot⟩⟩
    · have hhandle : handleEvent decode ranges s.watcher (PodEvent.event ⟨false, metadata, status, ranges⟩)
          = .ok ((buildPodResults decode ranges (PodEvent.pod ⟨false, metadata, status, ranges⟩) none).map
              fun r => { r with action := .delete },
            ⟨Function.update s.watcher.pods metadata.name
              (some (PodEvent.pod ⟨false, metadata, status, ranges⟩))⟩) := by
        unfold handleEvent PodEvent.event PodEvent.pod
        dsimp only
        rw [if_neg hphase]
        rfl
      refine ⟨_, by unfold step; rw [hhandle], ⟨rfl, fun p hp => Consumer.foldl_apply_of_ne hp _ _,
        fun hrunning => absurd hrunning.2 hphase, fun _ ak => rfl⟩⟩

theorem running_apply_iff (cluster : Cluster) (a : PodEvent) :
    Pod.Running (cluster.apply a a.metadata.name) ↔ a.Running := by
  obtain ⟨deleted, metadata, status, ranges⟩ := a
  unfold Cluster.apply
  dsimp only
  rw [Function.update_self]
  cases deleted with
  | true => exact iff_of_false nofun fun h => Bool.noConfusion h.1
  | false => exact ⟨fun h => ⟨rfl, Option.some.inj h⟩, fun h => congrArg some h.2⟩

/-- What a pod announces after an event that leaves it running. -/
theorem announced_running (cluster : Cluster) (ha : a.Running) (ak : String) :
    announced decode (cluster.apply a a.metadata.name) ak =
      if isNotation ak = true then
        (a.metadata.annotations.lookup ak).bind fun av => if av.length = 0 then none else decode av
      else none := by
  have hpod : cluster.apply a a.metadata.name = some a.pod := by
    unfold Cluster.apply
    rw [Function.update_self, ha.1]
    rfl
  have hrunning := (running_apply_iff cluster a).mpr ha
  rw [hpod] at hrunning ⊢
  unfold announced
  simp only [hrunning, true_and]
  rfl

theorem announced_of_not_running {pod : Option Pod} (h : ¬ Pod.Running pod) (ak : String) :
    announced decode pod ak = none := if_neg fun h' => h h'.1

theorem announced_eq_none {ak : String} (h : ¬ isNotation ak = true) (pod : Option Pod) :
    announced decode pod ak = none := if_neg fun h' => h h'.2

/-- What an annotation that cannot be decoded announces. -/
theorem announced_of_bind {pod : Option Pod} {ak : String}
    (h : ((annotations pod).lookup ak).bind decode = none) : announced decode pod ak = none := by
  unfold announced
  split
  · cases hlookup : (annotations pod).lookup ak with
    | none => rfl
    | some av =>
      rw [hlookup] at h
      have hav : decode av = none := h
      rw [Option.bind_some, hav, ite_self]
  · rfl

theorem announced_of_lookup {pod : Option Pod} {ak av : String} (hpod : Pod.Running pod)
    (hak : isNotation ak = true) (hlookup : (annotations pod).lookup ak = some av) (hav : av.length ≠ 0) :
    announced decode pod ak = decode av := by
  unfold announced
  rw [if_pos ⟨hpod, hak⟩, hlookup, Option.bind_some, if_neg hav]

/-- An entry of a running pod is right after an event if and only if the event is complete about it. -/
theorem running_entry_iff {cache : Option Pod} {ann : Annotations} {ak : String} :
    ((if isNotation ak = false then announced decode cache ak
      else
        match ann.lookup ak with
        | some av =>
          if av.length = 0 then
            (((annotations cache).lookup ak).bind decode).elim (announced decode cache ak) fun _ => none
          else if (annotations cache).lookup ak = some av then announced decode cache ak
          else (decode av).elim (announced decode cache ak) some
        | none =>
          (((annotations cache).lookup ak).bind decode).elim (announced decode cache ak) fun _ => none)
      = if isNotation ak = true then
          (ann.lookup ak).bind fun av => if av.length = 0 then none else decode av
        else none) ↔
    ∀ av, isNotation ak = true → ann.lookup ak = some av → av.length ≠ 0 →
      (¬ Pod.Running cache → (annotations cache).lookup ak = some av → decode av = none) ∧
        (decode av = none → announced decode cache ak = none) := by
  -- an annotation that is gone
  have hgone : (((annotations cache).lookup ak).bind decode).elim (announced decode cache ak)
      (fun _ => none) = none := by
    cases hbind : ((annotations cache).lookup ak).bind decode with
    | none => exact announced_of_bind hbind
    | some service => rfl
  by_cases hak : isNotation ak = true
  · rw [if_neg (by rw [hak]; exact nofun), if_pos hak]
    cases hlookup : ann.lookup ak with
    | none => exact iff_of_true hgone fun av _ h => nomatch h
    | some av =>
      rw [Option.bind_some]
      dsimp only
      by_cases hav : av.length = 0
      · rw [if_pos hav, if_pos hav]
        exact iff_of_true hgone fun av' _ h hlen => absurd (Option.some.inj h ▸ hav) hlen
      · rw [if_neg hav, if_neg hav]
        have hrest : (∀ av', isNotation ak = true → some av = some av' → av'.length ≠ 0 →
            (¬ Pod.Running cache → (annotations cache).lookup ak = some av' → decode av' = none) ∧
              (decode av' = none → announced decode cache ak = none)) ↔
            (¬ Pod.Running cache → (annotations cache).lookup ak = some av → decode av = none) ∧
              (decode av = none → announced decode cache ak = none) := by
          refine ⟨fun h => h av hak rfl hav, fun h av' _ heq _ => ?_⟩
          obtain rfl := Option.some.inj heq
          exact h
        rw [hrest]
        by_cases hknown : (annotations cache).lookup ak = some av
        · rw [if_pos hknown]
          by_cases hrunning : Pod.Running cache
          · rw [announced_of_lookup hrunning hak hknown hav]
            exact iff_of_true rfl ⟨fun h => absurd hrunning h, id⟩
          · rw [announced_of_not_running hrunning]
            exact ⟨fun h => ⟨fun _ _ => h.symm, fun _ => rfl⟩, fun h => (h.1 hrunning hknown).symm⟩
        · rw [if_neg hknown]
          cases hdecode : decode av with
          | none => exact ⟨fun h => ⟨fun _ h' => absurd h' hknown, fun _ => h⟩, fun h => h.2 rfl⟩
          | some service => exact iff_of_true rfl ⟨fun _ h' => absurd h' hknown, nofun⟩
  · rw [if_pos (by simpa using hak), if_neg hak]
    exact iff_of_true (announced_eq_none hak cache) fun _ h => absurd h hak

/-- An entry of a pod that does not run is gone after an event if and only if the event is complete about
it. -/
theorem stopped_entry_iff {cache : Option Pod} {ann : Annotations} {ak : String} :
    ((if isNotation ak = false then announced decode cache ak
      else
        match ann.lookup ak with
        | some av =>
          if av.length = 0 then announced decode cache ak
          else (decode av).elim (announced decode cache ak) fun _ => none
        | none => announced decode cache ak) = none) ↔
    (announced decode cache ak ≠ none →
      ∃ av, ann.lookup ak = some av ∧ av.length ≠ 0 ∧ decode av ≠ none) := by
  by_cases hak : isNotation ak = true
  · rw [if_neg (by rw [hak]; exact nofun)]
    cases hlookup : ann.lookup ak with
    | none =>
      refine ⟨fun h hne => absurd h hne, fun h => ?_⟩
      by_contra hne
      obtain ⟨av, hav, -⟩ := h hne
      cases hav
    | some av =>
      dsimp only
      by_cases hav : av.length = 0
      · rw [if_pos hav]
        refine ⟨fun h hne => absurd h hne, fun h => ?_⟩
        by_contra hne
        obtain ⟨av', heq, hlen, -⟩ := h hne
        exact hlen (Option.some.inj heq ▸ hav)
      · rw [if_neg hav]
        cases hdecode : decode av with
        | none =>
          refine ⟨fun h hne => absurd h hne, fun h => ?_⟩
          by_contra hne
          obtain ⟨av', heq, -, hsome⟩ := h hne
          exact hsome (Option.some.inj heq ▸ hdecode)
        | some service =>
          refine iff_of_true rfl fun _ => ⟨av, rfl, hav, ?_⟩
          rw [hdecode]
          exact nofun
  · have hnone : announced decode cache ak = none := announced_eq_none hak cache
    rw [if_pos (by simpa using hak)]
    exact iff_of_true hnone fun hne => absurd hnone hne

/-- **One event**: the consumer still knows the right services if and only if the event is complete. -/
theorem step_tracks_iff (hs : Tracks decode s.watcher.pods s) (h : step decode s a = some s') :
    Tracks decode s'.watcher.pods s' ↔ Complete decode s a := by
  obtain ⟨s₁, hs₁, hhandled⟩ := step_handled decode s a
  obtain rfl : s₁ = s' := Option.some.inj (hs₁.symm.trans h)
  have hothers : ∀ p, p ≠ a.metadata.name → ∀ ak,
      s₁.consumer p ak = announced decode (s₁.watcher.pods p) ak := by
    intro p hp ak
    have hpod : Cluster.apply s.watcher.pods a p = s.watcher.pods p := Function.update_of_ne hp _ _
    rw [hhandled.others p hp, hhandled.pods, hpod]
    exact hs p ak
  have hpod : Tracks decode s₁.watcher.pods s₁ ↔ ∀ ak, s₁.consumer a.metadata.name ak
      = announced decode (Cluster.apply s.watcher.pods a a.metadata.name) ak := by
    rw [← hhandled.pods]
    refine ⟨fun h ak => h _ ak, fun h p ak => ?_⟩
    by_cases hp : p = a.metadata.name
    · exact hp ▸ h ak
    · exact hothers p hp ak
  have hold : ∀ ak, s.consumer a.metadata.name ak
      = announced decode (s.watcher.pods a.metadata.name) ak := hs a.metadata.name
  rw [hpod]
  unfold Complete
  by_cases ha : a.Running
  · dsimp only
    rw [if_pos ha]
    refine forall_congr' fun ak => ?_
    rw [hhandled.running ha ak, running_effect, announced_running s.watcher.pods ha ak, hold ak]
    exact running_entry_iff
  · dsimp only
    rw [if_neg ha]
    refine forall_congr' fun ak => ?_
    have hnone : announced decode (Cluster.apply s.watcher.pods a a.metadata.name) ak = none :=
      announced_of_not_running ((running_apply_iff s.watcher.pods a).not.mpr ha) ak
    rw [hhandled.stopped ha ak, stopped_effect, hnone, hold ak]
    exact stopped_entry_iff

end Step

/-! ## Every run -/

theorem tracks_start : Tracks decode (start : State σ).watcher.pods start := fun _ _ => rfl

/-- The cache of the watcher are the pods of the cluster. -/
theorem pods_eq {s s' : State σ} {as : List PodEvent} (hrun : run (step decode) s as = some s') :
    s'.watcher.pods = as.foldl Cluster.apply s.watcher.pods := by
  induction as generalizing s with
  | nil =>
    obtain rfl := Option.some.inj hrun
    rfl
  | cons a as ih =>
    obtain ⟨s₁, hs₁, hrun⟩ := run_cons_eq_some.mp hrun
    obtain ⟨s₂, hs₂, hhandled⟩ := step_handled decode s a
    obtain rfl : s₂ = s₁ := Option.some.inj (hs₂.symm.trans hs₁)
    rw [ih hrun, List.foldl_cons, hhandled.pods]

/-- **Tracking**: each sequence of events is handled, and after each of its events the consumer knows exactly
the services of the running pods, if and only if each event was complete. -/
theorem tracks_iff_complete (as : List PodEvent) :
    (∃ s, run (step decode) start as = some s) ∧
    ((∀ bs s, bs <+: as → run (step decode) start bs = some s →
      Tracks decode (bs.foldl Cluster.apply fun _ => none) s) ↔
    Along (step decode) (Complete decode) start as) := by
  have henabled : ∀ (s : State σ) a, ∃ s', step decode s a = some s' := by
    intro s a
    obtain ⟨s', hs', -⟩ := step_handled decode s a
    exact ⟨s', hs'⟩
  refine ⟨?_, ?_⟩
  · have htotal : ∃ s, run (step decode) start as = some s ∧ True :=
      run_total (P := fun _ => True) (C := fun _ => True)
        (fun s a _ _ => (henabled s a).imp fun _ h => ⟨h, trivial⟩) trivial (fun a _ => trivial)
    exact htotal.imp fun s h => h.1
  · rw [← prefixes_iff_along (P := fun s => Tracks decode s.watcher.pods s) (fun s a _ => henabled s a)
      (fun s a s' hs h => step_tracks_iff hs h) (tracks_start decode)]
    refine forall₄_congr fun bs s _ hrun => ?_
    rw [pods_eq decode hrun]
    rfl

/-! ### A pod with one service -/

def sampleText : String := "\x7b\"name\":\"users\"\x7d"

/-- The name of the service, for this text. -/
def sampleDecode (av : String) : Option String := if av = sampleText then some "users" else none

def sampleRanges : Ranges where
  pod m := m.entries
  cache m := m.entries
  pod_perm _ := .refl _
  cache_perm _ := .refl _

def samplePod (phase : String) : PodEvent where
  deleted := false
  metadata := ⟨"web-0", AList.singleton "go.micro/users" sampleText⟩
  status := ⟨phase⟩
  ranges := sampleRanges

/-- The pod is deleted, and the event shows it without its annotation. -/
def sampleDeleted : PodEvent :=
  { samplePod "Running" with deleted := true, metadata := ⟨"web-0", ∅⟩ }

/-- A pod that is annotated before it runs is not announced; and one that is deleted without its annotation
is not taken back. -/
theorem not_tracks_samplePod :
    (∃ s, run (step sampleDecode) start [samplePod "Pending", samplePod "Running"] = some s ∧
      s.consumer "web-0" "go.micro/users" = none ∧
      ¬ Tracks sampleDecode ([samplePod "Pending", samplePod "Running"].foldl Cluster.apply fun _ => none) s) ∧
    ∃ s, run (step sampleDecode) start [samplePod "Running", sampleDeleted] = some s ∧
      s.consumer "web-0" "go.micro/users" = some "users" ∧
      ¬ Tracks sampleDecode ([samplePod "Running", sampleDeleted].foldl Cluster.apply fun _ => none) s := by
  refine ⟨⟨_, rfl, rfl, fun h => ?_⟩, ⟨_, rfl, rfl, fun h => ?_⟩⟩
  · have hentry : (none : Option String) = some "users" := h "web-0" "go.micro/users"
    cases hentry
  · have hentry : some "users" = (none : Option String) := h "web-0" "go.micro/users"
    cases hentry

end Vmqant.Registry.Kubernetes
