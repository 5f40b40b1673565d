import Vmqant.Registry.ConsulWatcher
import Vmqant.Selector.CacheModel

/-!
# The cache behind the Consul watcher

The watcher turns a snapshot into results and the cache takes them up one by one. What matters of an
entry are its nodes version by version (`nodesAt`), and a result only changes those of its own
version, so the results of a snapshot can be followed one version at a time.

An empty snapshot carries no service name: the handler then looks under the empty name, finds nothing
to delete, and the cache keeps the nodes that are gone. `tracks_iff` says that this is the only way to
lose track.
-/

namespace Vmqant.Selector

open Registry Registry.Consul Keyed

/-! ## Snapshots and entries as sets -/

/-- The nodes of a version, none when the version is not there. -/
def nodesAt (services : List Service) (version : String) : List Node :=
  (versionNodes services version).getD []

/-- The nodes of an entry with their versions. -/
def tuples (services : List Service) : Set (String × Node) :=
  { p | ∃ s ∈ services, s.version = p.1 ∧ p.2 ∈ s.nodes }

/-- The nodes of a snapshot that are not critical, with their versions. -/
def healthy (dec : TagDecoder) (entries : List ServiceEntry) : Set (String × Node) :=
  { p | ∃ e ∈ entries, e.critical = false ∧ p = (e.version dec, e.node dec) }

theorem healthy_nil (dec : TagDecoder) : healthy dec [] = ∅ := by
  apply Set.eq_empty_of_forall_notMem
  intro p hp
  obtain ⟨e, he, -⟩ := hp
  cases he

/-- There is no entry for the service, or a well-formed one with exactly the given nodes. -/
def Agrees (c : CacheSelector) (name : String) (nodes : Set (String × Node)) : Prop :=
  ∀ services, c.cache name = some services → EntryWf name services ∧ tuples services = nodes

/-- The results go to the cache in order, at any times. -/
def feed (c : CacheSelector) : (ℕ → ℤ) → List Result → CacheSelector
  | _, [] => c
  | now, r :: rs => feed (update c (now 0) (some r)).1 (fun i => now (i + 1)) rs

theorem mem_tuples {services : List Service} (hd : Distinct Service.version services)
    {version : String} {node : Node} :
    (version, node) ∈ tuples services ↔ node ∈ nodesAt services version := by
  unfold nodesAt versionNodes
  constructor
  · rintro ⟨s, hs, hv, hn⟩
    have hlookup : lookup Service.version services version = some s :=
      hd.lookup_eq_some.mpr ⟨hs, hv⟩
    rw [hlookup]
    exact hn
  · intro hn
    cases hlookup : lookup Service.version services version with
    | none =>
      rw [hlookup] at hn
      cases hn
    | some s =>
      rw [hlookup] at hn
      obtain ⟨hs, hv⟩ := mem_of_lookup hlookup
      exact ⟨s, hs, hv, hn⟩

theorem tuples_perm {services services' : List Service} (h : services.Perm services') :
    tuples services = tuples services' := by
  ext p
  exact exists_congr fun s => and_congr_left fun _ => h.mem_iff

theorem tuples_eq_of_nodesAt {services services' : List Service}
    (hd : Distinct Service.version services) (hd' : Distinct Service.version services')
    (h : ∀ version, nodesAt services version = nodesAt services' version) :
    tuples services = tuples services' := by
  ext ⟨version, node⟩
  rw [mem_tuples hd, mem_tuples hd', h]

/-! ## One result -/

/-- What a result does to the nodes of its version. -/
def resultNodes (r : Result) (old : List Node) : List Node :=
  match r.action with
  | .create | .update =>
    if r.service.nodes = [] then old else appendOld r.service.nodes old
  | .delete => old.filter fun cur => !seen r.service.nodes cur
  | .other _ => old

/-- No entry, or a well-formed one with the nodes `f`. -/
def Has (c : CacheSelector) (name : String) (f : String → List Node) : Prop :=
  ∀ services, c.cache name = some services →
    EntryWf name services ∧ ∀ version, nodesAt services version = f version

theorem Has.set {c : CacheSelector} {name version : String} {f : String → List Node} {now : ℤ}
    {services services' : List Service} (h : Has c name f) (hs : c.cache name = some services)
    (hw : EntryWf name services') {nodes : Option (List Node)}
    (hv : versionNodes services' = Function.update (versionNodes services) version nodes) :
    Has (c.set now name services') name (Function.update f version (nodes.getD [])) := by
  intro l hl
  rw [cache_set, if_pos rfl] at hl
  obtain rfl := Option.some.inj hl
  refine ⟨hw, fun v => ?_⟩
  rw [nodesAt, hv, Function.update_apply, Function.update_apply]
  split
  · rfl
  · exact (h services hs).2 v

theorem Has.del (c : CacheSelector) (name : String) (f : String → List Node) :
    Has (c.del name) name f := by
  intro l hl
  rw [cache_del, if_pos rfl] at hl
  cases hl

/-- A result changes the nodes of its own version only. -/
theorem Has.update {c : CacheSelector} {f : String → List Node} {r : Result} (now : ℤ)
    (h : Has c r.service.name f) :
    Has (update c now (some r)).1 r.service.name
      (Function.update f r.service.version (resultNodes r (f r.service.version))) := by
  cases hs : c.cache r.service.name with
  | none =>
    rw [update_absent c now hs]
    intro services hservices
    rw [hs] at hservices
    cases hservices
  | some services =>
    obtain ⟨hw, hf⟩ := h services hs
    have hversion : (versionNodes services r.service.version).getD [] = f r.service.version :=
      hf r.service.version
    -- three ends are shared by several branches: nothing changes, an update, a delete
    have hsame : resultNodes r (f r.service.version) = f r.service.version →
        Has c r.service.name
          (Function.update f r.service.version (resultNodes r (f r.service.version))) := by
      intro heq
      rw [heq, Function.update_eq_self]
      exact h
    rw [update_cached c now hs]
    by_cases hnodes : r.service.nodes = []
    · rw [if_pos (List.length_eq_zero_iff.mpr hnodes)]
      cases hact : r.action with
      | delete => exact Has.del c _ _
      | create => exact hsame (by rw [resultNodes, hact]; exact if_pos hnodes)
      | update => exact hsame (by rw [resultNodes, hact]; exact if_pos hnodes)
      | other text => exact hsame (by rw [resultNodes, hact])
    · rw [if_neg (mt List.length_eq_zero_iff.mp hnodes)]
      have hupdate : resultNodes r (f r.service.version)
            = appendOld r.service.nodes (f r.service.version) →
          Has (updateNodes c now services r.service) r.service.name
            (Function.update f r.service.version (resultNodes r (f r.service.version))) := by
        intro heq
        obtain ⟨services', hset, hw', hv⟩ := updateNodes_spec c now hw
        rw [hset, heq, ← hversion]
        exact h.set hs hw' hv
      cases hact : r.action with
      | create => exact hupdate (by rw [resultNodes, hact]; exact if_neg hnodes)
      | update => exact hupdate (by rw [resultNodes, hact]; exact if_neg hnodes)
      | other text => exact hsame (by rw [resultNodes, hact])
      | delete =>
        have hdelete : resultNodes r (f r.service.version)
            = (f r.service.version).filter fun cur => !seen r.service.nodes cur := by
          rw [resultNodes, hact]
        dsimp only
        cases hold : versionNodes services r.service.version with
        | none =>
          rw [deleteNodes_none c now hw hold]
          apply hsame
          rw [hdelete, ← hversion, hold]
          rfl
        | some old =>
          rw [hold] at hversion
          rw [hdelete, ← hversion]
          rcases deleteNodes_some c now hw hold with ⟨-, services', hset, hw', hv⟩ |
            ⟨-, -, hdel⟩ | ⟨hnil, -, services', hset, hw', hv⟩
          · rw [hset]
            exact h.set hs hw' hv
          · rw [hdel]
            exact Has.del c _ _
          · rw [hset, Option.getD_some, hnil]
            exact h.set hs hw' hv

/-! ## All results of a snapshot -/

/-- What a list of results does to the nodes of one version. -/
def versionResults (results : List Result) (version : String) (old : List Node) : List Node :=
  (results.filter fun r => r.service.version = version).foldl (fun l r => resultNodes r l) old

theorem Has.feed {c : CacheSelector} {name : String} {f : String → List Node}
    {results : List Result} (now : ℕ → ℤ) (h : Has c name f)
    (hname : ∀ r ∈ results, r.service.name = name) :
    Has (feed c now results) name fun version => versionResults results version (f version) := by
  induction results generalizing c f now with
  | nil => exact h
  | cons r results ih =>
    obtain rfl := hname r List.mem_cons_self
    -- the rest runs on the nodes that the first result leaves
    have hstep := ih (fun i => now (i + 1)) (h.update (now 0))
      fun r' hr' => hname r' (List.mem_cons_of_mem _ hr')
    intro services hservices
    obtain ⟨hw, hnodes⟩ := hstep services hservices
    refine ⟨hw, fun version => ?_⟩
    rw [hnodes version]
    unfold versionResults
    dsimp only
    rw [List.filter_cons, Function.update_apply]
    by_cases hv : version = r.service.version
    · subst hv
      rw [if_pos rfl, if_pos (by simp), List.foldl_cons]
    · rw [if_neg hv, if_neg (by simpa using Ne.symm hv)]

/-! ## The results of the handler, version by version -/

section Handler

variable {oldServices : Option (List Service)} {newServices : List Service}

/-- A result for a new service carries the service, or nodes of the old one of its version. -/
theorem newResults_service {n : Service} {r : Result} (hr : r ∈ newResults oldServices n) :
    r.service.version = n.version ∧
      (r.service.name = n.name ∨ ∃ o ∈ oldServices.getD [], r.service.name = o.name) := by
  cases oldServices with
  | none =>
    rw [List.mem_singleton.mp hr]
    exact ⟨rfl, .inl rfl⟩
  | some olds =>
    rcases List.mem_append.mp hr with hr | hr
    · rw [flatMap_ite_key] at hr
      obtain ⟨o, ho, hr⟩ := List.mem_flatMap.mp hr
      obtain ⟨hmem, hv⟩ := List.mem_filter.mp ho
      dsimp only at hr
      split at hr
      · rw [List.mem_singleton.mp hr]
        exact ⟨by simpa using hv, .inr ⟨o, hmem, rfl⟩⟩
      · cases hr
    · rw [List.mem_singleton.mp hr]
      exact ⟨rfl, .inl rfl⟩

/-- Nodes that all have an id of the result are not appended. -/
theorem appendOld_of_seen {nodes old : List Node} (h : ∀ node ∈ old, seen nodes node = true) :
    appendOld nodes old = nodes := by
  unfold appendOld
  induction old with
  | nil => rfl
  | cons cur old ih =>
    rw [List.foldl_cons, if_pos (h cur List.mem_cons_self)]
    exact ih fun node hnode => h node (List.mem_cons_of_mem _ hnode)

theorem seen_of_mem {nodes : List Node} {node : Node} (h : node ∈ nodes) : seen nodes node = true :=
  List.any_eq_true.mpr ⟨node, h, by simp⟩

/-- A create or an update of a version whose old nodes all have an id of the new ones leaves the new
ones. -/
theorem resultNodes_new {r : Result} {old : List Node} (hr : r.action = .create ∨ r.action = .update)
    (h : ∀ node ∈ old, seen r.service.nodes node = true) : resultNodes r old = r.service.nodes := by
  have heq : resultNodes r old
      = if r.service.nodes = [] then old else appendOld r.service.nodes old := by
    rcases hr with hr | hr <;> rw [resultNodes, hr]
  rw [heq]
  split
  · next hnil =>
    rw [hnil] at h ⊢
    apply List.eq_nil_iff_forall_not_mem.mpr
    intro node hnode
    exact absurd (h node hnode) (by simp [seen])
  · exact appendOld_of_seen h

/-- The nodes of a version that is in the new snapshot become those of the snapshot. -/
theorem versionResults_new {n : Service} {old : List Node}
    (hold : ∀ node ∈ old, node ∈ nodesAt (oldServices.getD []) n.version)
    (hdo : Distinct Service.version (oldServices.getD [])) :
    versionResults (newResults oldServices n) n.version old = n.nodes := by
  have hall : (newResults oldServices n).filter (fun r => r.service.version = n.version)
      = newResults oldServices n := by
    apply List.filter_eq_self.mpr
    intro r hr
    simpa using (newResults_service hr).1
  rw [versionResults, hall]
  cases oldServices with
  | none =>
    have hnil : old = [] := List.eq_nil_iff_forall_not_mem.mpr fun node hnode => by
      have := hold node hnode
      cases this
    rw [hnil]
    exact resultNodes_new (r := ⟨.create, n⟩) (.inl rfl) (by simp)
  | some olds =>
    rw [Option.getD_some] at hold hdo
    unfold newResults
    dsimp only
    rw [List.foldl_append, flatMap_ite_key, hdo.filter_key]
    rw [List.foldl_cons, List.foldl_nil]
    apply resultNodes_new (by dsimp only; split <;> simp)
    unfold nodesAt versionNodes at hold
    cases ho : lookup Service.version olds n.version with
    | none =>
      rw [ho] at hold
      intro node hnode
      cases hold node hnode
    | some o =>
      rw [ho] at hold
      replace hold : ∀ node ∈ old, node ∈ o.nodes := hold
      -- what is left after the delete has an id of the new nodes
      rw [Option.toList_some, List.flatMap_singleton]
      split
      · intro node hnode
        obtain ⟨hmem, hkeep⟩ := List.mem_filter.mp hnode
        by_contra hnew
        have hgone : node ∈ o.nodes.filter fun oldNode => !seen n.nodes oldNode :=
          List.mem_filter.mpr ⟨hold node hmem, by simpa using hnew⟩
        rw [seen_of_mem hgone] at hkeep
        cases hkeep
      · next hnone =>
        intro node hnode
        by_contra hnew
        have hgone : node ∈ o.nodes.filter fun oldNode => !seen n.nodes oldNode :=
          List.mem_filter.mpr ⟨hold node hnode, by simpa using hnew⟩
        exact hnone (List.length_pos_of_mem hgone)

/-- The old versions that get a delete: those that are not in the new snapshot. -/
theorem oldResults_version {olds : List Service} {version : String} :
    (oldResults olds newServices).filter (fun r => r.service.version = version)
      = if (lookup Service.version newServices version).isSome then []
        else (olds.filter fun o => o.version = version).map fun o => ⟨.delete, o⟩ := by
  have hkeep : ∀ o : Service, (decide (o.version = version)
        && !newServices.any fun s => s.version = o.version)
      = (decide (o.version = version) && !(lookup Service.version newServices version).isSome) := by
    intro o
    by_cases hv : o.version = version
    · have hany : (newServices.any fun s => s.version = version)
          = (lookup Service.version newServices version).isSome := by
        rw [Bool.eq_iff_iff]
        simp [lookup]
      rw [hv, hany]
    · simp [hv]
  unfold oldResults
  rw [List.filter_map, List.filter_filter]
  apply (congrArg _ (List.filter_congr fun o _ => hkeep o)).trans
  cases (lookup Service.version newServices version).isSome <;> simp

/-- The nodes of a version that is not in the new snapshot: everything its old service had is
deleted. -/
theorem versionResults_old {version : String} {old : List Node}
    (hold : ∀ node ∈ old, node ∈ nodesAt (oldServices.getD []) version)
    (hdo : Distinct Service.version (oldServices.getD []))
    (hnew : lookup Service.version newServices version = none) :
    versionResults (oldResults (oldServices.getD []) newServices) version old = [] := by
  rw [versionResults, oldResults_version, hnew, if_neg (by simp), hdo.filter_key]
  unfold nodesAt versionNodes at hold
  cases ho : lookup Service.version (oldServices.getD []) version with
  | none =>
    rw [ho] at hold
    exact List.eq_nil_iff_forall_not_mem.mpr fun node hnode => by cases hold node hnode
  | some o =>
    rw [ho] at hold
    replace hold : ∀ node ∈ old, node ∈ o.nodes := hold
    apply List.filter_eq_nil_iff.mpr
    intro node hnode
    rw [seen_of_mem (hold node hnode)]
    simp

/-- All results of a snapshot together: each version has the nodes of the new snapshot. -/
theorem versionResults_handler {f : String → List Node}
    (hf : ∀ version, ∀ node ∈ f version, node ∈ nodesAt (oldServices.getD []) version)
    (hdo : Distinct Service.version (oldServices.getD []))
    (hdn : Distinct Service.version newServices) (version : String) :
    versionResults (newServices.flatMap (newResults oldServices)
        ++ oldResults (oldServices.getD []) newServices) version (f version)
      = nodesAt newServices version := by
  have hflat : (newServices.flatMap (newResults oldServices)).filter
        (fun r => r.service.version = version)
      = (lookup Service.version newServices version).toList.flatMap (newResults oldServices) := by
    rw [filter_flatMap Service.version fun n _ r hr => (newResults_service hr).1,
      hdn.filter_key]
  -- a version gets results from one half of the list only
  cases hnew : lookup Service.version newServices version with
  | none =>
    rw [hnew] at hflat
    have hold := versionResults_old (hf version) hdo hnew
    rw [versionResults, List.filter_append, hflat, nodesAt, versionNodes, hnew]
    exact hold
  | some n =>
    obtain ⟨-, rfl⟩ := mem_of_lookup hnew
    rw [hnew] at hflat
    rw [versionResults, List.filter_append, hflat, oldResults_version, hnew, nodesAt, versionNodes,
      hnew, if_pos (Option.isSome_some), List.append_nil, Option.toList_some,
      List.flatMap_singleton]
    have h := versionResults_new (hf n.version) hdo
    rw [versionResults, List.filter_eq_self.mpr] at h
    · exact h
    · intro r hr
      simpa using (newResults_service hr).1

end Handler

/-! ## The snapshot by versions -/

section Snapshot

variable (dec : TagDecoder)

/-- The service of a version is made without nodes when it is not there. -/
def withVersion (m : List Service) (e : ServiceEntry) : List Service :=
  if m.any fun svc => svc.version = e.version dec then m
  else
    m ++ [{ name := e.service.service, version := e.version dec,
            endpoints := dec.endpoints e.service.tags }]

theorem withVersion_spec {m : List Service} (hd : Distinct Service.version m) (e : ServiceEntry) :
    Distinct Service.version (withVersion dec m e) ∧
    (lookup Service.version (withVersion dec m e) (e.version dec)).isSome ∧
    ∀ version, nodesAt (withVersion dec m e) version = nodesAt m version := by
  unfold withVersion
  split
  · next hany =>
    refine ⟨hd, ?_, fun _ => rfl⟩
    simpa [lookup] using hany
  · next hany =>
    have hnone : lookup Service.version m (e.version dec) = none := by
      rw [lookup_eq_none]
      simpa using hany
    refine ⟨hd.concat hnone, ?_, fun version => ?_⟩
    · rw [lookup_append, hnone, lookup_cons, if_pos rfl]
      rfl
    · unfold nodesAt
      rw [versionNodes_concat hnone, Function.update_apply]
      split
      · next hv => rw [hv, versionNodes, hnone]; rfl
      · rfl

/-- One entry adds its node to its version, unless it is critical. -/
theorem addEntry_spec {m : List Service} (hd : Distinct Service.version m) (e : ServiceEntry) :
    Distinct Service.version (addEntry dec m e) ∧
    ∀ version, nodesAt (addEntry dec m e) version
      = nodesAt m version ++ if e.version dec = version ∧ e.critical = false then [e.node dec]
        else [] := by
  obtain ⟨hdist, hsome, hnodes⟩ := withVersion_spec dec hd e
  have hdef : addEntry dec m e = if e.critical then withVersion dec m e
      else (withVersion dec m e).map fun svc =>
        if svc.version = e.version dec then { svc with nodes := svc.nodes ++ [e.node dec] }
        else svc := rfl
  rw [hdef]
  by_cases hcritical : e.critical = true
  · rw [if_pos hcritical]
    refine ⟨hdist, fun version => ?_⟩
    rw [hnodes, if_neg (by simp [hcritical]), List.append_nil]
  · rw [if_neg hcritical]
    have hkey : ∀ svc : Service, (if svc.version = e.version dec
        then { svc with nodes := svc.nodes ++ [e.node dec] } else svc).version = svc.version := by
      intro svc
      split <;> rfl
    refine ⟨hdist.map hkey, fun version => ?_⟩
    rw [← hnodes]
    unfold nodesAt versionNodes
    rw [lookup_map hkey]
    by_cases hv : e.version dec = version
    · subst hv
      obtain ⟨svc, hsvc⟩ := Option.isSome_iff_exists.mp hsome
      rw [hsvc, if_pos ⟨rfl, by simpa using hcritical⟩]
      simp [(mem_of_lookup hsvc).2]
    · rw [if_neg fun h => hv h.1, List.append_nil]
      cases hsvc : lookup Service.version (withVersion dec m e) version with
      | none => rfl
      | some svc =>
        have hne : svc.version ≠ e.version dec := by
          rw [(mem_of_lookup hsvc).2]
          exact Ne.symm hv
        simp [hne]

theorem nodesAt_foldl {m : List Service} (hd : Distinct Service.version m)
    (entries : List ServiceEntry) :
    Distinct Service.version (entries.foldl (addEntry dec) m) ∧
    ∀ version, nodesAt (entries.foldl (addEntry dec) m) version = nodesAt m version ++
      (entries.filter fun e => e.version dec = version ∧ e.critical = false).map fun e =>
        e.node dec := by
  induction entries generalizing m with
  | nil => exact ⟨hd, by simp⟩
  | cons e entries ih =>
    obtain ⟨hd', hnodes⟩ := addEntry_spec dec hd e
    obtain ⟨hdist, hrest⟩ := ih hd'
    refine ⟨hdist, fun version => ?_⟩
    rw [List.foldl_cons, hrest, hnodes, List.filter_cons, List.append_assoc]
    congr 1
    split
    · next h => rw [if_pos (by simpa using h)]; rfl
    · next h => rw [if_neg (by simpa using h)]; rfl

theorem distinct_serviceMap (entries : List ServiceEntry) :
    Distinct Service.version (serviceMap dec entries) :=
  (nodesAt_foldl dec Distinct.nil entries).1

theorem tuples_serviceMap (entries : List ServiceEntry) :
    tuples (serviceMap dec entries) = healthy dec entries := by
  ext ⟨version, node⟩
  rw [mem_tuples (distinct_serviceMap dec entries), serviceMap,
    (nodesAt_foldl dec Distinct.nil entries).2]
  simp only [nodesAt, versionNodes, lookup_nil, Option.map_none, Option.getD_none,
    List.nil_append, List.mem_map, List.mem_filter, decide_eq_true_eq, healthy, Set.mem_ofPred_eq]
  constructor
  · rintro ⟨e, ⟨he, hv, hc⟩, hn⟩
    exact ⟨e, he, hc, by rw [hv, hn]⟩
  · rintro ⟨e, he, hc, heq⟩
    obtain ⟨rfl, rfl⟩ := Prod.mk.inj heq
    exact ⟨e, ⟨he, rfl, hc⟩, rfl⟩

theorem name_of_mem_addEntry {name : String} {m : List Service} {e : ServiceEntry}
    (hm : ∀ s ∈ m, s.name = name) (he : e.service.service = name) :
    ∀ s ∈ addEntry dec m e, s.name = name := by
  have hwith : ∀ s ∈ withVersion dec m e, s.name = name := by
    unfold withVersion
    split
    · exact hm
    · intro s hs
      rcases List.mem_append.mp hs with hs | hs
      · exact hm s hs
      · rw [List.mem_singleton.mp hs]
        exact he
  intro s hs
  have hs' : s ∈ if e.critical then withVersion dec m e
      else (withVersion dec m e).map fun svc =>
        if svc.version = e.version dec then { svc with nodes := svc.nodes ++ [e.node dec] }
        else svc := hs
  split at hs'
  · exact hwith s hs'
  · obtain ⟨svc, hsvc, rfl⟩ := List.mem_map.mp hs'
    split <;> exact hwith svc hsvc

theorem name_of_mem_serviceMap {name : String} {entries : List ServiceEntry}
    (h : ∀ e ∈ entries, e.service.service = name) : ∀ s ∈ serviceMap dec entries, s.name = name := by
  have hfold : ∀ m : List Service, (∀ s ∈ m, s.name = name) →
      ∀ s ∈ entries.foldl (addEntry dec) m, s.name = name := by
    induction entries with
    | nil => exact fun _ hm => hm
    | cons e entries ih =>
      intro m hm
      exact ih (fun e' he' => h e' (List.mem_cons_of_mem _ he')) _
        (name_of_mem_addEntry dec hm (h e List.mem_cons_self))
  exact hfold [] (by simp)

end Snapshot

theorem serviceName_eq {name : String} {entries : List ServiceEntry} (hne : entries ≠ [])
    (h : ∀ e ∈ entries, e.service.service = name) : serviceName entries = name := by
  unfold serviceName
  rw [← List.dropLast_append_getLast hne, List.foldl_append]
  exact h _ (List.getLast_mem hne)

/-! ## The watcher along the snapshots -/

section Watch

variable (dec : TagDecoder)

/-- What the watcher knows after the snapshots of the service `name`, the last of them being `prev`:
at least the nodes of `prev` (it keeps older ones when `prev` is empty), and nothing about other
names. -/
structure Knows (cw : ConsulWatcher) (name : String) (prev : List ServiceEntry) : Prop where
  distinct : Distinct Service.version ((cw.services name).getD [])
  named : ∀ s ∈ (cw.services name).getD [], s.name = name
  covers : healthy dec prev ⊆ tuples ((cw.services name).getD [])
  others : ∀ k, k ≠ name → (cw.services k).getD [] = []

theorem knows_new (name : String) : Knows dec ConsulWatcher.new name [] where
  distinct := Distinct.nil
  named s hs := by cases hs
  covers := by
    rw [healthy_nil]
    exact Set.empty_subset _
  others _ _ := rfl

theorem Knows.step {cw : ConsulWatcher} {name : String} {prev : List ServiceEntry}
    (h : Knows dec cw name prev) {d : Delivery} (hd : ∀ e ∈ d.entries, e.service.service = name) :
    Knows dec (serviceHandler dec cw d).1 name d.entries := by
  have hperm := d.perm (serviceMap dec d.entries)
  have hdist := (distinct_serviceMap dec d.entries).perm hperm
  have hservices : ∀ k, ((serviceHandler dec cw d).1.services k)
      = if k = serviceName d.entries then some (d.order (serviceMap dec d.entries))
        else cw.services k := fun k => Function.update_apply _ _ _ k
  by_cases hempty : d.entries = []
  · -- an empty snapshot stores an empty list under the empty name
    have hget : ∀ k, ((serviceHandler dec cw d).1.services k).getD []
        = if k = "" then [] else (cw.services k).getD [] := by
      intro k
      rw [hservices]
      rw [hempty] at hperm ⊢
      rw [show serviceName [] = "" from rfl]
      split
      · rw [Option.getD_some, hperm.eq_nil]
      · rfl
    refine ⟨?_, ?_, ?_, ?_⟩
    · rw [hget]
      split
      · exact Distinct.nil
      · exact h.distinct
    · rw [hget]
      split
      · simp
      · exact h.named
    · rw [hempty, healthy_nil]
      exact Set.empty_subset _
    · intro k hk
      rw [hget]
      split
      · rfl
      · exact h.others k hk
  · -- all entries are of the service, so the last of them names it
    have hname := serviceName_eq hempty hd
    have hself : ((serviceHandler dec cw d).1.services name).getD []
        = d.order (serviceMap dec d.entries) := by
      rw [hservices, hname, if_pos rfl, Option.getD_some]
    refine ⟨?_, ?_, ?_, ?_⟩
    · rw [hself]
      exact hdist
    · rw [hself]
      intro s hs
      exact name_of_mem_serviceMap dec hd s (hperm.mem_iff.mp hs)
    · rw [hself, ← tuples_serviceMap dec d.entries]
      rintro p ⟨s, hs, hp⟩
      exact ⟨s, hperm.mem_iff.mpr hs, hp⟩
    · intro k hk
      rw [hservices, hname, if_neg hk]
      exact h.others k hk

/-- The watcher after a sequence of snapshots. -/
def watch (hist : List Delivery) : ConsulWatcher :=
  hist.foldl (fun cw d => (serviceHandler dec cw d).1) ConsulWatcher.new

/-- The entries of the last snapshot; before the first one there are none. -/
def lastEntries (hist : List Delivery) : List ServiceEntry := hist.foldl (fun _ d => d.entries) []

theorem knows_watch {name : String} {hist : List Delivery}
    (h : ∀ d ∈ hist, ∀ e ∈ d.entries, e.service.service = name) :
    Knows dec (watch dec hist) name (lastEntries hist) := by
  have hfold : ∀ cw prev, Knows dec cw name prev →
      Knows dec (hist.foldl (fun cw d => (serviceHandler dec cw d).1) cw) name
        (hist.foldl (fun _ d => d.entries) prev) := by
    induction hist with
    | nil => exact fun _ _ hk => hk
    | cons d hist ih =>
      intro cw prev hk
      exact ih (fun d' hd' => h d' (List.mem_cons_of_mem _ hd')) _ _
        (hk.step dec (h d List.mem_cons_self))
  exact hfold _ _ (knows_new dec name)

theorem handler_named {cw : ConsulWatcher} {name : String} {prev : List ServiceEntry}
    (h : Knows dec cw name prev) {d : Delivery} (hd : ∀ e ∈ d.entries, e.service.service = name)
    (hname : serviceName d.entries = name) :
    ∀ r ∈ (serviceHandler dec cw d).2, r.service.name = name := by
  intro r hr
  unfold serviceHandler at hr
  dsimp only at hr
  rw [hname] at hr
  rcases List.mem_append.mp hr with hr | hr
  · obtain ⟨n, hn, hr⟩ := List.mem_flatMap.mp hr
    rcases (newResults_service hr).2 with heq | ⟨o, ho, heq⟩
    · rw [heq]
      exact name_of_mem_serviceMap dec hd n ((d.perm _).mem_iff.mp hn)
    · rw [heq]
      exact h.named o ho
  · obtain ⟨o, ho, rfl⟩ := List.mem_map.mp hr
    exact h.named o (List.mem_of_mem_filter ho)

/-- When the handler works under the name of the service, the cache follows the snapshot. -/
theorem Knows.tracks {cw : ConsulWatcher} {name : String} {prev : List ServiceEntry}
    (h : Knows dec cw name prev) {d : Delivery} (hd : ∀ e ∈ d.entries, e.service.service = name)
    (hname : serviceName d.entries = name) {c : CacheSelector}
    (hc : Agrees c name (healthy dec prev)) (now : ℕ → ℤ) :
    Agrees (feed c now (serviceHandler dec cw d).2) name (healthy dec d.entries) := by
  -- every cached node is one the watcher knows
  obtain ⟨f, hhas, hf⟩ : ∃ f, Has c name f ∧ ∀ version, ∀ node ∈ f version,
      node ∈ nodesAt ((cw.services name).getD []) version := by
    cases hs : c.cache name with
    | none =>
      refine ⟨fun _ => [], fun services hservices => ?_, by simp⟩
      rw [hs] at hservices
      cases hservices
    | some services =>
      obtain ⟨hw, htuples⟩ := hc services hs
      refine ⟨nodesAt services, fun l hl => ?_, fun version node hnode => ?_⟩
      · obtain rfl := Option.some.inj (hs.symm.trans hl)
        exact ⟨hw, fun _ => rfl⟩
      · rw [← mem_tuples h.distinct]
        apply h.covers
        rw [← htuples]
        exact (mem_tuples hw.versions).mpr hnode
  have hdist := (distinct_serviceMap dec d.entries).perm (d.perm _)
  intro services hservices
  obtain ⟨hw, hnodes⟩ := hhas.feed now (handler_named dec h hd hname) services hservices
  refine ⟨hw, ?_⟩
  rw [← tuples_serviceMap dec d.entries, ← tuples_perm (d.perm (serviceMap dec d.entries))]
  apply tuples_eq_of_nodesAt hw.versions hdist
  intro version
  rw [hnodes]
  unfold serviceHandler
  dsimp only
  rw [hname]
  exact versionResults_handler hf h.distinct hdist version

/-- An empty snapshot of a service with a name sends nothing. -/
theorem Knows.handler_nil {cw : ConsulWatcher} {name : String} {prev : List ServiceEntry}
    (h : Knows dec cw name prev) (hname : name ≠ "") {d : Delivery} (hd : d.entries = []) :
    (serviceHandler dec cw d).2 = [] := by
  have hnil : d.order (serviceMap dec []) = [] := (d.perm _).eq_nil
  unfold serviceHandler
  rw [hd]
  dsimp only
  rw [show serviceName [] = "" from rfl, hnil, h.others "" (Ne.symm hname)]
  rfl

/-- After any sequence of snapshots of one service, and on a cache that agrees with the last of them,
the results of the next snapshot leave the cache in agreement with it exactly when that snapshot is
not empty, or there was nothing to lose: no node in the snapshot before, or no cache entry. (A service
without name would be found even by an empty snapshot.) -/
theorem tracks_iff {name : String} {hist : List Delivery} {d : Delivery}
    (hhist : ∀ d ∈ hist, ∀ e ∈ d.entries, e.service.service = name)
    (hd : ∀ e ∈ d.entries, e.service.service = name) {c : CacheSelector}
    (hc : Agrees c name (healthy dec (lastEntries hist))) (now : ℕ → ℤ) :
    Agrees (feed c now (serviceHandler dec (watch dec hist) d).2) name (healthy dec d.entries) ↔
      d.entries ≠ [] ∨ name = "" ∨ healthy dec (lastEntries hist) = ∅ ∨ c.cache name = none := by
  have hknows := knows_watch dec hhist
  constructor
  · intro h
    by_contra hno
    push Not at hno
    obtain ⟨hempty, hname, hprev, hcached⟩ := hno
    obtain ⟨services, hs⟩ := Option.ne_none_iff_exists'.mp hcached
    -- no result is sent, so the entry is still that of the snapshot before
    rw [hknows.handler_nil dec hname hempty, hempty] at h
    have hold := (hc services hs).2
    have hnew := (h services hs).2
    rw [hold] at hnew
    rw [hnew, healthy_nil] at hprev
    exact Set.not_nonempty_empty hprev
  · intro h
    by_cases hempty : d.entries = []
    · by_cases hname : name = ""
      · refine hknows.tracks dec hd ?_ hc now
        rw [hempty, hname]
        rfl
      · rw [hknows.handler_nil dec hname hempty, hempty]
        intro services hs
        obtain ⟨hw, htuples⟩ := hc services hs
        refine ⟨hw, htuples.trans ?_⟩
        rcases h with h | h | h | h
        · exact absurd hempty h
        · exact absurd h hname
        · rw [h]
          exact (healthy_nil dec).symm
        · rw [show feed c now [] = c from rfl, h] at hs
          cases hs
    · exact hknows.tracks dec hd (serviceName_eq hempty hd) hc now

end Watch

/-- Tags that hold the version and nothing else. -/
def sampleDecoder : TagDecoder where
  version tags := (tags.headD "", true)
  endpoints _ := []
  metadata _ := ∅

def sampleEntry (id status : String) : ServiceEntry :=
  ⟨"h", { id, service := "s", tags := ["1"], port := 80, address := "" }, [status]⟩

def sampleSnapshot (entries : List ServiceEntry) : Delivery := ⟨entries, id, fun l => .refl l⟩

/-- A cache with the node of the snapshot `[sampleEntry "a" "passing"]`. -/
def trackedCache : CacheSelector where
  cache name :=
    if name = "s" then some [{ name := "s", version := "1", nodes := [⟨"a", "h", 80, ∅⟩] }] else none
  ttls _ := none
  ttl := 60
  watcher := false

theorem trackedCache_agrees : Agrees trackedCache "s"
    (healthy sampleDecoder (lastEntries [sampleSnapshot [sampleEntry "a" "passing"]])) := by
  intro services hs
  obtain rfl : [{ name := "s", version := "1", nodes := [⟨"a", "h", 80, ∅⟩] }] = services :=
    Option.some.inj hs
  refine ⟨⟨by simp, by simp [Distinct]⟩, ?_⟩
  ext ⟨version, node⟩
  constructor
  · rintro ⟨s, hs, hv, hn⟩
    obtain rfl := List.mem_singleton.mp hs
    obtain rfl : "1" = version := hv
    obtain rfl := List.mem_singleton.mp hn
    exact ⟨_, List.mem_singleton.mpr rfl, by decide, by rfl⟩
  · rintro ⟨e, he, -, heq⟩
    obtain rfl := List.mem_singleton.mp he
    cases heq
    exact ⟨_, List.mem_singleton.mpr rfl, rfl, List.mem_singleton.mpr (by rfl)⟩

theorem tracks_sample :
    Agrees (feed trackedCache (fun _ => 0) (serviceHandler sampleDecoder
      (watch sampleDecoder [sampleSnapshot [sampleEntry "a" "passing"]])
      (sampleSnapshot [sampleEntry "a" "critical", sampleEntry "b" "passing"])).2) "s"
      (healthy sampleDecoder [sampleEntry "a" "critical", sampleEntry "b" "passing"]) :=
  (tracks_iff sampleDecoder (by simp [sampleSnapshot, sampleEntry])
    (by simp [sampleSnapshot, sampleEntry]) trackedCache_agrees fun _ => 0).mpr
    (.inl (by simp [sampleSnapshot]))

/-- The only node of a service goes, and the cache keeps it. -/
theorem not_tracks_empty :
    Agrees trackedCache "s"
      (healthy sampleDecoder (lastEntries [sampleSnapshot [sampleEntry "a" "passing"]])) ∧
    ¬ Agrees (feed trackedCache (fun _ => 0) (serviceHandler sampleDecoder
      (watch sampleDecoder [sampleSnapshot [sampleEntry "a" "passing"]]) (sampleSnapshot [])).2) "s"
      (healthy sampleDecoder []) := by
  refine ⟨trackedCache_agrees, fun h => ?_⟩
  have htuples := (h _ rfl).2
  rw [healthy_nil] at htuples
  have hmem : ("1", (⟨"a", "h", 80, ∅⟩ : Node)) ∈ (∅ : Set (String × Node)) := by
    rw [← htuples]
    exact ⟨_, List.mem_singleton.mpr rfl, rfl, List.mem_singleton.mpr rfl⟩
  exact hmem

end Vmqant.Selector
