import Vmqant.Common.Keyed
import Vmqant.Selector.Cache

/-!
# The cache as a finite map

What the cache is for: a map from service names to versions to node ids to nodes. `Model.update` is
the effect of a result on it, and `update_refines` says that `update` has exactly this effect on
every well-formed cache and keeps it well-formed.
-/

namespace Vmqant.Selector

open Registry Keyed

/-! ## The abstract cache -/

/-- The nodes of a version by id. -/
abbrev NodeMap := String → Option Node

/-- The versions of a service. -/
abbrev Entry := String → Option NodeMap

/-- The cache: services by name. -/
abbrev Model := String → Option Entry

open Classical in
/-- The effect of a result, `none` where there is none. -/
noncomputable def Model.update (m : Model) (res : Result) : Option Model :=
  match m res.service.name with
  | none => none
  | some entry =>
    if res.service.nodes = [] then
      if res.action = .delete then some (Function.update m res.service.name none) else none
    else
      match res.action with
      | .create | .update =>
        let nodes : NodeMap := fun id =>
          (lookup Node.id res.service.nodes id).or ((entry res.service.version).bind fun old => old id)
        some (Function.update m res.service.name
          (some (Function.update entry res.service.version (some nodes))))
      | .delete =>
        match entry res.service.version with
        | none => none
        | some old =>
          let nodes : NodeMap := fun id =>
            if (lookup Node.id res.service.nodes id).isSome then none else old id
          let entry' := Function.update entry res.service.version
            (if ∀ id, nodes id = none then none else some nodes)
          some (Function.update m res.service.name
            (if ∀ version, entry' version = none then none else some entry'))
      | .other _ => none

/-! ## Well-formed caches -/

/-- The services of an entry carry its name and distinct versions. -/
structure EntryWf (name : String) (services : List Service) : Prop where
  named : ∀ s ∈ services, s.name = name
  versions : Distinct Service.version services

/-- Every entry is well-formed, and the node ids of each version are distinct. -/
structure CacheSelector.Wf (c : CacheSelector) : Prop where
  entries : ∀ name services, c.cache name = some services → EntryWf name services
  ids : ∀ name services, c.cache name = some services →
    ∀ s ∈ services, Distinct Node.id s.nodes

/-- The nodes of a version, in their order. -/
def versionNodes (services : List Service) (version : String) : Option (List Node) :=
  (lookup Service.version services version).map Service.nodes

/-- The versions and nodes a list of services stands for. -/
def absEntry (services : List Service) : Entry := fun version =>
  (versionNodes services version).map (lookup Node.id)

/-- The cache as a map. -/
def CacheSelector.model (c : CacheSelector) : Model := fun name => (c.cache name).map absEntry

/-! ## The searches -/

theorem foldl_zipIdx_version (version : String) (services : List Service) (n : ℕ)
    (acc : Option (ℕ × Service)) :
    (∀ p, (services.zipIdx n).foldl
        (fun found p => if p.1.version = version then some (p.2, p.1) else found) acc = some p →
      acc = some p ∨ ∃ j, p.1 = n + j ∧ services[j]? = some p.2 ∧ p.2.version = version) ∧
    ((services.zipIdx n).foldl
        (fun found p => if p.1.version = version then some (p.2, p.1) else found) acc = none →
      acc = none ∧ ∀ s ∈ services, s.version ≠ version) := by
  induction services generalizing n acc with
  | nil => simp
  | cons s services ih =>
    rw [List.zipIdx_cons, List.foldl_cons]
    obtain ⟨hsome, hnone⟩ := ih (n + 1) (if s.version = version then some (n, s) else acc)
    refine ⟨fun p hp => ?_, fun h => ?_⟩
    · rcases hsome p hp with hacc | ⟨j, hj, hget, hv⟩
      · split at hacc
        · next hv =>
          obtain rfl := Option.some.inj hacc
          exact .inr ⟨0, rfl, rfl, hv⟩
        · exact .inl hacc
      · exact .inr ⟨j + 1, by omega, by simpa using hget, hv⟩
    · obtain ⟨hacc, hrest⟩ := hnone h
      split at hacc
      · cases hacc
      · next hv =>
        refine ⟨hacc, fun t ht => ?_⟩
        rcases List.mem_cons.mp ht with rfl | ht
        · exact hv
        · exact hrest t ht

theorem findVersion_eq_some {version : String} {services : List Service} {i : ℕ} {s : Service}
    (h : findVersion version services = some (i, s)) :
    services[i]? = some s ∧ s.version = version := by
  rcases (foldl_zipIdx_version version services 0 none).1 (i, s) h with hnone | ⟨j, hj, hget, hv⟩
  · cases hnone
  · obtain rfl : i = j := by simpa using hj
    exact ⟨hget, hv⟩

theorem findVersion_eq_none {version : String} {services : List Service}
    (h : findVersion version services = none) : lookup Service.version services version = none :=
  lookup_eq_none.mpr ((foldl_zipIdx_version version services 0 none).2 h).2

theorem seen_eq (nodes : List Node) (cur : Node) :
    seen nodes cur = (lookup Node.id nodes cur.id).isSome := by
  rw [Bool.eq_iff_iff]
  simp [seen, lookup]

theorem lookup_appendOld (nodes old : List Node) (id : String) :
    lookup Node.id (appendOld nodes old) id
      = (lookup Node.id nodes id).or (lookup Node.id old id) := by
  unfold appendOld
  induction old generalizing nodes with
  | nil => simp
  | cons cur old ih =>
    rw [List.foldl_cons, ih, lookup_cons]
    by_cases hseen : seen nodes cur = true
    · -- the id of `cur` is found in the new nodes already
      rw [if_pos hseen]
      rw [seen_eq] at hseen
      by_cases hid : cur.id = id
      · rw [hid] at hseen
        obtain ⟨node, hnode⟩ := Option.isSome_iff_exists.mp hseen
        rw [hnode]
        rfl
      · rw [if_neg hid]
    · rw [if_neg hseen, lookup_append, Option.or_assoc, lookup_cons, lookup_nil]
      split <;> simp

theorem distinct_appendOld {nodes : List Node} (h : Distinct Node.id nodes) (old : List Node) :
    Distinct Node.id (appendOld nodes old) := by
  unfold appendOld
  induction old generalizing nodes with
  | nil => exact h
  | cons cur old ih =>
    rw [List.foldl_cons]
    apply ih
    split
    · exact h
    · next hseen =>
      rw [seen_eq] at hseen
      exact h.concat (by simpa using hseen)

theorem lookup_filter_seen (res nodes : List Node) (id : String) :
    lookup Node.id (nodes.filter fun cur => !seen res cur) id
      = if (lookup Node.id res id).isSome then none else lookup Node.id nodes id := by
  have hfilter : (fun cur : Node => !seen res cur)
      = fun cur => (fun id => !(lookup Node.id res id).isSome) cur.id := by
    funext cur
    rw [seen_eq]
  rw [hfilter]
  apply (lookup_filter fun id => !(lookup Node.id res id).isSome).trans
  cases (lookup Node.id res id).isSome <;> rfl

/-! ## Changes of an entry -/

theorem versionNodes_concat {services : List Service} {s : Service}
    (h : lookup Service.version services s.version = none) :
    versionNodes (services ++ [s])
      = Function.update (versionNodes services) s.version (some s.nodes) := by
  funext version
  rw [Function.update_apply]
  unfold versionNodes
  rw [lookup_append, lookup_cons, lookup_nil]
  by_cases hv : version = s.version
  · rw [if_pos hv, if_pos hv.symm, hv, h]
    rfl
  · rw [if_neg hv, if_neg (Ne.symm hv), Option.or_none]

theorem versionNodes_set {services : List Service} {i : ℕ} {s t : Service}
    (hd : Distinct Service.version services) (hi : services[i]? = some s)
    (ht : t.version = s.version) :
    versionNodes (services.set i t)
      = Function.update (versionNodes services) s.version (some t.nodes) := by
  funext version
  rw [Function.update_apply]
  unfold versionNodes
  rw [hd.lookup_set hi ht]
  split <;> rfl

theorem versionNodes_filter (services : List Service) (version : String) :
    versionNodes (services.filter fun s => s.version ≠ version)
      = Function.update (versionNodes services) version none := by
  funext v
  rw [Function.update_apply]
  unfold versionNodes
  have hfilter : lookup Service.version (services.filter fun s => s.version ≠ version) v
      = if decide (v ≠ version) then lookup Service.version services v else none :=
    lookup_filter fun v => decide (v ≠ version)
  rw [hfilter]
  by_cases hv : v = version
  · rw [if_pos hv, if_neg (by simpa using hv)]
    rfl
  · rw [if_neg hv, if_pos (by simpa using hv)]

theorem EntryWf.concat {name : String} {services : List Service} (h : EntryWf name services)
    {s : Service} (hname : s.name = name) (hs : lookup Service.version services s.version = none) :
    EntryWf name (services ++ [s]) where
  named t ht := by
    rcases List.mem_append.mp ht with ht | ht
    · exact h.named t ht
    · rw [List.mem_singleton.mp ht, hname]
  versions := h.versions.concat hs

theorem EntryWf.set {name : String} {services : List Service} (h : EntryWf name services) {i : ℕ}
    {s t : Service} (hi : services[i]? = some s) (hname : t.name = name)
    (ht : t.version = s.version) : EntryWf name (services.set i t) where
  named u hu := by
    rcases List.mem_or_eq_of_mem_set hu with hu | rfl
    · exact h.named u hu
    · exact hname
  versions := h.versions.set hi ht

theorem EntryWf.filter {name : String} {services : List Service} (h : EntryWf name services)
    (p : Service → Bool) : EntryWf name (services.filter p) where
  named t ht := h.named t (List.mem_of_mem_filter ht)
  versions := h.versions.filter p

/-- With distinct versions, one service is all there is exactly when no other version is found. -/
theorem EntryWf.length_eq_one {name : String} {services : List Service}
    (h : EntryWf name services) {s : Service} (hs : s ∈ services) :
    services.length = 1 ↔ ∀ version, version ≠ s.version → versionNodes services version = none := by
  constructor
  · intro hlen version hv
    obtain ⟨t, rfl⟩ := List.length_eq_one_iff.mp hlen
    obtain rfl := List.mem_singleton.mp hs
    rw [versionNodes, lookup_cons, if_neg (Ne.symm hv)]
    rfl
  · intro hnone
    have hall : ∀ t ∈ services, t.version = s.version := by
      intro t ht
      by_contra hv
      have hlookup : lookup Service.version services t.version = some t :=
        h.versions.lookup_eq_some.mpr ⟨ht, rfl⟩
      have := hnone t.version hv
      rw [versionNodes, hlookup] at this
      cases this
    -- two services would have the same version
    match services, h.versions, hs, hall with
    | [t], _, _, _ => rfl
    | t :: u :: rest, hd, _, hall =>
      have hne := hd.key_ne (b := u) (by simp)
      rw [hall t (by simp), hall u (by simp)] at hne
      exact absurd rfl hne

/-! ## The cases of `update` -/

theorem update_absent (c : CacheSelector) (now : ℤ) {r : Result}
    (h : c.cache r.service.name = none) : update c now (some r) = (c, []) := by
  rw [update, h]

theorem update_cached (c : CacheSelector) (now : ℤ) {r : Result} {services : List Service}
    (h : c.cache r.service.name = some services) :
    update c now (some r) =
      if r.service.nodes.length = 0 then
        match r.action with
        | .delete => (c.del r.service.name, [])
        | _ => (c, [])
      else
        match r.action with
        | .create | .update => (updateNodes c now services r.service, [])
        | .delete => deleteNodes c now services r.service
        | .other _ => (c, []) := by
  cases haction : r.action <;> simp only [update, h, haction]

section Cases

variable (c : CacheSelector) (now : ℤ) {services : List Service} {res : Service}
  (hw : EntryWf res.name services)
include hw

/-- `case "create", "update"` replaces the nodes of the version by those of the result followed by the
old ones with other ids. -/
theorem updateNodes_spec :
    ∃ services', updateNodes c now services res = c.set now res.name services' ∧
      EntryWf res.name services' ∧
      versionNodes services' = Function.update (versionNodes services) res.version
        (some (appendOld res.nodes ((versionNodes services res.version).getD []))) := by
  unfold updateNodes
  cases hfind : findVersion res.version services with
  | none =>
    have hnone := findVersion_eq_none hfind
    refine ⟨_, rfl, hw.concat rfl hnone, ?_⟩
    rw [versionNodes_concat hnone]
    simp only [versionNodes, hnone, Option.map_none, Option.getD_none]
    rfl
  | some p =>
    obtain ⟨i, s⟩ := p
    obtain ⟨hi, hv⟩ := findVersion_eq_some hfind
    have hlookup : lookup Service.version services res.version = some s :=
      hw.versions.lookup_eq_some.mpr ⟨List.mem_of_getElem? hi, hv⟩
    refine ⟨_, rfl, hw.set hi rfl hv.symm, ?_⟩
    apply (versionNodes_set hw.versions hi (by exact hv.symm)).trans
    rw [hv]
    simp only [versionNodes, hlookup, Option.map_some, Option.getD_some]

/-- `case "delete"` on a version that is not cached does nothing. -/
theorem deleteNodes_none (h : versionNodes services res.version = none) :
    deleteNodes c now services res = (c, []) := by
  unfold deleteNodes
  cases hfind : findVersion res.version services with
  | none => rfl
  | some p =>
    obtain ⟨hi, hv⟩ := findVersion_eq_some hfind
    have hlookup : lookup Service.version services res.version = some p.2 :=
      hw.versions.lookup_eq_some.mpr ⟨List.mem_of_getElem? hi, hv⟩
    rw [versionNodes, hlookup] at h
    cases h

/-- `case "delete"` on a cached version: nodes are left, the entry goes, or the version goes. -/
theorem deleteNodes_some {old : List Node} (h : versionNodes services res.version = some old) :
    let nodes := old.filter fun cur => !seen res.nodes cur
    (nodes ≠ [] ∧ ∃ services', (deleteNodes c now services res).1 = c.set now res.name services' ∧
      EntryWf res.name services' ∧
      versionNodes services' = Function.update (versionNodes services) res.version (some nodes)) ∨
    (nodes = [] ∧ (∀ version, version ≠ res.version → versionNodes services version = none) ∧
      (deleteNodes c now services res).1 = c.del res.name) ∨
    (nodes = [] ∧ (∃ version, version ≠ res.version ∧ versionNodes services version ≠ none) ∧
      ∃ services', (deleteNodes c now services res).1 = c.set now res.name services' ∧
      EntryWf res.name services' ∧
      versionNodes services' = Function.update (versionNodes services) res.version none) := by
  intro nodes
  unfold deleteNodes
  cases hfind : findVersion res.version services with
  | none =>
    rw [versionNodes, findVersion_eq_none hfind] at h
    cases h
  | some p =>
    obtain ⟨i, s⟩ := p
    obtain ⟨hi, hv⟩ := findVersion_eq_some hfind
    have hmem := List.mem_of_getElem? hi
    have hlookup : lookup Service.version services res.version = some s :=
      hw.versions.lookup_eq_some.mpr ⟨hmem, hv⟩
    obtain rfl : s.nodes = old := by
      rw [versionNodes, hlookup] at h
      exact Option.some.inj h
    have hname := hw.named s hmem
    dsimp only
    rw [hname]
    -- the exits in the order of the source are: nodes are left, the only service, one of several
    by_cases hleft : nodes = []
    · rw [if_neg (by rw [show s.nodes.filter _ = nodes from rfl, hleft]; simp)]
      have hone := hw.length_eq_one hmem
      rw [hv] at hone
      by_cases hlen : services.length = 1
      · rw [if_pos hlen]
        exact .inr (.inl ⟨hleft, hone.mp hlen, rfl⟩)
      · rw [if_neg hlen]
        refine .inr (.inr ⟨hleft, ?_, _, rfl, hw.filter _, ?_⟩)
        · by_contra hno
          push Not at hno
          exact hlen (hone.mpr hno)
        · rw [hv]
          exact versionNodes_filter services res.version
    · rw [if_pos (List.length_pos_iff.mpr hleft)]
      refine .inl ⟨hleft, _, rfl, hw.set hi rfl rfl, ?_⟩
      apply (versionNodes_set hw.versions hi (by rfl)).trans
      rw [hv]

end Cases

/-! ## Refinement -/

theorem absEntry_update {services services' : List Service} {version : String}
    {nodes : Option (List Node)}
    (h : versionNodes services' = Function.update (versionNodes services) version nodes) :
    absEntry services'
      = Function.update (absEntry services) version (nodes.map (lookup Node.id)) := by
  funext v
  unfold absEntry
  rw [h, Function.update_apply, Function.update_apply]
  split <;> rfl

theorem cache_set (c : CacheSelector) (now : ℤ) (name k : String) (services : List Service) :
    (c.set now name services).cache k = if k = name then some services else c.cache k :=
  Function.update_apply c.cache name (some services) k

theorem cache_del (c : CacheSelector) (name k : String) :
    (c.del name).cache k = if k = name then none else c.cache k :=
  Function.update_apply c.cache name none k

theorem model_set (c : CacheSelector) (now : ℤ) (name : String) (services : List Service) :
    (c.set now name services).model = Function.update c.model name (some (absEntry services)) := by
  funext k
  rw [Function.update_apply, CacheSelector.model, cache_set]
  split <;> rfl

theorem model_del (c : CacheSelector) (name : String) :
    (c.del name).model = Function.update c.model name none := by
  funext k
  rw [Function.update_apply, CacheSelector.model, cache_del]
  split <;> rfl

/-- The node ids of a version are distinct, by version. -/
theorem CacheSelector.Wf.distinct {c : CacheSelector} (hc : c.Wf) {name version : String}
    {services : List Service} (hs : c.cache name = some services) {nodes : List Node}
    (hn : versionNodes services version = some nodes) : Distinct Node.id nodes := by
  obtain ⟨s, hlookup, rfl⟩ := Option.map_eq_some_iff.mp hn
  exact hc.ids name services hs s (mem_of_lookup hlookup).1

theorem CacheSelector.Wf.del {c : CacheSelector} (hc : c.Wf) (name : String) :
    (c.del name).Wf where
  entries k services hk := by
    rw [cache_del] at hk
    split at hk
    · cases hk
    · exact hc.entries k services hk
  ids k services hk := by
    rw [cache_del] at hk
    split at hk
    · cases hk
    · exact hc.ids k services hk

/-- Storing an entry whose versions are the old ones but for one with distinct node ids. -/
theorem CacheSelector.Wf.set {c : CacheSelector} (hc : c.Wf) {now : ℤ} {name version : String}
    {services services' : List Service} (hs : c.cache name = some services)
    (hw : EntryWf name services') {nodes : Option (List Node)}
    (hv : versionNodes services' = Function.update (versionNodes services) version nodes)
    (hn : ∀ l ∈ nodes, Distinct Node.id l) : (c.set now name services').Wf where
  entries k l hk := by
    rw [cache_set] at hk
    split at hk
    · next hname =>
      obtain rfl := Option.some.inj hk
      exact hname ▸ hw
    · exact hc.entries k l hk
  ids k l hk s hmem := by
    rw [cache_set] at hk
    split at hk
    · obtain rfl := Option.some.inj hk
      -- the nodes of `s` are those found under its version
      have hlookup : lookup Service.version services' s.version = some s :=
        hw.versions.lookup_eq_some.mpr ⟨hmem, rfl⟩
      have hfound : versionNodes services' s.version = some s.nodes := by
        rw [versionNodes, hlookup]
        rfl
      rw [hv, Function.update_apply] at hfound
      split at hfound
      · exact hn _ hfound
      · exact hc.distinct hs hfound
    · exact hc.ids k l hk s hmem

/-- `c'` is well-formed, differs from `c` in the entry `name` at most, and is what the abstract effect
`m` says; without an effect it is `c` itself. -/
structure Effect (c c' : CacheSelector) (name : String) (m : Option Model) : Prop where
  wf : c'.Wf
  frame : ∀ k, k ≠ name → c'.cache k = c.cache k ∧ c'.ttls k = c.ttls k
  model : c'.model = m.getD c.model
  same : m = none → c' = c

section Effects

variable {c : CacheSelector} (hc : c.Wf) {name : String}
include hc

theorem Effect.refl : Effect c c name none where
  wf := hc
  frame _ _ := ⟨rfl, rfl⟩
  model := rfl
  same _ := rfl

theorem Effect.del : Effect c (c.del name) name (some (Function.update c.model name none)) where
  wf := hc.del name
  frame k hk := ⟨by rw [cache_del, if_neg hk], Function.update_of_ne hk _ _⟩
  model := model_del c name
  same h := by cases h

theorem Effect.set {now : ℤ} {version : String} {services services' : List Service}
    (hs : c.cache name = some services) (hw : EntryWf name services') {nodes : Option (List Node)}
    (hv : versionNodes services' = Function.update (versionNodes services) version nodes)
    (hn : ∀ l ∈ nodes, Distinct Node.id l) {entry : Entry} (he : absEntry services' = entry) :
    Effect c (c.set now name services') name (some (Function.update c.model name (some entry))) where
  wf := hc.set hs hw hv hn
  frame k hk := ⟨by rw [cache_set, if_neg hk], Function.update_of_ne hk _ _⟩
  model := by
    rw [model_set, he]
    rfl
  same h := by cases h

theorem effect_updateNodes {now : ℤ} {services : List Service} {res : Service}
    (hs : c.cache res.name = some services) (hres : Distinct Node.id res.nodes) :
    Effect c (updateNodes c now services res) res.name (some (Function.update c.model res.name
      (some (Function.update (absEntry services) res.version (some fun id =>
        (lookup Node.id res.nodes id).or
          ((absEntry services res.version).bind fun old => old id)))))) := by
  obtain ⟨services', heq, hw', hv⟩ := updateNodes_spec c now (hc.entries res.name services hs)
  rw [heq]
  refine Effect.set hc hs hw' hv ?_ ?_
  · intro l hl
    obtain rfl := Option.some.inj hl
    exact distinct_appendOld hres _
  · rw [absEntry_update hv, Option.map_some]
    congr 2
    funext id
    rw [lookup_appendOld, absEntry]
    cases versionNodes services res.version <;> rfl

open Classical in
theorem effect_deleteNodes {now : ℤ} {services : List Service} {res : Service}
    (hs : c.cache res.name = some services) {old : List Node}
    (hold : versionNodes services res.version = some old) :
    let nodes : NodeMap := fun id =>
      if (lookup Node.id res.nodes id).isSome then none else lookup Node.id old id
    let entry' := Function.update (absEntry services) res.version
      (if ∀ id, nodes id = none then none else some nodes)
    Effect c (deleteNodes c now services res).1 res.name (some (Function.update c.model res.name
      (if ∀ version, entry' version = none then none else some entry'))) := by
  intro nodes entry'
  have hw := hc.entries res.name services hs
  have hnodes : nodes = lookup Node.id (old.filter fun cur => !seen res.nodes cur) := by
    funext id
    exact (lookup_filter_seen res.nodes old id).symm
  have hempty : (∀ id, nodes id = none) ↔ (old.filter fun cur => !seen res.nodes cur) = [] := by
    rw [hnodes]
    exact forall_lookup_eq_none
  rcases deleteNodes_some c now hw hold with ⟨hne, services', heq, hw', hv⟩ |
    ⟨hnil, hother, heq⟩ | ⟨hnil, ⟨version, hver, hother⟩, services', heq, hw', hv⟩
  · -- nodes are left
    have hentry' : entry' = Function.update (absEntry services) res.version (some nodes) := by
      rw [show entry' = Function.update _ _ (if _ then _ else _) from rfl,
        if_neg fun h => hne (hempty.mp h)]
    rw [heq, if_neg ?_]
    · refine Effect.set hc hs hw' hv ?_ ?_
      · intro l hl
        obtain rfl := Option.some.inj hl
        exact (hc.distinct hs hold).filter _
      · rw [absEntry_update hv, hentry', hnodes]
        rfl
    · intro h
      have := h res.version
      rw [hentry', Function.update_self] at this
      cases this
  · -- the entry goes
    have hentry' : entry' = Function.update (absEntry services) res.version none := by
      rw [show entry' = Function.update _ _ (if _ then _ else _) from rfl,
        if_pos (hempty.mpr hnil)]
    rw [heq, if_pos ?_]
    · exact Effect.del hc
    · intro v
      rw [hentry', Function.update_apply]
      split
      · rfl
      · next hv => rw [absEntry, hother v hv]; rfl
  · -- the version goes
    have hentry' : entry' = Function.update (absEntry services) res.version none := by
      rw [show entry' = Function.update _ _ (if _ then _ else _) from rfl,
        if_pos (hempty.mpr hnil)]
    rw [heq, if_neg ?_]
    · apply Effect.set hc hs hw' hv (by simp)
      rw [absEntry_update hv, hentry']
      rfl
    · intro h
      have hnone := h version
      rw [hentry', Function.update_of_ne hver, absEntry, Option.map_eq_none_iff] at hnone
      exact hother hnone

end Effects

/-- `update` on a well-formed cache and a result with distinct node ids keeps the cache well-formed,
leaves every entry but that of the service as it is, and has exactly the effect of the finite map
model; where the model has none, nothing changes at all. -/
theorem update_refines {c : CacheSelector} (hc : c.Wf) (now : ℤ) (res : Option Result)
    (hres : ∀ r ∈ res, Distinct Node.id r.service.nodes) :
    (update c now res).1.Wf ∧
    (∀ k, (∀ r ∈ res, k ≠ r.service.name) →
      (update c now res).1.cache k = c.cache k ∧ (update c now res).1.ttls k = c.ttls k) ∧
    (update c now res).1.model = (res.bind c.model.update).getD c.model ∧
    (res.bind c.model.update = none → (update c now res).1 = c) := by
  cases res with
  | none => exact ⟨hc, fun _ _ => ⟨rfl, rfl⟩, rfl, fun _ => rfl⟩
  | some r =>
    have hr := hres r rfl
    suffices h : Effect c (update c now (some r)).1 r.service.name (c.model.update r) from
      ⟨h.wf, fun k hk => h.frame k (hk r rfl), h.model, h.same⟩
    -- the model takes the same branches as the code, each with one of the effects above
    cases hs : c.cache r.service.name with
    | none =>
      have hmodel : c.model r.service.name = none := by
        rw [CacheSelector.model, hs]
        rfl
      rw [update_absent c now hs, Model.update, hmodel]
      exact Effect.refl hc
    | some services =>
      have hmodel : c.model r.service.name = some (absEntry services) := by
        rw [CacheSelector.model, hs]
        rfl
      rw [update_cached c now hs, Model.update, hmodel]
      dsimp only
      by_cases hnodes : r.service.nodes = []
      · rw [if_pos (List.length_eq_zero_iff.mpr hnodes), if_pos hnodes]
        cases r.action with
        | delete => exact Effect.del hc
        | create => exact Effect.refl hc
        | update => exact Effect.refl hc
        | other text => exact Effect.refl hc
      · rw [if_neg (mt List.length_eq_zero_iff.mp hnodes), if_neg hnodes]
        cases r.action with
        | create => exact effect_updateNodes hc hs hr
        | update => exact effect_updateNodes hc hs hr
        | other text => exact Effect.refl hc
        | delete =>
          dsimp only
          cases hold : versionNodes services r.service.version with
          | none =>
            have hversion : absEntry services r.service.version = none := by
              rw [absEntry, hold]
              rfl
            rw [hversion, deleteNodes_none c now (hc.entries _ _ hs) hold]
            exact Effect.refl hc
          | some old =>
            have hversion : absEntry services r.service.version = some (lookup Node.id old) := by
              rw [absEntry, hold]
              rfl
            rw [hversion]
            exact effect_deleteNodes hc hs hold

/-- A cache with two versions of one service. -/
def sampleServices : List Service :=
  [{ name := "s", version := "1", nodes := [⟨"a", "h", 1, ∅⟩, ⟨"b", "h", 2, ∅⟩] },
    { name := "s", version := "2", nodes := [⟨"a", "h", 3, ∅⟩] }]

def sampleCache : CacheSelector where
  cache name := if name = "s" then some sampleServices else none
  ttls _ := none
  ttl := 60
  watcher := true

/-- The node `a` of version 1 goes. -/
def sampleDelete : Result :=
  ⟨.delete, { name := "s", version := "1", nodes := [⟨"a", "h", 1, ∅⟩] }⟩

theorem sampleCache_wf : sampleCache.Wf := by
  have hentry : ∀ name services, sampleCache.cache name = some services →
      name = "s" ∧ services = sampleServices := by
    intro name services h
    simp only [sampleCache] at h
    split at h
    · next hname => exact ⟨hname, (Option.some.inj h).symm⟩
    · cases h
  constructor
  · intro name services h
    obtain ⟨rfl, rfl⟩ := hentry name services h
    exact ⟨by simp [sampleServices], by simp [sampleServices, Distinct]⟩
  · intro name services h
    obtain ⟨rfl, rfl⟩ := hentry name services h
    simp [sampleServices, Distinct]

theorem update_refines_sample :
    (update sampleCache 0 (some sampleDelete)).1.Wf ∧
    (update sampleCache 0 (some sampleDelete)).1.model
      = ((some sampleDelete).bind sampleCache.model.update).getD sampleCache.model := by
  have h := update_refines sampleCache_wf 0 (some sampleDelete)
    (by simp [sampleDelete, Distinct])
  exact ⟨h.1, h.2.2.1⟩

end Vmqant.Selector
