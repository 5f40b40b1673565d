import Vmqant.Selector.CacheModel

/-!
# Departed nodes and the watcher

Reference: `selector/cache/cache.go`, lines 147-257.

`update` calls the watcher of the options for the nodes that a result with the action `delete` takes out of
their version. A result with this action and without nodes takes out all of the entry, and the watcher is
not called. Nodes are told apart by their ids.
-/

namespace Vmqant.Selector

open Registry Keyed

variable {c c' : CacheSelector} {name id : String} {services : List Service}

/-! ## The property and the condition -/

/-- The node is in a service of the entry. -/
def CacheSelector.Holds (c : CacheSelector) (name : String) (node : Node) : Prop :=
  ∃ services, c.cache name = some services ∧ ∃ s ∈ services, node ∈ s.nodes

/-- A node with the id is in a service of the entry. -/
def CacheSelector.HoldsId (c : CacheSelector) (name id : String) : Prop :=
  ∃ node, c.Holds name node ∧ node.id = id

/-- The watcher was called for the nodes `dead` while the entry changed from `c` to `c'`: once for each
node that is gone, and for no node that stays. -/
structure Announces (c c' : CacheSelector) (name : String) (dead : List Node) : Prop where
  departed : ∀ node, c.Holds name node → ¬ c'.HoldsId name node.id →
    (dead.filter fun d => d.id = node.id) = [node]
  stays : ∀ node, c.Holds name node → c'.HoldsId name node.id → ∀ d ∈ dead, d.id ≠ node.id

/-- The id is in another version of the entry than that of the result. -/
def Elsewhere (services : List Service) (res : Service) (id : String) : Prop :=
  ∃ t ∈ services, t.version ≠ res.version ∧ (lookup Node.id t.nodes id).isSome = true

/-- The entry has no nodes when a result deletes it as a whole; and each node that a result deletes from
its version is in no other version of the entry if there is a watcher, and in another one if there is
none. -/
def Covered (c : CacheSelector) (r : Result) : Prop :=
  ∀ services, c.cache r.service.name = some services → r.action = .delete →
    (r.service.nodes = [] → ∀ s ∈ services, s.nodes = []) ∧
    ∀ s ∈ services, s.version = r.service.version →
      ∀ cur ∈ s.nodes, seen r.service.nodes cur = true →
        (c.watcher = true ↔ ¬ Elsewhere services r.service cur.id)

/-! ## What is in an entry -/

theorem isSome_lookup_iff {nodes : List Node} :
    (lookup Node.id nodes id).isSome = true ↔ ∃ node ∈ nodes, node.id = id := by
  rw [Option.isSome_iff_ne_none, ne_eq, lookup_eq_none]
  push Not
  rfl

/-- The ids of an entry, by version. -/
theorem holdsId_iff (hw : EntryWf name services) (hs : c.cache name = some services) :
    c.HoldsId name id ↔ ∃ version nodes, versionNodes services version = some nodes ∧
      (lookup Node.id nodes id).isSome = true := by
  constructor
  · rintro ⟨node, ⟨services', hs', s, hmem, hnode⟩, hid⟩
    obtain rfl := Option.some.inj (hs.symm.trans hs')
    have hlookup : lookup Service.version services s.version = some s :=
      hw.versions.lookup_eq_some.mpr ⟨hmem, rfl⟩
    refine ⟨s.version, s.nodes, ?_, isSome_lookup_iff.mpr ⟨node, hnode, hid⟩⟩
    rw [versionNodes, hlookup]
    rfl
  · rintro ⟨version, nodes, hnodes, hid⟩
    obtain ⟨s, hlookup, rfl⟩ := Option.map_eq_some_iff.mp hnodes
    obtain ⟨node, hnode, hid⟩ := isSome_lookup_iff.mp hid
    exact ⟨node, ⟨services, hs, s, (mem_of_lookup hlookup).1, hnode⟩, hid⟩

theorem not_holdsId_of_none (h : c.cache name = none) : ¬ c.HoldsId name id := by
  rintro ⟨node, ⟨services, hs, -⟩, -⟩
  rw [h] at hs
  cases hs

/-- The ids of an entry whose versions are the old ones but for one. -/
theorem holdsId_set {now : ℤ} {services' : List Service} {version : String}
    {nodes : Option (List Node)} (hw : EntryWf name services')
    (hversion : versionNodes services' = Function.update (versionNodes services) version nodes) :
    (c.set now name services').HoldsId name id ↔
      (∃ v l, v ≠ version ∧ versionNodes services v = some l ∧ (lookup Node.id l id).isSome = true) ∨
      ∃ l, nodes = some l ∧ (lookup Node.id l id).isSome = true := by
  have hs : (c.set now name services').cache name = some services' := by
    rw [cache_set, if_pos rfl]
  rw [holdsId_iff hw hs, hversion]
  constructor
  · rintro ⟨v, l, hl, hid⟩
    rw [Function.update_apply] at hl
    split at hl
    · exact .inr ⟨l, hl, hid⟩
    · next hv => exact .inl ⟨v, l, hv, hl, hid⟩
  · rintro (⟨v, l, hv, hl, hid⟩ | ⟨l, hl, hid⟩)
    · refine ⟨v, l, ?_, hid⟩
      rw [Function.update_of_ne hv, hl]
    · refine ⟨version, l, ?_, hid⟩
      rw [Function.update_self, hl]

/-- Where no id goes and the watcher is not called there is nothing to announce. -/
theorem announces_nil (h : ∀ id, c.HoldsId name id → c'.HoldsId name id) :
    Announces c c' name [] where
  departed node hnode hgone := absurd (h node.id ⟨node, hnode, rfl⟩) hgone
  stays _ _ _ d hd := by cases hd

section Cases

variable {now : ℤ} {res : Service} {old : List Node} (hw : EntryWf res.name services)
include hw

/-- `case "create", "update"` keeps all ids. -/
theorem holdsId_updateNodes (hs : c.cache res.name = some services) (h : c.HoldsId res.name id) :
    (updateNodes c now services res).HoldsId res.name id := by
  obtain ⟨services', heq, hw', hversion⟩ := updateNodes_spec c now hw
  rw [heq, holdsId_set hw' hversion]
  obtain ⟨version, nodes, hnodes, hid⟩ := (holdsId_iff hw hs).mp h
  by_cases hv : version = res.version
  · subst hv
    refine .inr ⟨_, rfl, ?_⟩
    rw [lookup_appendOld, hnodes, Option.getD_some, Option.isSome_or, hid, Bool.or_true]
  · exact .inl ⟨version, nodes, hv, hnodes, hid⟩

/-- `case "delete"` keeps the ids of other versions, and those of its version that are not deleted. -/
theorem holdsId_deleteNodes (hold : versionNodes services res.version = some old) :
    (deleteNodes c now services res).1.HoldsId res.name id ↔
      (∃ version nodes, version ≠ res.version ∧ versionNodes services version = some nodes ∧
        (lookup Node.id nodes id).isSome = true) ∨
      ((lookup Node.id res.nodes id).isSome = false ∧ (lookup Node.id old id).isSome = true) := by
  have hleft : (lookup Node.id (old.filter fun cur => !seen res.nodes cur) id).isSome = true ↔
      (lookup Node.id res.nodes id).isSome = false ∧ (lookup Node.id old id).isSome = true := by
    rw [lookup_filter_seen]
    split
    · next h => simp [h]
    · next h => simp [h]
  rw [← hleft]
  rcases deleteNodes_some c now hw hold with ⟨-, services', heq, hw', hversion⟩ |
      ⟨hnil, hnone, heq⟩ | ⟨hnil, -, services', heq, hw', hversion⟩
  · rw [heq, holdsId_set hw' hversion]
    refine or_congr_right ⟨?_, fun h => ⟨_, rfl, h⟩⟩
    rintro ⟨l, hl, h⟩
    obtain rfl := Option.some.inj hl
    exact h
  · -- the entry had no other version
    have hgone : (c.del res.name).cache res.name = none := by
      rw [cache_del, if_pos rfl]
    rw [heq, hnil]
    refine iff_of_false (not_holdsId_of_none hgone) ?_
    rintro (⟨v, l, hv, hl, -⟩ | h)
    · rw [hnone v hv] at hl
      cases hl
    · cases h
  · rw [heq, holdsId_set hw' hversion, hnil]
    refine or_congr_right (iff_of_false ?_ (by simp))
    rintro ⟨l, hl, -⟩
    cases hl

/-- The watcher is called for the nodes that are deleted from the version. -/
theorem deleteNodes_dead (hold : versionNodes services res.version = some old) :
    (deleteNodes c now services res).2
      = if c.watcher then old.filter fun cur => seen res.nodes cur else [] := by
  unfold deleteNodes
  cases hfind : findVersion res.version services with
  | none =>
    rw [versionNodes, findVersion_eq_none hfind] at hold
    cases hold
  | some p =>
    obtain ⟨i, s⟩ := p
    obtain ⟨hi, hv⟩ := findVersion_eq_some hfind
    have hlookup : lookup Service.version services res.version = some s :=
      hw.versions.lookup_eq_some.mpr ⟨List.mem_of_getElem? hi, hv⟩
    obtain rfl : s.nodes = old := by
      rw [versionNodes, hlookup] at hold
      exact Option.some.inj hold
    dsimp only
    split
    · rfl
    · split <;> rfl

theorem elsewhere_iff :
    Elsewhere services res id ↔ ∃ version nodes, version ≠ res.version ∧
      versionNodes services version = some nodes ∧ (lookup Node.id nodes id).isSome = true := by
  constructor
  · rintro ⟨t, hmem, hv, hid⟩
    have hlookup : lookup Service.version services t.version = some t :=
      hw.versions.lookup_eq_some.mpr ⟨hmem, rfl⟩
    refine ⟨t.version, t.nodes, hv, ?_, hid⟩
    rw [versionNodes, hlookup]
    rfl
  · rintro ⟨version, nodes, hv, hnodes, hid⟩
    obtain ⟨t, hlookup, rfl⟩ := Option.map_eq_some_iff.mp hnodes
    obtain ⟨hmem, rfl⟩ := mem_of_lookup hlookup
    exact ⟨t, hmem, hv, hid⟩

/-- An id that a result deletes from its version is in the entry afterwards if it is in another version. -/
theorem holdsId_deleteNodes_seen (hold : versionNodes services res.version = some old) {cur : Node}
    (hseen : seen res.nodes cur = true) :
    (deleteNodes c now services res).1.HoldsId res.name cur.id ↔ Elsewhere services res cur.id := by
  rw [seen_eq] at hseen
  rw [holdsId_deleteNodes hw hold, elsewhere_iff hw, hseen]
  simp

/-- When `case "delete"` announces what it deletes. -/
theorem announces_deleteNodes_iff (hd : Distinct Node.id old) (hs : c.cache res.name = some services)
    (hold : versionNodes services res.version = some old) :
    Announces c (deleteNodes c now services res).1 res.name (deleteNodes c now services res).2 ↔
      ∀ cur ∈ old, seen res.nodes cur = true →
        (c.watcher = true ↔ ¬ Elsewhere services res cur.id) := by
  obtain ⟨s, hlookup, hnodes⟩ := Option.map_eq_some_iff.mp hold
  obtain ⟨hmem, hversion⟩ := mem_of_lookup hlookup
  rw [deleteNodes_dead hw hold]
  constructor
  · intro h cur hcur hseen
    have hholds : c.Holds res.name cur := ⟨services, hs, s, hmem, hnodes ▸ hcur⟩
    have hafter : (deleteNodes c now services res).1.HoldsId res.name cur.id
        ↔ Elsewhere services res cur.id :=
      holdsId_deleteNodes_seen hw hold hseen
    constructor
    · intro hwatcher helse
      refine h.stays cur hholds (hafter.mpr helse) cur ?_ rfl
      rw [if_pos hwatcher]
      exact List.mem_filter.mpr ⟨hcur, hseen⟩
    · intro helse
      have hdead := h.departed cur hholds (mt hafter.mp helse)
      by_contra hwatcher
      rw [if_neg hwatcher] at hdead
      cases hdead
  · intro h
    refine ⟨fun node hnode hgone => ?_, fun node hnode hstays d hdead hid => ?_⟩
    · obtain ⟨services', hs', t, ht, hnode⟩ := hnode
      obtain rfl := Option.some.inj (hs.symm.trans hs')
      rw [holdsId_deleteNodes hw hold, ← elsewhere_iff hw, not_or] at hgone
      obtain ⟨helse, hkept⟩ := hgone
      -- the node was in the version of the result, and is deleted from it
      have hfound : (lookup Node.id t.nodes node.id).isSome = true :=
        isSome_lookup_iff.mpr ⟨node, hnode, rfl⟩
      have htv : t.version = res.version := by
        by_contra hv
        exact helse ⟨t, ht, hv, hfound⟩
      have hts : some t = some s := by
        rw [← hlookup]
        exact (hw.versions.lookup_eq_some.mpr ⟨ht, htv⟩).symm
      obtain rfl := Option.some.inj hts
      rw [hnodes] at hnode hfound
      have hseen : seen res.nodes node = true := by
        by_contra hseen
        rw [seen_eq] at hseen
        exact hkept ⟨by simpa using hseen, hfound⟩
      rw [if_pos ((h node hnode hseen).mpr helse), List.filter_comm, hd.filter_key,
        hd.lookup_eq_some.mpr ⟨hnode, rfl⟩, Option.toList_some, List.filter_cons, if_pos hseen,
        List.filter_nil]
    · split at hdead
      · next hwatcher =>
        obtain ⟨hd, hseen⟩ := List.mem_filter.mp hdead
        rw [← hid, holdsId_deleteNodes_seen hw hold hseen] at hstays
        exact (h d hd hseen).mp hwatcher hstays
      · cases hdead

end Cases

/-- All of the entry is deleted, and the watcher is not called. -/
theorem announces_del_iff (hs : c.cache name = some services) :
    Announces c (c.del name) name [] ↔ ∀ s ∈ services, s.nodes = [] := by
  have hgone : (c.del name).cache name = none := by
    rw [cache_del, if_pos rfl]
  constructor
  · intro h s hmem
    apply List.eq_nil_iff_forall_not_mem.mpr
    intro node hnode
    have hdead := h.departed node ⟨services, hs, s, hmem, hnode⟩ (not_holdsId_of_none hgone)
    cases hdead
  · intro h
    refine announces_nil fun id => ?_
    rintro ⟨node, ⟨services', hs', s, hmem, hnode⟩, -⟩
    obtain rfl := Option.some.inj (hs.symm.trans hs')
    rw [h s hmem] at hnode
    cases hnode

section Covered

variable {r : Result}

/-- The condition for an entry that is there. -/
theorem covered_iff (hs : c.cache r.service.name = some services) (hdelete : r.action = .delete) :
    Covered c r ↔ (r.service.nodes = [] → ∀ s ∈ services, s.nodes = []) ∧
      ∀ s ∈ services, s.version = r.service.version →
        ∀ cur ∈ s.nodes, seen r.service.nodes cur = true →
          (c.watcher = true ↔ ¬ Elsewhere services r.service cur.id) := by
  constructor
  · intro h
    exact h services hs hdelete
  · rintro h services' hs' -
    obtain rfl := Option.some.inj (hs.symm.trans hs')
    exact h

/-- A result without nodes takes out none of them. -/
theorem covered_iff_of_nil (hs : c.cache r.service.name = some services)
    (hdelete : r.action = .delete) (hnil : r.service.nodes = []) :
    Covered c r ↔ ∀ s ∈ services, s.nodes = [] := by
  rw [covered_iff hs hdelete]
  constructor
  · intro h
    exact h.1 hnil
  · intro h
    refine ⟨fun _ => h, fun s _ _ cur _ hseen => ?_⟩
    rw [hnil] at hseen
    cases hseen

/-- A result with nodes is about one version. -/
theorem covered_iff_of_version (hw : EntryWf r.service.name services)
    (hs : c.cache r.service.name = some services) (hdelete : r.action = .delete)
    (hnil : r.service.nodes ≠ []) :
    Covered c r ↔ ∀ old, versionNodes services r.service.version = some old →
      ∀ cur ∈ old, seen r.service.nodes cur = true →
        (c.watcher = true ↔ ¬ Elsewhere services r.service cur.id) := by
  rw [covered_iff hs hdelete]
  constructor
  · rintro ⟨-, h⟩ old hold
    obtain ⟨t, hlookup, rfl⟩ := Option.map_eq_some_iff.mp hold
    obtain ⟨ht, htv⟩ := mem_of_lookup hlookup
    exact h t ht htv
  · intro h
    refine ⟨fun hnodes => absurd hnodes hnil, fun s hmem hv => h s.nodes ?_⟩
    rw [versionNodes, hw.versions.lookup_eq_some.mpr ⟨hmem, hv⟩]
    rfl

end Covered

/-! ## Every update -/

/-- **Every departed node is announced** exactly where the update is covered: on a well-formed cache, the
watcher is called once for each node that leaves the entry of the result, and for no node that stays, if
and only if the result does not delete an entry with nodes as a whole, and a node that it deletes from its
version is in no other one (with a watcher; without, it is in another one). -/
theorem update_announces_iff (c : CacheSelector) (now : ℤ) (r : Result) (hc : c.Wf) :
    Announces c (update c now (some r)).1 r.service.name (update c now (some r)).2 ↔ Covered c r := by
  cases hs : c.cache r.service.name with
  | none =>
    rw [update_absent c now hs]
    refine iff_of_true (announces_nil fun id h => h) ?_
    intro services h
    rw [hs] at h
    cases h
  | some services =>
    have hw := hc.entries _ _ hs
    rw [update_cached c now hs]
    by_cases hdelete : r.action = .delete
    · rw [hdelete]
      by_cases hnil : r.service.nodes = []
      · rw [if_pos (List.length_eq_zero_iff.mpr hnil), covered_iff_of_nil hs hdelete hnil]
        exact announces_del_iff hs
      · rw [if_neg (mt List.length_eq_zero_iff.mp hnil), covered_iff_of_version hw hs hdelete hnil]
        dsimp only
        cases hold : versionNodes services r.service.version with
        | none =>
          rw [deleteNodes_none c now hw hold]
          refine iff_of_true (announces_nil fun id h => h) ?_
          intro old h
          cases h
        | some old =>
          rw [announces_deleteNodes_iff hw (hc.distinct hs hold) hs hold]
          constructor
          · intro h old' hold'
            obtain rfl := Option.some.inj hold'
            exact h
          · intro h
            exact h old rfl
    · refine iff_of_true ?_ fun _ _ h => absurd h hdelete
      split
      · split
        · next haction => exact absurd haction hdelete
        · exact announces_nil fun id h => h
      · split
        · exact announces_nil fun id h => holdsId_updateNodes hw hs h
        · exact announces_nil fun id h => holdsId_updateNodes hw hs h
        · next haction => exact absurd haction hdelete
        · exact announces_nil fun id h => h

/-- A service with two nodes. -/
def pairServices : List Service :=
  [{ name := "s", version := "1", nodes := [⟨"a", "h", 1, ∅⟩, ⟨"b", "h", 2, ∅⟩] }]

def pairCache : CacheSelector where
  cache name := if name = "s" then some pairServices else none
  ttls _ := none
  ttl := 60
  watcher := true

theorem pairCache_eq {name : String} (h : pairCache.cache name = some services) :
    name = "s" ∧ services = pairServices := by
  simp only [pairCache] at h
  split at h
  · next hname => exact ⟨hname, (Option.some.inj h).symm⟩
  · cases h

theorem pairCache_wf : pairCache.Wf := by
  constructor
  · intro name services h
    obtain ⟨rfl, rfl⟩ := pairCache_eq h
    exact ⟨by simp [pairServices], by simp [pairServices, Distinct]⟩
  · intro name services h
    obtain ⟨rfl, rfl⟩ := pairCache_eq h
    simp [pairServices, Distinct]

/-- The node `a` goes. -/
def pairDelete : Result := ⟨.delete, { name := "s", version := "1", nodes := [⟨"a", "h", 1, ∅⟩] }⟩

theorem update_announces_pairDelete :
    pairCache.Wf ∧ Covered pairCache pairDelete ∧
    Announces pairCache (update pairCache 0 (some pairDelete)).1 "s"
      (update pairCache 0 (some pairDelete)).2 := by
  have hcovered : Covered pairCache pairDelete := by
    intro services hs _
    obtain ⟨-, rfl⟩ := pairCache_eq hs
    refine ⟨nofun, fun s hmem hv cur hcur hseen => iff_of_true rfl ?_⟩
    rintro ⟨t, ht, htv, -⟩
    obtain rfl := List.mem_singleton.mp ht
    exact htv rfl
  exact ⟨pairCache_wf, hcovered,
    (update_announces_iff pairCache 0 pairDelete pairCache_wf).mpr hcovered⟩

/-- The whole service goes: the registry sends no nodes with such a result. -/
def pairGone : Result := ⟨.delete, { name := "s" }⟩

/-- The node `a` has left, and the watcher is not called. -/
theorem not_announces_pairGone :
    pairCache.Wf ∧ pairCache.Holds "s" ⟨"a", "h", 1, ∅⟩ ∧
    ¬ (update pairCache 0 (some pairGone)).1.HoldsId "s" "a" ∧
    (update pairCache 0 (some pairGone)).2 = [] ∧
    ¬ Announces pairCache (update pairCache 0 (some pairGone)).1 "s"
      (update pairCache 0 (some pairGone)).2 := by
  have hcache : pairCache.cache "s" = some pairServices := rfl
  have hupdate : update pairCache 0 (some pairGone) = (pairCache.del "s", []) := by
    rw [update_cached pairCache 0 (r := pairGone) hcache]
    rfl
  have hholds : pairCache.Holds "s" ⟨"a", "h", 1, ∅⟩ :=
    ⟨pairServices, hcache, _, List.mem_cons_self, List.mem_cons_self⟩
  have hgone : ¬ (pairCache.del "s").HoldsId "s" "a" := not_holdsId_of_none rfl
  rw [hupdate]
  refine ⟨pairCache_wf, hholds, hgone, rfl, fun h => ?_⟩
  cases h.departed _ hholds hgone

end Vmqant.Selector
