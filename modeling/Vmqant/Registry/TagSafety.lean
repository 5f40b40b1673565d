import Vmqant.Registry.Encoding

/-!
# Tags that nobody here wrote

Reference: `registry/encoding.go`, lines 54-168; `registry/consul_registry.go`, lines 250-325;
`registry/consul_watcher.go`, lines 51-108.

The tags of a service in the catalogue may be any texts. The three decoders are written out here with their
indices and slices, which panic when they are out of range, and are the ones of `Encoding` otherwise.
`tags_safe_iff` says on which tags they return, and on which entries `GetService` and `serviceHandler` do.
-/

namespace Vmqant.Registry

variable (c : TagCodec)

/-! ## The decoders by their indices -/

section Kind

variable {α : Type} (json : ByteCodec α) (kind : UInt8)

/-- The text of a tag as it is unmarshalled: `tag[2:]`, when `tag[1]` is one of the two formats. -/
def indexedText (tag : Tag) : Except PanicValue (List UInt8) := do
  let buf ← if (← Slice.index tag 1) = '='.toUInt8 then Slice.sliceFrom tag 2 else pure []
  if (← Slice.index tag 1) = '-'.toUInt8 then do pure (decode c (← Slice.sliceFrom tag 2)) else pure buf

/-- Whether the loop leaves out a tag: `len(tag) == 0 || tag[0] != kind`, and then
`ver > 0 && tag[1] != ver`. -/
def leftOut (ver : UInt8) (tag : Tag) : Except PanicValue Bool := do
  if tag.length = 0 then pure true
  else if (← Slice.index tag 0) ≠ kind then pure true
  else if ver > 0 then do pure ((← Slice.index tag 1) != ver)
  else pure false

/-- The loop of `decodeEndpoints` and of `decodeMetadata`. -/
def indexedTags : UInt8 → List Tag → Except PanicValue (List α)
  | _, [] => pure []
  | ver, tag :: tags => do
    if ← leftOut kind ver tag then indexedTags ver tags
    else
      let buf ← indexedText c tag
      -- set version
      let ver ← Slice.index tag 1
      let values ← indexedTags ver tags
      pure ((json.decode buf).toOption.toList ++ values)

end Kind

/-- `decodeEndpoints`. -/
def indexedEndpoints (tags : List Tag) : Except PanicValue (List (Option Endpoint)) :=
  indexedTags c c.endpoint 'e'.toUInt8 0 tags

/-- `decodeMetadata`. -/
def indexedMetadata (tags : List Tag) : Except PanicValue Metadata := do
  let kvs ← indexedTags c c.metadata 't'.toUInt8 0 tags
  pure (kvs.foldl (fun md kv => kv ∪ md) ∅)

/-- `decodeVersion`. -/
def indexedVersion : List Tag → Except PanicValue (List UInt8 × Bool)
  | [] => pure ([], false)
  | tag :: tags => do
    if tag.length < 2 then indexedVersion tags
    else if (← Slice.index tag 0) ≠ 'v'.toUInt8 then indexedVersion tags
    else if (← Slice.index tag 1) = '='.toUInt8 then do pure (← Slice.sliceFrom tag 2, true)
    else if (← Slice.index tag 1) = '-'.toUInt8 then do pure (decode c (← Slice.sliceFrom tag 2), true)
    else indexedVersion tags

section Kind

variable {c} {α : Type} {json : ByteCodec α} {kind : UInt8}

theorem indexedText_eq (k format : UInt8) (text : List UInt8) :
    indexedText c (k :: format :: text) = .ok (tagText c format text) := by
  have hindex : indexedText c (k :: format :: text)
      = (do
          let buf ← if format = '='.toUInt8 then Slice.sliceFrom (k :: format :: text) 2 else pure []
          if format = '-'.toUInt8 then do pure (decode c (← Slice.sliceFrom (k :: format :: text) 2))
          else pure buf) := rfl
  rw [hindex, Slice.sliceFrom_two, tagText]
  by_cases hold : format = '='.toUInt8
  · subst hold
    rfl
  · rw [if_neg hold, if_neg hold]
    by_cases hnew : format = '-'.toUInt8
    · subst hnew
      rfl
    · rw [if_neg hnew]
      exact if_neg hnew

theorem leftOut_of_ne {k : UInt8} (hk : k ≠ kind) (ver : UInt8) (rest : List UInt8) :
    leftOut kind ver (k :: rest) = .ok true := if_pos hk

theorem leftOut_short {ver : UInt8} :
    leftOut kind ver [kind] = if ver > 0 then .error (.indexOutOfRange 1 1) else .ok false :=
  if_neg (not_not_intro rfl)

theorem leftOut_cons (ver format : UInt8) (text : List UInt8) :
    leftOut kind ver (kind :: format :: text) = .ok (decide (ver > 0 ∧ format ≠ ver)) := by
  have hkind : leftOut kind ver (kind :: format :: text)
      = if ver > 0 then .ok (format != ver) else .ok false := if_neg (not_not_intro rfl)
  rw [hkind]
  by_cases hver : ver > 0
  · simp [hver, bne, beq_eq_decide]
  · simp [hver]

/-- The two models of the loop agree, in their panics too. -/
theorem indexedTags_eq (ver : UInt8) (tags : List Tag) :
    indexedTags c json kind ver tags = decodeTags c json kind ver tags := by
  induction tags generalizing ver with
  | nil => rfl
  | cons tag tags ih =>
    rw [indexedTags]
    rcases tag with _ | ⟨k, rest⟩
    · rw [decodeTags]
      exact ih ver
    by_cases hk : k = kind
    · subst hk
      rcases rest with _ | ⟨format, text⟩
      · rw [leftOut_short, decodeTags_short]
        split <;> rfl
      · rw [leftOut_cons, decodeTags_cons, indexedText_eq, ← ih ver, ← ih format]
        by_cases hskip : ver > 0 ∧ format ≠ ver
        · rw [if_pos hskip, decide_eq_true hskip]
          rfl
        · rw [if_neg hskip, decide_eq_false hskip]
          rfl
    · rw [leftOut_of_ne hk, decodeTags_of_ne hk]
      exact ih ver

/-- No index of `decodeVersion` is out of range. -/
theorem indexedVersion_eq (tags : List Tag) : indexedVersion c tags = .ok (decodeVersion c tags) := by
  induction tags with
  | nil => rfl
  | cons tag tags ih =>
    rcases tag with _ | ⟨k, _ | ⟨format, text⟩⟩
    · exact ih
    · exact ih
    · have hindex : indexedVersion c ((k :: format :: text) :: tags)
          = (if k ≠ 'v'.toUInt8 then indexedVersion c tags
            else if format = '='.toUInt8 then .ok (text, true)
            else if format = '-'.toUInt8 then .ok (decode c text, true)
            else indexedVersion c tags) := rfl
      rw [hindex, ih, decodeVersion]
      split_ifs <;> rfl

/-- The loop panics on a tag that is nothing but the kind, and on no other. -/
theorem decodeTags_returns_iff (ver : UInt8) (tags : List Tag) :
    (decodeTags c json kind ver tags).Returns ↔ [kind] ∉ tags := by
  induction tags generalizing ver with
  | nil => exact iff_of_true (Except.returns_ok _) List.not_mem_nil
  | cons tag tags ih =>
    rw [List.mem_cons, not_or]
    rcases tag with _ | ⟨k, rest⟩
    · rw [decodeTags, ih ver]
      exact (and_iff_right (List.cons_ne_nil kind [])).symm
    by_cases hk : k = kind
    · subst hk
      rcases rest with _ | ⟨format, text⟩
      · rw [decodeTags_short]
        exact iff_of_false (Except.not_returns_error _) fun h => h.1 rfl
      · have hlong : k :: format :: text ≠ [k] := by simp
        rw [and_iff_right hlong.symm, decodeTags_cons]
        by_cases hskip : ver > 0 ∧ format ≠ ver
        · rw [if_pos hskip]
          exact ih ver
        · rw [if_neg hskip, ← ih format]
          exact Except.returns_bind_iff_of_forall fun _ => Except.returns_ok _
    · rw [decodeTags_of_ne hk, ih ver, and_iff_right]
      intro h
      exact hk (List.cons.inj h).1.symm

end Kind

/-! ## The two loops over the catalogue -/

/-- What the loops read of an `api.ServiceEntry`: the service of the entry, the address of its node and the
states of its checks. -/
structure CatalogEntry where
  service : String
  id : String
  tags : List Tag
  address : String
  port : ℤ
  nodeAddress : String
  checks : List String

/-- The service of one version in `serviceMap`. -/
structure VersionedService where
  name : String
  version : List UInt8
  endpoints : List (Option Endpoint)
  nodes : List Node

/-- Delete the node if the status of a check is critical. -/
def CatalogEntry.del (s : CatalogEntry) : Bool := s.checks.any fun status => status = "critical"

/-- The versions under which there is a service. -/
def versions (serviceMap : List VersionedService) : List (List UInt8) := serviceMap.map (·.version)

/-- The service of the version is made when it is not there. -/
def withService (serviceMap : List VersionedService) (s : CatalogEntry) (version : List UInt8) :
    Except PanicValue (List VersionedService) :=
  if version ∈ versions serviceMap then pure serviceMap
  else do
    let endpoints ← indexedEndpoints c s.tags
    pure (serviceMap ++ [{ name := s.service, version, endpoints, nodes := [] }])

/-- The service of the version gets the node. -/
def withNode (serviceMap : List VersionedService) (s : CatalogEntry) (version : List UInt8) :
    Except PanicValue (List VersionedService) := do
  -- use node address
  let address := if s.address.length = 0 then s.nodeAddress else s.address
  let metadata ← indexedMetadata c s.tags
  let node : Node := { id := s.id, address, port := s.port, metadata }
  pure (serviceMap.map fun svc =>
    if svc.version = version then { svc with nodes := svc.nodes ++ [node] } else svc)

/-- One round of either loop. -/
def addService (serviceMap : List VersionedService) (s : CatalogEntry) :
    Except PanicValue (List VersionedService) := do
  -- version is now a tag
  let (version, _) ← indexedVersion c s.tags
  let serviceMap ← withService c serviceMap s version
  -- if delete then skip the node
  if s.del then pure serviceMap else withNode c serviceMap s version

/-- `GetService`, with the answer of Consul. -/
def getService (name : String) (rsp : Except String (List CatalogEntry)) :
    Except PanicValue (Except String (List VersionedService)) :=
  match rsp with
  | .error err => pure (.error err)
  | .ok rsp => do
    let services ← rsp.foldlM
      (fun serviceMap s => if s.service = name then addService c serviceMap s else pure serviceMap) []
    pure (.ok services)

/-- The loop of `serviceHandler`, which is all it does with tags. -/
def handlerServices (entries : List CatalogEntry) : Except PanicValue (List VersionedService) :=
  entries.foldlM (addService c) []

/-- The version of an entry. -/
def CatalogEntry.version (s : CatalogEntry) : List UInt8 := (decodeVersion c s.tags).1

/-- After entries of the versions `seen`, no entry has a tag that the loop cannot decode: the endpoints are
decoded once for each version, and the metadata unless the node is to be deleted. -/
def EntriesSafe : List (List UInt8) → List CatalogEntry → Prop
  | _, [] => True
  | seen, s :: entries =>
    (s.version c ∉ seen → ['e'.toUInt8] ∉ s.tags) ∧ (s.del = false → ['t'.toUInt8] ∉ s.tags) ∧
      EntriesSafe (s.version c :: seen) entries

section Entries

variable {c} {serviceMap : List VersionedService} {s : CatalogEntry}

theorem indexedEndpoints_returns_iff (tags : List Tag) :
    (indexedEndpoints c tags).Returns ↔ ['e'.toUInt8] ∉ tags := by
  unfold indexedEndpoints
  rw [indexedTags_eq]
  exact decodeTags_returns_iff 0 tags

theorem indexedMetadata_returns_iff (tags : List Tag) :
    (indexedMetadata c tags).Returns ↔ ['t'.toUInt8] ∉ tags := by
  unfold indexedMetadata
  rw [indexedTags_eq]
  exact (Except.returns_bind_iff_of_forall fun _ => Except.returns_ok _).trans
    (decodeTags_returns_iff 0 tags)

theorem withService_returns_iff (version : List UInt8) :
    (withService c serviceMap s version).Returns
      ↔ (version ∉ versions serviceMap → ['e'.toUInt8] ∉ s.tags) := by
  unfold withService
  by_cases hver : version ∈ versions serviceMap
  · rw [if_pos hver]
    exact iff_of_true (Except.returns_ok _) fun h => absurd hver h
  · rw [if_neg hver, imp_iff_right hver]
    exact (Except.returns_bind_iff_of_forall fun _ => Except.returns_ok _).trans
      (indexedEndpoints_returns_iff s.tags)

theorem withNode_returns_iff (version : List UInt8) :
    (withNode c serviceMap s version).Returns ↔ ['t'.toUInt8] ∉ s.tags :=
  (Except.returns_bind_iff_of_forall fun _ => Except.returns_ok _).trans
    (indexedMetadata_returns_iff s.tags)

/-- Afterwards there is a service of the version. -/
theorem mem_versions_withService {serviceMap' : List VersionedService} {version : List UInt8}
    (h : withService c serviceMap s version = .ok serviceMap') (v : List UInt8) :
    v ∈ versions serviceMap' ↔ v = version ∨ v ∈ versions serviceMap := by
  unfold withService at h
  by_cases hver : version ∈ versions serviceMap
  · rw [if_pos hver] at h
    cases h
    exact ⟨.inr, fun h => h.elim (fun hv => hv ▸ hver) id⟩
  · rw [if_neg hver] at h
    obtain ⟨en, -, hmap⟩ := Except.bind_eq_ok_iff.mp h
    cases hmap
    simp [versions, or_comm]

theorem versions_withNode {serviceMap' : List VersionedService} {version : List UInt8}
    (h : withNode c serviceMap s version = .ok serviceMap') : versions serviceMap' = versions serviceMap := by
  obtain ⟨md, -, hmap⟩ := Except.bind_eq_ok_iff.mp h
  cases hmap
  unfold versions
  rw [List.map_map]
  apply List.map_congr_left
  intro svc _
  rw [Function.comp_apply]
  split <;> rfl

theorem addService_eq :
    addService c serviceMap s = (do
      let serviceMap ← withService c serviceMap s (s.version c)
      if s.del then pure serviceMap else withNode c serviceMap s (s.version c)) := by
  unfold addService
  rw [indexedVersion_eq]
  rfl

/-- The round decodes the tags of the entry. -/
theorem addService_returns_iff :
    (addService c serviceMap s).Returns
      ↔ (s.version c ∉ versions serviceMap → ['e'.toUInt8] ∉ s.tags) ∧
        (s.del = false → ['t'.toUInt8] ∉ s.tags) := by
  rw [addService_eq, Except.returns_bind_iff, ← withService_returns_iff]
  constructor
  · rintro ⟨serviceMap', hok, hnode⟩
    refine ⟨⟨serviceMap', hok⟩, fun hdel => ?_⟩
    rw [hdel] at hnode
    exact (withNode_returns_iff _).mp hnode
  · rintro ⟨⟨serviceMap', hok⟩, hnode⟩
    refine ⟨serviceMap', hok, ?_⟩
    cases hdel : s.del with
    | true => exact Except.returns_ok _
    | false => exact (withNode_returns_iff _).mpr (hnode hdel)

theorem mem_versions_addService {serviceMap' : List VersionedService}
    (h : addService c serviceMap s = .ok serviceMap') (v : List UInt8) :
    v ∈ versions serviceMap' ↔ v = s.version c ∨ v ∈ versions serviceMap := by
  rw [addService_eq, Except.bind_eq_ok_iff] at h
  obtain ⟨made, hmade, hnode⟩ := h
  rw [← mem_versions_withService hmade]
  cases hdel : s.del with
  | true =>
    rw [hdel] at hnode
    cases hnode
    rfl
  | false =>
    rw [hdel] at hnode
    rw [versions_withNode hnode]

theorem foldlM_returns_iff {entries : List CatalogEntry} {seen : List (List UInt8)}
    (hseen : ∀ v, v ∈ versions serviceMap ↔ v ∈ seen) :
    (entries.foldlM (addService c) serviceMap).Returns ↔ EntriesSafe c seen entries := by
  induction entries generalizing serviceMap seen with
  | nil => exact iff_of_true (Except.returns_ok _) trivial
  | cons s entries ih =>
    rw [List.foldlM_cons, Except.returns_bind_iff, EntriesSafe, ← hseen]
    constructor
    · rintro ⟨serviceMap', hok, hrest⟩
      have hsafe := addService_returns_iff.mp ⟨serviceMap', hok⟩
      refine ⟨hsafe.1, hsafe.2, (ih fun v => ?_).mp hrest⟩
      rw [mem_versions_addService hok, List.mem_cons, hseen]
    · rintro ⟨hen, hmd, hrest⟩
      obtain ⟨serviceMap', hok⟩ := addService_returns_iff.mpr ⟨hen, hmd⟩
      refine ⟨serviceMap', hok, (ih fun v => ?_).mpr hrest⟩
      rw [mem_versions_addService hok, List.mem_cons, hseen]

theorem getService_returns_iff (name : String) (rsp : List CatalogEntry) :
    (getService c name (.ok rsp)).Returns
      ↔ EntriesSafe c [] (rsp.filter fun s => s.service = name) := by
  have hfilter : rsp.foldlM
        (fun serviceMap s => if s.service = name then addService c serviceMap s else pure serviceMap) []
      = (rsp.filter fun s => s.service = name).foldlM (addService c) [] := by
    simp only [List.foldlM_filter, decide_eq_true_eq]
  have hloop : (getService c name (.ok rsp)).Returns
      ↔ ((rsp.filter fun s => s.service = name).foldlM (addService c) []).Returns := by
    rw [← hfilter]
    exact Except.returns_bind_iff_of_forall fun _ => Except.returns_ok _
  rw [hloop]
  exact foldlM_returns_iff fun v => Iff.rfl

end Entries

/-- The decoders return on a list of tags if and only if none of its tags is an `e` or a `t` alone, and the
two loops over the catalogue if and only if they decode no such list. -/
theorem tags_safe_iff :
    (∀ tags, ((indexedVersion c tags).Returns ∧ (indexedEndpoints c tags).Returns ∧
        (indexedMetadata c tags).Returns) ↔ ['e'.toUInt8] ∉ tags ∧ ['t'.toUInt8] ∉ tags) ∧
      (∀ name rsp, (getService c name rsp).Returns
        ↔ ∀ entries, rsp = .ok entries → EntriesSafe c [] (entries.filter fun s => s.service = name)) ∧
      ∀ entries, (handlerServices c entries).Returns ↔ EntriesSafe c [] entries := by
  refine ⟨fun tags => ?_, fun name rsp => ?_, fun entries => foldlM_returns_iff fun v => Iff.rfl⟩
  · rw [indexedVersion_eq, indexedEndpoints_returns_iff, indexedMetadata_returns_iff]
    exact and_iff_right (Except.returns_ok _)
  · cases rsp with
    | error err => exact iff_of_true (Except.returns_ok _) nofun
    | ok rsp =>
      rw [getService_returns_iff]
      exact ⟨fun h entries hentries => Except.ok.inj hentries ▸ h, fun h => h rsp rfl⟩

/-- A healthy service with the tag `e`. -/
def oneTag : CatalogEntry where
  service := "chat"
  id := "chat@1"
  tags := [['e'.toUInt8]]
  address := "10.0.0.1"
  port := 80
  nodeAddress := "10.0.0.1"
  checks := ["passing"]

/-- Neither `GetService` nor the handler survives it. -/
theorem oneTag_panics :
    indexedEndpoints sampleTagCodec oneTag.tags = .error (.indexOutOfRange 1 1) ∧
      getService sampleTagCodec "chat" (.ok [oneTag]) = .error (.indexOutOfRange 1 1) ∧
      handlerServices sampleTagCodec [oneTag] = .error (.indexOutOfRange 1 1) :=
  ⟨rfl, rfl, rfl⟩

end Vmqant.Registry
