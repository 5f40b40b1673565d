import Vmqant.Common.Panic
import Vmqant.Common.Hex
import Vmqant.Common.ByteCodec
import Vmqant.Common.GoMap
import Vmqant.Registry.Service

/-!
# The tags of a service in Consul

Reference: `registry/encoding.go`; `registry/consul_registry.go`, lines 190-193.

`Register` keeps the metadata of the node, the endpoints and the version in one flat list of tags, which
Consul may give back in any order. A tag is a Go string, which is any bytes. `decode_registerTags` says
that each of the three decoders finds its own part in that list.
-/

namespace Vmqant.Registry

abbrev Tag := List UInt8

/-- The packages that `encoding.go` uses. -/
structure TagCodec where
  zlib : ByteCodec (List UInt8)
  /-- `encoding/json` for `*Endpoint`. -/
  endpoint : ByteCodec (Option Endpoint)
  /-- `encoding/json` for `map[string]string`. -/
  metadata : ByteCodec Metadata

variable (c : TagCodec)

/-- `encode`. -/
def encode (buf : List UInt8) : List UInt8 :=
  match c.zlib.encode buf with
  | .error _ => []
  | .ok b => Hex.encode b

/-- `decode`; an error gives `nil`. -/
def decode (d : List UInt8) : List UInt8 :=
  match Hex.decode d with
  | none => []
  | some hr =>
    match c.zlib.decode hr with
    | .error _ => []
    | .ok rbuf => rbuf

/-! ## Tags of one kind -/

section Kind

variable {α : Type} (json : ByteCodec α) (kind : UInt8)

/-- The tags of the values that can be marshalled. -/
def encodeTags (values : List α) : List Tag :=
  values.filterMap fun value =>
    (json.encode value).toOption.map fun b => kind :: '-'.toUInt8 :: encode c b

/-- The text after the format of a tag, as it is unmarshalled. -/
def tagText (format : UInt8) (text : List UInt8) : List UInt8 :=
  -- old encoding was plain, new encoding is hex
  if format = '='.toUInt8 then text
  else if format = '-'.toUInt8 then decode c text
  else []

/-- The loop over the tags: the values of those of the kind that have the format `ver`, which is 0 until
the first one. -/
def decodeTags : UInt8 → List Tag → Except PanicValue (List α)
  | _, [] => pure []
  | ver, [] :: tags => decodeTags ver tags
  | ver, (k :: rest) :: tags =>
    if k ≠ kind then decodeTags ver tags
    else
      match rest with
      | [] => throw (.indexOutOfRange 1 1)
      | format :: text =>
        if ver > 0 ∧ format ≠ ver then decodeTags ver tags
        else do
          let values ← decodeTags format tags
          pure ((json.decode (tagText c format text)).toOption.toList ++ values)

end Kind

/-! ## The three codecs -/

def encodeEndpoints (en : List (Option Endpoint)) : List Tag := encodeTags c c.endpoint 'e'.toUInt8 en

def decodeEndpoints (tags : List Tag) : Except PanicValue (List (Option Endpoint)) :=
  decodeTags c c.endpoint 'e'.toUInt8 0 tags

/-- `encodeMetadata`; a tag for each entry, in the order of the loop. -/
def encodeMetadata (md : AList fun _ : String => String) : List Tag :=
  encodeTags c c.metadata 't'.toUInt8 (md.entries.map fun e => Finmap.singleton e.1 e.2)

/-- `decodeMetadata`; the entries of a later tag win. -/
def decodeMetadata (tags : List Tag) : Except PanicValue Metadata := do
  let kvs ← decodeTags c c.metadata 't'.toUInt8 0 tags
  pure (kvs.foldl (fun md kv => kv ∪ md) ∅)

def encodeVersion (v : List UInt8) : List Tag := ['v'.toUInt8 :: '-'.toUInt8 :: encode c v]

def decodeVersion : List Tag → List UInt8 × Bool
  | [] => ([], false)
  | tag :: tags =>
    match tag with
    | k :: format :: text =>
      if k ≠ 'v'.toUInt8 then decodeVersion tags
      else if format = '='.toUInt8 then (text, true)
      else if format = '-'.toUInt8 then (decode c text, true)
      else decodeVersion tags
    | _ => decodeVersion tags

/-- The tags that `Register` gives the node of a service. -/
def registerTags (md : AList fun _ : String => String) (en : List (Option Endpoint))
    (v : List UInt8) : List Tag :=
  encodeMetadata c md ++ encodeEndpoints c en ++ encodeVersion c v

/-! ## The round trip -/

section Kind

variable {c} {α : Type} {json : ByteCodec α} {kind : UInt8} {ver : UInt8} {tags : List Tag}
  {values : List α}

theorem decode_encode (hzlib : c.zlib.Lossless) (buf : List UInt8) :
    decode c (encode c buf) = buf := by
  unfold encode decode
  rw [(hzlib buf).encode_eq]
  dsimp only
  rw [Hex.decode_encode]
  dsimp only
  rw [(hzlib buf).decode_bytes]

/-- The tag of a value. -/
def valueTag (c : TagCodec) (json : ByteCodec α) (kind : UInt8) (value : α) : Tag :=
  kind :: '-'.toUInt8 :: encode c (json.bytes value)

theorem encodeTags_eq (hjson : ∀ value ∈ values, json.RoundTrips value) :
    encodeTags c json kind values = values.map (valueTag c json kind) := by
  unfold encodeTags
  rw [← List.filterMap_eq_map]
  apply List.filterMap_congr
  intro value hvalue
  rw [(hjson value hvalue).encode_eq]
  rfl

theorem decodeTags_of_ne {k : UInt8} (hk : k ≠ kind) (rest : List UInt8) :
    decodeTags c json kind ver ((k :: rest) :: tags) = decodeTags c json kind ver tags := by
  rcases rest with _ | ⟨format, text⟩ <;> rw [decodeTags, if_pos hk]

theorem decodeTags_short :
    decodeTags c json kind ver ([kind] :: tags) = .error (.indexOutOfRange 1 1) := by
  rw [decodeTags, if_neg (not_not_intro rfl)]
  rfl

theorem decodeTags_cons (format : UInt8) (text : List UInt8) :
    decodeTags c json kind ver ((kind :: format :: text) :: tags)
      = if ver > 0 ∧ format ≠ ver then decodeTags c json kind ver tags
        else (do
          let values ← decodeTags c json kind format tags
          pure ((json.decode (tagText c format text)).toOption.toList ++ values)) := by
  rw [decodeTags, if_neg (not_not_intro rfl)]

/-- Whether a tag is of a kind. -/
def ofKind (kind : UInt8) (tag : Tag) : Bool := tag.head? = some kind

theorem filter_ofKind_self (values : List α) :
    (values.map (valueTag c json kind)).filter (ofKind kind) = values.map (valueTag c json kind) := by
  rw [List.filter_eq_self]
  intro tag htag
  obtain ⟨value, -, rfl⟩ := List.mem_map.mp htag
  exact decide_eq_true rfl

theorem filter_ofKind_other {kind' : UInt8} (hkind : kind ≠ kind') (values : List α) :
    (values.map (valueTag c json kind)).filter (ofKind kind') = [] := by
  rw [List.filter_eq_nil_iff]
  intro tag htag
  obtain ⟨value, -, rfl⟩ := List.mem_map.mp htag
  exact decide_eq_true_iff.not.mpr fun h => hkind (Option.some.inj h)

/-- The tags of the other kinds are skipped. -/
theorem decodeTags_filter (ver : UInt8) (tags : List Tag) :
    decodeTags c json kind ver tags = decodeTags c json kind ver (tags.filter (ofKind kind)) := by
  induction tags generalizing ver with
  | nil => rfl
  | cons tag tags ih =>
    rcases tag with _ | ⟨k, rest⟩
    · have hnot : ¬ ofKind kind [] = true := decide_eq_true_iff.not.mpr nofun
      rw [List.filter_cons_of_neg hnot, decodeTags]
      exact ih ver
    · by_cases hk : k = kind
      · subst hk
        have hof : ofKind k (k :: rest) = true := decide_eq_true rfl
        rw [List.filter_cons_of_pos hof]
        rcases rest with _ | ⟨format, text⟩
        · rw [decodeTags_short, decodeTags_short]
        · rw [decodeTags_cons, decodeTags_cons, ih ver, ih format]
      · have hnot : ¬ ofKind kind (k :: rest) = true :=
          decide_eq_true_iff.not.mpr fun h => hk (Option.some.inj h)
        rw [List.filter_cons_of_neg hnot, decodeTags_of_ne hk]
        exact ih ver

/-- All tags are in the same format, and none is skipped. -/
theorem decodeTags_map (hzlib : c.zlib.Lossless) (hjson : ∀ value ∈ values, json.RoundTrips value)
    (hver : ver = 0 ∨ ver = '-'.toUInt8) :
    decodeTags c json kind ver (values.map (valueTag c json kind)) = .ok values := by
  induction values generalizing ver with
  | nil => rfl
  | cons value values ih =>
    obtain ⟨hvalue, hvalues⟩ := List.forall_mem_cons.mp hjson
    have hfirst : ¬(ver > 0 ∧ '-'.toUInt8 ≠ ver) := by
      rcases hver with rfl | rfl
      · exact fun h => absurd h.1 (by decide)
      · exact fun h => h.2 rfl
    have htext : tagText c '-'.toUInt8 (encode c (json.bytes value)) = json.bytes value :=
      decode_encode hzlib _
    rw [List.map_cons, valueTag, decodeTags_cons, if_neg hfirst, ih hvalues (.inr rfl), htext, hvalue.decode_bytes]
    rfl

/-- The values of a kind come in the order of their tags. -/
theorem decodeTags_perm (hzlib : c.zlib.Lossless) (hjson : ∀ value ∈ values, json.RoundTrips value)
    (htags : (tags.filter (ofKind kind)).Perm (values.map (valueTag c json kind))) :
    ∃ values', decodeTags c json kind 0 tags = .ok values' ∧ values'.Perm values ∧
      encodeTags c json kind values' = tags.filter (ofKind kind) := by
  have hcomp : Relation.Comp (fun l l' => l = l'.map (valueTag c json kind)) List.Perm
      (tags.filter (ofKind kind)) values := by
    rw [List.eq_map_comp_perm]
    exact htags
  obtain ⟨values', heq, hperm⟩ := hcomp
  have hjson' : ∀ value ∈ values', json.RoundTrips value := fun value hvalue =>
    hjson value (hperm.mem_iff.mp hvalue)
  refine ⟨values', ?_, hperm, ?_⟩
  · rw [decodeTags_filter, heq]
    exact decodeTags_map hzlib hjson' (.inl rfl)
  · rw [encodeTags_eq hjson', heq]

end Kind

section Metadata

theorem lookup_singleton_union (k k' v : String) (md : Metadata) :
    (Finmap.singleton k v ∪ md).lookup k' = if k' = k then some v else md.lookup k' := by
  split
  · next h =>
    subst h
    rw [Finmap.lookup_union_left ((Finmap.mem_singleton _ _ _).mpr rfl), Finmap.lookup_singleton_eq]
  · next h => rw [Finmap.lookup_union_right ((Finmap.mem_singleton _ _ _).not.mpr h)]

/-- Maps of one entry with distinct keys, put together in any order. -/
theorem foldl_union_singleton {entries : List ((_ : String) × String)} (h : entries.NodupKeys) :
    (entries.map fun e => (Finmap.singleton e.1 e.2 : Metadata)).foldl (fun md kv => kv ∪ md) ∅
      = AList.toFinmap ⟨entries, h⟩ := by
  have hfold : ∀ (md : Metadata) (k : String),
      ((entries.map fun e => (Finmap.singleton e.1 e.2 : Metadata)).foldl
        (fun md kv => kv ∪ md) md).lookup k = (entries.dlookup k).or (md.lookup k) := by
    intro md k
    induction entries generalizing md with
    | nil => rfl
    | cons e entries ih =>
      obtain ⟨hfresh, hrest⟩ := List.nodupKeys_cons.mp h
      rw [List.map_cons, List.foldl_cons, ih hrest, lookup_singleton_union]
      split
      · next hk =>
        -- the key is not met again
        subst hk
        rw [List.dlookup_cons_eq, List.dlookup_eq_none.mpr hfresh, Option.none_or, Option.some_or]
      · next hk => rw [List.dlookup_cons_ne _ _ hk]
  apply Finmap.ext_lookup
  intro k
  rw [hfold, Finmap.lookup_empty, Option.or_none]
  rfl

end Metadata

section RoundTrip

variable {c} {tags : List Tag} {md : AList fun _ : String => String} {en : List (Option Endpoint)}
  {v : List UInt8}

/-- The maps of one entry that a metadata map is sent as. -/
def kvs (md : AList fun _ : String => String) : List Metadata :=
  md.entries.map fun e => Finmap.singleton e.1 e.2

/-- The packages are lossless on what `Register` writes, and the writer does not fail. -/
structure TagCodec.Keeps (c : TagCodec) (md : AList fun _ : String => String)
    (en : List (Option Endpoint)) : Prop where
  zlib : c.zlib.Lossless
  metadata : ∀ kv ∈ kvs md, c.metadata.RoundTrips kv
  endpoint : ∀ e ∈ en, c.endpoint.RoundTrips e

theorem registerTags_eq (hc : c.Keeps md en) :
    registerTags c md en v = (kvs md).map (valueTag c c.metadata 't'.toUInt8)
      ++ en.map (valueTag c c.endpoint 'e'.toUInt8) ++ encodeVersion c v := by
  have hmd : encodeMetadata c md = (kvs md).map (valueTag c c.metadata 't'.toUInt8) :=
    encodeTags_eq hc.metadata
  have hen : encodeEndpoints c en = en.map (valueTag c c.endpoint 'e'.toUInt8) :=
    encodeTags_eq hc.endpoint
  unfold registerTags
  rw [hmd, hen]

theorem filter_metadata (hc : c.Keeps md en) :
    (registerTags c md en v).filter (ofKind 't'.toUInt8)
      = (kvs md).map (valueTag c c.metadata 't'.toUInt8) := by
  rw [registerTags_eq hc, List.filter_append, List.filter_append, filter_ofKind_self,
    filter_ofKind_other (by decide)]
  exact (List.append_nil _).trans (List.append_nil _)

theorem filter_endpoints (hc : c.Keeps md en) :
    (registerTags c md en v).filter (ofKind 'e'.toUInt8)
      = en.map (valueTag c c.endpoint 'e'.toUInt8) := by
  rw [registerTags_eq hc, List.filter_append, List.filter_append, filter_ofKind_self,
    filter_ofKind_other (by decide)]
  exact List.append_nil _

theorem decodeMetadata_of_perm (hc : c.Keeps md en) (htags : tags.Perm (registerTags c md en v)) :
    decodeMetadata c tags = .ok md.toFinmap := by
  have hkind := htags.filter (ofKind 't'.toUInt8)
  rw [filter_metadata hc] at hkind
  obtain ⟨kvs', hdecode, hperm, -⟩ := decodeTags_perm hc.zlib hc.metadata hkind
  -- the maps are those of the entries in another order
  have hcomp : Relation.Comp
      (fun (l : List Metadata) l' => l = l'.map fun e => Finmap.singleton e.1 e.2) List.Perm
      kvs' md.entries := by
    rw [List.eq_map_comp_perm]
    exact hperm
  obtain ⟨entries, rfl, hentries⟩ := hcomp
  have hnodup : entries.NodupKeys := (List.perm_nodupKeys hentries).mpr md.nodupKeys
  unfold decodeMetadata
  rw [hdecode]
  refine congrArg Except.ok ?_
  rw [foldl_union_singleton hnodup]
  exact AList.toFinmap_eq.mpr hentries

theorem decodeEndpoints_of_perm (hc : c.Keeps md en) (htags : tags.Perm (registerTags c md en v)) :
    ∃ en', decodeEndpoints c tags = .ok en' ∧ en'.Perm en ∧
      encodeEndpoints c en' = tags.filter (ofKind 'e'.toUInt8) := by
  have hkind := htags.filter (ofKind 'e'.toUInt8)
  rw [filter_endpoints hc] at hkind
  exact decodeTags_perm hc.zlib hc.endpoint hkind

/-- The first tag of the kind decides, and there is one only. -/
theorem decodeVersion_eq (hzlib : c.zlib.Lossless)
    (hv : tags.filter (ofKind 'v'.toUInt8) = encodeVersion c v) : decodeVersion c tags = (v, true) := by
  induction tags with
  | nil => cases hv
  | cons tag tags ih =>
    by_cases hof : ofKind 'v'.toUInt8 tag = true
    · rw [List.filter_cons_of_pos hof] at hv
      obtain ⟨rfl, -⟩ := List.cons.inj hv
      have hnew : '-'.toUInt8 ≠ '='.toUInt8 := by decide
      rw [decodeVersion, if_neg (not_not_intro rfl), if_neg hnew, if_pos rfl, decode_encode hzlib]
    · rw [List.filter_cons_of_neg hof] at hv
      rcases tag with _ | ⟨k, _ | ⟨format, text⟩⟩
      · exact ih hv
      · exact ih hv
      · have hk : k ≠ 'v'.toUInt8 := fun h => hof (decide_eq_true (congrArg some h))
        rw [decodeVersion, if_pos hk]
        exact ih hv

theorem decodeVersion_of_perm (hc : c.Keeps md en) (htags : tags.Perm (registerTags c md en v)) :
    decodeVersion c tags = (v, true) := by
  have hkind := htags.filter (ofKind 'v'.toUInt8)
  have hone : (registerTags c md en v).filter (ofKind 'v'.toUInt8) = encodeVersion c v := by
    rw [registerTags_eq hc, List.filter_append, List.filter_append,
      filter_ofKind_other (by decide), filter_ofKind_other (by decide)]
    rfl
  rw [hone] at hkind
  exact decodeVersion_eq hc.zlib (List.perm_singleton.mp hkind)

/-- From the tags of a service, in any order, its metadata, its version and its endpoints come back, the
endpoints in the order of their tags. -/
theorem decode_registerTags (hc : c.Keeps md en) (htags : tags.Perm (registerTags c md en v)) :
    decodeMetadata c tags = .ok md.toFinmap ∧ decodeVersion c tags = (v, true) ∧
      ∃ en', decodeEndpoints c tags = .ok en' ∧ en'.Perm en ∧
        encodeEndpoints c en' = tags.filter (ofKind 'e'.toUInt8) :=
  ⟨decodeMetadata_of_perm hc htags, decodeVersion_of_perm hc htags, decodeEndpoints_of_perm hc htags⟩

/-! ### A service with the metadata `a: b` and the version `1.0.0` -/

def jsonAB : List UInt8 := [0x7b, 0x22, 0x61, 0x22, 0x3a, 0x22, 0x62, 0x22, 0x7d]

def version100 : List UInt8 := [0x31, 0x2e, 0x30, 0x2e, 0x30]

/-- `compress/zlib` on these two texts. -/
def sampleZlib : ByteCodec (List UInt8) where
  encode buf :=
    if buf = jsonAB then
      .ok [0x78, 0x9c, 0xaa, 0x56, 0x4a, 0x54, 0xb2, 0x52, 0x4a, 0x52, 0xaa, 0x05, 0x04, 0x00,
        0x00, 0xff, 0xff, 0x0c, 0x70, 0x02, 0x7e]
    else if buf = version100 then
      .ok [0x78, 0x9c, 0x32, 0xd4, 0x33, 0xd0, 0x33, 0x00, 0x04, 0x00, 0x00, 0xff, 0xff, 0x02,
        0xce, 0x00, 0xee]
    else .ok (0 :: buf)
  decode
    | 0 :: buf => .ok buf
    | [0x78, 0x9c, 0xaa, 0x56, 0x4a, 0x54, 0xb2, 0x52, 0x4a, 0x52, 0xaa, 0x05, 0x04, 0x00,
      0x00, 0xff, 0xff, 0x0c, 0x70, 0x02, 0x7e] =>
      .ok jsonAB
    | [0x78, 0x9c, 0x32, 0xd4, 0x33, 0xd0, 0x33, 0x00, 0x04, 0x00, 0x00, 0xff, 0xff, 0x02,
      0xce, 0x00, 0xee] =>
      .ok version100
    | _ => .error "zlib: invalid header"

theorem sampleZlib_lossless : sampleZlib.Lossless := by
  intro buf
  by_cases hmd : buf = jsonAB
  · subst hmd
    exact ⟨_, rfl, rfl⟩
  · by_cases hv : buf = version100
    · subst hv
      exact ⟨_, rfl, rfl⟩
    · have hencode : sampleZlib.encode buf = .ok (0 :: buf) := (if_neg hmd).trans (if_neg hv)
      exact ⟨0 :: buf, hencode, rfl⟩

def sampleTagCodec : TagCodec where
  zlib := sampleZlib
  endpoint := ⟨fun _ => .error "", fun _ => .error ""⟩
  metadata :=
    { encode md := if md = Finmap.singleton "a" "b" then .ok jsonAB else .error ""
      decode bs := if bs = jsonAB then .ok (Finmap.singleton "a" "b") else .error "" }

/-- The tags come back in the other order. -/
theorem decode_registerTags_sample :
    let md : AList fun _ : String => String := AList.singleton "a" "b"
    let tags := (registerTags sampleTagCodec md [] version100).reverse
    decodeMetadata sampleTagCodec tags = .ok md.toFinmap ∧
      decodeVersion sampleTagCodec tags = (version100, true) ∧
      ∃ en', decodeEndpoints sampleTagCodec tags = .ok en' ∧ en'.Perm [] ∧
        encodeEndpoints sampleTagCodec en' = tags.filter (ofKind 'e'.toUInt8) := by
  refine decode_registerTags ⟨sampleZlib_lossless, ?_, nofun⟩ (List.reverse_perm _)
  intro kv hkv
  rw [List.mem_singleton.mp hkv]
  exact ⟨jsonAB, by simp [sampleTagCodec], by simp [sampleTagCodec]⟩

end RoundTrip

end Vmqant.Registry
