import Vmqant.Common.GoMap
import Vmqant.Gate.SessionStore

/-!
# Sessions of the gate

Reference: `gate/base/session.go`, lines 32-78, 143-158, 177-181, 199-218, 224-255, 469-480;
`gate/base/session.pb.go`, lines 23-38.

The settings of a session are a Go map, which may be `nil`. A `nil` map can be read, ranged over and
deleted from, but a write to it panics; the constructors make the map.
-/

namespace Vmqant.BaseGate

/-- A `map[string]string`; the order of the entries is the one the next `range` takes. -/
abbrev Settings := AList fun _ : String => String

/-- `SessionImp`, the message that a session is. -/
structure SessionImp where
  ip : String := ""
  network : String := ""
  userId : String := ""
  sessionId : String := ""
  serverId : String := ""
  traceId : String := ""
  spanId : String := ""
  settings : Option Settings := none
  carrier : Option Settings := none
  /-- The bytes that the client sent, which need not be UTF-8. -/
  topic : List UInt8 := []
deriving DecidableEq

/-- The map that `NewSessionByMap` takes. -/
structure SessionMap where
  userid : Option String := none
  ip : Option String := none
  topic : Option (List UInt8) := none
  network : Option String := none
  sessionid : Option String := none
  serverid : Option String := none
  settings : Option (Option Settings) := none

namespace SessionImp

/-- The map is made where there is none, as the constructors end. -/
def makeSettings (s : SessionImp) : SessionImp :=
  { s with settings := some (s.settings.getD ∅) }

def updateMap (s : SessionImp) (data : SessionMap) : SessionImp :=
  { s with
    userId := data.userid.getD s.userId
    ip := data.ip.getD s.ip
    topic := data.topic.getD s.topic
    network := data.network.getD s.network
    sessionId := data.sessionid.getD s.sessionId
    serverId := data.serverid.getD s.serverId
    settings := data.settings.getD s.settings }

def newSessionByMap (data : SessionMap) : SessionImp := (updateMap {} data).makeSettings

/-- `NewSession`; `unmarshal` is `proto.Unmarshal` into a new message. -/
def newSession (unmarshal : List UInt8 → Except String SessionImp) (data : List UInt8) :
    Except String SessionImp :=
  (unmarshal data).map makeSettings

def setUserID (s : SessionImp) (userid : String) : SessionImp := { s with userId := userid }

/-- `ImportSettings`: what is there wins. -/
def importSettings (s : SessionImp) (settings : Settings) : SessionImp :=
  match s.settings with
  | none => { s with settings := some settings }
  | some m => { s with settings := some (settings.foldl GoMap.insertNew m) }

def cloneSettings (s : SessionImp) : Settings :=
  (s.settings.getD ∅).foldl (fun tmp k v => tmp.insert k v) ∅

/-- `SetLocalKV`; `none` is the panic of a write to a `nil` map. -/
def setLocalKV (s : SessionImp) (key value : String) : Option SessionImp :=
  s.settings.map fun m => { s with settings := some (m.insert key value) }

def removeLocalKV (s : SessionImp) (key : String) : SessionImp :=
  { s with settings := s.settings.map (·.erase key) }

/-- The loop of `Push`: each key is set. -/
def setAll (s : SessionImp) (settings : Settings) : Option SessionImp :=
  settings.foldl (fun s k v => s.bind (·.setLocalKV k v)) (some s)

/-! ## What the settings hold -/

/-- `Load`. -/
def load (s : SessionImp) (key : String) : Option String := (s.settings.getD ∅).lookup key

/-- A session as the store has it. -/
def view (s : SessionImp) : View where
  userId := s.userId
  settings := s.load

/-- The map is there to be written to. -/
def Made (s : SessionImp) : Prop := s.settings.isSome

variable {s : SessionImp}

theorem made_makeSettings : s.makeSettings.Made := rfl

theorem made_newSessionByMap (data : SessionMap) : (newSessionByMap data).Made := made_makeSettings

theorem made_newSession {unmarshal : List UInt8 → Except String SessionImp} {data : List UInt8}
    (h : newSession unmarshal data = .ok s) : s.Made := by
  unfold newSession at h
  cases hdata : unmarshal data with
  | error e =>
    rw [hdata] at h
    cases h
  | ok imp =>
    rw [hdata] at h
    cases h
    exact made_makeSettings

theorem lookup_cloneSettings (key : String) : s.cloneSettings.lookup key = s.load key := by
  unfold cloneSettings load
  rw [GoMap.lookup_foldl_insert, AList.lookup_empty, Option.or_none]

/-- A change of the session `s` to `s'` as the store sees it: to the view `v`. -/
structure Becomes (s s' : SessionImp) (v : View) : Prop where
  made : s'.Made
  sessionId_eq : s'.sessionId = s.sessionId
  view_eq : s'.view = v

theorem setUserID_spec (h : s.Made) (userid : String) :
    s.Becomes (s.setUserID userid) { s.view with userId := userid } :=
  ⟨h, rfl, rfl⟩

theorem importSettings_spec (h : s.Made) (settings : Settings) :
    s.Becomes (s.importSettings settings) (s.view.bind s.userId (some settings.lookup)) := by
  obtain ⟨m, hm⟩ := Option.isSome_iff_exists.mp h
  unfold importSettings
  rw [hm]
  refine ⟨rfl, rfl, View.ext rfl (funext fun key => ?_)⟩
  show (settings.foldl GoMap.insertNew m).lookup key = (s.load key).or (settings.lookup key)
  rw [GoMap.lookup_foldl_insertNew, load, hm, Option.getD_some]

theorem setLocalKV_spec (h : s.Made) (key value : String) :
    ∃ s', s.setLocalKV key value = some s' ∧ s.Becomes s' (s.view.set key value) := by
  obtain ⟨m, hm⟩ := Option.isSome_iff_exists.mp h
  refine ⟨{ s with settings := some (m.insert key value) }, ?_, rfl, rfl,
    View.ext rfl (funext fun key' => ?_)⟩
  · unfold setLocalKV
    rw [hm, Option.map_some]
  · show (m.insert key value).lookup key' = Function.update s.load key (some value) key'
    rw [GoMap.lookup_insert, Function.update_apply, load, hm, Option.getD_some]

theorem removeLocalKV_spec (h : s.Made) (key : String) :
    s.Becomes (s.removeLocalKV key) (s.view.remove key) := by
  obtain ⟨m, hm⟩ := Option.isSome_iff_exists.mp h
  unfold removeLocalKV
  rw [hm]
  refine ⟨rfl, rfl, View.ext rfl (funext fun key' => ?_)⟩
  show (m.erase key).lookup key' = Function.update s.load key none key'
  rw [GoMap.lookup_erase, Function.update_apply, load, hm, Option.getD_some]

/-- The loop of `Push` writes to the map it finds. -/
theorem setAll_eq {m : Settings} (h : s.settings = some m) (settings : Settings) :
    s.setAll settings
      = some { s with settings := some (settings.foldl (fun m k v => m.insert k v) m) } := by
  obtain ⟨l, hl⟩ := settings
  unfold setAll AList.foldl
  dsimp only
  clear hl
  induction l generalizing s m with
  | nil =>
    obtain ⟨⟩ := s
    subst h
    rfl
  | cons e l ih =>
    rw [List.foldl_cons, List.foldl_cons, Option.bind_some, setLocalKV, h, Option.map_some]
    exact ih rfl

theorem setAll_spec (h : s.Made) (settings : Settings) :
    ∃ s', s.setAll settings = some s' ∧ s.Becomes s' (s.view.push settings.lookup) := by
  obtain ⟨m, hm⟩ := Option.isSome_iff_exists.mp h
  refine ⟨_, setAll_eq hm settings, rfl, rfl, View.ext rfl (funext fun key => ?_)⟩
  show (settings.foldl (fun m k v => m.insert k v) m).lookup key
    = (settings.lookup key).or (s.load key)
  rw [GoMap.lookup_foldl_insert, load, hm, Option.getD_some]

end SessionImp

end Vmqant.BaseGate
