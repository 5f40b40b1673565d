import Vmqant.Common.Lts
import Vmqant.Common.Panic
import Vmqant.Gate.SessionAgent

/-!
# Writes to the settings

Reference: `gate/base/session.go`, lines 40-78, 143-158, 193-218, 257-312, 389-415, 420-454 and 586-610.

A session is a message with a lock. A call takes the lock where the source does, so that a panic before the
unlock leaves it held, and a later call that asks for it does not return.
-/

namespace Vmqant.BaseGate

/-- The message and the lock of a `sessionagent`. -/
structure LockedSession where
  session : SessionImp
  held : Bool
deriving DecidableEq

/-- A method: it need not return, and it may panic with what it has done so far. -/
abbrev Method := ExceptT PanicValue (StateT LockedSession Option)

namespace LockedSession

/-- `lock.Lock()`, and also `lock.RLock()`, where no other reader counts. -/
def lock : Method Unit := fun s => if s.held then none else some (.ok (), { s with held := true })

def unlock : Method Unit := fun s => some (.ok (), { s with held := false })

def modifySession (f : SessionImp → SessionImp) : Method Unit := fun s =>
  some (.ok (), { s with session := f s.session })

def getSession : Method SessionImp := fun s => some (.ok s.session, s)

/-- The write to the map of the settings. -/
def write (key value : String) : Method Unit := do
  match (← getSession).setLocalKV key value with
  | some session => modifySession fun _ => session
  | none => throw (.error "assignment to entry in nil map")

/-- `SetSettings`; the map may be `nil`. -/
def setSettings (settings : Option Settings) : Method Unit := do
  lock
  modifySession fun s => { s with settings := settings }
  unlock

/-- `ImportSettings`. A loop over a `nil` map does nothing. -/
def importSettings (settings : Option Settings) : Method Unit := do
  lock
  modifySession fun s =>
    match s.settings with
    | none => { s with settings := settings }
    | some _ => s.importSettings (settings.getD ∅)
  unlock

def setLocalKV (key value : String) : Method Unit := do
  lock
  write key value
  unlock

def removeLocalKV (key : String) : Method Unit := do
  lock
  modifySession fun s => s.removeLocalKV key
  unlock

/-- `Get`. -/
def get (key : String) : Method String := do
  lock
  let s ← getSession
  unlock
  pure ((s.load key).getD "")

/-- `update`: the lock is taken for the settings only. -/
def update (new : SessionImp) : Method Unit := do
  modifySession fun s => { s.update new with settings := s.settings }
  lock
  modifySession fun s => s.update new
  unlock

/-- `Clone`. -/
def clone (spanId : String) : Method LockedSession := do
  lock
  let s ← getSession
  unlock
  pure ⟨s.clone spanId, false⟩

/-- What comes of a call of the gate. -/
inductive Answer where
  /-- There is no server with the id. -/
  | notFound
  | failed (err : String)
  | returned (result : Option SessionImp)

/-- `Push` of a session with an app. -/
def push (answer : Answer) : Method String :=
  match answer with
  | .notFound => do pure s!"Service not found id({(← getSession).serverId})"
  | .failed err => do
    lock
    unlock
    pure err
  | .returned result => do
    lock
    unlock
    match result with
    | some new => update new
    | none => pure ()
    pure ""

/-- `SetPush`; `answer` is missing where the app is `nil`. The map is made without the lock. -/
def setPush (key value : String) (answer : Option Answer) : Method String :=
  match answer with
  | none => pure "Module.App is nil"
  | some answer => do
    modifySession fun s => s.makeSettings
    lock
    write key value
    unlock
    push answer

/-- `Unmarshal`, with its error. -/
def unmarshal (proto : Proto) (data : List UInt8) : Method (Option String) :=
  match proto.unmarshal data with
  | .error err => pure (some err)
  | .ok se => do
    modifySession fun _ => se
    if se.settings.isNone then
      lock
      modifySession fun s => s.makeSettings
      unlock
    pure none

/-! ## Runs -/

inductive SettingsAct where
  | setSettings (settings : Option Settings)
  | importSettings (settings : Option Settings)
  | setLocalKV (key value : String)
  | removeLocalKV (key : String)
  | update (new : SessionImp)
  /-- The run goes on with the clone. -/
  | clone (spanId : String)
  | setPush (key value : String) (answer : Option Answer)
  | unmarshal (data : List UInt8)

/-- The state that a method leaves, also where it panics. -/
def after {α : Type} (m : Method α) (s : LockedSession) : Option LockedSession := (m s).map Prod.snd

/-- One call, if it does not block. -/
def step (proto : Proto) (s : LockedSession) : SettingsAct → Option LockedSession
  | .setSettings settings => after (setSettings settings) s
  | .importSettings settings => after (importSettings settings) s
  | .setLocalKV key value => after (setLocalKV key value) s
  | .removeLocalKV key => after (removeLocalKV key) s
  | .update new => after (update new) s
  | .clone spanId =>
    (clone spanId s).bind fun
      | (.ok agent, _) => some agent
      | (.error _, _) => none
  | .setPush key value answer => after (setPush key value answer) s
  | .unmarshal data => after (unmarshal proto data) s

/-- A session of one of the constructors, or one that was just unmarshalled. -/
inductive Start (proto : Proto) : LockedSession → Prop where
  | newSession {data : List UInt8} {s : SessionImp} (h : SessionImp.newSession proto.unmarshal data = .ok s) :
    Start proto ⟨s, false⟩
  | newSessionByMap (data : SessionMap) : Start proto ⟨SessionImp.newSessionByMap data, false⟩
  | unmarshal {data : List UInt8} {s s' : LockedSession} (hfree : s.held = false)
    (h : unmarshal proto data s = some (.ok none, s')) : Start proto s'

/-- `SetLocalKV` returns, without the lock, and sets its key and no other. -/
def Writable (s : LockedSession) : Prop :=
  ∀ key value, ∃ s', setLocalKV key value s = some (.ok (), s') ∧ s'.held = false ∧
    get key s' = some (.ok value, s') ∧ ∀ key', key' ≠ key → s'.session.load key' = s.session.load key'

/-! ## When the settings are writable -/

/-- The map is there, and the lock is free. -/
structure Ready (s : LockedSession) : Prop where
  made : s.session.Made
  free : s.held = false

variable {proto : Proto} {s s' : LockedSession}

/-- A session with the settings `m`. -/
def ready (session : SessionImp) (m : Settings) : LockedSession :=
  ⟨{ session with settings := some m }, false⟩

theorem ready_ready (session : SessionImp) (m : Settings) : Ready (ready session m) := ⟨rfl, rfl⟩

theorem Ready.eq (h : Ready s) : ∃ session m, s = ready session m := by
  obtain ⟨session, held⟩ := s
  obtain ⟨hmade, hfree⟩ := h
  obtain ⟨m, hm⟩ := Option.isSome_iff_exists.mp hmade
  refine ⟨session, m, ?_⟩
  show LockedSession.mk session held = ⟨{ session with settings := some m }, false⟩
  rw [← hm, ← show held = false from hfree]

theorem setLocalKV_ready (session : SessionImp) (m : Settings) (key value : String) :
    setLocalKV key value (ready session m) = some (.ok (), ready session (m.insert key value)) := rfl

theorem get_ready (session : SessionImp) (m : Settings) (key : String) :
    get key (ready session m) = some (.ok ((m.lookup key).getD ""), ready session m) := rfl

/-- A write without the map panics, and the lock stays held. -/
theorem setLocalKV_of_not_made (hmade : ¬ s.session.Made) (hfree : s.held = false) (key value : String) :
    setLocalKV key value s =
      some (.error (.error "assignment to entry in nil map"), { s with held := true }) := by
  obtain ⟨⟨ip, network, userId, sessionId, serverId, traceId, spanId, settings, carrier, topic⟩, held⟩ := s
  obtain rfl : settings = none := by simpa [SessionImp.Made] using hmade
  obtain rfl : held = false := hfree
  rfl

theorem setLocalKV_of_held (hheld : s.held = true) (key value : String) : setLocalKV key value s = none := by
  obtain ⟨session, held⟩ := s
  obtain rfl : held = true := hheld
  rfl

/-- The settings are writable exactly where the map is there and the lock is free. -/
theorem writable_iff : Writable s ↔ Ready s := by
  constructor
  · intro h
    obtain ⟨s', hset, -⟩ := h "" ""
    cases hheld : s.held with
    | true =>
      rw [setLocalKV_of_held hheld] at hset
      cases hset
    | false =>
      refine ⟨?_, hheld⟩
      by_contra hmade
      rw [setLocalKV_of_not_made hmade hheld] at hset
      cases hset
  · intro h key value
    obtain ⟨session, m, rfl⟩ := h.eq
    refine ⟨_, setLocalKV_ready session m key value, rfl, ?_, fun key' hne => ?_⟩
    · rw [get_ready, AList.lookup_insert]
      rfl
    · exact AList.lookup_insert_ne hne

/-! ## What a call does where the settings are writable -/

theorem unmarshal_of_error {data : List UInt8} {err : String} (h : proto.unmarshal data = .error err) :
    unmarshal proto data s = some (.ok (some err), s) := by
  unfold unmarshal
  rw [h]
  rfl

/-- `Unmarshal` makes the map where the message has none. -/
theorem unmarshal_of_ok {data : List UInt8} {se : SessionImp} (h : proto.unmarshal data = .ok se)
    (hfree : s.held = false) : ∃ s', unmarshal proto data s = some (.ok none, s') ∧ Ready s' := by
  obtain ⟨session, held⟩ := s
  obtain rfl : held = false := hfree
  unfold unmarshal
  rw [h]
  obtain ⟨ip, network, userId, sessionId, serverId, traceId, spanId, settings, carrier, topic⟩ := se
  cases settings with
  | none => exact ⟨_, rfl, rfl, rfl⟩
  | some m => exact ⟨_, rfl, rfl, rfl⟩

theorem ready_start (h : Start proto s) : Ready s := by
  cases h with
  | newSession h => exact ⟨SessionImp.made_newSession h, rfl⟩
  | newSessionByMap data => exact ⟨SessionImp.made_newSessionByMap data, rfl⟩
  | @unmarshal data s₀ s hfree h =>
    cases hdata : proto.unmarshal data with
    | error err =>
      rw [unmarshal_of_error hdata] at h
      cases h
    | ok se =>
      obtain ⟨s', hs', hready⟩ := unmarshal_of_ok hdata hfree
      obtain rfl : s' = s := congrArg Prod.snd (Option.some.inj (hs'.symm.trans h))
      exact hready

/-- Each call returns, and only `SetSettings` with a `nil` map takes the map away. -/
theorem step_spec (proto : Proto) (session : SessionImp) (m : Settings) (a : SettingsAct) :
    ∃ s', step proto (ready session m) a = some s' ∧ (Ready s' ↔ a ≠ .setSettings none) := by
  cases a with
  | setSettings settings =>
    cases settings with
    | none => exact ⟨_, rfl, iff_of_false (fun h => by cases h.made) (fun h => h rfl)⟩
    | some settings => exact ⟨_, rfl, iff_of_true ⟨rfl, rfl⟩ nofun⟩
  | importSettings settings => exact ⟨_, rfl, iff_of_true ⟨rfl, rfl⟩ nofun⟩
  | setLocalKV key value => exact ⟨_, rfl, iff_of_true ⟨rfl, rfl⟩ nofun⟩
  | removeLocalKV key => exact ⟨_, rfl, iff_of_true ⟨rfl, rfl⟩ nofun⟩
  | update new => exact ⟨_, rfl, iff_of_true ⟨rfl, rfl⟩ nofun⟩
  | clone spanId => exact ⟨_, rfl, iff_of_true ⟨rfl, rfl⟩ nofun⟩
  | setPush key value answer =>
    match answer with
    | none => exact ⟨_, rfl, iff_of_true ⟨rfl, rfl⟩ nofun⟩
    | some .notFound => exact ⟨_, rfl, iff_of_true ⟨rfl, rfl⟩ nofun⟩
    | some (.failed err) => exact ⟨_, rfl, iff_of_true ⟨rfl, rfl⟩ nofun⟩
    | some (.returned none) => exact ⟨_, rfl, iff_of_true ⟨rfl, rfl⟩ nofun⟩
    | some (.returned (some new)) => exact ⟨_, rfl, iff_of_true ⟨rfl, rfl⟩ nofun⟩
  | unmarshal data =>
    cases hdata : proto.unmarshal data with
    | error err =>
      have hstep : step proto (ready session m) (.unmarshal data) = some (ready session m) :=
        congrArg (Option.map Prod.snd) (unmarshal_of_error hdata)
      exact ⟨_, hstep, iff_of_true (ready_ready session m) nofun⟩
    | ok se =>
      obtain ⟨s', hs', hready⟩ := unmarshal_of_ok hdata (s := ready session m) rfl
      exact ⟨s', congrArg (Option.map Prod.snd) hs', iff_of_true hready nofun⟩

/-- **Writable settings**: in every state of a run `SetLocalKV` works, exactly if no call of the run is
`SetSettings` with a `nil` map. -/
theorem settings_writable_iff (proto : Proto) (s : LockedSession) (h : Start proto s) (as : List SettingsAct) :
    (∀ bs s', bs <+: as → Lts.run (step proto) s bs = some s' → Writable s') ↔
      ∀ a ∈ as, a ≠ .setSettings none := by
  have hspec : ∀ s a, Ready s → ∃ s', step proto s a = some s' ∧ (Ready s' ↔ a ≠ .setSettings none) := by
    intro s a hs
    obtain ⟨session, m, rfl⟩ := hs.eq
    exact step_spec proto session m a
  simp only [writable_iff]
  rw [Lts.prefixes_iff_along (P := Ready) (C := fun _ a => a ≠ .setSettings none)]
  · refine Lts.along_iff_forall (P := Ready) (fun s a hs ha => ?_) (ready_start h) as
    obtain ⟨s', hs', hiff⟩ := hspec s a hs
    exact ⟨s', hs', hiff.mpr ha⟩
  · intro s a hs
    obtain ⟨s', hs', -⟩ := hspec s a hs
    exact ⟨s', hs'⟩
  · intro s a s' hs hs'
    obtain ⟨s₁, hs₁, hiff⟩ := hspec s a hs
    obtain rfl := Option.some.inj (hs'.symm.trans hs₁)
    exact hiff
  · exact ready_start h

/-! A new session, which gets a `nil` map from another module. -/

def sampleProto : Proto := Proto.single {} {} []

def sampleSession : LockedSession := ⟨SessionImp.newSessionByMap {}, false⟩

def sampleRun : List SettingsAct :=
  [.importSettings none, .setPush "level" "7" (some (.returned (some {}))), .unmarshal [], .clone "1"]

theorem settings_writable_sample :
    Start sampleProto sampleSession ∧
      ∀ bs s', bs <+: sampleRun → Lts.run (step sampleProto) sampleSession bs = some s' → Writable s' := by
  have hstart : Start sampleProto sampleSession := .newSessionByMap {}
  refine ⟨hstart, (settings_writable_iff sampleProto sampleSession hstart sampleRun).mpr ?_⟩
  intro a ha
  fin_cases ha <;> nofun

/-- The write panics, and after it every write waits for the lock. -/
theorem not_writable_nil :
    Start sampleProto sampleSession ∧
      ∃ s s', Lts.run (step sampleProto) sampleSession [.setSettings none] = some s ∧ ¬ Writable s ∧
        setLocalKV "level" "7" s = some (.error (.error "assignment to entry in nil map"), s') ∧
        setLocalKV "level" "7" s' = none := by
  refine ⟨.newSessionByMap {}, _, _, rfl, fun h => ?_, rfl, rfl⟩
  have hmade := (writable_iff.mp h).made
  cases hmade

end LockedSession

end Vmqant.BaseGate
