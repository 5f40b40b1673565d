import Vmqant.Gate.HandlerRefinement
import Vmqant.Gate.SessionAgent

/-!
# Set and SetPush from several modules

Reference: `gate/base/session.go`, lines 257-278, 377-438 and 586-610; `gate/base/gate_handler.go`, lines
212-253.

Modules hold clones of one session of the gate, and their calls of `Set` and `SetPush` interleave. `Set`
sends a key and a value. `SetPush` writes to the clone and then sends a copy of all settings of the clone,
which the handler writes key by key, so an old value of another key comes back with it. A call that
returns replaces the settings of the clone by those of the gate.

Calls that fail before they are sent are left out.
-/

namespace Vmqant.BaseGate

open Lts

/-- Where a call is. -/
inductive CallPc where
  /-- The request of `Set` is on its way. -/
  | setSent (sessionid : String)
  /-- `SetPush` has written to the settings of the clone. -/
  | written
  /-- The request of `Push` is on its way, with the copy `tmp`. -/
  | pushSent (sessionid : String) (tmp : Settings)
  | handled (sessionid : String)
  | failed
  /-- The result is on its way. -/
  | replied (result : SessionImp)
  | returned

/-- A call of `Set` or `SetPush` by the holder of a clone. -/
structure Call (η : Type) where
  holder : η
  key : String
  value : String
  pc : CallPc

/-- The gate, the clones and the calls. -/
structure Net (ρ σ η : Type) where
  gate : Handler ρ σ
  holders : η → Option SessionImp
  calls : ℕ → Option (Call η)
  /-- The keys and values of the calls that were handled, the last one at the end. -/
  handled : List (String × String)

inductive NetAct (η : Type) where
  /-- A module gets a clone from the gate, or from another module. -/
  | clone (h : η) (spanId : String)
  | pass (h h' : η) (spanId : String)
  | set (id : ℕ) (h : η) (key value : String)
  | setPush (id : ℕ) (h : η) (key value : String)
  /-- `SetPush` calls `Push`. -/
  | push (id : ℕ)
  /-- The gate handles the request, and then sends the session as it is at that time. -/
  | handle (id : ℕ)
  | reply (id : ℕ)
  /-- The call returns. -/
  | receive (id : ℕ)

/-- The write of `SetPush` to the clone. -/
def SessionImp.writeLocal (s : SessionImp) (key value : String) : SessionImp :=
  { s with settings := some ((s.settings.getD ∅).insert key value) }

variable {ρ σ η : Type}

namespace Net

/-- No module has a clone. -/
def init (c : Handler ρ σ) : Net ρ σ η where
  gate := c
  holders := fun _ => none
  calls := fun _ => none
  handled := []

variable [DecidableEq η]

def setHolder (st : Net ρ σ η) (h : η) (s : SessionImp) : Net ρ σ η :=
  { st with holders := Function.update st.holders h (some s) }

def setCall (st : Net ρ σ η) (id : ℕ) (call : Call η) : Net ρ σ η :=
  { st with calls := Function.update st.calls id (some call) }

/-- The handler returns to the call. -/
def served (st : Net ρ σ η) (id : ℕ) (call : Call η) (sessionid : String) :
    Reply × Handler ρ σ → Net ρ σ η
  | (reply, c') =>
    if reply.err = "" then
      { st.setCall id { call with pc := .handled sessionid } with
        gate := c'
        handled := st.handled ++ [(call.key, call.value)] }
    else { st.setCall id { call with pc := .failed } with gate := c' }

variable [DecidableEq ρ]

/-- One step; the modules hold clones of the session `sid`. -/
def step (g : Gate σ) (sid : String) (st : Net ρ σ η) : NetAct η → Option (Net ρ σ η)
  | .clone h spanId => (st.gate.session sid).map fun s => st.setHolder h (s.clone spanId)
  | .pass h h' spanId => (st.holders h).map fun s => st.setHolder h' (s.clone spanId)
  | .set id h key value =>
    if (st.calls id).isSome then none
    else (st.holders h).map fun s => st.setCall id ⟨h, key, value, .setSent s.sessionId⟩
  | .setPush id h key value =>
    if (st.calls id).isSome then none
    else
      (st.holders h).map fun s =>
        (st.setHolder h (s.writeLocal key value)).setCall id ⟨h, key, value, .written⟩
  | .push id =>
    (st.calls id).bind fun call =>
      match call.pc with
      | .written =>
        (st.holders call.holder).map fun s =>
          st.setCall id { call with pc := .pushSent s.sessionId s.cloneSettings }
      | _ => none
  | .handle id =>
    (st.calls id).bind fun call =>
      match call.pc with
      | .setSent sessionid =>
        (Handler.set g st.gate sessionid call.key call.value).map (st.served id call sessionid)
      | .pushSent sessionid tmp =>
        (Handler.push g st.gate sessionid tmp).map (st.served id call sessionid)
      | _ => none
  | .reply id =>
    (st.calls id).bind fun call =>
      match call.pc with
      | .handled sessionid =>
        (st.gate.session sessionid).map fun s => st.setCall id { call with pc := .replied s }
      | _ => none
  | .receive id =>
    (st.calls id).bind fun call =>
      match call.pc with
      | .replied result =>
        (st.holders call.holder).map fun s =>
          -- what is sent is a clone, whose span id is not read
          (st.setHolder call.holder (s.update (result.clone ""))).setCall id
            { call with pc := .returned }
      | _ => none

end Net

/-! ## What the gate does -/

/-- The session `s` is connected under the id `sid`. -/
structure Connected (c : Handler ρ σ) (sid : String) (s : SessionImp) : Prop where
  registered : ∃ a, c.sessions.lookup sid = some a ∧ (c.agents a).session = some s
  made : s.Made
  sessionId_eq : s.sessionId = sid

namespace Connected

variable {c : Handler ρ σ} {sid : String} {s : SessionImp}

theorem session_eq (h : Connected c sid s) : c.session sid = some s := by
  obtain ⟨a, ha, hs⟩ := h.registered
  unfold Handler.session
  rw [ha, Option.bind_some, hs]

variable [DecidableEq ρ]

theorem onSession (h : Connected c sid s) (body : SessionImp → Option SessionImp)
    (save : σ → SessionImp → σ) {v : View} (hbody : ∃ s', body s = some s' ∧ s.Becomes s' v) :
    ∃ s' c', c.onSession sid body save = some (⟨some s', ""⟩, c') ∧ Connected c' sid s' ∧
      s'.load = v.settings := by
  obtain ⟨a, ha, hs⟩ := h.registered
  obtain ⟨s', hs', hmade, hid, hview⟩ := hbody
  refine ⟨s', _, Handler.onSession_eq ha hs hs' save,
    ⟨⟨a, ha, ?_⟩, hmade, hid.trans h.sessionId_eq⟩, congrArg View.settings hview⟩
  dsimp only
  rw [Function.update_self]

/-- `Set` changes one key. -/
theorem set (h : Connected c sid s) (g : Gate σ) (key value : String) :
    ∃ s' c', Handler.set g c sid key value = some (⟨some s', ""⟩, c') ∧ Connected c' sid s' ∧
      s'.load = Function.update s.load key (some value) :=
  h.onSession (fun s => s.setLocalKV key value) g.save (SessionImp.setLocalKV_spec h.made key value)

/-- `Push` changes the keys that it is given. -/
theorem push (h : Connected c sid s) (g : Gate σ) (tmp : Settings) :
    ∃ s' c', Handler.push g c sid tmp = some (⟨some s', ""⟩, c') ∧ Connected c' sid s' ∧
      s'.load = fun key => (tmp.lookup key).or (s.load key) :=
  h.onSession (fun s => s.setAll tmp) g.save (SessionImp.setAll_spec h.made tmp)

end Connected

/-! ## Which pushes are sets -/

/-- The settings `tmp` hold for `key` the value, and for other keys nothing but what `settings` hold. A
key that is missing from `tmp` is not written. -/
structure Fresh (settings : String → Option String) (tmp : Settings) (key value : String) : Prop where
  own : ((tmp.lookup key).or (settings key)) = some value
  others : ∀ k v, k ≠ key → tmp.lookup k = some v → settings k = some v

/-- To push fresh settings is to set the key. -/
theorem fresh_iff {settings : String → Option String} {tmp : Settings} {key value : String} :
    Fresh settings tmp key value ↔
      (fun k => (tmp.lookup k).or (settings k)) = Function.update settings key (some value) := by
  constructor
  · rintro ⟨hown, hothers⟩
    funext k
    by_cases hk : k = key
    · rw [hk, Function.update_self, hown]
    · rw [Function.update_of_ne hk]
      cases htmp : tmp.lookup k with
      | none => rfl
      | some v => exact (hothers k v hk htmp).symm
  · intro h
    refine ⟨?_, fun k v hk htmp => ?_⟩
    · have hown := congrFun h key
      rwa [Function.update_self] at hown
    · have hother := congrFun h k
      rw [htmp, Function.update_of_ne hk] at hother
      exact hother.symm

/-- The value of the last write to a key. -/
def lastWrite (writes : List (String × String)) (key : String) : Option String :=
  writes.reverse.lookup key

theorem lastWrite_append (writes : List (String × String)) (key value : String)
    (settings : String → Option String) :
    (fun k => (lastWrite (writes ++ [(key, value)]) k).or (settings k))
      = Function.update (fun k => (lastWrite writes k).or (settings k)) key (some value) := by
  funext k
  unfold lastWrite
  rw [List.reverse_append, List.reverse_singleton, List.singleton_append, List.lookup_cons]
  by_cases hk : k = key
  · rw [hk, Function.update_self, beq_self_eq_true]
    rfl
  · rw [Function.update_of_ne hk, beq_false_of_ne hk]

/-! ## Runs -/

/-- The session id that a call goes to, or comes from. -/
def CallPc.At (sid : String) : CallPc → Prop
  | .setSent sessionid | .pushSent sessionid _ | .handled sessionid => sessionid = sid
  | .replied result => result.sessionId = sid
  | .written | .failed | .returned => True

namespace Net

/-- The settings of the session at the gate. -/
def settings (st : Net ρ σ η) (sid : String) (key : String) : Option String :=
  (st.gate.session sid).bind (·.load key)

/-- The modules hold clones of the session `sid`, whose settings were `settings`, and each key has the
value that was written last. -/
structure Inv (sid : String) (settings : String → Option String) (st : Net ρ σ η) : Prop where
  gate : ∃ s, Connected st.gate sid s ∧ s.load = fun key => (lastWrite st.handled key).or (settings key)
  holders : ∀ h s, st.holders h = some s → s.sessionId = sid
  calls : ∀ id call, st.calls id = some call → call.pc.At sid

/-- A push that is handled has fresh settings. -/
def PushFresh (sid : String) (st : Net ρ σ η) : NetAct η → Prop
  | .handle id => ∀ call tmp, st.calls id = some call → call.pc = .pushSent sid tmp →
      Fresh (st.settings sid) tmp call.key call.value
  | _ => True

/-- What a step may do to the gate: nothing, or it handles a call, which sets the key of the call and no
other. -/
def Sets (sid : String) (st st' : Net ρ σ η) (a : NetAct η) : Prop :=
  (st'.gate = st.gate ∧ st'.handled = st.handled) ∨
    ∃ id call, a = .handle id ∧ st.calls id = some call ∧
      st'.handled = st.handled ++ [(call.key, call.value)] ∧
      st'.settings sid = Function.update (st.settings sid) call.key (some call.value)

variable {sid : String} {settings : String → Option String} {st : Net ρ σ η}

theorem Inv.init {c : Handler ρ σ} {s : SessionImp} (h : Connected c sid s) :
    Inv sid s.load (Net.init c : Net ρ σ η) where
  gate := ⟨s, h, rfl⟩
  holders h s hs := by cases hs
  calls id call hcall := by cases hcall

theorem Inv.setCall (hinv : Inv sid settings st) (id : ℕ) {call : Call η} (hcall : call.pc.At sid) :
    Inv sid settings (st.setCall id call) where
  gate := hinv.gate
  holders := hinv.holders
  calls id' call' hcall' := by
    unfold Net.setCall at hcall'
    dsimp only at hcall'
    rw [Function.update_apply] at hcall'
    split at hcall'
    · obtain rfl := Option.some.inj hcall'
      exact hcall
    · exact hinv.calls id' call' hcall'

theorem settings_eq {s : SessionImp} (hs : Connected st.gate sid s) : st.settings sid = s.load := by
  funext key
  unfold Net.settings
  rw [hs.session_eq, Option.bind_some]

/-- A call of the handler that sets the key and no other. -/
theorem Inv.served (hinv : Inv sid settings st) {id : ℕ} {call : Call η} (hcall : st.calls id = some call)
    {s s' : SessionImp} (hs : Connected st.gate sid s) {c' : Handler ρ σ} (hs' : Connected c' sid s')
    (hload : s'.load = Function.update s.load call.key (some call.value)) :
    Inv sid settings (st.served id call sid (⟨some s', ""⟩, c')) ∧
      Sets sid st (st.served id call sid (⟨some s', ""⟩, c')) (.handle id) := by
  have hafter : (st.served id call sid (⟨some s', ""⟩, c')).settings sid = s'.load := settings_eq hs'
  have hold : s.load = fun key => (lastWrite st.handled key).or (settings key) := by
    obtain ⟨s₀, hs₀, hload₀⟩ := hinv.gate
    obtain rfl := Option.some.inj (hs.session_eq.symm.trans hs₀.session_eq)
    exact hload₀
  have hcalls : Inv sid settings (st.setCall id { call with pc := .handled sid }) :=
    hinv.setCall id rfl
  refine ⟨⟨⟨s', hs', ?_⟩, hinv.holders, hcalls.calls⟩,
    .inr ⟨id, call, rfl, hcall, rfl, ?_⟩⟩
  · rw [hload, hold]
    exact (lastWrite_append st.handled call.key call.value settings).symm
  · rw [hafter, settings_eq hs, hload]

variable [DecidableEq η]

theorem Inv.setHolder (hinv : Inv sid settings st) (h : η) {s : SessionImp} (hs : s.sessionId = sid) :
    Inv sid settings (st.setHolder h s) where
  gate := hinv.gate
  holders h' s' hs' := by
    unfold Net.setHolder at hs'
    dsimp only at hs'
    rw [Function.update_apply] at hs'
    split at hs'
    · obtain rfl := Option.some.inj hs'
      exact hs
    · exact hinv.holders h' s' hs'
  calls := hinv.calls

/-- The handler sets the key of the call, also with a push if it is fresh. -/
theorem handle_spec [DecidableEq ρ] {g : Gate σ} {st' : Net ρ σ η} {id : ℕ}
    (hinv : Inv sid settings st) (hfresh : PushFresh sid st (.handle id))
    (hstep : step g sid st (.handle id) = some st') :
    Inv sid settings st' ∧ Sets sid st st' (.handle id) := by
  obtain ⟨s, hs, -⟩ := hinv.gate
  obtain ⟨call, hcall, hrest⟩ := Option.bind_eq_some_iff.mp hstep
  have hat := hinv.calls id call hcall
  split at hrest
  · next sessionid hpc =>
    rw [hpc] at hat
    obtain rfl : sessionid = sid := hat
    obtain ⟨s', c', hset, hs', hload⟩ := hs.set g call.key call.value
    rw [hset, Option.map_some] at hrest
    obtain rfl := Option.some.inj hrest
    exact hinv.served hcall hs hs' hload
  · next sessionid tmp hpc =>
    rw [hpc] at hat
    obtain rfl : sessionid = sid := hat
    obtain ⟨s', c', hpush, hs', hload⟩ := hs.push g tmp
    rw [hpush, Option.map_some] at hrest
    obtain rfl := Option.some.inj hrest
    -- the push is a set
    have hkey := hfresh call tmp hcall hpc
    rw [settings_eq hs] at hkey
    exact hinv.served hcall hs hs' (hload.trans (fresh_iff.mp hkey))
  · cases hrest

/-- Each step keeps the invariant and sets at most the key of its call, if the pushes are fresh. -/
theorem step_spec [DecidableEq ρ] {g : Gate σ} {st' : Net ρ σ η} {a : NetAct η}
    (hinv : Inv sid settings st) (hfresh : PushFresh sid st a) (hstep : step g sid st a = some st') :
    Inv sid settings st' ∧ Sets sid st st' a := by
  obtain ⟨s, hs, -⟩ := hinv.gate
  cases a with
  | clone h spanId =>
    obtain ⟨s', hs', rfl⟩ := Option.map_eq_some_iff.mp hstep
    obtain rfl := Option.some.inj (hs.session_eq.symm.trans hs')
    exact ⟨hinv.setHolder h hs.sessionId_eq, .inl ⟨rfl, rfl⟩⟩
  | pass h h' spanId =>
    obtain ⟨s', hs', rfl⟩ := Option.map_eq_some_iff.mp hstep
    exact ⟨hinv.setHolder h' (hinv.holders h s' hs'), .inl ⟨rfl, rfl⟩⟩
  | set id h key value =>
    unfold step at hstep
    dsimp only at hstep
    split at hstep
    · cases hstep
    · obtain ⟨s', hs', rfl⟩ := Option.map_eq_some_iff.mp hstep
      exact ⟨hinv.setCall id (hinv.holders h s' hs'), .inl ⟨rfl, rfl⟩⟩
  | setPush id h key value =>
    unfold step at hstep
    dsimp only at hstep
    split at hstep
    · cases hstep
    · obtain ⟨s', hs', rfl⟩ := Option.map_eq_some_iff.mp hstep
      have hid : (s'.writeLocal key value).sessionId = sid := hinv.holders h s' hs'
      refine ⟨(hinv.setHolder h hid).setCall id ?_, .inl ⟨rfl, rfl⟩⟩
      exact trivial
  | push id =>
    obtain ⟨call, hcall, hrest⟩ := Option.bind_eq_some_iff.mp hstep
    split at hrest
    · obtain ⟨s', hs', rfl⟩ := Option.map_eq_some_iff.mp hrest
      exact ⟨hinv.setCall id (hinv.holders call.holder s' hs'), .inl ⟨rfl, rfl⟩⟩
    · cases hrest
  | handle id => exact handle_spec hinv hfresh hstep
  | reply id =>
    obtain ⟨call, hcall, hrest⟩ := Option.bind_eq_some_iff.mp hstep
    have hat := hinv.calls id call hcall
    split at hrest
    · next sessionid hpc =>
      rw [hpc] at hat
      obtain rfl : sessionid = sid := hat
      obtain ⟨s', hs', rfl⟩ := Option.map_eq_some_iff.mp hrest
      obtain rfl := Option.some.inj (hs.session_eq.symm.trans hs')
      exact ⟨hinv.setCall id hs.sessionId_eq, .inl ⟨rfl, rfl⟩⟩
    · cases hrest
  | receive id =>
    obtain ⟨call, hcall, hrest⟩ := Option.bind_eq_some_iff.mp hstep
    have hat := hinv.calls id call hcall
    split at hrest
    · next result hpc =>
      rw [hpc] at hat
      obtain ⟨s', hs', rfl⟩ := Option.map_eq_some_iff.mp hrest
      have hid : (s'.update (result.clone "")).sessionId = sid := hat
      refine ⟨(hinv.setHolder call.holder hid).setCall id ?_, .inl ⟨rfl, rfl⟩⟩
      exact trivial
    · cases hrest

def sampleGate : Gate Unit where
  storageHandler := none
  unmarshal := fun _ => .error "proto: cannot parse invalid wire-format data"

def sampleImp : SessionImp := { sessionId := "s", settings := some (AList.insert "k1" "old" ∅) }

def sampleHandler : Handler Unit Unit where
  agents := fun _ => ⟨some sampleImp, true⟩
  store := ()
  sessions := AList.insert "s" () ∅
  agentNum := 1

theorem connected_sampleHandler : Connected sampleHandler "s" sampleImp := ⟨⟨(), rfl, rfl⟩, rfl, rfl⟩

def freshRun : List (NetAct Bool) :=
  [.clone true "1", .set 0 true "k1" "new", .handle 0, .reply 0, .receive 0, .clone false "2",
    .setPush 1 false "k2" "v", .push 1, .handle 1]

def staleRun : List (NetAct Bool) :=
  [.clone true "1", .clone false "2", .set 0 true "k1" "new", .handle 0, .reply 0, .receive 0,
    .setPush 1 false "k2" "v", .push 1, .handle 1, .reply 1, .receive 1]

end Net

end Vmqant.BaseGate
