import Vmqant.Common.Panic
import Vmqant.Gate.SetPush

/-!
# Sessions that are changed from afar

Reference: `gate/base/session.go`, lines 257-278, 317-457 and 482-503; `app/app.go`, lines 496-503.

A module changes a session by a call of the gate that holds it, and takes over the session that comes back.
Eight methods do this. Six of them report every failure and leave the session as it is. `Remove` keeps the
error of the call in a variable of its own and returns the empty string, and `SetPush` writes to the session
before it calls.
-/

namespace Vmqant.BaseGate

/-- A parameter of a call. -/
inductive Arg where
  | trace (traceId spanId : String)
  | string (s : String)
  | settings (m : Settings)

/-- The result of a call. -/
inductive CallResult where
  | nil
  | session (s : SessionImp)
  /-- A value of another type. -/
  | other

/-- A server as a `ServerSession`: `Call` returns a result and an error. -/
structure Server where
  call : String → List Arg → CallResult × String

/-- What the sessions use of the app. -/
structure RemoteApp where
  getServerByID : String → Except String Server
  getRouteServer : String → Except String Server

/-- `Call` of the app. -/
def RemoteApp.call (app : RemoteApp) (moduleType fn : String) (args : List Arg) : CallResult × String :=
  match app.getRouteServer moduleType with
  | .error err => (.nil, err)
  | .ok server => server.call fn args

variable {υ : Type}

/-- A session in a module. -/
abbrev RemoteSession (υ : Type) := SessionAgent RemoteApp υ

/-- What a method returns, and the session after it; it may panic. -/
abbrev Mutated (υ : Type) := Except PanicValue (String × RemoteSession υ)

namespace RemoteSession

/-- `log.CreateTrace(sesid.TraceId(), sesid.SpanId())` and the session id. -/
def args (s : RemoteSession υ) (rest : List Arg) : List Arg :=
  .trace s.session.traceId s.session.spanId :: .string s.session.sessionId :: rest

def moduleAppIsNil : String := "Module.App is nil"

/-- `sesid.update(result.(gate.Session))`, if there is a result. -/
def takeOver (s : RemoteSession υ) : CallResult → Except PanicValue (RemoteSession υ)
  | .nil => .ok s
  | .session r => .ok { s with session := s.session.update r }
  | .other => .error (.error "interface conversion: the result is not gate.Session")

/-- The end of a method, which returns the error of the call. -/
def settle (s : RemoteSession υ) (r : CallResult × String) : Mutated υ :=
  if r.2 = "" then (s.takeOver r.1).map fun s' => ("", s') else .ok (r.2, s)

/-- A method that looks the server up by its id. -/
def callServer (s : RemoteSession υ) (fn : String) (rest : List Arg) : Mutated υ :=
  match s.app with
  | none => .ok (moduleAppIsNil, s)
  | some app =>
    match app.getServerByID s.session.serverId with
    | .error _ => .ok (s!"Service not found id({s.session.serverId})", s)
    | .ok server => s.settle (server.call fn (s.args rest))

def update (s : RemoteSession υ) : Mutated υ := s.callServer "Update" []

def bind (s : RemoteSession υ) (userid : String) : Mutated υ := s.callServer "Bind" [.string userid]

def unBind (s : RemoteSession υ) : Mutated υ := s.callServer "UnBind" []

def push (s : RemoteSession υ) : Mutated υ := s.callServer "Push" [.settings s.session.cloneSettings]

/-- `Set`, which calls through the app. -/
def set (s : RemoteSession υ) (key value : String) : Mutated υ :=
  match s.app with
  | none => .ok (moduleAppIsNil, s)
  | some app => s.settle (app.call s.session.serverId "Set" (s.args [.string key, .string value]))

/-- `SetPush`, which writes first. -/
def setPush (s : RemoteSession υ) (key value : String) : Mutated υ :=
  match s.app with
  | none => .ok (moduleAppIsNil, s)
  | some _ => push { s with session := s.session.writeLocal key value }

def setBatch (s : RemoteSession υ) (settings : Settings) : Mutated υ :=
  s.callServer "Push" [.settings settings]

/-- `Remove`: the result is `errStr`, and the error of the call is `err`. -/
def remove (s : RemoteSession υ) (key : String) : Mutated υ :=
  match s.app with
  | none => .ok (moduleAppIsNil, s)
  | some app =>
    let (result, err) := app.call s.session.serverId "Remove" (s.args [.string key])
    if err = "" then (s.takeOver result).map fun s' => ("", s') else .ok ("", s)

end RemoteSession

/-- The eight methods. -/
inductive Mutator where
  | update
  | bind (userid : String)
  | unBind
  | push
  | set (key value : String)
  | setPush (key value : String)
  | setBatch (settings : Settings)
  | remove (key : String)

def Mutator.run (s : RemoteSession υ) : Mutator → Mutated υ
  | .update => s.update
  | .bind userid => s.bind userid
  | .unBind => s.unBind
  | .push => s.push
  | .set key value => s.set key value
  | .setPush key value => s.setPush key value
  | .setBatch settings => s.setBatch settings
  | .remove key => s.remove key

/-! ## What the gate answers -/

namespace Mutator

/-- The server that is looked up. -/
def lookup (app : RemoteApp) (s : RemoteSession υ) : Mutator → Except String Server
  | .set _ _ | .remove _ => app.getRouteServer s.session.serverId
  | _ => app.getServerByID s.session.serverId

/-- The function that is called. -/
def fn : Mutator → String
  | .update => "Update"
  | .bind _ => "Bind"
  | .unBind => "UnBind"
  | .push | .setPush _ _ | .setBatch _ => "Push"
  | .set _ _ => "Set"
  | .remove _ => "Remove"

/-- The parameters after the session id. -/
def params (s : RemoteSession υ) : Mutator → List Arg
  | .update | .unBind => []
  | .bind userid => [.string userid]
  | .push => [.settings s.session.cloneSettings]
  | .set key value => [.string key, .string value]
  | .setPush key value => [.settings (s.session.writeLocal key value).cloneSettings]
  | .setBatch settings => [.settings settings]
  | .remove key => [.string key]

/-- The result of a call that does not fail. -/
def answer (r : CallResult × String) : Option CallResult := if r.2 = "" then some r.1 else none

/-- The result of the call, or `none` when the lookup or the call fails. -/
def outcome (s : RemoteSession υ) (op : Mutator) : Option CallResult :=
  match s.app with
  | none => none
  | some app =>
    match op.lookup app s with
    | .error _ => none
    | .ok server => answer (server.call op.fn (s.args (op.params s)))

end Mutator

/-- The fields of a session that the gate sends. -/
@[ext]
structure Fields where
  userId : String
  ip : String
  topic : List UInt8
  network : String
  sessionId : String
  serverId : String
  settings : String → Option String

def SessionImp.fields (s : SessionImp) : Fields where
  userId := s.userId
  ip := s.ip
  topic := s.topic
  network := s.network
  sessionId := s.sessionId
  serverId := s.serverId
  settings := s.load

/-- A failure is reported and leaves the session as it was; a session that comes back is taken over. -/
structure Reports (s : RemoteSession υ) (outcome : Option CallResult) (r : Mutated υ) : Prop where
  failed : outcome = none →
    ∃ err s', r = .ok (err, s') ∧ err ≠ "" ∧ s'.session.fields = s.session.fields
  succeeded : ∀ new, outcome = some (.session new) →
    ∃ s', r = .ok ("", s') ∧ s'.session.fields = new.fields

theorem fields_update (s new : SessionImp) : (s.update new).fields = new.fields := by
  have hload : (s.update new).load = new.load := funext fun key => new.lookup_cloneSettings key
  unfold SessionImp.fields
  rw [hload]
  rfl

namespace RemoteSession

variable {s t : RemoteSession υ}

/-- A method that has changed the session from `s` to `t` before the call. -/
theorem settle_reports {r : CallResult × String}
    (hfields : Mutator.answer r = none → t.session.fields = s.session.fields) :
    Reports s (Mutator.answer r) (t.settle r) := by
  unfold settle
  by_cases herr : r.2 = ""
  · have hanswer : Mutator.answer r = some r.1 := if_pos herr
    rw [if_pos herr, hanswer]
    refine ⟨fun h => (Option.some_ne_none _ h).elim, fun new h => ?_⟩
    rw [Option.some.inj h]
    exact ⟨_, rfl, fields_update _ _⟩
  · have hanswer : Mutator.answer r = none := if_neg herr
    rw [if_neg herr]
    refine ⟨fun h => ⟨r.2, t, rfl, herr, hfields h⟩, fun new h => ?_⟩
    rw [hanswer] at h
    cases h

/-- A method that fails before the call. -/
theorem failed_reports {err : String} (herr : err ≠ "") (hfields : t.session.fields = s.session.fields) :
    Reports s none (.ok (err, t)) :=
  ⟨fun _ => ⟨err, t, rfl, herr, hfields⟩, fun _ h => by cases h⟩

theorem not_found_ne_empty (id : String) : s!"Service not found id({id})" ≠ "" := by
  intro h
  have hlen := congrArg String.length h
  rw [String.length_append, String.length_append] at hlen
  have htext : (toString "Service not found id(").length = 21 := by decide
  rw [htext, String.length_empty] at hlen
  omega

/-- The methods that look the server up by its id. -/
theorem callServer_reports {op : Mutator} {fn : String} {rest : List Arg}
    (hfields : op.outcome s = none → t.session.fields = s.session.fields) (happ : t.app = s.app)
    (hlookup : ∀ app, op.lookup app s = app.getServerByID t.session.serverId)
    (hfn : op.fn = fn) (hargs : s.args (op.params s) = t.args rest) :
    Reports s (op.outcome s) (t.callServer fn rest) := by
  unfold Mutator.outcome at hfields ⊢
  unfold callServer
  rw [happ]
  cases happ' : s.app with
  | none =>
    rw [happ'] at hfields
    exact failed_reports (by decide) (hfields rfl)
  | some app =>
    rw [happ'] at hfields
    dsimp only at hfields ⊢
    rw [hlookup] at hfields ⊢
    cases hserver : app.getServerByID t.session.serverId with
    | error e =>
      rw [hserver] at hfields
      exact failed_reports (not_found_ne_empty _) (hfields rfl)
    | ok server =>
      rw [hserver] at hfields
      dsimp only at hfields ⊢
      rw [hfn, hargs] at hfields ⊢
      exact settle_reports hfields

/-- A method that returns no error for a failure. -/
theorem not_reports_silent : ¬ Reports s none (.ok ("", t)) := by
  intro h
  obtain ⟨err, s', hr, herr, -⟩ := h.failed rfl
  obtain ⟨rfl, -⟩ := Prod.mk.inj (Except.ok.inj hr)
  exact herr rfl

/-- `Set` reports the error of the lookup, if it has a text. -/
theorem set_reports_iff (s : RemoteSession υ) (key value : String) :
    Reports s ((Mutator.set key value).outcome s) (s.set key value) ↔
      ∀ app, s.app = some app → app.getRouteServer s.session.serverId ≠ .error "" := by
  unfold Mutator.outcome set RemoteApp.call
  cases s.app with
  | none => exact iff_of_true (failed_reports (by decide) rfl) (by simp)
  | some app =>
    have hroute : (∀ app', some app = some app' → app'.getRouteServer s.session.serverId ≠ .error "") ↔
        app.getRouteServer s.session.serverId ≠ .error "" := by simp
    rw [hroute]
    dsimp only [Mutator.lookup]
    cases app.getRouteServer s.session.serverId with
    | error err =>
      by_cases herr : err = ""
      · rw [herr]
        exact iff_of_false not_reports_silent (by simp)
      · refine iff_of_true ?_ (by simpa using herr)
        have hsettle : s.settle (.nil, err) = .ok (err, s) := if_neg herr
        exact hsettle ▸ failed_reports herr rfl
    | ok server => exact iff_of_true (settle_reports fun _ => rfl) (by simp)

/-- The end of `Remove`. -/
theorem dropError_reports_iff (s : RemoteSession υ) (r : CallResult × String) :
    Reports s (Mutator.answer r)
        (if r.2 = "" then (s.takeOver r.1).map fun s' => ("", s') else .ok ("", s)) ↔
      Mutator.answer r ≠ none := by
  by_cases herr : r.2 = ""
  · have hanswer : Mutator.answer r = some r.1 := if_pos herr
    have hsettle : Reports s (Mutator.answer r) (s.settle r) := settle_reports fun _ => rfl
    rw [settle, if_pos herr] at hsettle
    rw [if_pos herr]
    exact iff_of_true hsettle (by simp [hanswer])
  · have hanswer : Mutator.answer r = none := if_neg herr
    rw [if_neg herr, hanswer]
    exact iff_of_false not_reports_silent (by simp)

/-- `Remove` reports no failure of the lookup or the call. -/
theorem remove_reports_iff (s : RemoteSession υ) (key : String) :
    Reports s ((Mutator.remove key).outcome s) (s.remove key) ↔
      s.app = none ∨ (Mutator.remove key).outcome s ≠ none := by
  unfold Mutator.outcome remove RemoteApp.call
  cases s.app with
  | none => exact iff_of_true (failed_reports (by decide) rfl) (.inl rfl)
  | some app =>
    dsimp only [Mutator.lookup]
    cases app.getRouteServer s.session.serverId with
    | error err =>
      refine iff_of_false ?_ (by simp)
      by_cases herr : err = ""
      · rw [herr]
        exact not_reports_silent
      · dsimp only
        rw [if_neg herr]
        exact not_reports_silent
    | ok server =>
      refine (dropError_reports_iff s _).trans ?_
      simp [Mutator.fn, Mutator.params]

theorem fields_writeLocal_iff (s : SessionImp) (key value : String) :
    (s.writeLocal key value).fields = s.fields ↔ s.load key = some value := by
  have hload : (s.writeLocal key value).load = fun k => if k = key then some value else s.load k :=
    funext fun k => GoMap.lookup_insert (s.settings.getD ∅) key k value
  constructor
  · intro h
    have hkey := congrFun (congrArg Fields.settings h) key
    change (s.writeLocal key value).load key = s.load key at hkey
    rw [hload] at hkey
    exact hkey.symm.trans (if_pos rfl)
  · intro h
    refine Fields.ext rfl rfl rfl rfl rfl rfl ?_
    change (s.writeLocal key value).load = s.load
    rw [hload]
    funext k
    by_cases hk : k = key
    · rw [if_pos hk, hk, h]
    · rw [if_neg hk]

/-- `SetPush` has changed the session when it fails. -/
theorem setPush_reports_iff (s : RemoteSession υ) (key value : String) :
    Reports s ((Mutator.setPush key value).outcome s) (s.setPush key value) ↔
      s.app = none ∨ (Mutator.setPush key value).outcome s ≠ none ∨ s.session.load key = some value := by
  cases happ : s.app with
  | none =>
    have hpush : s.setPush key value = .ok (moduleAppIsNil, s) := by
      rw [setPush, happ]
    have houtcome : (Mutator.setPush key value).outcome s = none := by
      rw [Mutator.outcome, happ]
    rw [hpush, houtcome]
    exact iff_of_true (failed_reports (by decide) rfl) (.inl rfl)
  | some app =>
    -- `Push` of the session that is written to
    let t : RemoteSession υ := { s with session := s.session.writeLocal key value }
    have hpush : s.setPush key value = t.push := by
      unfold setPush
      split
      · next hnone => cases hnone.symm.trans happ
      · rfl
    rw [hpush, ← fields_writeLocal_iff]
    constructor
    · intro h
      by_contra hcond
      obtain ⟨-, hcond⟩ := not_or.mp hcond
      obtain ⟨houtcome, hfields⟩ := not_or.mp hcond
      obtain ⟨err, s', hr, -, hs'⟩ := h.failed (not_not.mp houtcome)
      have ht : Reports t (Mutator.push.outcome t) t.push :=
        callServer_reports (fun _ => rfl) rfl (fun _ => rfl) rfl rfl
      obtain ⟨err', t', hr', -, ht'⟩ := ht.failed (not_not.mp houtcome)
      obtain ⟨-, rfl⟩ := Prod.mk.inj (Except.ok.inj (hr.symm.trans hr'))
      exact hfields (ht'.symm.trans hs')
    · intro h
      refine callServer_reports (fun houtcome => ?_) rfl (fun _ => rfl) rfl rfl
      rcases h with h | h | h
      · cases h
      · exact absurd houtcome h
      · exact h

end RemoteSession

/-- When a method reports as it should. -/
def Mutator.HoldsWhen (s : RemoteSession υ) : Mutator → Prop
  | .set _ _ => ∀ app, s.app = some app → app.getRouteServer s.session.serverId ≠ .error ""
  | .setPush key value =>
    s.app = none ∨ (Mutator.setPush key value).outcome s ≠ none ∨ s.session.load key = some value
  | .remove key => s.app = none ∨ (Mutator.remove key).outcome s ≠ none
  | .update | .bind _ | .unBind | .push | .setBatch _ => True

/-- **Failures of the methods.** For every session, every method and everything that the lookup and the call can
do, a failure is reported and leaves the session as it was, and a session that comes back is taken over,
exactly when `HoldsWhen` says. -/
theorem reports_iff (s : RemoteSession υ) (op : Mutator) :
    Reports s (op.outcome s) (op.run s) ↔ op.HoldsWhen s := by
  cases op with
  | update =>
    exact iff_of_true (RemoteSession.callServer_reports (fun _ => rfl) rfl (fun _ => rfl) rfl rfl) trivial
  | bind userid =>
    exact iff_of_true (RemoteSession.callServer_reports (fun _ => rfl) rfl (fun _ => rfl) rfl rfl) trivial
  | unBind =>
    exact iff_of_true (RemoteSession.callServer_reports (fun _ => rfl) rfl (fun _ => rfl) rfl rfl) trivial
  | push =>
    exact iff_of_true (RemoteSession.callServer_reports (fun _ => rfl) rfl (fun _ => rfl) rfl rfl) trivial
  | setBatch settings =>
    exact iff_of_true (RemoteSession.callServer_reports (fun _ => rfl) rfl (fun _ => rfl) rfl rfl) trivial
  | set key value => exact RemoteSession.set_reports_iff s key value
  | setPush key value => exact RemoteSession.setPush_reports_iff s key value
  | remove key => exact RemoteSession.remove_reports_iff s key

/-! A session of a gate that is not found. -/

def lostApp : RemoteApp where
  getServerByID := fun id => .error ("nofound " ++ id)
  getRouteServer := fun id => .error ("nofound " ++ id)

def lostSession : RemoteSession Unit where
  app := some lostApp
  session := { serverId := "gate@1", settings := some ∅ }

/-- `Remove` returns no error, and `SetPush` leaves its value behind. -/
theorem not_reports_lostSession :
    (Mutator.remove "k").outcome lostSession = none ∧
      lostSession.remove "k" = .ok ("", lostSession) ∧
      ¬ Reports lostSession ((Mutator.remove "k").outcome lostSession) (lostSession.remove "k") ∧
      (Mutator.setPush "k" "v").outcome lostSession = none ∧
      lostSession.session.load "k" = none ∧
      ¬ Reports lostSession ((Mutator.setPush "k" "v").outcome lostSession)
        (lostSession.setPush "k" "v") := by
  have hremove : lostSession.remove "k" = .ok ("", lostSession) := by
    have htext : "nofound " ++ "gate@1" ≠ "" := by decide
    change (if "nofound " ++ "gate@1" = "" then Except.ok ("", lostSession)
      else .ok ("", lostSession)) = _
    rw [if_neg htext]
  have hload : lostSession.session.load "k" = none := rfl
  refine ⟨rfl, hremove, ?_, rfl, hload, ?_⟩
  · rw [hremove]
    exact RemoteSession.not_reports_silent
  · rw [RemoteSession.setPush_reports_iff, hload]
    rintro (h | h | h)
    · cases h
    · exact h rfl
    · cases h

end Vmqant.BaseGate
