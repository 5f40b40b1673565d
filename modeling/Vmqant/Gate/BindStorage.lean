import Vmqant.Gate.Handler
import Vmqant.Gate.SessionAgent

/-!
# Bind and the storage handler

Reference: `gate/base/gate_handler.go`, lines 140-173; `gate/define.go`, lines 132-153.

`Bind` reads what is stored for the user, merges it into the session and stores the session. When the
data cannot be read or decoded the merge is left out, and the session is stored all the same: the record
of the user is replaced by one that lacks the persisted keys. `bind_keeps_iff` says when no key is lost.
-/

namespace Vmqant.BaseGate

variable {ρ σ : Type}

/-- `persisted` is what a storage handler keeps for each user: the data that `Query` returns, where it can
be decoded; a `Storage` that succeeds replaces the record of the user by the settings of the session, one
that fails leaves it. -/
structure StorageHandler.Persists (h : StorageHandler σ)
    (unmarshal : List UInt8 → Except String SessionImp)
    (persisted : σ → String → String → Option String) : Prop where
  query_ok : ∀ store userid data impSession, h.query store userid = .ok (some data) →
    SessionImp.newSession unmarshal data = .ok impSession → impSession.load = persisted store userid
  storage_ok : ∀ store s, (h.storage store s).1 = none →
    persisted (h.storage store s).2 s.userId = s.load
  storage_error : ∀ store s e, (h.storage store s).1 = some e →
    persisted (h.storage store s).2 s.userId = persisted store s.userId

/-- Every key of the first record is in the second one. -/
def KeepsKeys (record record' : String → Option String) : Prop :=
  ∀ key, (record key).isSome → (record' key).isSome

theorem SessionImp.load_importSettings (s : SessionImp) (settings : Settings) (key : String) :
    (s.importSettings settings).load key = (s.load key).or (settings.lookup key) := by
  unfold importSettings load
  split
  · next h => rw [h, Option.getD_none, AList.lookup_empty, Option.none_or, Option.getD_some]
  · next m h => rw [h, Option.getD_some, Option.getD_some, GoMap.lookup_foldl_insertNew]

namespace Gate

/-- The session that is bound to a user, with what was stored for the user. -/
def bound (g : Gate σ) (store : σ) (s : SessionImp) (userid : String) : SessionImp :=
  match g.stored store userid with
  | none => s.setUserID userid
  | some impSession => (s.setUserID userid).importSettings impSession.cloneSettings

variable {g : Gate σ} {store : σ} {s : SessionImp} {userid : String}

@[simp] theorem userId_bound : (g.bound store s userid).userId = userid := by
  unfold bound
  split
  · rfl
  · unfold SessionImp.importSettings
    split
    · rfl
    · rfl

theorem load_bound {impSession : SessionImp} (h : g.stored store userid = some impSession)
    (key : String) : (g.bound store s userid).load key = (s.load key).or (impSession.load key) := by
  unfold bound
  rw [h]
  dsimp only
  rw [SessionImp.load_importSettings, SessionImp.lookup_cloneSettings]
  rfl

/-- What was stored was queried and decoded. -/
theorem stored_eq_some {impSession : SessionImp} (h : g.stored store userid = some impSession) :
    ∃ handler data, g.storageHandler = some handler ∧ handler.query store userid = .ok (some data) ∧
      SessionImp.newSession g.unmarshal data = .ok impSession := by
  unfold stored at h
  split at h
  · cases h
  · next handler hhandler =>
    split at h
    · cases h
    · cases h
    · next data hdata =>
      split at h
      · cases h
      · next imp himp =>
        obtain rfl := Option.some.inj h
        exact ⟨handler, data, hhandler, hdata, himp⟩

/-- What is persisted for the user after the session that is bound is stored: nothing is lost if this
fails, if the stored session was merged, or if there was nothing to merge. -/
theorem storage_bound_keeps_iff {h : StorageHandler σ} {persisted : σ → String → String → Option String}
    (hh : g.storageHandler = some h) (hlaw : h.Persists g.unmarshal persisted) :
    KeepsKeys (persisted store userid)
        (persisted (h.storage store (g.bound store s userid)).2 userid) ↔
      (∃ e, (h.storage store (s.setUserID userid)).1 = some e) ∨
        (g.stored store userid).isSome ∨ KeepsKeys (persisted store userid) s.load := by
  have hreplaced := hlaw.storage_ok store (g.bound store s userid)
  have hkept := hlaw.storage_error store (g.bound store s userid)
  rw [userId_bound] at hreplaced hkept
  cases hstored : g.stored store userid with
  | none =>
    have hbound : g.bound store s userid = s.setUserID userid := by
      unfold bound
      rw [hstored]
    rw [hbound] at hreplaced hkept ⊢
    cases hstorage : (h.storage store (s.setUserID userid)).1 with
    | some e =>
      rw [hkept e hstorage]
      exact ⟨fun _ => .inl ⟨e, rfl⟩, fun _ _ hkey => hkey⟩
    | none =>
      rw [hreplaced hstorage]
      refine ⟨fun hkeeps => .inr (.inr hkeeps), ?_⟩
      rintro (⟨e, he⟩ | hsome | hkeeps)
      · cases he
      · cases hsome
      · exact hkeeps
  | some impSession =>
    refine ⟨fun _ => .inr (.inl rfl), fun _ => ?_⟩
    cases hstorage : (h.storage store (g.bound store s userid)).1 with
    | some e =>
      rw [hkept e hstorage]
      exact fun _ hkey => hkey
    | none =>
      rw [hreplaced hstorage]
      intro key hkey
      -- the data that was queried is the record
      obtain ⟨h', data, hh', hquery, hdecode⟩ := stored_eq_some hstored
      rw [hh] at hh'
      obtain rfl := Option.some.inj hh'
      rw [load_bound hstored, hlaw.query_ok _ _ _ _ hquery hdecode, Option.isSome_or, hkey,
        Bool.or_true]

end Gate

namespace Handler

variable [DecidableEq ρ] {c : Handler ρ σ} {sessionid : String} {a : ρ} {s : SessionImp}

/-- `Bind` stores the session that is bound, unless it is bound to no user. -/
theorem bind_eq (g : Gate σ) (ha : c.sessions.lookup sessionid = some a)
    (hs : (c.agents a).session = some s) (userid : String) :
    ∃ reply c', bind g c sessionid userid = some (reply, c') ∧
      c'.store = if userid = "" then c.store else g.save c.store (g.bound c.store s userid) := by
  by_cases hempty : userid = ""
  · refine ⟨_, _, onSession_eq ha hs (if_neg (fun h => h hempty)) g.save, ?_⟩
    dsimp only
    rw [if_pos hempty, Gate.save]
    split
    · rfl
    · exact if_neg (fun h => h hempty)
  · refine ⟨_, _, onSession_eq ha hs ?_ g.save, (if_neg hempty).symm⟩
    have hne : (s.setUserID userid).userId ≠ "" := hempty
    dsimp only
    rw [if_pos hne, Gate.bound]
    cases g.stored c.store userid with
    | none => rfl
    | some impSession => rfl

/-- Binding a connected session to a user keeps the persisted keys of the user exactly when there is no
storage handler, the user id is empty, the session cannot be stored, the stored session was queried and
decoded, or the session has all the persisted keys itself. -/
theorem bind_keeps_iff (g : Gate σ) (persisted : σ → String → String → Option String)
    (hlaw : ∀ h, g.storageHandler = some h → h.Persists g.unmarshal persisted)
    (c : Handler ρ σ) (sessionid userid : String) (a : ρ) (s : SessionImp)
    (ha : c.sessions.lookup sessionid = some a) (hs : (c.agents a).session = some s) :
    ∃ reply c', bind g c sessionid userid = some (reply, c') ∧
      (KeepsKeys (persisted c.store userid) (persisted c'.store userid) ↔
        g.storageHandler = none ∨ userid = "" ∨
        (∃ h e, g.storageHandler = some h ∧ (h.storage c.store (s.setUserID userid)).1 = some e) ∨
        (g.stored c.store userid).isSome ∨
        KeepsKeys (persisted c.store userid) s.load) := by
  obtain ⟨reply, c', hbind, hstore⟩ := bind_eq g ha hs userid
  refine ⟨reply, c', hbind, ?_⟩
  rw [hstore]
  by_cases hempty : userid = ""
  · rw [if_pos hempty]
    exact ⟨fun _ => .inr (.inl hempty), fun _ _ hkey => hkey⟩
  rw [if_neg hempty, Gate.save]
  cases hh : g.storageHandler with
  | none => exact ⟨fun _ => .inl rfl, fun _ _ hkey => hkey⟩
  | some h =>
    have hne : (g.bound c.store s userid).userId ≠ "" := by
      rw [Gate.userId_bound]
      exact hempty
    dsimp only
    rw [if_pos hne, Gate.storage_bound_keeps_iff hh (hlaw h hh)]
    constructor
    · rintro (⟨e, he⟩ | hkeeps)
      · exact .inr (.inr (.inl ⟨h, e, rfl, he⟩))
      · exact .inr (.inr (.inr hkeeps))
    · rintro (hnone | hguest | ⟨h', e, hh', he⟩ | hkeeps)
      · cases hnone
      · exact absurd hguest hempty
      · obtain rfl := Option.some.inj hh'
        exact .inl ⟨e, he⟩
      · exact .inr hkeeps

/-! A storage handler that keeps the settings of each user and marshals them when it is queried; while it
is down, queries fail. -/

structure Disk where
  record : String → Option Settings
  down : Bool

namespace Disk

def query (proto : Proto) (disk : Disk) (userid : String) : Except String (Option (List UInt8)) :=
  if disk.down then .error "i/o timeout"
  else
    match disk.record userid with
    | none => .ok none
    | some m => (proto.marshal { settings := some m }).map some

def storage (disk : Disk) (s : SessionImp) : Option String × Disk :=
  (none, { disk with record := Function.update disk.record s.userId (some (s.settings.getD ∅)) })

def persisted (disk : Disk) (userid key : String) : Option String :=
  (disk.record userid).bind (·.lookup key)

/-- A gate that stores sessions on a disk. -/
def gate (proto : Proto) : Gate Disk where
  storageHandler := some ⟨query proto, storage⟩
  unmarshal := proto.unmarshal

theorem persists_gate {proto : Proto} (hproto : proto.Lossless) : ∀ h,
    (gate proto).storageHandler = some h → h.Persists (gate proto).unmarshal persisted := by
  rintro h hh
  obtain rfl := Option.some.inj hh
  refine ⟨fun disk userid data imp hquery himp => ?_, fun disk s _ => ?_, fun disk s e he => ?_⟩
  · unfold query at hquery
    dsimp only at hquery
    split at hquery
    · cases hquery
    · split at hquery
      · cases hquery
      · next m hm =>
        cases hmarshal : proto.marshal { settings := some m } with
        | error e =>
          rw [hmarshal] at hquery
          cases hquery
        | ok b =>
          rw [hmarshal] at hquery
          cases hquery
          obtain ⟨s', hs', hsame⟩ := hproto _ _ hmarshal
          change (proto.unmarshal data).map SessionImp.makeSettings = .ok imp at himp
          rw [hs'] at himp
          cases himp
          funext key
          rw [SessionImp.load_makeSettings, SessionImp.load, hsame.settings_eq, persisted, hm,
            Option.bind_some, Option.getD_some]
  · funext key
    unfold storage persisted
    dsimp only
    rw [Function.update_self, Option.bind_some]
    rfl
  · cases he

end Disk

/-- A gate whose disk has the setting `k` of the user `u`. -/
def diskProto : Proto :=
  .single { settings := some (AList.insert "k" "v" ∅) } { settings := some (AList.insert "k" "v" ∅) }
    [66, 6, 10, 1, 107, 18, 1, 118]

theorem lossless_diskProto : diskProto.Lossless :=
  Proto.lossless_single ⟨rfl, rfl, rfl, rfl, rfl, rfl, rfl, rfl, fun _ => rfl, fun _ => rfl⟩ _

def sampleDisk (down : Bool) : Disk where
  record := fun userid => if userid = "u" then some (AList.insert "k" "v" ∅) else none
  down := down

/-- One connected session, without settings. -/
def diskHandler (down : Bool) : Handler Unit Disk where
  agents := fun _ => ⟨some (.newSessionByMap { sessionid := some "a" }), true⟩
  store := sampleDisk down
  sessions := AList.insert "a" () ∅
  agentNum := 1

theorem bind_keeps_iff_diskHandler :
    ∃ reply c', bind (Disk.gate diskProto) (diskHandler false) "a" "u" = some (reply, c') ∧
      KeepsKeys ((sampleDisk false).persisted "u") (c'.store.persisted "u") := by
  obtain ⟨reply, c', hbind, hkeeps⟩ := bind_keeps_iff (Disk.gate diskProto) Disk.persisted
    (Disk.persists_gate lossless_diskProto) (diskHandler false) "a" "u" () _ rfl rfl
  have hstored : ((Disk.gate diskProto).stored (sampleDisk false) "u").isSome := by
    unfold Gate.stored Disk.gate
    dsimp only
    unfold Disk.query sampleDisk
    dsimp only
    rw [if_neg Bool.false_ne_true, if_pos rfl]
    dsimp only
    rw [diskProto, Proto.marshal_single]
    rfl
  exact ⟨reply, c', hbind, hkeeps.mpr (.inr (.inr (.inr (.inl hstored))))⟩

/-- The query fails, and the setting `k` that was persisted is gone. -/
theorem not_keepsKeys_down :
    (∀ h, (Disk.gate diskProto).storageHandler = some h →
      h.Persists (Disk.gate diskProto).unmarshal Disk.persisted) ∧
    ∃ reply c', bind (Disk.gate diskProto) (diskHandler true) "a" "u" = some (reply, c') ∧
      (sampleDisk true).persisted "u" "k" = some "v" ∧
      ¬ KeepsKeys ((sampleDisk true).persisted "u") (c'.store.persisted "u") := by
  refine ⟨Disk.persists_gate lossless_diskProto, _, _, rfl, rfl, fun h => ?_⟩
  have hk : false = true := h "k" rfl
  cases hk

end Handler

end Vmqant.BaseGate
