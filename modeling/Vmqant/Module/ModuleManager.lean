import Vmqant.Common.Chan
import Vmqant.Common.Panic

/-!
# The module manager

Reference: `module/base/ModuleManager.go`, lines 26-124, and `module/base/DefaultModule.go`.

`Init` selects the modules that run in this process, which the settings say, and starts each in a goroutine
of its own. `Destroy` stops them in the reverse order: it sends the signal to close, waits for the goroutine
and calls `OnDestroy`. A module is known by its `DefaultModule`, that is, by a pointer.
-/

namespace Vmqant.Module

/-! ## The selection of the modules -/

/-- `conf.ModuleSettings`, without the fields that only the module reads. -/
structure ModuleSettings where
  id : String
  processID : String

/-- The settings of the modules of each type. -/
abbrev Settings := AList fun _ : String => List ModuleSettings

/-- A `DefaultModule`: the pointer and `mi.GetType()`. -/
structure DefaultModule where
  ref : ℕ
  type : String
deriving DecidableEq

/-- The registered modules. Each was allocated by its registration. -/
structure ModuleManager where
  mods : List DefaultModule
  runMods : List DefaultModule
  allocated : ℕ
  ref_lt : ∀ m ∈ runMods ++ mods, m.ref < allocated
  nodup : (runMods ++ mods).Nodup

namespace ModuleManager

/-- `NewModuleManager`. -/
def new : ModuleManager where
  mods := []
  runMods := []
  allocated := 0
  ref_lt := nofun
  nodup := List.nodup_nil

theorem not_mem_allocated (mer : ModuleManager) (type : String) :
    ⟨mer.allocated, type⟩ ∉ mer.runMods ++ mer.mods :=
  fun h => Nat.lt_irrefl _ (mer.ref_lt _ h)

/-- `Register`. -/
def register (mer : ModuleManager) (type : String) : ModuleManager where
  mods := mer.mods ++ [⟨mer.allocated, type⟩]
  runMods := mer.runMods
  allocated := mer.allocated + 1
  ref_lt m hm := by
    rw [← List.append_assoc, List.mem_append, List.mem_singleton] at hm
    rcases hm with hm | rfl
    · exact Nat.lt_succ_of_lt (mer.ref_lt m hm)
    · exact Nat.lt_succ_self _
  nodup := by
    rw [← List.append_assoc, List.nodup_append]
    refine ⟨mer.nodup, List.nodup_singleton _, ?_⟩
    rintro m hm m' hm' rfl
    rw [List.mem_singleton.mp hm'] at hm
    exact mer.not_mem_allocated type hm

/-- `RegisterRunMod`. -/
def registerRunMod (mer : ModuleManager) (type : String) : ModuleManager where
  mods := mer.mods
  runMods := mer.runMods ++ [⟨mer.allocated, type⟩]
  allocated := mer.allocated + 1
  ref_lt m hm := by
    rw [List.append_assoc, List.mem_append, List.singleton_append, List.mem_cons] at hm
    rcases hm with hm | rfl | hm
    · exact Nat.lt_succ_of_lt (mer.ref_lt m (List.mem_append_left _ hm))
    · exact Nat.lt_succ_self _
    · exact Nat.lt_succ_of_lt (mer.ref_lt m (List.mem_append_right _ hm))
  nodup := by
    rw [List.append_assoc, List.singleton_append, List.nodup_middle, List.nodup_cons]
    exact ⟨mer.not_mem_allocated type, mer.nodup⟩

end ModuleManager

/-- The inner loop of `CheckModuleSettings`, over the modules of one type: `gid` are the types by id, `pid`
the ids by process. -/
def checkType (type : String) (gid pid : AList fun _ : String => String) :
    List ModuleSettings → Except PanicValue (AList fun _ : String => String)
  | [] => pure gid
  | setting :: settings =>
    match gid.lookup setting.id with
    | some stype =>
      throw (.string ("ID (" ++ setting.id ++ ") been used in modules of type [" ++ stype ++
        "] and cannot be reused"))
    | none =>
      match pid.lookup setting.processID with
      | some id =>
        throw (.string ("In the list of modules of type [" ++ type ++ "], ProcessID (" ++ setting.processID ++
          ") has been used for ID module for (" ++ id ++ ")"))
      | none =>
        checkType type (gid.insert setting.id type) (pid.insert setting.processID setting.id) settings

/-- The outer loop of `CheckModuleSettings`, over the types. -/
def checkTypes (gid : AList fun _ : String => String) :
    List (Sigma fun _ : String => List ModuleSettings) → Except PanicValue Unit
  | [] => pure ()
  | ⟨type, modSettings⟩ :: types => do
    let gid ← checkType type gid ∅ modSettings
    checkTypes gid types

/-- `CheckModuleSettings`. -/
def checkModuleSettings (settings : Settings) : Except PanicValue Unit := checkTypes ∅ settings.entries

/-- The modules that `Init` starts, in this order. A module is taken once for each of its settings with the
id of the process. The settings of the app are those that are checked. -/
def ModuleManager.init (mer : ModuleManager) (settings : Settings) (processID : String) :
    Except PanicValue (List DefaultModule) := do
  checkModuleSettings settings
  pure (mer.runMods ++ mer.mods.flatMap fun m =>
    ((settings.lookup m.type).getD []).flatMap fun setting =>
      if processID = setting.processID then [m] else [])

/-! ## Goroutines and teardown -/

/-- What `Run` of a module does: whether it waits for the signal to close, and whether it then panics or
returns. -/
structure Behaviour where
  waits : Bool
  panics : Bool

/-- Where the goroutine `run` of a module is. -/
inductive RunPc where
  | idle
  /-- Inside `Run`, with the signal received or not. -/
  | running (signalled : Bool)
  /-- `Run` has returned, before `m.wg.Done()`. -/
  | returned
  | ended
  /-- `Run` has panicked, the panic is recovered, and the goroutine is at its end. -/
  | panicked
deriving DecidableEq

/-- Where `Destroy` is; `rest` are the modules that are still to be stopped. -/
inductive DestroyPc where
  | idle
  | next (rest : List DefaultModule)
  /-- The signal is sent, before `m.wg.Wait()`. -/
  | sent (m : DefaultModule) (rest : List DefaultModule)
  /-- Before `destroy(m)`. -/
  | waited (m : DefaultModule) (rest : List DefaultModule)

/-- The modules while `Init` and `Destroy` run. -/
structure State where
  /-- The modules that `Init` has still to start. -/
  toStart : List DefaultModule
  started : List DefaultModule
  closeSig : DefaultModule → Chan Bool 1
  wg : DefaultModule → ℤ
  run : DefaultModule → RunPc
  destroy : DestroyPc
  /-- The calls of `OnDestroy`. -/
  destroyed : List DefaultModule

inductive RunAct where
  /-- `Run` receives the signal. -/
  | receive
  /-- `Run` returns or panics. -/
  | finish
  /-- `m.wg.Done()`. -/
  | done

inductive Act where
  /-- `OnInit`, `m.wg.Add(1)` and `go run(m)` for the next module. -/
  | start
  | run (m : DefaultModule) (a : RunAct)
  /-- The next step of `Destroy`. -/
  | destroy

namespace State

def init (runMods : List DefaultModule) : State where
  toStart := runMods
  started := []
  closeSig := fun _ => .make
  wg := fun _ => 0
  run := fun _ => .idle
  destroy := .idle
  destroyed := []

def setRun (s : State) (m : DefaultModule) (pc : RunPc) : State :=
  { s with run := Function.update s.run m pc }

def setSig (s : State) (m : DefaultModule) (c : Chan Bool 1) : State :=
  { s with closeSig := Function.update s.closeSig m c }

end State

variable (beh : DefaultModule → Behaviour)

/-- The goroutine `run` of `m`. -/
def runStep (s : State) (m : DefaultModule) : RunPc → RunAct → Option State
  | .running false, .receive =>
    match (beh m).waits, (s.closeSig m).recv with
    | true, .ok (some _, c) => some ((s.setSig m c).setRun m (.running true))
    | _, _ => none
  | .running signalled, .finish =>
    if (beh m).waits && !signalled then none
    else some (s.setRun m (if (beh m).panics then .panicked else .returned))
  | .returned, .done => some { s.setRun m .ended with wg := Function.update s.wg m (s.wg m - 1) }
  | _, _ => none

/-- `Destroy`, which is called after `Init`. -/
def destroyStep (s : State) : DestroyPc → Option State
  | .idle => if s.toStart = [] then some { s with destroy := .next s.started.reverse } else none
  | .next [] => none
  | .next (m :: rest) =>
    match (s.closeSig m).send true with
    | .ok c => some { s.setSig m c with destroy := .sent m rest }
    | _ => none
  | .sent m rest => if s.wg m = 0 then some { s with destroy := .waited m rest } else none
  | .waited m rest => some { s with destroy := .next rest, destroyed := s.destroyed ++ [m] }

def step (s : State) : Act → Option State
  | .start =>
    match s.toStart with
    | [] => none
    | m :: toStart =>
      some { s.setRun m (.running false) with
        toStart := toStart, started := s.started ++ [m], wg := Function.update s.wg m (s.wg m + 1) }
  | .run m a => runStep beh s m (s.run m) a
  | .destroy => destroyStep s s.destroy

end Vmqant.Module
