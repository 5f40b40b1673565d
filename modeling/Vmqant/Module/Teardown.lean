import Vmqant.Common.Lts
import Vmqant.Module.ModuleManager

/-!
# Orderly teardown

`run` calls `m.wg.Done()` after `Run`, and not in its deferred function, so a module whose `Run` panics is
never done, and `Destroy` waits for it for ever. Without a panic each group is empty when its goroutine has
ended, and `Destroy` comes to its end.
-/

namespace Vmqant.Module

open Lts

/-! ## The started modules are distinct -/

theorem processID_nodup {type : String} {gid pid gid' : AList fun _ : String => String}
    {settings : List ModuleSettings} (h : checkType type gid pid settings = .ok gid') :
    (settings.map ModuleSettings.processID).Nodup ∧
      ∀ setting ∈ settings, pid.lookup setting.processID = none := by
  induction settings generalizing gid pid with
  | nil => exact ⟨List.nodup_nil, nofun⟩
  | cons setting settings ih =>
    unfold checkType at h
    split at h
    · cases h
    split at h
    · cases h
    · next hpid =>
      obtain ⟨hnodup, hnone⟩ := ih h
      have hne : ∀ other ∈ settings, other.processID ≠ setting.processID := by
        intro other hother heq
        have hlookup := hnone other hother
        rw [heq, AList.lookup_insert] at hlookup
        cases hlookup
      refine ⟨?_, ?_⟩
      · rw [List.map_cons, List.nodup_cons]
        refine ⟨fun hmem => ?_, hnodup⟩
        obtain ⟨other, hother, heq⟩ := List.mem_map.mp hmem
        exact hne other hother heq
      · intro other hother
        rcases List.mem_cons.mp hother with rfl | hother
        · exact hpid
        · have hlookup := hnone other hother
          rwa [AList.lookup_insert_ne (hne other hother)] at hlookup

theorem processID_nodup_of_check {gid : AList fun _ : String => String}
    {types : List (Sigma fun _ : String => List ModuleSettings)} (h : checkTypes gid types = .ok ()) :
    ∀ t ∈ types, (t.2.map ModuleSettings.processID).Nodup := by
  induction types generalizing gid with
  | nil => nofun
  | cons t types ih =>
    obtain ⟨type, modSettings⟩ := t
    unfold checkTypes at h
    cases hcheck : checkType type gid ∅ modSettings with
    | error v =>
      rw [hcheck] at h
      cases h
    | ok gid' =>
      rw [hcheck] at h
      rintro t (_ | ⟨_, ht⟩)
      · exact (processID_nodup hcheck).1
      · exact ih h t ht

/-- A module is taken at most once. -/
theorem flatMap_processID {settings : List ModuleSettings} {processID : String} (m : DefaultModule)
    (h : (settings.map ModuleSettings.processID).Nodup) :
    (settings.flatMap fun setting => if processID = setting.processID then [m] else []).Sublist [m] := by
  induction settings with
  | nil => exact List.nil_sublist _
  | cons setting settings ih =>
    rw [List.map_cons, List.nodup_cons] at h
    rw [List.flatMap_cons]
    split
    · next heq =>
      have hnil : (settings.flatMap fun setting => if processID = setting.processID then [m] else []) = [] := by
        refine List.flatMap_eq_nil_iff.mpr fun other hother => if_neg fun h' => h.1 ?_
        exact heq ▸ h' ▸ List.mem_map_of_mem hother
      rw [hnil]
      exact List.Sublist.refl _
    · exact ih h.2

theorem flatMap_sublist {f : DefaultModule → List DefaultModule} {mods : List DefaultModule}
    (h : ∀ m ∈ mods, (f m).Sublist [m]) : (mods.flatMap f).Sublist mods := by
  induction mods with
  | nil => exact List.nil_sublist _
  | cons m mods ih =>
    rw [List.flatMap_cons]
    exact (h m List.mem_cons_self).append (ih fun m' hm' => h m' (List.mem_cons_of_mem m hm'))

/-- `Init` starts no module twice. -/
theorem ModuleManager.init_nodup {mer : ModuleManager} {settings : Settings} {processID : String}
    {runMods : List DefaultModule} (h : mer.init settings processID = .ok runMods) : runMods.Nodup := by
  unfold init at h
  cases hcheck : checkModuleSettings settings with
  | error v =>
    rw [hcheck] at h
    cases h
  | ok u =>
    rw [hcheck] at h
    obtain rfl := Except.ok.inj h
    refine List.Nodup.sublist (List.Sublist.append (List.Sublist.refl _) (flatMap_sublist fun m _ => ?_))
      mer.nodup
    cases hlookup : settings.lookup m.type with
    | none => exact List.nil_sublist _
    | some modSettings =>
      refine flatMap_processID m ?_
      exact processID_nodup_of_check hcheck _ (AList.mem_lookup_iff.mp hlookup)

/-! ## Where the goroutines are -/

/-- What the goroutine of a module adds to its group: it is counted from `m.wg.Add(1)` on, until
`m.wg.Done()`. -/
def RunPc.count : RunPc → ℤ
  | .running _ | .returned | .panicked => 1
  | .idle | .ended => 0

/-- The goroutine has ended as the behaviour of `Run` says. -/
def RunPc.Fits (b : Behaviour) : RunPc → Prop
  | .returned | .ended => b.panics = false
  | .panicked => b.panics = true
  | .idle | .running _ => True

/-- The goroutine has ended. -/
def RunPc.Over (pc : RunPc) : Prop := pc = .ended ∨ pc = .panicked

namespace DestroyPc

/-- The module that is being stopped. -/
def current : DestroyPc → List DefaultModule
  | .sent m _ | .waited m _ => [m]
  | .idle | .next _ => []

/-- The modules that have not got the signal. -/
def todo (mods : List DefaultModule) : DestroyPc → List DefaultModule
  | .idle => mods.reverse
  | .next rest | .sent _ rest | .waited _ rest => rest

end DestroyPc

variable {beh : DefaultModule → Behaviour} {mods : List DefaultModule}

/-! ## What a step can do -/

/-- The steps of the goroutine of a module. -/
inductive RunStep (beh : DefaultModule → Behaviour) (s : State) (m : DefaultModule) : RunPc → State → Prop where
  | receive {b : Bool} {c : Chan Bool 1} (hrecv : (s.closeSig m).recv = .ok (some b, c)) :
      RunStep beh s m (.running false) ((s.setSig m c).setRun m (.running true))
  | panics {signalled : Bool} (hpanics : (beh m).panics = true) :
      RunStep beh s m (.running signalled) (s.setRun m .panicked)
  | returns {signalled : Bool} (hpanics : (beh m).panics = false) :
      RunStep beh s m (.running signalled) (s.setRun m .returned)
  | done : RunStep beh s m .returned
      { s.setRun m .ended with wg := Function.update s.wg m (s.wg m - 1) }

theorem runStep_eq_some {s s' : State} {m : DefaultModule} {pc : RunPc} {a : RunAct}
    (h : runStep beh s m pc a = some s') : RunStep beh s m pc s' := by
  unfold runStep at h
  split at h
  · split at h
    · next hrecv =>
      obtain rfl := Option.some.inj h
      exact .receive hrecv
    · cases h
  · split at h
    · cases h
    · obtain rfl := Option.some.inj h
      split
      · next hpanics => exact .panics hpanics
      · next hpanics => exact .returns (Bool.eq_false_iff.mpr hpanics)
  · obtain rfl := Option.some.inj h
    exact .done
  · cases h

/-- The steps of `Destroy`. -/
inductive DestroyStep (s : State) : DestroyPc → State → Prop where
  | start (hstart : s.toStart = []) : DestroyStep s .idle { s with destroy := .next s.started.reverse }
  | send {m : DefaultModule} {rest : List DefaultModule} {c : Chan Bool 1}
      (hsend : (s.closeSig m).send true = .ok c) :
      DestroyStep s (.next (m :: rest)) { s.setSig m c with destroy := .sent m rest }
  | wait {m : DefaultModule} {rest : List DefaultModule} (hzero : s.wg m = 0) :
      DestroyStep s (.sent m rest) { s with destroy := .waited m rest }
  | onDestroy {m : DefaultModule} {rest : List DefaultModule} :
      DestroyStep s (.waited m rest) { s with destroy := .next rest, destroyed := s.destroyed ++ [m] }

theorem destroyStep_eq_some {s s' : State} {pc : DestroyPc} (h : destroyStep s pc = some s') :
    DestroyStep s pc s' := by
  unfold destroyStep at h
  split at h
  · split at h
    · next hstart =>
      obtain rfl := Option.some.inj h
      exact .start hstart
    · cases h
  · cases h
  · split at h
    · next hsend =>
      obtain rfl := Option.some.inj h
      exact .send hsend
    · cases h
  · split at h
    · next hzero =>
      obtain rfl := Option.some.inj h
      exact .wait hzero
    · cases h
  · obtain rfl := Option.some.inj h
    exact .onDestroy

/-! ## The invariant -/

/-- The invariant of all runs. -/
structure Inv (beh : DefaultModule → Behaviour) (mods : List DefaultModule) (s : State) : Prop where
  split : s.started ++ s.toStart = mods
  started : s.destroy ≠ .idle → s.toStart = []
  idle : ∀ m, s.run m = .idle ↔ m ∉ s.started
  wg : ∀ m, s.wg m = (s.run m).count
  fits : ∀ m, (s.run m).Fits (beh m)
  opened : ∀ m, (s.closeSig m).closed = false
  order : s.destroyed ++ (s.destroy.current ++ s.destroy.todo mods) = mods.reverse
  unsent : ∀ m ∈ s.destroy.todo mods, (s.closeSig m).buf = []
  /-- A module that gets the signal has it in its channel or has received it. -/
  sent : ∀ m rest, s.destroy = .sent m rest → s.run m = .running false → (s.closeSig m).buf ≠ []
  waited : ∀ m rest, s.destroy = .waited m rest → s.run m = .ended
  destroyed : ∀ m ∈ s.destroyed, s.run m = .ended

theorem inv_init : Inv beh mods (.init mods) where
  split := rfl
  started h := absurd rfl h
  idle _ := iff_of_true rfl List.not_mem_nil
  wg _ := rfl
  fits _ := trivial
  opened _ := rfl
  order := rfl
  unsent _ _ := rfl
  sent := nofun
  waited := nofun
  destroyed := nofun

namespace Inv

variable {s s' : State}

theorem run_setRun (m m' : DefaultModule) (pc : RunPc) :
    (s.setRun m pc).run m' = if m' = m then pc else s.run m' :=
  Function.update_apply s.run m pc m'

/-- The goroutine of a started module moves on. -/
theorem setRun (hs : Inv beh mods s) {m : DefaultModule} {pc : RunPc} {wg : DefaultModule → ℤ}
    (hfrom : s.run m ≠ .idle ∧ s.run m ≠ .ended) (hpc : pc ≠ .idle ∧ pc ≠ .running false)
    (hfits : pc.Fits (beh m)) (hwg : ∀ m', wg m' = ((s.setRun m pc).run m').count) :
    Inv beh mods { s.setRun m pc with wg := wg } :=
  { hs with
    idle := fun m' => by
      change (s.setRun m pc).run m' = .idle ↔ m' ∉ s.started
      rw [run_setRun]
      split
      · next heq =>
        rw [← hs.idle, heq]
        exact iff_of_false hpc.1 hfrom.1
      · exact hs.idle m'
    wg := hwg
    fits := fun m' => by
      change ((s.setRun m pc).run m').Fits _
      rw [run_setRun]
      split
      · next heq => exact heq ▸ hfits
      · exact hs.fits m'
    sent := fun m' rest hdestroy h => by
      change (s.setRun m pc).run m' = _ at h
      rw [run_setRun] at h
      split at h
      · exact absurd h hpc.2
      · exact hs.sent m' rest hdestroy h
    waited := fun m' rest hdestroy => by
      have hended := hs.waited m' rest hdestroy
      change (s.setRun m pc).run m' = _
      rw [run_setRun, if_neg]
      · exact hended
      · rintro rfl
        exact hfrom.2 hended
    destroyed := fun m' hm' => by
      have hended := hs.destroyed m' hm'
      change (s.setRun m pc).run m' = _
      rw [run_setRun, if_neg]
      · exact hended
      · rintro rfl
        exact hfrom.2 hended }

/-- The goroutine of a module moves on and stays counted. -/
theorem setRun_counted (hs : Inv beh mods s) {m : DefaultModule} {pc : RunPc}
    (hfrom : (s.run m).count = 1) (hcount : pc.count = 1) (hpc : pc ≠ .running false)
    (hfits : pc.Fits (beh m)) : Inv beh mods (s.setRun m pc) := by
  have hne : ∀ {q : RunPc}, q.count = 1 → q ≠ .idle ∧ q ≠ .ended := by
    rintro q hq
    constructor <;> rintro rfl <;> cases hq
  refine hs.setRun (hne hfrom) ⟨(hne hcount).1, hpc⟩ hfits fun m' => ?_
  rw [run_setRun]
  split
  · next heq => rw [hs.wg, heq, hfrom, hcount]
  · exact hs.wg m'

/-- The channel of a module changes whose signal is sent. -/
theorem setSig (hs : Inv beh mods s) {m : DefaultModule} {c : Chan Bool 1} (hopened : c.closed = false)
    (htodo : m ∉ s.destroy.todo mods) (hsent : s.run m = .running false → c.buf ≠ []) :
    Inv beh mods (s.setSig m c) := by
  have hsig : ∀ m', (s.setSig m c).closeSig m' = if m' = m then c else s.closeSig m' :=
    fun m' => Function.update_apply s.closeSig m c m'
  exact
    { hs with
      opened := fun m' => by
        rw [hsig]
        split
        · exact hopened
        · exact hs.opened m'
      unsent := fun m' hm' => by
        rw [hsig, if_neg]
        · exact hs.unsent m' hm'
        · rintro rfl
          exact htodo hm'
      sent := fun m' rest hdestroy hrun => by
        rw [hsig]
        split
        · next heq => exact hsent (heq ▸ hrun)
        · exact hs.sent m' rest hdestroy hrun }

theorem runStep (hs : Inv beh mods s) {m : DefaultModule} (h : RunStep beh s m (s.run m) s') :
    Inv beh mods s' := by
  generalize hpc : s.run m = pc at h
  cases h with
  | receive hrecv =>
    obtain ⟨hbuf, hclosed⟩ := Chan.recv_eq_value hrecv
    have htodo : m ∉ s.destroy.todo mods := fun hmem => by
      rw [hs.unsent m hmem] at hbuf
      cases hbuf
    have hs₁ : Inv beh mods (s.setRun m (.running true)) :=
      hs.setRun_counted (by rw [hpc]; rfl) rfl (by simp) trivial
    refine hs₁.setSig (hclosed.trans (hs.opened m)) htodo fun hrun => ?_
    rw [run_setRun, if_pos rfl] at hrun
    cases hrun
  | panics hpanics => exact hs.setRun_counted (by rw [hpc]; rfl) rfl (by simp) hpanics
  | returns hpanics => exact hs.setRun_counted (by rw [hpc]; rfl) rfl (by simp) hpanics
  | done =>
    have hfits : (beh m).panics = false := by
      have hfits := hs.fits m
      rwa [hpc] at hfits
    refine hs.setRun (by simp [hpc]) (by simp) hfits fun m' => ?_
    rw [run_setRun, Function.update_apply]
    split
    · rw [hs.wg, hpc]
      rfl
    · exact hs.wg m'

/-- `Init` starts the next module. -/
theorem start (hs : Inv beh mods s) (hmods : mods.Nodup) {m : DefaultModule} {toStart : List DefaultModule}
    (h : s.toStart = m :: toStart) :
    Inv beh mods { s.setRun m (.running false) with
      toStart := toStart, started := s.started ++ [m], wg := Function.update s.wg m (s.wg m + 1) } := by
  have hdestroy : s.destroy = .idle := by
    by_contra hne
    rw [hs.started hne] at h
    cases h
  have hsplit : s.started ++ [m] ++ toStart = mods := by
    rw [List.append_assoc, ← hs.split, h]
    rfl
  have hnew : m ∉ s.started := by
    intro hmem
    rw [← hs.split, h, List.nodup_append] at hmods
    exact hmods.2.2 m hmem m List.mem_cons_self rfl
  have hidle : s.run m = .idle := (hs.idle m).mpr hnew
  have hother : ∀ {m'}, s.run m' = .ended → m' ≠ m := by
    rintro m' hended rfl
    rw [hidle] at hended
    cases hended
  refine
    { hs with
      split := hsplit, started := fun hne => absurd hdestroy hne, idle := fun m' => ?_, wg := fun m' => ?_
      fits := fun m' => ?_, sent := fun m' rest h' => ?_, waited := fun m' rest h' => ?_
      destroyed := fun m' hm' => ?_ }
  · change (s.setRun m _).run m' = .idle ↔ _
    rw [run_setRun, List.mem_append, List.mem_singleton, not_or]
    split
    · next heq => exact iff_of_false (by simp) fun h => h.2 heq
    · next hne => rw [hs.idle, and_iff_left hne]
  · change Function.update s.wg m (s.wg m + 1) m' = ((s.setRun m _).run m').count
    rw [run_setRun, Function.update_apply]
    split
    · rw [hs.wg, hidle]
      rfl
    · exact hs.wg m'
  · change ((s.setRun m _).run m').Fits _
    rw [run_setRun]
    split
    · exact trivial
    · exact hs.fits m'
  · rw [show s.destroy = .sent m' rest from h'] at hdestroy
    cases hdestroy
  · rw [show s.destroy = .waited m' rest from h'] at hdestroy
    cases hdestroy
  · have hended := hs.destroyed m' hm'
    change (s.setRun m _).run m' = _
    rw [run_setRun, if_neg (hother hended)]
    exact hended

/-- The module that gets the signal next is not among those that get it later. -/
theorem head_not_mem (hs : Inv beh mods s) (hmods : mods.Nodup) {m : DefaultModule}
    {rest : List DefaultModule} (hpc : s.destroy = .next (m :: rest)) : m ∉ rest := by
  have horder := hs.order
  rw [hpc] at horder
  have hnodup : (m :: rest).Nodup := by
    refine List.Nodup.sublist ?_ (List.nodup_reverse.mpr hmods)
    rw [← horder]
    exact List.sublist_append_right _ _
  exact (List.nodup_cons.mp hnodup).1

/-- All modules are started, and only the group of one that is done is empty. -/
theorem ended_of_wg_eq_zero (hs : Inv beh mods s) {m : DefaultModule} {rest : List DefaultModule}
    (hpc : s.destroy = .sent m rest) (hzero : s.wg m = 0) : s.run m = .ended := by
  have hmem : m ∈ s.started := by
    have hstart := hs.started (by simp [hpc])
    rw [← List.append_nil s.started, ← hstart, hs.split, ← List.mem_reverse, ← hs.order]
    simp [DestroyPc.current, hpc]
  have hwg := hs.wg m
  rw [hzero] at hwg
  cases hrun : s.run m with
  | idle => exact absurd hmem ((hs.idle m).mp hrun)
  | ended => rfl
  | _ =>
    rw [hrun] at hwg
    cases hwg

/-- When `Init` has come to its end all modules are started. -/
theorem started_eq (hs : Inv beh mods s) (hstart : s.toStart = []) : s.started = mods := by
  rw [← hs.split, hstart, List.append_nil]

theorem destroyStep (hs : Inv beh mods s) (hmods : mods.Nodup) (h : DestroyStep s s.destroy s') :
    Inv beh mods s' := by
  have horder := hs.order
  have hunsent := hs.unsent
  generalize hpc : s.destroy = pc at h
  rw [hpc] at horder hunsent
  cases h with
  | start hstart =>
    have hall : s.started = mods := hs.started_eq hstart
    exact
      { hs with
        started := fun _ => hstart
        order := by
          rw [hall]
          exact horder
        unsent := by
          rw [hall]
          exact hunsent
        sent := nofun
        waited := nofun }
  | @send m rest c hsend =>
    obtain ⟨-, hbuf, hopened⟩ := Chan.send_eq_ok hsend
    have hnew : m ∉ rest := hs.head_not_mem hmods hpc
    have hsig : ∀ m', (s.setSig m c).closeSig m' = if m' = m then c else s.closeSig m' :=
      fun m' => Function.update_apply s.closeSig m c m'
    refine
      { hs with
        started := fun _ => hs.started (by simp [hpc])
        opened := fun m' => ?_, order := horder, unsent := fun m' hm' => ?_
        sent := fun m' rest' h' _ => ?_, waited := nofun }
    · change ((s.setSig m c).closeSig m').closed = false
      rw [hsig]
      split
      · exact hopened
      · exact hs.opened m'
    · change ((s.setSig m c).closeSig m').buf = []
      rw [hsig, if_neg]
      · exact hunsent m' (List.mem_cons_of_mem m hm')
      · rintro rfl
        exact hnew hm'
    · cases h'
      change ((s.setSig m c).closeSig m).buf ≠ []
      rw [hsig, if_pos rfl, hbuf]
      simp
  | wait hzero =>
    refine
      { hs with
        started := fun _ => hs.started (by simp [hpc])
        order := horder, unsent := hunsent
        sent := nofun, waited := fun m' rest' h' => ?_ }
    cases h'
    exact hs.ended_of_wg_eq_zero hpc hzero
  | @onDestroy m rest =>
    refine
      { hs with
        started := fun _ => hs.started (by simp [hpc])
        order := ?_, unsent := hunsent
        sent := nofun, waited := nofun
        destroyed := fun m' hm' => ?_ }
    · rw [← horder, List.append_assoc]
      rfl
    · rcases List.mem_append.mp hm' with hm' | hm'
      · exact hs.destroyed m' hm'
      · rw [List.mem_singleton.mp hm']
        exact hs.waited m rest hpc

theorem step {a : Act} (hs : Inv beh mods s) (hmods : mods.Nodup) (h : step beh s a = some s') :
    Inv beh mods s' := by
  cases a with
  | start =>
    unfold Module.step at h
    dsimp only at h
    split at h
    · cases h
    · next hstart =>
      obtain rfl := Option.some.inj h
      exact hs.start hmods hstart
  | run m a => exact hs.runStep (runStep_eq_some h)
  | destroy => exact hs.destroyStep hmods (destroyStep_eq_some h)

end Inv

/-! ## The work that is left -/

/-- How many steps the goroutine has at most. -/
def RunPc.work : RunPc → ℕ
  | .idle => 4
  | .running false => 3
  | .running true => 2
  | .returned => 1
  | .ended | .panicked => 0

/-- How many steps `Destroy` has. -/
def DestroyPc.work (mods : List DefaultModule) : DestroyPc → ℕ
  | .idle => 3 * mods.length + 1
  | .next rest => 3 * rest.length
  | .sent _ rest => 3 * rest.length + 2
  | .waited _ rest => 3 * rest.length + 1

def State.work (mods : List DefaultModule) (s : State) : ℕ :=
  ∑ m ∈ mods.toFinset, (s.run m).work + s.destroy.work mods

/-- A step of one goroutine. -/
theorem State.work_lt {s s' : State} {m : DefaultModule} {pc : RunPc} (hm : m ∈ mods)
    (hrun : s'.run = (s.setRun m pc).run) (hdestroy : s'.destroy = s.destroy)
    (hlt : pc.work < (s.run m).work) : s'.work mods < s.work mods := by
  unfold State.work
  rw [hdestroy, hrun]
  refine Nat.add_lt_add_right (Finset.sum_lt_sum (fun m' _ => ?_) ⟨m, List.mem_toFinset.mpr hm, ?_⟩) _
  · rw [Inv.run_setRun]
    split
    · next heq => exact heq ▸ hlt.le
    · exact le_rfl
  · rw [Inv.run_setRun, if_pos rfl]
    exact hlt

/-- A step of `Destroy`. -/
theorem State.work_lt_destroy {s s' : State} (hrun : s'.run = s.run)
    (hlt : s'.destroy.work mods < s.destroy.work mods) : s'.work mods < s.work mods := by
  unfold State.work
  rw [hrun]
  exact Nat.add_lt_add_left hlt _

namespace Inv

variable {s s' : State}

/-- A module that is not idle is one of those that `Init` starts. -/
theorem mem_of_run (hs : Inv beh mods s) {m : DefaultModule} (h : s.run m ≠ .idle) : m ∈ mods := by
  rw [← hs.split]
  exact List.mem_append_left _ (not_not.mp (mt (hs.idle m).mpr h))

theorem runStep_work (hs : Inv beh mods s) {m : DefaultModule} (h : RunStep beh s m (s.run m) s') :
    s'.work mods < s.work mods := by
  generalize hpc : s.run m = pc at h
  have hm : pc ≠ .idle → m ∈ mods := fun hne => hs.mem_of_run (hpc ▸ hne)
  cases h with
  | receive => exact State.work_lt (hm (by simp)) rfl rfl (by rw [hpc]; decide)
  | @panics signalled => exact State.work_lt (hm (by simp)) rfl rfl (by rw [hpc]; cases signalled <;> decide)
  | @returns signalled => exact State.work_lt (hm (by simp)) rfl rfl (by rw [hpc]; cases signalled <;> decide)
  | done => exact State.work_lt (hm (by simp)) rfl rfl (by rw [hpc]; decide)

theorem destroyStep_work (hs : Inv beh mods s) (h : DestroyStep s s.destroy s') :
    s'.work mods < s.work mods := by
  generalize hpc : s.destroy = pc at h
  cases h with
  | start hstart =>
    refine State.work_lt_destroy rfl ?_
    rw [hpc, hs.started_eq hstart]
    simp only [DestroyPc.work, List.length_reverse]
    exact Nat.lt_succ_self _
  | send =>
    refine State.work_lt_destroy rfl ?_
    rw [hpc]
    simp only [DestroyPc.work, List.length_cons]
    omega
  | wait | onDestroy =>
    refine State.work_lt_destroy rfl ?_
    rw [hpc]
    exact Nat.lt_succ_self _

theorem step_work (hs : Inv beh mods s) (hmods : mods.Nodup) {a : Act} (h : Module.step beh s a = some s') :
    s'.work mods < s.work mods := by
  cases a with
  | start =>
    unfold Module.step at h
    dsimp only at h
    split at h
    · cases h
    · next m toStart hstart =>
      obtain rfl := Option.some.inj h
      have hm : m ∈ mods := by
        rw [← hs.split, hstart]
        exact List.mem_append_right _ List.mem_cons_self
      have hidle : s.run m = .idle := by
        rw [hs.idle]
        intro hmem
        rw [← hs.split, hstart, List.nodup_append] at hmods
        exact hmods.2.2 m hmem m List.mem_cons_self rfl
      exact State.work_lt hm rfl rfl (by rw [hidle]; decide)
  | run m a => exact hs.runStep_work (runStep_eq_some h)
  | destroy => exact hs.destroyStep_work (destroyStep_eq_some h)

/-! ## Final states -/

/-- In a final state the goroutine of a started module is over, or it waits for the signal. -/
theorem run_of_final (hfinal : Final (Module.step beh) s) {m : DefaultModule} (hm : s.run m ≠ .idle) :
    (s.run m).Over ∨ (s.run m = .running false ∧ (s.closeSig m).buf = []) := by
  have hstuck : ∀ a, Module.runStep beh s m (s.run m) a = none := fun a => hfinal (.run m a)
  cases hrun : s.run m with
  | idle => exact absurd hrun hm
  | ended => exact .inl (.inl rfl)
  | panicked => exact .inl (.inr rfl)
  | returned =>
    have h := hstuck .done
    rw [hrun] at h
    cases h
  | running signalled =>
    have hfinish := hstuck .finish
    rw [hrun] at hfinish
    have hblocked : ((beh m).waits && !signalled) = true := by
      by_contra hnot
      unfold Module.runStep at hfinish
      cases signalled <;>
      · dsimp only at hfinish
        rw [if_neg hnot] at hfinish
        cases hfinish
    obtain ⟨hwaits, hsignalled⟩ := Bool.and_eq_true_iff.mp hblocked
    obtain rfl : signalled = false := by simpa using hsignalled
    refine .inr ⟨rfl, ?_⟩
    by_contra hbuf
    obtain ⟨b, c, hrecv⟩ := Chan.recv_of_ne_nil hbuf
    have hreceive := hstuck .receive
    rw [hrun] at hreceive
    unfold Module.runStep at hreceive
    dsimp only at hreceive
    rw [hwaits, hrecv] at hreceive
    cases hreceive

/-- In a final state `Destroy` is at its end, or it waits for a module that has panicked. -/
theorem destroy_of_final (hs : Inv beh mods s) (hfinal : Final (Module.step beh) s) :
    s.destroy = .next [] ∨ ∃ m ∈ mods, s.run m = .panicked := by
  have hdestroy : Module.destroyStep s s.destroy = none := hfinal .destroy
  unfold Module.destroyStep at hdestroy
  split at hdestroy
  · next hpc =>
    split at hdestroy
    · cases hdestroy
    · next hstart =>
      have h := hfinal .start
      unfold Module.step at h
      dsimp only at h
      split at h
      · next hnil => exact absurd hnil hstart
      · cases h
  · next hpc => exact .inl hpc
  · next m rest hpc =>
    have hbuf : (s.closeSig m).buf = [] := hs.unsent m (by rw [hpc]; exact List.mem_cons_self)
    obtain ⟨c, hsend⟩ := Chan.send_of_nil true (hs.opened m) hbuf
    rw [hsend] at hdestroy
    cases hdestroy
  · next m rest hpc =>
    split at hdestroy
    · cases hdestroy
    · next hwg =>
      rw [hs.wg] at hwg
      have hidle : s.run m ≠ .idle := by
        intro hidle
        rw [hidle] at hwg
        exact hwg rfl
      rcases run_of_final hfinal hidle with (hended | hpanicked) | ⟨hrun, hbuf⟩
      · rw [hended] at hwg
        exact absurd rfl hwg
      · exact .inr ⟨m, hs.mem_of_run hidle, hpanicked⟩
      · exact absurd hbuf (hs.sent m rest hpc hrun)
  · cases hdestroy

/-- When all modules were destroyed none of them has panicked. -/
theorem not_panics_of_destroyed (hs : Inv beh mods s) (h : s.destroyed = mods.reverse) {m : DefaultModule}
    (hm : m ∈ mods) : (beh m).panics = false := by
  have hended : s.run m = .ended := hs.destroyed m (h ▸ List.mem_reverse.mpr hm)
  have hfits := hs.fits m
  rwa [hended] at hfits

end Inv

/-! ## Every run -/

/-- The group of a module whose goroutine has ended is empty, and when nothing can happen any more,
`OnDestroy` was called for each module once, in the reverse order. -/
structure Orderly (beh : DefaultModule → Behaviour) (mods : List DefaultModule) (s : State) : Prop where
  balanced : ∀ m ∈ mods, (s.run m).Over → s.wg m = 0
  destroyed : Final (step beh) s → s.destroyed = mods.reverse

theorem Inv.orderly {s : State} (hs : Inv beh mods s) (h : ∀ m ∈ mods, (beh m).panics = false) :
    Orderly beh mods s := by
  have hnot : ∀ m ∈ mods, s.run m ≠ .panicked := by
    intro m hm hpanicked
    have hfits := hs.fits m
    rw [hpanicked] at hfits
    have hpanics : (beh m).panics = true := hfits
    rw [h m hm] at hpanics
    cases hpanics
  refine ⟨fun m hm hover => ?_, fun hfinal => ?_⟩
  · rcases hover with hended | hpanicked
    · rw [hs.wg, hended]
      rfl
    · exact absurd hpanicked (hnot m hm)
  · rcases hs.destroy_of_final hfinal with hdestroy | ⟨m, hm, hpanicked⟩
    · have horder := hs.order
      rw [hdestroy] at horder
      simpa [DestroyPc.current, DestroyPc.todo] using horder
    · exact absurd hpanicked (hnot m hm)

/-- **Orderly teardown**: for the modules that `Init` starts and every behaviour of their `Run`, all runs
come to an end, and they are orderly if and only if no `Run` panics. -/
theorem teardown_orderly_iff (mer : ModuleManager) (settings : Settings) (processID : String)
    (mods : List DefaultModule) (hinit : mer.init settings processID = .ok mods)
    (beh : DefaultModule → Behaviour) :
    (∃ n, ∀ as s, run (step beh) (.init mods) as = some s → as.length ≤ n) ∧
    ((∀ as s, run (step beh) (.init mods) as = some s → Orderly beh mods s) ↔
      ∀ m ∈ mods, (beh m).panics = false) := by
  have hmods : mods.Nodup := mer.init_nodup hinit
  have hstep : ∀ s a s', Inv beh mods s → step beh s a = some s' →
      Inv beh mods s' ∧ s'.work mods < s.work mods :=
    fun s a s' hs h => ⟨hs.step hmods h, hs.step_work hmods h⟩
  have hinv : ∀ as s, run (step beh) (.init mods) as = some s → Inv beh mods s := fun as s hrun =>
    reachable_invariant inv_init (fun s a s' hs h => (hstep s a s' hs h).1) ⟨as, hrun⟩
  refine ⟨⟨_, fun as s hrun => run_length_le hstep inv_init hrun⟩, fun h m hm => ?_, fun h as s hrun => ?_⟩
  · obtain ⟨as, s, hrun, hfinal⟩ := exists_final hstep (inv_init : Inv beh mods (.init mods))
    exact (hinv as s hrun).not_panics_of_destroyed ((h as s hrun).destroyed hfinal) hm
  · exact (hinv as s hrun).orderly h

/-! The timer and a module of the configuration, in one process. -/

def sampleManager : ModuleManager := (ModuleManager.new.registerRunMod "Timer").register "Gate"

def sampleSettings : Settings := AList.singleton "Gate" [⟨"Gate001", "development"⟩]

def sampleMods : List DefaultModule := [⟨0, "Timer"⟩, ⟨1, "Gate"⟩]

theorem teardown_orderly_iff_sample :
    sampleManager.init sampleSettings "development" = .ok sampleMods ∧
    ∀ as s, run (step fun _ => ⟨true, false⟩) (.init sampleMods) as = some s →
      Orderly (fun _ => ⟨true, false⟩) sampleMods s :=
  ⟨rfl, (teardown_orderly_iff sampleManager sampleSettings "development" sampleMods rfl fun _ =>
    ⟨true, false⟩).2.mpr fun _ _ => rfl⟩

/-- `Run` of the gate panics. -/
def panicRun : List Act :=
  [.start, .start, .run ⟨1, "Gate"⟩ .finish, .destroy, .destroy]

/-- Its goroutine has ended, its group is not empty, and `Destroy` waits for it. -/
theorem not_orderly_panicRun :
    ∃ s, run (step fun m => ⟨m.type = "Timer", m.type = "Gate"⟩) (.init sampleMods) panicRun = some s ∧
      s.run ⟨1, "Gate"⟩ = .panicked ∧ s.wg ⟨1, "Gate"⟩ = 1 ∧
      step (fun m => ⟨m.type = "Timer", m.type = "Gate"⟩) s .destroy = none ∧
      ¬ Orderly (fun m => ⟨m.type = "Timer", m.type = "Gate"⟩) sampleMods s := by
  refine ⟨_, rfl, rfl, rfl, rfl, fun h => ?_⟩
  have hwg := h.balanced ⟨1, "Gate"⟩ (List.mem_cons_of_mem _ List.mem_cons_self) (.inr rfl)
  cases hwg

end Vmqant.Module
