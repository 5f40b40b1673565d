import Vmqant.Gate.Mqtt.WaitPack
import Vmqant.Gate.OneAnswer

/-!
# The read loop of an agent

The agent is the receiver of the packs of its client: `OnRecover` starts a worker for a pack while there is
room in the work queue, and answers itself when there is none. The answer needs the topic of a PUBLISH, but
three other kinds of packs are handed on as well. So the loop panics, and ends without setting `isStop`,
exactly when one of them comes while the queue is full.

A worker runs to its end in one step. What the agent uses may answer each time in another way, so the step
of a worker has an agent of its own; a panic of its deferred function ends the process, and with it the
run.
-/

namespace Vmqant.BaseGate

open Mqtt Lts

variable {α υ ι : Type}

/-- For an error, the app gives a packet. -/
def App.ReportsErrors (app : App ι) : Prop :=
  ∀ trace error, (app.protocolMarshal trace .nil error).1.isSome = true

/-- The state of an agent, and the packs of the workers that are running. -/
structure Workers where
  agent : AgentState
  running : List Pack

namespace MqttAgent

/-- The branch of `OnRecover` for an error of `Wait`. -/
def overload (age : MqttAgent α υ ι) (pack : Pack) (err : String) : Prog AgentState Unit := do
  let (topic, _) ← .lift (publish pack)
  age.toResult topic .nil (goString err)

/-- `OnRecover`. -/
def startWorker (age : MqttAgent α υ ι) (pack : Pack) : Prog Workers Unit := fun s =>
  match age.wait s.agent with
  | (.ok (some err), agent) =>
    let (r, agent) := age.overload pack err agent
    (r, { s with agent := agent })
  | (.ok none, agent) => (.ok (), { agent := agent, running := s.running ++ [pack] })
  | (.error v, agent) => (.error v, { s with agent := agent })

/-- A worker runs to its end. -/
def endWorker (s : Workers) : ℕ × MqttAgent α υ ι → Option Workers := fun (i, age) =>
  match s.running[i]? with
  | none => none
  | some pack =>
    match age.recoverworker pack s.agent with
    | (.ok (), agent) => some { agent := agent, running := s.running.eraseIdx i }
    | (.error _, _) => none

/-- The agent as the receiver of the packs of its client. -/
def packRecover (age : MqttAgent α υ ι) : PackRecover Workers (ℕ × MqttAgent α υ ι) where
  onRecover := age.startWorker
  go := endWorker

/-! ## `OnRecover` -/

/-- A pack that is handed on was read, and is of a kind that is handed on. -/
def Receivable : Mqtt.Call → Prop
  | .onRecover pack => Decoded pack ∧ pack.msgType ∈ Client.handedOn
  | .setAlive _ | .writePack _ => True

/-- The kinds of packs that are handed on beside PUBLISH. -/
def otherKinds : List UInt8 := [SUBSCRIBE, UNSUBSCRIBE, PINGREQ]

variable {age : MqttAgent α υ ι} {pack : Pack} {s : Workers}

theorem publish_of_decoded (hp : Decoded pack) (htype : pack.msgType = PUBLISH) :
    ∃ topic msg, publish pack = .ok (topic, msg) := by
  have hnot : ∀ {t : UInt8}, pack.msgType = t → t ≠ PUBLISH → False := fun ht hne =>
    hne (ht.symm.trans htype)
  cases hp with
  | publish _ pub hvar topic htopic =>
    refine ⟨topic, pub.msg, ?_⟩
    rw [publish, hvar]
    dsimp only
    rw [htopic]
  | connect ht => exact (hnot ht (by decide)).elim
  | puback ht => exact (hnot ht (by decide)).elim
  | pubrec ht => exact (hnot ht (by decide)).elim
  | pubrel ht => exact (hnot ht (by decide)).elim
  | pubcomp ht => exact (hnot ht (by decide)).elim
  | subscribe ht => exact (hnot ht (by decide)).elim
  | unsubscribe ht => exact (hnot ht (by decide)).elim
  | pingreq ht => exact (hnot ht (by decide)).elim
  | other ht => exact absurd (htype ▸ by decide) ht

theorem publish_of_otherKinds (hp : Decoded pack) (htype : pack.msgType ∈ otherKinds) :
    ∃ v, publish pack = .error v := by
  have hnot : ∀ {t : UInt8}, pack.msgType = t → t ∉ otherKinds → False := fun ht hne =>
    hne (ht ▸ htype)
  cases hp with
  | subscribe _ sub hvar =>
    rw [publish, hvar]
    exact ⟨_, rfl⟩
  | unsubscribe _ sub hvar =>
    rw [publish, hvar]
    exact ⟨_, rfl⟩
  | pingreq _ hvar =>
    rw [publish, hvar]
    exact ⟨_, rfl⟩
  | publish ht => exact (hnot ht (by decide)).elim
  | connect ht => exact (hnot ht (by decide)).elim
  | puback ht => exact (hnot ht (by decide)).elim
  | pubrec ht => exact (hnot ht (by decide)).elim
  | pubrel ht => exact (hnot ht (by decide)).elim
  | pubcomp ht => exact (hnot ht (by decide)).elim
  | other ht =>
    refine absurd ?_ ht
    simp only [otherKinds, waitTypes, List.mem_cons] at htype ⊢
    tauto

/-- `OnRecover` returns while there is room in the queue. -/
theorem startWorker_of_lt (hqueue : s.agent.queue < age.concurrentTasks) :
    ∃ s', age.startWorker pack s = (.ok (), s') := by
  have hwait : age.wait s.agent = (.ok none, { s.agent with queue := s.agent.queue + 1 }) :=
    if_pos hqueue
  unfold startWorker
  rw [hwait]
  exact ⟨_, rfl⟩

/-- There is no room, and the agent answers itself. -/
theorem startWorker_of_full (hqueue : ¬ s.agent.queue < age.concurrentTasks) :
    age.startWorker pack s
      = ((age.overload pack "the work queue is full!" s.agent).1,
        { s with agent := (age.overload pack "the work queue is full!" s.agent).2 }) := by
  have hwait : age.wait s.agent = (.ok (some "the work queue is full!"), s.agent) := if_neg hqueue
  unfold startWorker
  rw [hwait]

/-- `onRecover` is what happens when the worker runs at once. -/
theorem onRecover_eq_endWorker (hqueue : s.agent.queue < age.concurrentTasks) {s₁ s₂ : Workers}
    (hstart : age.startWorker pack s = (.ok (), s₁))
    (hend : endWorker s₁ (s.running.length, age) = some s₂) :
    age.onRecover pack s.agent = (.ok (), s₂.agent) ∧ s₂.running = s.running := by
  have hwait : age.wait s.agent = (.ok none, { s.agent with queue := s.agent.queue + 1 }) :=
    if_pos hqueue
  unfold startWorker at hstart
  rw [hwait] at hstart
  obtain rfl := (Prod.mk.inj hstart).2
  have hpack : (s.running ++ [pack])[s.running.length]? = some pack := by simp
  unfold endWorker at hend
  dsimp only at hend
  rw [hpack] at hend
  dsimp only at hend
  split at hend
  · next agent hworker =>
    obtain rfl := Option.some.inj hend
    rw [onRecover_of_lt hqueue]
    refine ⟨hworker, ?_⟩
    simp [List.eraseIdx_append_of_length_le]
  · cases hend

theorem toResult_returns (happ : age.app.ReportsErrors) (topic error : GoString) :
    (age.toResult topic .nil error).Ends (.ok ()) fun _ _ => True := by
  have hwrite : ∀ body, (writeMsg topic body).Ends (.ok ()) fun _ _ => True := fun _ _ => ⟨rfl, trivial⟩
  unfold toResult
  dsimp only
  split
  · exact hwrite _
  · exact (Prog.Ends.pure ()).mono fun _ _ _ => trivial
  · next err _ _ _ =>
    split
    · exact hwrite _
    · next hnone =>
      have hsome := happ age.session.session.traceId err
      rw [hnone] at hsome
      cases hsome

/-- There is no room, and a PUBLISH is answered. -/
theorem startWorker_publish (happ : age.app.ReportsErrors) (hqueue : ¬ s.agent.queue < age.concurrentTasks)
    (hp : Decoded pack) (htype : pack.msgType = PUBLISH) :
    ∃ s', age.startWorker pack s = (.ok (), s') := by
  obtain ⟨topic, msg, hpublish⟩ := publish_of_decoded hp htype
  have hoverload : (age.overload pack "the work queue is full!" s.agent).1 = .ok () := by
    unfold overload
    rw [hpublish]
    exact (toResult_returns happ topic _ s.agent).1
  rw [startWorker_of_full hqueue, hoverload]
  exact ⟨_, rfl⟩

/-- There is no room, and the assertion fails. -/
theorem startWorker_otherKinds (hqueue : ¬ s.agent.queue < age.concurrentTasks) (hp : Decoded pack)
    (htype : pack.msgType ∈ otherKinds) : ∃ v s', age.startWorker pack s = (.error v, s') := by
  obtain ⟨v, hpublish⟩ := publish_of_otherKinds hp htype
  have hoverload : (age.overload pack "the work queue is full!" s.agent).1 = .error v := by
    unfold overload
    rw [hpublish]
    rfl
  rw [startWorker_of_full hqueue, hoverload]
  exact ⟨v, _, rfl⟩

end MqttAgent

/-! ## The loop -/

/-- A pack that is no PUBLISH is about to be handed on, and there is no room in the queue. -/
def MqttAgent.Overloads (age : MqttAgent α υ ι) (s : Client.State Workers) : Prop :=
  ∃ pack next, s.pc = .waiting (.call (.onRecover pack) next) ∧ pack.msgType ∈ MqttAgent.otherKinds ∧
    age.concurrentTasks ≤ s.recover.agent.queue

/-- The loop has not panicked, and `isStop` is set when it has ended. -/
structure Unharmed (s : Client.State Workers) : Prop where
  no_panic : s.pc ≠ .recovered
  stopped : s.pc.Ended → s.isStop = true

/-- The loop is unharmed, and hands on what can be received. -/
structure Alive (s : Client.State Workers) : Prop extends Unharmed s where
  waiting : ∀ rest, s.pc = .waiting rest → rest.All MqttAgent.Receivable

namespace Alive

variable {s s' : Client.State Workers}

theorem init (input : List UInt8) (w : Workers) : Alive (Client.State.init input w) where
  no_panic := by simp [Client.State.init]
  stopped := False.elim
  waiting := by simp [Client.State.init]

/-- The loop goes on outside of `waitPack`. -/
theorem move (hpc : ∀ rest, s'.pc ≠ .waiting rest) (hended : ¬ s'.pc.Ended) : Alive s' where
  no_panic := fun h => hended (h ▸ trivial)
  stopped := fun h => absurd h hended
  waiting := fun rest h => absurd h (hpc rest)

/-- The loop is in `waitPack`. -/
theorem wait {rest : Script Mqtt.Call Mqtt.Call.Result (Option String)} (hpc : s'.pc = .waiting rest)
    (hrest : rest.All MqttAgent.Receivable) : Alive s' where
  no_panic := by simp [hpc]
  stopped := fun h => by
    rw [hpc] at h
    exact h.elim
  waiting := fun rest' h => ListenPc.waiting.inj (hpc.symm.trans h) ▸ hrest

/-- Others do what they do. -/
theorem frame (hs : Alive s) (hpc : s'.pc = s.pc) (hstop : s'.isStop = s.isStop) : Alive s' where
  no_panic := hpc ▸ hs.no_panic
  stopped := by
    rw [hpc, hstop]
    exact hs.stopped
  waiting := hpc ▸ hs.waiting

end Alive

section Loop

variable {age : MqttAgent α υ ι} {maxPackSize : ℤ} {s s' : Client.State Workers}

/-- `OnRecover` panics only for another kind of pack and a full queue. -/
theorem overloads_of_panic (happ : age.app.ReportsErrors) {pack : Pack}
    {next : Unit → Script Mqtt.Call Mqtt.Call.Result (Option String)}
    (hpc : s.pc = .waiting (.call (.onRecover pack) next))
    (hpack : MqttAgent.Receivable (.onRecover pack)) {v : PanicValue} {w : Workers}
    (hpanic : age.startWorker pack s.recover = (.error v, w)) : age.Overloads s := by
  have hok : ¬ ∃ w', age.startWorker pack s.recover = (.ok (), w') := by
    rintro ⟨w', h⟩
    cases hpanic.symm.trans h
  have hfull : ¬ s.recover.agent.queue < age.concurrentTasks := fun hlt =>
    hok (MqttAgent.startWorker_of_lt hlt)
  have hother : pack.msgType ∈ MqttAgent.otherKinds := by
    rcases List.mem_cons.mp hpack.2 with htype | htype
    · exact (hok (MqttAgent.startWorker_publish happ hfull hpack.1 htype)).elim
    · exact htype
  exact ⟨pack, next, hpc, hother, not_lt.mp hfull⟩

theorem alive_listen (happ : age.app.ReportsErrors) {err : Option String} (hs : Alive s)
    (hload : ¬ age.Overloads s)
    (h : Client.ListenStep age.packRecover maxPackSize s err s.pc s') : Alive s' := by
  generalize hpc : s.pc = pc at h
  have hwait : ∀ {k : Mqtt.Call} {next : k.Result → Script Mqtt.Call Mqtt.Call.Result (Option String)},
      pc = .waiting (.call k next) → MqttAgent.Receivable k ∧
        ∀ r, (next r).All MqttAgent.Receivable := fun h => hs.waiting _ (hpc.trans h)
  cases h with
  | check hpc' =>
    rcases hpc' with rfl | rfl
    · exact .move (by simp) id
    · exact .move (by simp) id
  | read hread =>
    have hp := readPack_decoded hread
    obtain ⟨packs, hpacks⟩ := Client.handles_decoded hp
    refine .wait rfl (hpacks.all.mono fun k hk => ?_)
    cases k with
    | onRecover q =>
      obtain ⟨rfl, htype⟩ := hk
      exact ⟨hp, htype⟩
    | setAlive alive => trivial
    | writePack q => trivial
  | readError rest => exact .move (by simp) id
  | done => exact .move (by simp) id
  | failed e => exact .move (by simp) id
  | setAlive alive next => exact .wait rfl ((hwait rfl).2 ())
  | write pack next => exact .wait rfl ((hwait rfl).2 err)
  | handOn pack next hrecover => exact .wait rfl ((hwait rfl).2 ())
  | handOnPanic pack next hrecover =>
    exact absurd (overloads_of_panic happ hpc (hwait rfl).1 hrecover) hload
  | panic v => exact (hs.waiting _ hpc).elim
  | stop =>
    exact
      { no_panic := by simp
        stopped := fun _ => rfl
        waiting := by simp }

theorem alive_step (happ : age.app.ReportsErrors) {a : Client.Act (ℕ × MqttAgent α υ ι)} (hs : Alive s)
    (hload : ∀ err, a = .listen err → ¬ age.Overloads s)
    (h : Client.step age.packRecover maxPackSize s a = some s') : Alive s' := by
  rcases Client.step_eq_some h with ⟨err, ha, hlisten⟩ | ⟨-, hother⟩
  · exact alive_listen happ hs (hload err ha) hlisten
  · cases hother with
    | readError hpc => exact .move (by simp) id
    | close => exact hs.frame rfl rfl
    | go r => exact hs.frame rfl rfl

/-- The loop is lost where the queue is full for another kind of pack. -/
theorem recovered_of_overloads {err : Option String} (hs : Alive s) (hload : age.Overloads s)
    (h : Client.step age.packRecover maxPackSize s (.listen err) = some s') : s'.pc = .recovered := by
  obtain ⟨pack, next, hpc, htype, hfull⟩ := hload
  have hpack : MqttAgent.Receivable (.onRecover pack) := (hs.waiting _ hpc).1
  obtain ⟨v, w, hpanic⟩ := MqttAgent.startWorker_otherKinds (not_lt.mpr hfull) hpack.1 htype
  have hrecover : age.packRecover.onRecover pack s.recover = (.error v, w) := hpanic
  rw [Client.step, hpc, Client.listenStep, Client.callStep, hrecover] at h
  obtain rfl := Option.some.inj h
  rfl

/-- It does not come back. -/
theorem recovered_step {a : Client.Act (ℕ × MqttAgent α υ ι)} (hs : s.pc = .recovered)
    (h : Client.step age.packRecover maxPackSize s a = some s') : s'.pc = .recovered := by
  rcases Client.step_eq_some h with ⟨err, -, hlisten⟩ | ⟨-, hother⟩
  · rw [hs] at hlisten
    cases hlisten
  · cases hother with
    | readError hpc => cases hs.symm.trans hpc
    | close => exact hs
    | go r => exact hs

end Loop

/-- **The read loop and a full queue.** Over all that a client sends and all interleavings with the workers,
the loop is unharmed exactly when no SUBSCRIBE, UNSUBSCRIBE or PINGREQ was handed on while the work queue was
full. -/
theorem unharmed_iff (age : MqttAgent α υ ι) (happ : age.app.ReportsErrors) (maxPackSize : ℤ)
    (input : List UInt8) (w : Workers) {as : List (Client.Act (ℕ × MqttAgent α υ ι))}
    {s : Client.State Workers}
    (hrun : run (Client.step age.packRecover maxPackSize) (.init input w) as = some s) :
    Unharmed s ↔ Along (Client.step age.packRecover maxPackSize)
      (fun s a => ∀ err, a = .listen err → ¬ age.Overloads s) (.init input w) as := by
  have hcases := run_along_or (P := Alive) (Q := fun s => s.pc = .recovered)
    (fun _ _ _ hs hload h => alive_step happ hs hload h)
    (fun s a s' hs hload h => by
      obtain ⟨err, rfl, hover⟩ : ∃ err, a = .listen err ∧ age.Overloads s := by
        simpa using hload
      exact recovered_of_overloads hs hover h)
    (fun _ _ _ hs h => recovered_step hs h) (Alive.init input w) hrun
  rcases hcases with ⟨halong, hs⟩ | ⟨halong, hpc⟩
  · exact iff_of_true hs.toUnharmed halong
  · exact iff_of_false (fun hs => hs.no_panic hpc) halong

/-! A client with one place in its queue sends two PINGREQ. -/

def twoPings : List UInt8 := [0xc0, 0, 0xc0, 0]

/-- The worker of the first one has ended when the second one comes. -/
def pingRun : List (Client.Act (ℕ × MqttAgent Unit Unit Unit)) :=
  List.replicate 5 (.listen none) ++ .go (0, MqttAgent.sampleAgent) :: List.replicate 5 (.listen none)

theorem unharmed_pingRun :
    Along (Client.step MqttAgent.sampleAgent.packRecover 65535)
      (fun s a => ∀ err, a = .listen err → ¬ MqttAgent.sampleAgent.Overloads s)
      (.init twoPings ⟨MqttAgent.sampleState, []⟩) pingRun :=
  (unharmed_iff MqttAgent.sampleAgent MqttAgent.lawful_sampleAgent.fallback 65535 twoPings
    ⟨MqttAgent.sampleState, []⟩ rfl).mp ⟨by simp, False.elim⟩

/-- The worker of the first one is running when the second one comes. -/
theorem harmed_twoPings :
    ∃ s, run (Client.step MqttAgent.sampleAgent.packRecover 65535)
        (.init twoPings ⟨MqttAgent.sampleState, []⟩) (List.replicate 9 (.listen none)) = some s ∧
      s.received = [{ msgType := PINGREQ }, { msgType := PINGREQ }] ∧ s.pc = .recovered ∧
      s.isStop = false ∧ ¬ Unharmed s :=
  ⟨_, rfl, rfl, rfl, rfl, fun h => h.no_panic rfl⟩

end Vmqant.BaseGate
