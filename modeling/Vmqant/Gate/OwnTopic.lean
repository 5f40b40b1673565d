import Vmqant.Gate.URIRoute

/-!
# Requests and their topics

`OnRoute` sets the topic of the connection's session first. A call without a bean is given a clone, whose
topic is set again, but a call with a bean is given the session itself. So its topic is that of the request
exactly when the last `SetTopic` before was one with this topic: when no other request has come in between
with another one.
-/

namespace Vmqant.BaseGate

namespace URIRoute

open Mqtt (GoString)
open Lts

variable {α υ ι σ β κ : Type}

/-! ## The calls of a request -/

/-- The topics in the calls of a request with the topic `topic`. -/
def Fits (topic : GoString) : RouteCall α υ σ β → Prop
  | .setTopic t => t = topic
  | .serializable s => s.session.topic = topic
  | _ => True

section Fits

variable {u : URIRoute} {topic : GoString}

theorem params_fits (bean : β) : (params bean : Route α υ ι σ β _).All (Fits topic) := by
  refine ⟨trivial, fun b => ?_⟩
  cases b with
  | error err => trivial
  | ok b =>
    refine ⟨trivial, fun b' => ?_⟩
    cases b' with
    | error err => trivial
    | ok b' => trivial

theorem beanCall_fits (needreturn : Bool) (server : σ) (fn : GoString) (bean : β) :
    (beanCall needreturn server fn bean : Route α υ ι σ β _).All (Fits topic) := by
  unfold beanCall call callNR
  split
  · refine Script.All.bind (Script.All.bind (params_fits bean) fun r => ?_) fun _ => trivial
    cases r with
    | error err => trivial
    | ok r => exact .perform trivial
  · refine Script.All.bind (Script.All.bind (params_fits bean) fun r => ?_) fun _ => trivial
    cases r with
    | error err => trivial
    | ok r => exact .perform trivial

theorem argsCall_fits (needreturn : Bool) (server : σ) (fn : GoString) (msg : List UInt8) :
    (u.argsCall needreturn server fn topic msg : Route α υ ι σ β _).All (Fits topic) := by
  unfold argsCall
  split
  · trivial
  · refine Script.All.bind (.perform trivial) fun id => Script.All.bind (.perform trivial) fun s =>
      Script.All.bind (.perform rfl) fun b => ?_
    cases b with
    | error err => trivial
    | ok b =>
      dsimp only
      split
      · exact Script.All.bind (.perform trivial) fun _ => trivial
      · exact Script.All.bind (.perform trivial) fun _ => trivial

theorem selectServer_fits (uu : Url) :
    (u.selectServer topic uu : Route α υ ι σ β _).All (Fits topic) := by
  unfold selectServer
  split
  · exact .perform trivial
  · refine Script.All.bind (.perform trivial) fun server => ?_
    cases server with
    | none => trivial
    | some server => trivial

theorem bean_fits (uu : Url) (msg : List UInt8) :
    (u.bean topic uu msg : Route α υ ι σ β _).All (Fits topic) := by
  unfold bean
  split
  · refine Script.All.bind (.perform trivial) fun bean => ?_
    cases bean with
    | error err => trivial
    | ok bean => trivial
  · trivial

/-- A request sets and serializes its own topic, where it does not serialize the session of the
connection. -/
theorem onRoute_fits (msg : List UInt8) : (u.onRoute topic msg : Route α υ ι σ β _).All (Fits topic) := by
  unfold onRoute
  split
  · trivial
  · split
    · trivial
    · refine Script.All.bind (.perform rfl) fun _ =>
        Script.All.bind (selectServer_fits _) fun server => ?_
      cases server with
      | error err => trivial
      | ok server =>
        refine Script.All.bind (bean_fits _ msg) fun bean => ?_
        cases bean with
        | none => exact argsCall_fits _ _ _ msg
        | some bean => exact beanCall_fits _ _ _ bean

/-- The first call of a request is its `SetTopic`. -/
theorem onRoute_first {msg : List UInt8} {c : RouteCall α υ σ β}
    {next : c.Returns ι → Route α υ ι σ β (Bool × Result ι × Option GoString)}
    (h : u.onRoute topic msg = .call c next) : c = .setTopic topic := by
  unfold onRoute at h
  split at h
  · cases h
  · split at h
    · cases h
    · obtain ⟨rfl, -⟩ := Script.call.inj h
      rfl

end Fits

/-! ## All requests of a connection -/

variable {u : URIRoute} {req : κ → Request} {s s' : State α υ ι σ β κ}

/-- The sessions that were serialized carry the topics of their requests. -/
def TopicsKept (req : κ → Request) (s : State α υ ι σ β κ) : Prop :=
  ∀ e ∈ s.serialized, e.2.topic = (req e.1).topic

/-- If the next step of the request is to serialize the session of the connection for a call with a bean, and
this succeeds, the last `SetTopic` was one with its topic. -/
def NotOvertaken (u : URIRoute) (req : κ → Request) (s : State α υ ι σ β κ) (a : Act α υ ι σ β κ) : Prop :=
  ∀ next b, s.pc a.request = .running (.call .sessionBytes next) →
    s.session.serializable u.proto = .ok b →
    ∃ j, s.setter = some j ∧ (req j).topic = (req a.request).topic

/-- The topic of the session is that of the last `SetTopic`, and each request deals with its own. -/
structure Own (u : URIRoute) (req : κ → Request) (s : State α υ ι σ β κ) : Prop where
  fits : ∀ k rest, s.pc k = .running rest → rest.All (Fits (req k).topic)
  /-- Before the first `SetTopic`, the requests are at their beginning. -/
  fresh : s.setter = none → ∀ k rest, s.pc k = .running rest →
    rest = u.onRoute (req k).topic (req k).msg
  topic : ∀ j, s.setter = some j → s.session.session.topic = (req j).topic
  kept : TopicsKept req s

namespace Own

theorem init (session : SessionAgent α υ) : Own u req (State.init session : State α υ ι σ β κ) where
  fits := fun _ _ h => by cases h
  fresh := fun _ _ _ h => by cases h
  topic := fun _ h => by cases h
  kept := fun _ h => by cases h

theorem addSerialized (hs : Own u req s) {k : κ} {imp : SessionImp}
    (himp : ∀ b, u.proto.marshal imp = .ok b → imp.topic = (req k).topic) :
    Own u req (s.addSerialized u.proto k imp) := by
  unfold State.addSerialized
  split
  · next b hb =>
    refine { hs with kept := fun e he => ?_ }
    rcases List.mem_append.mp he with he | he
    · exact hs.kept e he
    · obtain rfl := List.mem_singleton.mp he
      exact himp b hb
  · exact hs

/-- A request that is not at its `SetTopic` has it behind. -/
theorem setter_ne_none (hs : Own u req s) {k : κ} {c : RouteCall α υ σ β}
    {next : c.Returns ι → Route α υ ι σ β (Bool × Result ι × Option GoString)}
    (hpc : s.pc k = .running (.call c next)) (hc : ∀ topic, c ≠ .setTopic topic) :
    s.setter ≠ none := fun hnone =>
  hc _ (onRoute_first (hs.fresh hnone k _ hpc).symm)

variable [DecidableEq κ]

theorem setPc (hs : Own u req s) {k : κ} {pc : RequestPc α υ ι σ β}
    (hfits : ∀ rest, pc = .running rest → rest.All (Fits (req k).topic))
    (hfresh : s.setter = none → ∀ rest, pc = .running rest →
      rest = u.onRoute (req k).topic (req k).msg) : Own u req (s.setPc k pc) := by
  have hpc : ∀ k' rest, (s.setPc k pc).pc k' = .running rest →
      (k' = k ∧ pc = .running rest) ∨ s.pc k' = .running rest := by
    intro k' rest h
    change Function.update s.pc k pc k' = _ at h
    rw [Function.update_apply] at h
    split at h
    · next heq => exact .inl ⟨heq, h⟩
    · exact .inr h
  refine { hs with fits := fun k' rest h => ?_, fresh := fun hnone k' rest h => ?_ }
  · rcases hpc k' rest h with ⟨rfl, hrest⟩ | hrest
    · exact hfits rest hrest
    · exact hs.fits k' rest hrest
  · rcases hpc k' rest h with ⟨rfl, hrest⟩ | hrest
    · exact hfresh hnone rest hrest
    · exact hs.fresh hnone k' rest hrest

/-- A request goes on after a call. -/
theorem next (hs : Own u req s) {k : κ} {c : RouteCall α υ σ β}
    {next : c.Returns ι → Route α υ ι σ β (Bool × Result ι × Option GoString)} (r : c.Returns ι)
    (hall : (Script.call c next).All (Fits (req k).topic)) (hset : s.setter ≠ none) :
    Own u req (s.setPc k (.running (next r))) := by
  refine hs.setPc (fun rest h => ?_) fun hnone => absurd hnone hset
  obtain rfl := RequestPc.running.inj h
  exact hall.2 r

end Own

@[simp] theorem setter_addSerialized (k : κ) (imp : SessionImp) :
    (s.addSerialized u.proto k imp).setter = s.setter := by
  unfold State.addSerialized
  split
  · rfl
  · rfl

variable [DecidableEq κ]

theorem own_step {a : Act α υ ι σ β κ} (hs : Own u req s) (hnot : NotOvertaken u req s a)
    (h : step u req s a = some s') : Own u req s' := by
  have hstep := step_eq_some h
  generalize hk : a.request = k at hstep
  generalize hpc : s.pc k = pc at hstep
  cases hstep with
  | start =>
    refine hs.setPc (fun rest h => ?_) fun _ rest h => (RequestPc.running.inj h).symm
    obtain rfl := RequestPc.running.inj h
    exact onRoute_fits _
  | ended hrest => exact hs.setPc (fun rest h => by cases h) fun _ rest h => by cases h
  | setTopic topic next =>
    have hall := hs.fits k _ hpc
    have hs' : Own u req { s with session := s.session.setTopic topic, setter := some k } :=
      { hs with
        fresh := fun h => by cases h
        topic := fun j h => by
          obtain rfl := Option.some.inj h
          exact hall.1 }
    exact hs'.next () hall (by simp)
  | sessionBytes next =>
    have hset := hs.setter_ne_none hpc (by simp)
    have hs' : Own u req (s.addSerialized u.proto k s.session.session) := by
      refine hs.addSerialized fun b hb => ?_
      obtain ⟨j, hj, htopic⟩ := hnot next b (hk.symm ▸ hpc) hb
      rw [hs.topic j hj, htopic, hk]
    exact hs'.next _ (hs.fits k _ hpc) (by rwa [setter_addSerialized])
  | serializable c next =>
    have hall := hs.fits k _ hpc
    have hset := hs.setter_ne_none hpc (by simp)
    exact (hs.addSerialized fun _ _ => hall.1).next _ hall (by rwa [setter_addSerialized])
  | other c hc next r =>
    refine hs.next r (hs.fits k _ hpc) (hs.setter_ne_none hpc fun topic htopic => hc ?_)
    rw [htopic]
    trivial

/-- What was serialized stays. -/
theorem serialized_step {a : Act α υ ι σ β κ} (h : step u req s a = some s') :
    s.serialized <+: s'.serialized := by
  have hadd : ∀ k imp, s.serialized <+: (s.addSerialized u.proto k imp).serialized := by
    intro k imp
    unfold State.addSerialized
    split
    · exact List.prefix_append _ _
    · exact List.prefix_rfl
  have hstep := step_eq_some h
  generalize a.request = k at hstep
  generalize s.pc k = pc at hstep
  cases hstep with
  | start => exact List.prefix_rfl
  | ended hrest => exact List.prefix_rfl
  | setTopic topic next => exact List.prefix_rfl
  | sessionBytes next => exact hadd _ _
  | serializable c next => exact hadd _ _
  | other c hc next r => exact List.prefix_rfl

/-- A request that is overtaken serializes another topic. -/
theorem not_topicsKept {a : Act α υ ι σ β κ} (hs : Own u req s) (hnot : ¬ NotOvertaken u req s a)
    (h : step u req s a = some s') : ¬ TopicsKept req s' := by
  simp only [NotOvertaken, not_forall, not_exists, not_and] at hnot
  obtain ⟨next, b, hpc, hb, hother⟩ := hnot
  obtain ⟨j, hj⟩ := Option.ne_none_iff_exists'.mp (hs.setter_ne_none hpc (by simp))
  have hstep := step_eq_some h
  rw [hpc] at hstep
  cases hstep with
  | ended hrest => exact absurd rfl (hrest _ _)
  | other c hc next r => exact absurd trivial hc
  | sessionBytes next =>
    have hmem : (a.request, s.session.session) ∈
        (s.addSerialized u.proto a.request s.session.session).serialized := by
      have hmarshal : u.proto.marshal s.session.session = .ok b := hb
      unfold State.addSerialized
      rw [hmarshal]
      exact List.mem_append_right _ List.mem_cons_self
    intro hkept
    exact hother j hj ((hs.topic j hj).symm.trans (hkept _ hmem))

/-- **Requests and their topics.** Over all interleavings of the requests of a connection, the sessions that are
serialized for their calls carry their topics exactly when no request was overtaken before it serialized the
session of the connection. -/
theorem topicsKept_iff (u : URIRoute) (req : κ → Request) (session : SessionAgent α υ)
    {as : List (Act α υ ι σ β κ)} {s : State α υ ι σ β κ}
    (hrun : run (step u req) (.init session) as = some s) :
    TopicsKept req s ↔ Along (step u req) (NotOvertaken u req) (.init session) as := by
  have hcases := run_along_or (P := Own u req) (Q := fun s => ¬ TopicsKept req s)
    (fun _ _ _ hs hnot h => own_step hs hnot h) (fun _ _ _ hs hnot h => not_topicsKept hs hnot h)
    (fun _ _ _ hs h hkept => hs fun e he => hkept e ((serialized_step h).subset he))
    (Own.init session) hrun
  rcases hcases with ⟨halong, hs⟩ | ⟨halong, hmixed⟩
  · exact iff_of_true hs.kept halong
  · exact iff_of_false hmixed halong

/-! Two requests, `im://cache/a` and `im://cache/b`, to a gate that makes a bean of each message. -/

/-- `im://cache/` and a letter. -/
def uri (letter : UInt8) : GoString :=
  [0x69, 0x6d, 0x3a, 0x2f, 0x2f, 0x63, 0x61, 0x63, 0x68, 0x65, 0x2f, letter]

def sampleReq (k : Bool) : Request := ⟨uri (if k then 0x62 else 0x61), []⟩

def sampleRoute : URIRoute where
  proto :=
    { marshal := fun s => .ok ([0x52, 12] ++ s.topic)
      unmarshal := fun b => .ok { topic := b.drop 2 } }
  parse := fun topic => .ok ⟨topic.take 2, (topic.drop 5).take 5, topic.drop 10, []⟩
  parseQuery := fun _ => .ok []
  unmarshal := fun _ => .ok ()
  selector := true
  dataParsing := true

/-- One server, and one bean. -/
def sampleReturns : ∀ c : RouteCall Unit Unit Unit Unit, c.Returns Unit
  | .setTopic _ => ()
  | .selector _ _ => .ok ()
  | .getRouteServer _ => some ()
  | .dataParsing _ _ _ => .ok (some ())
  | .sessionBytes => .ok []
  | .beanBytes _ => .ok ("string", [])
  | .generateID => "1"
  | .clone _ => { app := some (), session := {} }
  | .serializable _ => .ok []
  | .callArgs _ _ _ _ => (.nil, [])
  | .callNRArgs _ _ _ _ => none

def sampleSession : SessionAgent Unit Unit := { app := some (), session := {} }

/-- A request that runs to its call. -/
def alone (k : Bool) : List (Act Unit Unit Unit Unit Unit Bool) :=
  .start k :: List.replicate 6 (.next k sampleReturns)

theorem topicsKept_alone :
    Along (step sampleRoute sampleReq) (NotOvertaken sampleRoute sampleReq) (.init sampleSession)
      (alone false ++ alone true) :=
  (topicsKept_iff sampleRoute sampleReq sampleSession rfl).mp fun e he => by
    rcases List.mem_pair.mp he with rfl | rfl
    · rfl
    · rfl

/-- The second request sets its topic before the first one has serialized the session. -/
def overtaken : List (Act Unit Unit Unit Unit Unit Bool) :=
  .start false :: .next false sampleReturns :: .start true :: .next true sampleReturns ::
    List.replicate 3 (.next false sampleReturns)

theorem not_topicsKept_overtaken :
    ∃ s, run (step sampleRoute sampleReq) (.init sampleSession) overtaken = some s ∧
      s.serialized = [(false, { topic := uri 0x62 })] ∧ ¬ TopicsKept sampleReq s := by
  refine ⟨_, rfl, rfl, fun hkept => ?_⟩
  have htopic : uri 0x62 = uri 0x61 := hkept (false, { topic := uri 0x62 }) List.mem_cons_self
  revert htopic
  decide

end URIRoute

end Vmqant.BaseGate
