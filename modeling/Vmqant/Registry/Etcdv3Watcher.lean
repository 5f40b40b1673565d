import Vmqant.Registry.Service

/-!
# The etcd watcher

Reference: `registry/etcdv3/watcher.go`, lines 46-79, and `registry/etcdv3/etcdv3.go`, lines 93-97.

`Next` ranges over the responses of the watch channel and, inside one response, over its events, and
returns from the inner loop at the first event it can decode. The position inside the response is not
kept, so the rest of its events are gone: `drain_eq_events_iff` says that repeated calls give one
result per event exactly when no response carries more than one.
-/

namespace Vmqant.Registry.Etcdv3

/-- The fields of a `mvccpb.KeyValue` that say what happened to the key, and its value. -/
structure KeyValue where
  createRevision : ℤ
  modRevision : ℤ
  value : List UInt8

inductive EventType where
  | put
  | delete
deriving DecidableEq

structure Event where
  type : EventType
  kv : KeyValue
  /-- The pair before the event, when etcd still has it. -/
  prevKv : Option KeyValue

structure WatchResponse where
  /-- What `Err` returns. -/
  err : Option String
  events : List Event

/-- How a call of `Next` ends. -/
inductive Outcome where
  | result (r : Result)
  | error (text : String)
  /-- A delete without previous pair dereferences `nil`. -/
  | panic

/-- What is known of the client library and of the encoding of services: `json.Unmarshal` into a
service, and the two predicates on events. -/
structure Client where
  decode : List UInt8 → Option Service
  isCreate : Event → Bool
  isModify : Event → Bool

variable (c : Client)

/-! ## `Next` -/

/-- One round of the inner loop: the result, nothing when the service does not decode, or a panic. -/
def scanEvent (ev : Event) : Option (Option Result) :=
  match ev.type with
  | .put =>
    let action :=
      if c.isCreate ev then .create else if c.isModify ev then .update else .other ""
    some ((c.decode ev.kv.value).map fun service => { action, service })
  | .delete =>
    ev.prevKv.map fun prevKv =>
      (c.decode prevKv.value).map fun service => { action := .delete, service }

/-- The inner loop: the way out of it, if there is one. -/
def scanEvents : List Event → Option Outcome
  | [] => none
  | ev :: evs =>
    match scanEvent c ev with
    | none => some .panic
    | some (some r) => some (.result r)
    | some none => scanEvents evs

/-- `Next` on a channel that delivers the given responses and is then closed, with the responses that
are left for the next call. -/
def next : List WatchResponse → Outcome × List WatchResponse
  | [] => (.error "could not get next", [])
  | wresp :: rest =>
    match wresp.err with
    | some err => (.error err, rest)
    | none =>
      match scanEvents c wresp.events with
      | some out => (out, rest)
      | none => next rest

theorem length_next_lt {rs : List WatchResponse} {r : Result}
    (h : (next c rs).1 = .result r) : (next c rs).2.length < rs.length := by
  induction rs with
  | nil => cases h
  | cons wresp rest ih =>
    unfold next at h ⊢
    cases herr : wresp.err with
    | some err => exact Nat.lt_succ_self _
    | none =>
      rw [herr] at h
      cases hscan : scanEvents c wresp.events with
      | some out => exact Nat.lt_succ_self _
      | none =>
        rw [hscan] at h
        exact (ih h).trans (Nat.lt_succ_self _)

/-- The results of calling `Next` until it returns none. -/
def drain (rs : List WatchResponse) : List Result :=
  match _h : (next c rs).1 with
  | .result r => r :: drain (next c rs).2
  | _ => []
termination_by rs.length
decreasing_by exact length_next_lt c _h

/-! ## What the calls return -/

/-- `drain` through the outcome of its first call. -/
theorem drain_eq (rs : List WatchResponse) :
    drain c rs = match next c rs with
      | (.result r, rest) => r :: drain c rest
      | _ => [] := by
  rw [drain]
  split
  · next r h =>
    generalize next c rs = call at h ⊢
    obtain ⟨out, rest⟩ := call
    obtain rfl : out = .result r := h
    rfl
  · next h =>
    generalize next c rs = call at h ⊢
    obtain ⟨out, rest⟩ := call
    cases out with
    | result r => exact absurd rfl (h r)
    | error e => rfl
    | panic => rfl

/-- The first way out of the events of a response decides; the others are dropped. -/
theorem drain_cons {wresp : WatchResponse} {rest : List WatchResponse} (herr : wresp.err = none) :
    drain c (wresp :: rest) = match scanEvents c wresp.events with
      | none => drain c rest
      | some (.result r) => r :: drain c rest
      | some _ => [] := by
  rw [drain_eq, next, herr]
  dsimp only
  cases scanEvents c wresp.events with
  | none => exact (drain_eq c rest).symm
  | some out => cases out <;> rfl

/-! ## One result per event -/

/-- The action that matches the event. -/
def Event.action (ev : Event) : Action :=
  match ev.type with
  | .put => if c.isCreate ev then .create else .update
  | .delete => .delete

/-- The pair that holds the service the event is about. -/
def Event.subject (ev : Event) : Option KeyValue :=
  match ev.type with
  | .put => some ev.kv
  | .delete => ev.prevKv

/-- The result an event stands for, when the service it is about decodes. -/
def Event.result? (ev : Event) : Option Result :=
  ev.subject.bind fun kv => (c.decode kv.value).map fun service => ⟨ev.action c, service⟩

/-- A put is a creation or a modification. -/
def Client.Lawful : Prop := ∀ ev : Event, ev.type = .put → c.isModify ev = !c.isCreate ev

variable {c}

theorem scanEvent_of_result (hc : c.Lawful) {ev : Event} {r : Result}
    (h : ev.result? c = some r) : scanEvent c ev = some (some r) := by
  unfold Event.result? Event.subject Event.action at h
  unfold scanEvent
  cases htype : ev.type with
  | put =>
    simp only [htype, Option.bind_some] at h
    dsimp only
    rw [← h, hc ev htype]
    cases c.isCreate ev <;> rfl
  | delete =>
    simp only [htype] at h
    obtain ⟨prevKv, hprev, hr⟩ := Option.bind_eq_some_iff.mp h
    dsimp only
    rw [hprev, Option.map_some, hr]

/-- On responses whose events all stand for a result, `Next` returns the first result of each
response that has events. -/
theorem drain_eq_heads (hc : c.Lawful) {rs : List WatchResponse} (herr : ∀ r ∈ rs, r.err = none)
    (hdec : ∀ r ∈ rs, ∀ ev ∈ r.events, (ev.result? c).isSome) :
    (drain c rs).map some = rs.flatMap fun r => (r.events.map (Event.result? c)).take 1 := by
  induction rs with
  | nil =>
    rw [drain_eq]
    rfl
  | cons wresp rest ih =>
    have hrest := ih (fun r hr => herr r (List.mem_cons_of_mem _ hr))
      fun r hr => hdec r (List.mem_cons_of_mem _ hr)
    rw [drain_cons c (herr wresp List.mem_cons_self), List.flatMap_cons, ← hrest]
    cases hevents : wresp.events with
    | nil => rfl
    | cons ev evs =>
      obtain ⟨r, hr⟩ := Option.isSome_iff_exists.mp
        (hdec wresp List.mem_cons_self ev (by simp [hevents]))
      rw [scanEvents, scanEvent_of_result hc hr, List.map_cons, List.map_cons, hr]
      rfl

/-- Keeping at most one element of each piece loses nothing exactly when no piece has more. -/
theorem flatMap_take_one_eq_iff {α β : Type} {f : α → List β} {l : List α} :
    l.flatMap (fun x => (f x).take 1) = l.flatMap f ↔ ∀ x ∈ l, (f x).length ≤ 1 := by
  have hle : ∀ l : List α, (l.flatMap fun x => (f x).take 1).length ≤ (l.flatMap f).length := by
    intro l
    induction l with
    | nil => exact le_rfl
    | cons x l ih =>
      simp only [List.flatMap_cons, List.length_append, List.length_take]
      omega
  induction l with
  | nil => simp
  | cons x l ih =>
    rw [List.forall_mem_cons, List.flatMap_cons, List.flatMap_cons]
    constructor
    · intro h
      have hlen := congrArg List.length h
      have hrest := hle l
      simp only [List.length_append, List.length_take] at hlen
      have hx : (f x).length ≤ 1 := by omega
      rw [List.take_of_length_le hx] at h
      exact ⟨hx, ih.mp (List.append_cancel_left h)⟩
    · rintro ⟨hx, hl⟩
      rw [List.take_of_length_le hx, ih.mpr hl]

/-- Repeated calls of `Next` give one result per event, in order and with the action that matches,
exactly when no response carries more than one event. -/
theorem drain_eq_events_iff (hc : c.Lawful) {rs : List WatchResponse}
    (herr : ∀ r ∈ rs, r.err = none) (hdec : ∀ r ∈ rs, ∀ ev ∈ r.events, (ev.result? c).isSome) :
    (drain c rs).map some = (rs.flatMap (·.events)).map (Event.result? c) ↔
      ∀ r ∈ rs, r.events.length ≤ 1 := by
  rw [drain_eq_heads hc herr hdec, List.map_flatMap, flatMap_take_one_eq_iff]
  simp only [List.length_map]

/-- A client whose services are named by the bytes of their key, and whose predicates compare the
revisions as those of the library do. -/
def sampleClient : Client where
  decode bytes := if bytes.isEmpty then none else some { name := toString bytes }
  isCreate ev := ev.type = .put && ev.kv.createRevision = ev.kv.modRevision
  isModify ev := ev.type = .put && ev.kv.createRevision ≠ ev.kv.modRevision

def samplePut (created modified : ℤ) : Event := ⟨.put, ⟨created, modified, [1]⟩, none⟩

theorem sampleClient_lawful : sampleClient.Lawful := by
  intro ev hev
  simp [sampleClient, hev]

theorem drain_eq_events_sample :
    (drain sampleClient [⟨none, [samplePut 1 1]⟩, ⟨none, []⟩, ⟨none, [samplePut 1 2]⟩]).map some
      = [samplePut 1 1, samplePut 1 2].map (Event.result? sampleClient) :=
  (drain_eq_events_iff sampleClient_lawful (by simp)
    (by simp [Event.result?, Event.subject, samplePut, sampleClient])).mpr (by simp)

/-- A transaction that registers two nodes is one response with two events; the second one is
lost. -/
theorem drain_ne_events_transaction :
    ∃ rs : List WatchResponse, rs = [⟨none, [samplePut 1 1, samplePut 1 1]⟩] ∧
      (drain sampleClient rs).map some
        ≠ (rs.flatMap (·.events)).map (Event.result? sampleClient) := by
  refine ⟨_, rfl, fun h => ?_⟩
  have hlen := congrArg List.length h
  rw [drain_cons _ rfl, drain_eq] at hlen
  simp [scanEvents, scanEvent, samplePut, sampleClient, next] at hlen

end Vmqant.Registry.Etcdv3
