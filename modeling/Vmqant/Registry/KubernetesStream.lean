import Vmqant.Registry.KubernetesWatcher

/-!
# From the body of a watch to the results of `Next`

Reference: `registry/kubernetes/client/watch.go`, lines 36-122, and `registry/kubernetes/watcher.go`, lines
133-260.

Two goroutines stand between the response of the API server and `Next`: `stream` reads the body line by line,
and the other one handles the events. Their channels have no buffers, so each hands on only what the next one
takes. `Stop` closes a channel of each after a look at it, and its calls may overlap, since the selector has
two goroutines that call it. A line that the server has not ended is never read, and is left out.
-/

namespace Vmqant.Registry.Kubernetes.Watch

/-! ## The goroutines -/

/-- Where `stream` is. -/
inductive StreamPc where
  | reading
  | sending (event : Event)
  | ended

/-- Where the goroutine is that ranges over the events. -/
inductive HandlerPc (σ : Type) where
  | receiving
  /-- In `handleEvent`, with the results that are not sent and the watcher after it. -/
  | sending (r : Result σ) (rs : List (Result σ)) (after : K8sWatcher)

/-- How many calls of `Stop` are under way, by the next thing they do. -/
structure Stops where
  /-- `k.watcher.Stop()`. -/
  entering : ℕ
  /-- `wr.cancel()`. -/
  cancelling : ℕ
  /-- `close(wr.stop)`. -/
  closing : ℕ
  /-- `close(k.stop)`. -/
  leaving : ℕ

def Stops.total (s : Stops) : ℕ := s.entering + s.cancelling + s.closing + s.leaving

structure State (β σ : Type) where
  /-- The lines that have arrived and have not been read. -/
  body : List β
  /-- The server has ended the response. -/
  eof : Bool
  cancelled : Bool
  stream : StreamPc
  handler : HandlerPc σ
  watcher : K8sWatcher
  /-- `wr.stop` is closed. -/
  bodyStop : Bool
  /-- `k.stop` is closed. -/
  stop : Bool
  stops : Stops
  crashed : Option PanicValue
  /-- All lines that have arrived, all events that have been handled, all results that `Next` has returned. -/
  lines : List β
  handled : List (Ranges × Event)
  delivered : List (Result σ)

inductive Act (β : Type) where
  | arrive (line : β)
  | finish
  /-- `ReadBytes` returns a line. -/
  | read
  | readError
  /-- An event goes from `stream` to the handler, which looks at the annotations in the given orders. -/
  | receive (ranges : Ranges)
  /-- `stream` finds `wr.stop` closed. -/
  | streamStopped
  /-- A result goes from the handler to a call of `Next`. -/
  | next
  /-- A call of `Next` finds `k.stop` closed. -/
  | nextStopped
  /-- The handler finds `k.stop` closed. -/
  | handlerStopped
  /-- `Stop` is called and looks at `k.stop`. -/
  | stop
  /-- `bodyWatcher.Stop` looks at `wr.stop`. -/
  | enter
  | cancel
  | closeBody
  | close

variable {β σ : Type} (parse : β → Option Event) (decode : String → Option σ)

def closedTwice : PanicValue := .error "close of closed channel"

/-- The handler after the results of an event, if there are any, have been put up to be sent. -/
def State.put (st : State β σ) (results : List (Result σ)) (after : K8sWatcher) : State β σ :=
  match results with
  | [] => { st with handler := .receiving, watcher := after }
  | r :: rs => { st with handler := .sending r rs after }

/-- The steps of `Stop`. -/
def stopStep (st : State β σ) : Act β → Option (State β σ)
  | .stop =>
    if st.stop then some st else some { st with stops := { st.stops with entering := st.stops.entering + 1 } }
  | .enter =>
    if st.stops.entering = 0 then none
    else
      let stops := { st.stops with entering := st.stops.entering - 1 }
      if st.bodyStop then some { st with stops := { stops with leaving := stops.leaving + 1 } }
      else some { st with stops := { stops with cancelling := stops.cancelling + 1 } }
  | .cancel =>
    if st.stops.cancelling = 0 then none
    else some { st with
      cancelled := true
      stops := { st.stops with
        cancelling := st.stops.cancelling - 1
        closing := st.stops.closing + 1 } }
  | .closeBody =>
    if st.stops.closing = 0 then none
    else if st.bodyStop then some { st with crashed := some closedTwice }
    else some { st with
      bodyStop := true
      stops := { st.stops with
        closing := st.stops.closing - 1
        leaving := st.stops.leaving + 1 } }
  | .close =>
    if st.stops.leaving = 0 then none
    else if st.stop then some { st with crashed := some closedTwice }
    else some { st with stop := true, stops := { st.stops with leaving := st.stops.leaving - 1 } }
  | _ => none

/-- The steps of the body, of the two goroutines and of `Next`. -/
def flowStep (st : State β σ) : Act β → Option (State β σ)
  | .arrive line =>
    if st.eof then none else some { st with body := st.body ++ [line], lines := st.lines ++ [line] }
  | .finish => some { st with eof := true }
  | .read =>
    match st.stream, st.body with
    | .reading, line :: body =>
      match parse line with
      | none => some { st with body }
      | some event => some { st with body, stream := .sending event }
    | _, _ => none
  | .readError =>
    match st.stream with
    | .reading => if (st.eof ∧ st.body = []) ∨ st.cancelled then some { st with stream := .ended } else none
    | _ => none
  | .receive ranges =>
    match st.stream, st.handler with
    | .sending event, .receiving =>
      match handleEvent decode ranges st.watcher event with
      | .error v => some { st with crashed := some v }
      | .ok (results, after) =>
        some (State.put { st with stream := .reading, handled := st.handled ++ [(ranges, event)] } results after)
    | _, _ => none
  | .streamStopped =>
    match st.stream with
    | .sending _ => if st.bodyStop then some { st with stream := .ended } else none
    | _ => none
  | .next =>
    match st.handler with
    | .sending r rs after => some (State.put { st with delivered := st.delivered ++ [r] } rs after)
    | .receiving => none
  | .nextStopped => if st.stop then some st else none
  | .handlerStopped =>
    match st.handler with
    | .sending _ _ _ => if st.stop then some { st with handler := .receiving } else none
    | .receiving => none
  | _ => none

def step (st : State β σ) (act : Act β) : Option (State β σ) :=
  if st.crashed.isSome then none
  else match act with
    | .stop | .enter | .cancel | .closeBody | .close => stopStep st act
    | _ => flowStep parse decode st act

/-- `newWatcher`, after `updateCache`. -/
def start (watcher : K8sWatcher) : State β σ where
  body := []
  eof := false
  cancelled := false
  stream := .reading
  handler := .receiving
  watcher
  bodyStop := false
  stop := false
  stops := ⟨0, 0, 0, 0⟩
  crashed := none
  lines := []
  handled := []
  delivered := []

/-! ## What `Stop` can do -/

inductive StopStep (st : State β σ) : Act β → State β σ → Prop where
  | returned (h : st.stop = true) : StopStep st .stop st
  | passed (h : st.stop = false) :
    StopStep st .stop { st with stops := { st.stops with entering := st.stops.entering + 1 } }
  | skipped (hpos : 0 < st.stops.entering) (h : st.bodyStop = true) :
    StopStep st .enter { st with stops := { st.stops with
      entering := st.stops.entering - 1
      leaving := st.stops.leaving + 1 } }
  | entered (hpos : 0 < st.stops.entering) (h : st.bodyStop = false) :
    StopStep st .enter { st with stops := { st.stops with
      entering := st.stops.entering - 1
      cancelling := st.stops.cancelling + 1 } }
  | cancelled (hpos : 0 < st.stops.cancelling) :
    StopStep st .cancel { st with
      cancelled := true
      stops := { st.stops with
        cancelling := st.stops.cancelling - 1
        closing := st.stops.closing + 1 } }
  | bodyClosed (hpos : 0 < st.stops.closing) (h : st.bodyStop = false) :
    StopStep st .closeBody { st with
      bodyStop := true
      stops := { st.stops with
        closing := st.stops.closing - 1
        leaving := st.stops.leaving + 1 } }
  | bodyTwice (hpos : 0 < st.stops.closing) (h : st.bodyStop = true) :
    StopStep st .closeBody { st with crashed := some closedTwice }
  | closed (hpos : 0 < st.stops.leaving) (h : st.stop = false) :
    StopStep st .close { st with
      stop := true
      stops := { st.stops with leaving := st.stops.leaving - 1 } }
  | twice (hpos : 0 < st.stops.leaving) (h : st.stop = true) :
    StopStep st .close { st with crashed := some closedTwice }

theorem stopStep_eq_some {st st' : State β σ} {act : Act β} (h : stopStep st act = some st') :
    StopStep st act st' := by
  cases act with
  | stop =>
    unfold stopStep at h
    dsimp only at h
    split at h <;> obtain rfl := Option.some.inj h
    · next hstop => exact .returned hstop
    · next hstop => exact .passed (Bool.eq_false_iff.mpr hstop)
  | enter =>
    unfold stopStep at h
    dsimp only at h
    split at h
    · cases h
    · next hpos =>
      split at h <;> obtain rfl := Option.some.inj h
      · next hstop => exact .skipped (Nat.pos_of_ne_zero hpos) hstop
      · next hstop => exact .entered (Nat.pos_of_ne_zero hpos) (Bool.eq_false_iff.mpr hstop)
  | cancel =>
    unfold stopStep at h
    dsimp only at h
    split at h
    · cases h
    · next hpos =>
      obtain rfl := Option.some.inj h
      exact .cancelled (Nat.pos_of_ne_zero hpos)
  | closeBody =>
    unfold stopStep at h
    dsimp only at h
    split at h
    · cases h
    · next hpos =>
      split at h <;> obtain rfl := Option.some.inj h
      · next hstop => exact .bodyTwice (Nat.pos_of_ne_zero hpos) hstop
      · next hstop => exact .bodyClosed (Nat.pos_of_ne_zero hpos) (Bool.eq_false_iff.mpr hstop)
  | close =>
    unfold stopStep at h
    dsimp only at h
    split at h
    · cases h
    · next hpos =>
      split at h <;> obtain rfl := Option.some.inj h
      · next hstop => exact .twice (Nat.pos_of_ne_zero hpos) hstop
      · next hstop => exact .closed (Nat.pos_of_ne_zero hpos) (Bool.eq_false_iff.mpr hstop)
  | arrive line | finish | read | readError | receive ranges | streamStopped | next | nextStopped
  | handlerStopped => cases h

/-- A step is one of `Stop` or one of the flow, and nothing happens after a crash. -/
theorem step_eq_some {parse : β → Option Event} {decode : String → Option σ} {st st' : State β σ} {act : Act β}
    (h : step parse decode st act = some st') :
    st.crashed = none ∧ (StopStep st act st' ∨ flowStep parse decode st act = some st') := by
  unfold step at h
  split at h
  · cases h
  · next hcrashed =>
    refine ⟨by simpa using hcrashed, ?_⟩
    cases act with
    | stop | enter | cancel | closeBody | close => exact .inl (stopStep_eq_some h)
    | arrive line | finish | read | readError | receive ranges | streamStopped | next | nextStopped
    | handlerStopped => exact .inr h

/-! ## The order of what is handed on -/

/-- The event that `stream` has read and not handed on. -/
def StreamPc.inHand : StreamPc → List Event
  | .sending event => [event]
  | .reading | .ended => []

/-- The results that the handler has not handed on. -/
def HandlerPc.unsent : HandlerPc σ → List (Result σ)
  | .sending r rs _ => r :: rs
  | .receiving => []

/-- The watcher once they are all handed on. -/
def HandlerPc.after (watcher : K8sWatcher) : HandlerPc σ → K8sWatcher
  | .sending _ _ after => after
  | .receiving => watcher

/-- One event after the other: the results of all of them, and the watcher after the last. -/
def process (watcher : K8sWatcher) (events : List (Ranges × Event)) :
    Except PanicValue (List (Result σ) × K8sWatcher) :=
  events.foldlM (fun acc e => (handleEvent decode e.1 acc.2 e.2).map fun p => (acc.1 ++ p.1, p.2)) ([], watcher)

/-- The events are handled in the order of their lines, and `Next` returns their results in order. Only what
`stream` had in hand when it was stopped is dropped. -/
structure InOrder (watcher : K8sWatcher) (st : State β σ) : Prop where
  events : ∃ dropped, st.handled.map Prod.snd ++ st.stream.inHand ++ dropped ++ st.body.filterMap parse
      = st.lines.filterMap parse ∧
    (dropped ≠ [] → st.bodyStop = true ∧ ∀ event, st.stream ≠ .sending event ∧ st.stream ≠ .reading)
  results : st.stop = false → process decode watcher st.handled
    = .ok (st.delivered ++ st.handler.unsent, st.handler.after st.watcher)

section Order

variable {parse} {decode} {st st' : State β σ} {act : Act β} {watcher : K8sWatcher}

theorem process_append {events : List (Ranges × Event)} {results rest : List (Result σ)}
    {before after : K8sWatcher} (h : process decode watcher events = .ok (results, before)) {ranges : Ranges}
    {event : Event} (hevent : handleEvent decode ranges before event = .ok (rest, after)) :
    process decode watcher (events ++ [(ranges, event)]) = .ok (results ++ rest, after) := by
  unfold process at h ⊢
  rw [List.foldlM_append, h]
  have hlast : (handleEvent decode ranges before event).map (fun p => (results ++ p.1, p.2))
      = .ok (results ++ rest, after) := by
    rw [hevent]
    rfl
  simp only [List.foldlM_cons, List.foldlM_nil, bind_pure]
  exact hlast

theorem put_spec (st : State β σ) (results : List (Result σ)) (after : K8sWatcher) :
    (st.put results after).handler.unsent = results ∧
      (st.put results after).handler.after (st.put results after).watcher = after := by
  cases results <;> exact ⟨rfl, rfl⟩

/-- What `put` leaves as it is. -/
theorem put_frame (st : State β σ) (results : List (Result σ)) (after : K8sWatcher) :
    ∃ handler watcher, st.put results after = { st with handler, watcher } := by
  cases results <;> exact ⟨_, _, rfl⟩

end Order

end Vmqant.Registry.Kubernetes.Watch
