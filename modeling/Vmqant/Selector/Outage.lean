import Vmqant.Selector.Get

/-!
# Look-ups while the registry is down

Reference: `selector/cache/cache.go`, lines 83-140.

`get` means to answer with the expired entry when the registry fails. The second look-up assigns its answer
to the variable that holds the entry, so the entry is gone when it is to be copied.
-/

namespace Vmqant.Selector

open Registry

/-- A non-empty entry that `get` does not answer with at the time `now`. -/
structure CacheSelector.Expired (c : CacheSelector) (now : ℤ) (service : String)
    (services : List Service) : Prop where
  cached : c.cache service = some services
  nonempty : services ≠ []
  expired : ∀ ttl, c.ttls service = some ttl → c.ttl ≤ now - ttl

/-- The answer is a copy of the entry, which stays where it is. -/
structure Got.FallsBack (got : Got) (service : String) (services : List Service) : Prop where
  answer : got.services = .ok (cp services)
  kept : got.selector.cache service = some services

namespace WatchingSelector

variable {c : WatchingSelector} {now : ℤ} {service : String} {services : List Service}

/-- An expired entry is looked up again. The look-up fails, and the copy is made of what it gave. -/
theorem get_of_expired (h : c.Expired now service services) (answered : ℤ) (text : String) :
    c.get now answered service (.error (.other text)) =
      { services := .ok (cp []), asked := true, run := !c.watched service
        selector := { c with watched := Function.update c.watched service true } } := by
  have hlength : services.length ≠ 0 := mt List.length_eq_zero_iff.mp h.nonempty
  unfold get
  dsimp only
  rw [h.cached]
  dsimp only
  rw [if_neg hlength]
  cases httl : c.ttls service with
  | none => rfl
  | some ttl =>
    dsimp only
    rw [if_neg (not_lt.mpr (h.expired ttl httl))]
    rfl

/-- **No stale fallback.** For every expired entry and every failure of the registry, `get` answers with the
empty list and no error. The maps stay as they are. -/
theorem get_outage (c : WatchingSelector) (now answered : ℤ) (service text : String)
    (services : List Service) (h : c.Expired now service services) :
    ¬ (c.get now answered service (.error (.other text))).FallsBack service services ∧
    (c.get now answered service (.error (.other text))).services = .ok [] ∧
    (c.get now answered service (.error (.other text))).selector.toCacheSelector = c.toCacheSelector := by
  rw [get_of_expired h]
  refine ⟨fun hfalls => ?_, rfl, rfl⟩
  have hanswer : cp [] = cp services := Except.ok.inj hfalls.answer
  rw [cp_eq, cp_eq] at hanswer
  exact h.nonempty hanswer.symm

/-- An entry that was stored at 0 with a `ttl` of 60. -/
def staleSelector : WatchingSelector where
  cache := fun service =>
    if service = "s" then some [{ name := "s", nodes := [⟨"s@1", "h", 1, ∅⟩] }] else none
  ttls := fun service => if service = "s" then some 60 else none
  ttl := 60
  watcher := false
  watched := fun _ => true

theorem expired_staleSelector :
    staleSelector.Expired 200 "s" [{ name := "s", nodes := [⟨"s@1", "h", 1, ∅⟩] }] where
  cached := rfl
  nonempty := List.cons_ne_nil _ _
  expired := by
    intro ttl h
    obtain rfl : (60 : ℤ) = ttl := Option.some.inj h
    decide

theorem get_outage_staleSelector :
    staleSelector.Expired 200 "s" [{ name := "s", nodes := [⟨"s@1", "h", 1, ∅⟩] }] ∧
    (staleSelector.get 200 201 "s" (.error (.other "connection refused"))).services = .ok [] :=
  ⟨expired_staleSelector,
    (get_outage staleSelector 200 201 "s" "connection refused" _ expired_staleSelector).2.1⟩

/-- The registry fails at 200, and `get` does not fall back on the entry. -/
theorem not_fallsBack_staleSelector :
    staleSelector.Expired 200 "s" [{ name := "s", nodes := [⟨"s@1", "h", 1, ∅⟩] }] ∧
    ¬ (staleSelector.get 200 201 "s" (.error (.other "connection refused"))).FallsBack "s"
      [{ name := "s", nodes := [⟨"s@1", "h", 1, ∅⟩] }] := by
  refine ⟨expired_staleSelector, fun h => ?_⟩
  have hanswer := Except.ok.inj h.answer
  cases hanswer

end WatchingSelector

end Vmqant.Selector
