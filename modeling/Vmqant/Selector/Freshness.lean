import Vmqant.Common.Lts
import Vmqant.Selector.Get

/-!
# Freshness of cached answers

A run of the selector is a list of `get` and `update` calls at times that never go back. Along it we
record when each entry was last written by `set`. `set` stores the time `ttl` after the write and
`get` accepts a stored time less than `ttl` ago, so an answer from the cache is less than `2 * ttl`
old; `get_fresh_iff` says for which entries this is later than it should be.
-/

namespace Vmqant.Selector

open Registry

/-- A call with the time it starts at. A look-up has the time at which the registry answers, too. -/
inductive Call where
  | get (service : String) (registry : Except RegistryError (List Service)) (answered : ℤ)
  | update (res : Option Result)

/-- The selector at the time of its last clock reading, with the last write of each entry. -/
structure Clocked where
  selector : WatchingSelector
  now : ℤ
  written : String → Option ℤ

namespace Clocked

/-- `newCacheSelector` at the time `now`. -/
def init (ttl : ℤ) (watcher : Bool) (now : ℤ) : Clocked where
  selector :=
    { cache := fun _ => none, ttls := fun _ => none, ttl, watcher, watched := fun _ => false }
  now
  written _ := none

/-- Record a write. -/
def note (written : String → Option ℤ) (now : ℤ) : Write → String → Option ℤ
  | .set service _ => Function.update written service (some now)
  | _ => written

/-- A call at the time `now`. The clock does not go back. -/
def step (s : Clocked) : ℤ × Call → Option Clocked
  | (now, .get service registry answered) =>
    if s.now ≤ now ∧ now ≤ answered then
      let got := s.selector.get now answered service registry
      some ⟨got.selector, answered, note s.written answered (got.write service registry)⟩
    else none
  | (now, .update res) =>
    if s.now ≤ now then
      some
        { selector := { s.selector with
            toCacheSelector := (update s.selector.toCacheSelector now res).1 }
          now
          written := note s.written now (updateWrite s.selector.toCacheSelector res) }
    else none

/-- The entry of the service was last written less than `ttl` ago. -/
def Fresh (s : Clocked) (now : ℤ) (service : String) : Prop :=
  ∃ written, s.written service = some written ∧ now - written < s.selector.ttl

/-- An answer that the registry was not asked for is fresh. -/
def AnswersFresh (s : Clocked) : ℤ × Call → Prop
  | (now, .get service registry answered) =>
    (s.selector.get now answered service registry).asked = false → s.Fresh now service
  | (_, .update _) => True

/-- The service has a non-empty entry whose age is between `ttl` and `2 * ttl`. -/
def Overdue (s : Clocked) (now : ℤ) (service : String) : Prop :=
  ∃ services written, s.selector.cache service = some services ∧ services ≠ [] ∧
    s.written service = some written ∧
    s.selector.ttl ≤ now - written ∧ now - written < 2 * s.selector.ttl

/-- No look-up is made for a service with an overdue entry. -/
def NotOverdue (s : Clocked) : ℤ × Call → Prop
  | (now, .get service _ _) => ¬ s.Overdue now service
  | (_, .update _) => True

/-- The times of the cached entries are those of their last writes plus `ttl`. -/
def Stamped (s : Clocked) : Prop :=
  ∀ service services, s.selector.cache service = some services →
    ∃ written, s.written service = some written ∧
      s.selector.ttls service = some (written + s.selector.ttl)

/-! ## The stored times -/

theorem stamped_init (ttl : ℤ) (watcher : Bool) (now : ℤ) : (init ttl watcher now).Stamped := by
  intro service services h
  cases h

/-- A write keeps the stamps when it is recorded. -/
theorem Stamped.apply {s : Clocked} (hs : s.Stamped) {selector : WatchingSelector} {now : ℤ}
    {w : Write} (hw : selector.toCacheSelector = w.apply s.selector.toCacheSelector now) :
    (⟨selector, now, note s.written now w⟩ : Clocked).Stamped := by
  intro service services hcache
  change selector.toCacheSelector.cache service = some services at hcache
  change ∃ written, note s.written now w service = some written ∧
    selector.toCacheSelector.ttls service = some (written + selector.toCacheSelector.ttl)
  rw [hw] at hcache ⊢
  cases w with
  | keep => exact hs service services hcache
  | del name =>
    by_cases hname : service = name
    · subst hname
      simp [Write.apply, CacheSelector.del] at hcache
    · simp only [Write.apply, CacheSelector.del, Function.update_of_ne hname] at hcache ⊢
      exact hs service services hcache
  | set name services' =>
    by_cases hname : service = name
    · subst hname
      exact ⟨now, Function.update_self .., Function.update_self ..⟩
    · simp only [Write.apply, CacheSelector.set, note, Function.update_of_ne hname] at hcache ⊢
      exact hs service services hcache

theorem Stamped.step {s s' : Clocked} {a : ℤ × Call} (hs : s.Stamped)
    (hstep : s.step a = some s') : s'.Stamped := by
  obtain ⟨now, call⟩ := a
  cases call with
  | get service registry answered =>
    simp only [Clocked.step, Option.ite_none_right_eq_some, Option.some.injEq] at hstep
    obtain ⟨-, rfl⟩ := hstep
    exact hs.apply (get_write ..)
  | update res =>
    simp only [Clocked.step, Option.ite_none_right_eq_some, Option.some.injEq] at hstep
    obtain ⟨-, rfl⟩ := hstep
    exact hs.apply (update_write ..)

/-! ## Answers from the cache -/

/-- Without asking, `get` answers with an entry that is less than `2 * ttl` old. -/
theorem Stamped.asked_eq_false_iff {s : Clocked} (hs : s.Stamped) (now answered : ℤ)
    (service : String) (registry : Except RegistryError (List Service)) :
    (s.selector.get now answered service registry).asked = false ↔
      ∃ services written, s.selector.cache service = some services ∧ services ≠ [] ∧
        s.written service = some written ∧ now - written < 2 * s.selector.ttl := by
  rw [get_asked_eq_false_iff]
  refine exists_congr fun services => ⟨?_, ?_⟩
  · rintro ⟨ttl, hcache, hne, httl, hlt⟩
    obtain ⟨written, hwritten, hstored⟩ := hs service services hcache
    obtain rfl : ttl = written + s.selector.ttl := Option.some.inj (httl.symm.trans hstored)
    exact ⟨written, hcache, hne, hwritten, by omega⟩
  · rintro ⟨written, hcache, hne, hwritten, hlt⟩
    obtain ⟨written', hwritten', hstored⟩ := hs service services hcache
    obtain rfl : written = written' := Option.some.inj (hwritten.symm.trans hwritten')
    exact ⟨_, hcache, hne, hstored, by omega⟩

theorem Stamped.answersFresh_iff {s : Clocked} (hs : s.Stamped) (a : ℤ × Call) :
    s.AnswersFresh a ↔ s.NotOverdue a := by
  obtain ⟨now, call⟩ := a
  cases call with
  | update res => exact Iff.rfl
  | get service registry answered =>
    simp only [AnswersFresh, NotOverdue, hs.asked_eq_false_iff]
    constructor
    · rintro hfresh ⟨services, written, hcache, hne, hwritten, hge, hlt⟩
      obtain ⟨written', hwritten', hage⟩ := hfresh ⟨services, written, hcache, hne, hwritten, hlt⟩
      obtain rfl : written = written' := Option.some.inj (hwritten.symm.trans hwritten')
      omega
    · rintro hoverdue ⟨services, written, hcache, hne, hwritten, hlt⟩
      refine ⟨written, hwritten, ?_⟩
      by_contra hage
      exact hoverdue ⟨services, written, hcache, hne, hwritten, by omega, hlt⟩

/-- **Cache freshness.** Along a run every answer from the cache is less than `ttl` old if and only if
no look-up finds a non-empty entry whose age is at least `ttl` and less than `2 * ttl`. -/
theorem get_fresh_iff (ttl : ℤ) (watcher : Bool) (start : ℤ) (calls : List (ℤ × Call)) :
    Lts.Along step AnswersFresh (init ttl watcher start) calls ↔
      Lts.Along step NotOverdue (init ttl watcher start) calls :=
  Lts.along_congr (fun _ _ _ hs hstep => hs.step hstep) (fun _ a hs => hs.answersFresh_iff a)
    (stamped_init ttl watcher start)

/-- With a `ttl` of 60, a service is looked up at 0 and again at 90. -/
def overdueCalls : List (ℤ × Call) :=
  [(0, .get "s" (.ok [{ name := "s" }]) 0), (90, .get "s" (.error .notFound) 90)]

/-- The second look-up is answered from the cache, 90 after the write. -/
theorem not_answersFresh_overdueCalls :
    (Lts.run step (init 60 false 0) overdueCalls).isSome ∧
    ¬ Lts.Along step AnswersFresh (init 60 false 0) overdueCalls := by
  refine ⟨rfl, fun h => ?_⟩
  obtain ⟨written, hwritten, hage⟩ := (h.2 _ rfl).1 rfl
  obtain rfl : written = 0 := (Option.some.inj hwritten).symm
  exact absurd hage (by decide)

end Clocked

end Vmqant.Selector
