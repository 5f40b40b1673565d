import Vmqant.App.ServerList

/-!
# One client for each node

Two lookups that both find no session for a node make two, and the one that is overwritten in `serverList`
is never closed. A session is also lost to `Watcher` when it is made or stored while `Watcher` is called
for its node, and when a late `Delete` drops it. `Exclusive` rules these orders out. Then a session that
is not closed is the one in `serverList`, or it is on its way there.
-/

namespace Vmqant.App

open Lts

variable {κ ω : Type} {s s' : State κ ω} {k k' : κ} {w : ω} {n : String} {x y : ℕ}

/-! ## The condition and the invariant -/

/-- The lookup `k` has made the session `x` and not stored it yet. -/
def State.Making (s : State κ ω) (k : κ) (x : ℕ) : Prop :=
  ∃ rest got, s.lookup k = .made x rest got

/-- When a lookup makes a session, none is stored or being made for the node, and `Watcher` was not called
for it since the lookup began; when `Watcher` loads a session, none is being made for the node; and it does
not delete another session than the one it has loaded. -/
def Exclusive (s : State κ ω) : Act κ ω → Prop
  | .lookup k (.newServerSession true) => ∀ n rest got, s.lookup k = .missed n rest got →
      s.serverList n = none ∧ s.stale k n = false ∧ ∀ k' x, s.Making k' x → s.node x ≠ n
  | .watch _ (.load n) => ∀ k x, s.Making k x → s.node x ≠ n
  | .watch w .delete => ∀ n x, s.watch w = .closed n x → ∀ y, s.serverList n = some y → y = x
  | _ => True

/-- The invariant of an exclusive run. -/
structure Inv (s : State κ ω) : Prop where
  listed : ∀ n x, s.serverList n = some x → x < s.sessions ∧ s.node x = n
  making : ∀ k x, s.Making k x → x < s.sessions ∧ s.serverList (s.node x) = none
  alone : ∀ k k' x y, s.Making k x → s.Making k' y → s.node x = s.node y → k = k'
  /-- A session that is not closed is in the list or on its way there. -/
  owned : ∀ x, s.Open x → s.serverList (s.node x) = some x ∨ ∃ k, s.Making k x
  loaded : ∀ w n x, s.watch w = .loaded n x → x < s.sessions ∧ s.node x = n
  closed : ∀ w n x, s.watch w = .closed n x → x < s.sessions ∧ s.node x = n ∧ s.closed x = true
  watched : ∀ x, x < s.sessions → s.watched x = true →
    s.closed x = true ∨ ∃ w, s.watch w = .loaded (s.node x) x

theorem inv_init : Inv (State.init : State κ ω) where
  listed n x h := by cases h
  making k x h := by
    obtain ⟨rest, got, h⟩ := h
    cases h
  alone k k' x y h := by
    obtain ⟨rest, got, h⟩ := h
    cases h
  owned x h := absurd h.1 (Nat.not_lt_zero x)
  loaded w n x h := by cases h
  closed w n x h := by cases h
  watched x h := absurd h (Nat.not_lt_zero x)

/-- A lookup makes one session at a time. -/
theorem State.Making.inj (hx : s.Making k x) (hy : s.Making k y) : x = y := by
  obtain ⟨rest, got, hx⟩ := hx
  obtain ⟨rest', got', hy⟩ := hy
  rw [hx] at hy
  cases hy
  rfl

/-- The sessions from before keep what they are. -/
theorem State.newSession_of_lt (hx : x < s.sessions) :
    (s.newSession k n).node x = s.node x ∧ (s.newSession k n).closed x = s.closed x ∧
      (s.newSession k n).watched x = s.watched x := by
  have hne : x ≠ s.sessions := Nat.ne_of_lt hx
  exact ⟨Function.update_of_ne hne _ _, Function.update_of_ne hne _ _, Function.update_of_ne hne _ _⟩

namespace Inv

/-- At most one session of a node is not closed. -/
theorem open_unique (hs : Inv s) (hx : s.Open x) (hy : s.Open y) (hnode : s.node x = s.node y) :
    x = y := by
  rcases hs.owned x hx with hx | ⟨k, hx⟩ <;> rcases hs.owned y hy with hy | ⟨k', hy⟩
  · rw [hnode, hy] at hx
    exact (Option.some.inj hx).symm
  · rw [hnode, (hs.making k' y hy).2] at hx
    cases hx
  · rw [← hnode, (hs.making k x hx).2] at hy
    cases hy
  · obtain rfl := hs.alone k k' x y hx hy hnode
    exact hx.inj hy

/-- A session is closed once `Watcher` was called for its node since the lookup that made it began, and
no call of `Watcher` for the node is about to close its session. -/
theorem closed_of_watched (hs : Inv s) (hx : x < s.sessions) (hwatched : s.watched x = true)
    (hwatch : ∀ w y, s.watch w ≠ .loaded (s.node x) y) : s.closed x = true := by
  rcases hs.watched x hx hwatched with hclosed | ⟨w, hw⟩
  · exact hclosed
  · exact absurd hw (hwatch w x)

/-! ## The lookups -/

section Lookup

variable [DecidableEq κ]

theorem making_setLookup {pc : LookupPc} :
    (s.setLookup k pc).Making k' x ↔
      if k' = k then ∃ rest got, pc = .made x rest got else s.Making k' x := by
  unfold State.Making State.setLookup
  dsimp only
  rw [Function.update_apply]
  split <;> rfl

/-- A lookup moves on, and has made no session before and after. -/
theorem setLookup (hs : Inv s) {pc : LookupPc} (hfrom : ∀ x, ¬ s.Making k x)
    (hpc : ∀ x rest got, pc ≠ .made x rest got) : Inv (s.setLookup k pc) := by
  have hmaking : ∀ k' x, (s.setLookup k pc).Making k' x ↔ s.Making k' x := by
    intro k' x
    rw [making_setLookup]
    split
    · next heq =>
      rw [heq]
      refine iff_of_false ?_ (hfrom x)
      rintro ⟨rest, got, h⟩
      exact hpc x rest got h
    · exact Iff.rfl
  exact
    { hs with
      making := fun k' x h => hs.making k' x ((hmaking k' x).mp h)
      alone := fun k₁ k₂ x y hx hy =>
        hs.alone k₁ k₂ x y ((hmaking k₁ x).mp hx) ((hmaking k₂ y).mp hy)
      owned := fun x h => (hs.owned x h).imp_right fun ⟨k', h'⟩ => ⟨k', (hmaking k' x).mpr h'⟩ }

theorem begin (hs : Inv s) (hfrom : ∀ x, ¬ s.Making k x) (nodes : List String) :
    Inv (s.begin k nodes) := by
  have hs' : Inv (s.setLookup k (.visiting nodes [])) := hs.setLookup hfrom (by simp)
  exact { hs' with }

/-- The lookups that hold a session are the new one and those from before. -/
theorem making_newSession {rest : List String} {got : List ℕ} (hfrom : ∀ x, ¬ s.Making k x) :
    ((s.newSession k n).setLookup k (.made s.sessions rest got)).Making k' x ↔
      (k' = k ∧ x = s.sessions) ∨ s.Making k' x := by
  rw [making_setLookup]
  split
  · next heq =>
    subst heq
    constructor
    · rintro ⟨rest', got', h⟩
      cases h
      exact .inl ⟨rfl, rfl⟩
    · rintro (⟨-, rfl⟩ | h)
      · exact ⟨rest, got, rfl⟩
      · exact absurd h (hfrom x)
  · next hne =>
    refine (or_iff_right ?_).symm
    rintro ⟨heq, -⟩
    exact hne heq

/-- A session is made for a node that has none. -/
theorem newSession (hs : Inv s) {rest : List String} {got : List ℕ}
    (hlist : s.serverList n = none) (hstale : s.stale k n = false)
    (hmaking : ∀ k' x, s.Making k' x → s.node x ≠ n) (hfrom : ∀ x, ¬ s.Making k x) :
    Inv ((s.newSession k n).setLookup k (.made s.sessions rest got)) := by
  have hnode : ∀ {x}, x < s.sessions → (s.newSession k n).node x = s.node x := fun hx =>
    (State.newSession_of_lt hx).1
  have hclosed : ∀ {x}, x < s.sessions → (s.newSession k n).closed x = s.closed x := fun hx =>
    (State.newSession_of_lt hx).2.1
  have hself : (s.newSession k n).node s.sessions = n := Function.update_self _ _ _
  have hmade : ∀ {k' x}, ((s.newSession k n).setLookup k (.made s.sessions rest got)).Making k' x →
      (k' = k ∧ x = s.sessions) ∨ (s.Making k' x ∧ x < s.sessions) := fun {k' x} h =>
    ((making_newSession hfrom).mp h).imp_right fun h => ⟨h, (hs.making k' x h).1⟩
  exact
    { listed := fun m x h => by
        obtain ⟨hx, hm⟩ := hs.listed m x h
        exact ⟨Nat.lt_succ_of_lt hx, (hnode hx).trans hm⟩
      making := fun k' x h => by
        rcases hmade h with ⟨-, rfl⟩ | ⟨h, hx⟩
        · refine ⟨Nat.lt_succ_self _, ?_⟩
          exact (congrArg s.serverList hself).trans hlist
        · refine ⟨Nat.lt_succ_of_lt hx, ?_⟩
          exact (congrArg s.serverList (hnode hx)).trans (hs.making k' x h).2
      alone := fun k₁ k₂ x y h₁ h₂ heq => by
        change (s.newSession k n).node x = (s.newSession k n).node y at heq
        rcases hmade h₁ with ⟨hk₁, rfl⟩ | ⟨h₁, hx⟩ <;> rcases hmade h₂ with ⟨hk₂, rfl⟩ | ⟨h₂, hy⟩
        · exact hk₁.trans hk₂.symm
        · rw [hself, hnode hy] at heq
          exact absurd heq.symm (hmaking k₂ y h₂)
        · rw [hself, hnode hx] at heq
          exact absurd heq (hmaking k₁ x h₁)
        · rw [hnode hx, hnode hy] at heq
          exact hs.alone k₁ k₂ x y h₁ h₂ heq
      owned := fun x h => by
        rcases Nat.lt_succ_iff_lt_or_eq.mp h.1 with hx | rfl
        · have hopen : s.Open x := ⟨hx, (hclosed hx).symm.trans h.2⟩
          rcases hs.owned x hopen with h' | ⟨k', h'⟩
          · exact .inl ((congrArg s.serverList (hnode hx)).trans h')
          · exact .inr ⟨k', (making_newSession hfrom).mpr (.inr h')⟩
        · exact .inr ⟨k, (making_newSession hfrom).mpr (.inl ⟨rfl, rfl⟩)⟩
      loaded := fun w m x h => by
        obtain ⟨hx, hm⟩ := hs.loaded w m x h
        exact ⟨Nat.lt_succ_of_lt hx, (hnode hx).trans hm⟩
      closed := fun w m x h => by
        obtain ⟨hx, hm, hc⟩ := hs.closed w m x h
        exact ⟨Nat.lt_succ_of_lt hx, (hnode hx).trans hm, (hclosed hx).trans hc⟩
      watched := fun x hlt h => by
        change (s.newSession k n).watched x = true at h
        change (s.newSession k n).closed x = true ∨
          ∃ w, s.watch w = .loaded ((s.newSession k n).node x) x
        rcases Nat.lt_succ_iff_lt_or_eq.mp hlt with hx | rfl
        · rw [hclosed hx, hnode hx]
          exact hs.watched x hx ((State.newSession_of_lt hx).2.2.symm.trans h)
        · have hfalse : (s.newSession k n).watched s.sessions = false :=
            (Function.update_self _ _ _).trans hstale
          rw [hfalse] at h
          cases h }

/-- The session that a lookup has made is stored. -/
theorem store (hs : Inv s) (hx : s.Making k x) {pc : LookupPc}
    (hpc : ∀ x rest got, pc ≠ .made x rest got) :
    Inv { s.setLookup k pc with serverList := Function.update s.serverList (s.node x) (some x) } := by
  obtain ⟨hlt, hnone⟩ := hs.making k x hx
  have hmade : ∀ {k' y}, (s.setLookup k pc).Making k' y → k' ≠ k ∧ s.Making k' y := by
    intro k' y h
    rw [making_setLookup] at h
    split at h
    · obtain ⟨rest, got, h⟩ := h
      exact absurd h (hpc y rest got)
    · next hne => exact ⟨hne, h⟩
  exact
    { hs with
      listed := fun m y h => by
        dsimp only at h
        rw [Function.update_apply] at h
        split at h
        · next hm =>
          obtain rfl := Option.some.inj h
          exact ⟨hlt, hm.symm⟩
        · exact hs.listed m y h
      making := fun k' y h => by
        obtain ⟨hne, h⟩ := hmade h
        refine ⟨(hs.making k' y h).1, ?_⟩
        -- another lookup makes its session for another node
        have hnode : s.node y ≠ s.node x := fun heq => hne (hs.alone k' k y x h hx heq)
        exact (Function.update_of_ne hnode _ _).trans (hs.making k' y h).2
      alone := fun k₁ k₂ y z h₁ h₂ => hs.alone k₁ k₂ y z (hmade h₁).2 (hmade h₂).2
      owned := fun y h => by
        rcases hs.owned y h with h' | ⟨k', h'⟩
        · have hnode : s.node y ≠ s.node x := by
            intro heq
            rw [heq, hnone] at h'
            cases h'
          exact .inl ((Function.update_of_ne hnode _ _).trans h')
        · by_cases hk : k' = k
          · subst hk
            obtain rfl := hx.inj h'
            exact .inl (Function.update_self _ _ _)
          · refine .inr ⟨k', ?_⟩
            change (s.setLookup k pc).Making k' y
            rw [making_setLookup, if_neg hk]
            exact h' }

theorem lookupStep [DecidableEq ω] {a : LookupAct} (hs : Inv s) (ha : Exclusive s (.lookup k a))
    (h : lookupStep s k (s.lookup k) a = some s') : Inv s' := by
  generalize hpc : s.lookup k = pc at h
  have hfrom : (∀ x rest got, pc ≠ .made x rest got) → ∀ x, ¬ s.Making k x := by
    rintro hne x ⟨rest, got, h⟩
    exact hne x rest got (hpc.symm.trans h)
  unfold App.lookupStep at h
  split at h
  · obtain rfl := Option.some.inj h
    exact hs.begin (hfrom (by simp)) _
  · obtain rfl := Option.some.inj h
    exact hs.begin (hfrom (by simp)) _
  · obtain rfl := Option.some.inj h
    exact hs.setLookup (hfrom (by simp)) (by simp)
  · split at h
    · obtain rfl := Option.some.inj h
      exact hs.setLookup (hfrom (by simp)) (by simp)
    · obtain rfl := Option.some.inj h
      exact hs.setLookup (hfrom (by simp)) (by simp)
  · next n rest got =>
    obtain rfl := Option.some.inj h
    obtain ⟨hlist, hstale, hmaking⟩ := ha n rest got hpc
    exact hs.newSession hlist hstale hmaking (hfrom (by simp))
  · obtain rfl := Option.some.inj h
    exact hs.setLookup (hfrom (by simp)) (by simp)
  · next x rest got =>
    obtain rfl := Option.some.inj h
    exact hs.store ⟨rest, got, hpc⟩ (by simp)
  · cases h

end Lookup

/-! ## `Watcher` -/

section Watch

variable [DecidableEq ω]

theorem watch_setWatch (pc : WatchPc) (w' : ω) :
    (s.setWatch w pc).watch w' = if w' = w then pc else s.watch w' :=
  Function.update_apply s.watch w pc w'

/-- `Watcher` finds the session of the node, if one is not closed. -/
theorem load (hs : Inv s) (hfrom : s.watch w = .idle)
    (hmaking : ∀ k x, s.Making k x → s.node x ≠ n) {pc : WatchPc}
    (hpc : pc = .returned ∧ s.serverList n = none ∨ ∃ x, pc = .loaded n x ∧ s.serverList n = some x) :
    Inv ((s.announce n).setWatch w pc) := by
  have hnew : ∀ m x, pc = .loaded m x → m = n ∧ s.serverList n = some x := by
    rintro m x rfl
    rcases hpc with ⟨h, -⟩ | ⟨y, h, hlist⟩
    · cases h
    · cases h
      exact ⟨rfl, hlist⟩
  have hnot : ∀ m x, pc ≠ .closed m x := by
    rintro m x rfl
    rcases hpc with ⟨h, -⟩ | ⟨y, h, -⟩ <;> cases h
  exact
    { hs with
      loaded := fun w' m x h => by
        rw [watch_setWatch] at h
        split at h
        · obtain ⟨rfl, hlist⟩ := hnew m x h
          exact hs.listed m x hlist
        · exact hs.loaded w' m x h
      closed := fun w' m x h => by
        rw [watch_setWatch] at h
        split at h
        · exact absurd h (hnot m x)
        · exact hs.closed w' m x h
      watched := fun x hx h => by
        change (s.watched x || decide (s.node x = n)) = true at h
        rw [Bool.or_eq_true, decide_eq_true_iff] at h
        rcases h with h | hnode
        · refine (hs.watched x hx h).imp_right fun ⟨w', hw'⟩ => ⟨w', ?_⟩
          rw [watch_setWatch, if_neg]
          · exact hw'
          · rintro rfl
            rw [hfrom] at hw'
            cases hw'
        · by_cases hclosed : s.closed x = true
          · exact .inl hclosed
          · have hopen : s.Open x := ⟨hx, by simpa using hclosed⟩
            rcases hs.owned x hopen with hlist | ⟨k, hk⟩
            · -- this is the session that is loaded
              rw [hnode] at hlist
              refine .inr ⟨w, ?_⟩
              rw [watch_setWatch, if_pos rfl]
              change pc = .loaded (s.node x) x
              rcases hpc with ⟨-, hnone⟩ | ⟨y, hy, hlist'⟩
              · rw [hlist] at hnone
                cases hnone
              · rw [hlist] at hlist'
                rw [hnode, hy, Option.some.inj hlist']
            · exact absurd hnode (hmaking k x hk) }

/-- `Watcher` closes the session that it has loaded. -/
theorem done (hs : Inv s) (hfrom : s.watch w = .loaded n x) :
    Inv { s.setWatch w (.closed n x) with closed := Function.update s.closed x true } := by
  obtain ⟨hlt, hnode⟩ := hs.loaded w n x hfrom
  have hclosed : ∀ y, s.closed y = true → Function.update s.closed x true y = true := by
    intro y h
    rw [Function.update_apply]
    split
    · rfl
    · exact h
  exact
    { hs with
      owned := fun y h => by
        refine hs.owned y ⟨h.1, ?_⟩
        cases hy : s.closed y with
        | false => rfl
        | true => exact (hclosed y hy).symm.trans h.2
      loaded := fun w' m y h => by
        change (s.setWatch w (.closed n x)).watch w' = .loaded m y at h
        rw [watch_setWatch] at h
        split at h
        · cases h
        · exact hs.loaded w' m y h
      closed := fun w' m y h => by
        change (s.setWatch w (.closed n x)).watch w' = .closed m y at h
        rw [watch_setWatch] at h
        split at h
        · cases h
          exact ⟨hlt, hnode, Function.update_self _ _ _⟩
        · obtain ⟨hy, hm, hc⟩ := hs.closed w' m y h
          exact ⟨hy, hm, hclosed y hc⟩
      watched := fun y hy h => by
        rcases hs.watched y hy h with hc | ⟨w', hw'⟩
        · exact .inl (hclosed y hc)
        · by_cases heq : w' = w
          · rw [heq, hfrom] at hw'
            cases hw'
            exact .inl (Function.update_self _ _ _)
          · refine .inr ⟨w', ?_⟩
            change (s.setWatch w (.closed n x)).watch w' = .loaded (s.node y) y
            rw [watch_setWatch, if_neg heq]
            exact hw' }

/-- `Watcher` deletes the entry of the session that it has closed. -/
theorem delete (hs : Inv s) (hfrom : s.watch w = .closed n x)
    (hlist : ∀ y, s.serverList n = some y → y = x) :
    Inv { s.setWatch w .returned with serverList := Function.update s.serverList n none } := by
  obtain ⟨-, -, hclosed⟩ := hs.closed w n x hfrom
  have hkeep : ∀ w' m y, (s.setWatch w .returned).watch w' = .loaded m y → s.watch w' = .loaded m y := by
    intro w' m y h
    rw [watch_setWatch] at h
    split at h
    · cases h
    · exact h
  exact
    { hs with
      listed := fun m y h => by
        dsimp only at h
        rw [Function.update_apply] at h
        split at h
        · cases h
        · exact hs.listed m y h
      making := fun k y h => by
        obtain ⟨hy, hnone⟩ := hs.making k y h
        refine ⟨hy, ?_⟩
        change Function.update s.serverList n none (s.node y) = none
        rw [Function.update_apply]
        split
        · rfl
        · exact hnone
      owned := fun y h => by
        refine (hs.owned y h).imp_left fun hy => ?_
        change Function.update s.serverList n none (s.node y) = some y
        rw [Function.update_of_ne]
        · exact hy
        · -- the session of the node is closed
          intro hnode
          rw [hnode] at hy
          rw [hlist y hy] at h
          cases hclosed.symm.trans h.2
      loaded := fun w' m y h => hs.loaded w' m y (hkeep w' m y h)
      closed := fun w' m y h => by
        change (s.setWatch w .returned).watch w' = .closed m y at h
        rw [watch_setWatch] at h
        split at h
        · cases h
        · exact hs.closed w' m y h
      watched := fun y hy h => by
        refine (hs.watched y hy h).imp_right fun ⟨w', hw'⟩ => ⟨w', ?_⟩
        change (s.setWatch w .returned).watch w' = .loaded (s.node y) y
        rw [watch_setWatch, if_neg]
        · exact hw'
        · rintro rfl
          rw [hfrom] at hw'
          cases hw' }

theorem watchStep {a : WatchAct} (hs : Inv s) (ha : Exclusive s (.watch w a))
    (h : watchStep s w (s.watch w) a = some s') : Inv s' := by
  generalize hpc : s.watch w = pc at h
  unfold App.watchStep at h
  split at h
  · next n =>
    split at h
    · next hlist =>
      obtain rfl := Option.some.inj h
      exact hs.load hpc ha (.inl ⟨rfl, hlist⟩)
    · next x hlist =>
      obtain rfl := Option.some.inj h
      exact hs.load hpc ha (.inr ⟨x, rfl, hlist⟩)
  · next n x =>
    obtain rfl := Option.some.inj h
    exact hs.done hpc
  · next n x =>
    obtain rfl := Option.some.inj h
    exact hs.delete hpc (ha n x hpc)
  · cases h

end Watch

theorem step [DecidableEq κ] [DecidableEq ω] {a : Act κ ω} (hs : Inv s) (ha : Exclusive s a)
    (h : step s a = some s') : Inv s' := by
  cases a with
  | lookup k a => exact hs.lookupStep ha h
  | watch w a => exact hs.watchStep ha h

end Inv

/-! ## Runs -/

/-- **One client for each node** in every state of an exclusive run: at most one session of a node is not
closed, and each session is closed once `Watcher` was called for its node since the lookup that made it
began, and no call of `Watcher` for the node is about to close its session. -/
theorem one_client_per_node [DecidableEq κ] [DecidableEq ω] (as : List (Act κ ω)) (s : State κ ω)
    (hexclusive : Along step Exclusive State.init as) (hrun : run step State.init as = some s) :
    (∀ x y, s.Open x → s.Open y → s.node x = s.node y → x = y) ∧
      ∀ x, x < s.sessions → s.watched x = true →
        (∀ w y, s.watch w ≠ .loaded (s.node x) y) → s.closed x = true := by
  have hs : Inv s :=
    run_invariant (fun _ _ _ hs ha h => hs.step ha h) inv_init hexclusive hrun
  exact ⟨fun x y hx hy => hs.open_unique hx hy, fun x hx => hs.closed_of_watched hx⟩

/-- Two lookups of a node, one after the other, and then the node is gone. -/
def exclusiveRun : List (Act Bool Unit) :=
  [.lookup true (.getServerBySelector "n@1"), .lookup true .load,
    .lookup true (.newServerSession true), .lookup true .store, .lookup true .load,
    .lookup false (.getServersByType ["n@1"]), .lookup false .load, .lookup false .load,
    .watch () (.load "n@1"), .watch () .done, .watch () .delete]

theorem one_client_per_node_exclusiveRun :
    ∃ s : State Bool Unit, run step State.init exclusiveRun = some s ∧ s.sessions = 1 ∧
      s.lookup true = .returned [0] ∧ s.lookup false = .returned [0] ∧ s.closed 0 = true := by
  have hnone : ∀ {s : State Bool Unit}, (∀ k x rest got, s.lookup k ≠ .made x rest got) →
      ∀ n k x, s.Making k x → s.node x ≠ n := by
    rintro s hs n k x ⟨rest, got, h⟩
    exact absurd h (hs k x rest got)
  have hexclusive : Along step Exclusive (State.init : State Bool Unit) exclusiveRun := by
    refine .cons trivial rfl <| .cons trivial rfl <| .cons ?_ rfl <| .cons trivial rfl <|
      .cons trivial rfl <| .cons trivial rfl <| .cons trivial rfl <| .cons trivial rfl <|
      .cons (hnone ?_ _) rfl <| .cons trivial rfl <| .cons ?_ rfl .nil
    · intro n rest got h
      cases h
      refine ⟨rfl, rfl, hnone ?_ _⟩
      rintro (_ | _) x rest got h <;> cases h
    · rintro (_ | _) x rest got h <;> cases h
    · intro n x h y hy
      cases h
      cases hy
      rfl
  refine ⟨_, rfl, rfl, rfl, rfl, ?_⟩
  refine (one_client_per_node exclusiveRun _ hexclusive rfl).2 0 (by decide) rfl fun w y h => ?_
  cases h

/-- Two lookups find no session for the node and make one each. -/
def twoClientsRun : List (Act Bool Unit) :=
  [.lookup true (.getServerBySelector "n@1"), .lookup false (.getServerBySelector "n@1"),
    .lookup true .load, .lookup false .load, .lookup true (.newServerSession true),
    .lookup false (.newServerSession true), .lookup true .store, .lookup false .store,
    .lookup true .load, .lookup false .load]

/-- The node is gone. -/
def goneRun : List (Act Bool Unit) := [.watch () (.load "n@1"), .watch () .done, .watch () .delete]

/-- Both sessions are open. The first one stays so when `Watcher` has returned. -/
theorem two_clients_twoClientsRun :
    (∃ s : State Bool Unit, run step State.init twoClientsRun = some s ∧
      s.Open 0 ∧ s.Open 1 ∧ s.node 0 = s.node 1) ∧
    ∃ s : State Bool Unit, run step State.init (twoClientsRun ++ goneRun) = some s ∧
      s.lookup true = .returned [0] ∧ s.lookup false = .returned [1] ∧ s.watch () = .returned ∧
      s.watched 0 = true ∧ s.node 0 = "n@1" ∧ s.closed 0 = false :=
  ⟨⟨_, rfl, ⟨by decide, rfl⟩, ⟨by decide, rfl⟩, rfl⟩, ⟨_, rfl, rfl, rfl, rfl, rfl, rfl, rfl⟩⟩

end Vmqant.App
