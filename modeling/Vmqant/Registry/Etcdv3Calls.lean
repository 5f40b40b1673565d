import Vmqant.Common.Lts
import Vmqant.Registry.Etcdv3Registry

/-!
# Calls that are not disturbed

What a call of `Register` or `Deregister` does when all its requests are answered and no lease expires
meanwhile, and what is in the store when services have been registered so, one after the other.
-/

namespace Vmqant.Registry.Etcdv3

open Lts

variable {η ν : Type} [DecidableEq η] {hash : Service → η} {encode : Service → ν}

/-- The call is made, its requests are answered, and it returns. -/
def Completes (hash : Service → η) (encode : Service → ν) (st : State η ν) (c : Call) (st' : State η ν) :
    Prop :=
  ∃ rounds, run (step hash encode) st (.call c :: List.replicate rounds (.reply .answer)) = some st' ∧
    st'.pc = .idle

/-- The services are registered without TTL, one after the other. -/
def RegistersAll (hash : Service → η) (encode : Service → ν) :
    State η ν → List Service → State η ν → Prop
  | st, [], st' => st' = st
  | st, s :: ss, st' =>
    ∃ st₁, Completes hash encode st (.register s 0) st₁ ∧ RegistersAll hash encode st₁ ss st'

/-- What `Register` puts for a node. -/
def entry (encode : Service → ν) (s : Service) (node : Node) : Key × ν := (key s node, encode (single s node))

section Calls

variable {st st' : State η ν} {c : Call} {s : Service}

/-- The state in which an undisturbed call returns is determined. -/
theorem Completes.unique {st₁ st₂ : State η ν} (h₁ : Completes hash encode st c st₁)
    (h₂ : Completes hash encode st c st₂) : st₁ = st₂ := by
  obtain ⟨m, hm, hpc₁⟩ := h₁
  obtain ⟨n, hn, hpc₂⟩ := h₂
  obtain ⟨x, hx, hm⟩ := run_cons_eq_some.mp hm
  obtain ⟨y, hy, hn⟩ := run_cons_eq_some.mp hn
  obtain rfl := Option.some.inj (hx.symm.trans hy)
  have hstuck : ∀ st : State η ν, st.pc = .idle → step hash encode st (.reply .answer) = none := by
    intro st hpc
    unfold step onReply
    dsimp only
    rw [hpc]
  exact run_replicate_unique hstuck hm hpc₁ hn hpc₂

theorem run_put {lease : Option ℕ} {done todo : List Node} (hpc : st.pc = .put s lease done todo)
    (htodo : todo ≠ []) (husable : st.etcd.Usable lease) :
    run (step hash encode) st (List.replicate todo.length (.reply .answer))
      = some (save hash { st with etcd := st.etcd.putAll (todo.map (entry encode s)) lease } s lease) := by
  induction todo generalizing st done with
  | nil => exact absurd rfl htodo
  | cons node todo ih =>
    have hput : st.etcd.put? (key s node) (encode (single s node)) lease
        = some (st.etcd.put (key s node) (encode (single s node)) lease) :=
      LeaseStore.put?_eq_some.mpr ⟨husable, rfl⟩
    have hstep : step hash encode st (.reply .answer)
        = some (putReply hash encode st s lease done node todo .answer) := by
      unfold step onReply
      dsimp only
      rw [hpc]
    unfold putReply at hstep
    rw [hput] at hstep
    cases todo with
    | nil => exact run_cons_eq_some.mpr ⟨_, hstep, rfl⟩
    | cons node' todo =>
      rw [List.length_cons, List.replicate_succ]
      refine run_cons_eq_some.mpr ⟨_, hstep, ?_⟩
      exact ih rfl (List.cons_ne_nil _ _) husable

theorem run_delete {todo : List Node} (hpc : st.pc = .delete s todo) (htodo : todo ≠ []) :
    run (step hash encode) st (List.replicate todo.length (.reply .answer))
      = some ({ st with etcd := st.etcd.deleteAll (todo.map (key s)) }.ret none) := by
  induction todo generalizing st with
  | nil => exact absurd rfl htodo
  | cons node todo ih =>
    have hstep : step hash encode st (.reply .answer) = some (deleteReply st s node todo .answer) := by
      unfold step onReply
      dsimp only
      rw [hpc]
    cases todo with
    | nil => exact run_cons_eq_some.mpr ⟨_, hstep, rfl⟩
    | cons node' todo =>
      rw [List.length_cons, List.replicate_succ]
      refine run_cons_eq_some.mpr ⟨_, hstep, ?_⟩
      exact ih rfl (List.cons_ne_nil _ _)

/-- The state after `Register`, when no lease is cached under the name. -/
def registerResult (hash : Service → η) (encode : Service → ν) (st : State η ν) (s : Service) (ttl : ℤ) :
    State η ν :=
  if s.nodes = [] then st.ret none
  else if st.register s.name = some (hash s) then st.ret (some s)
  else if 0 < ttl then
    let lease := some st.etcd.next
    save hash { st with etcd := st.etcd.grant.putAll (s.nodes.map (entry encode s)) lease } s lease
  else save hash { st with etcd := st.etcd.putAll (s.nodes.map (entry encode s)) none } s none

/-- The state after `Deregister`. -/
def deregisterResult (st : State η ν) (s : Service) : State η ν :=
  if s.nodes = [] then st.ret none
  else
    { st with
      register := Function.update st.register s.name none
      leases := Function.update st.leases s.name none
      etcd := st.etcd.deleteAll (s.nodes.map (key s)) }.ret none

theorem completes_register (hpc : st.pc = .idle) (hlease : st.leases s.name = none) (ttl : ℤ) :
    Completes hash encode st (.register s ttl) (registerResult hash encode st s ttl) := by
  have hcall : step hash encode st (.call (.register s ttl))
      = some (if s.nodes = [] then st.ret none else checkHash hash st s ttl false) := by
    unfold step beginCall
    dsimp only
    rw [hpc, hlease]
  unfold registerResult
  split
  · next hnodes =>
    rw [if_pos hnodes] at hcall
    exact ⟨0, run_cons_eq_some.mpr ⟨_, hcall, rfl⟩, rfl⟩
  · next hnodes =>
    rw [if_neg hnodes] at hcall
    unfold checkHash at hcall
    split
    · next hskip =>
      rw [if_pos ⟨hskip, rfl⟩] at hcall
      exact ⟨0, run_cons_eq_some.mpr ⟨_, hcall, rfl⟩, rfl⟩
    · next hskip =>
      rw [if_neg fun h => hskip h.1] at hcall
      split
      · next httl =>
        rw [if_pos httl] at hcall
        -- the first answer is that of the grant
        refine ⟨s.nodes.length + 1, run_cons_eq_some.mpr ⟨_, hcall, ?_⟩, rfl⟩
        refine run_cons_eq_some.mpr ⟨_, rfl, ?_⟩
        exact run_put rfl hnodes LeaseStore.usable_grant_next
      · next httl =>
        rw [if_neg httl] at hcall
        refine ⟨s.nodes.length, run_cons_eq_some.mpr ⟨_, hcall, ?_⟩, rfl⟩
        refine run_put rfl hnodes fun l hl => ?_
        cases hl

theorem completes_deregister (hpc : st.pc = .idle) (s : Service) :
    Completes hash encode st (.deregister s) (deregisterResult st s) := by
  have hcall : step hash encode st (.call (.deregister s)) = some (beginCall hash st (.deregister s)) := by
    unfold step
    dsimp only
    rw [hpc]
  unfold beginCall at hcall
  unfold deregisterResult
  dsimp only at hcall
  split
  · next hnodes =>
    rw [if_pos hnodes] at hcall
    exact ⟨0, run_cons_eq_some.mpr ⟨_, hcall, rfl⟩, rfl⟩
  · next hnodes =>
    rw [if_neg hnodes] at hcall
    refine ⟨s.nodes.length, run_cons_eq_some.mpr ⟨_, hcall, ?_⟩, rfl⟩
    exact run_delete rfl hnodes

end Calls

end Vmqant.Registry.Etcdv3
