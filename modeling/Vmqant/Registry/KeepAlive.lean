import Vmqant.Common.Lts
import Vmqant.Registry.Etcdv3Registry

/-!
# What the etcd registry has in the store

`Register` skips a service whose hash is cached and whose lease is alive, so the cached hash has to say that
the keys of the service are there. It does not when a call overwrites them and fails: the hash is deleted by
`Deregister` before its first request, but not by `Register`. It does not either when two keys are the same,
which is so for some names and node ids. `registered_of_along` says that there is nothing else that makes
`Register` return `nil` for a service that is not there.
-/

namespace Vmqant.Registry.Etcdv3

open Lts

variable {η ν : Type} {hash : Service → η} {encode : Service → ν}

/-- Every node of the service has its key, with the data of the service. -/
def Registered (encode : Service → ν) (st : State η ν) (s : Service) : Prop :=
  ∀ node ∈ s.nodes, ∃ lease, st.etcd.get (key s node) = some (encode (single s node), lease)

/-- `Register` skips the service. -/
def Trusted (hash : Service → η) (st : State η ν) (t : Service) : Prop :=
  st.register t.name = some (hash t) ∧ st.etcd.Usable (st.leases t.name)

/-- Nothing is trusted under a name without hash. -/
theorem Trusted.name_ne {st : State η ν} {t : Service} (h : Trusted hash st t) {name : String}
    (hnone : st.register name = none) : t.name ≠ name := by
  rintro rfl
  exact absurd (hnone.symm.trans h.1) nofun

/-! ## The condition -/

/-- The key of the node belongs to no service that is trusted under another name. -/
def Spares (hash : Service → η) (S : Set Service) (st : State η ν) (s : Service) (node : Node) : Prop :=
  ∀ t ∈ S, Trusted hash st t → t.name ≠ s.name → key s node ∉ t.nodes.map (key t)

/-- Nothing is lost when the call ends after it has put the nodes: where the service trusted under the name
has one of the keys, its own data were put again, without a lease. -/
def Harmless (hash : Service → η) (encode : Service → ν) (S : Set Service) (st : State η ν) (s : Service)
    (lease : Option ℕ) (nodes : List Node) : Prop :=
  ∀ t ∈ S, Trusted hash st t → t.name = s.name → ∀ b ∈ nodes, ∀ c ∈ t.nodes, key s b = key t c →
    lease = none ∧ encode (single s b) = encode (single t c)

/-- A request that is served spares the services of other names, and a put does not replace other data that
the same call has put; a put that fails does no harm. -/
def Safe (hash : Service → η) (encode : Service → ν) (S : Set Service) (st : State η ν) (a : Act) : Prop :=
  match st.pc, a with
  | .put s lease done (node :: _), .reply r =>
    let put := r.served = true ∧ st.etcd.Usable lease
    (put → Spares hash S st s node ∧
        ∀ b ∈ done, key s b = key s node → encode (single s b) = encode (single s node)) ∧
      (¬ (r = .answer ∧ st.etcd.Usable lease) →
        Harmless hash encode S st s lease done ∧ (put → Harmless hash encode S st s lease [node]))
  | .delete s (node :: _), .reply r => r.served = true → Spares hash S st s node
  | _, _ => True

/-! ## The invariant -/

/-- The key of the node is there, with a lease only if it is the one that is cached under the name. -/
def Held (encode : Service → ν) (st : State η ν) (t : Service) (node : Node) : Prop :=
  ∃ lease, st.etcd.get (key t node) = some (encode (single t node), lease) ∧
    ∀ l, lease = some l → st.leases t.name = some l

/-- The nodes of trusted services are held, but for those whose keys are among the ones that `written` says
of their name. -/
structure Sound (hash : Service → η) (encode : Service → ν) (S : Set Service) (written : String → List Key)
    (st : State η ν) : Prop where
  lease_lt : ∀ name l, st.leases name = some l → l < st.etcd.next
  held : ∀ t ∈ S, Trusted hash st t → ∀ node ∈ t.nodes, key t node ∉ written t.name → Held encode st t node

/-- The keys of some nodes of a service, under its name. -/
def keysOf (s : Service) (nodes : List Node) (name : String) : List Key :=
  if s.name = name then nodes.map (key s) else []

/-- The keys that the call under way has put. -/
def Pc.written : Pc → String → List Key
  | .put s _ done _ => keysOf s done
  | _ => fun _ => []

theorem mem_keysOf {s : Service} {nodes : List Node} {name : String} {k : Key} :
    k ∈ keysOf s nodes name ↔ s.name = name ∧ ∃ b ∈ nodes, key s b = k := by
  unfold keysOf
  split
  · next h => exact List.mem_map.trans (iff_and_self.mpr fun _ => h)
  · next h => exact iff_of_false List.not_mem_nil fun hmem => h hmem.1

/-- What the local variables of the call say of the state. -/
def PcSound (encode : Service → ν) (S : Set Service) (st : State η ν) : Prop :=
  match st.pc with
  | .idle => True
  | .keepAlive s _ leaseID => s ∈ S ∧ st.leases s.name = some leaseID
  | .grant s => s ∈ S
  | .put s lease done todo =>
    s ∈ S ∧ s.nodes = done ++ todo ∧ (∀ l, lease = some l → l < st.etcd.next) ∧
      (st.etcd.Usable lease →
        ∀ node ∈ done, st.etcd.get (key s node) = some (encode (single s node), lease))
  | .delete s _ => st.register s.name = none

structure Inv (hash : Service → η) (encode : Service → ν) (S : Set Service) (st : State η ν) : Prop where
  sound : Sound hash encode S st.pc.written st
  pc : PcSound encode S st
  returned : ∀ s, st.returned = some s → Registered encode st s

section Step

variable {S : Set Service} {st st' : State η ν} {s : Service} {node : Node} {lease : Option ℕ}
  {written : String → List Key} {done : List Node}

/-- A call that returns otherwise than with success. -/
theorem Inv.ret (h : Sound hash encode S (fun _ => []) st) : Inv hash encode S (st.ret none) :=
  ⟨⟨h.lease_lt, h.held⟩, trivial, nofun⟩

theorem inv_expire (h : Inv hash encode S st) (l : ℕ) :
    Inv hash encode S { st with etcd := st.etcd.expire l, returned := none } := by
  have htrust : ∀ t, Trusted hash { st with etcd := st.etcd.expire l, returned := none } t →
      Trusted hash st t ∧ st.leases t.name ≠ some l := by
    rintro t ⟨hreg, husable⟩
    obtain ⟨husable, hne⟩ := LeaseStore.usable_expire.mp husable
    exact ⟨⟨hreg, husable⟩, hne⟩
  refine ⟨⟨h.sound.lease_lt, fun t ht ht' node hnode hfree => ?_⟩, ?_, nofun⟩
  · obtain ⟨ht', hne⟩ := htrust t ht'
    obtain ⟨lease, hget, hlease⟩ := h.sound.held t ht ht' node hnode hfree
    exact ⟨lease, LeaseStore.get_expire_of_ne hget fun heq => hne (hlease l heq), hlease⟩
  · have hpc := h.pc
    unfold PcSound at hpc ⊢
    dsimp only
    split
    · trivial
    · next s ttl leaseID heq => rwa [heq] at hpc
    · next s heq => rwa [heq] at hpc
    · next s lease done todo heq =>
      rw [heq] at hpc
      obtain ⟨hs, hnodes, hlt, hdone⟩ := hpc
      refine ⟨hs, hnodes, hlt, fun husable node hnode => ?_⟩
      obtain ⟨husable, hne⟩ := LeaseStore.usable_expire.mp husable
      exact LeaseStore.get_expire_of_ne (hdone husable node hnode) hne
    · next s todo heq => rwa [heq] at hpc

theorem sound_grant (h : Sound hash encode S written st) :
    Sound hash encode S written { st with etcd := st.etcd.grant } := by
  refine ⟨fun name l hl => (h.lease_lt name l hl).trans (Nat.lt_succ_self _), ?_⟩
  rintro t ht ⟨hreg, husable⟩
  exact h.held t ht ⟨hreg, (LeaseStore.usable_grant (h.lease_lt t.name)).mp husable⟩

/-- Among services whose names and ids are plain there is nothing to spare. -/
theorem spares_of_plain (hS : ∀ t ∈ S, Plain t.name ∧ ∀ c ∈ t.nodes, Plain c.id) (hname : Plain s.name)
    (hid : Plain node.id) : Spares hash S st s node := by
  intro t ht _ hne hmem
  obtain ⟨c, hc, hkey⟩ := List.mem_map.mp hmem
  exact hne (nodePath_inj (hS t ht).1 ((hS t ht).2 c hc) hname hid hkey).1

/-! ### The loop of `Register` -/

theorem sound_put (h : Sound hash encode S (keysOf s done) st) (hspares : Spares hash S st s node) :
    Sound hash encode S (keysOf s (done ++ [node]))
      { st with etcd := st.etcd.put (key s node) (encode (single s node)) lease } := by
  refine ⟨h.lease_lt, fun t ht htrust c hc hfree => ?_⟩
  have hne : key t c ≠ key s node := by
    intro heq
    by_cases hname : t.name = s.name
    · exact hfree (mem_keysOf.mpr ⟨hname.symm, node, by simp, heq.symm⟩)
    · exact hspares t ht htrust hname (heq ▸ List.mem_map_of_mem hc)
  have hfree' : key t c ∉ keysOf s done t.name := by
    intro hmem
    obtain ⟨hname, b, hb, hkey⟩ := mem_keysOf.mp hmem
    exact hfree (mem_keysOf.mpr ⟨hname, b, List.mem_append_left _ hb, hkey⟩)
  obtain ⟨lease', hget, hlease'⟩ := h.held t ht htrust c hc hfree'
  exact ⟨lease', (LeaseStore.get_put_of_ne hne).trans hget, hlease'⟩

theorem done_put
    (hdone : ∀ b ∈ done, st.etcd.get (key s b) = some (encode (single s b), lease))
    (hsame : ∀ b ∈ done, key s b = key s node → encode (single s b) = encode (single s node)) :
    ∀ b ∈ done ++ [node],
      (st.etcd.put (key s node) (encode (single s node)) lease).get (key s b)
        = some (encode (single s b), lease) := by
  intro b hb
  rcases List.mem_append.mp hb with hb | hb
  · by_cases hkey : key s b = key s node
    · rw [hkey, LeaseStore.get_put_self, hsame b hb hkey]
    · rw [LeaseStore.get_put_of_ne hkey, hdone b hb]
  · obtain rfl := List.mem_singleton.mp hb
    exact LeaseStore.get_put_self _ _ _ _

/-- A call that ends in the loop without harm. -/
theorem sound_of_harmless (h : Sound hash encode S (keysOf s done) st)
    (hdone : st.etcd.Usable lease →
      ∀ b ∈ done, st.etcd.get (key s b) = some (encode (single s b), lease))
    (hharmless : Harmless hash encode S st s lease done) : Sound hash encode S (fun _ => []) st := by
  refine ⟨h.lease_lt, fun t ht htrust c hc _ => ?_⟩
  by_cases hfree : key t c ∈ keysOf s done t.name
  · obtain ⟨hname, b, hb, hkey⟩ := mem_keysOf.mp hfree
    obtain ⟨rfl, hvalue⟩ := hharmless t ht htrust hname.symm b hb c hc hkey
    have husable : st.etcd.Usable none := by
      intro l hl
      cases hl
    refine ⟨none, ?_, fun l hl => by cases hl⟩
    rw [← hkey, hdone husable b hb, hvalue]
  · exact h.held t ht htrust c hc hfree

theorem inv_save (hhash : Set.InjOn hash S) (h : Sound hash encode S (keysOf s s.nodes) st) (hs : s ∈ S)
    (hlt : ∀ l, lease = some l → l < st.etcd.next)
    (hall : ∀ b ∈ s.nodes, st.etcd.get (key s b) = some (encode (single s b), lease)) :
    Inv hash encode S (save hash st s lease) := by
  have hother : ∀ name, name ≠ s.name → (save hash st s lease).leases name = st.leases name := by
    intro name hname
    cases lease with
    | none => rfl
    | some l => exact Function.update_of_ne hname _ _
  have hself : ∀ l, lease = some l → (save hash st s lease).leases s.name = some l := by
    rintro l rfl
    exact Function.update_self _ _ _
  refine ⟨⟨fun name l hl => ?_, fun t ht htrust c hc _ => ?_⟩, trivial, fun s' hs' => ?_⟩
  · by_cases hname : name = s.name
    · subst hname
      cases lease with
      | none => exact h.lease_lt s.name l hl
      | some l' =>
        obtain rfl : l' = l := Option.some.inj ((hself l' rfl).symm.trans hl)
        exact hlt l' rfl
    · exact h.lease_lt name l ((hother name hname).symm.trans hl)
  · obtain ⟨hreg, husable⟩ := htrust
    by_cases hname : t.name = s.name
    · -- the hash that is cached is that of `s`
      have heq : hash t = hash s := by
        have hsaved : (save hash st s lease).register t.name = some (hash s) := by
          rw [hname]
          exact Function.update_self _ _ _
        exact Option.some.inj (hreg.symm.trans hsaved)
      obtain rfl : t = s := hhash ht hs heq
      exact ⟨lease, hall c hc, hself⟩
    · have htrust : Trusted hash st t :=
        ⟨(Function.update_of_ne hname _ _).symm.trans hreg, hother t.name hname ▸ husable⟩
      have hfree : key t c ∉ keysOf s s.nodes t.name := fun hmem => hname (mem_keysOf.mp hmem).1.symm
      obtain ⟨lease', hget, hlease'⟩ := h.held t ht htrust c hc hfree
      exact ⟨lease', hget, fun l hl => (hother t.name hname).trans (hlease' l hl)⟩
  · obtain rfl : s = s' := Option.some.inj hs'
    exact fun b hb => ⟨lease, hall b hb⟩

theorem inv_putReply (hhash : Set.InjOn hash S) {todo : List Node} {r : Reply}
    (h : Inv hash encode S st) (hpc : st.pc = .put s lease done (node :: todo))
    (hsafe : Safe hash encode S st (.reply r)) :
    Inv hash encode S (putReply hash encode st s lease done node todo r) := by
  have hsound : Sound hash encode S (keysOf s done) st := by
    have hsound := h.sound
    rwa [hpc] at hsound
  have hlocal := h.pc
  unfold PcSound at hlocal
  rw [hpc] at hlocal
  obtain ⟨hs, hnodes, hlt, hdone⟩ := hlocal
  unfold Safe at hsafe
  rw [hpc] at hsafe
  obtain ⟨hput, hfail⟩ := hsafe
  by_cases hserved : r.served = true ∧ st.etcd.Usable lease
  · -- the key is put
    have hput? : st.etcd.put? (key s node) (encode (single s node)) lease
        = some (st.etcd.put (key s node) (encode (single s node)) lease) :=
      LeaseStore.put?_eq_some.mpr ⟨hserved.2, rfl⟩
    obtain ⟨hspares, hsame⟩ := hput hserved
    have hsound' : Sound hash encode S (keysOf s (done ++ [node]))
        { st with etcd := st.etcd.put (key s node) (encode (single s node)) lease } :=
      sound_put hsound hspares
    have hdone' := done_put (hdone hserved.2) hsame
    unfold putReply
    rw [hput?]
    cases r with
    | answer =>
      dsimp only
      split
      · next htodo =>
        rw [htodo] at hnodes
        rw [← hnodes] at hsound' hdone'
        exact inv_save hhash hsound' hs hlt hdone'
      · refine ⟨⟨hsound'.lease_lt, hsound'.held⟩, ⟨hs, ?_, hlt, fun _ => hdone'⟩, nofun⟩
        rw [hnodes, List.append_assoc, List.singleton_append]
    | failed served =>
      obtain rfl : served = true := hserved.1
      obtain ⟨hharmless, hharmless'⟩ := hfail nofun
      refine Inv.ret (sound_of_harmless hsound' (fun _ => hdone') ?_)
      intro t ht htrust hname b hb
      rcases List.mem_append.mp hb with hb | hb
      · exact hharmless t ht htrust hname b hb
      · exact hharmless' hserved t ht htrust hname b hb
  · -- the store is as before, and the call returns an error
    have hret : putReply hash encode st s lease done node todo r = st.ret none := by
      unfold putReply
      by_cases husable : st.etcd.Usable lease
      · cases r with
        | answer => exact absurd ⟨rfl, husable⟩ hserved
        | failed served =>
          cases served with
          | true => exact absurd ⟨rfl, husable⟩ hserved
          | false => rfl
      · rw [LeaseStore.put?_eq_none.mpr husable]
        cases r with
        | answer => rfl
        | failed served => cases served <;> rfl
    rw [hret]
    refine Inv.ret (sound_of_harmless hsound hdone (hfail ?_).1)
    rintro ⟨rfl, husable⟩
    exact hserved ⟨rfl, husable⟩

/-! ### The loop of `Deregister` -/

theorem sound_delete (h : Sound hash encode S (fun _ => []) st) (hreg : st.register s.name = none)
    (hspares : Spares hash S st s node) :
    Sound hash encode S (fun _ => []) { st with etcd := st.etcd.delete (key s node) } := by
  refine ⟨h.lease_lt, fun t ht htrust c hc hfree => ?_⟩
  have hname : t.name ≠ s.name := htrust.name_ne hreg
  have hne : key t c ≠ key s node := fun heq =>
    hspares t ht htrust hname (heq ▸ List.mem_map_of_mem hc)
  obtain ⟨lease, hget, hlease⟩ := h.held t ht htrust c hc hfree
  exact ⟨lease, (LeaseStore.get_delete_of_ne hne).trans hget, hlease⟩

theorem inv_deleteReply {todo : List Node} {r : Reply} (h : Inv hash encode S st)
    (hpc : st.pc = .delete s (node :: todo)) (hsafe : Safe hash encode S st (.reply r)) :
    Inv hash encode S (deleteReply st s node todo r) := by
  have hsound : Sound hash encode S (fun _ => []) st := by
    have hsound := h.sound
    rwa [hpc] at hsound
  have hreg := h.pc
  unfold PcSound at hreg
  rw [hpc] at hreg
  unfold Safe at hsafe
  rw [hpc] at hsafe
  have hsound' : Sound hash encode S (fun _ => [])
      { st with etcd := if r.served then st.etcd.delete (key s node) else st.etcd } := by
    split
    · next hserved => exact sound_delete hsound hreg (hsafe hserved)
    · exact hsound
  unfold deleteReply
  dsimp only
  split
  · exact ⟨⟨hsound'.lease_lt, hsound'.held⟩, hreg, nofun⟩
  · exact Inv.ret hsound'

/-! ### One step -/

variable [DecidableEq η]

theorem inv_checkHash (h : Sound hash encode S (fun _ => []) st) (hs : s ∈ S) (ttl : ℤ)
    {leaseNotFound : Bool} (hlease : leaseNotFound = false → st.etcd.Usable (st.leases s.name)) :
    Inv hash encode S (checkHash hash st s ttl leaseNotFound) := by
  unfold checkHash
  split
  · next hskip =>
    refine ⟨⟨h.lease_lt, h.held⟩, trivial, fun s' hs' => ?_⟩
    obtain rfl : s = s' := Option.some.inj hs'
    intro node hnode
    obtain ⟨lease, hget, -⟩ :=
      h.held s hs ⟨hskip.1, hlease hskip.2⟩ node hnode List.not_mem_nil
    exact ⟨lease, hget⟩
  · -- the call does not return yet
    have hreturned : ∀ s', (none : Option Service) = some s' → Registered encode st s' := by
      intro s' hs'
      cases hs'
    split
    · exact ⟨⟨h.lease_lt, h.held⟩, hs, hreturned⟩
    · refine ⟨⟨h.lease_lt, fun t ht htrust node hnode _ => ?_⟩, ⟨hs, rfl, ?_, fun _ _ hmem => ?_⟩, hreturned⟩
      · exact h.held t ht htrust node hnode List.not_mem_nil
      · intro l hl
        cases hl
      · exact absurd hmem List.not_mem_nil

theorem inv_beginCall (h : Sound hash encode S (fun _ => []) st) {c : Call}
    (hc : ∀ s ttl, c = .register s ttl → s ∈ S) : Inv hash encode S (beginCall hash st c) := by
  cases c with
  | register s ttl =>
    have hs := hc s ttl rfl
    unfold beginCall
    dsimp only
    split
    · exact Inv.ret h
    · split
      · next l hl => exact ⟨⟨h.lease_lt, h.held⟩, ⟨hs, hl⟩, nofun⟩
      · next hl =>
        refine inv_checkHash h hs ttl fun _ l hlease => ?_
        rw [hl] at hlease
        cases hlease
  | deregister s =>
    unfold beginCall
    dsimp only
    split
    · exact Inv.ret h
    · refine ⟨⟨fun name l hl => ?_, fun t ht htrust node hnode hfree => ?_⟩, Function.update_self _ _ _,
        nofun⟩
      · by_cases hname : name = s.name
        · subst hname
          exact absurd ((Function.update_self _ _ _).symm.trans hl) nofun
        · exact h.lease_lt name l ((Function.update_of_ne hname _ _).symm.trans hl)
      · have hname : t.name ≠ s.name := htrust.name_ne (Function.update_self _ _ _)
        obtain ⟨hreg, husable⟩ := htrust
        have hleases : Function.update st.leases s.name none t.name = st.leases t.name :=
          Function.update_of_ne hname _ _
        have htrust : Trusted hash st t :=
          ⟨(Function.update_of_ne hname _ _).symm.trans hreg, hleases ▸ husable⟩
        obtain ⟨lease, hget, hlease⟩ := h.held t ht htrust node hnode hfree
        exact ⟨lease, hget, fun l hl => hleases.trans (hlease l hl)⟩

theorem inv_onReply (hhash : Set.InjOn hash S) {r : Reply} (h : Inv hash encode S st)
    (hsafe : Safe hash encode S st (.reply r)) (hstep : onReply hash encode st r = some st') :
    Inv hash encode S st' := by
  have hsound := h.sound
  have hlocal := h.pc
  unfold PcSound at hlocal
  unfold onReply at hstep
  split at hstep
  · cases hstep
  · next s ttl l hpc =>
    rw [hpc] at hsound hlocal
    split at hstep
    · obtain rfl := Option.some.inj hstep
      refine inv_checkHash hsound hlocal.1 ttl fun hfound l' hl' => ?_
      obtain rfl : l = l' := Option.some.inj (hlocal.2.symm.trans hl')
      exact (Bool.not_eq_eq_eq_not.mp hfound)
    · obtain rfl := Option.some.inj hstep
      exact Inv.ret hsound
  · next s hpc =>
    rw [hpc] at hsound hlocal
    dsimp only at hstep
    split at hstep
    · next hr =>
      subst hr
      obtain rfl := Option.some.inj hstep
      have hgrant := sound_grant hsound
      refine ⟨⟨hgrant.lease_lt, fun t ht htrust c hc _ => ?_⟩, ⟨hlocal, rfl, ?_, fun _ => nofun⟩, nofun⟩
      · exact hgrant.held t ht htrust c hc List.not_mem_nil
      · intro l hl
        obtain rfl : st.etcd.next = l := Option.some.inj hl
        exact Nat.lt_succ_self _
    · obtain rfl := Option.some.inj hstep
      refine Inv.ret ?_
      split
      · exact sound_grant hsound
      · exact hsound
  · next s lease done node todo hpc =>
    obtain rfl := Option.some.inj hstep
    exact inv_putReply hhash h hpc hsafe
  · next s node todo hpc =>
    obtain rfl := Option.some.inj hstep
    exact inv_deleteReply h hpc hsafe
  · cases hstep
  · cases hstep

theorem inv_step (hhash : Set.InjOn hash S) {a : Act} (ha : ∀ s ttl, a = .call (.register s ttl) → s ∈ S)
    (h : Inv hash encode S st) (hsafe : Safe hash encode S st a) (hstep : step hash encode st a = some st') :
    Inv hash encode S st' := by
  cases a with
  | call c =>
    unfold step at hstep
    dsimp only at hstep
    split at hstep
    · next hpc =>
      obtain rfl := Option.some.inj hstep
      have hsound := h.sound
      rw [hpc] at hsound
      exact inv_beginCall hsound fun s ttl heq => ha s ttl (congrArg Act.call heq)
    · cases hstep
  | reply r => exact inv_onReply hhash h hsafe hstep
  | expire l =>
    obtain rfl := Option.some.inj hstep
    exact inv_expire h l

end Step

/-! ## Every run -/

/-- The services that a run registers. -/
def registered (as : List Act) : Set Service := {s | ∃ ttl, .call (.register s ttl) ∈ as}

variable [DecidableEq η]

/-- In a run along the condition, a service for which `Register` returns `nil` has all its keys. The hashes of
the services that the run registers are different. -/
theorem registered_of_along {as : List Act} (hhash : Set.InjOn hash (registered as))
    {etcd : LeaseStore Key ν} {st : State η ν} (hrun : run (step hash encode) (start etcd) as = some st)
    (hsafe : Along (step hash encode) (Safe hash encode (registered as)) (start etcd) as) {s : Service}
    (hs : st.returned = some s) : Registered encode st s := by
  have hinit : Inv hash encode (registered as) (start etcd) := ⟨⟨nofun, nofun⟩, trivial, nofun⟩
  have hcalls : Along (step hash encode)
      (fun _ a => ∀ s ttl, a = .call (.register s ttl) → s ∈ registered as) (start etcd) as :=
    along_of_mem (fun a ha _ s ttl heq => ⟨ttl, heq ▸ ha⟩) _
  have hinv : Inv hash encode (registered as) st :=
    run_invariant (fun _ _ _ h hC hstep => inv_step hhash hC.2 h hC.1 hstep) hinit (hsafe.and hcalls) hrun
  exact hinv.returned s hs

def oldService : Service := { name := "gate", version := "1", nodes := [firstNode] }

def newService : Service := { name := "gate", version := "2", nodes := [firstNode, secondNode] }

def emptyStore : LeaseStore Key (List Char) := LeaseStore.empty

/-- A service is registered with a lease, and registered again while the lease is alive. -/
def renewal : List Act :=
  [.call (.register oldService 5000000000), .reply .answer, .reply .answer,
    .call (.register oldService 5000000000), .reply .answer]

theorem registered_renewal : registered renewal = {oldService} := by
  ext s
  simp [registered, renewal]

theorem registered_of_along_sample : ∃ st,
    run (step sampleJson sampleJson) (start emptyStore) renewal = some st ∧
      st.returned = some oldService ∧ Registered sampleJson st oldService := by
  have hhash : Set.InjOn sampleJson (registered renewal) := by
    rw [registered_renewal]
    exact Set.injOn_singleton _ _
  have hsafe : Along (step sampleJson sampleJson) (Safe sampleJson sampleJson (registered renewal))
      (start emptyStore) renewal := by
    refine Along.cons trivial rfl (Along.cons trivial rfl (Along.cons ?_ rfl
      (Along.cons trivial rfl (Along.cons trivial rfl Along.nil))))
    -- nothing is trusted yet when the node is put
    refine ⟨fun _ => ⟨fun t _ htrust => absurd htrust.1 nofun, nofun⟩, fun h => ?_⟩
    refine absurd ⟨rfl, fun l hl => ?_⟩ h
    obtain rfl := Option.some.inj hl
    rfl
  refine ⟨_, rfl, rfl, ?_⟩
  refine registered_of_along hhash ?_ hsafe rfl
  rfl

/-- A call that fails after it has put one of its nodes, and then the service that was registered before. -/
def failure : List Act :=
  [.call (.register oldService 0), .reply .answer,
    .call (.register newService 0), .reply .answer, .reply (.failed false),
    .call (.register oldService 0)]

/-- The service is skipped, though its key holds other data. -/
theorem not_registered_after_failure : Set.InjOn sampleJson (registered failure) ∧
    ∃ st, run (step sampleJson sampleJson) (start emptyStore) failure = some st ∧
      st.returned = some oldService ∧ ¬ Registered sampleJson st oldService := by
  refine ⟨?_, _, rfl, rfl, fun h => ?_⟩
  · have hset : registered failure = {oldService, newService} := by
      ext s
      constructor
      · rintro ⟨ttl, h⟩
        simp only [failure, List.mem_cons, Act.call.injEq, Call.register.injEq, reduceCtorEq,
          List.not_mem_nil, or_false, false_or] at h
        rcases h with h | h | h
        · exact .inl h.1
        · exact .inr h.1
        · exact .inl h.1
      · rintro (rfl | rfl)
        · exact ⟨0, by simp [failure]⟩
        · exact ⟨0, by simp [failure]⟩
    have hne : sampleJson oldService ≠ sampleJson newService := by decide +kernel
    rw [hset]
    exact Set.injOn_pair.mpr fun heq => absurd heq hne
  · obtain ⟨lease, hget⟩ := h firstNode List.mem_cons_self
    have hstored : (run (step sampleJson sampleJson) (start emptyStore) failure).map
        (fun st => st.etcd.get (key oldService firstNode))
          = some (some (sampleJson (single newService firstNode), none)) := by decide +kernel
    have heq := (Option.some.inj hstored).symm.trans hget
    have hne : sampleJson (single newService firstNode) ≠ sampleJson (single oldService firstNode) := by
      decide +kernel
    exact hne (congrArg Prod.fst (Option.some.inj heq))

end Vmqant.Registry.Etcdv3
