import Vmqant.Common.HostPort
import Vmqant.Common.Http
import Vmqant.Utils.IpTool

/-!
# The address of a client

Reference: `utils/ip/iptool.go`, lines 10-30 and 89-98.

`RealIP` takes what stands before the first colon of the remote address. If that is an inner address, it takes
the first entry of the forwarded addresses that is none: also one that is no address at all.
-/

namespace Vmqant.IpTool

open HostPort Http IPAddr
open Printf (ascii)
open Utf8 (trimSpace)

/-! ## The functions -/

/-- The loop of `GetGlobalIPFromXforwardedFor`. -/
def firstGlobal : List (List UInt8) → Except PanicValue (List UInt8)
  | [] => pure []
  | ip :: ips => do
    if !(← isInnerIp (trimSpace ip)) then pure (trimSpace ip)
    else firstGlobal ips

/-- `GetGlobalIPFromXforwardedFor`. -/
def getGlobalIPFromXforwardedFor (xforwardedFor : List UInt8) : Except PanicValue (List UInt8) :=
  firstGlobal (xforwardedFor.splitOn ','.toUInt8)

/-- The two times that `RealIP` asks for the forwarded addresses; `next` is what it does if there is none. -/
def orForwarded (forwarded : List UInt8) (next : Except PanicValue (List UInt8)) :
    Except PanicValue (List UInt8) :=
  if forwarded.length > 0 then do
    let ip ← getGlobalIPFromXforwardedFor forwarded
    if ip ≠ [] then pure ip else next
  else next

/-- `RealIP`. -/
def realIP (r : Http.Request) : Except PanicValue (List UInt8) := do
  let remote ← Slice.index (r.remoteAddr.splitOn colon) 0
  if !(← isInnerIp remote) then pure remote
  else
    orForwarded (getHeader r.header (ascii "X-Forwarded-For"))
      (orForwarded (getHeader r.header (ascii "x-forwarded-for")) (pure remote))

/-! ## What it is for -/

/-- The text is an address that is not private. -/
def Public (s : List UInt8) : Prop := ∃ ip ∈ parseIP s, ¬ Private ip

instance : DecidablePred Public := fun s => inferInstanceAs (Decidable (∃ ip ∈ parseIP s, ¬ Private ip))

/-- The entries of a list of forwarded addresses. -/
def entries (forwarded : List UInt8) : List (List UInt8) := (forwarded.splitOn ','.toUInt8).map trimSpace

/-- The address of the client: the remote host if it is public, else the first public entry, else the remote
host. -/
def clientAddr (host forwarded : List UInt8) : List UInt8 :=
  if Public host then host else ((entries forwarded).find? Public).getD host

/-- `RealIP` returns the address of the client, and it is an address. -/
def Extracts (r : Http.Request) (host : List UInt8) : Prop :=
  realIP r = .ok (clientAddr host (getHeader r.header (ascii "X-Forwarded-For"))) ∧
    (parseIP (clientAddr host (getHeader r.header (ascii "X-Forwarded-For")))).isSome

/-! ## The entries that the loop passes over -/

/-- The text is a private IPv4 address. -/
def Inner (s : List UInt8) : Prop := ∃ v ∈ parseIPv4 s, Private (mapped v)

instance : DecidablePred Inner := fun s => inferInstanceAs (Decidable (∃ v ∈ parseIPv4 s, Private (mapped v)))

variable {s f host : List UInt8}

theorem isInnerIp_of_inner (h : Inner s) : isInnerIp s = .ok true := by
  obtain ⟨v, hv, hprivate⟩ := h
  rw [isInnerIp_of_parseIPv4 hv, decide_eq_true hprivate]

/-- An address with a dot that is no private IPv4 address is taken. -/
theorem isInnerIp_of_not_inner {ip : List UInt8} (h : ¬ Inner s) (hip : parseIP s = some ip) (hdot : dot ∈ s) :
    isInnerIp s = .ok false := by
  rcases parseIP_cases hip with ⟨v, hv, -⟩ | ⟨hcolon, -⟩
  · have hpublic : ¬ Private (mapped v) := fun hprivate => h ⟨v, hv, hprivate⟩
    rw [isInnerIp_of_parseIPv4 hv, decide_eq_false hpublic]
  · exact isInnerIp_of_tail hip hcolon hdot

theorem isInnerIp_ne_true (h : ¬ Inner s) : isInnerIp s ≠ .ok true := by
  cases hip : parseIP s with
  | none =>
    rw [isInnerIp_of_none hip]
    nofun
  | some ip =>
    by_cases hdot : dot ∈ s
    · rw [isInnerIp_of_not_inner h hip hdot]
      nofun
    · rw [isInnerIp_of_not_dot hip hdot]
      nofun

theorem not_public_of_inner (h : Inner s) : ¬ Public s := by
  obtain ⟨v, hv, hprivate⟩ := h
  rintro ⟨ip, hip, hpublic⟩
  rw [parseIP_of_parseIPv4 hv] at hip
  obtain rfl := Option.some.inj hip
  exact hpublic hprivate

/-- The loop asks about the first entry that is no private IPv4 address, and returns it if it can. -/
theorem firstGlobal_eq (ips : List (List UInt8)) :
    firstGlobal ips =
      match (ips.map trimSpace).find? (fun e => ¬ Inner e) with
      | some f => (isInnerIp f).map fun _ => f
      | none => .ok [] := by
  induction ips with
  | nil => rfl
  | cons ip ips ih =>
    rw [firstGlobal, List.map_cons]
    by_cases hinner : Inner (trimSpace ip)
    · rw [isInnerIp_of_inner hinner, List.find?_cons_of_neg (by simpa using hinner), ← ih]
      rfl
    · have hne := isInnerIp_ne_true hinner
      rw [List.find?_cons_of_pos (by simpa using hinner)]
      show _ = (isInnerIp (trimSpace ip)).map fun _ => trimSpace ip
      cases hx : isInnerIp (trimSpace ip) with
      | error v => rfl
      | ok b =>
        cases b with
        | true => exact absurd hx hne
        | false => rfl

/-- The first entry that the loop does not pass over. -/
def head (forwarded : List UInt8) : Option (List UInt8) := (entries forwarded).find? fun e => ¬ Inner e

theorem getGlobalIP_eq (forwarded : List UInt8) :
    getGlobalIPFromXforwardedFor forwarded =
      match head forwarded with
      | some f => (isInnerIp f).map fun _ => f
      | none => .ok [] :=
  firstGlobal_eq _

theorem isInnerIp_nil : isInnerIp [] = .ok false := isInnerIp_of_none rfl

/-- Without a header there is one entry, which is empty. -/
theorem head_nil : head [] = some [] := by decide +kernel

theorem orForwarded_eq (forwarded : List UInt8) (next : Except PanicValue (List UInt8)) :
    orForwarded forwarded next =
      match head forwarded with
      | some f => isInnerIp f >>= fun _ => if f = [] then next else pure f
      | none => next := by
  by_cases hnil : forwarded = []
  · subst hnil
    rw [head_nil]
    show next = isInnerIp [] >>= fun _ => next
    rw [isInnerIp_nil]
    rfl
  · unfold orForwarded
    rw [if_pos (List.length_pos_of_ne_nil hnil), getGlobalIP_eq]
    cases head forwarded with
    | none => rfl
    | some f =>
      show ((isInnerIp f).map fun _ => f) >>= _ = isInnerIp f >>= _
      cases isInnerIp f with
      | error v => rfl
      | ok b => exact ite_not (f = []) _ _

/-- The two tries ask for one header, so the second finds what the first found. -/
theorem orForwarded_twice (forwarded remote : List UInt8) :
    orForwarded forwarded (orForwarded forwarded (pure remote)) =
      match head forwarded with
      | some f => isInnerIp f >>= fun _ => pure (if f = [] then remote else f)
      | none => .ok remote := by
  rw [orForwarded_eq, orForwarded_eq]
  cases head forwarded with
  | none => rfl
  | some f =>
    show isInnerIp f >>= (fun _ => if f = [] then isInnerIp f >>= _ else pure f) = isInnerIp f >>= _
    cases isInnerIp f with
    | error v => rfl
    | ok b =>
      by_cases hf : f = []
      · subst hf
        rfl
      · simp only [if_neg hf]

/-! ## What `RealIP` returns -/

/-- The first part of a remote address. -/
theorem index_splitOn {host rest : List UInt8} (h : colon ∉ host) :
    Slice.index ((host ++ colon :: rest).splitOn colon) 0 = .ok host := by
  rw [splitOn_append_of_not_mem h, List.splitOn_cons_eq_if_modifyHead, if_pos (beq_self_eq_true colon)]
  show Except.ok (host ++ []) = _
  rw [List.append_nil]

variable {r : Http.Request} {host port : List UInt8}

theorem splitOn_remoteAddr (hplain : ¬ Bracketed r.remoteAddr)
    (hsplit : splitHostPort r.remoteAddr = .ok (host, port)) :
    Slice.index (r.remoteAddr.splitOn colon) 0 = .ok host := by
  obtain ⟨haddr, hcolon⟩ := eq_of_splitHostPort hplain hsplit
  rw [haddr]
  exact index_splitOn hcolon

/-- The host of a remote address without brackets is returned if it is public. -/
theorem realIP_of_public (hremote : Slice.index (r.remoteAddr.splitOn colon) 0 = .ok host)
    (hinner : isInnerIp host = .ok false) : realIP r = .ok host := by
  unfold realIP
  rw [hremote]
  show (isInnerIp host >>= _) = _
  rw [hinner]
  rfl

theorem realIP_of_inner (hremote : Slice.index (r.remoteAddr.splitOn colon) 0 = .ok host)
    (hinner : Inner host) :
    realIP r =
      match head (getHeader r.header (ascii "X-Forwarded-For")) with
      | some f => isInnerIp f >>= fun _ => pure (if f = [] then host else f)
      | none => .ok host := by
  have hkey : getHeader r.header (ascii "x-forwarded-for") = getHeader r.header (ascii "X-Forwarded-For") := by
    have hcanonical : canonicalKey (ascii "x-forwarded-for") = canonicalKey (ascii "X-Forwarded-For") := by
      decide +kernel
    unfold getHeader
    rw [hcanonical]
  rw [← orForwarded_twice]
  unfold realIP
  rw [hremote]
  show (isInnerIp host >>= _) = _
  rw [isInnerIp_of_inner hinner, hkey]
  rfl

/-- What starts with a bracket is no address, and is returned. -/
theorem realIP_of_bracketed (h : Bracketed r.remoteAddr) :
    ∃ s, realIP r = .ok s ∧ parseIP s = none := by
  obtain ⟨t, ht⟩ : ∃ t, r.remoteAddr = '['.toUInt8 :: t := List.head?_eq_some_iff.mp h
  obtain ⟨u, us, hu⟩ := List.exists_cons_of_ne_nil (List.splitOn_ne_nil colon t)
  have hsplit : r.remoteAddr.splitOn colon = ('['.toUInt8 :: u) :: us := by
    rw [ht, List.splitOn_cons_eq_if_modifyHead, if_neg (by decide), hu]
    rfl
  have hnone : parseIP ('['.toUInt8 :: u) = none := by
    rw [Option.eq_none_iff_forall_ne_some]
    intro ip hip
    have hbyte : AddrByte '['.toUInt8 := addrByte_of_parseIP hip _ List.mem_cons_self
    unfold AddrByte at hbyte
    revert hbyte
    decide
  refine ⟨_, realIP_of_public ?_ (isInnerIp_of_none hnone), hnone⟩
  rw [hsplit]
  rfl

/-- The first entry that is no private IPv4 address, if there is one, is a public address with a dot, or it is
empty and no entry is public. -/
def Sound (forwarded : List UInt8) : Prop :=
  ∀ f ∈ head forwarded, (dot ∈ f ∧ Public f) ∨ (f = [] ∧ ∀ e ∈ entries forwarded, ¬ Public e)

theorem isSome_of_public (h : Public s) : (parseIP s).isSome := by
  obtain ⟨ip, hip, -⟩ := h
  exact Option.isSome_of_mem hip

theorem ne_nil_of_public (h : Public s) : s ≠ [] := by
  rintro rfl
  cases isSome_of_public h

/-- The entries before the one that the loop stops at are private. -/
theorem find?_public_of_head {forwarded f : List UInt8} (h : head forwarded = some f) :
    ∃ es : List (List UInt8), (entries forwarded).find? Public =
      if Public f then some f else es.find? Public := by
  obtain ⟨-, before, after, hentries, hbefore⟩ := List.find?_eq_some_iff_append.mp h
  have hnone : before.find? Public = none := by
    rw [List.find?_eq_none]
    intro e he hpublic
    have hinner : Inner e := by simpa using hbefore e he
    exact not_public_of_inner hinner (of_decide_eq_true hpublic)
  refine ⟨after, ?_⟩
  rw [hentries, List.find?_append, hnone, Option.none_or]
  by_cases hf : Public f
  · rw [List.find?_cons_of_pos (by simpa using hf), if_pos hf]
  · rw [List.find?_cons_of_neg (by simpa using hf), if_neg hf]

/-- The first public address is no text that is not public. -/
theorem getD_find?_eq_iff {es : List (List UInt8)} {other : List UInt8} (hother : ¬ Public other) :
    other = (es.find? Public).getD host ↔ es.find? Public = none ∧ other = host := by
  cases hfind : es.find? Public with
  | none => simp
  | some g =>
    have hg : Public g := by simpa using List.find?_some hfind
    refine iff_of_false ?_ (by simp)
    rintro rfl
    exact hother hg

theorem not_extracts_of_none (hreturn : realIP r = .ok s) (hnone : parseIP s = none) : ¬ Extracts r host := by
  rintro ⟨hextract, haddr⟩
  rw [← Except.ok.inj (hreturn.symm.trans hextract), hnone] at haddr
  cases haddr

/-- A public entry is returned if it has a dot: `IsInnerIp` panics on the others. -/
theorem returned_of_public (hf : ¬ Inner f) (hpublic : Public f) :
    (isInnerIp f >>= fun _ => pure (if f = [] then host else f)) = .ok f ↔ dot ∈ f := by
  rw [if_neg (ne_nil_of_public hpublic)]
  obtain ⟨ip, hip, -⟩ := hpublic
  constructor
  · intro hreturn
    by_contra hdot
    rw [isInnerIp_of_not_dot hip hdot] at hreturn
    cases hreturn
  · intro hdot
    rw [isInnerIp_of_not_inner hf hip hdot]
    rfl

/-- What is returned for an entry that is not public and not empty is neither public nor the remote host. -/
theorem not_returned (hf : ¬ Inner f) (hpublic : ¬ Public f) (hnil : f ≠ []) (hinner : Inner host)
    (es : List (List UInt8)) :
    (isInnerIp f >>= fun _ => pure (if f = [] then host else f)) ≠ .ok ((es.find? Public).getD host) := by
  rw [if_neg hnil]
  intro hreturn
  cases hx : isInnerIp f with
  | error v =>
    rw [hx] at hreturn
    cases hreturn
  | ok b =>
    rw [hx] at hreturn
    obtain ⟨-, rfl⟩ := (getD_find?_eq_iff hpublic).mp (Except.ok.inj hreturn)
    exact hf hinner

/-- Where the remote host is private, `RealIP` depends on the forwarded addresses. -/
theorem extracts_of_inner (hremote : Slice.index (r.remoteAddr.splitOn colon) 0 = .ok host)
    (hinner : Inner host) :
    Extracts r host ↔ Sound (getHeader r.header (ascii "X-Forwarded-For")) := by
  have hprivate : ¬ Public host := not_public_of_inner hinner
  have hhost : (parseIP host).isSome := by
    obtain ⟨v, hv, -⟩ := hinner
    rw [parseIP_of_parseIPv4 hv]
    rfl
  unfold Extracts clientAddr Sound
  rw [if_neg hprivate, realIP_of_inner hremote hinner]
  generalize getHeader r.header (ascii "X-Forwarded-For") = forwarded
  cases hhead : head forwarded with
  | none =>
    have hnone : (entries forwarded).find? Public = none := by
      rw [List.find?_eq_none]
      intro e he hpublic
      have hall : Inner e := by simpa using List.find?_eq_none.mp hhead e he
      exact not_public_of_inner hall (of_decide_eq_true hpublic)
    rw [hnone]
    exact iff_of_true ⟨rfl, hhost⟩ nofun
  | some f =>
    obtain ⟨es, hfind⟩ := find?_public_of_head hhead
    have hf : ¬ Inner f := by simpa using List.find?_some hhead
    simp only [Option.mem_some_iff, forall_eq']
    by_cases hpublic : Public f
    · rw [hfind, if_pos hpublic, Option.getD_some, returned_of_public hf hpublic]
      simp only [hpublic, isSome_of_public hpublic, ne_nil_of_public hpublic, and_true, false_and, or_false]
    · by_cases hnil : f = []
      · -- the loop ends with the empty entry, and the remote host is returned
        subst hnil
        have hreturn : (isInnerIp [] >>= fun _ => pure (if ([] : List UInt8) = [] then host else [])) =
            .ok host := by
          rw [isInnerIp_nil]
          rfl
        rw [hreturn, Except.ok.injEq, getD_find?_eq_iff hprivate, List.find?_eq_none]
        simp only [decide_eq_true_eq, hpublic, and_false, false_or, and_true, true_and]
        refine and_iff_left_of_imp fun hall => ?_
        rw [List.find?_eq_none.mpr (by simpa using hall)]
        exact hhost
      · exact iff_of_false (fun h => not_returned hf hpublic hnil hinner _ h.1) (by simp [hpublic, hnil])

/-- **The address of a client**: `RealIP` extracts it exactly if the remote address is not in brackets, and
the remote host is public or the forwarded addresses are sound. -/
theorem realIP_extracts_iff (r : Http.Request) (host port : List UInt8)
    (hsplit : splitHostPort r.remoteAddr = .ok (host, port))
    (hhost : Bracketed r.remoteAddr ∨ ∃ a b c d, host = dotted a b c d) :
    Extracts r host ↔ ¬ Bracketed r.remoteAddr ∧
      (Public host ∨ Sound (getHeader r.header (ascii "X-Forwarded-For"))) := by
  by_cases hbracket : Bracketed r.remoteAddr
  · obtain ⟨s, hs, hnone⟩ := realIP_of_bracketed hbracket
    exact iff_of_false (not_extracts_of_none hs hnone) fun h => h.1 hbracket
  · have hremote := splitOn_remoteAddr hbracket hsplit
    obtain ⟨a, b, c, d, rfl⟩ := hhost.resolve_left hbracket
    have hv := parseIPv4_dotted a b c d
    by_cases hpublic : Public (dotted a b c d)
    · have hinner : isInnerIp (dotted a b c d) = .ok false := by
        obtain ⟨ip, hip, hpublic⟩ := hpublic
        rw [parseIP_of_parseIPv4 hv] at hip
        obtain rfl := Option.some.inj hip
        rw [isInnerIp_of_parseIPv4 hv, decide_eq_false hpublic]
      refine iff_of_true ⟨?_, ?_⟩ ⟨hbracket, .inl hpublic⟩
      · rw [realIP_of_public hremote hinner, clientAddr, if_pos hpublic]
      · rw [clientAddr, if_pos hpublic]
        exact isSome_of_public hpublic
    · have hinner : Inner (dotted a b c d) := by
        refine ⟨_, hv, ?_⟩
        by_contra hnot
        exact hpublic ⟨_, parseIP_of_parseIPv4 hv, hnot⟩
      rw [extracts_of_inner hremote hinner, and_iff_right hbracket, or_iff_right hpublic]

/-! A client behind a proxy of the private network. -/

def sampleRequest (remoteAddr forwarded : List UInt8) : Http.Request where
  method := ascii "GET"
  url := ⟨ascii "/", ascii "/", ∅⟩
  header := setHeader ∅ (ascii "X-Forwarded-For") forwarded
  host := ascii "localhost"
  remoteAddr := remoteAddr
  body := none

theorem realIP_extracts_sample :
    splitHostPort (ascii "10.0.0.7:4711") = .ok (ascii "10.0.0.7", ascii "4711") ∧
      Extracts (sampleRequest (ascii "10.0.0.7:4711") (ascii "192.168.0.9, 203.0.113.7")) (ascii "10.0.0.7") := by
  have hsplit : splitHostPort (ascii "10.0.0.7:4711") = .ok (ascii "10.0.0.7", ascii "4711") := by decide
  refine ⟨hsplit, ?_⟩
  have hdotted : ascii "10.0.0.7" = dotted 10 0 0 7 := by decide
  refine (realIP_extracts_iff (sampleRequest (ascii "10.0.0.7:4711") (ascii "192.168.0.9, 203.0.113.7"))
    (ascii "10.0.0.7") (ascii "4711") hsplit (.inr ⟨10, 0, 0, 7, hdotted⟩)).mpr ⟨by decide, .inr ?_⟩
  have hvalue : getHeader (sampleRequest (ascii "10.0.0.7:4711") (ascii "192.168.0.9, 203.0.113.7")).header
      (ascii "X-Forwarded-For") = ascii "192.168.0.9, 203.0.113.7" := by decide +kernel
  have hentries : entries (ascii "192.168.0.9, 203.0.113.7") = [ascii "192.168.0.9", ascii "203.0.113.7"] := by
    decide +kernel
  have hinner : Inner (ascii "192.168.0.9") :=
    ⟨[192, 168, 0, 9], by decide +kernel, (private_iff 192 168 0 9).mpr (by decide)⟩
  have hpublic : Public (ascii "203.0.113.7") :=
    ⟨mapped [203, 0, 113, 7], by decide +kernel, (private_iff 203 0 113 7).not.mpr (by decide)⟩
  have hhead : head (ascii "192.168.0.9, 203.0.113.7") = some (ascii "203.0.113.7") := by
    rw [head, hentries, List.find?_cons_of_neg (by simpa using hinner), List.find?_cons_of_pos]
    simpa using fun h => not_public_of_inner h hpublic
  rw [hvalue]
  intro f hf
  rw [hhead] at hf
  obtain rfl := Option.some.inj hf
  exact .inl ⟨by decide, hpublic⟩

/-- An IPv6 client, and a list that starts with what is no address. -/
theorem not_extracts :
    splitHostPort (ascii "[2001:db8::7]:4711") = .ok (ascii "2001:db8::7", ascii "4711") ∧
      (parseIP (ascii "2001:db8::7")).isSome ∧
      realIP (sampleRequest (ascii "[2001:db8::7]:4711") []) = .ok (ascii "[2001") ∧
      ¬ Extracts (sampleRequest (ascii "[2001:db8::7]:4711") []) (ascii "2001:db8::7") ∧
      realIP (sampleRequest (ascii "10.0.0.7:4711") (ascii "unknown, 203.0.113.7")) = .ok (ascii "unknown") ∧
      ¬ Extracts (sampleRequest (ascii "10.0.0.7:4711") (ascii "unknown, 203.0.113.7")) (ascii "10.0.0.7") := by
  have hbracket : realIP (sampleRequest (ascii "[2001:db8::7]:4711") []) = .ok (ascii "[2001") := by
    decide +kernel
  have hunknown : realIP (sampleRequest (ascii "10.0.0.7:4711") (ascii "unknown, 203.0.113.7")) =
      .ok (ascii "unknown") := by
    decide +kernel
  refine ⟨by decide +kernel, by decide +kernel, hbracket, ?_, hunknown, ?_⟩
  · exact not_extracts_of_none hbracket (by decide +kernel)
  · exact not_extracts_of_none hunknown (by decide +kernel)

end Vmqant.IpTool
