import Vmqant.Common.Printf

/-!
# Host and port

Network addresses of the forms `host:port` and `[host]:port`, as `net.SplitHostPort` takes them apart.
-/

namespace HostPort

/-- The last place of a byte. -/
def lastIndex (c : UInt8) : List UInt8 → Option ℕ
  | [] => none
  | a :: s =>
    match lastIndex c s with
    | some i => some (i + 1)
    | none => if a = c then some 0 else none

/-- The checks at the end of `SplitHostPort`: no bracket where none may stand. -/
def unbracketed (noOpen noClose : List UInt8) (parts : List UInt8 × List UInt8) :
    Except String (List UInt8 × List UInt8) :=
  if '['.toUInt8 ∈ noOpen then .error "unexpected '[' in address"
  else if ']'.toUInt8 ∈ noClose then .error "unexpected ']' in address"
  else .ok parts

/-- The address starts with a bracket. -/
def Bracketed (hostport : List UInt8) : Prop := hostport.head? = some '['.toUInt8

instance : DecidablePred Bracketed := fun _ => inferInstanceAs (Decidable (_ = _))

/-- `net.SplitHostPort`, with the text of its `AddrError`. -/
def splitHostPort (hostport : List UInt8) : Except String (List UInt8 × List UInt8) :=
  match lastIndex ':'.toUInt8 hostport with
  | none => .error "missing port in address"
  | some i =>
    if Bracketed hostport then
      match hostport.idxOf? ']'.toUInt8 with
      | none => .error "missing ']' in address"
      | some e =>
        if e + 1 = hostport.length then .error "missing port in address"
        else if e + 1 = i then
          unbracketed (hostport.drop 1) (hostport.drop (e + 1))
            ((hostport.take e).drop 1, hostport.drop (i + 1))
        else if hostport[e + 1]? = some ':'.toUInt8 then .error "too many colons in address"
        else .error "missing port in address"
    else if ':'.toUInt8 ∈ hostport.take i then .error "too many colons in address"
    else unbracketed hostport hostport (hostport.take i, hostport.drop (i + 1))

theorem eq_of_lastIndex {c : UInt8} {s : List UInt8} {i : ℕ} (h : lastIndex c s = some i) :
    s = s.take i ++ c :: s.drop (i + 1) := by
  induction s generalizing i with
  | nil => cases h
  | cons a s ih =>
    rw [lastIndex] at h
    split at h
    · next j hj =>
      obtain rfl := Option.some.inj h
      exact congrArg (a :: ·) (ih hj)
    · split at h
      · next hac =>
        obtain rfl := Option.some.inj h
        rw [hac]
        rfl
      · cases h

theorem unbracketed_eq_ok {noOpen noClose : List UInt8} {parts parts' : List UInt8 × List UInt8}
    (h : unbracketed noOpen noClose parts = .ok parts') : parts = parts' := by
  unfold unbracketed at h
  split at h
  · cases h
  split at h
  · cases h
  · exact Except.ok.inj h

/-- An address without brackets is the host, a colon and the port, and the host has no colon. -/
theorem eq_of_splitHostPort {hostport host port : List UInt8} (hplain : ¬ Bracketed hostport)
    (h : splitHostPort hostport = .ok (host, port)) :
    hostport = host ++ ':'.toUInt8 :: port ∧ ':'.toUInt8 ∉ host := by
  unfold splitHostPort at h
  split at h
  · cases h
  · next i hi =>
    rw [if_neg hplain] at h
    split at h
    · cases h
    · next hcolon =>
      obtain ⟨rfl, rfl⟩ := Prod.mk.inj (unbracketed_eq_ok h)
      exact ⟨eq_of_lastIndex hi, hcolon⟩

end HostPort
