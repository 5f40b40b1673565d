import Vmqant.Common.GoInt
import Vmqant.Common.IPAddr

/-!
# Private addresses

Reference: `utils/ip/iptool.go`, lines 32-56 and 73-87; `utils/lib/addr/addr.go`, lines 8-28.

`IsInnerIp` asks `net.ParseIP` whether a text is an address, and then reads it as four decimal numbers between
dots. An IPv6 address without dots has one part, and the access to the second one panics.
-/

namespace Vmqant.IpTool

open IPAddr GoInt
open Printf (ascii)

/-! ## The functions -/

/-- `CheckIp`. -/
def checkIp (ipStr : List UInt8) : Bool := (parseIP ipStr).isSome

/-- `strconv.Atoi` without its error: 0 for what is no number, the nearest number for what does not fit. -/
def atoi (s : List UInt8) : Int64 :=
  let neg := s.head? = some '-'.toUInt8
  let digits := if neg ∨ s.head? = some '+'.toUInt8 then s.tail else s
  if digits = [] ∨ ∃ c ∈ digits, ¬ IsDigit c then 0
  else if neg then Int64.ofInt (max (-2 ^ 63) (-value digits))
  else Int64.ofNat (min (2 ^ 63 - 1) (value digits))

/-- `InetAton`. -/
def inetAton (ipStr : List UInt8) : Except PanicValue Int64 := do
  let bits := ipStr.splitOn dot
  let b0 := atoi (← Slice.index bits 0)
  let b1 := atoi (← Slice.index bits 1)
  let b2 := atoi (← Slice.index bits 2)
  let b3 := atoi (← Slice.index bits 3)
  pure ((0 : Int64) + b0 <<< 24 + b1 <<< 16 + b2 <<< 8 + b3)

/-- `IsInnerIp`. -/
def isInnerIp (ipStr : List UInt8) : Except PanicValue Bool :=
  if !checkIp ipStr then pure false
  else do
    let inputIpNum ← inetAton ipStr
    let innerIpA ← inetAton (ascii "10.255.255.255")
    let innerIpB ← inetAton (ascii "172.16.255.255")
    let innerIpC ← inetAton (ascii "192.168.255.255")
    let innerIpD ← inetAton (ascii "100.64.255.255")
    let innerIpF ← inetAton (ascii "127.255.255.255")
    pure (inputIpNum >>> 24 = innerIpA >>> 24 ∨ inputIpNum >>> 20 = innerIpB >>> 20 ∨
      inputIpNum >>> 16 = innerIpC >>> 16 ∨ inputIpNum >>> 22 = innerIpD >>> 22 ∨
      inputIpNum >>> 24 = innerIpF >>> 24)

/-- `privateBlocks` of the package `addr`. -/
def privateBlocks : List IPNet :=
  ["10.0.0.0/8", "172.16.0.0/12", "192.168.0.0/16", "100.64.0.0/10"].filterMap fun b => parseCIDR (ascii b)

/-- `isPrivateIP` of the package `addr`. No block contains the `nil` of a text that is no address. -/
def isPrivateIP (ipAddr : List UInt8) : Bool :=
  match parseIP ipAddr with
  | some ip => privateBlocks.any fun priv => priv.contains ip
  | none => false

/-! ## Addresses that are not public -/

/-- `127.0.0.0/8`. -/
def loopback : IPNet := ⟨[127, 0, 0, 0], [0xFF, 0, 0, 0]⟩

/-- The address is of the machine itself or in a private block. -/
def Private (ip : List UInt8) : Prop :=
  loopback.contains ip = true ∨ ∃ priv ∈ privateBlocks, priv.contains ip = true

instance : DecidablePred Private := fun _ => inferInstanceAs (Decidable (_ ∨ _))

example : parseCIDR (ascii "127.0.0.0/8") = some loopback := by decide +kernel

theorem privateBlocks_eq : privateBlocks =
    [⟨[10, 0, 0, 0], [0xFF, 0, 0, 0]⟩, ⟨[172, 16, 0, 0], [0xFF, 0xF0, 0, 0]⟩,
      ⟨[192, 168, 0, 0], [0xFF, 0xFF, 0, 0]⟩, ⟨[100, 64, 0, 0], [0xFF, 0xC0, 0, 0]⟩] := by
  decide +kernel

/-! ## Four decimal numbers -/

theorem isDigit_of_head? {s : List UInt8} {c : UInt8} (h : ∀ d ∈ s, IsDigit d) (hc : ¬ IsDigit c) :
    s.head? ≠ some c := by
  intro hhead
  exact hc (h c (List.mem_of_head? hhead))

theorem atoi_of_octet {s : List UInt8} {b : UInt8} (h : octet s = some b) : IsNat (atoi s) b.toNat := by
  obtain ⟨hoctet, hvalue⟩ := octet_of_octet_eq h
  have hneg : s.head? ≠ some '-'.toUInt8 := isDigit_of_head? hoctet.digits (by decide)
  have hpos : s.head? ≠ some '+'.toUInt8 := isDigit_of_head? hoctet.digits (by decide)
  have hb := b.toNat_lt
  have hmin : min (2 ^ 63 - 1) b.toNat = b.toNat := by omega
  unfold atoi
  dsimp only
  rw [if_neg (not_or.mpr ⟨hneg, hpos⟩), if_neg, if_neg hneg, hvalue, hmin, IsNat,
    Int64.toInt_ofNat_of_lt (by omega)]
  rintro (hnil | ⟨c, hc, hdigit⟩)
  · exact hoctet.ne_nil hnil
  · exact hdigit (hoctet.digits c hc)

/-- A number with a colon is none. -/
theorem atoi_of_colon {s : List UInt8} (h : colon ∈ s) : atoi s = 0 := by
  have hcolon : ¬ IsDigit colon := by decide
  unfold atoi
  dsimp only
  refine if_pos (.inr ⟨colon, ?_, hcolon⟩)
  split
  · next hsign =>
    -- the sign is not the colon
    cases s with
    | nil => cases h
    | cons c s =>
      rcases List.mem_cons.mp h with rfl | h
      · rcases hsign with hsign | hsign
        · exact absurd (Option.some.inj hsign) (by decide)
        · exact absurd (Option.some.inj hsign) (by decide)
      · exact h
  · exact h

theorem inetAton_of_splitOn {s p₀ p₁ p₂ p₃ : List UInt8} (h : s.splitOn dot = [p₀, p₁, p₂, p₃]) :
    inetAton s = .ok ((0 : Int64) + atoi p₀ <<< 24 + atoi p₁ <<< 16 + atoi p₂ <<< 8 + atoi p₃) := by
  unfold inetAton
  rw [h]
  rfl

theorem isNat_sum {x₀ x₁ x₂ x₃ : Int64} {n₀ n₁ n₂ n₃ : ℕ} (h₀ : IsNat x₀ n₀) (h₁ : IsNat x₁ n₁)
    (h₂ : IsNat x₂ n₂) (h₃ : IsNat x₃ n₃) (hn₀ : n₀ < 256) (hn₁ : n₁ < 256) (hn₂ : n₂ < 256)
    (hn₃ : n₃ < 256) :
    IsNat ((0 : Int64) + x₀ <<< 24 + x₁ <<< 16 + x₂ <<< 8 + x₃)
      (n₀ * 2 ^ 24 + n₁ * 2 ^ 16 + n₂ * 2 ^ 8 + n₃) := by
  have hs₀ : IsNat (x₀ <<< 24) (n₀ * 2 ^ 24) :=
    h₀.shiftLeft (k := 24) (by decide) (by omega)
  have hs₁ : IsNat (x₁ <<< 16) (n₁ * 2 ^ 16) :=
    h₁.shiftLeft (k := 16) (by decide) (by omega)
  have hs₂ : IsNat (x₂ <<< 8) (n₂ * 2 ^ 8) :=
    h₂.shiftLeft (k := 8) (by decide) (by omega)
  have hsum := (((isNat_zero.add hs₀ (by omega)).add hs₁ (by omega)).add hs₂ (by omega)).add h₃ (by omega)
  rwa [Nat.zero_add] at hsum

/-- What the comparisons of `IsInnerIp` say of a number. -/
def InnerNum (n : ℕ) : Prop :=
  n / 2 ^ 24 = 10 ∨ n / 2 ^ 20 = 2753 ∨ n / 2 ^ 16 = 49320 ∨ n / 2 ^ 22 = 401 ∨ n / 2 ^ 24 = 127

instance : DecidablePred InnerNum := fun _ => inferInstanceAs (Decidable (_ ∨ _))

theorem isInnerIp_of_inetAton {s : List UInt8} {x : Int64} {n : ℕ} (hcheck : checkIp s = true)
    (hs : inetAton s = .ok x) (hx : IsNat x n) : isInnerIp s = .ok (decide (InnerNum n)) := by
  have hA : inetAton (ascii "10.255.255.255") = .ok 0x0AFFFFFF := by decide +kernel
  have hB : inetAton (ascii "172.16.255.255") = .ok 0xAC10FFFF := by decide +kernel
  have hC : inetAton (ascii "192.168.255.255") = .ok 0xC0A8FFFF := by decide +kernel
  have hD : inetAton (ascii "100.64.255.255") = .ok 0x6440FFFF := by decide +kernel
  have hF : inetAton (ascii "127.255.255.255") = .ok 0x7FFFFFFF := by decide +kernel
  have h24 : IsNat (x >>> 24) (n / 2 ^ 24) := hx.shiftRight (k := 24) (by decide)
  have h20 : IsNat (x >>> 20) (n / 2 ^ 20) := hx.shiftRight (k := 20) (by decide)
  have h16 : IsNat (x >>> 16) (n / 2 ^ 16) := hx.shiftRight (k := 16) (by decide)
  have h22 : IsNat (x >>> 22) (n / 2 ^ 22) := hx.shiftRight (k := 22) (by decide)
  have hcond : (x >>> 24 = (0x0AFFFFFF : Int64) >>> 24 ∨ x >>> 20 = (0xAC10FFFF : Int64) >>> 20 ∨
      x >>> 16 = (0xC0A8FFFF : Int64) >>> 16 ∨ x >>> 22 = (0x6440FFFF : Int64) >>> 22 ∨
      x >>> 24 = (0x7FFFFFFF : Int64) >>> 24) ↔ InnerNum n := by
    refine or_congr ?_ (or_congr ?_ (or_congr ?_ (or_congr ?_ ?_)))
    · exact h24.eq_iff rfl
    · exact h20.eq_iff rfl
    · exact h16.eq_iff rfl
    · exact h22.eq_iff rfl
    · exact h24.eq_iff rfl
  unfold isInnerIp
  rw [hcheck, hs, hA, hB, hC, hD, hF]
  exact congrArg Except.ok (decide_eq_decide.mpr hcond)

/-! ## The private blocks in numbers -/

theorem and_240 (b : UInt8) : b &&& 0xF0 = 0x10 ↔ b.toNat / 16 = 1 := by
  have hall : ∀ n : Fin 256, UInt8.ofNat n &&& 0xF0 = 0x10 ↔ (n : ℕ) / 16 = 1 := by decide +kernel
  have h := hall ⟨b.toNat, b.toNat_lt⟩
  rwa [UInt8.ofNat_toNat] at h

theorem and_192 (b : UInt8) : b &&& 0xC0 = 0x40 ↔ b.toNat / 64 = 1 := by
  have hall : ∀ n : Fin 256, UInt8.ofNat n &&& 0xC0 = 0x40 ↔ (n : ℕ) / 64 = 1 := by decide +kernel
  have h := hall ⟨b.toNat, b.toNat_lt⟩
  rwa [UInt8.ofNat_toNat] at h

/-- The number of a dotted address. -/
def num (a b c d : UInt8) : ℕ := a.toNat * 2 ^ 24 + b.toNat * 2 ^ 16 + c.toNat * 2 ^ 8 + d.toNat

/-- A block in dotted form contains an address that agrees with it under the mask. -/
theorem contains_mapped (n₀ n₁ n₂ n₃ m₀ m₁ m₂ m₃ a b c d : UInt8) :
    IPNet.contains ⟨[n₀, n₁, n₂, n₃], [m₀, m₁, m₂, m₃]⟩ (mapped [a, b, c, d]) = true ↔
      n₀ &&& m₀ = a &&& m₀ ∧ n₁ &&& m₁ = b &&& m₁ ∧ n₂ &&& m₂ = c &&& m₂ ∧ n₃ &&& m₃ = d &&& m₃ := by
  have hcontains : IPNet.contains ⟨[n₀, n₁, n₂, n₃], [m₀, m₁, m₂, m₃]⟩ (mapped [a, b, c, d])
      = decide ([n₀ &&& m₀, n₁ &&& m₁, n₂ &&& m₂, n₃ &&& m₃] = [a &&& m₀, b &&& m₁, c &&& m₂, d &&& m₃]) :=
    rfl
  rw [hcontains, decide_eq_true_iff]
  simp only [List.cons.injEq, and_true]

theorem private_iff (a b c d : UInt8) :
    Private (mapped [a, b, c, d]) ↔ a = 127 ∨ a = 10 ∨ (a = 172 ∧ b &&& 0xF0 = 0x10) ∨
      (a = 192 ∧ b = 168) ∨ (a = 100 ∧ b &&& 0xC0 = 0x40) := by
  have hfull : ∀ x y : UInt8, x &&& 0xFF = y &&& 0xFF ↔ y = x := by
    intro x y
    have hand : ∀ x : UInt8, x &&& 0xFF = x := fun x => UInt8.and_neg_one
    rw [hand, hand, eq_comm]
  have hzero : ∀ x y : UInt8, x &&& 0 = y &&& 0 ↔ True := by
    intro x y
    rw [UInt8.and_zero, UInt8.and_zero]
    exact iff_of_true rfl trivial
  unfold Private loopback
  rw [privateBlocks_eq]
  simp only [List.exists_mem_cons_iff, List.not_mem_nil, false_and, exists_false, or_false, contains_mapped,
    hfull, hzero, and_true]
  refine or_congr_right (or_congr_right (or_congr ?_ (or_congr_right ?_)))
  · exact and_congr_right fun _ => eq_comm
  · exact and_congr_right fun _ => eq_comm

/-- The shifts test the same blocks. -/
theorem innerNum_iff (a b c d : UInt8) : InnerNum (num a b c d) ↔ Private (mapped [a, b, c, d]) := by
  have ha := a.toNat_lt
  have hb := b.toNat_lt
  have hc := c.toNat_lt
  have hd := d.toNat_lt
  rw [private_iff, and_240, and_192]
  simp only [← UInt8.toNat_inj]
  show InnerNum _ ↔ a.toNat = 127 ∨ a.toNat = 10 ∨ (a.toNat = 172 ∧ b.toNat / 16 = 1) ∨
    (a.toNat = 192 ∧ b.toNat = 168) ∨ (a.toNat = 100 ∧ b.toNat / 64 = 1)
  have h24 : num a b c d / 2 ^ 24 = a.toNat := by unfold num; omega
  have h20 : num a b c d / 2 ^ 20 = a.toNat * 16 + b.toNat / 16 := by unfold num; omega
  have h16 : num a b c d / 2 ^ 16 = a.toNat * 256 + b.toNat := by unfold num; omega
  have h22 : num a b c d / 2 ^ 22 = a.toNat * 4 + b.toNat / 64 := by unfold num; omega
  have h172 : a.toNat * 16 + b.toNat / 16 = 2753 ↔ a.toNat = 172 ∧ b.toNat / 16 = 1 := by omega
  have h192 : a.toNat * 256 + b.toNat = 49320 ↔ a.toNat = 192 ∧ b.toNat = 168 := by omega
  have h100 : a.toNat * 4 + b.toNat / 64 = 401 ↔ a.toNat = 100 ∧ b.toNat / 64 = 1 := by omega
  rw [InnerNum, h24, h20, h16, h22, h172, h192, h100]
  -- The source tests the loopback block last.
  simp only [or_comm, or_left_comm]

/-! ## What `IsInnerIp` answers -/

variable {s : List UInt8}

theorem isInnerIp_of_none (h : parseIP s = none) : isInnerIp s = .ok false := by
  unfold isInnerIp checkIp
  rw [h]
  rfl

theorem checkIp_of_some {ip : List UInt8} (h : parseIP s = some ip) : checkIp s = true := by
  rw [checkIp, h]
  rfl

theorem isInnerIp_of_parseIPv4 {v : List UInt8} (h : parseIPv4 s = some v) :
    isInnerIp s = .ok (decide (Private (mapped v))) := by
  obtain ⟨p₀, p₁, p₂, p₃, b₀, b₁, b₂, b₃, hsplit, h₀, h₁, h₂, h₃, rfl⟩ := parseIPv4_eq_some h
  have hsum := isNat_sum (atoi_of_octet h₀) (atoi_of_octet h₁) (atoi_of_octet h₂) (atoi_of_octet h₃)
    b₀.toNat_lt b₁.toNat_lt b₂.toNat_lt b₃.toNat_lt
  rw [isInnerIp_of_inetAton (checkIp_of_some (parseIP_of_parseIPv4 h)) (inetAton_of_splitOn hsplit) hsum]
  exact congrArg Except.ok (decide_eq_decide.mpr (innerNum_iff b₀ b₁ b₂ b₃))

/-- An IPv6 address that ends in dotted form is not inner: its first number is read as 0. -/
theorem isInnerIp_of_tail {ip : List UInt8} (h : parseIP s = some ip) (hcolon : colon ∈ s) (hdot : dot ∈ s) :
    isInnerIp s = .ok false := by
  have hip := h
  rcases parseIP_cases h with ⟨v, hv, -⟩ | ⟨-, h⟩
  · exact absurd hcolon (colon_not_mem_of_parseIPv4 hv)
  obtain ⟨pre, t, v, rfl, hpre, hmem, hv⟩ := parseIPv6_tail h hdot hcolon
  obtain ⟨p₀, p₁, p₂, p₃, b₀, b₁, b₂, b₃, hsplit, h₀, h₁, h₂, h₃, -⟩ := parseIPv4_eq_some hv
  have hparts : (pre ++ t).splitOn dot = [pre ++ p₀, p₁, p₂, p₃] := by
    rw [splitOn_append_of_not_mem hpre, hsplit]
    rfl
  have hfirst : IsNat (atoi (pre ++ p₀)) 0 := by
    rw [atoi_of_colon (List.mem_append_left _ hmem)]
    exact isNat_zero
  have hb₁ := b₁.toNat_lt
  have hb₂ := b₂.toNat_lt
  have hb₃ := b₃.toNat_lt
  have hsum := isNat_sum hfirst (atoi_of_octet h₁) (atoi_of_octet h₂) (atoi_of_octet h₃) (by decide) hb₁ hb₂ hb₃
  rw [isInnerIp_of_inetAton (checkIp_of_some hip) (inetAton_of_splitOn hparts) hsum]
  refine congrArg Except.ok (decide_eq_false ?_)
  unfold InnerNum
  omega

/-- The access to the second part of an address without dots panics. -/
theorem isInnerIp_of_not_dot {ip : List UInt8} (h : parseIP s = some ip) (hdot : dot ∉ s) :
    isInnerIp s = .error (.indexOutOfRange 1 1) := by
  have hparts : s.splitOn dot = [s] := List.splitOn_eq_singleton hdot
  unfold isInnerIp inetAton
  rw [checkIp_of_some h, hparts]
  rfl

/-- The function returns, it is right about the addresses in canonical dotted form, and what is no address is
not inner. -/
structure Classified (s : List UInt8) : Prop where
  returns : ∃ b, isInnerIp s = .ok b
  dotted : ∀ a b c d, s = dotted a b c d →
    (isInnerIp s = .ok true ↔ loopback.contains (mapped [a, b, c, d]) = true ∨ isPrivateIP s = true)
  rejected : parseIP s = none → isInnerIp s = .ok false

theorem isPrivateIP_of_parseIPv4 {v : List UInt8} (h : parseIPv4 s = some v) :
    isPrivateIP s = true ↔ ∃ priv ∈ privateBlocks, priv.contains (mapped v) = true := by
  unfold isPrivateIP
  rw [parseIP_of_parseIPv4 h]
  exact List.any_eq_true

/-- **Private addresses**: `IsInnerIp` classifies a text exactly if it is no address or has a dot. -/
theorem isInnerIp_classified_iff (s : List UInt8) : Classified s ↔ parseIP s = none ∨ dot ∈ s := by
  constructor
  · intro h
    by_contra hnot
    obtain ⟨hip, hdot⟩ := not_or.mp hnot
    obtain ⟨ip, hip⟩ := Option.ne_none_iff_exists'.mp hip
    obtain ⟨b, hb⟩ := h.returns
    rw [isInnerIp_of_not_dot hip hdot] at hb
    cases hb
  · intro h
    refine ⟨?_, ?_, isInnerIp_of_none⟩
    · cases hip : parseIP s with
      | none => exact ⟨false, isInnerIp_of_none hip⟩
      | some ip =>
        have hdot : dot ∈ s := h.resolve_left (by simp [hip])
        rcases parseIP_cases hip with ⟨v, hv, -⟩ | ⟨hcolon, -⟩
        · exact ⟨_, isInnerIp_of_parseIPv4 hv⟩
        · exact ⟨false, isInnerIp_of_tail hip hcolon hdot⟩
    · rintro a b c d rfl
      have hv := parseIPv4_dotted a b c d
      rw [isInnerIp_of_parseIPv4 hv, isPrivateIP_of_parseIPv4 hv, Except.ok.injEq, decide_eq_true_iff]
      exact Iff.rfl

/-- The loopback address of IPv6. -/
theorem isInnerIp_panics :
    parseIP (ascii "::1") = some (List.replicate 15 0 ++ [1]) ∧
      isInnerIp (ascii "::1") = .error (.indexOutOfRange 1 1) ∧ ¬ Classified (ascii "::1") := by
  have hip : parseIP (ascii "::1") = some (List.replicate 15 0 ++ [1]) := by decide +kernel
  have hpanic : isInnerIp (ascii "::1") = .error (.indexOutOfRange 1 1) :=
    isInnerIp_of_not_dot hip (by decide)
  refine ⟨hip, hpanic, fun h => ?_⟩
  obtain ⟨b, hb⟩ := h.returns
  rw [hpanic] at hb
  cases hb

end Vmqant.IpTool
