import Vmqant.Common.Hex
import Vmqant.Common.Printf

/-!
# IP addresses

The textual forms that `net.ParseIP` takes: four decimal numbers between dots, and hexadecimal groups between
colons, where one `::` stands for zeros and the last two groups may be written in the first form. An address
is its sixteen bytes; one of the first form is mapped into `::ffff:0:0/96`.
-/

namespace IPAddr

open Printf (ascii)

def dot : UInt8 := '.'.toUInt8
def colon : UInt8 := ':'.toUInt8

/-! ## The dotted form -/

def IsDigit (c : UInt8) : Prop := 0x30 ≤ c ∧ c ≤ 0x39

instance : DecidablePred IsDigit := fun _ => inferInstanceAs (Decidable (_ ∧ _))

/-- The number that a text of digits is. -/
def value (s : List UInt8) : ℕ := s.foldl (fun n c => 10 * n + (c.toNat - 0x30)) 0

/-- One of the four numbers: without a leading zero, and at most 255. -/
structure Octet (s : List UInt8) : Prop where
  ne_nil : s ≠ []
  digits : ∀ c ∈ s, IsDigit c
  leading : s.head? = some 0x30 → s.length = 1
  le : value s ≤ 255

instance : DecidablePred Octet := fun s =>
  decidable_of_iff (s ≠ [] ∧ (∀ c ∈ s, IsDigit c) ∧ (s.head? = some 0x30 → s.length = 1) ∧ value s ≤ 255)
    ⟨fun ⟨hnil, hdigits, hleading, hle⟩ => ⟨hnil, hdigits, hleading, hle⟩,
      fun h => ⟨h.ne_nil, h.digits, h.leading, h.le⟩⟩

def octet (s : List UInt8) : Option UInt8 := if Octet s then some (UInt8.ofNat (value s)) else none

def parseIPv4 (s : List UInt8) : Option (List UInt8) :=
  match s.splitOn dot with
  | [a, b, c, d] => [a, b, c, d].mapM octet
  | _ => none

def digit (n : ℕ) : UInt8 := UInt8.ofNat (0x30 + n)

/-- The decimal text of a byte. -/
def decimal (b : UInt8) : List UInt8 :=
  let n := b.toNat
  if n < 10 then [digit n]
  else if n < 100 then [digit (n / 10), digit (n % 10)]
  else [digit (n / 100), digit (n / 10 % 10), digit (n % 10)]

/-- An address in canonical dotted form. -/
def dotted (a b c d : UInt8) : List UInt8 :=
  decimal a ++ dot :: (decimal b ++ dot :: (decimal c ++ dot :: decimal d))

/-! ## The form with colons -/

/-- One to four hexadecimal digits, as two bytes. -/
def hexGroup (s : List UInt8) : Option (List UInt8) :=
  if s = [] ∨ 4 < s.length then none
  else (s.mapM Hex.value).map fun ds =>
    let n := ds.foldl (fun n d => 16 * n + d) 0
    [UInt8.ofNat (n / 256), UInt8.ofNat n]

/-- The groups, of which the last one may be in dotted form. -/
def groups : List (List UInt8) → Option (List UInt8)
  | [] => some []
  | [s] => if dot ∈ s then parseIPv4 s else hexGroup s
  | s :: t :: rest => do
    let b ← hexGroup s
    let bs ← groups (t :: rest)
    pure (b ++ bs)

/-- The texts before and after the first `::`. -/
def cutEllipsis : List UInt8 → Option (List UInt8 × List UInt8)
  | [] => none
  | c :: s =>
    if c = colon ∧ s.head? = some colon then some ([], s.tail)
    else (cutEllipsis s).map fun (l, r) => (c :: l, r)

/-- The groups of a text next to the `::`, where there may be none. -/
def side (parse : List (List UInt8) → Option (List UInt8)) (s : List UInt8) : Option (List UInt8) :=
  if s = [] then some [] else parse (s.splitOn colon)

def parseIPv6 (s : List UInt8) : Option (List UInt8) :=
  match cutEllipsis s with
  | none => (groups (s.splitOn colon)).filter (·.length = 16)
  | some (l, r) => do
    let left ← side (fun ss => (ss.mapM hexGroup).map List.flatten) l
    let right ← side groups r
    -- the `::` is at least one group of zeros
    if left.length + right.length ≤ 14 then
      some (left ++ List.replicate (16 - (left.length + right.length)) 0 ++ right)
    else none

/-! ## Addresses -/

def mapped (v4 : List UInt8) : List UInt8 := List.replicate 10 0 ++ [0xFF, 0xFF] ++ v4

/-- `net.ParseIP`; the first dot or colon tells the form. -/
def parseIP (s : List UInt8) : Option (List UInt8) :=
  match s.find? fun c => c = dot ∨ c = colon with
  | none => none
  | some c => if c = dot then (parseIPv4 s).map mapped else parseIPv6 s

/-- `IP.To4`. -/
def to4 (ip : List UInt8) : Option (List UInt8) :=
  if ip.take 12 = mapped [] then some (ip.drop 12) else none

/-- `net.IPNet`. -/
structure IPNet where
  ip : List UInt8
  mask : List UInt8
deriving DecidableEq

/-- `net.CIDRMask`. -/
def cidrMask (ones bits : ℕ) : List UInt8 :=
  (List.range (bits / 8)).map fun i => UInt8.ofNat (256 - 2 ^ (8 - min 8 (ones - 8 * i)))

def IPNet.ofPrefix (ip : List UInt8) (ones : ℕ) : Option IPNet :=
  if ones ≤ 8 * ip.length then
    let mask := cidrMask ones (8 * ip.length)
    some ⟨List.zipWith (· &&& ·) ip mask, mask⟩
  else none

/-- `net.ParseCIDR`. -/
def parseCIDR (s : List UInt8) : Option IPNet :=
  match s.splitOn '/'.toUInt8 with
  | [addr, ones] =>
    if ones ≠ [] ∧ ∀ c ∈ ones, IsDigit c then
      ((parseIPv4 addr).or (parseIPv6 addr)).bind fun ip => IPNet.ofPrefix ip (value ones)
    else none
  | _ => none

/-- `IPNet.Contains`. -/
def IPNet.contains (n : IPNet) (ip : List UInt8) : Bool :=
  let x := (to4 ip).getD ip
  x.length = n.ip.length &&
    List.zipWith (· &&& ·) n.ip n.mask = List.zipWith (· &&& ·) x n.mask

/-! ## The decimal text of a byte -/

theorem toNat_digit {n : ℕ} (h : n < 10) : (digit n).toNat = 0x30 + n := by
  unfold digit
  rw [UInt8.toNat_ofNat_of_lt' (by show 0x30 + n < 256; omega)]

theorem isDigit_digit {n : ℕ} (h : n < 10) : IsDigit (digit n) := by
  have hn := toNat_digit h
  constructor
  · apply UInt8.le_iff_toNat_le.mpr
    rw [hn]
    exact Nat.le_add_right _ _
  · apply UInt8.le_iff_toNat_le.mpr
    rw [hn]
    show 0x30 + n ≤ 0x39
    omega

theorem digit_ne_zero {n : ℕ} (h : n < 10) (hn : n ≠ 0) : digit n ≠ 0x30 := by
  intro heq
  have h48 : (digit n).toNat = 0x30 := congrArg UInt8.toNat heq
  rw [toNat_digit h] at h48
  omega

/-- The value of a text of digits. -/
theorem value_map_digit {ds : List ℕ} (h : ∀ d ∈ ds, d < 10) :
    value (ds.map digit) = ds.foldl (fun n d => 10 * n + d) 0 := by
  unfold value
  generalize (0 : ℕ) = acc
  induction ds generalizing acc with
  | nil => rfl
  | cons d ds ih =>
    have hd : (digit d).toNat - 0x30 = d := by
      rw [toNat_digit (h d List.mem_cons_self)]
      omega
    rw [List.map_cons, List.foldl_cons, List.foldl_cons, hd]
    exact ih (fun d hd => h d (List.mem_cons_of_mem _ hd)) _

theorem octet_map_digit {ds : List ℕ} {n : ℕ} (hnil : ds ≠ []) (h : ∀ d ∈ ds, d < 10)
    (hleading : ds.head? = some 0 → ds.length = 1) (hvalue : ds.foldl (fun n d => 10 * n + d) 0 = n)
    (hn : n ≤ 255) : octet (ds.map digit) = some (UInt8.ofNat n) := by
  have hoctet : Octet (ds.map digit) :=
    { ne_nil := by simpa using hnil
      digits := by
        intro c hc
        obtain ⟨d, hd, rfl⟩ := List.mem_map.mp hc
        exact isDigit_digit (h d hd)
      leading := by
        intro hhead
        rw [List.length_map]
        apply hleading
        obtain ⟨d, ds, rfl⟩ := List.exists_cons_of_ne_nil hnil
        have hd : digit d = 0x30 := Option.some.inj hhead
        by_contra hne
        exact digit_ne_zero (h d List.mem_cons_self) (fun h0 => hne (congrArg some h0)) hd
      le := by rwa [value_map_digit h, hvalue] }
  rw [octet, if_pos hoctet, value_map_digit h, hvalue]

theorem octet_decimal (b : UInt8) : octet (decimal b) = some b := by
  have hb := b.toNat_lt
  have hmap : ∀ ds : List ℕ, octet (ds.map digit) = some (UInt8.ofNat b.toNat) →
      octet (ds.map digit) = some b := by
    intro ds h
    rw [h, UInt8.ofNat_toNat]
  unfold decimal
  dsimp only
  split
  · apply hmap [b.toNat]
    exact octet_map_digit (by simp) (by simpa) (fun _ => rfl) (by simp) (by omega)
  split
  · apply hmap [b.toNat / 10, b.toNat % 10]
    refine octet_map_digit (by simp) (by simp; omega) ?_ ?_ (by omega)
    · intro h
      have h0 : b.toNat / 10 = 0 := Option.some.inj h
      omega
    · simp only [List.foldl_cons, List.foldl_nil]
      omega
  · apply hmap [b.toNat / 100, b.toNat / 10 % 10, b.toNat % 10]
    refine octet_map_digit (by simp) (by simp; omega) ?_ ?_ (by omega)
    · intro h
      have h0 : b.toNat / 100 = 0 := Option.some.inj h
      omega
    · simp only [List.foldl_cons, List.foldl_nil]
      omega

/-! ## What a text consists of -/

/-- A byte of the text of an address. -/
def AddrByte (c : UInt8) : Prop := (Hex.value c).isSome ∨ c = dot ∨ c = colon

theorem isSome_value_of_isDigit {c : UInt8} (h : IsDigit c) : (Hex.value c).isSome := by
  have hdigit : 0x30 ≤ c ∧ c ≤ 0x39 := h
  rw [Hex.value, if_pos hdigit]
  rfl

theorem octet_of_octet_eq {s : List UInt8} {b : UInt8} (h : octet s = some b) :
    Octet s ∧ value s = b.toNat := by
  unfold octet at h
  split at h
  · next hoctet =>
    obtain rfl := Option.some.inj h
    refine ⟨hoctet, ?_⟩
    have hle := hoctet.le
    rw [UInt8.toNat_ofNat_of_lt' (by show value s < 256; omega)]
  · cases h

theorem hex_of_octet {s : List UInt8} {b : UInt8} (h : octet s = some b) :
    ∀ c ∈ s, (Hex.value c).isSome := fun c hc =>
  isSome_value_of_isDigit ((octet_of_octet_eq h).1.digits c hc)

/-- The four numbers of a dotted address. -/
theorem parseIPv4_eq_some {s v : List UInt8} (h : parseIPv4 s = some v) :
    ∃ p₀ p₁ p₂ p₃ b₀ b₁ b₂ b₃, s.splitOn dot = [p₀, p₁, p₂, p₃] ∧ octet p₀ = some b₀ ∧
      octet p₁ = some b₁ ∧ octet p₂ = some b₂ ∧ octet p₃ = some b₃ ∧ v = [b₀, b₁, b₂, b₃] := by
  unfold parseIPv4 at h
  split at h
  · next p₀ p₁ p₂ p₃ hsplit =>
    simp only [List.mapM_cons, List.mapM_nil, Option.pure_def, Option.bind_eq_bind,
      Option.bind_eq_some_iff, Option.some.injEq] at h
    obtain ⟨b₀, h₀, _, ⟨b₁, h₁, _, ⟨b₂, h₂, _, ⟨b₃, h₃, _, rfl, rfl⟩, rfl⟩, rfl⟩, rfl⟩ := h
    exact ⟨p₀, p₁, p₂, p₃, b₀, b₁, b₂, b₃, hsplit, h₀, h₁, h₂, h₃, rfl⟩
  · cases h

theorem mem_of_mem_intercalate {sep c : UInt8} {ss : List (List UInt8)}
    (h : c ∈ [sep].intercalate ss) : c = sep ∨ ∃ s ∈ ss, c ∈ s := by
  induction ss with
  | nil => simp at h
  | cons s ss ih =>
    cases ss with
    | nil =>
      rw [List.intercalate_singleton] at h
      exact .inr ⟨s, List.mem_cons_self, h⟩
    | cons t ss =>
      rw [List.intercalate_cons_cons, List.mem_append, List.mem_append, List.mem_singleton] at h
      rcases h with (h | h) | h
      · exact .inr ⟨s, List.mem_cons_self, h⟩
      · exact .inl h
      · apply (ih h).imp_right
        rintro ⟨x, hx, hc⟩
        exact ⟨x, List.mem_cons_of_mem _ hx, hc⟩

/-- A byte of a text is the separator, or it is in a part. -/
theorem mem_splitOn {s : List UInt8} {c : UInt8} (sep : UInt8) (h : c ∈ s) :
    c = sep ∨ ∃ t ∈ s.splitOn sep, c ∈ t := by
  have hjoin : [sep].intercalate (s.splitOn sep) = s := List.intercalate_splitOn sep
  rw [← hjoin] at h
  exact mem_of_mem_intercalate h

/-- What stands before the first separator goes to the first part. -/
theorem splitOn_append_of_not_mem {sep : UInt8} {pre : List UInt8} (h : sep ∉ pre) (s : List UInt8) :
    (pre ++ s).splitOn sep = (s.splitOn sep).modifyHead (pre ++ ·) := by
  induction pre with
  | nil =>
    cases hs : s.splitOn sep with
    | nil => exact hs
    | cons t ts => exact hs
  | cons c pre ih =>
    rw [List.mem_cons, not_or] at h
    have hc : (c == sep) = false := by simpa using Ne.symm h.1
    rw [List.cons_append, List.splitOn_cons_eq_if_modifyHead, if_neg (by simp [hc]), ih h.2]
    cases s.splitOn sep with
    | nil => rfl
    | cons t ts => rfl

theorem addrByte_of_splitOn {sep : UInt8} (hsep : AddrByte sep) {s : List UInt8}
    (h : ∀ t ∈ s.splitOn sep, ∀ c ∈ t, AddrByte c) : ∀ c ∈ s, AddrByte c := by
  intro c hc
  rcases mem_splitOn sep hc with rfl | ⟨t, ht, hct⟩
  · exact hsep
  · exact h t ht c hct

theorem hex_of_parseIPv4 {s v : List UInt8} (h : parseIPv4 s = some v) :
    ∀ c ∈ s, c = dot ∨ (Hex.value c).isSome := by
  obtain ⟨p₀, p₁, p₂, p₃, b₀, b₁, b₂, b₃, hsplit, h₀, h₁, h₂, h₃, -⟩ := parseIPv4_eq_some h
  intro c hc
  apply (mem_splitOn dot hc).imp_right
  rintro ⟨t, ht, hct⟩
  rw [hsplit] at ht
  simp only [List.mem_cons, List.not_mem_nil, or_false] at ht
  rcases ht with rfl | rfl | rfl | rfl
  · exact hex_of_octet h₀ c hct
  · exact hex_of_octet h₁ c hct
  · exact hex_of_octet h₂ c hct
  · exact hex_of_octet h₃ c hct

theorem addrByte_of_parseIPv4 {s v : List UInt8} (h : parseIPv4 s = some v) (c : UInt8) (hc : c ∈ s) :
    AddrByte c := by
  rcases hex_of_parseIPv4 h c hc with hdot | hhex
  · exact .inr (.inl hdot)
  · exact .inl hhex

theorem colon_not_mem_of_parseIPv4 {s v : List UInt8} (h : parseIPv4 s = some v) : colon ∉ s := by
  intro hmem
  rcases hex_of_parseIPv4 h colon hmem with heq | hhex
  · exact absurd heq (by decide)
  · exact absurd hhex (by decide)

theorem isSome_of_mapM {α β : Type} {f : α → Option β} {l : List α} {bs : List β}
    (h : l.mapM f = some bs) : ∀ a ∈ l, (f a).isSome := by
  induction l generalizing bs with
  | nil => simp
  | cons a l ih =>
    simp only [List.mapM_cons, Option.pure_def, Option.bind_eq_bind, Option.bind_eq_some_iff] at h
    obtain ⟨b, hb, bs', hbs, -⟩ := h
    intro x hx
    rcases List.mem_cons.mp hx with rfl | hx
    · exact Option.isSome_of_eq_some hb
    · exact ih hbs x hx

theorem hex_of_hexGroup {s b : List UInt8} (h : hexGroup s = some b) :
    ∀ c ∈ s, (Hex.value c).isSome := by
  unfold hexGroup at h
  split at h
  · cases h
  · obtain ⟨ds, hds, -⟩ := Option.map_eq_some_iff.mp h
    exact isSome_of_mapM hds

theorem dot_not_mem {s : List UInt8} (h : ∀ c ∈ s, (Hex.value c).isSome) : dot ∉ s := by
  intro hmem
  exact absurd (h dot hmem) (by decide)

theorem groups_cons_eq_some {s t b : List UInt8} {rest : List (List UInt8)}
    (h : groups (s :: t :: rest) = some b) :
    ∃ b₁ b₂, hexGroup s = some b₁ ∧ groups (t :: rest) = some b₂ := by
  rw [groups] at h
  simp only [Option.pure_def, Option.bind_eq_bind, Option.bind_eq_some_iff] at h
  obtain ⟨b₁, h₁, b₂, h₂, -⟩ := h
  exact ⟨b₁, b₂, h₁, h₂⟩

theorem groups_singleton_cases {s b : List UInt8} (h : groups [s] = some b) :
    (dot ∈ s ∧ parseIPv4 s = some b) ∨ (dot ∉ s ∧ hexGroup s = some b) := by
  rw [groups] at h
  split at h
  · next hdot => exact .inl ⟨hdot, h⟩
  · next hdot => exact .inr ⟨hdot, h⟩

theorem addrByte_of_groups {ss : List (List UInt8)} {b : List UInt8} (h : groups ss = some b) :
    ∀ s ∈ ss, ∀ c ∈ s, AddrByte c := by
  induction ss generalizing b with
  | nil => simp
  | cons s ss ih =>
    cases ss with
    | nil =>
      simp only [List.forall_mem_singleton]
      rcases groups_singleton_cases h with ⟨-, h⟩ | ⟨-, h⟩
      · exact addrByte_of_parseIPv4 h
      · exact fun c hc => .inl (hex_of_hexGroup h c hc)
    | cons t rest =>
      obtain ⟨b₁, b₂, h₁, h₂⟩ := groups_cons_eq_some h
      intro x hx
      rcases List.mem_cons.mp hx with rfl | hx
      · exact fun c hc => .inl (hex_of_hexGroup h₁ c hc)
      · exact ih h₂ x hx

/-- A dot among the groups is in an address in dotted form, which ends them. -/
theorem groups_tail {ss : List (List UInt8)} {b : List UInt8} (h : groups ss = some b)
    (hdot : dot ∈ [colon].intercalate ss) :
    ∃ pre t v, [colon].intercalate ss = pre ++ t ∧ dot ∉ pre ∧ (pre = [] ∨ colon ∈ pre) ∧
      parseIPv4 t = some v := by
  induction ss generalizing b with
  | nil => simp at hdot
  | cons s ss ih =>
    cases ss with
    | nil =>
      rw [List.intercalate_singleton] at hdot ⊢
      rcases groups_singleton_cases h with ⟨-, h⟩ | ⟨hno, -⟩
      · exact ⟨[], s, b, rfl, List.not_mem_nil, .inl rfl, h⟩
      · exact absurd hdot hno
    | cons t rest =>
      obtain ⟨b₁, b₂, h₁, h₂⟩ := groups_cons_eq_some h
      have hs : dot ∉ s := dot_not_mem (hex_of_hexGroup h₁)
      rw [List.intercalate_cons_cons, List.append_assoc] at hdot ⊢
      have hrest : dot ∈ [colon].intercalate (t :: rest) := by
        have hne : dot ≠ colon := by decide
        simpa [hs, hne] using hdot
      obtain ⟨pre, t', v, heq, hpre, -, hv⟩ := ih h₂ hrest
      refine ⟨s ++ [colon] ++ pre, t', v, by simp [heq], ?_, .inr (by simp), hv⟩
      have hne : dot ≠ colon := by decide
      simp [hs, hpre, hne]

/-! ## Around the `::` -/

theorem cutEllipsis_eq_some {s l r : List UInt8} (h : cutEllipsis s = some (l, r)) :
    s = l ++ colon :: colon :: r := by
  induction s generalizing l with
  | nil => cases h
  | cons c s ih =>
    rw [cutEllipsis] at h
    split at h
    · next hcolon =>
      obtain ⟨rfl, hhead⟩ := hcolon
      obtain ⟨rfl, rfl⟩ := Prod.mk.inj (Option.some.inj h)
      cases s with
      | nil => cases hhead
      | cons c s =>
        obtain rfl := Option.some.inj hhead
        rfl
    · obtain ⟨⟨l', r'⟩, hcut, heq⟩ := Option.map_eq_some_iff.mp h
      obtain ⟨rfl, rfl⟩ := Prod.mk.inj heq
      rw [ih hcut]
      rfl

/-- A text before the `::` consists of hexadecimal groups. -/
theorem addrByte_of_left {s b : List UInt8}
    (h : side (fun ss => (ss.mapM hexGroup).map List.flatten) s = some b) :
    (∀ c ∈ s, AddrByte c) ∧ dot ∉ s := by
  unfold side at h
  split at h
  · next hnil =>
    subst hnil
    exact ⟨by simp, by simp⟩
  · obtain ⟨bs, hbs, -⟩ := Option.map_eq_some_iff.mp h
    have hhex : ∀ t ∈ s.splitOn colon, ∀ c ∈ t, (Hex.value c).isSome := by
      intro t ht
      obtain ⟨b', hb'⟩ := Option.isSome_iff_exists.mp (isSome_of_mapM hbs t ht)
      exact hex_of_hexGroup hb'
    refine ⟨addrByte_of_splitOn (.inr (.inr rfl)) fun t ht c hc => .inl (hhex t ht c hc), fun hdot => ?_⟩
    rcases mem_splitOn colon hdot with heq | ⟨t, ht, hct⟩
    · exact absurd heq (by decide)
    · exact dot_not_mem (hhex t ht) hct

/-- What is accepted after the `::`. -/
theorem addrByte_of_right {s b : List UInt8} (h : side groups s = some b) : ∀ c ∈ s, AddrByte c := by
  unfold side at h
  split at h
  · next hnil =>
    subst hnil
    simp
  · exact addrByte_of_splitOn (.inr (.inr rfl)) (addrByte_of_groups h)

theorem parseIPv6_cases {s ip : List UInt8} (h : parseIPv6 s = some ip) :
    (∃ b, groups (s.splitOn colon) = some b) ∨
      ∃ l r b₁ b₂, s = l ++ colon :: colon :: r ∧
        side (fun ss => (ss.mapM hexGroup).map List.flatten) l = some b₁ ∧ side groups r = some b₂ := by
  unfold parseIPv6 at h
  split at h
  · exact .inl ⟨ip, (Option.filter_eq_some_iff.mp h).1⟩
  · next l r hcut =>
    simp only [Option.bind_eq_bind, Option.bind_eq_some_iff] at h
    obtain ⟨b₁, h₁, b₂, h₂, -⟩ := h
    exact .inr ⟨l, r, b₁, b₂, cutEllipsis_eq_some hcut, h₁, h₂⟩

theorem addrByte_of_parseIPv6 {s ip : List UInt8} (h : parseIPv6 s = some ip) : ∀ c ∈ s, AddrByte c := by
  rcases parseIPv6_cases h with ⟨b, h⟩ | ⟨l, r, b₁, b₂, rfl, h₁, h₂⟩
  · exact addrByte_of_splitOn (.inr (.inr rfl)) (addrByte_of_groups h)
  · have hcolon : AddrByte colon := .inr (.inr rfl)
    have hl := (addrByte_of_left h₁).1
    have hr := addrByte_of_right h₂
    intro c hc
    simp only [List.mem_append, List.mem_cons] at hc
    rcases hc with hc | rfl | rfl | hc
    · exact hl c hc
    · exact hcolon
    · exact hcolon
    · exact hr c hc

/-- A dot in the form with colons is in an address in dotted form, which ends the text. -/
theorem parseIPv6_tail {s ip : List UInt8} (h : parseIPv6 s = some ip) (hdot : dot ∈ s)
    (hcolon : colon ∈ s) :
    ∃ pre t v, s = pre ++ t ∧ dot ∉ pre ∧ colon ∈ pre ∧ parseIPv4 t = some v := by
  have hne : dot ≠ colon := by decide
  rcases parseIPv6_cases h with ⟨b, h⟩ | ⟨l, r, b₁, b₂, rfl, h₁, h₂⟩
  · have htail := groups_tail h
    rw [List.intercalate_splitOn] at htail
    obtain ⟨pre, t, v, rfl, hpre, hnil | hmem, hv⟩ := htail hdot
    · -- the text is not in dotted form alone, since it has a colon
      subst hnil
      exact absurd hcolon (colon_not_mem_of_parseIPv4 hv)
    · exact ⟨pre, t, v, rfl, hpre, hmem, hv⟩
  · have hl := (addrByte_of_left h₁).2
    have hr : dot ∈ r := by simpa [hl, hne] using hdot
    unfold side at h₂
    split at h₂
    · next hnil =>
      subst hnil
      simp at hr
    · have htail := groups_tail h₂
      rw [List.intercalate_splitOn] at htail
      obtain ⟨pre, t, v, rfl, hpre, -, hv⟩ := htail hr
      refine ⟨l ++ [colon, colon] ++ pre, t, v, by simp, ?_, by simp, hv⟩
      simp [hl, hpre, hne]

/-! ## Accepted texts -/

theorem parseIPv4_dotted (a b c d : UInt8) : parseIPv4 (dotted a b c d) = some [a, b, c, d] := by
  have hdot : ∀ x, dot ∉ decimal x := fun x => dot_not_mem (hex_of_octet (octet_decimal x))
  unfold parseIPv4 dotted
  rw [List.splitOn_append_cons_self_of_not_mem (hdot a), List.splitOn_append_cons_self_of_not_mem (hdot b),
    List.splitOn_append_cons_self_of_not_mem (hdot c), List.splitOn_eq_singleton (hdot d)]
  simp only [List.mapM_cons, List.mapM_nil, octet_decimal]
  rfl

/-- An address is accepted in one of the two forms. -/
theorem parseIP_cases {s ip : List UInt8} (h : parseIP s = some ip) :
    (∃ v, parseIPv4 s = some v ∧ ip = mapped v) ∨ (colon ∈ s ∧ parseIPv6 s = some ip) := by
  unfold parseIP at h
  split at h
  · cases h
  · next c hfind =>
    split at h
    · obtain ⟨v, hv, rfl⟩ := Option.map_eq_some_iff.mp h
      exact .inl ⟨v, hv, rfl⟩
    · next hne =>
      have hc := List.find?_some hfind
      have hmem := List.mem_of_find?_eq_some hfind
      obtain rfl : c = colon := by simpa [hne] using hc
      exact .inr ⟨hmem, h⟩

theorem addrByte_of_parseIP {s ip : List UInt8} (h : parseIP s = some ip) : ∀ c ∈ s, AddrByte c := by
  rcases parseIP_cases h with ⟨v, hv, -⟩ | ⟨-, h⟩
  · exact addrByte_of_parseIPv4 hv
  · exact addrByte_of_parseIPv6 h

/-- A text in dotted form is accepted. -/
theorem parseIP_of_parseIPv4 {s v : List UInt8} (h : parseIPv4 s = some v) : parseIP s = some (mapped v) := by
  obtain ⟨p₀, p₁, p₂, p₃, b₀, b₁, b₂, b₃, hsplit, -⟩ := parseIPv4_eq_some h
  have hdot : dot ∈ s := by
    by_contra hno
    rw [List.splitOn_eq_singleton hno] at hsplit
    cases hsplit
  have hfind : s.find? (fun c => c = dot ∨ c = colon) = some dot := by
    have hsome : (s.find? fun c => c = dot ∨ c = colon).isSome :=
      List.find?_isSome.mpr ⟨dot, hdot, by decide⟩
    obtain ⟨c, hc⟩ := Option.isSome_iff_exists.mp hsome
    have hmem := List.mem_of_find?_eq_some hc
    have hne : c ≠ colon := fun heq => colon_not_mem_of_parseIPv4 h (heq ▸ hmem)
    have hor := List.find?_some hc
    obtain rfl : c = dot := by simpa [hne] using hor
    exact hc
  unfold parseIP
  rw [hfind]
  dsimp only
  rw [if_pos rfl, h, Option.map_some]

end IPAddr
