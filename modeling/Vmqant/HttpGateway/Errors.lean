import Vmqant.Common.Hex
import Vmqant.Common.Printf

/-!
# The errors of the HTTP gateway

Reference: `httpgateway/errors/errors.go`, lines 11-43; `httpgateway/api.go`, lines 38-52.

An error travels as the text of its JSON object, which `Error.text` writes as `encoding/json` does. Reading
the text back is left to a decoder.
-/

namespace Vmqant.HttpGateway

open Printf (ascii)

/-! ## The text of an error -/

/-- `errors.Error`. -/
structure Error where
  id : List UInt8
  code : Int32
  detail : List UInt8
  status : List UInt8
deriving DecidableEq

/-- A byte of ASCII in a JSON string. -/
def escapeByte (c : UInt8) : List UInt8 :=
  if c = '"'.toUInt8 ∨ c = '\\'.toUInt8 then ['\\'.toUInt8, c]
  else if c = '\n'.toUInt8 then ascii "\\n"
  else if c = '\r'.toUInt8 then ascii "\\r"
  else if c = '\t'.toUInt8 then ascii "\\t"
  else if c < 0x20 ∨ c ∈ ascii "<>&" then ascii "\\u00" ++ Hex.encodeByte c
  else [c]

/-- The first character of a text, which is not of ASCII, in a JSON string. -/
def escapeRune (s : List UInt8) : List UInt8 :=
  match Utf8.runeLength s with
  | none => ascii "\\ufffd"
  | some n =>
    if s.take n = [0xE2, 0x80, 0xA8] then ascii "\\u2028"
    else if s.take n = [0xE2, 0x80, 0xA9] then ascii "\\u2029"
    else s.take n

def escape : List UInt8 → List UInt8
  | [] => []
  | c :: s =>
    if c < 0x80 then escapeByte c ++ escape s
    else escapeRune (c :: s) ++ escape (Utf8.decodeRune (c :: s)).2
termination_by s => s.length
decreasing_by
  · exact Nat.lt_succ_self _
  · exact Nat.lt_succ_of_le (Utf8.decodeRune_suffix c s).length_le

def quote (s : List UInt8) : List UInt8 := '"'.toUInt8 :: (escape s ++ ['"'.toUInt8])

def digits (n : ℕ) : List UInt8 :=
  if n = 0 then ascii "0" else (Nat.digits 10 n).reverse.map fun d => UInt8.ofNat (0x30 + d)

def decimal (i : ℤ) : List UInt8 :=
  if i < 0 then '-'.toUInt8 :: digits i.natAbs else digits i.natAbs

/-- `Error`, the JSON object. -/
def Error.text (e : Error) : List UInt8 :=
  ascii "\x7b\"id\":" ++ quote e.id ++ ascii ",\"code\":" ++ decimal e.code.toInt ++
    ascii ",\"detail\":" ++ quote e.detail ++ ascii ",\"status\":" ++ quote e.status ++ ascii "\x7d"

/-- The texts of `http.StatusText`. -/
def statusTexts : List (ℤ × String) :=
  [(100, "Continue"), (101, "Switching Protocols"), (102, "Processing"), (103, "Early Hints"),
    (200, "OK"), (201, "Created"), (202, "Accepted"), (203, "Non-Authoritative Information"),
    (204, "No Content"), (205, "Reset Content"), (206, "Partial Content"), (207, "Multi-Status"),
    (208, "Already Reported"), (226, "IM Used"), (300, "Multiple Choices"), (301, "Moved Permanently"),
    (302, "Found"), (303, "See Other"), (304, "Not Modified"), (305, "Use Proxy"),
    (307, "Temporary Redirect"), (308, "Permanent Redirect"), (400, "Bad Request"),
    (401, "Unauthorized"), (402, "Payment Required"), (403, "Forbidden"), (404, "Not Found"),
    (405, "Method Not Allowed"), (406, "Not Acceptable"), (407, "Proxy Authentication Required"),
    (408, "Request Timeout"), (409, "Conflict"), (410, "Gone"), (411, "Length Required"),
    (412, "Precondition Failed"), (413, "Request Entity Too Large"), (414, "Request URI Too Long"),
    (415, "Unsupported Media Type"), (416, "Requested Range Not Satisfiable"),
    (417, "Expectation Failed"), (418, "I'm a teapot"), (421, "Misdirected Request"),
    (422, "Unprocessable Entity"), (423, "Locked"), (424, "Failed Dependency"), (425, "Too Early"),
    (426, "Upgrade Required"), (428, "Precondition Required"), (429, "Too Many Requests"),
    (431, "Request Header Fields Too Large"), (451, "Unavailable For Legal Reasons"),
    (500, "Internal Server Error"), (501, "Not Implemented"), (502, "Bad Gateway"),
    (503, "Service Unavailable"), (504, "Gateway Timeout"), (505, "HTTP Version Not Supported"),
    (506, "Variant Also Negotiates"), (507, "Insufficient Storage"), (508, "Loop Detected"),
    (510, "Not Extended"), (511, "Network Authentication Required")]

def statusText (code : ℤ) : List UInt8 := ascii ((statusTexts.lookup code).getD "")

/-- `New`. -/
def Error.new (id detail : List UInt8) (code : Int32) : Error where
  id := id
  code := code
  detail := detail
  status := statusText code.toInt

/-! ## The gateway -/

/-- `json.Unmarshal` into a new `errors.Error`: what it leaves there, and whether it succeeds. -/
abbrev Unmarshal := List UInt8 → Error × Bool

/-- `Parse`. -/
def parse (unmarshal : Unmarshal) (err : List UInt8) : Error :=
  match unmarshal err with
  | (e, true) => e
  | (e, false) => { e with detail := err }

/-- How `ServeHTTP` answers when the call has failed with an error: the status code and the body. -/
def serveError (unmarshal : Unmarshal) (err : List UInt8) : ℤ × List UInt8 :=
  let ce := parse unmarshal err
  (if ce.code = 0 then 500 else ce.code.toInt, ce.text)

/-! ## Where a `%` comes from -/

theorem percent_mem_escapeByte {c : UInt8} (hc : c < 0x80) :
    '%'.toUInt8 ∈ escapeByte c ↔ c = '%'.toUInt8 := by
  have hall : ∀ n : Fin 128, '%'.toUInt8 ∈ escapeByte (UInt8.ofNat n) ↔
      UInt8.ofNat n = '%'.toUInt8 := by decide +kernel
  have h := hall ⟨c.toNat, UInt8.lt_iff_toNat_lt.mp hc⟩
  rwa [UInt8.ofNat_toNat] at h

theorem percent_not_mem_escapeRune {c : UInt8} (hc : ¬ c < 0x80) (s : List UInt8) :
    '%'.toUInt8 ∉ escapeRune (c :: s) := by
  have hrune := Utf8.not_mem_decodeRune hc (by decide : '%'.toUInt8 < 0x80) s
  unfold Utf8.decodeRune at hrune
  unfold escapeRune
  split
  · decide
  · next n hlength =>
    rw [hlength] at hrune
    split
    · decide
    · split
      · decide
      · exact hrune

/-- Escaping neither makes nor takes a `%`. -/
theorem percent_mem_escape (s : List UInt8) : '%'.toUInt8 ∈ escape s ↔ '%'.toUInt8 ∈ s := by
  induction s using escape.induct with
  | case1 => rw [escape]
  | case2 c s hc ih =>
    rw [escape, if_pos hc, List.mem_append, percent_mem_escapeByte hc, ih, List.mem_cons, eq_comm]
  | case3 c s hc ih =>
    rw [escape, if_neg hc, List.mem_append, ih, Utf8.mem_decodeRune_snd hc (by decide)]
    exact or_iff_right (percent_not_mem_escapeRune hc s)

theorem percent_mem_quote (s : List UInt8) : '%'.toUInt8 ∈ quote s ↔ '%'.toUInt8 ∈ s := by
  have hquote : '%'.toUInt8 ≠ '"'.toUInt8 := by decide
  unfold quote
  rw [List.mem_cons, List.mem_append, List.mem_singleton, percent_mem_escape]
  exact ⟨fun h => (h.resolve_left hquote).resolve_right hquote, fun h => .inr (.inl h)⟩

theorem percent_not_mem_digits (n : ℕ) : '%'.toUInt8 ∉ digits n := by
  unfold digits
  split
  · decide
  · intro hmem
    obtain ⟨d, hd, heq⟩ := List.mem_map.mp hmem
    have hlt : d < 10 := Nat.digits_lt_base (by decide) (List.mem_reverse.mp hd)
    have hall : ∀ m : Fin 10, UInt8.ofNat (0x30 + m) ≠ '%'.toUInt8 := by decide
    exact hall ⟨d, hlt⟩ heq

theorem percent_not_mem_decimal (i : ℤ) : '%'.toUInt8 ∉ decimal i := by
  unfold decimal
  split
  · exact List.not_mem_cons_of_ne_of_not_mem (by decide) (percent_not_mem_digits _)
  · exact percent_not_mem_digits _

theorem percent_not_mem_statusText (code : ℤ) : '%'.toUInt8 ∉ statusText code := by
  have hall : ∀ e ∈ statusTexts, '%'.toUInt8 ∉ ascii e.2 := by decide +kernel
  unfold statusText
  cases hlookup : statusTexts.lookup code with
  | none => decide
  | some text =>
    obtain ⟨l, l', hsplit, -⟩ := List.lookup_eq_some_iff.mp hlookup
    exact hall (code, text) (hsplit ▸ List.mem_append_right _ List.mem_cons_self)

theorem percent_mem_text (id detail : List UInt8) (code : Int32) :
    '%'.toUInt8 ∈ (Error.new id detail code).text ↔ '%'.toUInt8 ∈ id ∨ '%'.toUInt8 ∈ detail := by
  have hid : '%'.toUInt8 ∉ ascii "\x7b\"id\":" := by decide
  have hcode : '%'.toUInt8 ∉ ascii ",\"code\":" := by decide
  have hdetail : '%'.toUInt8 ∉ ascii ",\"detail\":" := by decide
  have hstatus : '%'.toUInt8 ∉ ascii ",\"status\":" := by decide
  have hend : '%'.toUInt8 ∉ ascii "\x7d" := by decide
  simp only [Error.text, Error.new, List.mem_append, percent_mem_quote, hid, hcode, hdetail, hstatus,
    hend, percent_not_mem_decimal, percent_not_mem_statusText, or_false, false_or]

end Vmqant.HttpGateway
