import Mathlib.Data.List.DropRight
import Rpceth.Lib.F64
import Rpceth.Lib.HashMap

/-! Time, counters, identifiers and the texts of responses. -/

namespace Rpceth

/-- A span of time in nanoseconds. -/
abbrev Duration := Nat

/-- A reading of the monotonic clock in nanoseconds. -/
abbrev Instant := Nat

def Duration.fromMillis (ms : UInt64) : Duration := ms.toNat * 1000000

theorem Duration.fromMillis_le {a b : UInt64} : Duration.fromMillis a ≤ Duration.fromMillis b ↔ a ≤ b := by
  rw [UInt64.le_iff_toNat_le]
  show a.toNat * 1000000 ≤ b.toNat * 1000000 ↔ a.toNat ≤ b.toNat
  omega

theorem Duration.fromMillis_pos {a : UInt64} : 0 < Duration.fromMillis a ↔ a ≠ 0 := by
  have h : a = 0 ↔ a.toNat = 0 := UInt64.toNat_inj.symm
  rw [Ne, h]
  show 0 < a.toNat * 1000000 ↔ ¬a.toNat = 0
  omega

/-- `Duration::as_secs_f64() * 1_000.0`, without rounding. -/
def Duration.asMillis (d : Duration) : Rat := (d : Rat) / 1000000

/-- `u32::saturating_add(1)`. -/
def saturatingSucc (n : UInt32) : UInt32 := if n.toNat + 1 < 2 ^ 32 then n + 1 else n

@[simp] theorem toNat_saturatingSucc (n : UInt32) :
    (saturatingSucc n).toNat = min (n.toNat + 1) (2 ^ 32 - 1) := by
  have hn := n.toNat_lt
  unfold saturatingSucc
  split
  · rw [UInt32.toNat_add, UInt32.toNat_one]
    omega
  · omega

structure ProviderId where
  text : String
  deriving DecidableEq, Repr

/-! ### Text -/

/-- `char::is_whitespace`: the characters with the Unicode property White_Space. -/
def isWhitespace (c : Char) : Bool :=
  let n := c.toNat
  (0x9 ≤ n && n ≤ 0xD) || n == 0x20 || n == 0x85 || n == 0xA0 || n == 0x1680 || (0x2000 ≤ n && n ≤ 0x200A) ||
    n == 0x2028 || n == 0x2029 || n == 0x202F || n == 0x205F || n == 0x3000

/-- `str::trim`. -/
def trim (s : String) : String :=
  String.ofList ((s.toList.dropWhile isWhitespace).reverse.dropWhile isWhitespace).reverse

/-- `str::to_ascii_lowercase`. -/
def toAsciiLowercase (s : String) : String :=
  String.ofList (s.toList.map fun c => if 'A' ≤ c ∧ c ≤ 'Z' then Char.ofNat (c.toNat + 32) else c)

/-- `c.to_digit(16)`. -/
def hexDigit (c : Char) : Option Nat :=
  if '0' ≤ c ∧ c ≤ '9' then some (c.toNat - '0'.toNat)
  else if 'a' ≤ c ∧ c ≤ 'f' then some (c.toNat - 'a'.toNat + 10)
  else if 'A' ≤ c ∧ c ≤ 'F' then some (c.toNat - 'A'.toNat + 10)
  else none

theorem trim_empty : trim "" = "" := by decide

theorem trim_trim (s : String) : trim (trim s) = trim s := by
  -- The first character that is left is the first one that is no whitespace, so nothing is dropped again.
  have hkeep : ((s.toList.dropWhile isWhitespace).rdropWhile isWhitespace).dropWhile isWhitespace =
      (s.toList.dropWhile isWhitespace).rdropWhile isWhitespace := by
    refine List.dropWhile_eq_self_iff.mpr fun hpos => ?_
    have hfront := List.rdropWhile_prefix isWhitespace (l := s.toList.dropWhile isWhitespace)
    rw [hfront.getElem hpos]
    exact List.dropWhile_get_zero_not isWhitespace s.toList (Nat.lt_of_lt_of_le hpos hfront.length_le)
  show String.ofList (((String.ofList ((s.toList.dropWhile isWhitespace).rdropWhile isWhitespace)).toList.dropWhile
    isWhitespace).rdropWhile isWhitespace) = String.ofList ((s.toList.dropWhile isWhitespace).rdropWhile isWhitespace)
  rw [String.toList_ofList, hkeep, List.rdropWhile_idempotent]

theorem ne_empty_of_trim {s : String} (h : trim s ≠ "") : s ≠ "" := by
  rintro rfl
  exact h trim_empty

/-! ### JSON and responses -/

/-- `serde_json::Value`; a number is kept as its text. -/
inductive Json where
  | null
  | bool (b : Bool)
  | number (text : String)
  | string (s : String)
  | array (items : List Json)
  | object (fields : List (String × Json))

namespace Json

def get (key : String) : Json → Option Json
  | object fields => fields.lookup key
  | _ => none

def asStr : Json → Option String
  | string s => some s
  | _ => none

end Json

/-- `http::StatusCode`: the code and the text it displays as. -/
structure StatusCode where
  code : UInt16
  display : String
  deriving DecidableEq, Repr

def StatusCode.isSuccess (s : StatusCode) : Bool := 200 ≤ s.code && s.code < 300

abbrev HeaderMap := List (String × String)

inductive Body where
  | json (value : Json)
  | bytes (data : List UInt8)

structure Response where
  status : UInt16
  headers : HeaderMap
  body : Body

end Rpceth
