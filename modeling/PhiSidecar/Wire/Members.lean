import PhiSidecar.Wire.Scan

/-!
# Members, elements and scalars (`sidecar.cpp`: `MemberMap`, `parseHex4` … `parseIntOrDefault`)

Views into the frame buffer are the bytes they show. An out parameter with a `bool` result is an
`Option`, or an `Except` where the caller sees the error text. `parseDouble` is a parameter of the
scalar parser: nothing here depends on how text is rounded to a `double`.
-/

set_option autoImplicit false

namespace Phi.Wire

open Phi.V1

/-! ## Strings -/

def hexDigit (c : UInt8) : Option Nat :=
  if 0x30 ≤ c ∧ c ≤ 0x39 then some (c.toNat - 0x30)
  else if 0x61 ≤ c ∧ c ≤ 0x66 then some (c.toNat - 0x61 + 10)
  else if 0x41 ≤ c ∧ c ≤ 0x46 then some (c.toNat - 0x41 + 10) else none

def parseHex4 (a b c d : UInt8) : Option Nat :=
  [a, b, c, d].foldlM (fun value c => (hexDigit c).map (value <<< 4 ||| ·)) 0

def appendUtf8 (codePoint : Nat) : Bytes :=
  if codePoint < 0x80 then [UInt8.ofNat codePoint]
  else if codePoint < 0x800 then
    [UInt8.ofNat (0xC0 ||| codePoint >>> 6), UInt8.ofNat (0x80 ||| codePoint &&& 0x3F)]
  else if codePoint < 0x10000 then
    [UInt8.ofNat (0xE0 ||| codePoint >>> 12), UInt8.ofNat (0x80 ||| codePoint >>> 6 &&& 0x3F),
      UInt8.ofNat (0x80 ||| codePoint &&& 0x3F)]
  else
    [UInt8.ofNat (0xF0 ||| codePoint >>> 18), UInt8.ofNat (0x80 ||| codePoint >>> 12 &&& 0x3F),
      UInt8.ofNat (0x80 ||| codePoint >>> 6 &&& 0x3F), UInt8.ofNat (0x80 ||| codePoint &&& 0x3F)]

/-- The two-character escapes of `decodeJsonString`. -/
def escapeByte (esc : UInt8) : Option UInt8 :=
  if esc = 0x22 then some 0x22       -- "
  else if esc = 0x5C then some 0x5C  -- \
  else if esc = 0x2F then some 0x2F  -- /
  else if esc = 0x62 then some 0x08  -- b
  else if esc = 0x66 then some 0x0C  -- f
  else if esc = 0x6E then some 0x0A  -- n
  else if esc = 0x72 then some 0x0D  -- r
  else if esc = 0x74 then some 0x09  -- t
  else none

/-- The loop of `decodeJsonString`: what is left of the token at `i`, the closing quote
included. -/
def decodeChars : Bytes → Except Bytes Bytes
  | [] => .ok []
  | ch :: s =>
    match s with
    | [] => .ok []  -- `ch` is the closing quote
    | esc :: s =>
      if ch ≠ 0x5C then (decodeChars (esc :: s)).map (ch :: ·)
      else
        match s with
        | [] => .error (lit "Invalid JSON escape")  -- `esc` is the closing quote
        | x :: s =>
          if esc = 0x75 then
            match s with
            | b :: c :: d :: s =>
              match parseHex4 x b c d with
              | none => .error (lit "Invalid unicode escape")
              | some codePoint =>
                if 0xD800 ≤ codePoint ∧ codePoint ≤ 0xDBFF then
                  match s with
                  | bs :: u :: a' :: b' :: c' :: d' :: s =>
                    if bs ≠ 0x5C ∨ u ≠ 0x75 then
                      .error (lit "Unpaired high surrogate in JSON string")
                    else
                      match parseHex4 a' b' c' d' with
                      | none => .error (lit "Invalid low surrogate in JSON string")
                      | some low =>
                        if low < 0xDC00 ∨ 0xDFFF < low then
                          .error (lit "Invalid low surrogate in JSON string")
                        else
                          (decodeChars s).map
                            (appendUtf8 (0x10000 + (codePoint - 0xD800) <<< 10 + (low - 0xDC00)) ++ ·)
                  | _ => .error (lit "Unpaired high surrogate in JSON string")
                else if 0xDC00 ≤ codePoint ∧ codePoint ≤ 0xDFFF then
                  .error (lit "Unpaired low surrogate in JSON string")
                else (decodeChars s).map (appendUtf8 codePoint ++ ·)
            | _ => .error (lit "Invalid unicode escape")
          else
            match escapeByte esc with
            | none => .error (lit "Unsupported JSON escape")
            | some b => (decodeChars (x :: s)).map (b :: ·)

def decodeJsonString (token : Bytes) : Except Bytes Bytes :=
  let token := trim token
  if token.length < 2 ∨ token.head? ≠ some 0x22 ∨ token.getLast? ≠ some 0x22 then
    .error (lit "Expected JSON string token")
  else decodeChars (token.drop 1)

/-! ## Objects -/

structure MemberMap where
  entries : List (Bytes × Bytes) := []
  deriving DecidableEq

namespace MemberMap

/-- Overwrite the first entry of the key, or append one. -/
def insertEntry (key value : Bytes) : List (Bytes × Bytes) → List (Bytes × Bytes)
  | [] => [(key, value)]
  | e :: es => if e.1 = key then (e.1, value) :: es else e :: insertEntry key value es

def insertOrAssign (m : MemberMap) (key value : Bytes) : MemberMap :=
  ⟨insertEntry key value m.entries⟩

/-- The member's value, empty if there is none. -/
def value (m : MemberMap) (key : Bytes) : Bytes := (m.entries.lookup key).getD []

end MemberMap

def member (map : MemberMap) (key : Bytes) : Bytes := map.value key

/-- The key of a key token: the raw text between the quotes unless it has an escape. -/
def memberKey (keyToken : Bytes) : Except Bytes Bytes :=
  if 0x5C ∉ keyToken then .ok ((keyToken.drop 1).take (keyToken.length - 2))
  else decodeJsonString keyToken

/-- `text.substr(i, j - i)`. -/
def slice (text : Bytes) (i j : Nat) : Bytes := (text.drop i).take (j - i)

def parseMembersLoop (text : Bytes) : Nat → Nat → MemberMap → Except Bytes MemberMap
  | 0, _, _ => .error (lit "out of fuel")
  | fuel + 1, i, out =>
    if i < text.length then do
      let j ← (skipStringToken text i).mapError Prod.fst
      let key ← memberKey (slice text i j)
      let i := skipWs text j
      if text[i]? = some 0x3A then do
        let i := skipWs text (i + 1)
        let j ← (skipValueToken text (scanFuel text) i).mapError Prod.fst
        let out := out.insertOrAssign key (trim (slice text i j))
        let i := skipWs text j
        if text[i]? = some 0x2C then parseMembersLoop text fuel (skipWs text (i + 1)) out
        else if text[i]? = some 0x7D then .ok out
        else .error (lit "Invalid JSON object")
      else .error (lit "Expected ':' in JSON object")
    else .error (lit "Unterminated JSON object")

def parseObjectMembers (objectJson : Bytes) : Except Bytes MemberMap :=
  let text := trim objectJson
  if text[0]? = some 0x7B then
    let i := skipWs text 1
    if text[i]? = some 0x7D then .ok {} else parseMembersLoop text (text.length + 1) i {}
  else .error (lit "Expected JSON object")

/-! ## Arrays -/

def parseElementsLoop (text : Bytes) : Nat → Nat → List Bytes → Except Bytes (List Bytes)
  | 0, _, _ => .error (lit "out of fuel")
  | fuel + 1, i, out =>
    if i < text.length then do
      let j ← (skipValueToken text (scanFuel text) i).mapError Prod.fst
      let out := out ++ [trim (slice text i j)]
      let i := skipWs text j
      if text[i]? = some 0x2C then parseElementsLoop text fuel (skipWs text (i + 1)) out
      else if text[i]? = some 0x5D then .ok out
      else .error (lit "Invalid JSON array")
    else .error (lit "Unterminated JSON array")

def parseArrayElements (arrayJson : Bytes) : Except Bytes (List Bytes) :=
  let text := trim arrayJson
  if text[0]? = some 0x5B then
    let i := skipWs text 1
    if text[i]? = some 0x5D then .ok [] else parseElementsLoop text (text.length + 1) i []
  else .error (lit "Expected JSON array")

/-! ## Numbers and scalars -/

/-- `std::from_chars` into an `int64_t`, up to the end of the trimmed token. -/
def parseInt64 (token : Bytes) : Option Int64 :=
  match Decimal.readInt (trim token) with
  | none => none
  | some z => if -2 ^ 63 ≤ z ∧ z < 2 ^ 63 then some (Int64.ofInt z) else none

/-- `std::from_chars` into a `uint64_t`, up to the end of the trimmed token. -/
def parseUInt64 (token : Bytes) : Option UInt64 :=
  match Decimal.readNat (trim token) with
  | none => none
  | some n => if n < 2 ^ 64 then some (UInt64.ofNat n) else none

def parseCmdIdToken (token : Bytes) : Option CmdId := parseUInt64 token

def parseScalarValueToken (parseDouble : Bytes → Option Double) (token : Bytes) :
    Option ScalarValue :=
  let token := trim token
  if token = [] then none
  else if token.head? = some 0x22 then
    match decodeJsonString token with
    | .ok text => some (.text text)
    | .error _ => none
  else if token = lit "true" then some (.bool true)
  else if token = lit "false" then some (.bool false)
  else if token = lit "null" then some .null
  else if token.any fun c => c == 0x2E || c == 0x65 || c == 0x45 then
    (parseDouble token).map .double
  else (parseInt64 token).map .int

/-- `decodeStringOrDefault` with its default argument. -/
def decodeStringOrDefault (token : Bytes) : Bytes :=
  if token = [] then []
  else
    match decodeJsonString token with
    | .ok value => value
    | .error _ => []

def parseIntOrDefault (token : Bytes) (fallback : Int64 := 0) : Int64 :=
  if token = [] then fallback else (parseInt64 token).getD fallback

end Phi.Wire
