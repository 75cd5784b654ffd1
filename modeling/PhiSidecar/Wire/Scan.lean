import Mathlib.Data.List.DropRight
import PhiSidecar.Lib.Decimal
import PhiSidecar.V1.Types

/-!
# The JSON tokenizer (`sidecar.cpp`: `skipWs` … `skipValueToken`)

Every scanner takes the text and a position `i` and gives the position after the token. A failed
scan gives the error text and the position `i` was left at. Loops that only pass over a run of
characters are a `takeWhile`; the string loop recurses on what is left of the text; the mutually
recursive value scanners recurse on a fuel, for which `scanFuel` is always enough.

Bytes: `0x22` is `"`, `0x5C` is `\`, `0x2C` is `,`, `0x3A` is `:`, `0x5B 0x5D` are `[ ]`,
`0x7B 0x7D` are `{ }`, `0x2B 0x2D 0x2E` are `+ - .`, `0x65 0x45` are `e E`.
-/

set_option autoImplicit false

namespace Phi.Wire

abbrev Scan := Except (Bytes × Nat) Nat

def isWs (c : UInt8) : Bool := c == 0x20 || c == 0x09 || c == 0x0A || c == 0x0D

def skipWs (text : Bytes) (i : Nat) : Nat := i + ((text.drop i).takeWhile isWs).length

def trim (text : Bytes) : Bytes := (text.dropWhile isWs).rdropWhile isWs

/-- The loop of `skipStringToken`: `s` is what is left of the text at `i`. -/
def skipStringBody : Bytes → Nat → Scan
  | [], i => .error (lit "Unterminated JSON string", i)
  | ch :: s, i =>
    if ch = 0x22 then .ok (i + 1)
    else if ch = 0x5C then
      match s with
      | [] => .error (lit "Invalid JSON string escape", i + 1)
      | _ :: s => skipStringBody s (i + 2)
    else skipStringBody s (i + 1)

def skipStringToken (text : Bytes) (i : Nat) : Scan :=
  if text[i]? = some 0x22 then skipStringBody (text.drop (i + 1)) (i + 1)
  else .error (lit "Expected JSON string", i)

/-! ## Numbers

The state of `skipNumberToken` is `anyDigit` and `i`. -/

def skipSign (text : Bytes) (i : Nat) : Nat :=
  if text[i]? = some 0x2D ∨ text[i]? = some 0x2B then i + 1 else i

def skipDigits (text : Bytes) (a : Bool × Nat) : Bool × Nat :=
  let n := ((text.drop a.2).takeWhile Decimal.isDigit).length
  (a.1 || decide (0 < n), a.2 + n)

def skipFraction (text : Bytes) (a : Bool × Nat) : Bool × Nat :=
  if text[a.2]? = some 0x2E then skipDigits text (a.1, a.2 + 1) else a

def skipExponent (text : Bytes) (a : Bool × Nat) : Bool × Nat :=
  if text[a.2]? = some 0x65 ∨ text[a.2]? = some 0x45 then
    skipDigits text (a.1, skipSign text (a.2 + 1))
  else a

def skipNumberToken (text : Bytes) (i : Nat) : Bool × Nat :=
  skipExponent text (skipFraction text (skipDigits text (false, skipSign text i)))

/-! ## Values -/

/-- `text.substr(i, token.size()) == token`. -/
def hasToken (text : Bytes) (i : Nat) (token : Bytes) : Bool :=
  (text.drop i).take token.length == token

/-- Fuel for any scan of `text`: three units for each byte (value, bracket, loop). -/
def scanFuel (text : Bytes) : Nat := 3 * text.length + 2

mutual

def skipValueToken (text : Bytes) : Nat → Nat → Scan
  | 0, i => .error (lit "out of fuel", i)
  | fuel + 1, i =>
    let i := skipWs text i
    match text[i]? with
    | none => .error (lit "Unexpected end of JSON", i)
    | some ch =>
      if ch = 0x22 then skipStringToken text i
      else if ch = 0x7B then skipObjectToken text fuel i
      else if ch = 0x5B then skipArrayToken text fuel i
      else if ch = 0x74 ∧ hasToken text i (lit "true") then .ok (i + 4)
      else if ch = 0x66 ∧ hasToken text i (lit "false") then .ok (i + 5)
      else if ch = 0x6E ∧ hasToken text i (lit "null") then .ok (i + 4)
      else
        let (anyDigit, i) := skipNumberToken text i
        if anyDigit then .ok i else .error (lit "Invalid JSON value", i)

def skipArrayToken (text : Bytes) : Nat → Nat → Scan
  | 0, i => .error (lit "out of fuel", i)
  | fuel + 1, i =>
    if text[i]? = some 0x5B then
      let i := skipWs text (i + 1)
      if text[i]? = some 0x5D then .ok (i + 1) else skipArrayLoop text fuel i
    else .error (lit "Expected JSON array", i)

/-- The loop of `skipArrayToken`, after the bracket and the whitespace that follows it. -/
def skipArrayLoop (text : Bytes) : Nat → Nat → Scan
  | 0, i => .error (lit "out of fuel", i)
  | fuel + 1, i =>
    if i < text.length then do
      let i ← skipValueToken text fuel i
      let i := skipWs text i
      if text[i]? = some 0x2C then skipArrayLoop text fuel (skipWs text (i + 1))
      else if text[i]? = some 0x5D then .ok (i + 1)
      else .error (lit "Invalid JSON array", i)
    else .error (lit "Unterminated JSON array", i)

def skipObjectToken (text : Bytes) : Nat → Nat → Scan
  | 0, i => .error (lit "out of fuel", i)
  | fuel + 1, i =>
    if text[i]? = some 0x7B then
      let i := skipWs text (i + 1)
      if text[i]? = some 0x7D then .ok (i + 1) else skipObjectLoop text fuel i
    else .error (lit "Expected JSON object", i)

/-- The loop of `skipObjectToken`, after the brace and the whitespace that follows it. -/
def skipObjectLoop (text : Bytes) : Nat → Nat → Scan
  | 0, i => .error (lit "out of fuel", i)
  | fuel + 1, i =>
    if i < text.length then do
      let i ← skipStringToken text i
      let i := skipWs text i
      if text[i]? = some 0x3A then do
        let i ← skipValueToken text fuel (skipWs text (i + 1))
        let i := skipWs text i
        if text[i]? = some 0x2C then skipObjectLoop text fuel (skipWs text (i + 1))
        else if text[i]? = some 0x7D then .ok (i + 1)
        else .error (lit "Invalid JSON object", i)
      else .error (lit "Expected ':' in JSON object", i)
    else .error (lit "Unterminated JSON object", i)

end

end Phi.Wire
