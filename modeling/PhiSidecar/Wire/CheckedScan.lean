import PhiSidecar.Lib.Checked
import PhiSidecar.Wire.Members

/-!
# The tokenizer with its reads and loops (`sidecar.cpp`: `skipWs` … `parseArrayElements`)

The functions of `Wire.Scan` and `Wire.Members` once more, as the source has them: every `text[i]` is a
checked read, every `substr` a checked view, every `while` a loop with fuel `text.length + 1`. The
mutual recursion of the value scanners is cut off at a nesting `depth`. A failed scan leaves `i` where
it was when the error was found.
-/

set_option autoImplicit false

namespace Phi.Wire.Bounded

open Checked

abbrev ScanRun := Run (Bytes × Nat)

variable {ε : Type}

def skipWs (text : Bytes) (i : Nat) : Run ε Nat := scanWhile isWs text i

/-- The second loop of `trim`, from `end` down to `begin`. -/
def trimEnd (text : Bytes) (first : Nat) : Run ε Nat :=
  loop (fun last =>
    if first < last then do
      if isWs (← get text (last - 1)) then pure (.next (last - 1)) else pure (.stop last)
    else pure (.stop last)) (text.length + 1) text.length

def trim (text : Bytes) : Run ε Bytes := do
  let first ← scanWhile isWs text 0
  let last ← trimEnd text first
  view text first last

/-! ## Strings and numbers -/

def stringRound (text : Bytes) (i : Nat) : ScanRun (Step Nat Nat) :=
  if i < text.length then do
    let ch ← get text i
    let i := i + 1
    if ch = 0x22 then pure (.stop i)
    else if ch = 0x5C then
      if text.length ≤ i then .error (lit "Invalid JSON string escape", i)
      else pure (.next (i + 1))
    else pure (.next i)
  else .error (lit "Unterminated JSON string", i)

def skipStringToken (text : Bytes) (i : Nat) : ScanRun Nat := do
  if ← isAt (· == 0x22) text i then loop (stringRound text) (text.length + 1) (i + 1)
  else .error (lit "Expected JSON string", i)

def skipSign (text : Bytes) (i : Nat) : Run ε Nat := do
  if ← isAt (fun c => c == 0x2D || c == 0x2B) text i then pure (i + 1) else pure i

def skipDigits (text : Bytes) (a : Bool × Nat) : Run ε (Bool × Nat) :=
  loop (fun a => do
    if ← isAt Decimal.isDigit text a.2 then pure (.next (true, a.2 + 1)) else pure (.stop a))
    (text.length + 1) a

def skipFraction (text : Bytes) (a : Bool × Nat) : Run ε (Bool × Nat) := do
  if ← isAt (· == 0x2E) text a.2 then skipDigits text (a.1, a.2 + 1) else pure a

def skipExponent (text : Bytes) (a : Bool × Nat) : Run ε (Bool × Nat) := do
  if ← isAt (fun c => c == 0x65 || c == 0x45) text a.2 then
    let i ← skipSign text (a.2 + 1)
    skipDigits text (a.1, i)
  else pure a

def skipNumberToken (text : Bytes) (i : Nat) : Run ε (Bool × Nat) := do
  let i ← skipSign text i
  let a ← skipDigits text (false, i)
  let a ← skipFraction text a
  skipExponent text a

/-! ## Values -/

/-- `ch == c && text.substr(i, token.size()) == token`. -/
def literalAt (text : Bytes) (i : Nat) (ch c : UInt8) (token : Bytes) : Run ε Bool :=
  if ch = c then do pure ((← viewAtMost text i token.length) == token) else pure false

/-- The end of a round of a loop over items: a comma and whitespace, or the closing bracket. -/
def itemEnd (text : Bytes) (close : UInt8) (error : Bytes) (i : Nat) : ScanRun (Step Nat Nat) := do
  let i ← skipWs text i
  if ← isAt (· == 0x2C) text i then
    let i ← skipWs text (i + 1)
    pure (.next i)
  else if ← isAt (· == close) text i then pure (.stop (i + 1))
  else .error (error, i)

section
/-! The scanner of the values inside, one level of nesting down. -/

variable (value : Nat → ScanRun Nat)

def arrayRound (text : Bytes) (i : Nat) : ScanRun (Step Nat Nat) :=
  if i < text.length then do
    let i ← value i
    itemEnd text 0x5D (lit "Invalid JSON array") i
  else .error (lit "Unterminated JSON array", i)

def skipArrayToken (text : Bytes) (i : Nat) : ScanRun Nat := do
  if ← isAt (· == 0x5B) text i then
    let i ← skipWs text (i + 1)
    if ← isAt (· == 0x5D) text i then pure (i + 1)
    else loop (arrayRound value text) (text.length + 1) i
  else .error (lit "Expected JSON array", i)

def objectRound (text : Bytes) (i : Nat) : ScanRun (Step Nat Nat) :=
  if i < text.length then do
    let i ← skipStringToken text i
    let i ← skipWs text i
    if ← isAt (· == 0x3A) text i then
      let i ← skipWs text (i + 1)
      let i ← value i
      itemEnd text 0x7D (lit "Invalid JSON object") i
    else .error (lit "Expected ':' in JSON object", i)
  else .error (lit "Unterminated JSON object", i)

def skipObjectToken (text : Bytes) (i : Nat) : ScanRun Nat := do
  if ← isAt (· == 0x7B) text i then
    let i ← skipWs text (i + 1)
    if ← isAt (· == 0x7D) text i then pure (i + 1)
    else loop (objectRound value text) (text.length + 1) i
  else .error (lit "Expected JSON object", i)

end

def skipValueToken (text : Bytes) : Nat → Nat → ScanRun Nat
  | 0, _ => .spin
  | depth + 1, i => do
    let i ← skipWs text i
    if text.length ≤ i then .error (lit "Unexpected end of JSON", i)
    else do
      let ch ← get text i
      if ch = 0x22 then skipStringToken text i
      else if ch = 0x7B then skipObjectToken (skipValueToken text depth) text i
      else if ch = 0x5B then skipArrayToken (skipValueToken text depth) text i
      else if ← literalAt text i ch 0x74 (lit "true") then pure (i + 4)
      else if ← literalAt text i ch 0x66 (lit "false") then pure (i + 5)
      else if ← literalAt text i ch 0x6E (lit "null") then pure (i + 4)
      else
        let (anyDigit, i) ← skipNumberToken text i
        if anyDigit then pure i else .error (lit "Invalid JSON value", i)

/-! ## Keys -/

/-- The loop of `parseHex4`, `n` bytes before its end. -/
def hexDigits (text : Bytes) : Nat → Nat → Nat → Run ε (Option Nat)
  | 0, _, value => pure (some value)
  | n + 1, pos, value => do
    match hexDigit (← get text pos) with
    | none => pure none
    | some d => hexDigits text n (pos + 1) (value <<< 4 ||| d)

def parseHex4 (text : Bytes) (pos : Nat) : Run ε (Option Nat) :=
  if text.length < pos + 4 then pure none else hexDigits text 4 pos 0

/-- A `\u` escape of `decodeJsonString`, whose `u` is at `i`. -/
def decodeUnicode (token : Bytes) (i : Nat) (out : Bytes) : Run Bytes (Step (Nat × Bytes) Bytes) := do
  match ← parseHex4 token (i + 1) with
  | none => .error (lit "Invalid unicode escape")
  | some codePoint =>
    let i := i + 4
    if 0xD800 ≤ codePoint ∧ codePoint ≤ 0xDBFF then
      if token.length ≤ i + 6 then .error (lit "Unpaired high surrogate in JSON string")
      else do
        let bs ← get token (i + 1)
        let u ← get token (i + 2)
        if bs ≠ 0x5C ∨ u ≠ 0x75 then .error (lit "Unpaired high surrogate in JSON string")
        else do
          match ← parseHex4 token (i + 3) with
          | none => .error (lit "Invalid low surrogate in JSON string")
          | some low =>
            if low < 0xDC00 ∨ 0xDFFF < low then .error (lit "Invalid low surrogate in JSON string")
            else
              pure (.next (i + 7,
                out ++ appendUtf8 (0x10000 + (codePoint - 0xD800) <<< 10 + (low - 0xDC00))))
    else if 0xDC00 ≤ codePoint ∧ codePoint ≤ 0xDFFF then
      .error (lit "Unpaired low surrogate in JSON string")
    else pure (.next (i + 1, out ++ appendUtf8 codePoint))

def decodeRound (token : Bytes) : Nat × Bytes → Run Bytes (Step (Nat × Bytes) Bytes)
  | (i, out) =>
    if i + 1 < token.length then do
      let ch ← get token i
      if ch ≠ 0x5C then pure (.next (i + 1, out ++ [ch]))
      else if token.length - 1 ≤ i + 1 then .error (lit "Invalid JSON escape")
      else do
        let esc ← get token (i + 1)
        if esc = 0x75 then decodeUnicode token (i + 1) out
        else
          match escapeByte esc with
          | none => .error (lit "Unsupported JSON escape")
          | some b => pure (.next (i + 2, out ++ [b]))
    else pure (.stop out)

def decodeJsonString (token : Bytes) : Run Bytes Bytes := do
  let token ← trim token
  if token.length < 2 then .error (lit "Expected JSON string token")
  else do
    let front ← get token 0
    let back ← get token (token.length - 1)
    if front ≠ 0x22 ∨ back ≠ 0x22 then .error (lit "Expected JSON string token")
    else loop (decodeRound token) (token.length + 1) (1, [])

/-- The key of a key token; `keyToken.size() - 2` must not wrap around. -/
def memberKey (keyToken : Bytes) : Run Bytes Bytes :=
  if 0x5C ∉ keyToken then
    if keyToken.length < 2 then .trap else viewAtMost keyToken 1 (keyToken.length - 2)
  else decodeJsonString keyToken

/-! ## Members and elements -/

/-- A value and its end: the text in between. -/
def valueView (text : Bytes) (i : Nat) : Run Bytes (Nat × Bytes) := do
  let j ← (skipValueToken text (text.length + 1) i).mapError Prod.fst
  let value ← view text i j
  let value ← trim value
  pure (j, value)

/-- The end of a round that has stored an entry: a comma and whitespace, or the closing bracket. -/
def entryEnd {τ : Type} (text : Bytes) (close : UInt8) (error : Bytes) (out : τ) (i : Nat) :
    Run Bytes (Step (Nat × τ) τ) := do
  let i ← skipWs text i
  if ← isAt (· == 0x2C) text i then
    let i ← skipWs text (i + 1)
    pure (.next (i, out))
  else if ← isAt (· == close) text i then pure (.stop out)
  else .error error

def membersRound (text : Bytes) : Nat × MemberMap → Run Bytes (Step (Nat × MemberMap) MemberMap)
  | (i, out) =>
    if i < text.length then do
      let j ← (skipStringToken text i).mapError Prod.fst
      let keyToken ← view text i j
      let key ← memberKey keyToken
      let i ← skipWs text j
      if ← isAt (· == 0x3A) text i then
        let i ← skipWs text (i + 1)
        let (j, value) ← valueView text i
        entryEnd text 0x7D (lit "Invalid JSON object") (out.insertOrAssign key value) j
      else .error (lit "Expected ':' in JSON object")
    else .error (lit "Unterminated JSON object")

def parseObjectMembers (objectJson : Bytes) : Run Bytes MemberMap := do
  let text ← trim objectJson
  if ← isAt (· == 0x7B) text 0 then
    let i ← skipWs text 1
    if ← isAt (· == 0x7D) text i then pure {}
    else loop (membersRound text) (text.length + 1) (i, {})
  else .error (lit "Expected JSON object")

def elementsRound (text : Bytes) : Nat × List Bytes → Run Bytes (Step (Nat × List Bytes) (List Bytes))
  | (i, out) =>
    if i < text.length then do
      let (j, value) ← valueView text i
      entryEnd text 0x5D (lit "Invalid JSON array") (out ++ [value]) j
    else .error (lit "Unterminated JSON array")

def parseArrayElements (arrayJson : Bytes) : Run Bytes (List Bytes) := do
  let text ← trim arrayJson
  if ← isAt (· == 0x5B) text 0 then
    let i ← skipWs text 1
    if ← isAt (· == 0x5D) text i then pure []
    else loop (elementsRound text) (text.length + 1) (i, [])
  else .error (lit "Expected JSON array")

end Phi.Wire.Bounded
