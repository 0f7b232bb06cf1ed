import ClientRuntime.Json.Basic

/-!
Tokens of a JSON text. Reading stops at the first piece that is no token; how that counts depends
on whether the reader needed the piece or was skipping over it, so a broken piece carries both.
-/

namespace ClientRuntime

/-- Why a text is refused: it breaks the grammar, it holds a value of the wrong kind, or it ends
too early. -/
inductive JsonFault where
  | malformed
  | mismatch
  | truncated
  deriving DecidableEq

inductive JsonToken where
  | openObject
  | closeObject
  | openArray
  | closeArray
  | comma
  | colon
  | null
  | flag (b : Bool)
  /-- A number, without a value when its magnitude is out of range. -/
  | number (n : Option JsonNumber)
  /-- A string, without a value when it names half a surrogate pair. -/
  | text (s : Option String)
  /-- A piece that is no token: the fault of a reader that needs it and of one that skips it. -/
  | broken (isText : Bool) (needed skipped : JsonFault)

namespace JsonToken

def isBlank (c : Char) : Bool := c = ' ' || c = '\n' || c = '\t' || c = '\r'

def hexValue? (c : Char) : Option Nat :=
  if c.isDigit then some (c.toNat - '0'.toNat)
  else if 'a' ≤ c ∧ c ≤ 'f' then some (c.toNat - 'a'.toNat + 10)
  else if 'A' ≤ c ∧ c ≤ 'F' then some (c.toNat - 'A'.toNat + 10)
  else none

def codeUnit? (a b c d : Char) : Option Nat :=
  match hexValue? a, hexValue? b, hexValue? c, hexValue? d with
  | some w, some x, some y, some z => some (((w * 16 + x) * 16 + y) * 16 + z)
  | _, _, _, _ => none

def isLead (u : Nat) : Bool := 0xD800 ≤ u && u < 0xDC00

def isTrail (u : Nat) : Bool := 0xDC00 ≤ u && u < 0xE000

def simpleEscape? : Char → Option Char
  | '"' => some '"'
  | '\\' => some '\\'
  | '/' => some '/'
  | 'b' => some '\x08'
  | 'f' => some '\x0c'
  | 'n' => some '\n'
  | 'r' => some '\r'
  | 't' => some '\t'
  | _ => none

/-- What has been read of a string: its characters, last first, the first half of a surrogate pair
that waits for the second, and whether every half so far found its other. -/
structure TextState where
  chars : List Char
  lead : Option Nat
  paired : Bool

namespace TextState

def start : TextState := ⟨[], none, true⟩

/-- A half that waits for its other does not find it in anything else. -/
def settle (s : TextState) : TextState := ⟨s.chars, none, s.paired && s.lead.isNone⟩

def push (s : TextState) (c : Char) : TextState :=
  let s := s.settle
  ⟨c :: s.chars, none, s.paired⟩

def pushUnit (s : TextState) (u : Nat) : TextState :=
  match s.lead with
  | some lead =>
    if isTrail u then
      ⟨Char.ofNat ((lead - 0xD800) * 0x400 + (u - 0xDC00) + 0x10000) :: s.chars, none, s.paired⟩
    else ⟨s.chars, none, false⟩
  | none =>
    if isLead u then ⟨s.chars, some u, s.paired⟩
    else if isTrail u then ⟨s.chars, none, false⟩
    else ⟨Char.ofNat u :: s.chars, none, s.paired⟩

def fail (s : TextState) (fault : JsonFault) : JsonToken :=
  broken true (if s.paired then fault else .malformed) fault

def finish (s : TextState) : JsonToken :=
  let s := s.settle
  text (if s.paired then some (String.ofList s.chars.reverse) else none)

end TextState

/-- Bytes of the first characters, as far as a four-digit escape looks. -/
def bytesAhead (cs : List Char) : Nat := ((cs.take 4).map Char.utf8Size).foldl (· + ·) 0

/-- The rest of a string after its opening quote. -/
def readText (s : TextState) : List Char → JsonToken × List Char
  | [] => (s.fail .truncated, [])
  | '"' :: rest => (s.finish, rest)
  | '\\' :: 'u' :: a :: b :: c :: d :: rest =>
    match codeUnit? a b c d with
    | some u => readText (s.pushUnit u) rest
    | none => (s.settle.fail .malformed, [])
  | '\\' :: 'u' :: rest => (s.fail (if bytesAhead rest < 4 then .truncated else .malformed), [])
  | '\\' :: c :: rest =>
    match simpleEscape? c with
    | some c => readText (s.push c) rest
    | none => (s.settle.fail .malformed, [])
  | c :: rest =>
    if c = '\\' then (s.fail .truncated, [])
    else if c.toNat < 0x20 then (s.settle.fail .malformed, [])
    else readText (s.push c) rest

/-- A number that breaks off: cut short by the end of the text, or by some other character. -/
def brokenNumber (rest : List Char) : JsonToken × List Char :=
  (broken false (if rest.isEmpty then .truncated else .malformed) .malformed, [])

def digitsValue (cs : List Char) : Nat :=
  cs.foldl (fun n c => n * 10 + (c.toNat - '0'.toNat)) 0

/-- The exponent part of a number, after its digits. -/
def readExponent (negative whole : Bool) (significand : Nat) (scale : Int) (cs : List Char) :
    JsonToken × List Char :=
  match cs with
  | e :: rest =>
    if e = 'e' ∨ e = 'E' then
      let (below, rest) :=
        match rest with
        | '-' :: rest => (true, rest)
        | '+' :: rest => (false, rest)
        | rest => (false, rest)
      let digits := rest.takeWhile Char.isDigit
      if digits.isEmpty then brokenNumber rest
      else
        let exponent : Int := digitsValue digits
        let exponent := if below then scale - exponent else scale + exponent
        (number (JsonNumber.ofDecimal? negative false significand exponent),
          rest.dropWhile Char.isDigit)
    else (number (JsonNumber.ofDecimal? negative whole significand scale), cs)
  | [] => (number (JsonNumber.ofDecimal? negative whole significand scale), [])

/-- A number without its sign. -/
def readNumber (negative : Bool) (cs : List Char) : JsonToken × List Char :=
  let digits := cs.takeWhile Char.isDigit
  let rest := cs.dropWhile Char.isDigit
  match digits with
  | [] => brokenNumber cs
  | '0' :: _ :: _ => (broken false .malformed .malformed, [])
  | _ =>
    match rest with
    | '.' :: rest =>
      let places := rest.takeWhile Char.isDigit
      if places.isEmpty then brokenNumber rest
      else readExponent negative false (digitsValue (digits ++ places)) (-places.length)
        (rest.dropWhile Char.isDigit)
    | rest => readExponent negative true (digitsValue digits) 0 rest

/-- The rest of a word whose first character was read. -/
def readWord (token : JsonToken) : List Char → List Char → JsonToken × List Char
  | [], rest => (token, rest)
  | _ :: _, [] => (broken false .truncated .truncated, [])
  | w :: ws, c :: rest =>
    if w = c then readWord token ws rest else (broken false .malformed .malformed, [])

/-- The token that starts with `c`. -/
def readToken (c : Char) (rest : List Char) : JsonToken × List Char :=
  match c with
  | '\x7b' => (openObject, rest)
  | '\x7d' => (closeObject, rest)
  | '[' => (openArray, rest)
  | ']' => (closeArray, rest)
  | ',' => (comma, rest)
  | ':' => (colon, rest)
  | '"' => readText .start rest
  | 'n' => readWord null "ull".toList rest
  | 't' => readWord (flag true) "rue".toList rest
  | 'f' => readWord (flag false) "alse".toList rest
  | '-' => readNumber true rest
  | c =>
    if c.isDigit then readNumber false (c :: rest) else (broken false .malformed .malformed, [])

/-- Tokens of at most `fuel` characters. Each takes at least one. -/
def readAll : Nat → List Char → List JsonToken
  | 0, _ => []
  | _, [] => []
  | fuel + 1, c :: rest =>
    if isBlank c then readAll fuel rest
    else
      let (token, rest) := readToken c rest
      token :: readAll fuel rest

def ofText (s : String) : List JsonToken := readAll s.length s.toList

end JsonToken

end ClientRuntime
