import ClientRuntime.Json.Token

/-!
JSON values from tokens and back.
-/

namespace ClientRuntime.Json

mutual

def tokens : Json → List JsonToken
  | null => [.null]
  | flag b => [.flag b]
  | number n => [.number (some n)]
  | text s => [.text (some s)]
  | array items => .openArray :: tokensOfItems items
  | object fields => .openObject :: tokensOfFields fields

def tokensOfItems : List Json → List JsonToken
  | [] => [.closeArray]
  | [v] => v.tokens ++ [.closeArray]
  | v :: w :: vs => v.tokens ++ .comma :: tokensOfItems (w :: vs)

def tokensOfFields : List (String × Json) → List JsonToken
  | [] => [.closeObject]
  | [(k, v)] => .text (some k) :: .colon :: (v.tokens ++ [.closeObject])
  | (k, v) :: f :: fs =>
    .text (some k) :: .colon :: (v.tokens ++ .comma :: tokensOfFields (f :: fs))

end

/-- A later field of the same name takes the place of an earlier one. -/
def insertField (fields : List (String × Json)) (k : String) (v : Json) : List (String × Json) :=
  if fields.any (·.1 = k) then fields.map fun f => if f.1 = k then (k, v) else f
  else fields ++ [(k, v)]

/-- The fault of a token where a value is needed. -/
def valueFault : List JsonToken → JsonFault
  | .broken _ needed _ :: _ => needed
  | [] => .truncated
  | _ => .malformed

/-- The fault of a token where a comma, a colon or a closing bracket is needed. -/
def structureFault : List JsonToken → JsonFault
  | [] => .truncated
  | _ => .malformed

/-- The fault of a token where a field name is needed. -/
def keyFault : List JsonToken → JsonFault
  | .broken true needed _ :: _ => needed
  | [] => .truncated
  | _ => .malformed

mutual

def readValue : Nat → List JsonToken → Except JsonFault (Json × List JsonToken)
  | fuel + 1, tokens =>
    match tokens with
    | .null :: rest => .ok (null, rest)
    | .flag b :: rest => .ok (flag b, rest)
    | .number (some n) :: rest => .ok (number n, rest)
    | .text (some s) :: rest => .ok (text s, rest)
    | .openArray :: .closeArray :: rest => .ok (array [], rest)
    | .openArray :: rest => readItems fuel [] rest
    | .openObject :: .closeObject :: rest => .ok (object [], rest)
    | .openObject :: rest => readFields fuel [] rest
    | tokens => .error (valueFault tokens)
  | 0, _ => .error .truncated

def readItems : Nat → List Json → List JsonToken → Except JsonFault (Json × List JsonToken)
  | fuel + 1, items, tokens => do
    let (v, rest) ← readValue fuel tokens
    match rest with
    | .comma :: rest => readItems fuel (v :: items) rest
    | .closeArray :: rest => .ok (array (v :: items).reverse, rest)
    | rest => .error (structureFault rest)
  | 0, _, _ => .error .truncated

def readFields : Nat → List (String × Json) → List JsonToken →
    Except JsonFault (Json × List JsonToken)
  | fuel + 1, fields, tokens =>
    match tokens with
    | .text (some k) :: .colon :: rest => do
      let (v, rest) ← readValue fuel rest
      let fields := insertField fields k v
      match rest with
      | .comma :: rest => readFields fuel fields rest
      | .closeObject :: rest => .ok (object fields, rest)
      | rest => .error (structureFault rest)
    | .text (some _) :: rest => .error (structureFault rest)
    | tokens => .error (keyFault tokens)
  | 0, _, _ => .error .truncated

end

/-- A text that holds one value and nothing else. -/
def ofText (s : String) : Except JsonFault Json := do
  let tokens := JsonToken.ofText s
  let (v, rest) ← readValue (2 * tokens.length + 2) tokens
  if rest.isEmpty then .ok v else .error .malformed

end ClientRuntime.Json
