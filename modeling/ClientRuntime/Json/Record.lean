import ClientRuntime.Json.Value

/-!
Records read from JSON as it streams past: the first fault met is the one reported. A record is an
object whose unknown fields are skipped, or an array of its fields in order. What is not given
keeps its default.
-/

namespace ClientRuntime.Json

abbrev Reader (α : Type) := List JsonToken → Except JsonFault (α × List JsonToken)

inductive Frame where
  | object
  | array

/-- What may come next while a value is skipped. -/
inductive Expected where
  | value
  | valueOrClose
  | key
  | keyOrClose
  | colon
  | separator

/-- After a value in the innermost frame; outside all frames the skipped value is complete. -/
def skip : List Frame → Expected → List JsonToken → Except JsonFault (List JsonToken)
  | [], .separator, tokens => .ok tokens
  | _, .separator, [] => .error .truncated
  | _, _, [] => .error .truncated
  | .array :: fs, .separator, .comma :: rest => skip (.array :: fs) .value rest
  | .object :: fs, .separator, .comma :: rest => skip (.object :: fs) .key rest
  | .array :: fs, .separator, .closeArray :: rest => skip fs .separator rest
  | .object :: fs, .separator, .closeObject :: rest => skip fs .separator rest
  | .array :: fs, .valueOrClose, .closeArray :: rest => skip fs .separator rest
  | .object :: fs, .keyOrClose, .closeObject :: rest => skip fs .separator rest
  | fs, .colon, .colon :: rest => skip fs .value rest
  | fs, .key, .text _ :: rest => skip fs .colon rest
  | fs, .keyOrClose, .text _ :: rest => skip fs .colon rest
  | _, .key, .broken true _ skipped :: _ => .error skipped
  | _, .keyOrClose, .broken true _ skipped :: _ => .error skipped
  | fs, .value, token :: rest =>
    match token with
    | .null | .flag _ | .number _ | .text _ => skip fs .separator rest
    | .openArray => skip (.array :: fs) .valueOrClose rest
    | .openObject => skip (.object :: fs) .keyOrClose rest
    | .broken _ _ skipped => .error skipped
    | _ => .error .malformed
  | fs, .valueOrClose, token :: rest =>
    match token with
    | .null | .flag _ | .number _ | .text _ => skip fs .separator rest
    | .openArray => skip (.array :: fs) .valueOrClose rest
    | .openObject => skip (.object :: fs) .keyOrClose rest
    | .broken _ _ skipped => .error skipped
    | _ => .error .malformed
  | _, _, _ :: _ => .error .malformed

/-- A value that is neither object nor array. -/
def readPlain (convert : Json → Option α) : Reader α
  | .openObject :: _ | .openArray :: _ => .error .mismatch
  | tokens => do
    let (v, rest) ← readValue 1 tokens
    match convert v with
    | some a => .ok (a, rest)
    | none => .error .mismatch

/-- A named part of a record and how reading it changes the record. -/
structure Part (γ : Type) where
  name : String
  read : Reader (γ → γ)

def Part.of {γ α : Type} (name : String) (read : Reader α) (set : α → γ → γ) : Part γ where
  name := name
  read tokens := (read tokens).map fun (a, rest) => (set a, rest)

variable {γ : Type}

/-- The fields of an object from its first name on. A name met before is refused at once. -/
def readNamed (parts : List (Part γ)) : Nat → List String → γ → Reader γ
  | fuel + 1, seen, record, tokens =>
    match tokens with
    | .text (some k) :: rest => do
      let part? := parts.find? (·.name = k)
      if part?.isSome && seen.contains k then throw .mismatch
      let rest ←
        match rest with
        | .colon :: rest => pure rest
        | rest => throw (structureFault rest)
      let (record, rest) ←
        match part? with
        | some part => do
          let (set, rest) ← part.read rest
          pure (set record, rest)
        | none => do
          let rest ← skip [] .value rest
          pure (record, rest)
      match rest with
      | .comma :: rest => readNamed parts fuel (k :: seen) record rest
      | .closeObject :: rest => .ok (record, rest)
      | rest => throw (structureFault rest)
    | tokens => throw (keyFault tokens)
  | 0, _, _, _ => throw .truncated

/-- The fields of an array; the closing bracket comes at any point, and after the last field at
latest. -/
def readOrdered : List (Part γ) → Bool → γ → Reader γ
  | _, _, record, .closeArray :: rest => .ok (record, rest)
  | [], _, _, tokens => throw (structureFault tokens)
  | part :: parts, first, record, tokens => do
    let tokens ←
      match first, tokens with
      | true, tokens => pure tokens
      | false, .comma :: rest => pure rest
      | false, tokens => throw (structureFault tokens)
    let (set, rest) ← part.read tokens
    readOrdered parts false (set record) rest

def readRecord (parts : List (Part γ)) (default : γ) : Reader γ
  | .openObject :: .closeObject :: rest => .ok (default, rest)
  | .openObject :: rest => readNamed parts (rest.length + 1) [] default rest
  | .openArray :: rest => readOrdered parts true default rest
  | tokens => readPlain (fun _ => none) tokens

/-- A whole text. -/
def Reader.ofText {α : Type} (read : Reader α) (s : String) : Except JsonFault α := do
  let (a, rest) ← read (JsonToken.ofText s)
  if rest.isEmpty then .ok a else throw .malformed

/-- A value that was read already. -/
def Reader.ofValue {α : Type} (read : Reader α) (v : Json) : Except JsonFault α := do
  let (a, rest) ← read v.tokens
  if rest.isEmpty then .ok a else throw .malformed

end ClientRuntime.Json
