import ClientRuntime.Error
import ClientRuntime.Text.Record

/-!
Typed attributes. A key is a name together with the kind of its values; keys of one name and
different kinds share the place in the map, and reading at another kind than was stored finds
nothing.
-/

namespace ClientRuntime

inductive AttributeKind where
  | text
  | word32
  | word64
  | int64
  | flag
  | texts
  deriving DecidableEq

inductive AttributeValue where
  | text (s : String)
  | word32 (n : Nat)
  | word64 (n : Nat)
  | int64 (i : Int)
  | flag (b : Bool)
  | texts (ss : List String)
  deriving DecidableEq

def AttributeValue.kind : AttributeValue → AttributeKind
  | text _ => .text
  | word32 _ => .word32
  | word64 _ => .word64
  | int64 _ => .int64
  | flag _ => .flag
  | texts _ => .texts

structure AttributeKey where
  name : String
  kind : AttributeKind
  deriving DecidableEq

def AttributeKey.describe (key : AttributeKey) : String :=
  Text.application "AttributeKey" (Text.quoted key.name)

structure Attributes where
  entries : List (String × AttributeValue)

namespace Attributes

def empty : Attributes := ⟨[]⟩

instance : Inhabited Attributes := ⟨empty⟩

/-- Whatever is stored under a name. -/
def stored? (m : Attributes) (name : String) : Option AttributeValue :=
  (m.entries.find? (·.1 = name)).map (·.2)

def get? (m : Attributes) (key : AttributeKey) : Option AttributeValue :=
  (m.stored? key.name).filter (·.kind = key.kind)

/-- As `get?`, with an error for a value of another kind. -/
def tryGet (m : Attributes) (key : AttributeKey) : Except SettingError (Option AttributeValue) :=
  match m.stored? key.name with
  | none => .ok none
  | some v => if v.kind = key.kind then .ok (some v) else .error (.attributeType key.name)

def contains (m : Attributes) (key : AttributeKey) : Bool := (m.stored? key.name).isSome

def remove (m : Attributes) (key : AttributeKey) : Attributes :=
  ⟨m.entries.filter (·.1 ≠ key.name)⟩

def set (m : Attributes) (key : AttributeKey) (v : AttributeValue) : Attributes :=
  ⟨(m.remove key).entries ++ [(key.name, v)]⟩

/-- The value of a key, stored first if there is none of its kind; tells whether it was stored. -/
def getOrInsert (m : Attributes) (key : AttributeKey) (v : AttributeValue) :
    AttributeValue × Bool × Attributes :=
  match m.get? key with
  | some old => (old, false, m)
  | none => (v, true, m.set key v)

/-- Removes the value that it returns; one of another kind stays. -/
def take (m : Attributes) (key : AttributeKey) : Option AttributeValue × Attributes :=
  match m.get? key with
  | some v => (some v, m.remove key)
  | none => (none, m)

/-- The entries of `other` take precedence. -/
def merge (m other : Attributes) : Attributes :=
  ⟨m.entries.filter (fun e => (other.stored? e.1).isNone) ++ other.entries⟩

def size (m : Attributes) : Nat := m.entries.length

def names (m : Attributes) : List String := (m.entries.map (·.1)).mergeSort (· ≤ ·)

def describe (m : Attributes) : String :=
  Text.record "Attributes" [("keys", Text.list (m.names.map Text.quoted))]

end Attributes

end ClientRuntime
