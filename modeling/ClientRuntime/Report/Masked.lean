import ClientRuntime.Json.Basic

/-!
Reports of runs with random delays, with everything that depends on the delays blotted out.
-/

namespace ClientRuntime.Report

def delayMark : List Char := "retrying in ".toList

/-- What comes before a mark, if the mark occurs. -/
def before? (mark : List Char) : List Char → Option (List Char)
  | [] => none
  | c :: cs => if mark.isPrefixOf (c :: cs) then some [] else (before? mark cs).map (c :: ·)

def maskText (s : String) : String :=
  match before? delayMark s.toList with
  | some start => String.ofList (start ++ delayMark) ++ "<delay>"
  | none => s

def timed (key : String) : Bool := key = "at" || key = "delay_ms"

mutual

/-- Texts lose the delays they name, and times their values. -/
def masked : Json → Json
  | .text s => .text (maskText s)
  | .array items => .array (maskedItems items)
  | .object fields => .object (maskedFields fields)
  | v => v

def maskedItems : List Json → List Json
  | [] => []
  | v :: vs => masked v :: maskedItems vs

def maskedFields : List (String × Json) → List (String × Json)
  | [] => []
  | (k, v) :: fs => (k, if timed k then .null else masked v) :: maskedFields fs

end

/-- A whole answer; of its sleeps only the number is left, and nothing of its time. -/
def maskedAnswer : Json → Json
  | .object fields =>
    .object ((maskedFields fields).map fun f =>
      match f with
      | ("sleeps", .array items) => ("sleeps", .number (.natural items.length))
      | ("now", _) => ("now", .null)
      | f => f)
  | v => masked v

end ClientRuntime.Report
