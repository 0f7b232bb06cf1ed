import ClientRuntime.Text.Quoted

/-!
Text forms of values for diagnostics: records with named fields, open records that leave some
fields out, applications and lists.
-/

namespace ClientRuntime.Text

def fieldText (field : String × String) : String := field.1 ++ ": " ++ field.2

def record (name : String) (fields : List (String × String)) : String :=
  name ++ " \x7b " ++ ", ".intercalate (fields.map fieldText) ++ " \x7d"

/-- A record with fields that are not shown. -/
def openRecord (name : String) (fields : List (String × String)) : String :=
  name ++ " \x7b " ++ ", ".intercalate (fields.map fieldText ++ [".."]) ++ " \x7d"

def application (name argument : String) : String := name ++ "(" ++ argument ++ ")"

def list (items : List String) : String := "[" ++ ", ".intercalate items ++ "]"

def option (item : Option String) : String :=
  match item with
  | some text => application "Some" text
  | none => "None"

def flag (b : Bool) : String := if b then "true" else "false"

end ClientRuntime.Text
