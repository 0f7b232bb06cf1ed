/-!
Errors of the settings layer.
-/

namespace ClientRuntime

inductive SettingError where
  /-- A part that was given as a finished value is configured. -/
  | propertyConflict (property : String)
  /-- An attribute is read at another type than it was stored at. -/
  | attributeType (key : String)
  deriving DecidableEq

def SettingError.message : SettingError → String
  | propertyConflict property =>
    "property `" ++ property ++ "` holds an explicit instance and cannot be configured"
  | attributeType key => "attribute `" ++ key ++ "` holds a value of an unexpected type"

end ClientRuntime
