import ClientRuntime.Error

/-!
A part of a larger configuration that is either given as a finished value or configured in place.
A finished value is never discarded by configuring afterwards. What is run to configure a builder,
to finish it, or to come by the default may have effects.
-/

namespace ClientRuntime

/-- The state of a part of type `α` whose builder is a `β`. -/
inductive Property (α β : Type) where
  | unset
  | given (a : α)
  | configured (b : β)

namespace Property

variable {α β : Type}

def give (_ : Property α β) (a : α) : Property α β := given a

def builder? : Property α β → Option β
  | configured b => some b
  | _ => none

def isSet : Property α β → Bool
  | unset => false
  | _ => true

section Effects

variable {m : Type → Type} [Monad m]

/-- Runs `f` on the builder, on `start` if there is none yet. A part that was given stays, and `f`
does not run. -/
def configureM (p : Property α β) (name : String) (start : β) (f : β → m β) :
    m (Except SettingError Unit × Property α β) :=
  match p with
  | unset => return (.ok (), configured (← f start))
  | configured b => return (.ok (), configured (← f b))
  | given a => return (.error (.propertyConflict name), given a)

/-- Runs `f` on the builder, if one was configured. -/
def editM (p : Property α β) (f : β → m β) : m (Property α β) :=
  match p with
  | configured b => return configured (← f b)
  | p => return p

/-- The finished part; the default is run only if nothing else is known. -/
def buildM (p : Property α β) (finish : β → m α) (default : m α) : m α :=
  match p with
  | unset => default
  | given a => return a
  | configured b => finish b

end Effects

/-- Applies `f` to the builder, to `start` if there is none yet. -/
def configure (p : Property α β) (name : String) (start : β) (f : β → β) :
    Except SettingError (Property α β) :=
  let (answer, p) := Id.run (p.configureM name start fun b => pure (f b))
  answer.map fun _ => p

/-- Edits the builder, if one was configured. -/
def edit (p : Property α β) (f : β → β) : Property α β := Id.run (p.editM fun b => pure (f b))

theorem edit_id (p : Property α β) : p.edit id = p := by
  cases p <;> rfl

/-- The finished part; none if the default is needed. -/
def build? (p : Property α β) (finish : β → α) : Option α :=
  p.buildM (fun b => some (finish b)) none

def describe : Property α β → String
  | unset => "Unset"
  | given _ => "Instance(..)"
  | configured _ => "Configured(..)"

end Property

end ClientRuntime
