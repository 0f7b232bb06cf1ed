/-!
What an execution with retries comes to: a response or an error, and the attempts it took.
-/

namespace ClientRuntime

inductive Outcome (ρ ε : Type) where
  | response (attempts : Nat) (value : ρ)
  | exception (attempts : Nat) (error : ε)

namespace Outcome

variable {ρ ε : Type}

def ofResult (attempts : Nat) : Except ε ρ → Outcome ρ ε
  | .ok value => response attempts value
  | .error e => exception attempts e

def attempts : Outcome ρ ε → Nat
  | response n _ => n
  | exception n _ => n

def isResponse : Outcome ρ ε → Bool
  | response _ _ => true
  | exception _ _ => false

def toResult : Outcome ρ ε → Except ε ρ
  | response _ value => .ok value
  | exception _ e => .error e

end Outcome

end ClientRuntime
