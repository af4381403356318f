import Waymark.Failure
/-!
# Repeated requests

A request that fails because another program holds a file for the moment is made again, ten times
at most.
-/

namespace Waymark.Retry

def isTransient (fault : IoFault) : Bool :=
  fault = .wouldBlock

def maximumCalls : Nat :=
  10

/-- Makes a call that may be followed by so many more. The outcome of each call is given by its
number; the result is the number of the last call and its outcome. -/
def runFrom {α : Type} (outcome : Nat → Except IoFault α) (call : Nat) :
    Nat → Nat × Except IoFault α
  | 0 => (call, outcome call)
  | more + 1 =>
      match outcome call with
      | .error fault =>
          if isTransient fault then runFrom outcome (call + 1) more else (call, .error fault)
      | .ok value => (call, .ok value)

def run {α : Type} (outcome : Nat → Except IoFault α) : Nat × Except IoFault α :=
  runFrom outcome 1 (maximumCalls - 1)

end Waymark.Retry
