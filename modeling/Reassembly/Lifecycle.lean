/-!
# The lifecycle of a stream

A stream has an input half, fed by the peer, and an output half, used by the response.
Each half is open or closed, closing is final, and the two are closed in either order.
The lemmas say that closing one half closes that half and leaves the other as it was.
-/

namespace Reassembly

/-- Which halves of a stream are closed. -/
inductive Lifecycle where
  | idle
  | closedInput
  | closedOutput
  | closed
  deriving DecidableEq, Repr

namespace Lifecycle

/-- The peer will send nothing more. -/
def closeInput : Lifecycle → Lifecycle
  | idle => closedInput
  | closedOutput => closed
  | closedInput => closedInput
  | closed => closed

/-- The response is complete. -/
def closeOutput : Lifecycle → Lifecycle
  | idle => closedOutput
  | closedInput => closed
  | closedOutput => closedOutput
  | closed => closed

def isInputClosed : Lifecycle → Bool
  | closedInput | closed => true
  | idle | closedOutput => false

def isOutputClosed : Lifecycle → Bool
  | closedOutput | closed => true
  | idle | closedInput => false

def isClosed (lifecycle : Lifecycle) : Bool :=
  lifecycle.isInputClosed && lifecycle.isOutputClosed

/-- The name of a state in descriptions of a stream. -/
def name : Lifecycle → String
  | idle => "Idle"
  | closedInput => "ClosedInput"
  | closedOutput => "ClosedOutput"
  | closed => "Closed"

@[simp]
theorem isInputClosed_closeInput (lifecycle : Lifecycle) :
    lifecycle.closeInput.isInputClosed = true := by
  cases lifecycle <;> rfl

@[simp]
theorem isOutputClosed_closeInput (lifecycle : Lifecycle) :
    lifecycle.closeInput.isOutputClosed = lifecycle.isOutputClosed := by
  cases lifecycle <;> rfl

@[simp]
theorem isOutputClosed_closeOutput (lifecycle : Lifecycle) :
    lifecycle.closeOutput.isOutputClosed = true := by
  cases lifecycle <;> rfl

@[simp]
theorem isInputClosed_closeOutput (lifecycle : Lifecycle) :
    lifecycle.closeOutput.isInputClosed = lifecycle.isInputClosed := by
  cases lifecycle <;> rfl

end Lifecycle

end Reassembly
