/-!
# `Parley/Signaling/Refusal.lean` — why the service refuses a join

The service refuses in two ways: by an audio status of 400 or more, or by the code that it closes
the connection with. Both name the same few reasons.
-/

set_option autoImplicit false

namespace Parley

/-- Why the service does not let the client join. -/
inductive Refusal where
  | authenticationRejected (status : UInt32)
  | meetingEnded
  | atCapacity
  | other (status : UInt32)
  deriving DecidableEq

namespace Refusal

def message : Refusal → String
  | .authenticationRejected status =>
    "authentication rejected (status " ++ toString status ++ ")"
  | .meetingEnded => "meeting has ended"
  | .atCapacity => "meeting is at capacity"
  | .other status => "join failed with status " ++ toString status

/-- What an audio status says about a join. -/
def ofAudioStatus (status : UInt32) : Refusal :=
  if status = 401 ∨ status = 403 then .authenticationRejected status
  else if status = 409 then .atCapacity
  else if status = 410 then .meetingEnded
  else .other status

/-- What a close code says about a join, if it says anything. -/
def ofCloseCode? (code : UInt16) : Option Refusal :=
  if code = 4401 then some (.authenticationRejected 401)
  else if code = 4403 then some (.authenticationRejected 403)
  else if code = 4409 then some .atCapacity
  else if code = 4410 then some .meetingEnded
  else none

end Refusal

end Parley
