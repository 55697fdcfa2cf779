import Parley.Audio.Codec

/-!
# `Parley/Signaling/Attendee.lean` — who and what a meeting consists of
-/

set_option autoImplicit false

namespace Parley

/-- A moment, in nanoseconds since some fixed one. -/
abbrev Instant := Nat

structure Attendee where
  attendeeId : String
  externalUserId : String
  deriving DecidableEq

/-- Access to a relay, until a moment. -/
structure TurnAccess where
  username : String
  password : String
  /-- For how many seconds it was granted. -/
  ttl : UInt32
  uris : List String
  expiresAt : Instant
  deriving DecidableEq

/-- Whether the access has run out by now. -/
def TurnAccess.isExpired (t : TurnAccess) (now : Instant) : Bool := t.expiresAt < now

/-- The video that an attendee offers. -/
structure VideoSource where
  streamId : UInt32
  groupId : UInt32
  maxBitrateKbps : UInt32
  attendee : Attendee
  deriving DecidableEq

end Parley
