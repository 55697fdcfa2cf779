import Parley.Audio.Codec
import Parley.Octets

/-!
# `Parley/Audio/Frame.lean` — one encoded piece of audio under way

A frame belongs to a stream, named by its synchronization source, and says where in the stream it
stands: by a number that grows by one from frame to frame, and by a time in samples. Both wrap.
-/

set_option autoImplicit false

namespace Parley

structure Frame where
  sequence : UInt16
  /-- In samples of the codec. -/
  timestamp : UInt32
  ssrc : UInt32
  codec : Codec
  payload : Octets
  deriving DecidableEq

end Parley
