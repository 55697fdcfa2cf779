import Parley.Sdp.RtpMap

/-!
# `Parley/Sdp/Offer.lean` — the description that the client offers

The offer has one audio section, with every codec in the order of preference and an `a=rtpmap` line
for each.
-/

set_option autoImplicit false

namespace Parley.Sdp

/-- The line that says what a codec's payload number stands for. -/
def rtpMapLine (c : Codec) : String :=
  "a=rtpmap:" ++ toString c.payloadType ++ " " ++ c.encodingName ++ "/" ++ toString c.clockRate

def offerLines (sessionId : UInt64) (direction : Direction) (codecs : List Codec) :
    List String :=
  ["v=0",
    "o=- " ++ toString sessionId ++ " 2 IN IP4 127.0.0.1",
    "s=-",
    "t=0 0",
    "a=group:BUNDLE 0",
    "m=audio 9 UDP/TLS/RTP/SAVPF "
      ++ " ".intercalate (codecs.map fun c => toString c.payloadType),
    "c=IN IP4 0.0.0.0",
    "a=mid:0",
    "a=" ++ direction.name]
    ++ codecs.map rtpMapLine

def offer (sessionId : UInt64) (direction : Direction) (codecs : List Codec) : String :=
  String.join ((offerLines sessionId direction codecs).map (· ++ "\r\n"))

end Parley.Sdp
