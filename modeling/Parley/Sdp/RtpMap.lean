import Parley.Audio.Codec
import Parley.Sdp.Section
import Parley.Text.Blank
import Parley.Text.Numeral

/-!
# `Parley/Sdp/RtpMap.lean` — the audio formats that a description agrees on

The first audio section of a description lists payload numbers in the order of preference, and may
say in `a=rtpmap` lines what each of them stands for. A number without such a line stands for a
codec of the client, if there is one with that number.

The description is read in one pass. A number is resolved at the end, so its `a=rtpmap` line may
stand anywhere in the section.
-/

set_option autoImplicit false

namespace Parley.Sdp

structure RtpMap where
  payloadType : UInt8
  encoding : String
  clockRate : UInt32
  deriving DecidableEq

namespace RtpMap

/-- The entry of a codec. -/
def ofCodec (c : Codec) : RtpMap :=
  { payloadType := c.payloadType, encoding := c.encodingName, clockRate := c.clockRate }

/-- Reads what follows `a=rtpmap:`, a payload number, a space, a name and a rate after a slash;
further parameters after another slash are ignored. -/
def read (value : Line) : Option RtpMap :=
  match value.span (· != ' ') with
  | (number, _ :: format) =>
    match format.splitOn '/' with
    | name :: rate :: _ => do
      let clockRate ← Text.readWord rate
      let payloadType ← Text.readByte number
      return { payloadType, encoding := String.ofList name, clockRate }
    | _ => none
  | _ => none

/-- The codec of the client that an entry stands for. -/
def codec? (m : RtpMap) : Option Codec := Codec.ofEncoding? m.encoding m.clockRate

end RtpMap

/-- What is known after some lines of a description. -/
structure AudioScan where
  /-- The payload numbers of the first audio section. -/
  numbers : List UInt8 := []
  /-- The entries of that section, in reverse. -/
  maps : List RtpMap := []
  /-- Whether the last line lies in that section. -/
  inside : Bool := false
  /-- Whether that section has begun. -/
  seen : Bool := false

/-- The payload numbers that a media line lists, given what follows its `m=`. -/
def payloadNumbers (media : Line) : List UInt8 :=
  ((Text.words media).drop 3).filterMap Text.readByte

def AudioScan.line (scan : AudioScan) (l : Line) : AudioScan :=
  match after? "m=" l with
  | some media =>
    if begins "audio" media && !scan.seen then
      { scan with numbers := payloadNumbers media, inside := true, seen := true }
    else { scan with inside := false }
  | none =>
    if scan.inside then
      match (after? "a=rtpmap:" l).bind RtpMap.read with
      | some map => { scan with maps := map :: scan.maps }
      | none => scan
    else scan

/-- What a payload number stands for, given the entries of its section in order. -/
def resolve (maps : List RtpMap) (number : UInt8) : Option RtpMap :=
  (maps.find? (·.payloadType == number)).or
    ((Codec.ofPayloadType? number).map RtpMap.ofCodec)

/-- The audio formats of a description, in the order of preference. -/
def audioMaps (sdp : String) : List RtpMap :=
  let scan := (lines sdp).foldl AudioScan.line {}
  scan.numbers.filterMap (resolve scan.maps.reverse)

/-- The most preferred codec that the client speaks. -/
def negotiatedCodec (sdp : String) : Option Codec := (audioMaps sdp).findSome? RtpMap.codec?

end Parley.Sdp
