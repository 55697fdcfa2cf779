import Parley.Report.Value
import Parley.Rtp.Packet

/-!
# `Parley/Report/Media.lean` — packets of media as records

A stream starts at a number and a time of its own choice. Its packets are therefore reported by their
distance from the first one.
-/

set_option autoImplicit false

namespace Parley.Report

open Parley.Rtp

def ofPacket (first p : Packet) : Value :=
  .record [("sequence", .number (p.sequence - first.sequence).toNat),
    ("timestamp", .word (p.timestamp - first.timestamp)),
    ("same_ssrc", .flag (p.ssrc == first.ssrc)),
    ("payload_type", .number p.payloadType.toNat), ("marker", .flag p.marker),
    ("payload", .octets p.payload)]

/-- The records of packets, and the first packet: the one given, or else the first of these. Bytes
that are no packet are left out. -/
def ofPackets (first : Option Packet) (packets : List Octets) : Option Packet × List Value :=
  let ps := packets.filterMap fun bytes => (Packet.decode bytes).toOption
  let first := first <|> ps.head?
  (first, ps.map fun p => ofPacket (first.getD p) p)

end Parley.Report
