import Parley.Signaling.Attendee
import Parley.Table
import Parley.Wire.SignalFrame

/-!
# `Parley/Signaling/VideoSources.lean` — the video sources that an index lists

An index lists the sources of a meeting in full. The client keeps the sources it knows by attendee,
and each index is compared with them: some are new, some are gone, and the rest may have changed
their group, bitrate or names. A source without an attendee is kept under the empty identifier, but
does not count as listed under it.

Those that are new come in the order of the index. Those that are gone are found by going through the
sources known, which have no order.
-/

set_option autoImplicit false

namespace Parley

open Parley.Wire

/-- The sources known, by the identifier of their attendee. -/
abbrev VideoSources := Table String VideoSource

namespace VideoSources

/-- A way to go through the sources known. -/
abbrev Visit := Table.Visit String VideoSource

/-- How the sources known are gone through, one time after the other. -/
abbrev Visits := Nat → Visit

/-- How they are gone through after the first time. -/
def Visits.rest (visits : Visits) : Visits := fun n => visits (n + 1)

/-- A source as an index describes it; what is left out is zero or empty. -/
def ofStream (d : StreamDescriptor) : VideoSource :=
  { streamId := d.streamId.getD 0
    groupId := d.groupId.getD 0
    maxBitrateKbps := d.maxBitrateKbps.getD 0
    attendee :=
      { attendeeId := d.profileUuid.getD ""
        externalUserId := d.externalUserId.getD "" } }

def listed (sources : List StreamDescriptor) : List String := sources.filterMap (·.profileUuid)

/-- The sources that an index no longer lists, in the order in which they come up. -/
def gone (known : VideoSources) (sources : List StreamDescriptor) (visit : Visit) :
    List VideoSource :=
  ((visit.arrange known.entries).filter fun e => !(listed sources).contains e.1).map (·.2)

def kept (known : VideoSources) (sources : List StreamDescriptor) : VideoSources :=
  ⟨known.entries.filter fun e => (listed sources).contains e.1⟩

/-- Takes one listed source in: a new one as it is, a known one by its group, bitrate and names. The
source comes out if it is new. -/
def admitOne (known : VideoSources) (source : VideoSource) : VideoSources × List VideoSource :=
  let id := source.attendee.attendeeId
  match known.get? id with
  | none => (known.insert id source, [source])
  | some old =>
    (known.insert id
      { old with
        groupId := source.groupId
        maxBitrateKbps := source.maxBitrateKbps
        attendee := source.attendee }, [])

/-- Takes listed sources in, in order; the new ones come out. -/
def admitAll (known : VideoSources) : List VideoSource → VideoSources × List VideoSource
  | [] => (known, [])
  | source :: rest =>
    let (known, new) := admitOne known source
    let (known, more) := admitAll known rest
    (known, new ++ more)

/-- Takes an index in: the sources known from now on, and those that are new. -/
def update (known : VideoSources) (sources : List StreamDescriptor) :
    VideoSources × List VideoSource :=
  admitAll (kept known sources) (sources.map ofStream)

end VideoSources

end Parley
