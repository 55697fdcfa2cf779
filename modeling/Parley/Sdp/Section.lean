/-!
# `Parley/Sdp/Section.lean` — the lines and media sections of a session description

A session description is a text of lines. A line ends with a line feed, with or without a carriage
return before it. Lines that begin with `m=` open a media section; the client knows audio and video
sections and takes note of one when it sees the attribute for its direction.
-/

set_option autoImplicit false

namespace Parley.Sdp

/-- One line, without its ending. -/
abbrev Line := List Char

/-- A line without one carriage return at its end. -/
def stripReturn (line : Line) : Line :=
  if line.getLast? = some '\r' then line.dropLast else line

def lines (sdp : String) : List Line := (sdp.toList.splitOn '\n').map stripReturn

/-- What a line holds after a given beginning, if it begins so. -/
def after? (beginning : String) (line : Line) : Option Line :=
  beginning.toList.isPrefixOf? line

/-- Whether a line begins so. -/
def begins (beginning : String) (line : Line) : Bool := (after? beginning line).isSome

inductive MediaKind where
  | audio
  | video
  deriving DecidableEq

def MediaKind.name : MediaKind → String
  | .audio => "audio"
  | .video => "video"

/-- Which way media flows. -/
inductive Direction where
  | sendrecv
  | sendonly
  | recvonly
  | inactive
  deriving DecidableEq

namespace Direction

def all : List Direction := [.sendrecv, .sendonly, .recvonly, .inactive]

def name : Direction → String
  | .sendrecv => "sendrecv"
  | .sendonly => "sendonly"
  | .recvonly => "recvonly"
  | .inactive => "inactive"

/-- The line that states a direction. -/
def line (d : Direction) : Line := ("a=" ++ d.name).toList

/-- The direction that a line states. -/
def ofLine? (l : Line) : Option Direction := all.find? (·.line == l)

def ofName? (name : String) : Option Direction := all.find? (·.name == name)

/-- Whether media is sent. -/
def isSending : Direction → Bool
  | .sendrecv | .sendonly => true
  | _ => false

end Direction

/-- A media section whose direction is known. -/
structure Section where
  kind : MediaKind
  mid : String
  direction : Direction
  deriving DecidableEq

/-- What is known of the section being read, and the sections read so far in reverse. -/
structure SectionScan where
  kind : MediaKind := .video
  mid : String := ""
  found : List Section := []

def SectionScan.line (scan : SectionScan) (l : Line) : SectionScan :=
  if begins "m=audio" l then { scan with kind := .audio }
  else if begins "m=video" l then { scan with kind := .video }
  else match after? "a=mid:" l with
    | some mid => { scan with mid := String.ofList mid }
    | none => match Direction.ofLine? l with
      | some direction =>
        { scan with found := { kind := scan.kind, mid := scan.mid, direction } :: scan.found }
      | none => scan

def sections (sdp : String) : List Section :=
  ((lines sdp).foldl SectionScan.line {}).found.reverse

end Parley.Sdp
