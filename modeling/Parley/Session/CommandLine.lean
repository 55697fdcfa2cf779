import Parley.Meeting.Descriptor
import Parley.Session.Exit
import Parley.Signaling.Machine
import Parley.Text.Blank
import Parley.Text.Numeral
import Parley.Text.Quoted

/-!
# `Parley/Session/CommandLine.lean` — what the program is started with

A launcher hands over the parameters of one meeting as named options, each with a value: `--name
value` or `--name=value`. An option is given at most once. A value that begins with a dash must be
joined to its name by an equals sign, so that no option is taken for a value by mistake. The options
are read from left to right, and the first fault ends the reading; a request for help before it is
granted.

What is wrong with the options themselves is told in general terms. What is wrong with the meeting
that they describe is told exactly.
-/

set_option autoImplicit false

namespace Parley.CommandLine

/-- An option that the program takes. -/
structure Flag where
  name : String
  help : String := ""
  /-- The value that holds where none is given. An option without one must be given. -/
  default : Option String := none
  deriving DecidableEq

def flags : List Flag :=
  [{ name := "attendee_id" },
    { name := "audio_host_url" },
    { name := "external_meeting_id" },
    { name := "external_user_id" },
    { name := "join_token" },
    { name := "log_level"
      help := "verbose, debug, info, warning or error"
      default := some "error" },
    { name := "meeting_id" },
    { name := "signaling_url" },
    { name := "send_audio_file_name"
      help := "Audio to send: a 16-bit WAV, or raw 48 kHz stereo s16le"
      default := some "" },
    { name := "media_out", help := "Directory for received audio", default := some "media_out" },
    { name := "connect_timeout_secs", default := some "10" },
    { name := "max_reconnect_attempts", default := some "5" }]

/-! ## Help -/

/-- An option with a stand-in for its value. -/
def Flag.usage (f : Flag) : String :=
  "--" ++ f.name ++ " <" ++ String.ofList (f.name.toList.map Char.toUpper) ++ ">"

/-- A value as it is shown: one that is empty or has blanks in it stands between double quotes. -/
def shown (value : String) : String :=
  if value.isEmpty || value.toList.any Text.isBlank then Text.quote value else value

/-- The explanation of an option, with its default. -/
def Flag.explanation (f : Flag) : String :=
  let fallback := f.default.toList.map fun value => "[default: " ++ shown value ++ "]"
  " ".intercalate ((if f.help.isEmpty then [] else [f.help]) ++ fallback)

/-- The text that is printed on request. -/
def helpText : String :=
  let required := (flags.filter (·.default.isNone)).map Flag.usage
  "Join a meeting's signaling session and stream audio files\n\n"
    ++ "Usage: chime-signaling [OPTIONS] " ++ " ".intercalate required ++ "\n\nOptions:\n"
    ++ String.join (flags.map fun f =>
      "      " ++ f.usage ++ "\n          " ++ f.explanation ++ "\n")
    ++ "  -h, --help\n          Print help\n"

/-! ## Reading options -/

inductive Misuse where
  | helpWanted
  | malformed
  deriving DecidableEq

/-- A number of attempts: a numeral below 2^32, or a negative zero. -/
def readAttempts (cs : List Char) : Option UInt32 :=
  match cs with
  | '-' :: zeros => if !zeros.isEmpty && zeros.all (· == '0') then some 0 else none
  | _ => Text.readWord cs

/-- A number of seconds: a numeral below 2^64. -/
def readSeconds (cs : List Char) : Option Nat := Text.readBelow UInt64.size cs

/-- Whether an option takes a value. -/
def accepts (name value : String) : Bool :=
  if name = "media_out" then !value.isEmpty
  else if name = "connect_timeout_secs" then (readSeconds value.toList).isSome
  else if name = "max_reconnect_attempts" then (readAttempts value.toList).isSome
  else true

/-- Whether a text may stand as a value of its own: a lone dash may, other texts with a dash in front
may not. -/
def standsAsValue (text : String) : Bool := text == "-" || !text.startsWith "-"

abbrev Given := List (String × String)

/-- Takes the value of an option, unless it was given before. -/
def give (given : Given) (name value : String) : Except Misuse Given :=
  if (given.lookup name).isNone && accepts name value then .ok (given ++ [(name, value)])
  else .error .malformed

/-- Splits an argument at its first equals sign. -/
def splitAtEquals (argument : List Char) : List Char × Option (List Char) :=
  match argument.span (· != '=') with
  | (name, _ :: value) => (name, some value)
  | (name, []) => (name, none)

/-- The option that an argument names, with the value that is joined to it. -/
def flag? (argument : String) : Option (String × Option String) := do
  let '-' :: '-' :: rest := argument.toList | none
  let (name, value) := splitAtEquals rest
  let f ← flags.find? (·.name == String.ofList name)
  return (f.name, value.map String.ofList)

/-- Reads arguments from left to right. -/
def readFrom (given : Given) : List String → Except Misuse Given
  | [] => .ok given
  | ["--"] => .ok given
  | argument :: rest =>
    if argument = "--help" || argument.startsWith "-h" then .error .helpWanted
    else match flag? argument, rest with
      | some (name, some value), rest => do readFrom (← give given name value) rest
      | some (name, none), value :: rest =>
        if standsAsValue value then do readFrom (← give given name value) rest
        else .error .malformed
      | _, _ => .error .malformed

/-- Reads arguments. Each option without a default must be among them. -/
def read (arguments : List String) : Except Misuse Given := do
  let given ← readFrom [] arguments
  if flags.all fun f => f.default.isSome || (given.lookup f.name).isSome then return given
  throw .malformed

/-- The value of an option, given or not. -/
def value (given : Given) (name : String) : String :=
  (given.lookup name).getD (((flags.find? (·.name == name)).bind (·.default)).getD "")

/-! ## What the program does with them -/

/-- The meeting that the options describe. The level of reporting is read first. -/
def descriptor (given : Given) : Except DescriptorError Descriptor := do
  let level ← LogLevel.read (value given "log_level")
  let d ← Descriptor.make (value given "meeting_id") (value given "external_meeting_id")
    { attendeeId := value given "attendee_id"
      externalUserId := value given "external_user_id"
      joinToken := value given "join_token" }
    (value given "audio_host_url") (value given "signaling_url")
  return (d.withLogLevel level).withAudioSource (value given "send_audio_file_name")

/-- The complaint about a meeting that cannot be joined. -/
def complaint : DescriptorError → String
  | .unknownLogLevel text => "error: " ++ (DescriptorError.unknownLogLevel text).message
  | e => "error: invalid meeting parameters: " ++ e.message

/-- What is printed before a meeting is joined. -/
def banner (d : Descriptor) : String :=
  "\nAttendee Name: " ++ d.attendeeName
    ++ "\nAttendee ID: " ++ d.attendeeId
    ++ "\nMeeting Name: " ++ d.externalMeetingId
    ++ "\nMeeting ID: " ++ d.meetingId
    ++ "\nAudio Filename: " ++ d.audioSource.getD ""
    ++ "\nCurrent Log Level: " ++ d.logLevel.name ++ "\n"

/-- How a session ends whose dials are all refused: the client starts, and gives up once its attempts
are spent. -/
def statusWhenRefused (given : Given) (d : Descriptor) : ExitStatus :=
  let attempts := (readAttempts (value given "max_reconnect_attempts").toList).getD 0
  let m := Machine.new d (.forDescriptor d) 0
  .ofState (m.run [.start, .reconnectExhausted attempts]).1.state

structure Outcome where
  output : String := ""
  /-- What is told as a complaint. -/
  complaint : String := ""
  code : Nat
  deriving DecidableEq

/-- Runs the program where no service can be reached. -/
def run (arguments : List String) : Outcome :=
  match read arguments with
  | .error .helpWanted => { output := helpText, code := ExitStatus.success.code }
  | .error .malformed =>
    { complaint := "error: malformed options, see --help"
      code := ExitStatus.invalidArguments.code }
  | .ok given => match descriptor given with
    | .error e => { complaint := complaint e, code := ExitStatus.invalidArguments.code }
    | .ok d => { output := banner d, code := (statusWhenRefused given d).code }

end Parley.CommandLine
