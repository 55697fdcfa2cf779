import Parley.Octets
import Parley.Table

/-!
# `Parley/Storage/Recorder.lean` — remote audio in files

The audio of each remote stream is written to a file of its own, as bare sixteen-bit samples. A file
is opened by the first samples for it. The first opening replaces an older file of the same name;
later ones, after the file was closed, append to it. What was written reaches the file at the latest
when it is closed or flushed.

Storage may fail. What it does with each writing is given by a plan, so that every pattern of
failures is one.
-/

set_option autoImplicit false

namespace Parley

inductive WriteFault where
  /-- A file that is not open cannot be opened. -/
  | opening
  | writing
  deriving DecidableEq

/-- What the storage does with the writing of this number, counted from zero, for this stream. -/
abbrev FaultPlan := Nat → UInt32 → Option WriteFault

def FaultPlan.none : FaultPlan := fun _ _ => Option.none

/-- Storage on which the files of some streams cannot be opened. -/
def FaultPlan.blocking (blocked : UInt32 → Bool) : FaultPlan := fun _ ssrc =>
  if blocked ssrc then some .opening else Option.none

structure Recorder where
  faults : FaultPlan := FaultPlan.none
  /-- What has reached the files, by stream. -/
  files : Table UInt32 Octets := {}
  /-- What has not reached the open files yet, by stream. -/
  pending : Table UInt32 Octets := {}
  /-- The streams whose files were created here. -/
  created : List UInt32 := []
  bytesWritten : Nat := 0
  /-- The writings so far, failed ones included. -/
  attempts : Nat := 0

namespace Recorder

def fileName (ssrc : UInt32) : String := "remote_audio_" ++ toString ssrc ++ ".pcm"

def openFiles (r : Recorder) : Nat := r.pending.size

def isOpen (r : Recorder) (ssrc : UInt32) : Bool := r.pending.contains ssrc

/-- Opens a stream's file. One that was not created here is created, and an older one replaced. -/
def openFile (r : Recorder) (ssrc : UInt32) : Recorder :=
  let r := { r with pending := r.pending.insert ssrc [] }
  if r.created.contains ssrc then r
  else { r with files := r.files.insert ssrc [], created := ssrc :: r.created }

/-- Writes samples of a stream, and says whether that went well. -/
def write (r : Recorder) (ssrc : UInt32) (samples : List Int16) : Bool × Recorder :=
  let fault := r.faults r.attempts ssrc
  let r := { r with attempts := r.attempts + 1 }
  if !r.isOpen ssrc && fault == some .opening then (false, r)
  else
    let r := if r.isOpen ssrc then r else r.openFile ssrc
    if fault == some .writing then (false, r)
    else
      let bytes := Octets.ofSamplesLe samples
      (true,
        { r with
          pending := r.pending.insert ssrc ((r.pending.get? ssrc).getD [] ++ bytes)
          bytesWritten := r.bytesWritten + bytes.length })

/-- Brings what was written to a stream's file. -/
def settle (files : Table UInt32 Octets) (ssrc : UInt32) (bytes : Octets) :
    Table UInt32 Octets :=
  files.insert ssrc ((files.get? ssrc).getD [] ++ bytes)

def close (r : Recorder) (ssrc : UInt32) : Recorder :=
  match r.pending.get? ssrc with
  | none => r
  | some bytes =>
    { r with files := settle r.files ssrc bytes, pending := r.pending.erase ssrc }

/-- Brings what was written to all open files. -/
def flush (r : Recorder) : Recorder :=
  { r with
    files := r.pending.entries.foldl (fun files e => settle files e.1 e.2) r.files
    pending := ⟨r.pending.entries.map fun e => (e.1, [])⟩ }

end Recorder

end Parley
