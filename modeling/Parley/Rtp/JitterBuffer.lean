import Parley.Audio.Frame

/-!
# `Parley/Rtp/JitterBuffer.lean` — putting frames back in order

Frames of a stream arrive late, twice, or not at all. A jitter buffer holds them under their
**unwrapped** number, a whole number that agrees with the sixteen-bit one and lies closest to the
highest seen, and releases them in order. Playout begins once the buffer is deep enough; from then
on a frame that is next goes out at once, and a gap is waited for until the buffer is deep again.

The entries are kept in increasing order of their numbers, so the oldest frame stands first.
-/

set_option autoImplicit false

namespace Parley.Rtp

/-- How deep a buffer is. -/
structure JitterConfig where
  /-- The frames held before playout begins, and before a gap is skipped. -/
  targetDepth : Nat := 3
  /-- The most frames held; beyond it the oldest is dropped. -/
  maxPackets : Nat := 50
  deriving DecidableEq

/-- What has become of the frames so far. -/
structure JitterStats where
  received : Nat := 0
  played : Nat := 0
  /-- Frames that came after their turn, or were the oldest in a buffer too full. -/
  dropped : Nat := 0
  reordered : Nat := 0
  duplicate : Nat := 0
  /-- Numbers skipped because their frames did not come in time. -/
  lost : Nat := 0
  depth : Nat := 0
  deriving DecidableEq

/-- The buffer of one stream. -/
structure JitterBuffer where
  config : JitterConfig
  /-- The frames held, by unwrapped number, in increasing order. -/
  entries : List (Int × Frame) := []
  /-- The number to play next, once playout has begun. -/
  next : Option Int := none
  /-- The highest number held so far. -/
  highest : Option Int := none
  stats : JitterStats := {}
  deriving DecidableEq

namespace JitterBuffer

def new (config : JitterConfig) : JitterBuffer := { config }

def size (b : JitterBuffer) : Nat := b.entries.length

def isEmpty (b : JitterBuffer) : Bool := b.entries.isEmpty

/-- The whole number that a sixteen-bit number stands for: the one closest to the highest so far. Of
two that are equally close it is the one in the highest's own round of 2^16. -/
def unwrap (b : JitterBuffer) (sequence : UInt16) : Int :=
  match b.highest with
  | none => sequence.toNat
  | some highest =>
    let candidate := highest - highest % 0x10000 + sequence.toNat
    if candidate - highest > 0x8000 then candidate - 0x10000
    else if highest - candidate > 0x8000 then candidate + 0x10000
    else candidate

def holds (b : JitterBuffer) (number : Int) : Bool := b.entries.any (·.1 == number)

/-- Puts an entry in its place among others in increasing order. -/
def place (number : Int) (frame : Frame) : List (Int × Frame) → List (Int × Frame)
  | [] => [(number, frame)]
  | entry :: rest =>
    if number < entry.1 then (number, frame) :: entry :: rest
    else entry :: place number frame rest

/-- Drops the oldest frame of a buffer that holds too many. A number that was due moves past it. -/
def evict (b : JitterBuffer) : JitterBuffer :=
  match b.entries with
  | [] => b
  | (oldest, _) :: rest =>
    if b.entries.length ≤ b.config.maxPackets then b
    else
      { b with
        entries := rest
        next := b.next.map fun n => if n ≤ oldest then oldest + 1 else n
        stats := { b.stats with dropped := b.stats.dropped + 1 } }

def push (b : JitterBuffer) (frame : Frame) : JitterBuffer :=
  let stats := { b.stats with received := b.stats.received + 1 }
  let number := b.unwrap frame.sequence
  if b.next.any (number < ·) then
    { b with stats := { stats with dropped := stats.dropped + 1 } }
  else if b.holds number then
    { b with stats := { stats with duplicate := stats.duplicate + 1 } }
  else
    let late := b.highest.any (number < ·)
    let held : JitterBuffer :=
      { b with
        entries := place number frame b.entries
        highest := some (match b.highest with
          | none => number
          | some highest => max highest number)
        stats := { stats with reordered := stats.reordered + (if late then 1 else 0) } }
    let kept := held.evict
    { kept with stats := { kept.stats with depth := kept.entries.length } }

/-- The number of the frame that may go out, if one may. -/
def due (b : JitterBuffer) : Option Int :=
  let deep := max b.config.targetDepth 1 ≤ b.entries.length
  let first := if deep then b.entries.head?.map (·.1) else none
  match b.next with
  | none => first
  | some next => if b.holds next then some next else first

def pop (b : JitterBuffer) : Option (Frame × JitterBuffer) := do
  let number ← b.due
  let entry ← b.entries.find? (·.1 == number)
  let rest := b.entries.filter (·.1 != number)
  let skipped := match b.next with
    | none => 0
    | some next => (number - next).toNat
  return (entry.2,
    { b with
      entries := rest
      next := some (number + 1)
      stats := { b.stats with
        lost := b.stats.lost + skipped
        played := b.stats.played + 1
        depth := rest.length } })

/-- A frame that goes out leaves one frame fewer. -/
theorem size_lt_of_pop {b c : JitterBuffer} {f : Frame} (h : b.pop = some (f, c)) :
    c.size < b.size := by
  simp only [pop, Option.bind_eq_bind, Option.bind_eq_some_iff, Option.pure_def,
    Option.some.injEq, Prod.mk.injEq] at h
  obtain ⟨number, -, entry, hfind, -, rfl⟩ := h
  have hmem := List.mem_of_find?_eq_some hfind
  have hkey := List.find?_some hfind
  simp only [size]
  rcases Nat.lt_or_eq_of_le (List.length_filter_le (·.1 != number) b.entries) with hlt | heq
  · exact hlt
  · have := List.length_filter_eq_length_iff.1 heq entry hmem
    simp_all

/-- Lets frames go out until none is due. -/
def popAll (b : JitterBuffer) : List Frame × JitterBuffer :=
  match h : b.pop with
  | none => ([], b)
  | some (frame, c) =>
    have := size_lt_of_pop h
    let (frames, d) := popAll c
    (frame :: frames, d)
termination_by b.size

theorem popAll_of_none {b : JitterBuffer} (h : b.pop = none) : b.popAll = ([], b) := by
  rw [popAll]
  split
  · rfl
  · rename_i hsome
    exact absurd (h.symm.trans hsome) (by simp)

theorem popAll_of_some {b c : JitterBuffer} {frame : Frame} (h : b.pop = some (frame, c)) :
    b.popAll = (frame :: c.popAll.1, c.popAll.2) := by
  rw [popAll]
  split
  · rename_i hnone
    exact absurd (h.symm.trans hnone) (by simp)
  · rename_i frame' c' hsome
    obtain ⟨rfl, rfl⟩ := Prod.mk.inj (Option.some.inj (h.symm.trans hsome))
    rfl

def drain (b : JitterBuffer) : List Frame × JitterBuffer :=
  (b.entries.map (·.2),
    { b with
      entries := []
      next := (b.highest.map (· + 1)).or b.next
      stats := { b.stats with played := b.stats.played + b.entries.length, depth := 0 } })

end JitterBuffer

end Parley.Rtp
