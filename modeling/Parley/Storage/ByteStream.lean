import Parley.Octets

/-!
# `Parley/Storage/ByteStream.lean` — a file that is read in pieces

Reading a file may bring fewer bytes than there is room for, and may be interrupted before it brings
any. A stream holds the bytes that are left and, for as many readings as one cares to say, what each
of them will bring; readings that nothing is said about bring all they can. `fill` reads until the
room is full or the file has ended, and so does not depend on how the readings go.
-/

set_option autoImplicit false

namespace Parley

structure ByteStream where
  data : Octets
  /-- What the next readings bring: nothing because of an interruption, or at most so many bytes
  more than one. -/
  grants : List (Option Nat) := []
  deriving DecidableEq

namespace ByteStream

/-- One reading with room for so many bytes. None stands for an interruption; no bytes at all mean
that the file has ended. -/
def read (s : ByteStream) (room : Nat) : Option Octets × ByteStream :=
  match s.grants with
  | [] => (some (s.data.take room), { s with data := s.data.drop room })
  | none :: grants => (none, { s with grants })
  | some extra :: grants =>
    let size := min room (extra + 1)
    (some (s.data.take size), { data := s.data.drop size, grants })

/-- Reads on, with so much room, until the room is full or the file has ended. -/
def fillRounds : (rounds : Nat) → ByteStream → (room : Nat) → Octets × ByteStream
  | 0, s, _ => ([], s)
  | rounds + 1, s, room =>
    if room = 0 then ([], s)
    else match s.read room with
      | (none, s) => fillRounds rounds s room
      | (some [], s) => ([], s)
      | (some piece, s) =>
        let (more, s) := fillRounds rounds s (room - piece.length)
        (piece ++ more, s)

/-- Reads so many bytes, or all that are left if they are fewer. Each reading uses up something that
was said about readings, except the last two. -/
def fill (s : ByteStream) (room : Nat) : Octets × ByteStream :=
  fillRounds (s.grants.length + 2) s room

end ByteStream

end Parley
