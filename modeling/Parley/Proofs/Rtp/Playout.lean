import Mathlib.Data.List.Induction
import Parley.Rtp.JitterBuffer

/-!
# `Parley/Proofs/Rtp/Playout.lean` — frames come out in order

A frame carries the low sixteen bits of its number. A jitter buffer gives it a number of its own,
and as long as what arrives is less than half a round away from the highest so far, that number is
the true one but for a whole number of rounds, the same for all frames (`unwrap_add`). In its own
numbers a buffer is `Ordered`: its entries increase, none of them is below the number to play next,
and none is above the highest. Frames that go out are below the number to play next, which never
goes back, so that they come out in order and once, however often the sixteen bits wrap.
-/

set_option autoImplicit false

namespace Parley.Rtp

namespace JitterBuffer

/-- How the numbers in a buffer stand to each other. -/
structure Ordered (b : JitterBuffer) : Prop where
  increasing : b.entries.Pairwise (·.1 < ·.1)
  below : ∀ e ∈ b.entries, ∃ highest ∈ b.highest, e.1 ≤ highest
  due : ∀ n ∈ b.next, ∀ e ∈ b.entries, n ≤ e.1
  next : ∀ n ∈ b.next, ∃ highest ∈ b.highest, n ≤ highest + 1

/-- Whether a frame is put among the entries: it is neither late nor there already. -/
def admits (b : JitterBuffer) (frame : Frame) : Bool :=
  let number := b.unwrap frame.sequence
  !b.next.any (number < ·) && !b.holds number

theorem ordered_new (config : JitterConfig) : (new config).Ordered := by
  constructor <;> simp [new]

/-! ## Taking a frame in -/

theorem mem_place {number : Int} {frame : Frame} {entries : List (Int × Frame)}
    {e : Int × Frame} :
    e ∈ place number frame entries ↔ e = (number, frame) ∨ e ∈ entries := by
  induction entries with
  | nil => simp [place]
  | cons entry rest ih =>
    unfold place
    split
    · simp
    · simp only [List.mem_cons, ih, or_left_comm]

theorem pairwise_place {number : Int} (frame : Frame) {entries : List (Int × Frame)}
    (h : entries.Pairwise (·.1 < ·.1)) (hnew : ∀ e ∈ entries, e.1 ≠ number) :
    (place number frame entries).Pairwise (·.1 < ·.1) := by
  induction entries with
  | nil => simp [place]
  | cons entry rest ih =>
    obtain ⟨hentry, hrest⟩ := List.pairwise_cons.mp h
    unfold place
    split
    · rename_i hlt
      refine List.pairwise_cons.mpr ⟨fun e he => ?_, h⟩
      rcases List.mem_cons.mp he with rfl | he
      · exact hlt
      · exact Int.lt_trans hlt (hentry e he)
    · rename_i hnot
      refine List.pairwise_cons.mpr ⟨fun e he => ?_, ?_⟩
      · rcases mem_place.mp he with rfl | he
        · have hne := hnew entry List.mem_cons_self
          show entry.1 < number
          omega
        · exact hentry e he
      · exact ih hrest fun e he => hnew e (List.mem_cons_of_mem _ he)

/-- What a buffer does in taking a frame in leaves it `after` where it was `before`: nothing is
added but that frame, and the number to play next does not go back. -/
structure Goes (before after : JitterBuffer) : Prop where
  ordered : after.Ordered
  next : ∀ n ∈ before.next, ∃ n' ∈ after.next, n ≤ n'

/-- The oldest entry is dropped, if any is, and what is due moves past it. -/
theorem goes_evict {b : JitterBuffer} (h : b.Ordered) :
    Goes b b.evict ∧ b.evict.highest = b.highest ∧ ∀ e ∈ b.evict.entries, e ∈ b.entries := by
  unfold evict
  split
  · exact ⟨⟨h, fun n hn => ⟨n, hn, Int.le_refl n⟩⟩, rfl, fun e he => he⟩
  · rename_i oldest frame rest hentries
    split
    · exact ⟨⟨h, fun n hn => ⟨n, hn, Int.le_refl n⟩⟩, rfl, fun e he => he⟩
    · have hsub : ∀ e ∈ rest, e ∈ b.entries := fun e he => hentries ▸ List.mem_cons_of_mem _ he
      obtain ⟨holdest, hrest⟩ := List.pairwise_cons.mp (hentries ▸ h.increasing)
      have hmem : (oldest, frame) ∈ b.entries := hentries ▸ List.mem_cons_self
      obtain ⟨highest, hhighest, hle⟩ := h.below _ hmem
      refine ⟨⟨⟨hrest, fun e he => h.below e (hsub e he), ?_, ?_⟩, ?_⟩, rfl, hsub⟩
      -- what is due moves past the dropped entry, which is the oldest
      · intro n' hn' e he
        obtain ⟨n, hn, rfl⟩ := Option.map_eq_some_iff.mp hn'
        have hlt : oldest < e.1 := holdest e he
        have hdue := h.due n hn e (hsub e he)
        split <;> omega
      · intro n' hn'
        obtain ⟨n, hn, rfl⟩ := Option.map_eq_some_iff.mp hn'
        obtain ⟨highest', hhighest', hnext⟩ := h.next n hn
        obtain rfl := Option.mem_unique hhighest hhighest'
        refine ⟨highest, hhighest, ?_⟩
        dsimp only at hle
        split <;> omega
      · intro n hn
        refine ⟨_, Option.mem_map_of_mem _ hn, ?_⟩
        split <;> omega

theorem push_of_not_admits {b : JitterBuffer} {frame : Frame} (h : b.admits frame = false) :
    (b.push frame).entries = b.entries ∧ (b.push frame).next = b.next ∧
      (b.push frame).highest = b.highest := by
  unfold push
  by_cases hlate : (b.next.any (b.unwrap frame.sequence < ·)) = true
  · simp [hlate]
  · have hheld : b.holds (b.unwrap frame.sequence) = true := by simpa [admits, hlate] using h
    simp [hlate, hheld]

def highestWith (b : JitterBuffer) (number : Int) : Int :=
  match b.highest with
  | none => number
  | some highest => max highest number

theorem le_highestWith (b : JitterBuffer) (number : Int) :
    number ≤ b.highestWith number ∧ ∀ highest ∈ b.highest, highest ≤ b.highestWith number := by
  unfold highestWith
  split
  · rename_i hnone
    exact ⟨Int.le_refl _, fun highest hmem => absurd (hnone.symm.trans hmem) (by simp)⟩
  · rename_i highest hsome
    refine ⟨by omega, fun highest' hmem => ?_⟩
    obtain rfl := Option.mem_unique hmem hsome
    omega

/-- A buffer that an entry is added to, in time and not for the second time, is in order. -/
theorem ordered_add {b : JitterBuffer} (h : b.Ordered) {number : Int} (frame : Frame)
    (stats : JitterStats) (intime : ∀ n ∈ b.next, n ≤ number)
    (hnew : ∀ e ∈ b.entries, e.1 ≠ number) :
    Ordered { b with
      entries := place number frame b.entries
      highest := some (b.highestWith number)
      stats } := by
  obtain ⟨hnumber, hhighest⟩ := b.le_highestWith number
  refine ⟨pairwise_place frame h.increasing hnew, fun e he => ?_, fun n hn e he => ?_,
    fun n hn => ?_⟩
  · refine ⟨_, rfl, ?_⟩
    rcases mem_place.mp he with rfl | he
    · exact hnumber
    · obtain ⟨highest, hmem, hle⟩ := h.below e he
      exact Int.le_trans hle (hhighest highest hmem)
  · rcases mem_place.mp he with rfl | he
    · exact intime n hn
    · exact h.due n hn e he
  · have hle := intime n hn
    exact ⟨_, rfl, by omega⟩

theorem holds_eq_false_iff {b : JitterBuffer} {n : Int} :
    b.holds n = false ↔ ∀ e ∈ b.entries, e.1 ≠ n := by
  simp [holds]

theorem admits_iff {b : JitterBuffer} {frame : Frame} :
    b.admits frame = true ↔
      (∀ n ∈ b.next, n ≤ b.unwrap frame.sequence) ∧
        ∀ e ∈ b.entries, e.1 ≠ b.unwrap frame.sequence := by
  rw [admits, Bool.and_eq_true, Bool.not_eq_true', Bool.not_eq_true', holds_eq_false_iff]
  refine and_congr_left fun _ => ?_
  cases b.next <;> simp

/-- The buffer with a frame among its entries, before it is seen whether these are too many. -/
def withEntry (b : JitterBuffer) (frame : Frame) : JitterBuffer :=
  let number := b.unwrap frame.sequence
  { b with
    entries := place number frame b.entries
    highest := some (b.highestWith number)
    stats := { b.stats with
      received := b.stats.received + 1
      reordered := b.stats.reordered + (if b.highest.any (number < ·) then 1 else 0) } }

theorem ordered_withEntry {b : JitterBuffer} {frame : Frame} (h : b.Ordered)
    (hadmits : b.admits frame = true) : (b.withEntry frame).Ordered :=
  ordered_add h frame _ (admits_iff.mp hadmits).1 (admits_iff.mp hadmits).2

theorem push_eq_of_admits {b : JitterBuffer} {frame : Frame} (h : b.admits frame = true) :
    b.push frame =
      { (b.withEntry frame).evict with
        stats := { (b.withEntry frame).evict.stats with
          depth := (b.withEntry frame).evict.entries.length } } := by
  obtain ⟨hlate, hheld⟩ : b.next.any (b.unwrap frame.sequence < ·) = false ∧
      b.holds (b.unwrap frame.sequence) = false := by
    simpa [admits] using h
  simp only [push, hlate, hheld]
  rfl

theorem push_of_admits {b : JitterBuffer} {frame : Frame} (h : b.Ordered)
    (hadmits : b.admits frame = true) :
    Goes b (b.push frame) ∧
      (b.push frame).highest = some (b.highestWith (b.unwrap frame.sequence)) ∧
      ∀ e ∈ (b.push frame).entries,
        e = (b.unwrap frame.sequence, frame) ∨ e ∈ b.entries := by
  obtain ⟨⟨hordered, hnext⟩, hhighest, hentries⟩ := goes_evict (ordered_withEntry h hadmits)
  rw [push_eq_of_admits hadmits]
  refine ⟨⟨⟨hordered.increasing, hordered.below, hordered.due, hordered.next⟩, hnext⟩, hhighest, ?_⟩
  exact fun e he => mem_place.mp (hentries e he)

/-! ## Letting frames go out -/

/-- The first entry is the oldest, and what is due is no later. -/
theorem le_of_head? {b : JitterBuffer} (h : b.Ordered) {first : Int}
    (hfirst : b.entries.head?.map (·.1) = some first) :
    (∀ n ∈ b.next, n ≤ first) ∧ ∀ e ∈ b.entries, first ≤ e.1 := by
  obtain ⟨entry, hentry, rfl⟩ := Option.map_eq_some_iff.mp hfirst
  obtain ⟨rest, hrest⟩ := List.head?_eq_some_iff.mp hentry
  refine ⟨fun n hn => h.due n hn entry (List.mem_of_mem_head? hentry), fun e he => ?_⟩
  rw [hrest] at he
  rcases List.mem_cons.mp he with rfl | he
  · exact Int.le_refl _
  · exact Int.le_of_lt ((List.pairwise_cons.mp (hrest ▸ h.increasing)).1 e he)

theorem le_of_due {b : JitterBuffer} (h : b.Ordered) {number : Int} (hdue : b.due = some number) :
    (∀ n ∈ b.next, n ≤ number) ∧ ∀ e ∈ b.entries, number ≤ e.1 := by
  have early {first : Int}
      (hfirst : (if max b.config.targetDepth 1 ≤ b.entries.length
        then b.entries.head?.map (·.1) else none) = some first) :
      (∀ n ∈ b.next, n ≤ first) ∧ ∀ e ∈ b.entries, first ≤ e.1 := by
    split at hfirst
    · exact le_of_head? h hfirst
    · exact absurd hfirst (by simp)
  -- before the first frame has gone out, and over a gap, the oldest is due once enough are held
  simp only [due] at hdue
  split at hdue
  · exact early hdue
  · rename_i next hnext
    split at hdue
    · obtain rfl : next = number := by simpa using hdue
      exact ⟨fun n hn => Int.le_of_eq (Option.mem_unique hn hnext), h.due next hnext⟩
    · exact early hdue

/-- A frame that goes out was the oldest, and from then on only newer ones are due. -/
theorem ordered_pop {b c : JitterBuffer} {frame : Frame} (h : b.Ordered)
    (hpop : b.pop = some (frame, c)) :
    ∃ number, (number, frame) ∈ b.entries ∧ (∀ n ∈ b.next, n ≤ number) ∧ c.Ordered ∧
      c.next = some (number + 1) ∧ c.highest = b.highest ∧ ∀ e ∈ c.entries, e ∈ b.entries := by
  simp only [pop, Option.bind_eq_bind, Option.bind_eq_some_iff, Option.pure_def,
    Option.some.injEq, Prod.mk.injEq] at hpop
  obtain ⟨number, hdue, entry, hfind, rfl, rfl⟩ := hpop
  have hmem := List.mem_of_find?_eq_some hfind
  have hkey : entry.1 = number := by simpa using List.find?_some hfind
  obtain ⟨hnext, hle⟩ := le_of_due h hdue
  have hsub : ∀ e ∈ b.entries.filter (·.1 != number), e ∈ b.entries ∧ e.1 ≠ number := by
    intro e he
    simpa using List.mem_filter.mp he
  refine ⟨number, hkey ▸ hmem, hnext, ⟨?_, ?_, ?_, ?_⟩, rfl, rfl, fun e he => (hsub e he).1⟩
  · exact h.increasing.filter _
  · exact fun e he => h.below e (hsub e he).1
  · intro n hn e he
    obtain rfl : number + 1 = n := by simpa using hn
    have hge := hle e (hsub e he).1
    have hne := (hsub e he).2
    omega
  · intro n hn
    obtain rfl : number + 1 = n := by simpa using hn
    obtain ⟨highest, hhighest, hbelow⟩ := h.below entry hmem
    exact ⟨highest, hhighest, by omega⟩

theorem ordered_drain {b : JitterBuffer} (h : b.Ordered) :
    b.drain.2.Ordered ∧ (∀ n ∈ b.next, ∃ n' ∈ b.drain.2.next, n ≤ n') ∧
      ∀ e ∈ b.entries, ∃ n ∈ b.drain.2.next, e.1 < n := by
  have hnext : b.drain.2.next = (b.highest.map (· + 1)).or b.next := rfl
  cases hhighest : b.highest with
  | none =>
    -- nothing was ever taken in, so nothing is due and nothing is held
    have hnone : b.next = none := by
      refine Option.eq_none_iff_forall_not_mem.mpr fun n hn => ?_
      obtain ⟨_, hmem, _⟩ := h.next n hn
      simp [hhighest] at hmem
    refine ⟨⟨.nil, by simp [drain], by simp [drain], ?_⟩, by simp [hnone], fun e he => ?_⟩
    · rw [hnext]
      simp [hhighest, hnone]
    · obtain ⟨_, hmem, _⟩ := h.below e he
      simp [hhighest] at hmem
  | some highest =>
    rw [hhighest] at hnext
    refine ⟨⟨.nil, by simp [drain], by simp [drain], ?_⟩, fun n hn => ?_, fun e he => ?_⟩
    · rw [hnext]
      simp [drain, hhighest]
    · obtain ⟨highest', hmem, hle⟩ := h.next n hn
      obtain rfl : highest = highest' := by simpa [hhighest] using hmem
      exact ⟨highest + 1, by rw [hnext]; rfl, hle⟩
    · obtain ⟨highest', hmem, hle⟩ := h.below e he
      obtain rfl : highest = highest' := by simpa [hhighest] using hmem
      exact ⟨highest + 1, by rw [hnext]; rfl, by omega⟩

/-! ## True numbers -/

/-- The buffer's number is the true one but for the rounds that lie between them. -/
theorem unwrap_add {b : JitterBuffer} {base number : Int} {sequence : UInt16}
    (rounds : 65536 ∣ base) (low : (sequence.toNat : Int) = number % 65536)
    (near : ∀ highest ∈ b.highest, (number - (highest + base)).natAbs < 32768)
    (first : b.highest = none → base = number - sequence.toNat) :
    b.unwrap sequence + base = number := by
  unfold unwrap
  split
  -- the first number is taken as it is
  · rename_i hnone
    have hbase := first hnone
    omega
  · rename_i highest hsome
    have hnear := near highest hsome
    dsimp only
    -- the low bits leave the distance to the highest open by whole rounds, and it is less than half
    split
    · omega
    · split <;> omega

/-- What may be done with a buffer. A frame is given to it with its true number, which it is not
told. -/
inductive Use where
  | push (number : Int) (frame : Frame)
  | pop
  | drain

end JitterBuffer

/-- A buffer in use, with the frames that it has released, in order. -/
structure Playout where
  buffer : JitterBuffer
  released : List Frame := []
  /-- The largest true number among the frames put into the buffer. -/
  largest : Option Int := none

namespace Playout

open JitterBuffer

def step (p : Playout) : Use → Playout
  | .push number frame =>
    { p with
      buffer := p.buffer.push frame
      largest :=
        if p.buffer.admits frame then some (p.largest.elim number (max · number)) else p.largest }
  | .pop =>
    match p.buffer.pop with
    | none => p
    | some (frame, buffer) => { p with buffer, released := p.released ++ [frame] }
  | .drain =>
    { p with buffer := p.buffer.drain.2, released := p.released ++ p.buffer.drain.1 }

def run (p : Playout) (uses : List Use) : Playout := uses.foldl step p

def fresh (config : JitterConfig) : Playout := { buffer := .new config }

/-- Whether a frame has the low bits of its number, and the number is less than half a round away
from the largest one so far. -/
def Expects (p : Playout) : Use → Prop
  | .push number frame =>
    (frame.sequence.toNat : Int) = number % 65536 ∧
      ∀ largest ∈ p.largest, (number - largest).natAbs < 32768
  | _ => True

def Faithful (p : Playout) : List Use → Prop
  | [] => True
  | u :: rest => p.Expects u ∧ (p.step u).Faithful rest

instance (p : Playout) : (u : Use) → Decidable (p.Expects u)
  | .push _ _ => inferInstanceAs (Decidable (_ ∧ _))
  | .pop | .drain => isTrue trivial

instance decidableFaithful (p : Playout) : (uses : List Use) → Decidable (p.Faithful uses)
  | [] => isTrue trivial
  | u :: rest =>
    have := decidableFaithful (p.step u) rest
    inferInstanceAs (Decidable (_ ∧ _))

theorem run_concat (p : Playout) (uses : List Use) (u : Use) :
    p.run (uses ++ [u]) = (p.run uses).step u := by
  simp [run]

theorem faithful_concat {p : Playout} {uses : List Use} {u : Use} :
    p.Faithful (uses ++ [u]) ↔ p.Faithful uses ∧ (p.run uses).Expects u := by
  induction uses generalizing p with
  | nil => simp [Faithful, run]
  | cons v rest ih =>
    show _ ∧ (p.step v).Faithful (rest ++ [u]) ↔ _
    rw [ih, ← and_assoc]
    rfl

/-- How the frames released and those held stand to their true numbers: `base` is what lies between
a true number and the buffer's. -/
structure Tracks (p : Playout) (uses : List Use) (base : Int)
    (released : List (Int × Frame)) : Prop where
  rounds : 65536 ∣ base
  ordered : p.buffer.Ordered
  largest : p.largest = p.buffer.highest.map (· + base)
  held : ∀ e ∈ p.buffer.entries, .push (e.1 + base) e.2 ∈ uses
  frames : released.map (·.2) = p.released
  pushed : ∀ r ∈ released, .push r.1 r.2 ∈ uses
  increasing : released.Pairwise (·.1 < ·.1)
  past : ∀ r ∈ released, ∃ n ∈ p.buffer.next, r.1 < n + base

variable {p : Playout} {uses : List Use} {base : Int} {released : List (Int × Frame)}

theorem Tracks.rebase (h : p.Tracks uses base released) (hnone : p.buffer.highest = none)
    {base' : Int} (rounds : 65536 ∣ base') : p.Tracks uses base' released := by
  have nothing : ∀ {P : Prop} {Q : Int → Prop}, (∃ highest ∈ p.buffer.highest, Q highest) → P := by
    rintro P Q ⟨_, hmem, _⟩
    simp [hnone] at hmem
  refine { h with rounds, largest := ?_, held := ?_, past := ?_ }
  · rw [h.largest, hnone]
    rfl
  · exact fun e he => nothing (h.ordered.below e he)
  · intro r hr
    obtain ⟨n, hn, -⟩ := h.past r hr
    exact nothing (h.ordered.next n hn)

theorem tracks_push_of_not_admits (h : p.Tracks uses base released) {number : Int} {frame : Frame}
    (hnot : p.buffer.admits frame = false) :
    (p.step (.push number frame)).Tracks (uses ++ [.push number frame]) base released := by
  obtain ⟨hentries, hnext, hhighest⟩ := push_of_not_admits hnot
  have hstep : p.step (.push number frame) = { p with buffer := p.buffer.push frame } := by
    simp [step, hnot]
  rw [hstep]
  constructor
  case rounds => exact h.rounds
  case ordered =>
    obtain ⟨hincreasing, hbelow, hdue, hbound⟩ := h.ordered
    constructor <;> simpa only [hentries, hnext, hhighest]
  case largest => simpa only [hhighest] using h.largest
  case held =>
    intro e he
    rw [hentries] at he
    exact List.mem_append_left _ (h.held e he)
  case frames => exact h.frames
  case pushed => exact fun r hr => List.mem_append_left _ (h.pushed r hr)
  case increasing => exact h.increasing
  case past => simpa only [hnext] using h.past

theorem tracks_push_of_admits (h : p.Tracks uses base released) {number : Int} {frame : Frame}
    (hadmits : p.buffer.admits frame = true)
    (hnumber : p.buffer.unwrap frame.sequence + base = number) :
    (p.step (.push number frame)).Tracks (uses ++ [.push number frame]) base released := by
  obtain ⟨⟨hordered, hnext⟩, hhighest, hentries⟩ := push_of_admits h.ordered hadmits
  constructor
  case rounds => exact h.rounds
  case ordered => exact hordered
  case largest =>
    -- the largest true number and the highest of the buffer move together
    show (if p.buffer.admits frame then _ else _) = (p.buffer.push frame).highest.map _
    rw [if_pos hadmits, hhighest, h.largest, ← hnumber, highestWith]
    cases p.buffer.highest with
    | none => rfl
    | some highest =>
      show some _ = some _
      congr 1
      show max (highest + base) _ = max highest _ + base
      omega
  case held =>
    intro e he
    rcases hentries e he with rfl | he
    · simp [hnumber]
    · exact List.mem_append_left _ (h.held e he)
  case frames => exact h.frames
  case pushed => exact fun r hr => List.mem_append_left _ (h.pushed r hr)
  case increasing => exact h.increasing
  case past =>
    intro r hr
    obtain ⟨n, hn, hlt⟩ := h.past r hr
    obtain ⟨n', hn', hle⟩ := hnext n hn
    exact ⟨n', hn', by omega⟩

theorem tracks_push (h : p.Tracks uses base released) {number : Int} {frame : Frame}
    (expected : p.Expects (.push number frame)) :
    ∃ base',
      (p.step (.push number frame)).Tracks (uses ++ [.push number frame]) base' released := by
  obtain ⟨low, near⟩ := expected
  cases hadmits : p.buffer.admits frame with
  | false => exact ⟨base, tracks_push_of_not_admits h hadmits⟩
  | true =>
    cases hhighest : p.buffer.highest with
    | none =>
      -- the first frame says where the buffer's numbers begin
      have rounds : 65536 ∣ number - frame.sequence.toNat := by omega
      refine ⟨_, tracks_push_of_admits (h.rebase hhighest rounds) hadmits ?_⟩
      exact unwrap_add rounds low (by simp [hhighest]) fun _ => rfl
    | some highest =>
      refine ⟨base, tracks_push_of_admits h hadmits ?_⟩
      refine unwrap_add h.rounds low (fun highest' hmem => ?_) (by simp [hhighest])
      refine near _ ?_
      rw [h.largest]
      exact Option.mem_map_of_mem _ hmem

/-- Whatever numbers come out below the new number to play next come out in order. -/
theorem tracks_release (fresh : List (Int × Frame)) (h : p.Tracks uses base released)
    {buffer : JitterBuffer} {u : Use} (hordered : buffer.Ordered)
    (hhighest : buffer.highest = p.buffer.highest)
    (hheld : ∀ e ∈ buffer.entries, e ∈ p.buffer.entries)
    (hfresh : ∀ e ∈ fresh, e ∈ p.buffer.entries) (hincreasing : fresh.Pairwise (·.1 < ·.1))
    (hdue : ∀ e ∈ fresh, ∀ n ∈ p.buffer.next, n ≤ e.1)
    (hpast : ∀ e ∈ fresh, ∃ n ∈ buffer.next, e.1 < n)
    (hnext : ∀ n ∈ p.buffer.next, ∃ n' ∈ buffer.next, n ≤ n') :
    Tracks { p with buffer, released := p.released ++ fresh.map (·.2) } (uses ++ [u]) base
      (released ++ fresh.map fun e => (e.1 + base, e.2)) := by
  constructor
  case rounds => exact h.rounds
  case ordered => exact hordered
  case largest => rw [h.largest, hhighest]
  case held => exact fun e he => List.mem_append_left _ (h.held e (hheld e he))
  case frames => simp [h.frames]
  case pushed =>
    intro r hr
    refine List.mem_append_left _ ?_
    rcases List.mem_append.mp hr with hr | hr
    · exact h.pushed r hr
    · obtain ⟨e, he, rfl⟩ := List.mem_map.mp hr
      exact h.held e (hfresh e he)
  case increasing =>
    refine List.pairwise_append.mpr ⟨h.increasing, ?_, ?_⟩
    · refine List.pairwise_map.mpr (hincreasing.imp ?_)
      intro d e hlt
      show d.1 + base < e.1 + base
      omega
    -- what was released is below what was due, and that is no higher than anything held
    · intro r hr r' hr'
      obtain ⟨e, he, rfl⟩ := List.mem_map.mp hr'
      obtain ⟨n, hn, hlt⟩ := h.past r hr
      have hle := hdue e he n hn
      show r.1 < e.1 + base
      omega
  case past =>
    intro r hr
    rcases List.mem_append.mp hr with hr | hr
    · obtain ⟨n, hn, hlt⟩ := h.past r hr
      obtain ⟨n', hn', hle⟩ := hnext n hn
      exact ⟨n', hn', by omega⟩
    · obtain ⟨e, he, rfl⟩ := List.mem_map.mp hr
      obtain ⟨n, hn, hlt⟩ := hpast e he
      exact ⟨n, hn, by show e.1 + base < n + base; omega⟩

theorem tracks_pop (h : p.Tracks uses base released) :
    ∃ more, (p.step .pop).Tracks (uses ++ [.pop]) base (released ++ more) := by
  cases hpop : p.buffer.pop with
  | none =>
    have hstep : p.step .pop = { p with released := p.released ++ [] } := by simp [step, hpop]
    rw [hstep]
    refine ⟨_, tracks_release [] h h.ordered rfl (fun e he => he) ?_ .nil ?_ ?_ ?_⟩
    · simp
    · simp
    · simp
    · exact fun n hn => ⟨n, hn, Int.le_refl n⟩
  | some result =>
    obtain ⟨frame, buffer⟩ := result
    have hstep : p.step .pop = { p with buffer, released := p.released ++ [frame] } := by
      simp [step, hpop]
    rw [hstep]
    obtain ⟨number, hmem, hdue, hordered, hnext, hhighest, hheld⟩ := ordered_pop h.ordered hpop
    refine ⟨_, tracks_release [(number, frame)] h hordered hhighest hheld ?_ ?_ ?_ ?_ ?_⟩
    · simpa using hmem
    · exact List.pairwise_singleton ..
    · simpa using hdue
    · simp only [List.mem_singleton, forall_eq]
      exact ⟨number + 1, hnext, by omega⟩
    · intro n hn
      have hle := hdue n hn
      exact ⟨number + 1, hnext, by omega⟩

theorem tracks_drain (h : p.Tracks uses base released) :
    ∃ more, (p.step .drain).Tracks (uses ++ [.drain]) base (released ++ more) := by
  obtain ⟨hordered, hnext, hpast⟩ := ordered_drain h.ordered
  refine ⟨_, tracks_release p.buffer.entries h hordered rfl ?_ ?_ ?_ ?_ hpast hnext⟩
  · exact fun e he => absurd he (by simp [drain])
  · exact fun e he => he
  · exact h.ordered.increasing
  · exact fun e he n hn => h.ordered.due n hn e he

/-- Whatever is done with a buffer, what it releases follows what it has released before. -/
theorem tracks_step (h : p.Tracks uses base released) (u : Use) (expected : p.Expects u) :
    ∃ base' more, (p.step u).Tracks (uses ++ [u]) base' (released ++ more) := by
  cases u with
  | push number frame =>
    obtain ⟨base', htracks⟩ := tracks_push h expected
    exact ⟨base', [], by simpa using htracks⟩
  | pop => exact ⟨base, tracks_pop h⟩
  | drain => exact ⟨base, tracks_drain h⟩

theorem tracks_fresh (config : JitterConfig) : (fresh config).Tracks [] 0 [] := by
  constructor
  case rounds => exact ⟨0, rfl⟩
  case ordered => exact ordered_new config
  all_goals simp [fresh, JitterBuffer.new]

/-- **Frames come out in order, and once.** If each frame carries the low bits of its number, which
is less than half a round away from the largest so far, then the frames released have true numbers
that increase, and each of them was given to the buffer, with that number, before it was released.
-/
theorem released_in_order (config : JitterConfig) (uses : List Use)
    (faithful : (fresh config).Faithful uses) :
    ∃ released : List (Int × Frame),
      released.map (·.2) = ((fresh config).run uses).released ∧
      released.Pairwise (·.1 < ·.1) ∧
      ∀ earlier, earlier <+: uses →
        ∀ r ∈ released.take ((fresh config).run earlier).released.length,
          Use.push r.1 r.2 ∈ earlier := by
  -- on the way the released frames of an earlier moment are the first of those released by now
  suffices hall : ∃ base released, ((fresh config).run uses).Tracks uses base released ∧
      ∀ earlier, earlier <+: uses → ((fresh config).run earlier).released.length ≤ released.length ∧
        ∀ r ∈ released.take ((fresh config).run earlier).released.length,
          Use.push r.1 r.2 ∈ earlier by
    obtain ⟨_, released, htracks, hearlier⟩ := hall
    exact ⟨released, htracks.frames, htracks.increasing, fun earlier h => (hearlier earlier h).2⟩
  induction uses using List.reverseRecOn with
  | nil =>
    refine ⟨0, [], tracks_fresh config, fun earlier hearlier => ?_⟩
    rw [List.prefix_nil.mp hearlier]
    exact ⟨Nat.le_refl 0, by simp⟩
  | append_singleton uses u ih =>
    obtain ⟨hbefore, expected⟩ := faithful_concat.mp faithful
    obtain ⟨base, released, htracks, hearlier⟩ := ih hbefore
    obtain ⟨base', more, hnext⟩ := tracks_step htracks u expected
    rw [← run_concat] at hnext
    refine ⟨base', released ++ more, hnext, fun earlier hprefix => ?_⟩
    rcases List.prefix_concat_iff.mp hprefix with rfl | hprefix
    · have hlength := congrArg List.length hnext.frames
      rw [List.length_map] at hlength
      rw [← hlength, List.take_length]
      exact ⟨Nat.le_refl _, hnext.pushed⟩
    · obtain ⟨hle, hpushed⟩ := hearlier earlier hprefix
      rw [List.take_append_of_le_length hle, List.length_append]
      exact ⟨by omega, hpushed⟩

/-- Four frames around a wrap of the sixteen bits, one of them late, come out in order. -/
theorem released_in_order_wrap :
    let frame (sequence : UInt16) : Frame := ⟨sequence, 0, 7, .pcmu, []⟩
    let before : List Use := [.push 65534 (frame 65534), .pop, .push 65536 (frame 0),
      .push 65535 (frame 65535), .pop]
    let uses := before ++ [.push 65537 (frame 1), .drain]
    let p := fresh { targetDepth := 1 }
    p.Faithful uses ∧ (p.run before).released = [frame 65534, frame 65535] ∧
      (p.run uses).released = [frame 65534, frame 65535, frame 0, frame 1] ∧
      ∃ released : List (Int × Frame),
        released.map (·.2) = [frame 65534, frame 65535, frame 0, frame 1] ∧
        released.Pairwise (·.1 < ·.1) ∧ ∀ r ∈ released.take 2, Use.push r.1 r.2 ∈ before := by
  intro frame before uses p
  have faithful : p.Faithful uses := by decide
  have hbefore : (p.run before).released = [frame 65534, frame 65535] := by decide
  have hall : (p.run uses).released = [frame 65534, frame 65535, frame 0, frame 1] := by decide
  obtain ⟨released, hframes, hincreasing, hpushed⟩ :=
    released_in_order { targetDepth := 1 } uses faithful
  have htaken := hpushed before (List.prefix_append _ _)
  rw [hbefore] at htaken
  exact ⟨faithful, hbefore, hall, released, hframes.trans hall, hincreasing, htaken⟩

end Playout

end Parley.Rtp
