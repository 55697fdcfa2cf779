import Parley.Proofs.Rtp.Account

/-!
# `Parley/Proofs/Rtp/InOrder.lean` — a jitter buffer that gets every frame in its turn

When no frame is missing, late or doubled, a jitter buffer is a queue: it holds frames with
consecutive numbers and hands all of them on, in order (`Queues`). It holds them back only while it
is not yet deep enough for playout to begin, and it is never so full that one is dropped, provided
that it may hold as many as playout waits for.

The frames carry sixteen bits of their numbers. As each follows the highest by one, those bits say
which number is meant, however often they wrap.
-/

set_option autoImplicit false

namespace Parley.Rtp

/-- Whether frames carry consecutive numbers, from this one on. -/
def Consecutive : UInt16 → List Frame → Prop
  | _, [] => True
  | sequence, frame :: rest => frame.sequence = sequence ∧ Consecutive (sequence + 1) rest

namespace JitterBuffer

/-- Takes a frame in and lets frames go out until none is due. -/
def pass (b : JitterBuffer) (frame : Frame) : List Frame × JitterBuffer := (b.push frame).popAll

/-- Passes frames through, one after the other. -/
def passAll (b : JitterBuffer) : List Frame → List Frame × JitterBuffer
  | [] => ([], b)
  | frame :: rest =>
    let (ready, b) := b.pass frame
    let (more, b) := passAll b rest
    (ready ++ more, b)

/-- All that comes out of a buffer that frames are passed through, with what it holds at the end. -/
def playThrough (b : JitterBuffer) (frames : List Frame) : List Frame :=
  (b.passAll frames).1 ++ (b.passAll frames).2.drain.1

/-- Frames under consecutive numbers. -/
def numberFrom : Int → List Frame → List (Int × Frame)
  | _, [] => []
  | number, frame :: rest => (number, frame) :: numberFrom (number + 1) rest

theorem map_snd_numberFrom (number : Int) (frames : List Frame) :
    (numberFrom number frames).map (·.2) = frames := by
  induction frames generalizing number with
  | nil => rfl
  | cons frame rest ih =>
    simp only [numberFrom, List.map_cons, ih]

theorem length_numberFrom (number : Int) (frames : List Frame) :
    (numberFrom number frames).length = frames.length := by
  rw [← List.length_map (f := (·.2)), map_snd_numberFrom]

theorem lt_of_mem_numberFrom {number : Int} {frames : List Frame} {e : Int × Frame}
    (h : e ∈ numberFrom number frames) :
    number ≤ e.1 ∧ e.1 < number + frames.length := by
  induction frames generalizing number with
  | nil => cases h
  | cons frame rest ih =>
    rcases List.mem_cons.mp h with rfl | hrest
    · simp only [List.length_cons]
      omega
    · have := ih hrest
      simp only [List.length_cons]
      omega

theorem place_numberFrom (number : Int) (frames : List Frame) (frame : Frame) :
    place (number + frames.length) frame (numberFrom number frames) =
      numberFrom number (frames ++ [frame]) := by
  induction frames generalizing number with
  | nil => simp [numberFrom, place]
  | cons first rest ih =>
    have hnot : ¬ number + ((first :: rest).length : Int) < number := by omega
    have hnext : number + ((first :: rest).length : Int) = number + 1 + rest.length := by
      simp only [List.length_cons]
      omega
    rw [List.cons_append, numberFrom, place, if_neg hnot, hnext, ih, numberFrom]

/-- A buffer that got every frame in its turn: it holds these frames, whose numbers end just before
`number`, and either gathers until it is deep enough or has handed on all it had. -/
structure Queues (b : JitterBuffer) (number : Int) (frames : List Frame) : Prop where
  entries : b.entries = numberFrom (number - frames.length) frames
  highest : b.highest = none ∧ 0 ≤ number ∧ number < 0x10000 ∨ b.highest = some (number - 1)
  next : b.next = none ∧ frames.length < max b.config.targetDepth 1 ∨
    b.next = some number ∧ frames = []

variable {b : JitterBuffer} {number : Int} {frames : List Frame} {frame : Frame}

theorem queues_new (config : JitterConfig) (sequence : UInt16) :
    (new config).Queues sequence.toNat [] := by
  have := sequence.toNat_lt
  constructor
  · rfl
  · exact Or.inl ⟨rfl, by omega, by omega⟩
  · exact Or.inl ⟨rfl, Nat.le_max_right _ 1⟩

/-- The sixteen bits of the number that follows the highest are read as that number. -/
theorem Queues.unwrap_eq (h : b.Queues number frames)
    (hbits : (frame.sequence.toNat : Int) = number % 0x10000) :
    b.unwrap frame.sequence = number := by
  unfold unwrap
  rcases h.highest with ⟨hnone, hle, hlt⟩ | hsome
  · rw [hnone]
    show (frame.sequence.toNat : Int) = number
    omega
  · rw [hsome]
    dsimp only
    split
    · omega
    · split <;> omega

theorem Queues.not_due (h : b.Queues number frames) : b.next.any (number < ·) = false := by
  rcases h.next with ⟨hnone, -⟩ | ⟨hsome, -⟩
  · rw [hnone]
    rfl
  · simp [hsome]

theorem Queues.not_holds (h : b.Queues number frames) : b.holds number = false := by
  rw [holds, List.any_eq_false]
  intro e he
  have hlt := (lt_of_mem_numberFrom (h.entries ▸ he)).2
  simp only [beq_iff_eq]
  omega

theorem Queues.room (h : b.Queues number frames) (hdepth : 1 ≤ b.config.targetDepth)
    (hmax : b.config.targetDepth ≤ b.config.maxPackets) :
    frames.length + 1 ≤ b.config.maxPackets := by
  rcases h.next with ⟨-, hlt⟩ | ⟨-, rfl⟩
  · rw [Nat.max_eq_left hdepth] at hlt
    exact Nat.le_trans hlt hmax
  · exact Nat.le_trans hdepth hmax

theorem Queues.place_eq (h : b.Queues number frames) (frame : Frame) :
    place number frame b.entries = numberFrom (number - frames.length) (frames ++ [frame]) := by
  rw [h.entries, ← place_numberFrom]
  exact congrArg (place · frame _) (by omega)

theorem Queues.highestWith_eq (h : b.Queues number frames) : b.highestWith number = number := by
  unfold highestWith
  rcases h.highest with ⟨hnone, -⟩ | hsome
  · rw [hnone]
  · rw [hsome]
    dsimp only
    omega

theorem evict_of_le {b : JitterBuffer} (h : b.entries.length ≤ b.config.maxPackets) :
    b.evict = b := by
  unfold evict
  split
  · rfl
  · exact if_pos h

/-- The next frame is put behind the others, and there is room for it. -/
theorem Queues.push_eq (h : b.Queues number frames)
    (hdepth : 1 ≤ b.config.targetDepth) (hmax : b.config.targetDepth ≤ b.config.maxPackets)
    (hbits : (frame.sequence.toNat : Int) = number % 0x10000) :
    (b.push frame).entries = numberFrom (number - frames.length) (frames ++ [frame]) ∧
      (b.push frame).highest = some number ∧ (b.push frame).next = b.next ∧
      (b.push frame).config = b.config := by
  have hroom : (numberFrom (number - frames.length) (frames ++ [frame])).length ≤
      b.config.maxPackets := by
    rw [length_numberFrom, List.length_append]
    exact h.room hdepth hmax
  unfold push
  simp only [h.unwrap_eq hbits, h.not_due, h.not_holds, h.place_eq, Bool.false_eq_true, if_false]
  rw [evict_of_le hroom]
  exact ⟨rfl, congrArg some h.highestWith_eq, rfl, rfl⟩

/-! ## Letting frames go out -/

theorem due_of_head {rest : List (Int × Frame)} {first : Int}
    (hentries : b.entries = (first, frame) :: rest)
    (h : b.next = some first ∨
      b.next = none ∧ max b.config.targetDepth 1 ≤ b.entries.length) :
    b.due = some first := by
  unfold due
  rcases h with hnext | ⟨hnext, hdeep⟩
  · simp [hnext, holds, hentries]
  · rw [hentries] at hdeep
    simp only [hnext, hentries, if_pos hdeep, List.head?_cons, Option.map_some]

theorem pop_of_head {rest : List Frame} {first : Int}
    (hentries : b.entries = numberFrom first (frame :: rest)) (hdue : b.due = some first) :
    ∃ c, b.pop = some (frame, c) ∧ c.entries = numberFrom (first + 1) rest ∧
      c.next = some (first + 1) ∧ c.highest = b.highest ∧ c.config = b.config := by
  have hkept : b.entries.filter (·.1 != first) = numberFrom (first + 1) rest := by
    rw [hentries, numberFrom, List.filter_cons_of_neg (by simp), List.filter_eq_self]
    intro e he
    have hlt := (lt_of_mem_numberFrom he).1
    simp only [bne_iff_ne]
    omega
  have hfind : b.entries.find? (·.1 == first) = some (first, frame) := by
    rw [hentries, numberFrom, List.find?_cons_of_pos (by simp)]
  unfold pop
  rw [hdue]
  simp only [Option.bind_eq_bind, Option.bind_some, hfind, hkept]
  exact ⟨_, rfl, rfl, rfl, rfl, rfl⟩

theorem pop_of_empty (hentries : b.entries = []) : b.pop = none := by
  have hdue : b.due = none := by
    unfold due
    cases b.next with
    | none => simp [hentries]
    | some next => simp [holds, hentries]
  unfold pop
  rw [hdue]
  rfl

theorem pop_of_gathering (hnext : b.next = none)
    (hshallow : b.entries.length < max b.config.targetDepth 1) : b.pop = none := by
  have hdue : b.due = none := by
    simp only [due, hnext, if_neg (Nat.not_le.mpr hshallow)]
  unfold pop
  rw [hdue]
  rfl

/-- Once the first frame is due, all frames go out. -/
theorem popAll_numberFrom {first : Int} (hentries : b.entries = numberFrom first frames)
    (h : b.next = some first ∨
      b.next = none ∧ max b.config.targetDepth 1 ≤ b.entries.length) :
    b.popAll.1 = frames ∧ b.popAll.2.entries = [] ∧
      b.popAll.2.next = some (first + frames.length) ∧
      b.popAll.2.highest = b.highest ∧ b.popAll.2.config = b.config := by
  induction frames generalizing b first with
  | nil =>
    rw [popAll_of_none (pop_of_empty hentries)]
    refine ⟨rfl, hentries, ?_, rfl, rfl⟩
    rcases h with hnext | ⟨-, hdeep⟩
    · simpa using hnext
    · have hlength := congrArg List.length hentries
      have hone := Nat.le_max_right b.config.targetDepth 1
      simp only [numberFrom, List.length_nil] at hlength
      omega
  | cons frame rest ih =>
    -- once one frame has gone out the next is due by its number, however few are left
    obtain ⟨c, hpop, hrest, hnext, hhighest, hconfig⟩ :=
      pop_of_head hentries (due_of_head hentries h)
    obtain ⟨hout, hempty, hnext', hhighest', hconfig'⟩ := ih hrest (Or.inl hnext)
    rw [popAll_of_some hpop]
    refine ⟨congrArg (frame :: ·) hout, hempty, hnext'.trans ?_, hhighest'.trans hhighest,
      hconfig'.trans hconfig⟩
    simp only [List.length_cons]
    exact congrArg some (by omega)

/-! ## A queue -/

/-- Taking the next frame in keeps a buffer a queue: what it held and that frame are what goes out
and what it holds then. -/
theorem Queues.pass (h : b.Queues number frames)
    (hdepth : 1 ≤ b.config.targetDepth) (hmax : b.config.targetDepth ≤ b.config.maxPackets)
    (hbits : (frame.sequence.toNat : Int) = number % 0x10000) :
    ∃ frames', (b.pass frame).2.Queues (number + 1) frames' ∧
      (b.pass frame).1 ++ frames' = frames ++ [frame] ∧
      (b.pass frame).2.config = b.config := by
  obtain ⟨hentries, hhighest, hnext, hconfig⟩ := h.push_eq hdepth hmax hbits
  unfold JitterBuffer.pass
  by_cases hdue : (b.push frame).next = none ∧
      (b.push frame).entries.length < max (b.push frame).config.targetDepth 1
  case pos =>
    -- still gathering
    obtain ⟨hnone, hshallow⟩ := hdue
    rw [popAll_of_none (pop_of_gathering hnone hshallow)]
    refine ⟨frames ++ [frame], ⟨?_, Or.inr ?_, Or.inl ⟨hnone, ?_⟩⟩, rfl, hconfig⟩
    · rw [hentries, List.length_append, List.length_singleton]
      exact congrArg (numberFrom · _) (by omega)
    · rw [hhighest]
      exact congrArg some (by omega)
    · rwa [hentries, length_numberFrom] at hshallow
  case neg =>
    -- playout goes on, or begins with this frame
    have hready : (b.push frame).next = some (number - frames.length) ∨
        (b.push frame).next = none ∧
          max (b.push frame).config.targetDepth 1 ≤ (b.push frame).entries.length := by
      rw [hnext] at hdue ⊢
      rcases h.next with ⟨hnone, -⟩ | ⟨hsome, rfl⟩
      · exact Or.inr ⟨hnone, Nat.not_lt.mp fun hlt => hdue ⟨hnone, hlt⟩⟩
      · exact Or.inl (by simpa using hsome)
    obtain ⟨hout, hempty, hnext', hhighest', hconfig'⟩ := popAll_numberFrom hentries hready
    refine ⟨[], ⟨hempty, Or.inr ?_, Or.inr ⟨?_, rfl⟩⟩, ?_, hconfig'.trans hconfig⟩
    · rw [hhighest', hhighest]
      exact congrArg some (by omega)
    · rw [hnext', List.length_append, List.length_singleton]
      exact congrArg some (by omega)
    · rw [hout, List.append_nil]

theorem Queues.passAll (h : b.Queues number frames)
    (hdepth : 1 ≤ b.config.targetDepth) (hmax : b.config.targetDepth ≤ b.config.maxPackets)
    {sequence : UInt16} (hbits : (sequence.toNat : Int) = number % 0x10000) {given : List Frame}
    (hgiven : Consecutive sequence given) : b.playThrough given = frames ++ given := by
  induction given generalizing b number frames sequence with
  | nil =>
    show [] ++ b.entries.map (·.2) = frames ++ []
    rw [h.entries, map_snd_numberFrom, List.append_nil, List.nil_append]
  | cons frame rest ih =>
    obtain ⟨rfl, hrest⟩ := hgiven
    obtain ⟨frames', hqueues, hout, hconfig⟩ := h.pass hdepth hmax hbits
    have hbits' : ((frame.sequence + 1).toNat : Int) = (number + 1) % 0x10000 := by
      rw [UInt16.toNat_add]
      show (((frame.sequence.toNat + 1) % 65536 : Nat) : Int) = _
      omega
    have hrun := ih hqueues (hconfig ▸ hdepth) (hconfig ▸ hmax) hbits' hrest
    calc b.playThrough (frame :: rest)
        = (b.pass frame).1 ++ (b.pass frame).2.playThrough rest :=
          List.append_assoc _ _ _
      _ = ((b.pass frame).1 ++ frames') ++ rest := by
          rw [hrun, List.append_assoc]
      _ = frames ++ frame :: rest := by
          rw [hout, List.append_assoc]
          rfl

/-- **Frames that come in their turn all come out.** A buffer that may hold as many frames as it
waits for plays every list of frames with consecutive numbers, whatever number the first has. -/
theorem playThrough_eq (config : JitterConfig) (hdepth : 1 ≤ config.targetDepth)
    (hmax : config.targetDepth ≤ config.maxPackets) {sequence : UInt16} {frames : List Frame}
    (h : Consecutive sequence frames) : (new config).playThrough frames = frames := by
  have hlt := sequence.toNat_lt
  exact (queues_new config sequence).passAll hdepth hmax (by omega) h

end JitterBuffer

end Parley.Rtp
