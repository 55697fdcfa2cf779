import Parley.Proofs.Rtp.Reordering

/-!
# `Parley/Proofs/Rtp/Books.lean` — a jitter buffer keeps its books

A jitter buffer counts the frames that it takes in, and what becomes of each of them. Whatever is
done with it, the counts add up, and it never holds more than it may (`Balanced`). It keeps frames
back for as long only as it is not deep and waits for one that is missing, so that a missing frame
holds up fewer frames than the buffer waits for (`pop_eq_none_iff`).
-/

set_option autoImplicit false

namespace Parley.Rtp

namespace JitterBuffer

variable {b c : JitterBuffer} {frame : Frame}

/-! ## What an operation does to the counts -/

/-- The oldest frame of a buffer that holds too many is counted as dropped, and nothing else is. -/
theorem counts_evict (b : JitterBuffer) :
    b.evict.config = b.config ∧ b.evict.stats.received = b.stats.received ∧
      b.evict.stats.played = b.stats.played ∧ b.evict.stats.lost = b.stats.lost := by
  unfold evict
  split
  · exact ⟨rfl, rfl, rfl, rfl⟩
  · split <;> exact ⟨rfl, rfl, rfl, rfl⟩

theorem size_evict_le (h : b.size ≤ b.config.maxPackets + 1) :
    b.evict.size ≤ b.config.maxPackets := by
  unfold evict
  split
  · rename_i hentries
    simp [size, hentries]
  · rename_i oldest frame rest hentries
    split
    · assumption
    · simp only [size, hentries, List.length_cons] at h
      show rest.length ≤ _
      omega

/-- A frame that is taken in is counted, whatever becomes of it. -/
theorem counts_push (b : JitterBuffer) (frame : Frame) :
    (b.push frame).config = b.config ∧
      (b.push frame).stats.received = b.stats.received + 1 ∧
      (b.push frame).stats.played = b.stats.played ∧
      (b.push frame).stats.lost = b.stats.lost := by
  unfold push
  dsimp only
  split
  · exact ⟨rfl, rfl, rfl, rfl⟩
  · split
    · exact ⟨rfl, rfl, rfl, rfl⟩
    · exact counts_evict _

theorem depth_push (h : b.stats.depth = b.size) (frame : Frame) :
    (b.push frame).stats.depth = (b.push frame).size := by
  unfold push
  dsimp only
  split
  · exact h
  · split
    · exact h
    · rfl

theorem size_push_le (h : b.size ≤ b.config.maxPackets) (frame : Frame) :
    (b.push frame).size ≤ b.config.maxPackets := by
  unfold push
  dsimp only
  split
  · exact h
  · split
    · exact h
    · refine size_evict_le ?_
      show (place _ frame b.entries).length ≤ _
      rw [length_place]
      exact Nat.succ_le_succ h

/-- A frame that goes out is counted as played. -/
theorem counts_pop (h : b.pop = some (frame, c)) :
    c.config = b.config ∧ c.stats.received = b.stats.received ∧
      c.stats.played = b.stats.played + 1 ∧ c.stats.depth = c.size := by
  simp only [pop, Option.bind_eq_bind, Option.bind_eq_some_iff, Option.pure_def,
    Option.some.injEq, Prod.mk.injEq] at h
  obtain ⟨number, -, entry, -, -, rfl⟩ := h
  exact ⟨rfl, rfl, rfl, rfl⟩

theorem size_eq_length_held (b : JitterBuffer) : b.size = b.held.length := by
  simp [size, held]

/-! ## The books -/

/-- The books of a buffer are right: each frame taken in was played, was thrown away or is held, and
those that are held are as many as is said, and no more than may be. -/
structure Balanced (b : JitterBuffer) : Prop where
  ordered : b.Ordered
  received : b.stats.received = b.stats.played + b.discarded + b.size
  depth : b.stats.depth = b.size
  room : b.size ≤ b.config.maxPackets

theorem balanced_new (config : JitterConfig) : (new config).Balanced := by
  constructor
  case ordered => exact ordered_new config
  case received => rfl
  case depth => rfl
  case room => exact Nat.zero_le _

theorem Balanced.push (h : b.Balanced) (frame : Frame) : (b.push frame).Balanced := by
  obtain ⟨hconfig, hreceived, hplayed, -⟩ := counts_push b frame
  have hkept := (keeps_push b frame).count
  have hbooks := h.received
  rw [List.length_append, List.length_singleton] at hkept
  constructor
  case ordered => exact ordered_push h.ordered frame
  case received =>
    rw [size_eq_length_held] at hbooks ⊢
    omega
  case depth => exact depth_push h.depth frame
  case room => exact hconfig ▸ size_push_le h.room frame

theorem Balanced.pop (h : b.Balanced) (hpop : b.pop = some (frame, c)) : c.Balanced := by
  obtain ⟨hconfig, hreceived, hplayed, hdepth⟩ := counts_pop hpop
  obtain ⟨_, -, -, hordered, -⟩ := ordered_pop h.ordered hpop
  have hreleases := releases_pop h.ordered hpop
  have hlength := hreleases.perm.length_eq
  have hdiscarded := hreleases.discarded
  have hbooks := h.received
  have hroom := h.room
  rw [List.length_append, List.length_singleton] at hlength
  rw [size_eq_length_held] at hbooks hroom
  constructor
  case ordered => exact hordered
  case received =>
    rw [size_eq_length_held]
    omega
  case depth => exact hdepth
  case room =>
    rw [size_eq_length_held, hconfig]
    omega

theorem Balanced.drain (h : b.Balanced) : b.drain.2.Balanced := by
  have hbooks := h.received
  constructor
  case ordered => exact (ordered_drain h.ordered).1
  case received =>
    show b.stats.received = b.stats.played + b.entries.length + b.discarded + 0
    rw [size] at hbooks
    omega
  case depth => rfl
  case room => exact Nat.zero_le _

/-! ## When nothing goes out -/

/-- No frame goes out exactly if the buffer is not deep and the frame that is next, once playout has
begun, is not there. -/
theorem pop_eq_none_iff :
    b.pop = none ↔
      b.size < max b.config.targetDepth 1 ∧ ∀ n ∈ b.next, b.holds n = false := by
  constructor
  · intro h
    refine ⟨length_lt_of_pop_eq_none h, fun n hn => ?_⟩
    rw [← Bool.not_eq_true]
    intro hholds
    obtain ⟨e, he, hkey⟩ := List.any_eq_true.mp hholds
    have hdue : b.due = some n := by
      rw [due, Option.mem_def.mp hn]
      exact if_pos hholds
    -- the frame is due and there, so that it would go out
    simp only [JitterBuffer.pop, hdue, Option.bind_eq_bind, Option.bind_some,
      Option.bind_eq_none_iff] at h
    cases hfind : b.entries.find? (·.1 == n) with
    | none => exact List.find?_eq_none.mp hfind e he hkey
    | some entry => cases h entry hfind
  · rintro ⟨hshallow, hmissing⟩
    have hdue : b.due = none := by
      have hnot : ¬ max b.config.targetDepth 1 ≤ b.entries.length := Nat.not_le.mpr hshallow
      rw [due, if_neg hnot]
      cases hnext : b.next with
      | none => rfl
      | some n => exact if_neg (by rw [hmissing n hnext]; exact Bool.false_ne_true)
    rw [JitterBuffer.pop, hdue]
    rfl

def Use.isPush : Use → Bool
  | .push _ _ => true
  | .pop | .drain => false

end JitterBuffer

namespace Playout

open JitterBuffer

/-- What a playout has counted so far is what was done: frames were taken in, and frames came out. -/
structure Counted (p : Playout) (uses : List Use) (config : JitterConfig) : Prop where
  balanced : p.buffer.Balanced
  config : p.buffer.config = config
  received : p.buffer.stats.received = uses.countP Use.isPush
  played : p.buffer.stats.played = p.released.length

theorem Counted.step {p : Playout} {uses : List Use} {config : JitterConfig}
    (h : p.Counted uses config) (u : Use) : (p.step u).Counted (uses ++ [u]) config := by
  have hreceived := h.received
  have hplayed := h.played
  have hcount : (uses ++ [u]).countP Use.isPush =
      uses.countP Use.isPush + if u.isPush then 1 else 0 := by
    rw [List.countP_append, List.countP_singleton]
  cases u with
  | push number frame =>
    obtain ⟨hconfig, htaken, hsame, -⟩ := counts_push p.buffer frame
    refine ⟨h.balanced.push frame, hconfig.trans h.config, ?_, hsame.trans hplayed⟩
    rw [hcount]
    exact htaken.trans (congrArg (· + 1) hreceived)
  | pop =>
    have hreceived' := hreceived.trans hcount.symm
    rw [Playout.step]
    cases hpop : p.buffer.pop with
    | none => exact ⟨h.balanced, h.config, hreceived', hplayed⟩
    | some out =>
      obtain ⟨frame, buffer⟩ := out
      obtain ⟨hconfig, hsame, hout, -⟩ := counts_pop hpop
      refine ⟨h.balanced.pop hpop, hconfig.trans h.config, hsame.trans hreceived', ?_⟩
      show buffer.stats.played = (p.released ++ [frame]).length
      rw [List.length_append, List.length_singleton, hout, hplayed]
  | drain =>
    refine ⟨h.balanced.drain, h.config, hreceived.trans hcount.symm, ?_⟩
    show p.buffer.stats.played + p.buffer.entries.length =
      (p.released ++ p.buffer.entries.map (·.2)).length
    rw [List.length_append, List.length_map, hplayed]

theorem counted_run (config : JitterConfig) (uses : List Use) :
    ((fresh config).run uses).Counted uses config := by
  induction uses using List.reverseRecOn with
  | nil => exact ⟨balanced_new config, rfl, rfl, rfl⟩
  | append_singleton uses u ih =>
    rw [run_concat]
    exact ih.step u

/-- **A jitter buffer keeps its books.** Whatever was done with it, each frame that it took in was
played, was thrown away, came twice or is held; it knows how many it holds, and these are no more
than it may hold. No frame goes out exactly if fewer are held than the buffer waits for and the one
that is next is missing; all that are held come later then. -/
theorem keeps_books (config : JitterConfig) (uses : List Use) :
    let p := (fresh config).run uses
    let b := p.buffer
    (b.stats.received = b.stats.played + b.stats.dropped + b.stats.duplicate + b.size ∧
      b.stats.received = uses.countP Use.isPush ∧ b.stats.played = p.released.length) ∧
    (b.stats.depth = b.size ∧ b.size ≤ config.maxPackets) ∧
    (b.pop = none ↔
      b.size < max config.targetDepth 1 ∧ ∀ n ∈ b.next, b.holds n = false) ∧
    ∀ n ∈ b.next, ∀ e ∈ b.entries, n ≤ e.1 := by
  intro p b
  obtain ⟨⟨hordered, hbooks, hdepth, hroom⟩, hconfig, hreceived, hplayed⟩ :=
    counted_run config uses
  refine ⟨⟨?_, hreceived, hplayed⟩, ⟨hdepth, hconfig ▸ hroom⟩, hconfig ▸ pop_eq_none_iff,
    hordered.due⟩
  rw [hbooks, discarded, ← Nat.add_assoc]

end Playout

end Parley.Rtp
