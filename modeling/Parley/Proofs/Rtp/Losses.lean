import Mathlib.Data.Int.Range
import Mathlib.Data.List.Basic
import Parley.Proofs.Rtp.Books

/-!
# `Parley/Proofs/Rtp/Losses.lean` — the numbers that playout moves past

Playout moves on from number to number. A number that it moves past is that of a frame released, of
a frame pushed out because too many were held, or of a frame that did not come in time. The last are
to be counted as lost. They are when a frame goes out over a gap. They are not when a gap is left
behind because the oldest frame after it is pushed out, or because the buffer is drained: such
numbers are `overlooked`, and the count of the lost is right exactly as long as there are none
(`accountsForLosses_iff`).

Frames are told apart by the numbers that the buffer gives them.
-/

set_option autoImplicit false

namespace Parley.Rtp

namespace JitterBuffer

/-! ## What a use of a buffer moves -/

def after (b : JitterBuffer) : Use → JitterBuffer
  | .push _ frame => b.push frame
  | .pop => (b.pop.map (·.2)).getD b
  | .drain => b.drain.2

/-- What is put among the entries. -/
def entering (b : JitterBuffer) : Use → List (Int × Frame)
  | .push _ frame => if b.admits frame then [(b.unwrap frame.sequence, frame)] else []
  | .pop | .drain => []

/-- What was among the entries, or is put there, and is not there any more. -/
def leaving (b : JitterBuffer) (u : Use) : List (Int × Frame) :=
  (b.entering u ++ b.entries).filter fun e => !(b.after u).holds e.1

/-- Where playout stands: at the number to play next; before it has begun, at the oldest entry. -/
def stand (b : JitterBuffer) : Option Int := b.next.or (b.entries.head?.map (·.1))

/-- The numbers that playout moves past while nothing leaves that has them. -/
def skipped (b : JitterBuffer) (u : Use) : List Int :=
  match b.stand, (b.after u).next with
  | some m, some n => (Int.range m n).filter fun k => !((b.leaving u).map (·.1)).contains k
  | _, _ => []

variable {b c : JitterBuffer} {frame : Frame} {u : Use} {number m n : Int}

theorem mem_leaving {e : Int × Frame} :
    e ∈ b.leaving u ↔
      (e ∈ b.entering u ∨ e ∈ b.entries) ∧ ∀ e' ∈ (b.after u).entries, e'.1 ≠ e.1 := by
  rw [leaving, List.mem_filter, List.mem_append, Bool.not_eq_true', holds_eq_false_iff]

/-- No two entries that leave have the same number. -/
theorem nodup_leaving (h : b.Ordered) (u : Use) : ((b.leaving u).map (·.1)).Nodup := by
  have hheld : (b.entries.map (·.1)).Nodup :=
    List.pairwise_map.mpr (h.increasing.imp Int.ne_of_lt)
  have hall : ((b.entering u ++ b.entries).map (·.1)).Nodup := by
    cases u with
    | pop => exact hheld
    | drain => exact hheld
    | push number frame =>
      rw [entering]
      split
      · rename_i hadmits
        have hnew : ∀ e ∈ b.entries, e.1 ≠ b.unwrap frame.sequence := by
          rw [← holds_eq_false_iff]
          simp only [admits, Bool.and_eq_true, Bool.not_eq_true'] at hadmits
          exact hadmits.2
        refine List.nodup_cons.mpr ⟨fun hmem => ?_, hheld⟩
        obtain ⟨e, he, hkey⟩ := List.mem_map.mp hmem
        exact hnew e he hkey
      · exact hheld
  exact hall.sublist (List.filter_sublist.map _)

/-- Playout moves from one number to another, past all that leaves. -/
structure Crosses (b : JitterBuffer) (u : Use) (m n : Int) : Prop where
  stand : b.stand = some m
  next : (b.after u).next = some n
  le : m ≤ n
  within : ∀ e ∈ b.leaving u, m ≤ e.1 ∧ e.1 < n

/-- The numbers moved past are those that leave and those that are skipped. -/
theorem Crosses.count (h : b.Crosses u m n) (hordered : b.Ordered) :
    n - m = (b.leaving u).length + (b.skipped u).length := by
  have hleft : ((Int.range m n).filter ((b.leaving u).map (·.1)).contains).Perm
      ((b.leaving u).map (·.1)) := by
    have hnodup : (Int.range m n).Nodup := List.nodup_range.map fun i j h => by omega
    refine (List.perm_ext_iff_of_nodup (hnodup.filter _) (nodup_leaving hordered u)).mpr
      fun k => ?_
    rw [List.mem_filter, List.contains_iff_mem, Int.mem_range_iff, and_iff_right_iff_imp]
    intro hk
    obtain ⟨e, he, rfl⟩ := List.mem_map.mp hk
    exact h.within e he
  have hskipped : b.skipped u =
      (Int.range m n).filter fun k => !((b.leaving u).map (·.1)).contains k := by
    simp only [skipped, h.stand, h.next]
  have hsplit := List.length_eq_length_filter_add (l := Int.range m n)
    ((b.leaving u).map (·.1)).contains
  rw [hleft.length_eq, List.length_map, ← hskipped, Int.range, List.length_map,
    List.length_range] at hsplit
  have hle := h.le
  omega

/-! ## Taking a frame in -/

/-- The oldest entry leaves, if any does, and what is due moves past it. -/
theorem evict_leaves (h : b.Ordered) :
    ∃ out, b.entries = out ++ b.evict.entries ∧
      (b.next = none → b.evict.next = none) ∧
      ∀ n ∈ b.next, ∃ n' ∈ b.evict.next, n ≤ n' ∧ ∀ e ∈ out, n ≤ e.1 ∧ e.1 < n' := by
  have stays : ∃ out, b.entries = out ++ b.entries ∧ (b.next = none → b.next = none) ∧
      ∀ n ∈ b.next, ∃ n' ∈ b.next, n ≤ n' ∧ ∀ e ∈ out, n ≤ e.1 ∧ e.1 < n' := by
    refine ⟨[], rfl, id, fun n hn => ⟨n, hn, Int.le_refl n, ?_⟩⟩
    simp
  unfold evict
  split
  · exact stays
  · rename_i oldest frame rest hentries
    split
    · exact stays
    · refine ⟨[(oldest, frame)], hentries, ?_, fun n hn => ?_⟩
      · intro hnone
        show b.next.map _ = none
        rw [hnone]
        rfl
      · have hdue : n ≤ oldest := h.due n hn (oldest, frame) (hentries ▸ List.mem_cons_self)
        refine ⟨oldest + 1, ?_, by omega, ?_⟩
        · show b.next.map _ = some (oldest + 1)
          rw [Option.mem_def.mp hn, Option.map_some, if_pos hdue]
        · intro e he
          obtain rfl := List.mem_singleton.mp he
          exact ⟨hdue, by show oldest < oldest + 1; omega⟩

/-- Of the entries and the one that is put among them at most the oldest leaves. -/
theorem crosses_push (h : b.Ordered) (hn : n ∈ b.next) (number : Int) (frame : Frame) :
    ∃ n', b.Crosses (.push number frame) n n' := by
  have hstand : b.stand = some n := by rw [stand, Option.mem_def.mp hn]; rfl
  cases hadmits : b.admits frame with
  | false =>
    obtain ⟨hentries, hnext, -⟩ := push_of_not_admits hadmits
    refine ⟨n, hstand, hnext.trans hn, Int.le_refl n, fun e he => ?_⟩
    -- all that was there is there still
    obtain ⟨hmem, hgone⟩ := mem_leaving.mp he
    rw [show (b.after (.push number frame)).entries = b.entries from hentries] at hgone
    rcases hmem with hmem | hmem
    · simp [entering, hadmits] at hmem
    · exact absurd rfl (hgone e hmem)
  | true =>
    obtain ⟨out, hentries, -, hcrosses⟩ := evict_leaves (ordered_withEntry h hadmits)
    obtain ⟨n', hn', hle, hout⟩ := hcrosses n hn
    have hafter : b.after (.push number frame) = b.push frame := rfl
    rw [push_eq_of_admits hadmits] at hafter
    refine ⟨n', hstand, by rw [hafter]; exact hn', hle, fun e he => ?_⟩
    obtain ⟨hmem, hgone⟩ := mem_leaving.mp he
    rw [hafter] at hgone
    have hplaced : e ∈ (b.withEntry frame).entries := by
      refine mem_place.mpr ?_
      simpa [entering, hadmits] using hmem
    rw [hentries] at hplaced
    rcases List.mem_append.mp hplaced with hleft | hheld
    · exact hout e hleft
    · exact absurd rfl (hgone e hheld)

theorem next_push_eq_none (h : b.Ordered) (hnone : b.next = none) (frame : Frame) :
    (b.push frame).next = none := by
  cases hadmits : b.admits frame with
  | false => exact (push_of_not_admits hadmits).2.1.trans hnone
  | true =>
    obtain ⟨_, -, hnext, -⟩ := evict_leaves (ordered_withEntry h hadmits)
    rw [push_eq_of_admits hadmits]
    exact hnext hnone

/-! ## Letting frames go out -/

/-- What goes out is what is due, and nothing else leaves. -/
theorem leaving_pop (h : b.Ordered) (hpop : b.pop = some (frame, c)) :
    ∃ number, b.leaving .pop = [(number, frame)] ∧ b.due = some number ∧
      c.next = some (number + 1) ∧
      c.stats.lost = b.stats.lost + b.next.elim 0 fun next => (number - next).toNat := by
  obtain ⟨number, hdue, hperm, hnext, -, -, -, hlost⟩ := pop_eq_some h hpop
  obtain ⟨_, -, -, hordered, -⟩ := ordered_pop h hpop
  have hafter : b.after .pop = c := by rw [after, hpop]; rfl
  have hnew : c.holds number = false := by
    refine holds_eq_false_iff.mpr fun e he => ?_
    have hle := hordered.due _ hnext e he
    omega
  have hstay : c.entries.filter (fun e => !c.holds e.1) = [] := by
    refine List.filter_eq_nil_iff.mpr fun e he => ?_
    simpa [holds] using ⟨e.2, he⟩
  have hleaving : (b.leaving .pop).Perm [(number, frame)] := by
    rw [leaving, hafter]
    have hfilter := hperm.filter fun e => !c.holds e.1
    rw [List.filter_cons_of_pos (by simpa using hnew), hstay] at hfilter
    exact hfilter
  exact ⟨number, List.perm_singleton.mp hleaving, hdue, hnext, hlost⟩

/-- Where nothing goes out, nothing changes. -/
theorem leaving_pop_of_none (hpop : b.pop = none) : b.after .pop = b ∧ b.leaving .pop = [] := by
  have hafter : b.after .pop = b := by rw [after, hpop]; rfl
  refine ⟨hafter, List.eq_nil_iff_forall_not_mem.mpr fun e he => ?_⟩
  obtain ⟨hmem, hgone⟩ := mem_leaving.mp he
  rw [hafter] at hgone
  exact hgone e (hmem.resolve_left List.not_mem_nil) rfl

theorem leaving_drain (b : JitterBuffer) : b.leaving .drain = b.entries :=
  List.filter_eq_self.mpr fun _ _ => rfl

/-- All that is held lies from where playout stands up to the highest number. -/
theorem stand_spec (h : b.Ordered) (hstand : b.stand = some m) :
    (∀ e ∈ b.entries, m ≤ e.1) ∧ ∃ highest ∈ b.highest, m ≤ highest + 1 := by
  cases hnext : b.next with
  | some next =>
    obtain rfl : next = m := by simpa [stand, hnext] using hstand
    exact ⟨h.due next hnext, h.next next hnext⟩
  | none =>
    have hhead : b.entries.head?.map (·.1) = some m := by simpa [stand, hnext] using hstand
    obtain ⟨entry, hentry, rfl⟩ := Option.map_eq_some_iff.mp hhead
    obtain ⟨highest, hhighest, hbelow⟩ := h.below entry (List.mem_of_mem_head? hentry)
    exact ⟨(le_of_head? h hhead).2, highest, hhighest, by omega⟩

/-- A drain takes playout past all that is held. -/
theorem crosses_drain (h : b.Ordered) (hstand : b.stand = some m) :
    ∃ n, b.Crosses .drain m n := by
  obtain ⟨hlow, highest, hhighest, hle⟩ := stand_spec h hstand
  have hafter : (b.after .drain).next = some (highest + 1) := by
    show (b.highest.map (· + 1)).or b.next = _
    rw [Option.mem_def.mp hhighest]
    rfl
  refine ⟨highest + 1, hstand, hafter, hle, fun e he => ?_⟩
  rw [leaving_drain] at he
  obtain ⟨highest', hmem, hbelow⟩ := h.below e he
  obtain rfl := Option.mem_unique hhighest hmem
  exact ⟨hlow e he, by omega⟩

/-! ## The highest number -/

/-- The highest number is held, or playout is just past it. (A buffer that may hold nothing has
neither before playout has begun.) -/
def Topped (b : JitterBuffer) : Prop :=
  ∀ highest ∈ b.highest, (∃ e ∈ b.entries, e.1 = highest) ∨ b.next = some (highest + 1) ∨
    b.next = none ∧ b.config.maxPackets = 0

theorem topped_evict (h : b.Ordered) {e : Int × Frame} (he : e ∈ b.entries)
    (htop : b.highest = some e.1) : b.evict.Topped := by
  have stays : b.Topped := fun highest hmem =>
    Or.inl ⟨e, he, Option.some.inj (htop.symm.trans hmem)⟩
  unfold evict
  split
  · exact stays
  · rename_i oldest frame rest hentries
    split
    · exact stays
    · rename_i hmany
      intro highest hmem
      obtain rfl := Option.some.inj (htop.symm.trans hmem)
      rw [hentries] at he
      rcases List.mem_cons.mp he with rfl | he
      · -- the highest is the oldest, so that it was the only one
        have hrest : rest = [] := by
          refine List.eq_nil_iff_forall_not_mem.mpr fun e' he' => ?_
          have hlt := (List.pairwise_cons.mp (hentries ▸ h.increasing)).1 e' he'
          obtain ⟨highest', hmem', hle⟩ :=
            h.below e' (hentries ▸ List.mem_cons_of_mem _ he')
          obtain rfl := Option.mem_unique hmem' hmem
          omega
        cases hnext : b.next with
        | some next =>
          have hdue := h.due next hnext (oldest, frame) (hentries ▸ List.mem_cons_self)
          refine Or.inr (Or.inl ?_)
          rw [Option.map_some, if_pos hdue]
        | none =>
          refine Or.inr (Or.inr ⟨rfl, ?_⟩)
          rw [hentries, hrest] at hmany
          simp only [List.length_singleton] at hmany
          show b.config.maxPackets = 0
          omega
      · exact Or.inl ⟨e, he, rfl⟩

/-- The highest number that was held or is put among the entries is there, if the one before was. -/
theorem Topped.withEntry (h : b.Topped) (hadmits : b.admits frame = true) :
    (∃ e ∈ (b.withEntry frame).entries, (b.withEntry frame).highest = some e.1) ∨
      b.next = none ∧ b.config.maxPackets = 0 := by
  have hintime := (admits_iff.mp hadmits).1
  have placed : (b.unwrap frame.sequence, frame) ∈ (b.withEntry frame).entries :=
    mem_place.mpr (Or.inl rfl)
  have stays : ∀ e ∈ b.entries, e ∈ (b.withEntry frame).entries := fun e he =>
    mem_place.mpr (Or.inr he)
  cases hhighest : b.highest with
  | none =>
    refine Or.inl ⟨_, placed, congrArg some ?_⟩
    rw [highestWith, hhighest]
  | some highest =>
    have hwith : (b.withEntry frame).highest = some (max highest (b.unwrap frame.sequence)) := by
      show some (b.highestWith _) = _
      rw [highestWith, hhighest]
    rw [hwith]
    rcases h highest hhighest with ⟨e, he, rfl⟩ | hnext | hnone
    · rcases Int.le_total e.1 (b.unwrap frame.sequence) with hle | hle
      · exact Or.inl ⟨_, placed, congrArg some (Int.max_eq_right hle)⟩
      · exact Or.inl ⟨e, stays e he, congrArg some (Int.max_eq_left hle)⟩
    · have hle := hintime _ hnext
      exact Or.inl ⟨_, placed, congrArg some (Int.max_eq_right (by omega))⟩
    · exact Or.inr hnone

theorem Topped.push (h : b.Topped) (hordered : b.Ordered) (frame : Frame) :
    (b.push frame).Topped := by
  cases hadmits : b.admits frame with
  | false =>
    obtain ⟨hentries, hnext, hhighest⟩ := push_of_not_admits hadmits
    intro highest hmem
    rw [hentries, hnext, (counts_push b frame).1]
    exact h highest (hhighest ▸ hmem)
  | true =>
    rcases h.withEntry hadmits with ⟨e, he, htop⟩ | ⟨hnone, hempty⟩
    · rw [push_eq_of_admits hadmits]
      exact topped_evict (ordered_withEntry hordered hadmits) he htop
    · intro highest _
      rw [(counts_push b frame).1]
      exact Or.inr (Or.inr ⟨next_push_eq_none hordered hnone frame, hempty⟩)

theorem Topped.pop (h : b.Topped) (hbalanced : b.Balanced) (hpop : b.pop = some (frame, c)) :
    c.Topped := by
  obtain ⟨number, -, hperm, hnext, -⟩ := pop_eq_some hbalanced.ordered hpop
  obtain ⟨_, -, -, -, -, hhighest, -⟩ := ordered_pop hbalanced.ordered hpop
  have hout : (number, frame) ∈ b.entries := hperm.mem_iff.mpr List.mem_cons_self
  intro highest hmem
  rw [hhighest] at hmem
  rcases h highest hmem with ⟨e, he, rfl⟩ | hdue | ⟨-, hempty⟩
  · rcases List.mem_cons.mp (hperm.subset he) with rfl | he
    · exact Or.inr (Or.inl hnext)
    · exact Or.inl ⟨e, he, rfl⟩
  · -- all that is held is past the highest, so nothing is
    have hle := hbalanced.ordered.due _ hdue _ hout
    obtain ⟨highest', hmem', hbelow⟩ := hbalanced.ordered.below _ hout
    obtain rfl := Option.mem_unique hmem hmem'
    omega
  · have hlength := List.length_pos_of_mem hout
    have hroom := hbalanced.room
    rw [size] at hroom
    omega

theorem topped_drain (b : JitterBuffer) : b.drain.2.Topped := by
  intro highest hmem
  refine Or.inr (Or.inl ?_)
  show (b.highest.map (· + 1)).or b.next = _
  rw [show b.highest = some highest from hmem]
  rfl

end JitterBuffer

/-- A buffer in use, with what has left it. -/
structure Ledger where
  buffer : JitterBuffer
  /-- What went out, in order, under the buffer's numbers. -/
  released : List (Int × Frame) := []
  /-- What was pushed out after the first frame went out. -/
  evicted : List (Int × Frame) := []
  /-- The numbers that playout moved past, after the first frame went out, in taking a frame in or in
  a drain, while no frame left that has them. -/
  overlooked : List Int := []

namespace Ledger

open JitterBuffer

def step (l : Ledger) (u : Use) : Ledger :=
  let buffer := l.buffer.after u
  let out := l.buffer.leaving u
  match u with
  | .push _ _ =>
    if l.released.isEmpty then { l with buffer }
    else
      { l with
        buffer
        evicted := l.evicted ++ out
        overlooked := l.overlooked ++ l.buffer.skipped u }
  | .pop => { l with buffer, released := l.released ++ out }
  | .drain =>
    { l with
      buffer
      released := l.released ++ out
      overlooked := l.overlooked ++ l.buffer.skipped u }

def run (l : Ledger) (uses : List Use) : Ledger := uses.foldl step l

def fresh (config : JitterConfig) : Ledger := { buffer := .new config }

/-- The number of the first frame that went out. -/
def first (l : Ledger) : Option Int := l.released.head?.map (·.1)

/-- As far as playout has come from the first frame that went out, each number that it moved past is
that of a frame which went out or was pushed out, or is counted as lost. -/
def AccountsForLosses (l : Ledger) : Prop :=
  ∀ s ∈ l.first, ∀ n ∈ l.buffer.next,
    n - s = l.released.length + l.buffer.stats.lost + l.evicted.length

/-- How far playout has come from the first frame that went out, told by what became of each number
on the way. -/
structure Reckons (l : Ledger) : Prop where
  balanced : l.buffer.Balanced
  topped : l.buffer.Topped
  /-- Before the first frame goes out nothing is told, and playout stands nowhere. -/
  waiting : l.released = [] → l.buffer.stats.lost = 0 ∧ l.evicted = [] ∧ l.overlooked = [] ∧
    (l.buffer.next = none ∨ l.buffer.config.maxPackets = 0)
  advance : ∀ s ∈ l.first, ∃ n ∈ l.buffer.next,
    n - s = l.released.length + l.buffer.stats.lost + l.evicted.length + l.overlooked.length

variable {l : Ledger}

theorem reckons_fresh (config : JitterConfig) : (fresh config).Reckons := by
  constructor
  case balanced => exact balanced_new config
  case topped => simp [Topped, fresh, JitterBuffer.new]
  case waiting => exact fun _ => ⟨rfl, rfl, rfl, Or.inl rfl⟩
  case advance => simp [first, fresh]

/-- Nothing can go out of a buffer that may hold nothing. -/
theorem Reckons.next_eq_none (h : l.Reckons) (hwaiting : l.released = [])
    (hheld : l.buffer.entries ≠ []) : l.buffer.next = none := by
  refine (h.waiting hwaiting).2.2.2.resolve_right fun hempty => ?_
  have hroom := h.balanced.room
  have hpos := List.length_pos_of_ne_nil hheld
  rw [size] at hroom
  omega

theorem Reckons.push (h : l.Reckons) (number : Int) (frame : Frame) :
    (l.step (.push number frame)).Reckons := by
  have hbalanced := h.balanced.push frame
  have htopped := h.topped.push h.balanced.ordered frame
  obtain ⟨hconfig, -, -, hlost⟩ := counts_push l.buffer frame
  cases hreleased : l.released with
  | nil =>
    have hstep : l.step (.push number frame) = { l with buffer := l.buffer.push frame } := by
      simp only [step, hreleased]
      rfl
    obtain ⟨hzero, hevicted, hoverlooked, hnext⟩ := h.waiting hreleased
    rw [hstep]
    refine ⟨hbalanced, htopped, fun _ => ⟨hlost.trans hzero, hevicted, hoverlooked, ?_⟩, ?_⟩
    · rcases hnext with hnone | hempty
      · exact Or.inl (next_push_eq_none h.balanced.ordered hnone frame)
      · exact Or.inr (hconfig.symm ▸ hempty)
    · intro s hs
      simp [first, hreleased] at hs
  | cons e rest =>
    have hstep : l.step (.push number frame) =
        { l with
          buffer := l.buffer.push frame
          evicted := l.evicted ++ l.buffer.leaving (.push number frame)
          overlooked := l.overlooked ++ l.buffer.skipped (.push number frame) } := by
      simp only [step, hreleased]
      rfl
    rw [hstep]
    refine ⟨hbalanced, htopped, fun hnil => ?_, fun s hs => ?_⟩
    · exact absurd (hreleased.symm.trans hnil) (by simp)
    · obtain ⟨n, hn, hadvance⟩ := h.advance s hs
      obtain ⟨n', hcrosses⟩ := crosses_push h.balanced.ordered hn number frame
      have hcount := hcrosses.count h.balanced.ordered
      refine ⟨n', hcrosses.next, ?_⟩
      dsimp only
      rw [hlost, List.length_append, List.length_append]
      omega

theorem Reckons.pop (h : l.Reckons) : (l.step .pop).Reckons := by
  cases hpop : l.buffer.pop with
  | none =>
    obtain ⟨hafter, hleaving⟩ := leaving_pop_of_none hpop
    have hstep : l.step .pop = l := by
      simp only [step, hafter, hleaving, List.append_nil]
    rw [hstep]
    exact h
  | some out =>
    obtain ⟨frame, c⟩ := out
    obtain ⟨number, hleaving, hdue, hnext, hlost⟩ := leaving_pop h.balanced.ordered hpop
    have hafter : l.buffer.after .pop = c := by rw [after, hpop]; rfl
    have hstep : l.step .pop =
        { l with buffer := c, released := l.released ++ [(number, frame)] } := by
      simp only [step, hafter, hleaving]
    rw [hstep]
    refine ⟨h.balanced.pop hpop, h.topped.pop h.balanced hpop, fun hnil => ?_, fun s hs => ?_⟩
    · exact absurd hnil (by simp)
    · refine ⟨number + 1, hnext, ?_⟩
      dsimp only
      rw [hlost, List.length_append, List.length_singleton]
      cases hreleased : l.released with
      | nil =>
        -- the first frame to go out
        have hsome : l.buffer.entries ≠ [] := by
          have hmem := (mem_leaving.mp (hleaving ▸ List.mem_singleton_self _)).1
          exact List.ne_nil_of_mem (hmem.resolve_left List.not_mem_nil)
        obtain ⟨hzero, hevicted, hoverlooked, -⟩ := h.waiting hreleased
        obtain rfl : number = s := by
          simpa [first, hreleased] using hs
        rw [h.next_eq_none hreleased hsome, hzero, hevicted, hoverlooked]
        simp
      | cons e rest =>
        have hfirst : l.first = some s := by
          simpa [first, hreleased] using hs
        obtain ⟨n, hn, hadvance⟩ := h.advance s hfirst
        have hle := (le_of_due h.balanced.ordered hdue).1 n hn
        rw [hreleased] at hadvance
        rw [Option.mem_def.mp hn, Option.elim_some]
        omega

/-- A drain that lets nothing out moves past nothing, before the first frame has gone out. -/
theorem Reckons.drain_of_empty (h : l.Reckons) (hreleased : l.released = [])
    (hempty : l.buffer.entries = []) :
    l.buffer.skipped .drain = [] ∧
      (l.buffer.drain.2.next = none ∨ l.buffer.config.maxPackets = 0) := by
  obtain ⟨-, -, -, hnext⟩ := h.waiting hreleased
  have hdrain : l.buffer.drain.2.next = (l.buffer.highest.map (· + 1)).or l.buffer.next := rfl
  have hstand : l.buffer.stand = l.buffer.next := by
    rw [stand, hempty]
    exact Option.or_none
  cases hdue : l.buffer.next with
  | none =>
    refine ⟨by simp only [skipped, hstand, hdue], ?_⟩
    cases hhighest : l.buffer.highest with
    | none =>
      rw [hdrain, hhighest, hdue]
      exact Or.inl rfl
    | some highest =>
      rcases h.topped highest hhighest with ⟨e, he, -⟩ | hsome | ⟨-, hroom⟩
      · simp [hempty] at he
      · exact absurd (hdue.symm.trans hsome) (by simp)
      · exact Or.inr hroom
  | some n =>
    refine ⟨List.length_eq_zero_iff.mp ?_, Or.inr (hnext.resolve_left (by simp [hdue]))⟩
    obtain ⟨n', hcrosses⟩ := crosses_drain h.balanced.ordered (hstand.trans hdue)
    have hcount := hcrosses.count h.balanced.ordered
    rw [leaving_drain, hempty, List.length_nil] at hcount
    -- playout stands just past the highest already
    obtain ⟨highest, hhighest, -⟩ := h.balanced.ordered.next n hdue
    have hpast : n = highest + 1 := by
      rcases h.topped highest hhighest with ⟨e, he, -⟩ | hsome | ⟨hnone, -⟩
      · simp [hempty] at he
      · exact Option.some.inj (hdue.symm.trans hsome)
      · exact absurd (hdue.symm.trans hnone) (by simp)
    have hto : n' = highest + 1 := by
      have hafter : l.buffer.drain.2.next = some n' := hcrosses.next
      rw [hdrain, Option.mem_def.mp hhighest] at hafter
      exact (Option.some.inj hafter).symm
    omega

theorem Reckons.drain (h : l.Reckons) : (l.step .drain).Reckons := by
  have hbalanced := h.balanced.drain
  have htopped := topped_drain l.buffer
  have hlost : l.buffer.drain.2.stats.lost = l.buffer.stats.lost := rfl
  have hstep : l.step .drain =
      { l with
        buffer := l.buffer.drain.2
        released := l.released ++ l.buffer.entries
        overlooked := l.overlooked ++ l.buffer.skipped .drain } := by
    simp only [step, leaving_drain]
    rfl
  have hcount : ∀ {m n : Int}, l.buffer.Crosses .drain m n →
      n - m = l.buffer.entries.length + (l.buffer.skipped .drain).length := by
    intro m n hcrosses
    have hcount := hcrosses.count h.balanced.ordered
    rwa [leaving_drain] at hcount
  rw [hstep]
  refine ⟨hbalanced, htopped, fun hnil => ?_, fun s hs => ?_⟩
  · obtain ⟨hreleased, hempty⟩ := List.append_eq_nil_iff.mp hnil
    obtain ⟨hzero, hevicted, hoverlooked, -⟩ := h.waiting hreleased
    obtain ⟨hskipped, hnext⟩ := h.drain_of_empty hreleased hempty
    exact ⟨hzero, hevicted, by simp only [hoverlooked, hskipped, List.append_nil], hnext⟩
  · dsimp only
    rw [hlost, List.length_append, List.length_append]
    cases hreleased : l.released with
    | nil =>
      obtain ⟨hzero, hevicted, hoverlooked, -⟩ := h.waiting hreleased
      have hfirst : l.buffer.entries.head?.map (·.1) = some s := by
        simpa [first, hreleased] using hs
      have hsome : l.buffer.entries ≠ [] := by
        intro hnil
        simp [hnil] at hfirst
      have hstand : l.buffer.stand = some s := by
        rw [stand, h.next_eq_none hreleased hsome, hfirst]
        rfl
      obtain ⟨n, hcrosses⟩ := crosses_drain h.balanced.ordered hstand
      have hpast := hcount hcrosses
      refine ⟨n, hcrosses.next, ?_⟩
      simp only [hzero, hevicted, hoverlooked, List.length_nil]
      omega
    | cons e rest =>
      have hfirst : l.first = some s := by
        simpa [first, hreleased] using hs
      obtain ⟨m, hm, hadvance⟩ := h.advance s hfirst
      have hstand : l.buffer.stand = some m := by
        rw [stand, Option.mem_def.mp hm]
        rfl
      obtain ⟨n, hcrosses⟩ := crosses_drain h.balanced.ordered hstand
      have hpast := hcount hcrosses
      rw [hreleased] at hadvance
      exact ⟨n, hcrosses.next, by omega⟩

theorem Reckons.step (h : l.Reckons) (u : Use) : (l.step u).Reckons := by
  cases u with
  | push number frame => exact h.push number frame
  | pop => exact h.pop
  | drain => exact h.drain

theorem reckons_run (config : JitterConfig) (uses : List Use) :
    ((fresh config).run uses).Reckons := by
  induction uses using List.reverseRecOn with
  | nil => exact reckons_fresh config
  | append_singleton uses u ih =>
    rw [run, List.foldl_append]
    exact ih.step u

/-- A ledger is about a buffer in use: what it says went out is what came out. -/
theorem run_eq_playout (config : JitterConfig) (uses : List Use) :
    ((fresh config).run uses).buffer = ((Playout.fresh config).run uses).buffer ∧
      ((fresh config).run uses).released.map (·.2) =
        ((Playout.fresh config).run uses).released := by
  induction uses using List.reverseRecOn with
  | nil => exact ⟨rfl, rfl⟩
  | append_singleton uses u ih =>
    have hordered := (reckons_run config uses).balanced.ordered
    rw [Playout.run_concat, run, List.foldl_append]
    change (((fresh config).run uses).step u).buffer = _ ∧
      (((fresh config).run uses).step u).released.map (·.2) = _
    revert ih hordered
    generalize (fresh config).run uses = l
    generalize (Playout.fresh config).run uses = p
    rintro ⟨hbuffer, hreleased⟩ hordered
    cases u with
    | push number frame =>
      have hstep : (l.step (.push number frame)).buffer = l.buffer.push frame ∧
          (l.step (.push number frame)).released = l.released := by
        simp only [step]
        split <;> exact ⟨rfl, rfl⟩
      rw [hstep.1, hstep.2, hbuffer]
      exact ⟨rfl, hreleased⟩
    | pop =>
      rw [hbuffer] at hordered
      simp only [step, Playout.step, hbuffer, List.map_append, hreleased]
      cases hpop : p.buffer.pop with
      | none =>
        obtain ⟨hafter, hleaving⟩ := leaving_pop_of_none hpop
        rw [hafter, hleaving]
        exact ⟨rfl, List.append_nil _⟩
      | some out =>
        obtain ⟨number, hleaving, -⟩ := leaving_pop hordered hpop
        rw [hleaving, after, hpop]
        exact ⟨rfl, rfl⟩
    | drain =>
      rw [step, leaving_drain, Playout.step, List.map_append, hreleased, hbuffer]
      exact ⟨rfl, rfl⟩

/-- **When all losses are counted.** As far as playout has come from the first frame that went out,
each number on the way is that of a frame which went out or was pushed out, is counted as lost, or
was overlooked. So playout has come as far as the counts say exactly if it has never moved past the
number of a missing frame in a drain or in pushing the oldest frame out. -/
theorem accountsForLosses_iff (config : JitterConfig) (uses : List Use) :
    let l := (fresh config).run uses
    (∀ s ∈ l.first, ∀ n ∈ l.buffer.next,
      n - s = l.released.length + l.buffer.stats.lost + l.evicted.length + l.overlooked.length) ∧
    (l.AccountsForLosses ↔ l.overlooked = []) ∧
    l.released.map (·.2) = ((Playout.fresh config).run uses).released := by
  intro l
  have hreckons : l.Reckons := reckons_run config uses
  obtain ⟨-, -, hwaiting, hadvance⟩ := hreckons
  have hlaw : ∀ s ∈ l.first, ∀ n ∈ l.buffer.next,
      n - s = l.released.length + l.buffer.stats.lost + l.evicted.length + l.overlooked.length := by
    intro s hs n hn
    obtain ⟨n', hn', hpast⟩ := hadvance s hs
    obtain rfl := Option.mem_unique hn hn'
    exact hpast
  refine ⟨hlaw, ⟨fun haccounts => ?_, fun hnone s hs n hn => ?_⟩, (run_eq_playout config uses).2⟩
  · cases hreleased : l.released with
    | nil => exact (hwaiting hreleased).2.2.1
    | cons e rest =>
      have hfirst : l.first = some e.1 := by
        rw [first, hreleased]
        rfl
      obtain ⟨n, hn, hpast⟩ := hadvance e.1 hfirst
      have htold := haccounts e.1 hfirst n hn
      exact List.length_eq_zero_iff.mp (by omega)
  · rw [hlaw s hs n hn, hnone, List.length_nil]
    omega

/-- The frame between two others never came when the buffer is drained, and is not counted. -/
theorem not_accountsForLosses_of_drained_gap :
    let frame (sequence : UInt16) : Frame := ⟨sequence, 0, 7, .pcmu, []⟩
    ¬ ((fresh {}).run [.push 1 (frame 1), .push 3 (frame 3), .drain]).AccountsForLosses := by
  intro frame haccounts
  have htold := haccounts 1 rfl 4 rfl
  exact absurd htold (by decide)

/-- Two frames push out the oldest of three, and the numbers before it are left behind with it. -/
example :
    let frame (sequence : UInt16) : Frame := ⟨sequence, 0, 7, .pcmu, []⟩
    let l := (fresh { targetDepth := 9, maxPackets := 2 }).run
      [.push 1 (frame 1), .drain, .push 5 (frame 5), .push 6 (frame 6), .push 7 (frame 7)]
    l.overlooked = [2, 3, 4] ∧ l.evicted.map (·.1) = [5] ∧ l.buffer.stats.lost = 0 := by
  decide

end Ledger

end Parley.Rtp
