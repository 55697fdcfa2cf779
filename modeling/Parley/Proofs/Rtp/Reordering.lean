import Mathlib.Data.List.Sort
import Parley.Proofs.Rtp.Account
import Parley.Proofs.Rtp.InOrder

/-!
# `Parley/Proofs/Rtp/Reordering.lean` — what a jitter buffer is for

Frames that arrive out of order leave a jitter buffer in order, all of them, as long as none of them
comes too late: each arrives before as many frames with higher numbers as the buffer waits for
(`InTime`).

The buffer and what it has let out are all that has arrived (`Sorts`), and what has gone out are the
frames from the first one on, without a gap. A buffer that is deep holds the next of them: had it
not arrived, then too many frames with higher numbers would have (`Sorts.held_of_deep`). So no gap
is ever skipped, nothing that arrives is late, and no frame is pushed out.
-/

set_option autoImplicit false

namespace Parley.Rtp

open scoped List

/-- Whether each frame carries the low bits of its number. -/
def Numbered (frames : List (Int × Frame)) : Prop :=
  ∀ e ∈ frames, (e.2.sequence.toNat : Int) = e.1 % 65536

/-- Whether each frame arrives before `depth` frames with higher numbers have, and its number is less
than half a round away from the highest so far. -/
def InTime (depth : Nat) (arrivals : List (Int × Frame)) : Prop :=
  ∀ i (h : i < arrivals.length),
    (arrivals.take i).countP (arrivals[i].1 < ·.1) < depth ∧
      ∀ highest ∈ ((arrivals.take i).map (·.1)).max?, (arrivals[i].1 - highest).natAbs < 32768

instance (frames : List (Int × Frame)) : Decidable (Numbered frames) :=
  inferInstanceAs (Decidable (∀ e ∈ frames, _))

instance (depth : Nat) (arrivals : List (Int × Frame)) : Decidable (InTime depth arrivals) :=
  inferInstanceAs (Decidable (∀ i (_ : i < _), _ ∧ _))

theorem InTime.split {depth : Nat} {before after : List (Int × Frame)} {e : Int × Frame}
    (h : InTime depth (before ++ e :: after)) :
    before.countP (e.1 < ·.1) < depth ∧
      ∀ highest ∈ (before.map (·.1)).max?, (e.1 - highest).natAbs < 32768 := by
  have hlt : before.length < (before ++ e :: after).length := by simp
  simpa using h before.length hlt

namespace JitterBuffer

/-! ## Numbers of a block -/

theorem numberFrom_concat (number : Int) (frames : List Frame) (frame : Frame) :
    numberFrom number (frames ++ [frame]) =
      numberFrom number frames ++ [(number + frames.length, frame)] := by
  induction frames generalizing number with
  | nil => simp [numberFrom]
  | cons first rest ih =>
    have hnext : number + 1 + (rest.length : Int) = number + ((first :: rest).length : Int) := by
      simp only [List.length_cons]
      omega
    rw [List.cons_append, numberFrom, ih, hnext]
    rfl

theorem pairwise_numberFrom (number : Int) (frames : List Frame) :
    (numberFrom number frames).Pairwise (·.1 < ·.1) := by
  induction frames generalizing number with
  | nil => exact .nil
  | cons frame rest ih =>
    refine List.pairwise_cons.mpr ⟨fun e he => ?_, ih (number + 1)⟩
    have := (lt_of_mem_numberFrom he).1
    show number < e.1
    omega

/-- Every number of the block is there. -/
theorem mem_numbers_numberFrom {number n : Int} {frames : List Frame} (hle : number ≤ n)
    (hlt : n < number + frames.length) : n ∈ (numberFrom number frames).map (·.1) := by
  induction frames generalizing number with
  | nil => simp at hlt; omega
  | cons frame rest ih =>
    rw [numberFrom, List.map_cons, List.mem_cons]
    by_cases h : n = number
    · exact Or.inl h
    · refine Or.inr (ih (by omega) ?_)
      simp only [List.length_cons] at hlt
      omega

/-- What has arrived of a block: its frames are of the block, no two of them are alike, and none is
still to come once `depth` frames with higher numbers are there. -/
structure Arrived (depth : Nat) (start : Int) (size : Nat) (arrived : List (Int × Frame)) :
    Prop where
  within : ∀ e ∈ arrived, start ≤ e.1 ∧ e.1 < start + size
  distinct : (arrived.map (·.1)).Nodup
  awaited : ∀ n, start ≤ n → n < start + size → n ∉ arrived.map (·.1) →
    arrived.countP (n < ·.1) < depth

variable {depth size : Nat} {start : Int} {block : List Frame}
  {arrived before after : List (Int × Frame)}

theorem Arrived.le_of_mem (h : Arrived depth start size arrived) : ∀ e ∈ arrived, start ≤ e.1 :=
  fun e he => (h.within e he).1

/-- What has arrived at some time of frames that are all in time. -/
theorem arrived_of_inTime (hperm : (before ++ after).Perm (numberFrom start block))
    (htime : InTime depth (before ++ after)) : Arrived depth start block.length before := by
  constructor
  case within =>
    intro e he
    exact lt_of_mem_numberFrom (hperm.subset (List.mem_append_left after he))
  case distinct =>
    have hblock : ((numberFrom start block).map (·.1)).Nodup :=
      List.pairwise_map.mpr ((pairwise_numberFrom start block).imp Int.ne_of_lt)
    have hall := (hperm.map (·.1)).nodup_iff.mpr hblock
    rw [List.map_append] at hall
    exact (List.nodup_append.mp hall).1
  case awaited =>
    intro n hle hlt hnot
    -- the frame is of the block, so that it arrives later, and in time
    obtain ⟨e, he, rfl⟩ := List.mem_map.mp (mem_numbers_numberFrom hle hlt)
    have hmem : e ∈ after := by
      refine (List.mem_append.mp (hperm.symm.subset he)).resolve_left fun hbefore => ?_
      exact hnot (List.mem_map_of_mem hbefore)
    obtain ⟨between, later, rfl⟩ := List.append_of_mem hmem
    rw [← List.append_assoc] at htime
    have hcount := htime.split.1
    rw [List.countP_append] at hcount
    omega

/-! ## Taking a frame in -/

theorem length_place (number : Int) (frame : Frame) (entries : List (Int × Frame)) :
    (place number frame entries).length = entries.length + 1 :=
  (perm_place number frame entries).length_eq

/-- A frame that there is room for is put among the others, and nothing is thrown away. -/
theorem push_of_room {b : JitterBuffer} {frame : Frame} (hadmits : b.admits frame = true)
    (hroom : b.entries.length < b.config.maxPackets) :
    ∃ stats : JitterStats,
      b.push frame =
        { b with
          entries := place (b.unwrap frame.sequence) frame b.entries
          highest := some (b.highestWith (b.unwrap frame.sequence))
          stats } ∧
      stats.dropped = b.stats.dropped ∧ stats.lost = b.stats.lost ∧
      stats.duplicate = b.stats.duplicate := by
  obtain ⟨hlate, hheld⟩ : b.next.any (b.unwrap frame.sequence < ·) = false ∧
      b.holds (b.unwrap frame.sequence) = false := by
    simpa [admits] using hadmits
  unfold push
  simp only [hlate, hheld, Bool.false_eq_true, if_false]
  rw [evict_of_le (by rw [length_place]; exact hroom)]
  exact ⟨_, rfl, rfl, rfl, rfl⟩

/-! ## Letting a frame go out -/

/-- What goes out is what is due; it is taken from the entries, and the numbers up to it that never
came are counted as lost. -/
theorem pop_eq_some {b c : JitterBuffer} {frame : Frame} (h : b.Ordered)
    (hpop : b.pop = some (frame, c)) :
    ∃ number, b.due = some number ∧ b.entries.Perm ((number, frame) :: c.entries) ∧
      c.next = some (number + 1) ∧ c.config = b.config ∧
      c.stats.dropped = b.stats.dropped ∧ c.stats.duplicate = b.stats.duplicate ∧
      c.stats.lost = b.stats.lost + b.next.elim 0 fun next => (number - next).toNat := by
  simp only [pop, Option.bind_eq_bind, Option.bind_eq_some_iff, Option.pure_def,
    Option.some.injEq, Prod.mk.injEq] at hpop
  obtain ⟨number, hdue, ⟨key, payload⟩, hfind, rfl, rfl⟩ := hpop
  obtain rfl : key = number := by simpa using List.find?_some hfind
  have hunique : (Table.mk b.entries).Unique := h.increasing.imp Int.ne_of_lt
  have hperm := Table.Unique.perm_erase hunique (List.mem_of_find?_eq_some hfind)
  refine ⟨key, hdue, hperm, rfl, rfl, rfl, rfl, ?_⟩
  cases b.next <;> rfl

/-- A frame is due because its number is next, or because the buffer is deep. -/
theorem due_cases {b : JitterBuffer} {number : Int} (h : b.due = some number) :
    b.next = some number ∨ max b.config.targetDepth 1 ≤ b.entries.length := by
  by_cases hdeep : max b.config.targetDepth 1 ≤ b.entries.length
  · exact Or.inr hdeep
  · simp only [due, if_neg hdeep] at h
    split at h
    · cases h
    · rename_i next hnext
      split at h
      · exact Or.inl (hnext.trans h)
      · cases h

/-- As long as a buffer is deep, a frame goes out. -/
theorem length_lt_of_pop_eq_none {b : JitterBuffer} (h : b.pop = none) :
    b.entries.length < max b.config.targetDepth 1 := by
  refine Nat.not_le.mp fun hdeep => ?_
  have hmem : ∃ number, b.due = some number ∧ number ∈ b.entries.map (·.1) := by
    have hone := Nat.le_max_right b.config.targetDepth 1
    obtain ⟨first, rest, hentries⟩ := List.exists_cons_of_length_pos (by omega : 0 < b.entries.length)
    have hfirst : first.1 ∈ b.entries.map (·.1) := by simp [hentries]
    simp only [due, if_pos hdeep]
    split
    · exact ⟨first.1, by simp [hentries], hfirst⟩
    · rename_i next hnext
      split
      · rename_i hholds
        obtain ⟨e, he, hkey⟩ := List.any_eq_true.mp hholds
        refine ⟨next, rfl, List.mem_map.mpr ⟨e, he, by simpa using hkey⟩⟩
      · exact ⟨first.1, by simp [hentries], hfirst⟩
  obtain ⟨number, hdue, hmem⟩ := hmem
  obtain ⟨e, he, hkey⟩ := List.mem_map.mp hmem
  simp only [pop, hdue, Option.bind_eq_bind, Option.bind_some, Option.bind_eq_none_iff] at h
  have hfind : b.entries.find? (·.1 == number) = none := by
    cases hfind : b.entries.find? (·.1 == number) with
    | none => rfl
    | some entry => cases h entry hfind
  exact List.find?_eq_none.mp hfind e he (by simpa using hkey)

/-! ## Everything that has arrived -/

/-- An entry under its true number. -/
def shift (base : Int) (e : Int × Frame) : Int × Frame := (e.1 + base, e.2)

/-- A buffer that lets the frames of a block out in order, from the number `start` on. What it has
let out has consecutive numbers, and that and what it holds are all that has arrived. `base` is what
lies between a true number and the buffer's. -/
structure Sorts (b : JitterBuffer) (start base : Int) (out : List Frame)
    (arrived : List (Int × Frame)) : Prop where
  rounds : 65536 ∣ base
  ordered : b.Ordered
  whole : (numberFrom start out ++ b.entries.map (shift base)).Perm arrived
  highest : (arrived.map (·.1)).max? = b.highest.map (· + base)
  next : b.next = none ∧ out = [] ∨ b.next = some (start + out.length - base)
  unspoilt : b.stats.dropped = 0 ∧ b.stats.lost = 0 ∧ b.stats.duplicate = 0

namespace Sorts

variable {b c : JitterBuffer} {base : Int} {out : List Frame} {frame : Frame}

theorem fresh (config : JitterConfig) (start : Int) : (new config).Sorts start 0 [] [] := by
  constructor
  case rounds => exact ⟨0, rfl⟩
  case ordered => exact ordered_new config
  case whole => exact .refl _
  case highest => rfl
  case next => exact Or.inl ⟨rfl, rfl⟩
  case unspoilt => exact ⟨rfl, rfl, rfl⟩

/-- As long as nothing has arrived, nothing says where the buffer's numbers begin. -/
theorem rebase (h : b.Sorts start base out arrived) (hnone : b.highest = none) {base' : Int}
    (rounds : 65536 ∣ base') : b.Sorts start base' out arrived := by
  have hentries : b.entries = [] := by
    refine List.eq_nil_iff_forall_not_mem.mpr fun e he => ?_
    obtain ⟨_, hmem, -⟩ := h.ordered.below e he
    simp [hnone] at hmem
  have hnext : b.next = none := by
    refine Option.eq_none_iff_forall_not_mem.mpr fun n hn => ?_
    obtain ⟨_, hmem, -⟩ := h.ordered.next n hn
    simp [hnone] at hmem
  refine { h with rounds, whole := ?_, highest := ?_, next := ?_ }
  · simpa only [hentries, List.map_nil] using h.whole
  · rw [h.highest, hnone]
    rfl
  · rcases h.next with hgathering | hsome
    · exact Or.inl hgathering
    · exact absurd (hnext.symm.trans hsome) (by simp)

theorem mem_arrived (h : b.Sorts start base out arrived) {e : Int × Frame} :
    e ∈ arrived ↔ e ∈ numberFrom start out ∨ ∃ entry ∈ b.entries, shift base entry = e := by
  rw [← h.whole.mem_iff, List.mem_append, List.mem_map]

/-- Nothing is held that is not to come after all that has gone out. -/
theorem le_of_mem (h : b.Sorts start base out arrived) (hle : ∀ e ∈ arrived, start ≤ e.1)
    {entry : Int × Frame} (hentry : entry ∈ b.entries) :
    start + out.length ≤ entry.1 + base := by
  rcases h.next with ⟨-, rfl⟩ | hsome
  · have hfrom : start ≤ entry.1 + base :=
      hle _ (h.mem_arrived.mpr (Or.inr ⟨entry, hentry, rfl⟩))
    simpa using hfrom
  · have hdue := h.ordered.due _ hsome entry hentry
    omega

/-- A deep buffer holds the frame whose turn it is. -/
theorem held_of_deep (h : b.Sorts start base out arrived)
    (harrived : Arrived depth start size arrived) (hdeep : depth ≤ b.entries.length)
    (hsome : b.entries ≠ []) : ∃ entry ∈ b.entries, entry.1 + base = start + out.length := by
  by_contra hmissing
  have habove : ∀ entry ∈ b.entries, start + out.length < entry.1 + base := by
    intro entry hentry
    have hle := h.le_of_mem harrived.le_of_mem hentry
    have hne : entry.1 + base ≠ start + out.length := fun heq => hmissing ⟨entry, hentry, heq⟩
    omega
  -- it has not arrived
  have hnot : start + (out.length : Int) ∉ arrived.map (·.1) := by
    intro hmem
    obtain ⟨e, he, hnumber⟩ := List.mem_map.mp hmem
    rcases h.mem_arrived.mp he with hgone | ⟨entry, hentry, rfl⟩
    · have := (lt_of_mem_numberFrom hgone).2
      omega
    · exact hmissing ⟨entry, hentry, hnumber⟩
  -- but all that is held has higher numbers
  obtain ⟨entry, hentry⟩ := List.exists_mem_of_ne_nil _ hsome
  have hwithin := harrived.within _ (h.mem_arrived.mpr (Or.inr ⟨entry, hentry, rfl⟩))
  have hlt : entry.1 + base < start + size := hwithin.2
  have hless := harrived.awaited _ (by omega) (Int.lt_trans (habove entry hentry) hlt) hnot
  have hall : (b.entries.map (shift base)).countP (start + (out.length : Int) < ·.1) =
      b.entries.length := by
    rw [List.countP_eq_length.mpr, List.length_map]
    intro e he
    obtain ⟨entry, hentry, rfl⟩ := List.mem_map.mp he
    exact decide_eq_true (habove entry hentry)
  rw [← h.whole.countP_eq, List.countP_append, hall] at hless
  omega

/-- The buffer's number of a frame that arrives is the true one but for the base. -/
theorem unwrap_eq (h : b.Sorts start base out arrived) {number : Int}
    (low : (frame.sequence.toNat : Int) = number % 65536)
    (near : ∀ highest ∈ (arrived.map (·.1)).max?, (number - highest).natAbs < 32768) :
    ∃ base', b.Sorts start base' out arrived ∧ b.unwrap frame.sequence + base' = number := by
  cases hhighest : b.highest with
  | none =>
    have rounds : 65536 ∣ number - frame.sequence.toNat := by omega
    refine ⟨_, h.rebase hhighest rounds, ?_⟩
    exact unwrap_add rounds low (by simp [hhighest]) fun _ => rfl
  | some highest =>
    refine ⟨base, h, unwrap_add h.rounds low (fun highest' hmem => ?_) (by simp [hhighest])⟩
    refine near _ ?_
    rw [h.highest]
    exact Option.mem_map_of_mem _ hmem

/-- The highest number there is, with another one. -/
theorem max_concat (h : b.Sorts start base out arrived) {n number : Int}
    (hnumber : n + base = number) :
    (arrived.map (·.1) ++ [number]).max? = some (b.highestWith n + base) := by
  have hmax := h.highest
  rw [List.max?_eq_some_iff]
  unfold highestWith
  cases hhighest : b.highest with
  | none =>
    rw [hhighest, Option.map_none, List.max?_eq_none_iff] at hmax
    simp [hmax, hnumber]
  | some highest =>
    rw [hhighest, Option.map_some, List.max?_eq_some_iff] at hmax
    obtain ⟨hmem, hbound⟩ := hmax
    dsimp only
    constructor
    · rcases Int.le_total highest n with hle | hle
      · rw [Int.max_eq_right hle]
        exact List.mem_append_right _ (by simp [hnumber])
      · rw [Int.max_eq_left hle]
        exact List.mem_append_left _ hmem
    · intro m hm
      rcases List.mem_append.mp hm with hold | hnew
      · have := hbound m hold
        omega
      · obtain rfl := List.mem_singleton.mp hnew
        omega

/-- A frame of the block that is new is taken in. -/
theorem push (h : b.Sorts start base out arrived)
    (hroom : b.entries.length < b.config.maxPackets) {number : Int} (hle : start ≤ number)
    (hnew : number ∉ arrived.map (·.1)) (hnumber : b.unwrap frame.sequence + base = number) :
    (b.push frame).Sorts start base out (arrived ++ [(number, frame)]) ∧
      (b.push frame).config = b.config := by
  have hfree : ∀ entry ∈ b.entries, entry.1 ≠ b.unwrap frame.sequence := by
    intro entry hentry heq
    have hmem := h.mem_arrived.mpr (Or.inr ⟨entry, hentry, rfl⟩)
    have hsame : (shift base entry).1 = number := by rw [← hnumber, ← heq]; rfl
    exact hnew (List.mem_map.mpr ⟨_, hmem, hsame⟩)
  have hlate : ∀ n ∈ b.next, n ≤ b.unwrap frame.sequence := by
    intro n hn
    rcases h.next with ⟨hnone, -⟩ | hsome
    · simp [hnone] at hn
    · obtain rfl := Option.mem_unique hn hsome
      -- the numbers below the next one have all gone out
      refine Int.not_lt.mp fun hlt => hnew ?_
      obtain ⟨e, he, hkey⟩ :=
        List.mem_map.mp (mem_numbers_numberFrom hle (by omega : number < start + out.length))
      exact List.mem_map.mpr ⟨e, h.mem_arrived.mpr (Or.inl he), hkey⟩
  have hadmits : b.admits frame = true := by
    have hnotLate : b.next.any (b.unwrap frame.sequence < ·) = false := by
      cases hnext : b.next with
      | none => rfl
      | some n =>
        have := hlate n hnext
        simpa using this
    have hnotHeld : b.holds (b.unwrap frame.sequence) = false := by
      simpa [holds] using hfree
    simp [admits, hnotLate, hnotHeld]
  obtain ⟨stats, hpush, hdropped, hlost, hduplicate⟩ := push_of_room hadmits hroom
  have hordered := ordered_add h.ordered frame stats hlate hfree
  rw [hpush]
  refine ⟨⟨h.rounds, hordered, ?_, ?_, h.next, ?_⟩, rfl⟩
  · have hplace := (perm_place (b.unwrap frame.sequence) frame b.entries).map (shift base)
    have hshift : shift base (b.unwrap frame.sequence, frame) = (number, frame) := by
      rw [← hnumber]
      rfl
    rw [List.map_cons, hshift] at hplace
    calc numberFrom start out ++ (place _ frame b.entries).map (shift base)
        ~ numberFrom start out ++ (number, frame) :: b.entries.map (shift base) :=
          hplace.append_left _
      _ ~ (number, frame) :: (numberFrom start out ++ b.entries.map (shift base)) :=
          List.perm_middle
      _ ~ (number, frame) :: arrived := h.whole.cons _
      _ ~ arrived ++ [(number, frame)] := (List.perm_append_singleton _ _).symm
  · rw [List.map_append, List.map_singleton, Option.map_some]
    exact h.max_concat hnumber
  · rw [hdropped, hlost, hduplicate]
    exact h.unspoilt

/-- What goes out is the frame whose turn it is. -/
theorem pop (h : b.Sorts start base out arrived)
    (harrived : Arrived b.config.targetDepth start size arrived)
    (hdepth : 1 ≤ b.config.targetDepth) (hpop : b.pop = some (frame, c)) :
    c.Sorts start base (out ++ [frame]) arrived ∧ c.config = b.config := by
  obtain ⟨number, hdue, hperm, hnext, hconfig, hdropped, hduplicate, hlost⟩ :=
    pop_eq_some h.ordered hpop
  obtain ⟨-, -, -, hordered, -, hhighest, -⟩ := ordered_pop h.ordered hpop
  obtain ⟨-, hleast⟩ := le_of_due h.ordered hdue
  have hentry : (number, frame) ∈ b.entries := hperm.symm.subset (List.mem_cons_self ..)
  have hturn : number + base = start + out.length := by
    rcases due_cases hdue with hplaying | hdeep
    · rcases h.next with ⟨hnone, -⟩ | hsome
      · simp [hnone] at hplaying
      · have := Option.some.inj (hplaying.symm.trans hsome)
        omega
    · rw [Nat.max_eq_left hdepth] at hdeep
      obtain ⟨entry, hheld, heq⟩ :=
        h.held_of_deep harrived hdeep (List.ne_nil_of_mem hentry)
      have hge : start + (out.length : Int) ≤ number + base := h.le_of_mem harrived.le_of_mem hentry
      have := hleast entry hheld
      omega
  have hskipped : (b.next.elim 0 fun next => (number - next).toNat) = 0 := by
    rcases h.next with ⟨hnone, -⟩ | hsome
    · rw [hnone]
      rfl
    · rw [hsome, Option.elim_some]
      omega
  refine ⟨⟨h.rounds, hordered, ?_, ?_, Or.inr ?_, ?_⟩, hconfig⟩
  · have hshift : shift base (number, frame) = (start + out.length, frame) :=
      Prod.ext hturn rfl
    have hmoved := hperm.map (shift base)
    rw [List.map_cons, hshift] at hmoved
    rw [numberFrom_concat, List.append_assoc]
    exact (hmoved.symm.append_left _).trans h.whole
  · rw [hhighest]
    exact h.highest
  · rw [hnext, List.length_append, List.length_singleton]
    exact congrArg some (by omega)
  · rw [hdropped, hduplicate, hlost, hskipped]
    exact h.unspoilt

/-- All that goes out are frames in their turn, and fewer stay than the buffer waits for. -/
theorem popAll (h : b.Sorts start base out arrived)
    (harrived : Arrived b.config.targetDepth start size arrived)
    (hdepth : 1 ≤ b.config.targetDepth) :
    b.popAll.2.Sorts start base (out ++ b.popAll.1) arrived ∧
      b.popAll.2.config = b.config ∧ b.popAll.2.entries.length < b.config.targetDepth := by
  induction b using popAll.induct generalizing out with
  | case1 b hpop =>
    rw [popAll_of_none hpop, List.append_nil]
    have hshallow := length_lt_of_pop_eq_none hpop
    rw [Nat.max_eq_left hdepth] at hshallow
    exact ⟨h, rfl, hshallow⟩
  | case2 b frame c hpop _ _ _ _ ih =>
    obtain ⟨hstep, hconfig⟩ := h.pop harrived hdepth hpop
    obtain ⟨hrest, hconfig', hshallow⟩ := ih hstep (hconfig ▸ harrived) (hconfig ▸ hdepth)
    rw [popAll_of_some hpop]
    rw [List.append_assoc] at hrest
    exact ⟨hrest, hconfig'.trans hconfig, hconfig ▸ hshallow⟩

/-- A frame that arrives, and those that go out then. -/
theorem pass (h : b.Sorts start base out arrived) {number : Int}
    (harrived : Arrived b.config.targetDepth start size (arrived ++ [(number, frame)]))
    (hdepth : 1 ≤ b.config.targetDepth) (hroom : b.entries.length < b.config.maxPackets)
    (low : (frame.sequence.toNat : Int) = number % 65536)
    (near : ∀ highest ∈ (arrived.map (·.1)).max?, (number - highest).natAbs < 32768) :
    ∃ base', (b.pass frame).2.Sorts start base' (out ++ (b.pass frame).1)
        (arrived ++ [(number, frame)]) ∧
      (b.pass frame).2.config = b.config ∧
      (b.pass frame).2.entries.length < b.config.targetDepth := by
  have hle : start ≤ number := (harrived.within (number, frame) (by simp)).1
  have hnew : number ∉ arrived.map (·.1) := by
    have hdistinct := harrived.distinct
    rw [List.map_append, List.map_singleton, List.nodup_append] at hdistinct
    exact fun hmem => hdistinct.2.2 number hmem number (List.mem_singleton_self _) rfl
  obtain ⟨base', hbased, hnumber⟩ := h.unwrap_eq low near
  obtain ⟨hpushed, hconfig⟩ := hbased.push hroom hle hnew hnumber
  obtain ⟨hout, hconfig', hshallow⟩ := hpushed.popAll (hconfig ▸ harrived) (hconfig ▸ hdepth)
  exact ⟨base', hout, hconfig'.trans hconfig, hconfig ▸ hshallow⟩

theorem passAll (h : b.Sorts start base out before)
    (hperm : (before ++ after).Perm (numberFrom start block)) (hnumbered : Numbered after)
    (htime : InTime b.config.targetDepth (before ++ after)) (hdepth : 1 ≤ b.config.targetDepth)
    (hmax : b.config.targetDepth ≤ b.config.maxPackets)
    (hshallow : b.entries.length < b.config.targetDepth) :
    ∃ base', (b.passAll (after.map (·.2))).2.Sorts start base'
      (out ++ (b.passAll (after.map (·.2))).1) (before ++ after) := by
  induction after generalizing b base out before with
  | nil =>
    rw [List.append_nil]
    refine ⟨base, ?_⟩
    show b.Sorts start base (out ++ []) before
    rwa [List.append_nil]
  | cons e after ih =>
    have hsplit : before ++ e :: after = (before ++ [e]) ++ after := by simp
    obtain ⟨-, near⟩ := htime.split
    rw [hsplit] at hperm htime ⊢
    obtain ⟨base', hpassed, hconfig, hshallow'⟩ :=
      h.pass (arrived_of_inTime hperm htime) hdepth (by omega)
        (hnumbered e (List.mem_cons_self ..)) near
    obtain ⟨base'', hrest⟩ :=
      ih hpassed hperm (fun e' he' => hnumbered e' (List.mem_cons_of_mem _ he'))
        (hconfig ▸ htime) (hconfig ▸ hdepth) (hconfig ▸ hmax) (hconfig ▸ hshallow')
    refine ⟨base'', ?_⟩
    rw [List.append_assoc] at hrest
    exact hrest

/-- Once the whole block has arrived, what has gone out and what is held are the block. -/
theorem append_drain (h : b.Sorts start base out arrived)
    (hperm : arrived.Perm (numberFrom start block)) : out ++ b.drain.1 = block := by
  have hle : ∀ e ∈ arrived, start ≤ e.1 := fun e he => (lt_of_mem_numberFrom (hperm.subset he)).1
  have hsorted : (numberFrom start out ++ b.entries.map (shift base)).Pairwise (·.1 < ·.1) := by
    refine List.pairwise_append.mpr ⟨pairwise_numberFrom start out, ?_, ?_⟩
    · refine List.pairwise_map.mpr (h.ordered.increasing.imp fun {e e'} hlt => ?_)
      exact Int.add_lt_add_right hlt base
    · intro e he e' he'
      obtain ⟨entry, hentry, rfl⟩ := List.mem_map.mp he'
      exact Int.lt_of_lt_of_le (lt_of_mem_numberFrom he).2 (h.le_of_mem hle hentry)
  have heq : numberFrom start out ++ b.entries.map (shift base) = numberFrom start block :=
    List.Perm.eq_of_pairwise (fun _ _ _ _ hlt hgt => absurd hlt (Int.lt_asymm hgt)) hsorted
      (pairwise_numberFrom start block) (h.whole.trans hperm)
  calc out ++ b.drain.1
      = (numberFrom start out ++ b.entries.map (shift base)).map (·.2) := by
        rw [List.map_append, map_snd_numberFrom, List.map_map]
        rfl
    _ = block := by rw [heq, map_snd_numberFrom]

end Sorts

/-! ## A block of frames -/

/-- **Frames that arrive in time all go out, in order.** A buffer that may hold as many frames as it
waits for plays a whole block of consecutively numbered frames, whatever number the first has and in
whatever order they arrive, as long as each arrives in time. It throws nothing away, skips no number
and finds no frame twice. -/
theorem playThrough_of_inTime (config : JitterConfig) (hdepth : 1 ≤ config.targetDepth)
    (hmax : config.targetDepth ≤ config.maxPackets) {start : Int} {block : List Frame}
    (hnumbered : Numbered (numberFrom start block)) {arrivals : List (Int × Frame)}
    (hperm : arrivals.Perm (numberFrom start block))
    (htime : InTime config.targetDepth arrivals) :
    (new config).playThrough (arrivals.map (·.2)) = block ∧
      let stats := ((new config).passAll (arrivals.map (·.2))).2.drain.2.stats
      stats.dropped = 0 ∧ stats.lost = 0 ∧ stats.duplicate = 0 := by
  have hwhole : ([] ++ arrivals).Perm (numberFrom start block) := hperm
  obtain ⟨base, hsorts⟩ := (Sorts.fresh config start).passAll hwhole
    (fun e he => hnumbered e (hperm.subset he)) htime hdepth hmax hdepth
  rw [List.nil_append, List.nil_append] at hsorts
  exact ⟨hsorts.append_drain hperm, hsorts.unspoilt⟩

/-- Frames in twos, the later of each first, while their numbers wrap. -/
theorem playThrough_of_inTime_wrap :
    let frame (sequence : UInt16) : Frame := ⟨sequence, 0, 7, .pcmu, []⟩
    let block := [frame 65534, frame 65535, frame 0, frame 1, frame 2]
    let arrivals := [(65535, frame 65535), (65534, frame 65534), (65537, frame 1),
      (65536, frame 0), (65538, frame 2)]
    let config : JitterConfig := { targetDepth := 2, maxPackets := 2 }
    Numbered (numberFrom 65534 block) ∧ arrivals.Perm (numberFrom 65534 block) ∧
      InTime 2 arrivals ∧ (new config).playThrough (arrivals.map (·.2)) = block ∧
      let stats := ((new config).passAll (arrivals.map (·.2))).2.drain.2.stats
      stats.dropped = 0 ∧ stats.lost = 0 ∧ stats.duplicate = 0 := by
  intro frame block arrivals config
  have hnumbered : Numbered (numberFrom 65534 block) := by decide
  have hperm : arrivals.Perm (numberFrom 65534 block) := by decide
  have htime : InTime 2 arrivals := by decide
  exact ⟨hnumbered, hperm, htime,
    playThrough_of_inTime config (by decide) (by decide) hnumbered hperm htime⟩

end JitterBuffer

end Parley.Rtp
