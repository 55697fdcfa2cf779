import Mathlib.Data.List.Perm.Subperm
import Parley.Proofs.Rtp.Playout
import Parley.Table

/-!
# `Parley/Proofs/Rtp/Account.lean` — what becomes of a frame in a jitter buffer

A frame that a buffer takes in is held, goes out, or is thrown away, and what is thrown away is
counted. Each operation is put as one fact of two parts: no frame comes from nowhere, and the frames
held and those thrown away add up.
-/

set_option autoImplicit false

namespace Parley.Rtp.JitterBuffer

/-- The frames held, the oldest first. -/
def held (b : JitterBuffer) : List Frame := b.entries.map (·.2)

/-- The frames thrown away so far: late ones, those already there, and the oldest of too many. -/
def discarded (b : JitterBuffer) : Nat := b.stats.dropped + b.stats.duplicate

variable {b c : JitterBuffer} {frame : Frame}

theorem perm_place (number : Int) (frame : Frame) (entries : List (Int × Frame)) :
    (place number frame entries).Perm ((number, frame) :: entries) := by
  induction entries with
  | nil => exact .refl _
  | cons entry rest ih =>
    unfold place
    split
    · exact .refl _
    · exact (ih.cons entry).trans (.swap _ entry rest)

/-- Between two states of a buffer, of all the frames that it had or was given none was made up, and
those that are not there any more were thrown away and counted. -/
structure Keeps (given : List Frame) (before after : JitterBuffer) : Prop where
  subperm : after.held.Subperm (given ++ before.held)
  count : after.held.length + after.discarded =
    (given ++ before.held).length + before.discarded

theorem keeps_evict (b : JitterBuffer) : Keeps [] b b.evict := by
  unfold evict
  split
  · exact ⟨.refl _, rfl⟩
  · rename_i oldest frame rest hentries
    split
    · exact ⟨.refl _, rfl⟩
    · have hheld : b.held = frame :: rest.map (·.2) := by simp [held, hentries]
      constructor
      · rw [List.nil_append, hheld]
        exact (List.sublist_cons_self frame _).subperm
      · rw [List.nil_append, hheld]
        simp only [held, discarded, List.length_cons, List.length_map]
        omega

theorem keeps_push (b : JitterBuffer) (frame : Frame) : Keeps [frame] b (b.push frame) := by
  have thrown : b.held.Subperm ([frame] ++ b.held) := (List.sublist_cons_self frame _).subperm
  unfold push
  dsimp only
  split
  · refine ⟨thrown, ?_⟩
    simp only [held, discarded, List.length_append, List.length_singleton]
    omega
  · split
    · refine ⟨thrown, ?_⟩
      simp only [held, discarded, List.length_append, List.length_singleton]
      omega
    · generalize hadded : JitterBuffer.mk _ (place _ _ _) _ _ _ = added
      have hheld : added.held.Perm (frame :: b.held) := by
        rw [← hadded]
        exact (perm_place _ frame b.entries).map (·.2)
      have hdiscarded : added.discarded = b.discarded := by
        rw [← hadded]
        rfl
      obtain ⟨hsub, hcount⟩ := keeps_evict added
      refine ⟨hsub.trans hheld.subperm, ?_⟩
      show added.evict.held.length + added.evict.discarded = _
      rw [hcount, hdiscarded, List.nil_append, hheld.length_eq]
      rfl

/-- Between two states of a buffer, the frames that are not there any more went out. -/
structure Releases (before : JitterBuffer) (frames : List Frame) (after : JitterBuffer) : Prop where
  perm : before.held.Perm (frames ++ after.held)
  discarded : after.discarded = before.discarded

theorem releases_pop (h : b.Ordered) (hpop : b.pop = some (frame, c)) : Releases b [frame] c := by
  simp only [pop, Option.bind_eq_bind, Option.bind_eq_some_iff, Option.pure_def,
    Option.some.injEq, Prod.mk.injEq] at hpop
  obtain ⟨number, -, ⟨key, payload⟩, hfind, rfl, rfl⟩ := hpop
  obtain rfl : key = number := by simpa using List.find?_some hfind
  -- the numbers differ, so no other entry goes with the one that goes out
  have hunique : (Table.mk b.entries).Unique := h.increasing.imp fun hlt => Int.ne_of_lt hlt
  have hperm := Table.Unique.perm_erase hunique (List.mem_of_find?_eq_some hfind)
  exact ⟨hperm.map Prod.snd, rfl⟩

theorem ordered_push (h : b.Ordered) (frame : Frame) : (b.push frame).Ordered := by
  cases hadmits : b.admits frame with
  | true => exact (push_of_admits h hadmits).1.ordered
  | false =>
    obtain ⟨hentries, hnext, hhighest⟩ := push_of_not_admits hadmits
    obtain ⟨hincreasing, hbelow, hdue, hbound⟩ := h
    constructor <;> simpa only [hentries, hnext, hhighest]

theorem releases_popAll (h : b.Ordered) :
    b.popAll.2.Ordered ∧ Releases b b.popAll.1 b.popAll.2 := by
  induction b using popAll.induct with
  | case1 b hpop =>
    rw [popAll_of_none hpop]
    exact ⟨h, .refl _, rfl⟩
  | case2 b frame c hpop _ _ _ _ ih =>
    obtain ⟨_, _, _, hordered, _⟩ := ordered_pop h hpop
    obtain ⟨hordered', hrest⟩ := ih hordered
    have hpopped := releases_pop h hpop
    rw [popAll_of_some hpop]
    refine ⟨hordered', hpopped.perm.trans (hrest.perm.cons frame), ?_⟩
    exact hrest.discarded.trans hpopped.discarded

theorem releases_drain (b : JitterBuffer) : Releases b b.drain.1 b.drain.2 := by
  refine ⟨?_, rfl⟩
  show b.held.Perm (b.held ++ [])
  rw [List.append_nil]

theorem held_drain (b : JitterBuffer) : b.drain.2.held = [] := rfl

end Parley.Rtp.JitterBuffer
