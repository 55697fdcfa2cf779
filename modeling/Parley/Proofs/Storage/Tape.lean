import Parley.Storage.Recorder

/-!
# `Parley/Proofs/Storage/Tape.lean` — what the recorder has of each stream

Part of what was written to a stream's file has reached it, and part waits to. The **tape** of a
stream is the two in one: what the file will hold once nothing waits. A stream that was never
written has no tape, and its file, if there is an older one, is left alone.

On storage that does not fail a writing adds to the tape of its stream and to no other
(`tape_write`), and after a flush the files are the tapes (`get?_files_flush`).
-/

set_option autoImplicit false

namespace Parley.Recorder

/-- All that was written of a stream whose file was created here. -/
def tape (r : Recorder) (ssrc : UInt32) : Option Octets :=
  if ssrc ∈ r.created then
    some ((r.files.get? ssrc).getD [] ++ (r.pending.get? ssrc).getD [])
  else none

/-- How the files stand to those there were before: an open file was created here, one that was
created here is there, and any other is as it was. -/
structure Sound (old : Table UInt32 Octets) (r : Recorder) : Prop where
  unique : r.pending.Unique
  created : ∀ ssrc bytes, r.pending.get? ssrc = some bytes → ssrc ∈ r.created
  present : ∀ ssrc, ssrc ∈ r.created → ∃ bytes, r.files.get? ssrc = some bytes
  untouched : ∀ ssrc, ssrc ∉ r.created → r.files.get? ssrc = old.get? ssrc
  reliable : r.faults = .none

variable {old : Table UInt32 Octets} {r : Recorder} {ssrc other : UInt32}

theorem sound_new (old : Table UInt32 Octets) : Sound old { files := old } := by
  constructor
  · exact Table.unique_empty
  · intro ssrc bytes h
    cases h
  · intro ssrc h
    cases h
  · intro ssrc _
    rfl
  · rfl

/-! ## Writing -/

theorem mem_created_openFile :
    other ∈ (r.openFile ssrc).created ↔ other = ssrc ∨ other ∈ r.created := by
  unfold openFile
  dsimp only
  split
  · rename_i hmem
    rw [List.contains_iff_mem] at hmem
    constructor
    · exact Or.inr
    · rintro (rfl | hother)
      · exact hmem
      · exact hother
  · exact List.mem_cons

theorem get?_files_openFile (h : other ≠ ssrc) :
    (r.openFile ssrc).files.get? other = r.files.get? other := by
  unfold openFile
  dsimp only
  split
  · rfl
  · exact Table.get?_insert_of_ne _ _ h

theorem present_openFile (h : r.Sound old) (ssrc : UInt32) :
    ∃ bytes, (r.openFile ssrc).files.get? ssrc = some bytes := by
  unfold openFile
  dsimp only
  split
  · rename_i hmem
    exact h.present ssrc (List.contains_iff_mem.mp hmem)
  · exact ⟨[], Table.get?_insert_self _ _ _⟩

theorem pending_openFile : (r.openFile ssrc).pending = r.pending.insert ssrc [] := by
  unfold openFile
  dsimp only
  split <;> rfl

theorem faults_openFile : (r.openFile ssrc).faults = r.faults := by
  unfold openFile
  dsimp only
  split <;> rfl

theorem Sound.openFile (h : r.Sound old) (ssrc : UInt32) : (r.openFile ssrc).Sound old := by
  constructor
  · rw [pending_openFile]
    exact h.unique.insert ssrc []
  · intro other bytes hget
    rw [mem_created_openFile]
    by_cases hsame : other = ssrc
    · exact Or.inl hsame
    · rw [pending_openFile, Table.get?_insert_of_ne _ _ hsame] at hget
      exact Or.inr (h.created other bytes hget)
  · intro other hmem
    by_cases hsame : other = ssrc
    · exact hsame ▸ present_openFile h ssrc
    · rw [get?_files_openFile hsame]
      exact h.present other ((mem_created_openFile.mp hmem).resolve_left hsame)
  · intro other hnot
    rw [mem_created_openFile, not_or] at hnot
    rw [get?_files_openFile hnot.1]
    exact h.untouched other hnot.2
  · rw [faults_openFile]
    exact h.reliable

/-- A file that is opened has a tape, if it had none before, and nothing more on it. -/
theorem tape_openFile_self (hclosed : r.pending.get? ssrc = none) :
    (r.openFile ssrc).tape ssrc = some ((r.tape ssrc).getD []) := by
  have hmem : ssrc ∈ (r.openFile ssrc).created := mem_created_openFile.mpr (Or.inl rfl)
  rw [tape, if_pos hmem, pending_openFile, Table.get?_insert_self]
  unfold openFile
  dsimp only
  by_cases hcreated : ssrc ∈ r.created
  · rw [if_pos (List.contains_iff_mem.mpr hcreated), tape, if_pos hcreated, hclosed]
    rfl
  · rw [if_neg (fun h => hcreated (List.contains_iff_mem.mp h)), tape, if_neg hcreated]
    simp

theorem tape_openFile_of_ne (h : other ≠ ssrc) :
    (r.openFile ssrc).tape other = r.tape other := by
  have hmem : other ∈ (r.openFile ssrc).created ↔ other ∈ r.created := by
    rw [mem_created_openFile]
    exact or_iff_right h
  unfold tape
  rw [pending_openFile, Table.get?_insert_of_ne _ _ h, get?_files_openFile h]
  simp only [hmem]

/-- Between two states of a recorder samples of one stream were written. -/
structure Writes (old : Table UInt32 Octets) (r : Recorder) (ssrc : UInt32) (bytes : Octets)
    (q : Recorder) : Prop where
  sound : q.Sound old
  own : q.tape ssrc = some ((r.tape ssrc).getD [] ++ bytes)
  others : ∀ other, other ≠ ssrc → q.tape other = r.tape other

/-- The recorder with the file of a stream open. -/
def opened (r : Recorder) (ssrc : UInt32) : Recorder := if r.isOpen ssrc then r else r.openFile ssrc

theorem writes_opened (h : r.Sound old) (ssrc : UInt32) :
    Writes old r ssrc [] (r.opened ssrc) ∧ ∃ bytes, (r.opened ssrc).pending.get? ssrc = some bytes := by
  unfold opened
  cases hget : r.pending.get? ssrc with
  | some bytes =>
    have hopen : r.isOpen ssrc = true := by simp [isOpen, Table.contains, hget]
    rw [if_pos hopen]
    refine ⟨⟨h, ?_, fun other _ => rfl⟩, bytes, hget⟩
    rw [tape, if_pos (h.created ssrc bytes hget), Option.getD_some, List.append_nil]
  | none =>
    have hclosed : r.isOpen ssrc = false := by simp [isOpen, Table.contains, hget]
    rw [if_neg (by simp [hclosed])]
    refine ⟨⟨h.openFile ssrc, ?_, fun other hother => tape_openFile_of_ne hother⟩, [], ?_⟩
    · rw [tape_openFile_self hget, List.append_nil]
    · rw [pending_openFile, Table.get?_insert_self]

/-- What is added to the pending bytes of an open file is added to its tape. -/
theorem writes_pending (h : r.Sound old) {before : Octets}
    (hopen : r.pending.get? ssrc = some before) (bytes : Octets) (bytesWritten : Nat) :
    Writes old r ssrc bytes
      { r with pending := r.pending.insert ssrc (before ++ bytes), bytesWritten } := by
  have hcreated := h.created ssrc before hopen
  refine ⟨⟨h.unique.insert ssrc _, ?_, h.present, h.untouched, h.reliable⟩, ?_, ?_⟩
  · intro other bytes' hget
    by_cases hsame : other = ssrc
    · exact hsame ▸ hcreated
    · dsimp only at hget
      rw [Table.get?_insert_of_ne _ _ hsame] at hget
      exact h.created other bytes' hget
  · simp only [tape, if_pos hcreated, Table.get?_insert_self, hopen, Option.getD_some,
      List.append_assoc]
  · intro other hother
    simp only [tape, Table.get?_insert_of_ne _ _ hother]

theorem Writes.trans {q s : Recorder} {bytes more : Octets} (h : Writes old r ssrc bytes q)
    (h' : Writes old q ssrc more s) : Writes old r ssrc (bytes ++ more) s := by
  refine ⟨h'.sound, ?_, ?_⟩
  · rw [h'.own, h.own, Option.getD_some, List.append_assoc]
  · intro other hother
    rw [h'.others other hother, h.others other hother]

/-- The recorder with one more writing counted. -/
def counted (r : Recorder) : Recorder := { r with attempts := r.attempts + 1 }

theorem write_eq (h : r.faults = .none) (ssrc : UInt32) (samples : List Int16) :
    r.write ssrc samples =
      (true,
        { r.counted.opened ssrc with
          pending := (r.counted.opened ssrc).pending.insert ssrc
            (((r.counted.opened ssrc).pending.get? ssrc).getD [] ++ Octets.ofSamplesLe samples)
          bytesWritten := (r.counted.opened ssrc).bytesWritten
            + (Octets.ofSamplesLe samples).length }) := by
  have hfault : r.faults r.attempts ssrc = Option.none := by
    rw [h]
    rfl
  have hcan (cause : WriteFault) : (r.faults r.attempts ssrc == some cause) = false := by
    rw [hfault]
    rfl
  unfold write
  simp only [hcan, Bool.and_false, Bool.false_eq_true, if_false]
  rfl

/-- On storage that does not fail, samples that are written are on the tape of their stream. -/
theorem writes_write (h : r.Sound old) (ssrc : UInt32) (samples : List Int16) :
    Writes old r ssrc (Octets.ofSamplesLe samples) (r.write ssrc samples).2 := by
  have hcounted : r.counted.Sound old := ⟨h.unique, h.created, h.present, h.untouched, h.reliable⟩
  obtain ⟨hopened, before, hopen⟩ := writes_opened hcounted ssrc
  have hall := hopened.trans (writes_pending hopened.sound hopen (Octets.ofSamplesLe samples)
    ((r.counted.opened ssrc).bytesWritten + (Octets.ofSamplesLe samples).length))
  rw [write_eq h.reliable, hopen]
  exact ⟨hall.sound, hall.own, hall.others⟩

/-! ## Writing many times -/

/-- Writes what belongs to any streams, one after the other. -/
def writeAll (r : Recorder) (writes : List (UInt32 × List Int16)) : Recorder :=
  writes.foldl (fun r w => (r.write w.1 w.2).2) r

/-- What a tape becomes when samples are put on it piece by piece. Where there is no piece no tape
is begun. -/
def onto (tape : Option Octets) (pieces : List (List Int16)) : Option Octets :=
  pieces.foldl (fun tape samples => some (tape.getD [] ++ Octets.ofSamplesLe samples)) tape

/-- The pieces that are written of one stream. -/
def piecesOf (ssrc : UInt32) (writes : List (UInt32 × List Int16)) : List (List Int16) :=
  (writes.filter (·.1 == ssrc)).map (·.2)

/-- A tape depends on what is written of its own stream, in the order in which it is written. -/
theorem tape_writeAll (h : r.Sound old) (writes : List (UInt32 × List Int16)) (ssrc : UInt32) :
    (r.writeAll writes).Sound old ∧
      (r.writeAll writes).tape ssrc = onto (r.tape ssrc) (piecesOf ssrc writes) := by
  induction writes generalizing r with
  | nil => exact ⟨h, rfl⟩
  | cons w rest ih =>
    have hwrite := writes_write h w.1 w.2
    obtain ⟨hsound, htape⟩ := ih hwrite.sound
    refine ⟨hsound, htape.trans ?_⟩
    by_cases hown : w.1 = ssrc
    · have hpieces : piecesOf ssrc (w :: rest) = w.2 :: piecesOf ssrc rest := by
        simp [piecesOf, hown]
      rw [hpieces, ← hown, hwrite.own]
      rfl
    · have hpieces : piecesOf ssrc (w :: rest) = piecesOf ssrc rest := by
        simp [piecesOf, hown]
      rw [hpieces, hwrite.others ssrc (Ne.symm hown)]

/-! ## Flushing -/

theorem get?_settle_of_ne {files : Table UInt32 Octets} (bytes : Octets) (h : other ≠ ssrc) :
    (settle files ssrc bytes).get? other = files.get? other :=
  Table.get?_insert_of_ne _ _ h

/-- A file gets the bytes that wait for it, if it is open. -/
theorem get?_settles {entries : List (UInt32 × Octets)} (hunique : (Table.mk entries).Unique)
    (files : Table UInt32 Octets) (ssrc : UInt32) :
    (entries.foldl (fun files e => settle files e.1 e.2) files).get? ssrc =
      match (Table.mk entries).get? ssrc with
      | none => files.get? ssrc
      | some bytes => some ((files.get? ssrc).getD [] ++ bytes) := by
  induction entries generalizing files with
  | nil => rfl
  | cons e rest ih =>
    obtain ⟨hhead, hrest⟩ := List.pairwise_cons.mp hunique
    rw [List.foldl_cons, ih hrest, Table.get?_cons]
    by_cases hown : e.1 = ssrc
    · -- the stream has this entry alone, so the entries after it leave its file as it is
      have hnone : (Table.mk rest).get? ssrc = none := by
        rw [Table.get?_eq_none_iff]
        intro hmem
        obtain ⟨e', he', hkey⟩ := List.mem_map.mp hmem
        exact hhead e' he' (hown.trans hkey.symm)
      rw [if_pos hown, hnone, ← hown]
      exact Table.get?_insert_self _ _ _
    · rw [if_neg hown, get?_settle_of_ne _ (Ne.symm hown)]

/-- A file that is not open is its tape, if it was created here, and else it is as it was. -/
theorem get?_files_of_closed (h : r.Sound old) (hclosed : r.pending.get? ssrc = none) :
    r.files.get? ssrc = (r.tape ssrc).or (old.get? ssrc) := by
  unfold tape
  by_cases hcreated : ssrc ∈ r.created
  · obtain ⟨bytes, hbytes⟩ := h.present ssrc hcreated
    rw [if_pos hcreated, hclosed, hbytes]
    exact congrArg some (List.append_nil bytes).symm
  · rw [if_neg hcreated]
    exact h.untouched ssrc hcreated

/-- Once nothing waits any more, the files created here are the tapes, and the others are as they
were. -/
theorem get?_files_flush (h : r.Sound old) (ssrc : UInt32) :
    r.flush.files.get? ssrc = (r.tape ssrc).or (old.get? ssrc) := by
  have hfile := get?_settles h.unique r.files ssrc
  refine hfile.trans ?_
  show (match r.pending.get? ssrc with
    | none => r.files.get? ssrc
    | some bytes => some ((r.files.get? ssrc).getD [] ++ bytes)) = _
  cases hget : r.pending.get? ssrc with
  | some bytes =>
    rw [tape, if_pos (h.created ssrc bytes hget), hget]
    rfl
  | none => exact get?_files_of_closed h hget

end Parley.Recorder
