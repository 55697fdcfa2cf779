import Mathlib.Data.List.Induction
import Parley.Proofs.Storage.Tape

/-!
# `Parley/Proofs/Storage/Keeping.lean` — the recorder keeps all that it is given

Files are opened when they are needed, closed when their streams are given up, and opened again;
whether a file is then begun anew or added to is remembered apart from whether it is open. All of
this can be forgotten. What a recorder comes to is a tape for each stream, and a writing adds to its
end; closing and flushing bring bytes nearer to the file, but take nothing off a tape and put
nothing on it (`Rests`). So a file that was brought up to date holds what was written of its stream
since the recorder was made, and nothing else (`keeps_all_written`).
-/

set_option autoImplicit false

namespace Parley.Recorder

variable {old : Table UInt32 Octets} {r : Recorder} {ssrc other : UInt32}

/-! ## Closing and flushing -/

/-- Between two states of a recorder nothing was written, though bytes may have reached files. -/
structure Rests (old : Table UInt32 Octets) (r q : Recorder) : Prop where
  sound : q.Sound old
  tape : ∀ ssrc, q.tape ssrc = r.tape ssrc
  bytesWritten : q.bytesWritten = r.bytesWritten

theorem rests_close (h : r.Sound old) (ssrc : UInt32) : Rests old r (r.close ssrc) := by
  unfold close
  cases hget : r.pending.get? ssrc with
  | none => exact ⟨h, fun _ => rfl, rfl⟩
  | some bytes =>
    have hcreated := h.created ssrc bytes hget
    refine ⟨⟨h.unique.erase ssrc, ?_, ?_, ?_, h.reliable⟩, ?_, rfl⟩
    · intro other content hopen
      by_cases hsame : other = ssrc
      · exact hsame ▸ hcreated
      · dsimp only at hopen
        rw [Table.get?_erase_of_ne _ hsame] at hopen
        exact h.created other content hopen
    · intro other hother
      by_cases hsame : other = ssrc
      · subst hsame
        exact ⟨_, Table.get?_insert_self _ _ _⟩
      · dsimp only
        rw [get?_settle_of_ne bytes hsame]
        exact h.present other hother
    · intro other hother
      have hne : other ≠ ssrc := fun hsame => hother (hsame ▸ hcreated)
      dsimp only
      rw [get?_settle_of_ne bytes hne]
      exact h.untouched other hother
    · intro other
      unfold tape
      by_cases hsame : other = ssrc
      · -- what waited for the file is at its end now, and nothing waits any more
        subst hsame
        simp [settle, hget]
      · simp only [get?_settle_of_ne bytes hsame, Table.get?_erase_of_ne _ hsame]

theorem get?_files_close (h : r.Sound old) (ssrc : UInt32) :
    (r.close ssrc).files.get? ssrc = (r.tape ssrc).or (old.get? ssrc) := by
  have hrests := rests_close h ssrc
  have hclosed : (r.close ssrc).pending.get? ssrc = none := by
    unfold close
    cases hget : r.pending.get? ssrc with
    | none => exact hget
    | some bytes => exact Table.get?_erase_self _ _
  rw [get?_files_of_closed hrests.sound hclosed, hrests.tape]

theorem get?_pending_flush (r : Recorder) (ssrc : UInt32) :
    r.flush.pending.get? ssrc = (r.pending.get? ssrc).map fun _ => [] := by
  show (Table.mk (r.pending.entries.map fun e => (e.1, ([] : Octets)))).get? ssrc = _
  obtain ⟨entries⟩ := r.pending
  induction entries with
  | nil => rfl
  | cons e rest ih =>
    dsimp only at ih ⊢
    rw [List.map_cons, Table.get?_cons, Table.get?_cons, ih]
    split <;> rfl

theorem rests_flush (h : r.Sound old) : Rests old r r.flush := by
  have hfile := get?_files_flush h
  have hpresent : ∀ ssrc, ssrc ∈ r.created → r.flush.files.get? ssrc = r.tape ssrc := by
    intro ssrc hcreated
    rw [hfile, tape, if_pos hcreated]
    rfl
  refine ⟨⟨?_, ?_, ?_, ?_, h.reliable⟩, ?_, rfl⟩
  · exact List.pairwise_map.mpr h.unique
  · intro ssrc bytes hopen
    rw [get?_pending_flush] at hopen
    obtain ⟨before, hbefore, -⟩ := Option.map_eq_some_iff.mp hopen
    exact h.created ssrc before hbefore
  · intro ssrc hcreated
    rw [hpresent ssrc hcreated]
    exact ⟨_, if_pos hcreated⟩
  · intro ssrc hnot
    have hnone : r.tape ssrc = none := if_neg hnot
    rw [hfile, hnone]
    rfl
  · intro ssrc
    have hempty : (r.flush.pending.get? ssrc).getD [] = [] := by
      rw [get?_pending_flush]
      cases r.pending.get? ssrc <;> rfl
    by_cases hcreated : ssrc ∈ r.created
    · have hflushed : r.flush.tape ssrc =
          some ((r.flush.files.get? ssrc).getD [] ++ (r.flush.pending.get? ssrc).getD []) :=
        if_pos hcreated
      rw [hflushed, hpresent ssrc hcreated, hempty, tape, if_pos hcreated]
      simp
    · exact (if_neg hcreated).trans (if_neg hcreated).symm

/-! ## One call after the other -/

/-- What is done with a recorder. -/
inductive Call where
  | write (ssrc : UInt32) (samples : List Int16)
  | close (ssrc : UInt32)
  | flush

def call (r : Recorder) : Call → Recorder
  | .write ssrc samples => (r.write ssrc samples).2
  | .close ssrc => r.close ssrc
  | .flush => r.flush

def callAll (r : Recorder) (calls : List Call) : Recorder := calls.foldl call r

/-- The samples that a call writes, with their stream, if it writes any. -/
def Call.written? : Call → Option (UInt32 × List Int16)
  | .write ssrc samples => some (ssrc, samples)
  | _ => none

/-- The samples that calls write of one stream, piece by piece. -/
def given (ssrc : UInt32) (calls : List Call) : List (List Int16) :=
  piecesOf ssrc (calls.filterMap Call.written?)

/-- All samples that calls write, of whatever streams. -/
def samplesOf (calls : List Call) : List Int16 :=
  (calls.filterMap Call.written?).flatMap (·.2)

/-- What a file holds when pieces were written to it. The first of them replaces an older file. -/
def fileOf (older : Option Octets) (pieces : List (List Int16)) : Option Octets :=
  if pieces = [] then older else some (Octets.ofSamplesLe pieces.flatten)

theorem onto_eq (tape : Option Octets) (pieces : List (List Int16)) :
    onto tape pieces =
      if pieces = [] then tape
      else some (tape.getD [] ++ Octets.ofSamplesLe pieces.flatten) := by
  induction pieces generalizing tape with
  | nil => rfl
  | cons samples rest ih =>
    have hflatten : Octets.ofSamplesLe (samples :: rest).flatten =
        Octets.ofSamplesLe samples ++ Octets.ofSamplesLe rest.flatten :=
      List.flatMap_append
    have hrest := ih (some (tape.getD [] ++ Octets.ofSamplesLe samples))
    rw [if_neg (List.cons_ne_nil samples rest), hflatten]
    refine hrest.trans ?_
    by_cases hlast : rest = []
    · subst hlast
      simp [Octets.ofSamplesLe]
    · simp [hlast]

theorem onto_none_or (older : Option Octets) (pieces : List (List Int16)) :
    (onto none pieces).or older = fileOf older pieces := by
  rw [onto_eq, fileOf]
  split <;> simp

theorem onto_append (tape : Option Octets) (pieces more : List (List Int16)) :
    onto tape (pieces ++ more) = onto (onto tape pieces) more :=
  List.foldl_append

theorem given_concat (ssrc : UInt32) (calls : List Call) (c : Call) :
    given ssrc (calls ++ [c]) = given ssrc calls ++ given ssrc [c] := by
  simp [given, piecesOf]

theorem bytesWritten_write (h : r.Sound old) (ssrc : UInt32) (samples : List Int16) :
    (r.write ssrc samples).2.bytesWritten = r.bytesWritten + samples.length * 2 := by
  have hopened : (r.counted.opened ssrc).bytesWritten = r.bytesWritten := by
    unfold opened openFile
    dsimp only
    split
    · rfl
    · split <;> rfl
  rw [write_eq h.reliable, hopened, Octets.length_ofSamplesLe]

/-- After a call the files are in order, each tape has what the call writes of its stream besides
what it had, and the bytes are counted. -/
theorem call_spec (h : r.Sound old) (c : Call) :
    (r.call c).Sound old ∧
      (∀ ssrc, (r.call c).tape ssrc = onto (r.tape ssrc) (given ssrc [c])) ∧
      (r.call c).bytesWritten = r.bytesWritten + 2 * (samplesOf [c]).length := by
  have hrests {q : Recorder} (hq : Rests old r q) (hsilent : c.written? = none) :
      q.Sound old ∧ (∀ ssrc, q.tape ssrc = onto (r.tape ssrc) (given ssrc [c])) ∧
        q.bytesWritten = r.bytesWritten + 2 * (samplesOf [c]).length := by
    have hnothing : [c].filterMap Call.written? = [] := by simp [hsilent]
    refine ⟨hq.sound, fun ssrc => ?_, ?_⟩
    · rw [given, hnothing]
      exact hq.tape ssrc
    · rw [samplesOf, hnothing]
      exact hq.bytesWritten
  cases c with
  | write ssrc samples =>
    have hwrites := writes_write h ssrc samples
    refine ⟨hwrites.sound, fun other => ?_, ?_⟩
    · by_cases hsame : other = ssrc
      · subst hsame
        simpa [call, given, piecesOf, Call.written?, onto] using hwrites.own
      · have hnone : given other [.write ssrc samples] = [] := by
          simp [given, piecesOf, Call.written?, Ne.symm hsame]
        rw [hnone]
        exact hwrites.others other hsame
    · have hbytes := bytesWritten_write h ssrc samples
      simpa [call, samplesOf, Call.written?, Nat.mul_comm] using hbytes
  | close ssrc => exact hrests (rests_close h ssrc) rfl
  | flush => exact hrests (rests_flush h) rfl

/-- What is on the tapes after calls is what the calls wrote, in order. -/
theorem callAll_spec (h : r.Sound old) (calls : List Call) :
    (r.callAll calls).Sound old ∧
      (∀ ssrc, (r.callAll calls).tape ssrc = onto (r.tape ssrc) (given ssrc calls)) ∧
      (r.callAll calls).bytesWritten = r.bytesWritten + 2 * (samplesOf calls).length := by
  induction calls using List.reverseRecOn with
  | nil => exact ⟨h, fun _ => rfl, rfl⟩
  | append_singleton calls c ih =>
    obtain ⟨hsound, htape, hbytes⟩ := ih
    obtain ⟨hsound', htape', hbytes'⟩ := call_spec hsound c
    have hrun : r.callAll (calls ++ [c]) = (r.callAll calls).call c := by simp [callAll]
    rw [hrun]
    refine ⟨hsound', fun ssrc => ?_, ?_⟩
    · rw [htape', htape, given_concat, onto_append]
    · have hsamples : samplesOf (calls ++ [c]) = samplesOf calls ++ samplesOf [c] := by
        simp [samplesOf]
      rw [hbytes', hbytes, hsamples, List.length_append]
      omega

/-- A file that is still open holds the beginning of its tape. -/
theorem files_prefix (h : r.Sound old) {content : Octets} (htape : r.tape ssrc = some content) :
    ∃ bytes, r.files.get? ssrc = some bytes ∧ bytes <+: content := by
  have hcreated : ssrc ∈ r.created := by
    by_contra hnot
    rw [tape, if_neg hnot] at htape
    cases htape
  obtain ⟨bytes, hbytes⟩ := h.present ssrc hcreated
  rw [tape, if_pos hcreated, hbytes] at htape
  exact ⟨bytes, hbytes, _, Option.some.inj htape⟩

/-- **The recorder keeps all that it is given.** On storage that does not fail, after any calls:
every writing goes well; once the files are flushed, each holds the samples written of its stream
since the recorder was made, in the order of the calls, and so does one that is closed, while a file
of a stream that was never written is what it was before, or is not there; meanwhile a file to which
something was written holds a beginning of that, and nothing of an older file; and two bytes are
counted for each sample. -/
theorem keeps_all_written (old : Table UInt32 Octets) (calls : List Call) :
    let r := ({ files := old } : Recorder).callAll calls
    (∀ ssrc samples, (r.write ssrc samples).1 = true) ∧
    (∀ ssrc, r.flush.files.get? ssrc = fileOf (old.get? ssrc) (given ssrc calls)) ∧
    (∀ ssrc, (r.close ssrc).files.get? ssrc = fileOf (old.get? ssrc) (given ssrc calls)) ∧
    (∀ ssrc, given ssrc calls = [] → r.files.get? ssrc = old.get? ssrc) ∧
    (∀ ssrc, given ssrc calls ≠ [] → ∃ bytes, r.files.get? ssrc = some bytes ∧
      bytes <+: Octets.ofSamplesLe (given ssrc calls).flatten) ∧
    r.bytesWritten = 2 * (samplesOf calls).length := by
  intro r
  obtain ⟨hsound, htape, hbytes⟩ := callAll_spec (sound_new old) calls
  have htape' : ∀ ssrc, r.tape ssrc = onto none (given ssrc calls) := htape
  refine ⟨fun ssrc samples => ?_, fun ssrc => ?_, fun ssrc => ?_, fun ssrc hnone => ?_,
    fun ssrc hsome => ?_, ?_⟩
  · rw [write_eq hsound.reliable]
  · rw [get?_files_flush hsound, htape', onto_none_or]
  · rw [get?_files_close hsound, htape', onto_none_or]
  · refine hsound.untouched ssrc fun hcreated => ?_
    have hnot : r.tape ssrc = none := by rw [htape', hnone]; rfl
    rw [tape, if_pos hcreated] at hnot
    cases hnot
  · refine files_prefix hsound ?_
    rw [htape', onto_eq, if_neg hsome]
    rfl
  · simpa using hbytes

end Parley.Recorder
