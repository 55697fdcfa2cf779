import Parley.Wire.Schema

/-!
# `Parley/Proofs/Wire/RoundTrip.lean` — what is written by a schema is read back

Three layers, each resting on the one below. An entry that is written is read back, and so is a list
of them (`Entry.readAll_write`). A format is faithful if the value it wrote comes out of its payload
(`Format.Faithful`). A schema is faithful if its numbers are in order and its fields, handed what
they wrote one after the other, put the message together again (`Schema.Rebuilds`), which is shown
field by field by the lemmas of that name. A faithful schema makes its messages a faithful format,
one level deeper.
-/

set_option autoImplicit false

namespace Parley.Wire

/-! ## Entries -/

/-- Whether a payload can be told from its bytes. -/
def Payload.Fits : Payload → Prop
  | .varint _ => True
  | .bytes v => v.length < Nat.pow 2 64
  | .skipped => False

/-- Whether an entry can be told from its bytes. -/
structure Entry.Fits (e : Entry) : Prop where
  pos : 0 < e.number
  lt : e.number < 0x20000000
  payload : e.payload.Fits

theorem Varint.length_write_pos (n : Nat) : 0 < (Varint.write n).length := by
  rw [Varint.write]
  split <;> simp

theorem takeBytes_write {v : Octets} (h : v.length < Nat.pow 2 64) (rest : Octets) :
    takeBytes (Varint.write v.length ++ (v ++ rest)) = some (v, rest) := by
  have hlength : (UInt64.ofNat v.length).toNat = v.length := by
    rw [UInt64.toNat_ofNat']
    exact Nat.mod_eq_of_lt h
  have hread := Varint.read_write (UInt64.ofNat v.length) (v ++ rest)
  rw [hlength] at hread
  simp [takeBytes, hread, hlength, Octets.splitExactly?_append]

namespace Entry

theorem read_write {e : Entry} (h : e.Fits) (depth : Nat) (rest : Octets) :
    read depth (e.write ++ rest) = some (e, rest) := by
  obtain ⟨number, payload⟩ := e
  obtain ⟨hpos, hlt, hpayload⟩ := h
  cases payload with
  | varint v =>
    have hkey := Key.read_write ⟨number, .varint⟩ (Varint.write v.toNat ++ rest) hpos hlt
    simp [read, write, Payload.read, hkey, Varint.read_write]
  | bytes v =>
    have hkey := Key.read_write ⟨number, .bytes⟩ (Varint.write v.length ++ (v ++ rest)) hpos hlt
    simp [read, write, Payload.read, hkey, takeBytes_write hpayload]
  | skipped => exact absurd hpayload id

theorem length_write_pos {e : Entry} (h : e.Fits) : 0 < e.write.length := by
  obtain ⟨number, payload⟩ := e
  cases payload with
  | varint v =>
    have := Varint.length_write_pos v.toNat
    simp only [write, List.length_append]
    omega
  | bytes v =>
    have := Varint.length_write_pos v.length
    simp only [write, List.length_append]
    omega
  | skipped => exact absurd h.payload id

theorem readRounds_write (depth : Nat) {entries : List Entry} (h : ∀ e ∈ entries, e.Fits)
    {rounds : Nat} (hrounds : (entries.flatMap write).length ≤ rounds) :
    readRounds depth rounds (entries.flatMap write) = some entries := by
  induction entries generalizing rounds with
  | nil => cases rounds <;> rfl
  | cons e rest ih =>
    have hfits := h e List.mem_cons_self
    have hpos := length_write_pos hfits
    have hread := read_write hfits depth (rest.flatMap write)
    rw [List.flatMap_cons] at hrounds ⊢
    rw [List.length_append] at hrounds
    have hrest : readRounds depth (rounds - 1) (rest.flatMap write) = some rest :=
      ih (fun e he => h e (List.mem_cons_of_mem _ he)) (by omega)
    -- an entry has a first byte, so there is a round to read it in
    obtain ⟨b, bytes, hbytes⟩ : ∃ b bytes, e.write ++ rest.flatMap write = b :: bytes := by
      apply List.exists_cons_of_length_pos
      rw [List.length_append]
      omega
    obtain ⟨rounds, rfl⟩ : ∃ r, rounds = r + 1 := ⟨rounds - 1, by omega⟩
    rw [hbytes] at hread ⊢
    simp only [readRounds, hread, Option.bind_eq_bind, Option.bind_some]
    rw [Nat.add_sub_cancel] at hrest
    rw [hrest]
    rfl

theorem readAll_write (depth : Nat) {entries : List Entry} (h : ∀ e ∈ entries, e.Fits) :
    readAll depth (entries.flatMap write) = some entries :=
  readRounds_write depth h (Nat.le_refl _)

end Entry

/-! ## Formats -/

namespace Format

/-- A value is read back from the payload it was written as. -/
structure Faithful {α : Type} (format : Format α) (depth : Nat) : Prop where
  whole : ∀ a, format.write a ≠ .skipped
  read_write : ∀ a, (format.write a).Fits → format.read depth format.blank [format.write a] = some a

/-- A value is read back whatever was read before. -/
structure Overwrites {α : Type} (format : Format α) : Prop where
  whole : ∀ a, format.write a ≠ .skipped
  read_write : ∀ depth start a, format.read depth start [format.write a] = some a

theorem Overwrites.faithful {α : Type} {format : Format α} (h : format.Overwrites) (depth : Nat) :
    format.Faithful depth :=
  ⟨h.whole, fun a _ => h.read_write depth format.blank a⟩

theorem overwrites_uint32 : uint32.Overwrites := by
  refine ⟨fun v => by simp [uint32], fun depth start v => ?_⟩
  simp [uint32, readLast]

theorem overwrites_uint64 : uint64.Overwrites := by
  refine ⟨fun v => by simp [uint64], fun depth start v => ?_⟩
  simp [uint64, readLast]

theorem overwrites_int64 : int64.Overwrites := by
  refine ⟨fun v => by simp [int64], fun depth start v => ?_⟩
  simp [int64, readLast]

/-- A negative number is written as one of 64 bits, and cut back to 32 when it is read. -/
theorem overwrites_enumeration : enumeration.Overwrites := by
  refine ⟨fun v => by simp [enumeration], fun depth start v => ?_⟩
  simp [enumeration, readLast]

theorem overwrites_bool : bool.Overwrites := by
  refine ⟨fun v => by simp [bool], fun depth start v => ?_⟩
  cases v <;> rfl

theorem overwrites_octets : octets.Overwrites := by
  refine ⟨fun v => by simp [octets], fun depth start v => ?_⟩
  simp [octets, readLast, Payload.bytes?]

theorem overwrites_text : text.Overwrites := by
  refine ⟨fun v => by simp [text], fun depth start v => ?_⟩
  have hvalid : String.fromUTF8? v.toUTF8 = some v := dif_pos v.isValidUTF8
  simpa [text, readLast, Payload.bytes?] using hvalid

end Format

/-! ## Fields -/

namespace Schema

variable {M α : Type} {s : Schema M} {depth number : Nat} {name : String}

/-- Each field of the schema, handed what it wrote of a message, completes what is there of it. -/
structure Rebuilds (depth : Nat) (m stage : M) (s : Schema M) : Prop where
  whole : ∀ f ∈ s, .skipped ∉ f.write m
  read_write : (∀ f ∈ s, ∀ p ∈ f.write m, p.Fits) →
    s.foldlM (fun stage f => f.read depth stage (f.write m)) stage = some m

namespace Rebuilds

variable {m stage : M}

theorem nil (m : M) : Rebuilds depth m m [] := ⟨by simp, fun _ => rfl⟩

theorem cons {f : Field M} {next : M} (whole : .skipped ∉ f.write m)
    (read_write : (∀ p ∈ f.write m, p.Fits) → f.read depth stage (f.write m) = some next)
    (rest : Rebuilds depth m next s) : Rebuilds depth m stage (f :: s) := by
  constructor
  · intro g hg
    rcases List.mem_cons.mp hg with rfl | hg
    · exact whole
    · exact rest.whole g hg
  · intro hfits
    rw [List.foldlM_cons, read_write (hfits f List.mem_cons_self)]
    exact rest.read_write fun g hg => hfits g (List.mem_cons_of_mem f hg)

theorem required {format : Format α} {get : M → α} {set : M → α → M}
    (format_ok : format.Overwrites) (rest : Rebuilds depth m (set stage (get m)) s) :
    Rebuilds depth m stage (.required number name format get set :: s) := by
  apply cons _ _ rest
  · simpa [Field.required] using (format_ok.whole (get m)).symm
  · intro _
    simp [Field.required, format_ok.read_write]

theorem optional {format : Format α} {get : M → Option α} {set : M → Option α → M}
    (format_ok : format.Faithful depth) (unread : get stage = none)
    (unset : set stage none = stage) (rest : Rebuilds depth m (set stage (get m)) s) :
    Rebuilds depth m stage (.optional number name format get set :: s) := by
  apply cons _ _ rest
  · simpa [Field.optional] using fun a _ => format_ok.whole a
  · intro hfits
    cases hget : get m with
    | none => simp [Field.optional, hget, unset]
    | some a =>
      have hread := format_ok.read_write a (hfits _ (by simp [Field.optional, hget]))
      simp [Field.optional, hget, unread, hread]

theorem single {format : Format α} {get : M → Option α} {set : M → Option α → M}
    (format_ok : format.Overwrites) (unread : get stage = none) (unset : set stage none = stage)
    (rest : Rebuilds depth m (set stage (get m)) s) :
    Rebuilds depth m stage (.optional number name format get set :: s) :=
  optional (format_ok.faithful depth) unread unset rest

theorem mapM_map_of_read {α β γ : Type} {write : α → β} {read : β → Option γ} {whole : α → γ}
    {values : List α} (h : ∀ a ∈ values, read (write a) = some (whole a)) :
    (values.map write).mapM read = some (values.map whole) := by
  induction values with
  | nil => rfl
  | cons a rest ih =>
    have hrest := ih fun a ha => h a (List.mem_cons_of_mem _ ha)
    simp [List.mapM_cons, h a List.mem_cons_self, hrest]

theorem repeated {format : Format α} {get : M → List α} {set : M → List α → M}
    (format_ok : format.Faithful depth) (unread : get stage = [])
    (rest : Rebuilds depth m (set stage (get m)) s) :
    Rebuilds depth m stage (.repeated number name format get set :: s) := by
  apply cons _ _ rest
  · simpa [Field.repeated] using fun a _ => format_ok.whole a
  · intro hfits
    have hread : ((get m).map format.write).mapM (fun p => format.read depth format.blank [p]) =
        some ((get m).map id) :=
      mapM_map_of_read fun a ha => format_ok.read_write a (hfits _ (List.mem_map_of_mem ha))
    simp [Field.repeated, hread, unread]

theorem numbers {get : M → List UInt32} {set : M → List UInt32 → M} (unread : get stage = [])
    (rest : Rebuilds depth m (set stage (get m)) s) :
    Rebuilds depth m stage (.numbers number name get set :: s) := by
  apply cons _ _ rest
  · simp [Field.numbers, Format.uint32]
  · intro _
    have hread : ((get m).map Format.uint32.write).mapM Field.readNumbers =
        some ((get m).map fun v => [v]) :=
      mapM_map_of_read fun v _ => by simp [Format.uint32, Field.readNumbers]
    have hflatten : ((get m).map fun v => [v]).flatten = get m := by
      rw [← List.flatMap_def, List.flatMap_singleton']
    simp [Field.numbers, hread, hflatten, unread]

end Rebuilds

/-! ## Schemas -/

/-- The numbers of the fields are in order, and are numbers that a key can have. -/
def Numbered (s : Schema M) : Prop :=
  (s.map (·.number)).Pairwise (· < ·) ∧ ∀ n ∈ s.map (·.number), 0 < n ∧ n < 0x20000000

instance (s : Schema M) : Decidable (Numbered s) := inferInstanceAs (Decidable (_ ∧ _))

/-- Messages are put together again from what their fields wrote. -/
structure Faithful (s : Schema M) (depth : Nat) (blank : M) : Prop where
  numbered : Numbered s
  rebuilds : ∀ m, Rebuilds depth m blank s

theorem payloads_append (number : Nat) (entries more : List Entry) :
    Entry.payloads number (entries ++ more) =
      Entry.payloads number entries ++ Entry.payloads number more := by
  simp [Entry.payloads]

theorem payloads_map (number key : Nat) (ps : List Payload) :
    Entry.payloads number (ps.map fun p => ⟨key, p⟩) = if key = number then ps else [] := by
  unfold Entry.payloads
  split
  · rename_i h
    simp [List.filter_map, Function.comp_def, h]
  · rename_i h
    simp [List.filter_map, Function.comp_def, h]

theorem payloads_entries_of_lt {number : Nat} (m : M) (h : ∀ n ∈ s.map (·.number), number < n) :
    Entry.payloads number (s.entries m) = [] := by
  induction s with
  | nil => rfl
  | cons f rest ih =>
    have hne : f.number ≠ number := Nat.ne_of_gt (h f.number List.mem_cons_self)
    have hrest := ih fun n hn => h n (List.mem_cons_of_mem _ hn)
    rw [entries] at hrest ⊢
    rw [List.flatMap_cons, payloads_append, payloads_map, if_neg hne, hrest]
    rfl

/-- A field gets back what it wrote. -/
theorem payloads_entries (m : M) (h : (s.map (·.number)).Pairwise (· < ·)) {f : Field M}
    (hf : f ∈ s) : Entry.payloads f.number (s.entries m) = f.write m := by
  induction s with
  | nil => exact absurd hf (by simp)
  | cons g rest ih =>
    obtain ⟨hhead, hrest⟩ := List.pairwise_cons.mp h
    show Entry.payloads f.number ((g.write m).map (fun p => ⟨g.number, p⟩) ++ entries rest m) = _
    rw [payloads_append, payloads_map]
    rcases List.mem_cons.mp hf with rfl | hf
    · rw [if_pos rfl, payloads_entries_of_lt m hhead, List.append_nil]
    · have hne : g.number ≠ f.number := Nat.ne_of_lt (hhead f.number (List.mem_map_of_mem hf))
      rw [if_neg hne, ih hrest hf, List.nil_append]

theorem place_entries (m stage : M) (h : (s.map (·.number)).Pairwise (· < ·)) :
    s.place depth stage (s.entries m) =
      s.foldlM (fun stage f => f.read depth stage (f.write m)) stage := by
  -- by induction on the fields still to be read, out of the entries of all fields
  have hpart : ∀ (part : Schema M) (stage : M), (∀ f ∈ part, f ∈ s) →
      part.foldlM (fun stage f => f.read depth stage (Entry.payloads f.number (s.entries m)))
          stage =
        part.foldlM (fun stage f => f.read depth stage (f.write m)) stage := by
    intro part
    induction part with
    | nil => intro stage _; rfl
    | cons f rest ih =>
      intro stage hmem
      rw [List.foldlM_cons, List.foldlM_cons, payloads_entries m h (hmem f List.mem_cons_self)]
      congr 1
      funext next
      exact ih next fun g hg => hmem g (List.mem_cons_of_mem f hg)
  exact hpart s stage fun _ hf => hf

theorem mem_entries {m : M} {e : Entry} (h : e ∈ s.entries m) :
    ∃ f ∈ s, e.number = f.number ∧ e.payload ∈ f.write m := by
  obtain ⟨f, hf, he⟩ := List.mem_flatMap.mp h
  obtain ⟨p, hp, rfl⟩ := List.mem_map.mp he
  exact ⟨f, hf, rfl, hp⟩

namespace Faithful

variable {blank : M}

/-- A payload is shorter than the message that it is a part of. -/
theorem fits (h : s.Faithful depth blank) {m : M} (size : (s.encode m).length < Nat.pow 2 64) :
    ∀ e ∈ s.entries m, e.Fits := by
  intro e he
  obtain ⟨f, hf, hnumber, hpayload⟩ := mem_entries he
  obtain ⟨hpos, hlt⟩ := h.numbered.2 f.number (List.mem_map_of_mem hf)
  refine ⟨by omega, by omega, ?_⟩
  cases hp : e.payload with
  | varint v => trivial
  | skipped => exact absurd (hp ▸ hpayload) ((h.rebuilds m).whole f hf)
  | bytes v =>
    have hpart : e.write.length ≤ (s.encode m).length := by
      rw [encode, List.flatMap_def]
      exact (List.sublist_flatten_of_mem (List.mem_map_of_mem he)).length_le
    have hle : v.length ≤ e.write.length := by
      simp only [Entry.write, hp, List.length_append]
      omega
    exact Nat.lt_of_le_of_lt (Nat.le_trans hle hpart) size

theorem read_encode (h : s.Faithful depth blank) {m : M}
    (size : (s.encode m).length < Nat.pow 2 64) : s.read depth blank [s.encode m] = some m := by
  have hfits := h.fits size
  have hentries : Entry.readAll depth (s.encode m) = some (s.entries m) :=
    Entry.readAll_write depth hfits
  have hplace : s.place depth blank (s.entries m) = some m := by
    rw [place_entries m blank h.numbered.1]
    apply (h.rebuilds m).read_write
    intro f hf p hp
    exact (hfits ⟨f.number, p⟩
      (List.mem_flatMap.mpr ⟨f, hf, List.mem_map_of_mem hp⟩)).payload
  simp [read, hentries, hplace]

/-- A message within a message is read one level deeper. -/
theorem message (h : s.Faithful depth blank) :
    (Format.message blank s).Faithful (depth + 1) := by
  refine ⟨fun m => by simp [Format.message], fun m size => ?_⟩
  have hread := h.read_encode size
  simpa [Format.message, Payload.bytes?] using hread

end Faithful

end Schema

end Parley.Wire
