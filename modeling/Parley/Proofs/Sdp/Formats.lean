import Parley.Rtp.Packet
import Parley.Sdp.RtpMap

/-!
# `Parley/Proofs/Sdp/Formats.lean` — which formats a description lists, and under which numbers

The scan of a description keeps two flags and resolves numbers at its end. What it computes can be
said without it (`audioMaps_eq`): the first line that begins with `m=audio` gives the numbers, the
lines from there to the next media line give the entries, and nothing else is looked at.

The codec of a session is negotiated by name and rate, but it travels under its own number. The two
agree if that number is listed and not given away to another format (`numbersAgree_iff`); a
description that gives the codec another number is accepted all the same
(`not_numbersAgree_of_otherNumber`).
-/

set_option autoImplicit false

namespace Parley.Sdp

/-! ## The first audio section -/

/-- The media line of the first audio section, and the lines of that section after it. -/
def audioSection? (ls : List Line) : Option (Line × List Line) :=
  match ls.dropWhile fun l => !begins "m=audio" l with
  | [] => none
  | media :: rest => some (media, rest.takeWhile fun l => !begins "m=" l)

/-- The entry that a line states, if it states one. -/
def entryOf? (l : Line) : Option RtpMap := (after? "a=rtpmap:" l).bind RtpMap.read

/-- The numbers that the first audio section lists. -/
def audioNumbers (ls : List Line) : List UInt8 :=
  match audioSection? ls with
  | none => []
  | some (media, _) => payloadNumbers media

/-- The entries of the first audio section. -/
def audioEntries (ls : List Line) : List RtpMap :=
  match audioSection? ls with
  | none => []
  | some (_, rest) => rest.filterMap entryOf?

theorem after?_eq_some_iff {beginning : String} {l rest : Line} :
    after? beginning l = some rest ↔ l = beginning.toList ++ rest := by
  unfold after?
  induction beginning.toList generalizing l with
  | nil =>
    show some l = some rest ↔ l = rest
    exact Option.some_inj
  | cons c cs ih =>
    cases l with
    | nil =>
      show none = some rest ↔ [] = c :: (cs ++ rest)
      simp
    | cons d ds =>
      show (if c == d then cs.isPrefixOf? ds else none) = some rest ↔ d :: ds = c :: (cs ++ rest)
      simp only [List.cons.injEq, beq_iff_eq]
      split
      · rename_i heq
        rw [ih]
        exact ⟨fun h => ⟨heq.symm, h⟩, fun h => h.2⟩
      · rename_i hne
        exact ⟨fun h => absurd h (by simp), fun h => absurd h.1.symm hne⟩

theorem begins_iff {beginning : String} {l : Line} :
    begins beginning l = true ↔ ∃ rest, l = beginning.toList ++ rest := by
  unfold begins
  rw [Option.isSome_iff_exists]
  exact exists_congr fun rest => after?_eq_some_iff

theorem begins_audio {l media : Line} (h : after? "m=" l = some media) :
    begins "m=audio" l = begins "audio" media := by
  obtain rfl := after?_eq_some_iff.mp h
  rw [Bool.eq_iff_iff, begins_iff, begins_iff]
  simp

/-- A character before a word belongs to that word, so the words after it are the same. -/
theorem drop_words_cons {c d : Char} (cs : List Char) (n : Nat) (hc : Text.isBlank c = false)
    (hd : Text.isBlank d = false) :
    (Text.words (c :: d :: cs)).drop (n + 1) = (Text.words (d :: cs)).drop (n + 1) := by
  obtain ⟨word, more, hsplit⟩ :=
    List.exists_cons_of_ne_nil (List.splitOnP_ne_nil Text.isBlank cs)
  simp [Text.words, List.splitOnP_cons_eq_if_modifyHead, hc, hd, hsplit]

/-- The three words that are passed over may be counted with the line's beginning or without. -/
theorem payloadNumbers_opening {l media : Line} (h : after? "m=" l = some media)
    (haudio : begins "audio" media = true) : payloadNumbers l = payloadNumbers media := by
  obtain rfl := after?_eq_some_iff.mp h
  obtain ⟨rest, rfl⟩ := begins_iff.mp haudio
  unfold payloadNumbers
  refine congrArg (List.filterMap Text.readByte) ?_
  exact (drop_words_cons _ 2 (by decide) (by decide)).trans
    (drop_words_cons _ 2 (by decide) (by decide))

/-! ## The scan -/

namespace AudioScan

variable {scan : AudioScan} {l : Line} {ls : List Line}

/-- Outside the first audio section a line is passed over, if it does not open that section. -/
theorem line_outside (houtside : scan.inside = false)
    (h : scan.seen = true ∨ begins "m=audio" l = false) : scan.line l = scan := by
  unfold line
  split
  · rename_i media hmedia
    have hstays : (begins "audio" media && !scan.seen) = false := by
      rcases h with hseen | hother
      · simp [hseen]
      · simp [← begins_audio hmedia, hother]
    simp only [hstays, Bool.false_eq_true, if_false]
    rw [← houtside]
  · simp [houtside]

theorem line_opening (hseen : scan.seen = false) (h : begins "m=audio" l = true) :
    scan.line l = { scan with numbers := payloadNumbers l, inside := true, seen := true } := by
  unfold line
  split
  · rename_i media hmedia
    have haudio : begins "audio" media = true := begins_audio hmedia ▸ h
    simp [haudio, hseen, payloadNumbers_opening hmedia haudio]
  · rename_i hnone
    obtain ⟨rest, rfl⟩ := begins_iff.mp h
    cases hnone

/-- Inside the section a line may add an entry. -/
theorem line_inside (hinside : scan.inside = true) (h : begins "m=" l = false) :
    scan.line l = { scan with maps := (entryOf? l).toList ++ scan.maps } := by
  have hnone : after? "m=" l = none := by simpa [begins] using h
  unfold line entryOf?
  rw [hnone]
  cases (after? "a=rtpmap:" l).bind RtpMap.read <;> simp [← hinside]

/-- The next media line ends the section. -/
theorem line_closing (hseen : scan.seen = true) (h : begins "m=" l = true) :
    scan.line l = { scan with inside := false } := by
  obtain ⟨media, hmedia⟩ := Option.isSome_iff_exists.mp h
  simp [line, hmedia, hseen]

theorem foldl_outside (houtside : scan.inside = false)
    (h : ∀ l ∈ ls, scan.seen = true ∨ begins "m=audio" l = false) :
    ls.foldl line scan = scan := by
  induction ls with
  | nil => rfl
  | cons l ls ih =>
    rw [List.foldl_cons, line_outside houtside (h l List.mem_cons_self)]
    exact ih fun l' hl' => h l' (List.mem_cons_of_mem _ hl')

/-- From within the section, the lines up to the next media line add their entries. -/
theorem foldl_inside (scan : AudioScan) (ls : List Line) (hinside : scan.inside = true)
    (hseen : scan.seen = true) :
    (ls.foldl line scan).numbers = scan.numbers ∧
      (ls.foldl line scan).maps.reverse =
        scan.maps.reverse ++ (ls.takeWhile fun l => !begins "m=" l).filterMap entryOf? := by
  induction ls generalizing scan with
  | nil => simp
  | cons l ls ih =>
    rw [List.foldl_cons]
    cases hmedia : begins "m=" l with
    | true =>
      have hrest : ls.foldl line { scan with inside := false } = { scan with inside := false } :=
        foldl_outside rfl fun _ _ => Or.inl hseen
      rw [line_closing hseen hmedia, hrest]
      simp [hmedia]
    | false =>
      obtain ⟨hnumbers, hmaps⟩ :=
        ih { scan with maps := (entryOf? l).toList ++ scan.maps } hinside hseen
      rw [line_inside hinside hmedia]
      refine ⟨hnumbers, hmaps.trans ?_⟩
      cases hentry : entryOf? l <;> simp [hmedia, hentry]

/-- A scan from the beginning finds the numbers and the entries of the first audio section. -/
theorem foldl_eq (ls : List Line) :
    (ls.foldl line {}).numbers = audioNumbers ls ∧
      (ls.foldl line {}).maps.reverse = audioEntries ls := by
  have hbefore : ∀ l ∈ ls.takeWhile fun l => !begins "m=audio" l,
      ({} : AudioScan).seen = true ∨ begins "m=audio" l = false := by
    intro l hl
    exact Or.inr (by simpa using List.all_eq_true.mp List.all_takeWhile l hl)
  have hsplit : ls.foldl line {} = (ls.dropWhile fun l => !begins "m=audio" l).foldl line {} :=
    calc ls.foldl line {}
        = ((ls.takeWhile fun l => !begins "m=audio" l) ++
            ls.dropWhile fun l => !begins "m=audio" l).foldl line {} := by
          rw [List.takeWhile_append_dropWhile]
      _ = (ls.dropWhile fun l => !begins "m=audio" l).foldl line {} := by
          rw [List.foldl_append, foldl_outside rfl hbefore]
  unfold audioNumbers audioEntries audioSection?
  rw [hsplit]
  cases hrest : ls.dropWhile fun l => !begins "m=audio" l with
  | nil => exact ⟨rfl, rfl⟩
  | cons media rest =>
    have hopening : begins "m=audio" media = true := by
      have hne : (ls.dropWhile fun l => !begins "m=audio" l) ≠ [] := by simp [hrest]
      simpa [hrest] using List.head_dropWhile_not _ hne
    rw [List.foldl_cons, line_opening rfl hopening]
    simpa using
      foldl_inside { numbers := payloadNumbers media, inside := true, seen := true } rest rfl rfl

end AudioScan

/-- The formats of a description are what the numbers of its first audio section stand for among
the entries of that section. -/
theorem audioMaps_eq (sdp : String) :
    audioMaps sdp = (audioNumbers (lines sdp)).filterMap (resolve (audioEntries (lines sdp))) := by
  obtain ⟨hnumbers, hmaps⟩ := AudioScan.foldl_eq (lines sdp)
  simp only [audioMaps, hnumbers, hmaps]

/-! ## Numbers of a codec -/

/-- Whether an entry names a codec, in any case, at its rate. -/
def RtpMap.Names (m : RtpMap) (c : Codec) : Prop :=
  Codec.sameName c.encodingName m.encoding = true ∧ m.clockRate = c.clockRate

theorem RtpMap.names_ofCodec (c : Codec) : (RtpMap.ofCodec c).Names c :=
  ⟨beq_self_eq_true _, rfl⟩

theorem RtpMap.names_of_codec? {m : RtpMap} {c : Codec} (h : m.codec? = some c) : m.Names c := by
  have hfound := List.find?_some h
  simp only [Bool.and_eq_true, beq_iff_eq] at hfound
  exact ⟨hfound.1, hfound.2.symm⟩

/-- Whether a description lists this number and lets it stand for this codec. -/
def Lists (sdp : String) (number : UInt8) (c : Codec) : Prop :=
  ∃ m ∈ audioMaps sdp, m.payloadType = number ∧ m.Names c

/-- The negotiated codec is listed under some number, though it need not be its own. -/
theorem lists_negotiatedCodec {sdp : String} {c : Codec} (h : negotiatedCodec sdp = some c) :
    ∃ number, Lists sdp number c := by
  obtain ⟨m, hm, hcodec⟩ := List.exists_of_findSome?_eq_some h
  exact ⟨m.payloadType, m, hm, rfl, RtpMap.names_of_codec? hcodec⟩

theorem resolve_payloadType {maps : List RtpMap} {number : UInt8} {m : RtpMap}
    (h : resolve maps number = some m) : m.payloadType = number := by
  rcases Option.or_eq_some_iff.mp h with hfound | ⟨-, hcodec⟩
  · simpa using List.find?_some hfound
  · obtain ⟨c, hc, rfl⟩ := Option.map_eq_some_iff.mp hcodec
    exact Codec.ofPayloadType?_eq_some_iff.mp hc

/-- A number stands for the codec that has it, unless the section gives it away. -/
theorem resolve_own_number (maps : List RtpMap) (c : Codec) :
    (∃ m ∈ resolve maps c.payloadType, m.Names c) ↔
      ∀ m ∈ maps.find? (·.payloadType == c.payloadType), m.Names c := by
  unfold resolve
  rw [Codec.ofPayloadType?_payloadType]
  cases maps.find? (·.payloadType == c.payloadType) with
  | none => simp [RtpMap.names_ofCodec]
  | some m => simp

theorem lists_own_number_iff (sdp : String) (c : Codec) :
    Lists sdp c.payloadType c ↔
      c.payloadType ∈ audioNumbers (lines sdp) ∧
        ∀ m ∈ (audioEntries (lines sdp)).find? (·.payloadType == c.payloadType), m.Names c := by
  rw [← resolve_own_number, Lists, audioMaps_eq]
  constructor
  · rintro ⟨m, hm, hnumber, hnames⟩
    obtain ⟨number, hlisted, hresolve⟩ := List.mem_filterMap.mp hm
    obtain rfl : number = c.payloadType := (resolve_payloadType hresolve).symm.trans hnumber
    exact ⟨hlisted, m, hresolve, hnames⟩
  · rintro ⟨hlisted, m, hresolve, hnames⟩
    exact ⟨m, List.mem_filterMap.mpr ⟨_, hlisted, hresolve⟩, resolve_payloadType hresolve, hnames⟩

/-! ## The number that packets carry -/

/-- A description and the packets agree on the number of the negotiated codec: what is sent in that
codec carries a number that stands for it in the description, and so does what is received as that
codec. -/
def NumbersAgree (sdp : String) : Prop :=
  ∀ c ∈ negotiatedCodec sdp,
    (∀ f : Frame, f.codec = c → Lists sdp (Rtp.Packet.ofFrame f).payloadType c) ∧
    (∀ p : Rtp.Packet, ∀ f ∈ p.toFrame?, f.codec = c → Lists sdp p.payloadType c)

/-- The number of a received packet is the one of the codec that it is decoded by. -/
theorem payloadType_of_toFrame? {p : Rtp.Packet} {f : Frame} (h : p.toFrame? = some f) :
    p.payloadType = f.codec.payloadType := by
  obtain ⟨c, hc, rfl⟩ := Option.map_eq_some_iff.mp h
  exact (Codec.ofPayloadType?_eq_some_iff.mp hc).symm

theorem numbersAgree_iff_lists (sdp : String) :
    NumbersAgree sdp ↔ ∀ c ∈ negotiatedCodec sdp, Lists sdp c.payloadType c := by
  refine forall_congr' fun c => forall_congr' fun _ => ?_
  constructor
  · intro h
    exact h.1 { sequence := 0, timestamp := 0, ssrc := 0, codec := c, payload := [] } rfl
  · intro h
    refine ⟨?_, ?_⟩
    · rintro f rfl
      exact h
    · rintro p f hf rfl
      exact payloadType_of_toFrame? hf ▸ h

/-- The numbers agree exactly if the negotiated codec's own number is listed in the first audio
section, and the first entry of that section for it, if there is one, names that codec. -/
theorem numbersAgree_iff (sdp : String) :
    NumbersAgree sdp ↔
      ∀ c ∈ negotiatedCodec sdp,
        c.payloadType ∈ audioNumbers (lines sdp) ∧
          ∀ m ∈ (audioEntries (lines sdp)).find? (·.payloadType == c.payloadType), m.Names c := by
  rw [numbersAgree_iff_lists]
  exact forall_congr' fun c => forall_congr' fun _ => lists_own_number_iff sdp c

/-- The numbers agree where every codec of the client keeps its own number. -/
theorem numbersAgree_of_own_numbers {sdp : String}
    (h : ∀ m ∈ audioMaps sdp, ∀ c ∈ m.codec?, m.payloadType = c.payloadType) :
    NumbersAgree sdp := by
  rw [numbersAgree_iff_lists]
  intro c hc
  obtain ⟨m, hm, hcodec⟩ := List.exists_of_findSome?_eq_some hc
  exact ⟨m, hm, h m hm c hcodec, RtpMap.names_of_codec? hcodec⟩

/-- The answer gives sixteen-bit samples the number 97. They are negotiated, and sent under 96. -/
theorem not_numbersAgree_of_otherNumber :
    ¬ NumbersAgree "m=audio 9 RTP/AVP 97\r\na=rtpmap:97 L16/16000\r\n" := by
  rw [numbersAgree_iff_lists]
  intro hagree
  have hcodec : negotiatedCodec "m=audio 9 RTP/AVP 97\r\na=rtpmap:97 L16/16000\r\n" =
      some .l16 := by decide
  have hmaps : audioMaps "m=audio 9 RTP/AVP 97\r\na=rtpmap:97 L16/16000\r\n" =
      [{ payloadType := 97, encoding := "L16", clockRate := 16000 }] := by decide
  obtain ⟨m, hm, hnumber, -⟩ := hagree .l16 hcodec
  rw [hmaps, List.mem_singleton] at hm
  subst hm
  cases hnumber

end Parley.Sdp
