import Parley.Proofs.Sdp.FirstSection
import Parley.Sdp.Offer

/-!
# `Parley/Proofs/Sdp/Offering.lean` — what is offered is what is read

An offer is written in three layers: lines with their endings, words with blanks between them, and
entries with a space and a slash in them. Reading takes the layers apart again, and each of them
comes apart where it was put together: no line holds a line feed (`newline_not_mem_offerLines`), so
the lines are found (`lines_terminated`); no number holds a blank, so the words of the media line
are found (`words_intercalate`); and a codec's line states that codec (`entryOf?_rtpMapLine`). What
an offer was made of can therefore be read from it (`offer_read_back`).
-/

set_option autoImplicit false

namespace Parley

/-! ## Words -/

namespace Text

variable {front rest : List Char} {c : Char}

/-- A blank separates words. -/
theorem words_append_cons (front rest : List Char) (hc : isBlank c = true) :
    words (front ++ c :: rest) = words front ++ words rest := by
  unfold words
  rw [List.splitOnP_append_cons front rest hc, List.filter_append]

theorem words_of_solid (hne : front ≠ []) (h : ∀ d ∈ front, isBlank d = false) :
    words front = [front] := by
  unfold words
  rw [List.splitOnP_eq_singleton h]
  simp [hne]

theorem mem_intercalate {ws : List String} {d : Char} (h : d ∈ (" ".intercalate ws).toList) :
    d = ' ' ∨ ∃ w ∈ ws, d ∈ w.toList := by
  induction ws with
  | nil => simp at h
  | cons w rest ih =>
    cases rest with
    | nil => exact Or.inr ⟨w, List.mem_cons_self, by simpa using h⟩
    | cons next more =>
      rw [String.intercalate_cons_cons, String.toList_append, String.toList_append] at h
      rcases List.mem_append.mp h with hfirst | hlater
      · rcases List.mem_append.mp hfirst with hword | hspace
        · exact Or.inr ⟨w, List.mem_cons_self, hword⟩
        · exact Or.inl (List.mem_singleton.mp hspace)
      · obtain hspace | ⟨v, hv, hd⟩ := ih hlater
        · exact Or.inl hspace
        · exact Or.inr ⟨v, List.mem_cons_of_mem _ hv, hd⟩

/-- Words that are written with a space after each but the last are found again. -/
theorem words_intercalate {ws : List String}
    (h : ∀ w ∈ ws, w.toList ≠ [] ∧ ∀ d ∈ w.toList, isBlank d = false) :
    words (" ".intercalate ws).toList = ws.map String.toList := by
  induction ws with
  | nil => rfl
  | cons w rest ih =>
    obtain ⟨hne, hsolid⟩ := h w List.mem_cons_self
    have hrest := ih fun v hv => h v (List.mem_cons_of_mem _ hv)
    cases rest with
    | nil => simpa using words_of_solid hne hsolid
    | cons next more =>
      have hjoin : (" ".intercalate (w :: next :: more)).toList =
          w.toList ++ ' ' :: (" ".intercalate (next :: more)).toList := by
        simp
      rw [hjoin, words_append_cons _ _ (by decide), words_of_solid hne hsolid, hrest]
      rfl

end Text

namespace Sdp

/-! ## Lines -/

theorem stripReturn_concat (l : Line) : stripReturn (l ++ ['\r']) = l := by
  simp [stripReturn]

/-- Lines that were written with their endings are found again, and after the last ending there is
an empty one. -/
theorem lines_terminated {ls : List String} (h : ∀ l ∈ ls, '\n' ∉ l.toList) :
    lines (String.join (ls.map (· ++ "\r\n"))) = ls.map String.toList ++ [[]] := by
  unfold lines
  rw [String.toList_join]
  induction ls with
  | nil => rfl
  | cons l rest ih =>
    have hrest := ih fun l' hl' => h l' (List.mem_cons_of_mem _ hl')
    have hline : '\n' ∉ l.toList ++ ['\r'] := by
      simpa using h l List.mem_cons_self
    have hchars : ((l :: rest).map (· ++ "\r\n")).flatMap String.toList =
        (l.toList ++ ['\r']) ++ '\n' :: (rest.map (· ++ "\r\n")).flatMap String.toList := by
      simp
    rw [hchars, List.splitOn_append_cons_self_of_not_mem hline, List.map_cons, hrest,
      stripReturn_concat]
    rfl

/-! ## The lines of an offer -/

/-- A number is written in digits. -/
theorem isDigit_of_mem_toString {n : Nat} {d : Char} (h : d ∈ (toString n).toList) :
    d.isDigit = true := by
  have hdigits : (toString n).toList = Nat.toDigits 10 n := by
    show (Nat.repr n).toList = _
    rw [Nat.repr, String.toList_ofList]
  rw [hdigits] at h
  exact Nat.isDigit_of_mem_toDigits (by decide) (by decide) h

/-- How the payload numbers of codecs are written. -/
def numerals (codecs : List Codec) : List String := codecs.map fun c => toString c.payloadType

theorem isBlank_of_isDigit {d : Char} (h : d.isDigit = true) : Text.isBlank d = false := by
  have hbounds : 48 ≤ d.toNat ∧ d.toNat ≤ 57 := by
    simpa [Char.isDigit, UInt32.le_iff_toNat_le] using h
  simp only [Text.isBlank, Bool.or_eq_false_iff, Bool.and_eq_false_iff, decide_eq_false_iff_not,
    beq_eq_false_iff_ne]
  omega

theorem numerals_solid {codecs : List Codec} {w : String} (h : w ∈ numerals codecs) :
    w.toList ≠ [] ∧ ∀ d ∈ w.toList, Text.isBlank d = false := by
  obtain ⟨c, -, rfl⟩ := List.mem_map.mp h
  refine ⟨by cases c <;> decide, fun d hd => ?_⟩
  have hdigit := isDigit_of_mem_toString (n := c.payloadType.toNat) hd
  exact isBlank_of_isDigit hdigit

theorem newline_not_mem_numerals (codecs : List Codec) :
    '\n' ∉ (" ".intercalate (numerals codecs)).toList := by
  intro hmem
  rcases Text.mem_intercalate hmem with hspace | ⟨w, hw, hnewline⟩
  · exact absurd hspace (by decide)
  · exact absurd ((numerals_solid hw).2 _ hnewline) (by decide)

theorem newline_not_mem_offerLines {sessionId : UInt64} {direction : Direction}
    {codecs : List Codec} {l : String} (h : l ∈ offerLines sessionId direction codecs) :
    '\n' ∉ l.toList := by
  have hsession : '\n' ∉ (toString sessionId).toList := by
    intro hmem
    have hdigit := isDigit_of_mem_toString (n := sessionId.toNat) hmem
    simp at hdigit
  have hdirection : '\n' ∉ direction.name.toList := by cases direction <;> decide
  have hmaps : ∀ c, '\n' ∉ (rtpMapLine c).toList := by
    intro c
    cases c <;> decide
  have hnumerals := newline_not_mem_numerals codecs
  rcases List.mem_append.mp h with hfixed | hmap
  · simp only [List.mem_cons, List.not_mem_nil, or_false] at hfixed
    rcases hfixed with rfl | rfl | rfl | rfl | rfl | rfl | rfl | rfl | rfl
    · decide
    · simp [hsession]
    · decide
    · decide
    · decide
    · rw [String.toList_append, List.mem_append, not_or]
      exact ⟨by decide, hnumerals⟩
    · decide
    · decide
    · simp [hdirection]
  · obtain ⟨c, -, rfl⟩ := List.mem_map.mp hmap
    exact hmaps c

/-! ## Entries -/

theorem entryOf?_rtpMapLine (c : Codec) :
    entryOf? (rtpMapLine c).toList = some (RtpMap.ofCodec c) := by
  cases c <;> decide

theorem payloadType_injective {c c' : Codec} (h : c.payloadType = c'.payloadType) : c = c' := by
  have hcodec := Codec.ofPayloadType?_payloadType c
  rw [h, Codec.ofPayloadType?_payloadType c'] at hcodec
  exact (Option.some.inj hcodec).symm

/-- Among entries of codecs the number of a codec stands for that codec. -/
theorem resolve_ofCodec (codecs : List Codec) (c : Codec) :
    resolve (codecs.map RtpMap.ofCodec) c.payloadType = some (RtpMap.ofCodec c) := by
  unfold resolve
  cases hfound : (codecs.map RtpMap.ofCodec).find? (·.payloadType == c.payloadType) with
  | none =>
    rw [Codec.ofPayloadType?_payloadType]
    rfl
  | some m =>
    obtain ⟨c', -, rfl⟩ := List.mem_map.mp (List.mem_of_find?_eq_some hfound)
    have hnumber : c'.payloadType = c.payloadType := by
      simpa [RtpMap.ofCodec] using List.find?_some hfound
    rw [payloadType_injective hnumber]
    rfl

/-! ## The audio section of an offer -/

/-- The lines of an offer before its audio section. -/
def offerHead (sessionId : UInt64) : List Line :=
  ["v=0".toList, ("o=- " ++ toString sessionId ++ " 2 IN IP4 127.0.0.1").toList, "s=-".toList,
    "t=0 0".toList, "a=group:BUNDLE 0".toList]

/-- The media line of an offer. -/
def offerMedia (codecs : List Codec) : Line :=
  ("m=audio 9 UDP/TLS/RTP/SAVPF " ++ " ".intercalate (numerals codecs)).toList

/-- The other lines of its audio section. -/
def offerBody (direction : Direction) (codecs : List Codec) : List Line :=
  ["c=IN IP4 0.0.0.0".toList, "a=mid:0".toList, direction.line]
    ++ codecs.map (fun c => (rtpMapLine c).toList) ++ [[]]

theorem lines_offer (sessionId : UInt64) (direction : Direction) (codecs : List Codec) :
    lines (offer sessionId direction codecs) =
      offerHead sessionId ++ offerMedia codecs :: offerBody direction codecs := by
  unfold offer
  rw [lines_terminated fun _ hl => newline_not_mem_offerLines hl]
  simp [offerLines, offerHead, offerMedia, offerBody, numerals, Direction.line, Function.comp_def]

theorem firstAudio_offer (sessionId : UInt64) (direction : Direction) (codecs : List Codec) :
    FirstAudio (offerHead sessionId) (offerMedia codecs) (offerBody direction codecs) []
      (lines (offer sessionId direction codecs)) := by
  refine ⟨?_, ?_, ?_, ?_, ?_⟩
  · rw [lines_offer, List.append_nil]
  · intro l hl
    simp only [offerHead, List.mem_cons, List.not_mem_nil, or_false] at hl
    rcases hl with rfl | rfl | rfl | rfl | rfl
    · decide
    · simp
      rfl
    · decide
    · decide
    · decide
  · unfold offerMedia
    rw [String.toList_append]
    rfl
  · intro l hl
    simp only [offerBody, List.mem_append, List.mem_cons, List.not_mem_nil, or_false,
      List.mem_map] at hl
    rcases hl with ((rfl | rfl | rfl) | ⟨c, -, rfl⟩) | rfl
    · decide
    · decide
    · cases direction <;> decide
    · cases c <;> decide
    · decide
  · simp

theorem payloadNumbers_offerMedia (codecs : List Codec) :
    payloadNumbers (offerMedia codecs) = codecs.map (·.payloadType) := by
  have hspace : "m=audio 9 UDP/TLS/RTP/SAVPF ".toList =
      "m=audio 9 UDP/TLS/RTP/SAVPF".toList ++ [' '] := by decide
  have hwords : Text.words (offerMedia codecs) =
      Text.words "m=audio 9 UDP/TLS/RTP/SAVPF".toList ++
        Text.words (" ".intercalate (numerals codecs)).toList := by
    rw [offerMedia, String.toList_append, hspace, List.append_assoc, List.singleton_append]
    exact Text.words_append_cons _ _ (by decide)
  have hread : ∀ c : Codec, Text.readByte (toString c.payloadType).toList = some c.payloadType := by
    intro c
    cases c <;> decide
  have hopening : Text.words "m=audio 9 UDP/TLS/RTP/SAVPF".toList =
      ["m=audio".toList, "9".toList, "UDP/TLS/RTP/SAVPF".toList] := by decide
  unfold payloadNumbers
  rw [hwords, hopening, Text.words_intercalate fun w hw => numerals_solid hw]
  show ((numerals codecs).map String.toList).filterMap Text.readByte = _
  simp only [numerals, List.map_map, List.filterMap_map, Function.comp_def, hread,
    List.filterMap_eq_map']

theorem entries_offerBody (direction : Direction) (codecs : List Codec) :
    (offerBody direction codecs).filterMap entryOf? = codecs.map RtpMap.ofCodec := by
  have hfixed : ["c=IN IP4 0.0.0.0".toList, "a=mid:0".toList, direction.line].filterMap entryOf? =
      [] := by
    cases direction <;> decide
  have hmaps : (codecs.map fun c => (rtpMapLine c).toList).filterMap entryOf? =
      codecs.map RtpMap.ofCodec := by
    simp only [List.filterMap_map, Function.comp_def, entryOf?_rtpMapLine, List.filterMap_eq_map']
  have hlast : [([] : Line)].filterMap entryOf? = [] := by decide
  rw [offerBody, List.filterMap_append, List.filterMap_append, hfixed, hmaps, hlast,
    List.nil_append, List.append_nil]

theorem audioMaps_offer (sessionId : UInt64) (direction : Direction) (codecs : List Codec) :
    audioMaps (offer sessionId direction codecs) = codecs.map RtpMap.ofCodec := by
  rw [audioMaps_of_firstAudio (firstAudio_offer sessionId direction codecs),
    payloadNumbers_offerMedia, entries_offerBody, List.filterMap_map]
  simp only [Function.comp_def, resolve_ofCodec, List.filterMap_eq_map']

theorem negotiatedCodec_offer (sessionId : UInt64) (direction : Direction) (codecs : List Codec) :
    negotiatedCodec (offer sessionId direction codecs) = codecs.head? := by
  unfold negotiatedCodec
  rw [audioMaps_offer]
  cases codecs with
  | nil => rfl
  | cons c rest =>
    have hcodec : (RtpMap.ofCodec c).codec? = some c := by cases c <;> decide
    rw [List.map_cons, List.findSome?_cons, hcodec]
    rfl

/-! ## The sections of an offer -/

namespace SectionScan

variable (scan : SectionScan)

/-- Lines of which nothing is noted. -/
theorem foldl_of_idle {ls : List Line} (h : ∀ l ∈ ls, scan.line l = scan) :
    ls.foldl line scan = scan := by
  induction ls with
  | nil => rfl
  | cons l rest ih =>
    rw [List.foldl_cons, h l List.mem_cons_self]
    exact ih fun l' hl' => h l' (List.mem_cons_of_mem _ hl')

theorem line_of_mem_offerHead {sessionId : UInt64} {l : Line} (h : l ∈ offerHead sessionId) :
    scan.line l = scan := by
  simp only [offerHead, List.mem_cons, List.not_mem_nil, or_false] at h
  rcases h with rfl | rfl | rfl | rfl | rfl
  · rfl
  · -- the number of the session stands behind the letter that the line is told by
    simp only [String.toList_append]
    rfl
  · rfl
  · rfl
  · rfl

theorem line_offerMedia (codecs : List Codec) :
    scan.line (offerMedia codecs) = { scan with kind := .audio } := by
  unfold offerMedia
  rw [String.toList_append]
  rfl

theorem line_rtpMapLine (c : Codec) : scan.line (rtpMapLine c).toList = scan := by
  cases c <;> rfl

theorem foldl_offerBody (direction : Direction) (codecs : List Codec) :
    (offerBody direction codecs).foldl line scan =
      { scan with
        mid := "0"
        found := { kind := scan.kind, mid := "0", direction } :: scan.found } := by
  have hdirection (scan : SectionScan) : scan.line direction.line =
      { scan with found := { kind := scan.kind, mid := scan.mid, direction } :: scan.found } := by
    cases direction <;> rfl
  have hmaps (scan : SectionScan) :
      (codecs.map fun c => (rtpMapLine c).toList).foldl line scan = scan := by
    refine scan.foldl_of_idle fun l hl => ?_
    obtain ⟨c, -, rfl⟩ := List.mem_map.mp hl
    exact scan.line_rtpMapLine c
  simp only [offerBody, List.foldl_append, List.foldl_cons, List.foldl_nil, hdirection, hmaps]
  rfl

end SectionScan

theorem sections_offer (sessionId : UInt64) (direction : Direction) (codecs : List Codec) :
    sections (offer sessionId direction codecs) = [{ kind := .audio, mid := "0", direction }] := by
  unfold sections
  have hhead : (offerHead sessionId).foldl SectionScan.line {} = {} :=
    SectionScan.foldl_of_idle {} fun l hl => SectionScan.line_of_mem_offerHead {} hl
  rw [lines_offer, List.foldl_append, hhead, List.foldl_cons, SectionScan.line_offerMedia,
    SectionScan.foldl_offerBody]
  rfl

/-- **What is offered can be read from the offer**: the codecs in their order, each with its payload
number, name and rate; the first of them, if there is one, as the codec agreed on; and one section,
for audio, with the direction that was asked for. So it is for any number of codecs, repeated or
not. -/
theorem offer_read_back (sessionId : UInt64) (direction : Direction) (codecs : List Codec) :
    audioMaps (offer sessionId direction codecs) =
        codecs.map (fun c =>
          { payloadType := c.payloadType, encoding := c.encodingName, clockRate := c.clockRate }) ∧
      negotiatedCodec (offer sessionId direction codecs) = codecs.head? ∧
      sections (offer sessionId direction codecs) =
        [{ kind := .audio, mid := "0", direction }] :=
  ⟨audioMaps_offer sessionId direction codecs, negotiatedCodec_offer sessionId direction codecs,
    sections_offer sessionId direction codecs⟩

end Sdp

end Parley
