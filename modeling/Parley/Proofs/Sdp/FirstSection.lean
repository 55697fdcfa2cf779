import Mathlib.Data.List.Forall2
import Mathlib.Data.List.ReduceOption
import Mathlib.Data.List.TakeDrop
import Mathlib.Data.List.TakeWhile
import Parley.Proofs.Sdp.Formats

/-!
# `Parley/Proofs/Sdp/FirstSection.lean` — what a description says of audio

A description is meant to be read like this. Its first line that begins with `m=audio`, and the
lines after that up to the next that begins with `m=`, are its first audio section (`FirstAudio`).
The words of the section's media line after the third are payload numbers, in the order of
preference. Lines of the section may state what a number stands for (`States`); the first one that
does so counts, and a number of which none is stated stands for what it does by agreement
(`Means`).

That is what the one pass over the lines comes to (`lists_first_section`), whatever else the
description holds.
-/

set_option autoImplicit false

namespace Parley.Sdp

/-! ## Lines that state an entry -/

/-- A text spells an entry: it is a number, a space, a name, a slash and a rate, and then nothing or
another slash and anything. -/
def Spells (value : Line) (m : RtpMap) : Prop :=
  ∃ number rate more : Line,
    value = number ++ ' ' :: (m.encoding.toList ++ '/' :: (rate ++ more)) ∧
      ' ' ∉ number ∧ '/' ∉ m.encoding.toList ∧ '/' ∉ rate ∧ (more = [] ∨ more.head? = some '/') ∧
      Text.readByte number = some m.payloadType ∧ Text.readWord rate = some m.clockRate

/-- A line states an entry. -/
def States (l : Line) (m : RtpMap) : Prop :=
  ∃ value, l = "a=rtpmap:".toList ++ value ∧ Spells value m

/-- A text is split at the first place, if there is one. -/
theorem splitOn_cases (c : Char) (cs : Line) :
    (c ∉ cs ∧ cs.splitOn c = [cs]) ∨
      ∃ first rest, cs = first ++ c :: rest ∧ c ∉ first ∧
        cs.splitOn c = first :: rest.splitOn c := by
  by_cases h : c ∈ cs
  · obtain ⟨first, rest, rfl, hfirst⟩ := List.eq_append_cons_of_mem h
    exact Or.inr ⟨first, rest, rfl, hfirst, List.splitOn_append_cons_self_of_not_mem hfirst rest⟩
  · exact Or.inl ⟨h, List.splitOn_eq_singleton h⟩

/-- The first two parts of a text that is split. What follows them does not matter, but if there is
anything, it is cut off. -/
theorem splitOn_eq_cons_cons_iff {c : Char} {cs first second : Line} :
    (∃ others, cs.splitOn c = first :: second :: others) ↔
      ∃ more, cs = first ++ c :: (second ++ more) ∧ c ∉ first ∧ c ∉ second ∧
        (more = [] ∨ more.head? = some c) := by
  constructor
  · rintro ⟨others, h⟩
    obtain ⟨-, hone⟩ | ⟨a, rest, rfl, ha, hsplit⟩ := splitOn_cases c cs
    · rw [hone] at h
      cases h
    · -- the second part goes to the next place, or to the end if there is none
      rw [hsplit] at h
      obtain ⟨rfl, hrest⟩ := List.cons.inj h
      obtain ⟨hb, hone⟩ | ⟨b, more, rfl, hb, hmore⟩ := splitOn_cases c rest
      · rw [hone] at hrest
        obtain ⟨rfl, -⟩ := List.cons.inj hrest
        exact ⟨[], by simp, ha, hb, Or.inl rfl⟩
      · rw [hmore] at hrest
        obtain ⟨rfl, -⟩ := List.cons.inj hrest
        exact ⟨c :: more, rfl, ha, hb, Or.inr rfl⟩
  · rintro ⟨more, rfl, hfirst, hsecond, rfl | hmore⟩
    · rw [List.splitOn_append_cons_self_of_not_mem hfirst, List.append_nil,
        List.splitOn_eq_singleton hsecond]
      exact ⟨[], rfl⟩
    · obtain ⟨params, rfl⟩ := List.head?_eq_some_iff.mp hmore
      rw [List.splitOn_append_cons_self_of_not_mem hfirst,
        List.splitOn_append_cons_self_of_not_mem hsecond]
      exact ⟨_, rfl⟩

/-- A list is cut where its elements first fail. -/
theorem span_eq_iff {α : Type} {p : α → Bool} {xs first rest : List α} :
    xs.span p = (first, rest) ↔
      xs = first ++ rest ∧ (∀ a ∈ first, p a = true) ∧ ∀ a ∈ rest.head?, p a = false := by
  rw [List.span_eq_takeWhile_dropWhile, Prod.mk.injEq]
  constructor
  · rintro ⟨rfl, rfl⟩
    refine ⟨List.takeWhile_append_dropWhile.symm, List.all_eq_true.mp List.all_takeWhile, ?_⟩
    intro a ha
    have hstop := List.head?_dropWhile_not p xs
    rw [Option.mem_def.mp ha] at hstop
    exact hstop
  · rintro ⟨rfl, hfirst, hrest⟩
    rw [List.takeWhile_append_of_pos hfirst, List.dropWhile_append_of_pos hfirst]
    cases rest with
    | nil => simp
    | cons d rest => simp [hrest d rfl]

theorem RtpMap.read_eq_some_iff {value : Line} {m : RtpMap} :
    RtpMap.read value = some m ↔ Spells value m := by
  constructor
  · intro h
    unfold RtpMap.read at h
    split at h
    · rename_i number space format hspan
      split at h
      · rename_i name rate others hformat
        obtain ⟨clockRate, hrate, payloadType, hnumber, rfl⟩ : ∃ clockRate,
            Text.readWord rate = some clockRate ∧ ∃ payloadType,
              Text.readByte number = some payloadType ∧
                { payloadType, encoding := String.ofList name, clockRate } = m := by
          simpa [Option.bind_eq_some_iff] using h
        obtain ⟨rfl, hbefore, hstop⟩ := span_eq_iff.mp hspan
        obtain rfl : space = ' ' := by simpa using hstop space rfl
        have hspace : ' ' ∉ number := fun h => by simpa using hbefore ' ' h
        obtain ⟨more, rfl, hname, hslash, hmore⟩ := splitOn_eq_cons_cons_iff.mp ⟨others, hformat⟩
        simp only [Spells, String.toList_ofList]
        exact ⟨number, rate, more, rfl, hspace, hname, hslash, hmore, hnumber, hrate⟩
      · cases h
    · cases h
  · rintro ⟨number, rate, more, hvalue, hspace, hname, hslash, hmore, hnumber, hrate⟩
    have hspan : value.span (· != ' ') =
        (number, ' ' :: (m.encoding.toList ++ '/' :: (rate ++ more))) := by
      refine span_eq_iff.mpr ⟨hvalue, fun c hc => ?_, by simp⟩
      exact bne_iff_ne.mpr fun h => hspace (h ▸ hc)
    obtain ⟨others, hformat⟩ := splitOn_eq_cons_cons_iff.mpr ⟨more, rfl, hname, hslash, hmore⟩
    rw [RtpMap.read, hspan]
    dsimp only
    rw [hformat]
    simp [hnumber, hrate]

theorem entryOf?_eq_some_iff {l : Line} {m : RtpMap} : entryOf? l = some m ↔ States l m := by
  simp only [entryOf?, States, Option.bind_eq_some_iff, after?_eq_some_iff,
    RtpMap.read_eq_some_iff]

/-! ## What a number stands for -/

/-- What numbers stand for by agreement. -/
def agreed : UInt8 → Option RtpMap
  | 0 => some { payloadType := 0, encoding := "PCMU", clockRate := 8000 }
  | 8 => some { payloadType := 8, encoding := "PCMA", clockRate := 8000 }
  | 96 => some { payloadType := 96, encoding := "L16", clockRate := 16000 }
  | _ => none

/-- No entry that a line states is one of this number. -/
def Silent (number : UInt8) (l : Line) : Prop := ∀ m, States l m → m.payloadType ≠ number

/-- What a number stands for in a section with these lines, if it stands for anything. -/
inductive Means (body : List Line) (number : UInt8) : Option RtpMap → Prop where
  /-- A line states it, and none before does. -/
  | stated {before after : List Line} {l : Line} {m : RtpMap} :
      body = before ++ l :: after → States l m → m.payloadType = number →
        (∀ l' ∈ before, Silent number l') → Means body number (some m)
  /-- No line states it. -/
  | unstated : (∀ l ∈ body, Silent number l) → Means body number (agreed number)

theorem agreed_eq (number : UInt8) :
    agreed number = (Codec.ofPayloadType? number).map RtpMap.ofCodec := by
  unfold agreed
  split
  · rfl
  · rfl
  · rfl
  · rename_i hpcmu hpcma hl16
    cases hcodec : Codec.ofPayloadType? number with
    | none => rfl
    | some c =>
      -- the numbers of the three codecs are the ones above
      obtain rfl := Codec.ofPayloadType?_eq_some_iff.mp hcodec
      cases c
      · exact absurd rfl hpcmu
      · exact absurd rfl hpcma
      · exact absurd rfl hl16

theorem silent_iff {number : UInt8} {l : Line} :
    Silent number l ↔ (entryOf? l).any (·.payloadType == number) = false := by
  simp only [Silent, ← entryOf?_eq_some_iff]
  cases entryOf? l <;> simp

theorem find?_entries_eq_some_iff {body : List Line} {number : UInt8} {m : RtpMap} :
    (body.filterMap entryOf?).find? (·.payloadType == number) = some m ↔
      ∃ before l after, body = before ++ l :: after ∧ States l m ∧ m.payloadType = number ∧
        ∀ l' ∈ before, Silent number l' := by
  simp only [List.find?_filterMap, Option.bind_eq_some_iff, List.find?_eq_some_iff_append,
    Bool.not_eq_true', ← silent_iff, entryOf?_eq_some_iff]
  constructor
  · rintro ⟨l, ⟨hany, before, after, rfl, hbefore⟩, hl⟩
    refine ⟨before, l, after, rfl, hl, ?_, hbefore⟩
    simpa [entryOf?_eq_some_iff.mpr hl] using hany
  · rintro ⟨before, l, after, rfl, hl, hnumber, hbefore⟩
    refine ⟨l, ⟨?_, before, after, rfl, hbefore⟩, hl⟩
    simp [entryOf?_eq_some_iff.mpr hl, hnumber]

theorem find?_entries_eq_none_iff {body : List Line} {number : UInt8} :
    (body.filterMap entryOf?).find? (·.payloadType == number) = none ↔
      ∀ l ∈ body, Silent number l := by
  simp only [silent_iff, List.find?_eq_none, List.mem_filterMap]
  constructor
  · intro h l hl
    cases hentry : entryOf? l with
    | none => rfl
    | some m => simpa using h m ⟨l, hl, hentry⟩
  · rintro h m ⟨l, hl, hentry⟩
    simpa [hentry] using h l hl

/-- Among the entries of a section, a number is resolved to what it means. -/
theorem means_iff {body : List Line} {number : UInt8} {answer : Option RtpMap} :
    Means body number answer ↔ resolve (body.filterMap entryOf?) number = answer := by
  unfold resolve
  rw [← agreed_eq]
  constructor
  · rintro (⟨hbody, hl, hnumber, hbefore⟩ | hnone)
    · rw [find?_entries_eq_some_iff.mpr ⟨_, _, _, hbody, hl, hnumber, hbefore⟩]
      rfl
    · rw [find?_entries_eq_none_iff.mpr hnone]
      rfl
  · rintro rfl
    cases hfound : (body.filterMap entryOf?).find? (·.payloadType == number) with
    | none => exact .unstated (find?_entries_eq_none_iff.mp hfound)
    | some m =>
      obtain ⟨before, l, after, hbody, hl, hnumber, hbefore⟩ := find?_entries_eq_some_iff.mp hfound
      exact .stated hbody hl hnumber hbefore

/-! ## The first audio section -/

/-- A split of lines at their first audio section, into the lines before it, its media line, its
other lines, and what comes after. -/
structure FirstAudio (before : List Line) (media : Line) (body after ls : List Line) : Prop where
  split : ls = before ++ media :: (body ++ after)
  first : ∀ l ∈ before, begins "m=audio" l = false
  opens : begins "m=audio" media = true
  within : ∀ l ∈ body, begins "m=" l = false
  ends : ∀ l ∈ after.head?, begins "m=" l = true

theorem audioSection?_eq_some_iff {ls body : List Line} {media : Line} :
    audioSection? ls = some (media, body) ↔
      ∃ before after, FirstAudio before media body after ls := by
  unfold audioSection?
  constructor
  · intro h
    split at h
    · cases h
    · rename_i media rest hdrop
      cases h
      have hspan := ls.span_eq_takeWhile_dropWhile fun l => !begins "m=audio" l
      rw [hdrop] at hspan
      obtain ⟨hsplit, hfirst, hopens⟩ := span_eq_iff.mp hspan
      -- the section ends where the second search stops
      obtain ⟨hrest, hwithin, hends⟩ :=
        span_eq_iff.mp (rest.span_eq_takeWhile_dropWhile fun l => !begins "m=" l)
      refine ⟨_, _, ⟨hrest ▸ hsplit, ?_, ?_, ?_, ?_⟩⟩
      · simpa using hfirst
      · simpa using hopens
      · simpa using hwithin
      · simpa using hends
  · rintro ⟨before, after, h⟩
    have hspan : ls.span (fun l => !begins "m=audio" l) = (before, media :: (body ++ after)) :=
      span_eq_iff.mpr ⟨h.split, by simpa using h.first, by simpa using h.opens⟩
    have hrest : (body ++ after).span (fun l => !begins "m=" l) = (body, after) :=
      span_eq_iff.mpr ⟨rfl, by simpa using h.within, by simpa using h.ends⟩
    rw [List.span_eq_takeWhile_dropWhile, Prod.mk.injEq] at hspan hrest
    rw [hspan.2]
    exact congrArg (fun body => some (media, body)) hrest.1

theorem audioSection?_eq_none_iff {ls : List Line} :
    audioSection? ls = none ↔ ∀ l ∈ ls, begins "m=audio" l = false := by
  have hnone : (ls.dropWhile fun l => !begins "m=audio" l) = [] ↔
      ∀ l ∈ ls, begins "m=audio" l = false := by
    rw [List.dropWhile_eq_nil_iff]
    simp
  rw [← hnone, audioSection?]
  split <;> simp_all

/-! ## Codecs -/

theorem RtpMap.names_unique {m : RtpMap} {c c' : Codec} (h : m.Names c) (h' : m.Names c') :
    c = c' := by
  have hname : c.encodingName.toList.map Char.toLower = c'.encodingName.toList.map Char.toLower :=
    (eq_of_beq h.1).trans (eq_of_beq h'.1).symm
  cases c <;> cases c' <;> first | rfl | exact absurd hname (by decide)

theorem RtpMap.codec?_eq_some_iff {m : RtpMap} {c : Codec} : m.codec? = some c ↔ m.Names c := by
  refine ⟨names_of_codec?, fun h => ?_⟩
  cases hcodec : m.codec? with
  | none =>
    have hall : c ∈ Codec.all := by cases c <;> decide
    have hnot := List.find?_eq_none.mp hcodec c hall
    simp [h.1, h.2] at hnot
  | some c' => rw [names_unique h (names_of_codec? hcodec)]

theorem negotiatedCodec_eq_some_iff {sdp : String} {c : Codec} :
    negotiatedCodec sdp = some c ↔
      ∃ earlier m later, audioMaps sdp = earlier ++ m :: later ∧ m.Names c ∧
        ∀ m' ∈ earlier, ∀ c', ¬ m'.Names c' := by
  simp only [negotiatedCodec, List.findSome?_eq_some_iff, Option.eq_none_iff_forall_ne_some,
    ← RtpMap.codec?_eq_some_iff, ne_eq]

/-! ## What is listed -/

theorem audioMaps_of_firstAudio {sdp : String} {before body after : List Line} {media : Line}
    (h : FirstAudio before media body after (lines sdp)) :
    audioMaps sdp = (payloadNumbers media).filterMap (resolve (body.filterMap entryOf?)) := by
  have hsection := audioSection?_eq_some_iff.mpr ⟨before, after, h⟩
  rw [audioMaps_eq, audioNumbers, audioEntries, hsection]

/-- What the numbers of a section mean is what they are resolved to. -/
theorem forall₂_means_iff {body : List Line} {numbers : List UInt8}
    {answers : List (Option RtpMap)} :
    List.Forall₂ (Means body) numbers answers ↔
      numbers.map (resolve (body.filterMap entryOf?)) = answers := by
  have hmeans : Means body = fun number answer =>
      resolve (body.filterMap entryOf?) number = answer := by
    funext number answer
    exact propext means_iff
  rw [hmeans, ← List.forall₂_eq_eq_eq]
  exact List.forall₂_map_left_iff.symm

/-- **A description lists what its first audio section says.** Without a line that begins with
`m=audio` nothing is listed. Otherwise there is a first audio section, and what is listed is what
the numbers on its media line mean, one after the other, as far as they mean anything; what stands
before the section and after it makes no difference. The codec negotiated is the one that the first
of the listed entries names which names one at all. -/
theorem lists_first_section (sdp : String) :
    ((∀ l ∈ lines sdp, begins "m=audio" l = false) → audioMaps sdp = []) ∧
    ((∃ l ∈ lines sdp, begins "m=audio" l = true) →
      ∃ before media body after, FirstAudio before media body after (lines sdp)) ∧
    (∀ before media body after, FirstAudio before media body after (lines sdp) →
      (∀ maps, audioMaps sdp = maps ↔
        ∃ answers, List.Forall₂ (Means body)
            (((Text.words media).drop 3).filterMap Text.readByte) answers ∧
          answers.reduceOption = maps) ∧
      ∀ other before' after', FirstAudio before' media body after' (lines other) →
        audioMaps other = audioMaps sdp ∧ negotiatedCodec other = negotiatedCodec sdp) ∧
    ∀ c, negotiatedCodec sdp = some c ↔
      ∃ earlier m later, audioMaps sdp = earlier ++ m :: later ∧ m.Names c ∧
        ∀ m' ∈ earlier, ∀ c', ¬ m'.Names c' := by
  refine ⟨fun hnone => ?_, fun hsome => ?_, fun before media body after h => ⟨fun maps => ?_, ?_⟩,
    fun c => negotiatedCodec_eq_some_iff⟩
  · rw [audioMaps_eq, audioNumbers, audioSection?_eq_none_iff.mpr hnone]
    rfl
  · cases hsection : audioSection? (lines sdp) with
    | none =>
      obtain ⟨l, hl, hopens⟩ := hsome
      have hnone := audioSection?_eq_none_iff.mp hsection l hl
      rw [hopens] at hnone
      cases hnone
    | some found =>
      obtain ⟨before, after, h⟩ := audioSection?_eq_some_iff.mp hsection
      exact ⟨before, _, _, after, h⟩
  · -- an answer that is none is passed over
    rw [audioMaps_of_firstAudio h]
    simp only [forall₂_means_iff, exists_eq_left', List.reduceOption, List.filterMap_map,
      Function.id_comp]
    rfl
  · intro other before' after' h'
    have hsame : audioMaps other = audioMaps sdp :=
      (audioMaps_of_firstAudio h').trans (audioMaps_of_firstAudio h).symm
    exact ⟨hsame, congrArg (List.findSome? RtpMap.codec?) hsame⟩

/-- The description has a section before its first audio section and another one after. A line of
the first audio section that lacks a rate says nothing of the number 0, and the next gives it to
another format. -/
theorem lists_first_section_of_three :
    let sdp := "m=video\na=rtpmap:0 X/1\nm=audio 9 RTP/AVP 0 8\r\na=rtpmap:0 L16\r\n" ++
      "a=rtpmap:0 L16/16000/1\nm=audio\na=rtpmap:8 Y/1"
    let before := ["m=video".toList, "a=rtpmap:0 X/1".toList]
    let media := "m=audio 9 RTP/AVP 0 8".toList
    let body := ["a=rtpmap:0 L16".toList, "a=rtpmap:0 L16/16000/1".toList]
    let after := ["m=audio".toList, "a=rtpmap:8 Y/1".toList]
    FirstAudio before media body after (lines sdp) ∧
      audioMaps sdp = [⟨0, "L16", 16000⟩, ⟨8, "PCMA", 8000⟩] ∧
      negotiatedCodec sdp = some .l16 := by
  intro sdp before media body after
  have hfirst : FirstAudio before media body after (lines sdp) :=
    ⟨by decide +kernel, by decide, by decide, by decide, by decide⟩
  obtain ⟨-, -, hlisted, hcodec⟩ := lists_first_section sdp
  have hzero : Means body 0 (some ⟨0, "L16", 16000⟩) := means_iff.mpr (by decide)
  have height : Means body 8 (some ⟨8, "PCMA", 8000⟩) := means_iff.mpr (by decide)
  have hnumbers : ((Text.words media).drop 3).filterMap Text.readByte = [0, 8] := by
    decide +kernel
  have hmaps : audioMaps sdp = [⟨0, "L16", 16000⟩, ⟨8, "PCMA", 8000⟩] := by
    refine ((hlisted before media body after hfirst).1 _).mpr ?_
    rw [hnumbers]
    exact ⟨_, .cons hzero (.cons height .nil), rfl⟩
  refine ⟨hfirst, hmaps, (hcodec .l16).mpr ⟨[], _, _, hmaps, ⟨by decide, rfl⟩, ?_⟩⟩
  simp

end Parley.Sdp
