import Mathlib.Data.List.Basic
import Parley.Proofs.Signaling.Utterance
import Parley.Proofs.Text.Pattern

/-!
# `Parley/Proofs/Signaling/Limits.lean` — which messages go out

The service relays messages of a limited size, under topics of a certain form, for a time that 32
bits can tell. A joined client sends a message on as it is if it keeps to these limits
(`WithinLimits`), and otherwise reports the first of them that it does not keep to (`FirstFault`); a
client that is not joined does neither. So nothing that a client ever says to other attendees goes
beyond the limits (`messages_within_limits`).

The form of topics is that of a pattern for whole texts, `topicPattern`, and can be told character
by character (`isFoundIn_topicPattern_iff`).
-/

set_option autoImplicit false

namespace Parley

open Parley.Wire Parley.Text

/-! ## Topics -/

/-- A letter or digit of ASCII, a low line, or a hyphen. -/
def IsPlain (c : Char) : Prop :=
  ('a' ≤ c ∧ c ≤ 'z') ∨ ('A' ≤ c ∧ c ≤ 'Z') ∨ ('0' ≤ c ∧ c ≤ '9') ∨ c = '_' ∨ c = '-'

/-- One to 36 plain characters. -/
def IsPlainTopic (topic : String) : Prop :=
  (1 ≤ topic.length ∧ topic.length ≤ 36) ∧ ∀ c ∈ topic.toList, IsPlain c

/-- The pattern `^[a-zA-Z0-9_-]{1,36}$`. -/
def topicPattern : Pattern :=
  .whole (.repeated 1 36 (.oneOf [('a', 'z'), ('A', 'Z'), ('0', '9'), ('_', '_'), ('-', '-')]))

theorem inRanges_iff {c : Char} :
    InRanges [('a', 'z'), ('A', 'Z'), ('0', '9'), ('_', '_'), ('-', '-')] c ↔ IsPlain c := by
  have hself (d : Char) : d ≤ c ∧ c ≤ d ↔ c = d :=
    ⟨fun h => Char.le_antisymm h.2 h.1, fun h => h ▸ ⟨Char.le_refl _, Char.le_refl _⟩⟩
  simp only [InRanges, List.exists_mem_cons_iff, hself, IsPlain, List.not_mem_nil, false_and,
    exists_false, or_false]

theorem isFoundIn_topicPattern_iff {topic : String} :
    topicPattern.IsFoundIn topic ↔ IsPlainTopic topic := by
  rw [topicPattern, Pattern.isFoundIn_whole_iff, Pattern.matches_repeated_oneOf_iff, IsPlainTopic,
    String.length_toList, and_assoc]
  simp only [inRanges_iff]

namespace OutgoingMessage

theorem isTopicChar_iff {c : Char} : isTopicChar c = true ↔ IsPlain c := by
  have hupper : c.isUpper = true ↔ 'A' ≤ c ∧ c ≤ 'Z' := decide_eq_true_iff
  have hlower : c.isLower = true ↔ 'a' ≤ c ∧ c ≤ 'z' :=
    Bool.and_eq_true_iff.trans (and_congr decide_eq_true_iff decide_eq_true_iff)
  have hdigit : c.isDigit = true ↔ '0' ≤ c ∧ c ≤ '9' :=
    Bool.and_eq_true_iff.trans (and_congr decide_eq_true_iff decide_eq_true_iff)
  have hclasses : isTopicChar c =
      (c.isUpper || c.isLower || c.isDigit || c == '_' || c == '-') := rfl
  simp only [hclasses, Bool.or_eq_true, beq_iff_eq, hupper, hlower, hdigit, or_assoc, IsPlain]
  exact or_left_comm

theorem isTopic_iff {topic : String} : isTopic topic = true ↔ IsPlainTopic topic := by
  simp only [isTopic, IsPlainTopic, Bool.and_eq_true, decide_eq_true_eq, List.all_eq_true,
    isTopicChar_iff, String.length_toList]

/-! ## Limits -/

variable (m : OutgoingMessage)

def FitsSize : Prop := m.data.length ≤ 2048

def FitsLifetime : Prop := 0 ≤ m.lifetimeMs.toInt ∧ m.lifetimeMs.toInt < 0x100000000

/-- Whether the service relays the message. -/
def WithinLimits : Prop := m.FitsSize ∧ IsPlainTopic m.topic ∧ m.FitsLifetime

/-- The first limit that the message does not keep to: of the size, the topic and the lifetime, in
this order. -/
def FirstFault : Undelivered → Prop
  | .invalidSize => ¬ m.FitsSize
  | .invalidTopic => m.FitsSize ∧ ¬ IsPlainTopic m.topic
  | .invalidLifetime => m.FitsSize ∧ IsPlainTopic m.topic ∧ ¬ m.FitsLifetime
  | .throttled => False

variable {m}

theorem exists_firstFault (h : ¬ m.WithinLimits) : ∃ reason, m.FirstFault reason := by
  by_cases size : m.FitsSize
  · by_cases topic : IsPlainTopic m.topic
    · exact ⟨.invalidLifetime, size, topic, fun lifetime => h ⟨size, topic, lifetime⟩⟩
    · exact ⟨.invalidTopic, size, topic⟩
  · exact ⟨.invalidSize, size⟩

theorem isTopic_eq_false (topic : ¬ IsPlainTopic m.topic) : isTopic m.topic = false := by
  rwa [← Bool.not_eq_true, isTopic_iff]

theorem validate_of_firstFault {reason : Undelivered} (h : m.FirstFault reason) :
    m.validate = .error reason := by
  cases reason with
  | throttled => exact absurd h id
  | invalidSize => exact if_pos (Nat.not_le.mp h)
  | invalidTopic =>
    obtain ⟨size, topic⟩ := h
    have hsize : ¬ maxSize < m.data.length := Nat.not_lt.mpr size
    simp [validate, hsize, isTopic_eq_false topic]
  | invalidLifetime =>
    obtain ⟨size, topic, lifetime⟩ := h
    have hsize : ¬ maxSize < m.data.length := Nat.not_lt.mpr size
    have hlong : m.lifetimeMs.toInt < 0 ∨ 0x100000000 ≤ m.lifetimeMs.toInt := by
      unfold FitsLifetime at lifetime
      omega
    simp [validate, hsize, isTopic_iff.mpr topic, hlong]

/-- What is within the limits is taken as it is; 32 bits lose nothing of its lifetime. -/
theorem validate_of_withinLimits (h : m.WithinLimits) :
    ∃ lifetimeMs, m.validate = .ok lifetimeMs ∧ (lifetimeMs.toNat : Int) = m.lifetimeMs.toInt := by
  obtain ⟨size, topic, hlow, hhigh⟩ := h
  have hsize : ¬ maxSize < m.data.length := Nat.not_lt.mpr size
  have hfits : ¬ (m.lifetimeMs.toInt < 0 ∨ 0x100000000 ≤ m.lifetimeMs.toInt) := by omega
  refine ⟨.ofNat m.lifetimeMs.toInt.toNat, ?_, ?_⟩
  · simp only [validate, if_neg hsize, isTopic_iff.mpr topic, Bool.not_true, Bool.false_eq_true,
      if_false, if_neg hfits]
  · rw [UInt32.toNat_ofNat_of_lt' (by rw [UInt32.size]; omega), Int.toNat_of_nonneg hlow]

theorem withinLimits_of_validate {lifetimeMs : UInt32} (h : m.validate = .ok lifetimeMs) :
    m.WithinLimits ∧ (lifetimeMs.toNat : Int) = m.lifetimeMs.toInt := by
  by_cases within : m.WithinLimits
  · obtain ⟨taken, hvalid, hsame⟩ := validate_of_withinLimits within
    obtain rfl : taken = lifetimeMs := Except.ok.inj (hvalid.symm.trans h)
    exact ⟨within, hsame⟩
  · obtain ⟨reason, hfault⟩ := exists_firstFault within
    exact absurd ((validate_of_firstFault hfault).symm.trans h) nofun

/-- A topic may not end in a line break, nor have 37 characters; a lifetime is cut at neither end. -/
example :
    let check (topic : String) (lifetimeMs : Int64) : Except Undelivered UInt32 :=
      ({ topic, data := [], lifetimeMs } : OutgoingMessage).validate
    check "chat_1-A" 4294967295 = .ok 4294967295 ∧ check "chat\n" 0 = .error .invalidTopic ∧
      check "aaaaaaaaaaaaaaaaaaaaaaaaaaaaaaaaaaaaa" 0 = .error .invalidTopic ∧
      check "chat" (-1) = .error .invalidLifetime := by
  decide

end OutgoingMessage

namespace Machine

variable {m : Machine} {inputs : List Input} {frame : SignalFrame}

/-! ## One message -/

theorem step_sendDataMessage_of_valid {message : OutgoingMessage} {lifetimeMs : UInt32}
    (joined : m.state = .joined) (valid : message.validate = .ok lifetimeMs) :
    m.step (.sendDataMessage message) = (m, [.send (messageFrame message lifetimeMs)]) := by
  simp [step, sendDataMessage, joined, Lifecycle.isJoined, valid, messageFrame]

theorem step_sendDataMessage_of_fault {message : OutgoingMessage} {reason : Undelivered}
    (joined : m.state = .joined) (fault : message.validate = .error reason) :
    m.step (.sendDataMessage message) = (m, [.emit (.messagesFailed [message.failed reason])]) := by
  simp [step, sendDataMessage, joined, Lifecycle.isJoined, fault]

theorem step_sendDataMessage_of_not_joined (h : m.state ≠ .joined) (message : OutgoingMessage) :
    m.step (.sendDataMessage message) = (m, []) := by
  have hnot : m.state.isJoined = false :=
    Bool.eq_false_iff.mpr fun joined => h (joined_of_isJoined joined)
  simp [step, sendDataMessage, hnot]

/-! ## All that is said -/

/-- What is said in a run is said upon one of its inputs. -/
theorem utters_of_mem_run (h : .send frame ∈ (m.run inputs).2.flatten) :
    ∃ input ∈ inputs, ∃ before : Machine, before.Utters input frame := by
  induction inputs generalizing m with
  | nil => exact absurd h (by simp [run])
  | cons input rest ih =>
    simp only [run, List.flatten_cons, List.mem_append] at h
    rcases h with hnow | hlater
    · exact ⟨input, by simp, m, utters_step hnow⟩
    · obtain ⟨later, hmem, before, hutters⟩ := ih hlater
      exact ⟨later, List.mem_cons_of_mem input hmem, before, hutters⟩

/-- A frame that says of itself that it holds a message to other attendees, or does hold one. -/
def IsMessage (frame : SignalFrame) : Prop :=
  frame.kind = FrameKind.dataMessage.number ∨ frame.dataMessage ≠ none

theorem not_isMessage (kind : FrameKind) (hkind : frame.kind = kind.number)
    (hother : kind ≠ .dataMessage) (hnone : frame.dataMessage = none) : ¬ IsMessage frame := by
  rintro (hmessage | hsome)
  · have hsame := congrArg FrameKind.ofNumber? (hkind.symm.trans hmessage)
    rw [FrameKind.ofNumber?_number, FrameKind.ofNumber?_number] at hsame
    exact hother (Option.some.inj hsame)
  · exact hsome hnone

theorem Utters.message_of_isMessage {input : Input} (h : m.Utters input frame)
    (holds : IsMessage frame) :
    ∃ message lifetimeMs, input = .sendDataMessage message ∧
      message.validate = .ok lifetimeMs ∧ frame = messageFrame message lifetimeMs := by
  cases h with
  | message state valid => exact ⟨_, _, rfl, valid, rfl⟩
  | join => exact absurd holds (not_isMessage .join rfl nofun rfl)
  | letIn | anew => exact absurd holds (not_isMessage .subscribe rfl nofun rfl)
  | ping | pong => exact absurd holds (not_isMessage .pingPong rfl nofun rfl)
  | muted => exact absurd holds (not_isMessage .audioControl rfl nofun rfl)
  | farewell => exact absurd holds (not_isMessage .leave rfl nofun rfl)

/-- **Messages go out within the limits, and as they are.** Whatever has been done with a new
machine: if it is joined, a message to send brings about one action and nothing else. A message
within the limits goes out in a frame with just this message, its topic, data and lifetime as they
were; any other is reported as not delivered, with its topic and data, for the first limit that it
does not keep to. If it is not joined, nothing comes of the message. And each frame with a message
that was ever sent carries one that was to be sent and is within the limits. Topics are checked for
what the pattern is found in. -/
theorem messages_within_limits (descriptor : Descriptor) (config : SignalingConfig)
    (offerId : UInt64) (visits : VideoSources.Visits) (inputs : List Input) :
    let m := ((new descriptor config offerId visits).run inputs).1
    let log := ((new descriptor config offerId visits).run inputs).2.flatten
    (m.state = .joined → ∀ message : OutgoingMessage, ∃ action,
      m.step (.sendDataMessage message) = (m, [action]) ∧
      (message.WithinLimits ↔ ∃ lifetimeMs : UInt32,
        (lifetimeMs.toNat : Int) = message.lifetimeMs.toInt ∧
        action = .send
          { kind := FrameKind.dataMessage.number
            dataMessage := some { messages :=
              [{ topic := some message.topic, data := some message.data
                 lifetimeMs := some lifetimeMs }] } }) ∧
      (¬ message.WithinLimits → ∃ reason, message.FirstFault reason ∧
        action = .emit (.messagesFailed
          [{ topic := message.topic, data := message.data, reason }]))) ∧
    (m.state ≠ .joined → ∀ message, m.step (.sendDataMessage message) = (m, [])) ∧
    (∀ frame, .send frame ∈ log → IsMessage frame → ∃ message lifetimeMs,
      .sendDataMessage message ∈ inputs ∧ message.WithinLimits ∧
      (lifetimeMs.toNat : Int) = message.lifetimeMs.toInt ∧
      frame = messageFrame message lifetimeMs) ∧
    ∀ topic, OutgoingMessage.isTopic topic = true ↔ topicPattern.IsFoundIn topic := by
  intro m log
  refine ⟨fun joined message => ?_, step_sendDataMessage_of_not_joined, fun frame hsaid holds => ?_,
    fun topic => OutgoingMessage.isTopic_iff.trans isFoundIn_topicPattern_iff.symm⟩
  · by_cases within : message.WithinLimits
    · obtain ⟨lifetimeMs, valid, hsame⟩ := OutgoingMessage.validate_of_withinLimits within
      exact ⟨_, step_sendDataMessage_of_valid joined valid,
        iff_of_true within ⟨lifetimeMs, hsame, rfl⟩, fun h => absurd within h⟩
    · obtain ⟨reason, hfault⟩ := OutgoingMessage.exists_firstFault within
      have fault := OutgoingMessage.validate_of_firstFault hfault
      refine ⟨_, step_sendDataMessage_of_fault joined fault, iff_of_false within ?_,
        fun _ => ⟨reason, hfault, rfl⟩⟩
      rintro ⟨lifetimeMs, -, hsend⟩
      cases hsend
  · obtain ⟨input, hmem, before, hutters⟩ := utters_of_mem_run hsaid
    obtain ⟨message, lifetimeMs, rfl, valid, hframe⟩ := hutters.message_of_isMessage holds
    obtain ⟨within, hsame⟩ := OutgoingMessage.withinLimits_of_validate valid
    exact ⟨message, lifetimeMs, hmem, within, hsame, hframe⟩

/-- A joined client is to send a message within the limits, which goes out, and one with a space in
its topic and a lifetime below zero, which is reported for its topic. -/
theorem messages_within_limits_of_joined :
    let descriptor : Descriptor :=
      { meetingId := "m", externalMeetingId := "", credentials := ⟨"a", "", "t"⟩
        audioHostUrl := "", signalingUrl := ⟨"ws://h", by decide⟩ }
    let inputs : List Input := [.start, .transportUp, .message [0x02, 0x08, 0x00, 0x10, 0x02] 0]
    let m := ((new descriptor {} 0).run inputs).1
    let good : OutgoingMessage := { topic := "chat", data := [1, 2], lifetimeMs := 1500 }
    let bad : OutgoingMessage := { topic := "a chat", data := [3], lifetimeMs := -1 }
    m.state = .joined ∧ good.WithinLimits ∧ ¬ bad.WithinLimits ∧
      m.step (.sendDataMessage good) = (m, [.send (messageFrame good 1500)]) ∧
      m.step (.sendDataMessage bad) =
        (m, [.emit (.messagesFailed [⟨"a chat", [3], .invalidTopic⟩])]) := by
  intro descriptor inputs m good bad
  have joined : m.state = .joined := by decide +kernel
  have valid : good.validate = .ok 1500 := by decide
  have within : good.WithinLimits := (OutgoingMessage.withinLimits_of_validate valid).1
  have fault : bad.validate = .error .invalidTopic := by decide
  have beyond : ¬ bad.WithinLimits := fun h => by
    obtain ⟨lifetimeMs, valid, -⟩ := OutgoingMessage.validate_of_withinLimits h
    exact nomatch fault.symm.trans valid
  have answers := (messages_within_limits descriptor {} 0 (fun _ => .asKept) inputs).1 joined
  obtain ⟨_, hgood, hsent, -⟩ := answers good
  obtain ⟨lifetimeMs, hlifetime, rfl⟩ := hsent.mp within
  obtain rfl : lifetimeMs = 1500 := UInt32.toNat_inj.mp (Int.ofNat_inj.mp hlifetime)
  obtain ⟨_, hbad, -, hreported⟩ := answers bad
  obtain ⟨reason, hfault, rfl⟩ := hreported beyond
  obtain rfl : reason = .invalidTopic :=
    Except.error.inj ((OutgoingMessage.validate_of_firstFault hfault).symm.trans fault)
  exact ⟨joined, within, beyond, hgood, hbad⟩

end Machine

end Parley
