import Mathlib.Data.List.Induction
import Parley.Proofs.Pipeline.Accounts

/-!
# `Parley/Proofs/Pipeline/Alerts.lean` — which alerts are raised

A receiver raises an alert for so many failures in a row to decode, and for the first failure in a
row to record. The two are rows of different things. Failures to decode are in a row if no frame was
decoded in between, be it recorded or not; failures to record are in a row if no frame was recorded
in between, whether or not others could not be decoded. Both rows are read off the fates of the
frames, in the order in which these were met (`undecodableRuns`, `unrecordedRuns`).

What a receiver remembers of the two is how long the last row of the first kind is, up to multiples
of the number at which it raises an alert, and whether the last row of the second kind has begun. One
order has one of five effects on that (`Effect`), and so by induction the alerts raised are those
that the rows call for, at every moment (`alerts_by_runs`).
-/

set_option autoImplicit false

namespace Parley

open Parley.Rtp

/-! ## Runs -/

section Runs

variable {α : Type} {isBreak : α → Bool} {a : α}

/-- A break closes the last run, and a new one begins. -/
theorem splitOnP_concat_of_break (h : isBreak a = true) (as : List α) :
    (as ++ [a]).splitOnP isBreak = as.splitOnP isBreak ++ [[]] := by
  rw [List.splitOnP_append_cons as [] h, List.splitOnP_nil]

/-- Anything else goes on with the last run. -/
theorem splitOnP_concat_of_not_break (h : isBreak a = false) (as : List α) :
    ∃ closed last, as.splitOnP isBreak = closed ++ [last] ∧
      (as ++ [a]).splitOnP isBreak = closed ++ [last ++ [a]] := by
  induction as with
  | nil => exact ⟨[], [], rfl, by simp [List.splitOnP_cons_eq_if_modifyHead, h]⟩
  | cons first rest ih =>
    obtain ⟨closed, last, hrest, hmore⟩ := ih
    rw [List.cons_append, List.splitOnP_cons_eq_if_modifyHead,
      List.splitOnP_cons_eq_if_modifyHead, hrest, hmore]
    cases isBreak first with
    | true => exact ⟨[] :: closed, last, rfl, rfl⟩
    | false =>
      cases closed with
      | nil => exact ⟨[], first :: last, rfl, rfl⟩
      | cons run closed => exact ⟨(first :: run) :: closed, last, rfl, rfl⟩

end Runs

/-- The stretches of fates between one decoded frame and the next. -/
def undecodableRuns (fates : List Fate) : List (List Fate) :=
  fates.splitOnP (· != .undecodable)

/-- The stretches between one recorded frame and the next, without the frames that could not be
decoded. -/
def unrecordedStretches (fates : List Fate) : List (List Fate) :=
  (fates.filter (· != .undecodable)).splitOnP (· == .recorded)

/-- Those of them that are not empty. -/
def unrecordedRuns (fates : List Fate) : List (List Fate) :=
  (unrecordedStretches fates).filter (! ·.isEmpty)

/-- For so many failures to decode in a row an alert is raised `length / most` times. -/
def sustained (most : Nat) (run : List Fate) : List MediaError :=
  List.replicate (run.length / most) (.sustainedDecodeFailure most)

/-- The alerts that the fates of frames call for: for every run of failures to decode as many as the
limit goes into it, each with the limit, and one for every run of failures to record. -/
structure RaisedByRuns (most : Nat) (fates : List Fate) (raised : List MediaError) : Prop where
  decoding : raised.filter (· != .sink) = (undecodableRuns fates).flatMap (sustained most)
  recording : raised.count .sink = (unrecordedRuns fates).length

section Fates

variable {fates : List Fate} {fate : Fate}

theorem undecodableRuns_of_undecodable (fates : List Fate) :
    ∃ closed last, undecodableRuns fates = closed ++ [last] ∧
      undecodableRuns (fates ++ [.undecodable]) = closed ++ [last ++ [.undecodable]] :=
  splitOnP_concat_of_not_break rfl fates

theorem undecodableRuns_of_decoded (fates : List Fate) (h : fate ≠ .undecodable) :
    undecodableRuns (fates ++ [fate]) = undecodableRuns fates ++ [[]] :=
  splitOnP_concat_of_break (by simpa using h) fates

theorem unrecordedStretches_of_undecodable :
    unrecordedStretches (fates ++ [.undecodable]) = unrecordedStretches fates := by
  rw [unrecordedStretches, List.filter_append]
  exact congrArg _ (List.append_nil _)

theorem unrecordedStretches_of_recorded :
    unrecordedStretches (fates ++ [.recorded]) = unrecordedStretches fates ++ [[]] := by
  rw [unrecordedStretches, List.filter_append]
  exact splitOnP_concat_of_break rfl _

theorem unrecordedStretches_of_unrecorded (fates : List Fate) :
    ∃ closed last, unrecordedStretches fates = closed ++ [last] ∧
      unrecordedStretches (fates ++ [.unrecorded]) = closed ++ [last ++ [.unrecorded]] := by
  unfold unrecordedStretches
  rw [List.filter_append]
  exact splitOnP_concat_of_not_break rfl _

theorem sustained_nil (most : Nat) : sustained most [] = [] := by
  rw [sustained, List.length_nil, Nat.zero_div, List.replicate_zero]

/-- A frame that was decoded calls for no alert of failures to decode. -/
theorem flatMap_sustained_of_decoded (h : fate ≠ .undecodable) (most : Nat) (fates : List Fate) :
    (undecodableRuns (fates ++ [fate])).flatMap (sustained most) =
      (undecodableRuns fates).flatMap (sustained most) := by
  rw [undecodableRuns_of_decoded fates h, List.flatMap_append, List.flatMap_singleton,
    sustained_nil, List.append_nil]

/-- After a frame that was decoded nothing is left over of a run. -/
theorem leftover_of_decoded (h : fate ≠ .undecodable) (most : Nat) (fates : List Fate) :
    ((undecodableRuns (fates ++ [fate])).getLastD []).length % most = 0 := by
  rw [undecodableRuns_of_decoded fates h, List.getLastD_concat, List.length_nil, Nat.zero_mod]

/-- One more failure to decode: what goes into the limit, and what is left over. -/
theorem length_concat_div_mod {most : Nat} (hpos : 0 < most) (run : List Fate) (fate : Fate) :
    (run ++ [fate]).length / most = run.length / most + (run.length % most + 1) / most ∧
      (run ++ [fate]).length % most = (run.length % most + 1) % most := by
  have hlength : (run ++ [fate]).length =
      most * (run.length / most) + (run.length % most + 1) := by
    rw [List.length_append, List.length_singleton, ← Nat.add_assoc, Nat.div_add_mod]
  rw [hlength, Nat.mul_add_div hpos, Nat.mul_add_mod]
  exact ⟨rfl, rfl⟩

end Fates

namespace Receiver

/-! ## One order -/

/-- All that an order can do to what is remembered of failures, by the fate that it brings. -/
inductive Effect (r : Receiver) : Option Fate → Receiver → Prop where
  | none {next : Receiver} (failures : next.consecutiveFailures = r.consecutiveFailures)
      (failing : next.sinkFailing = r.sinkFailing) (alerts : next.alerts = r.alerts) :
      Effect r none next
  | missed {next : Receiver}
      (few : r.consecutiveFailures + 1 < r.config.maxConsecutiveDecodeFailures.toNat)
      (failures : next.consecutiveFailures = r.consecutiveFailures + 1)
      (failing : next.sinkFailing = r.sinkFailing) (alerts : next.alerts = r.alerts) :
      Effect r (some .undecodable) next
  | alarmed {next : Receiver}
      (many : r.config.maxConsecutiveDecodeFailures.toNat ≤ r.consecutiveFailures + 1)
      (failures : next.consecutiveFailures = 0) (failing : next.sinkFailing = r.sinkFailing)
      (alerts : next.alerts =
        r.alerts.raise (.sustainedDecodeFailure (r.consecutiveFailures + 1))) :
      Effect r (some .undecodable) next
  | recorded {next : Receiver} (failures : next.consecutiveFailures = 0)
      (failing : next.sinkFailing = false) (alerts : next.alerts = r.alerts) :
      Effect r (some .recorded) next
  | lost {next : Receiver} (failures : next.consecutiveFailures = 0)
      (failing : next.sinkFailing = true)
      (alerts : next.alerts = if r.sinkFailing then r.alerts else r.alerts.raise .sink) :
      Effect r (some .unrecorded) next

variable (r : Receiver)

theorem effect_decodeFailed : Effect r (some .undecodable) r.decodeFailed := by
  unfold decodeFailed
  dsimp only
  split
  · rename_i many
    exact .alarmed many rfl rfl rfl
  · rename_i few
    exact .missed (Nat.lt_of_not_le few) rfl rfl rfl

theorem effect_perform (order : Order) : Effect r (r.fate? order) (r.perform order) := by
  cases order with
  | garbled => exact effect_decodeFailed r
  | retire ssrc buffer => exact .none rfl rfl rfl
  | play frame =>
    cases hdecode : Audio.decode frame.codec frame.payload with
    | error e =>
      simp only [perform, play, fate?, hdecode]
      exact effect_decodeFailed r
    | ok samples =>
      cases hdone : (r.recorder.write frame.ssrc samples).1 with
      | true =>
        simp only [perform, play, fate?, hdecode, hdone]
        exact .recorded rfl rfl rfl
      | false =>
        simp only [perform, play, fate?, hdecode, hdone]
        exact .lost rfl rfl rfl

/-! ## Alerts and memory -/

/-- What a receiver has raised after some fates, and what it remembers of them. -/
structure Alert (most : Nat) (fates : List Fate) (r : Receiver) : Prop where
  raised : RaisedByRuns most fates r.alerts.raised
  failures : r.consecutiveFailures = ((undecodableRuns fates).getLastD []).length % most
  failing : r.sinkFailing = !((unrecordedStretches fates).getLastD []).isEmpty

variable {r} {next : Receiver} {fates : List Fate} {most : Nat}

theorem alert_new (config : ReceiverConfig) (recorder : Recorder) :
    Alert most [] { config, recorder } := by
  refine ⟨⟨?_, rfl⟩, (Nat.zero_mod most).symm, rfl⟩
  show [] = sustained most [] ++ []
  rw [sustained_nil, List.append_nil]

/-- A failure to decode leaves what was recorded and what was not as it is. -/
theorem Alert.undecodable (h : Alert most fates r) (hpos : 0 < most)
    (failing : next.sinkFailing = r.sinkFailing)
    (failures : next.consecutiveFailures = (r.consecutiveFailures + 1) % most)
    (raised : next.alerts.raised = r.alerts.raised ++
      List.replicate ((r.consecutiveFailures + 1) / most) (.sustainedDecodeFailure most)) :
    Alert most (fates ++ [.undecodable]) next := by
  obtain ⟨⟨hdecoding, hrecording⟩, hfailures, hfailing⟩ := h
  obtain ⟨closed, last, hruns, hmore⟩ := undecodableRuns_of_undecodable fates
  have hlast : r.consecutiveFailures = last.length % most := by
    rw [hfailures, hruns, List.getLastD_concat]
  obtain ⟨hdiv, hmod⟩ := length_concat_div_mod hpos last .undecodable
  refine ⟨⟨?_, ?_⟩, ?_, ?_⟩
  · have hkept : (List.replicate ((last.length % most + 1) / most)
        (MediaError.sustainedDecodeFailure most)).filter (· != .sink) =
          List.replicate ((last.length % most + 1) / most) (.sustainedDecodeFailure most) := by
      simp
    rw [raised, List.filter_append, hdecoding, hruns, hmore, hlast, hkept, List.flatMap_append,
      List.flatMap_append, List.append_assoc, List.flatMap_singleton, List.flatMap_singleton,
      sustained, sustained, hdiv, List.replicate_append_replicate]
  · have hnone : (List.replicate ((r.consecutiveFailures + 1) / most)
        (MediaError.sustainedDecodeFailure most)).count .sink = 0 := by
      simp [List.count_replicate]
    rw [raised, List.count_append, hnone, hrecording, unrecordedRuns, unrecordedRuns,
      unrecordedStretches_of_undecodable, Nat.add_zero]
  · rw [hmore, List.getLastD_concat, hmod, failures, hlast]
  · rw [unrecordedStretches_of_undecodable, failing, hfailing]

theorem Alert.recorded (h : Alert most fates r) (failures : next.consecutiveFailures = 0)
    (failing : next.sinkFailing = false) (alerts : next.alerts = r.alerts) :
    Alert most (fates ++ [.recorded]) next := by
  obtain ⟨⟨hdecoding, hrecording⟩, -, -⟩ := h
  have hdecoded : Fate.recorded ≠ .undecodable := by decide
  refine ⟨⟨?_, ?_⟩, ?_, ?_⟩
  · rw [alerts, hdecoding, flatMap_sustained_of_decoded hdecoded]
  · rw [alerts, hrecording, unrecordedRuns, unrecordedRuns, unrecordedStretches_of_recorded]
    simp
  · rw [failures, leftover_of_decoded hdecoded]
  · rw [unrecordedStretches_of_recorded, List.getLastD_concat, failing]
    rfl

theorem Alert.lost (h : Alert most fates r) (failures : next.consecutiveFailures = 0)
    (failing : next.sinkFailing = true)
    (alerts : next.alerts = if r.sinkFailing then r.alerts else r.alerts.raise .sink) :
    Alert most (fates ++ [.unrecorded]) next := by
  obtain ⟨⟨hdecoding, hrecording⟩, -, hfailing⟩ := h
  have hdecoded : Fate.unrecorded ≠ .undecodable := by decide
  obtain ⟨closed, last, hstretches, hmore⟩ := unrecordedStretches_of_unrecorded fates
  rw [hstretches, List.getLastD_concat] at hfailing
  have hraised : next.alerts.raised =
      r.alerts.raised ++ if last.isEmpty then [.sink] else [] := by
    rw [alerts, hfailing]
    cases last with
    | nil => rfl
    | cons fate rest => exact (List.append_nil _).symm
  refine ⟨⟨?_, ?_⟩, ?_, ?_⟩
  · have hnone : (if last.isEmpty then [MediaError.sink] else []).filter (· != .sink) = [] := by
      cases last <;> rfl
    rw [hraised, List.filter_append, hnone, List.append_nil, hdecoding,
      flatMap_sustained_of_decoded hdecoded]
  · rw [hraised, List.count_append, hrecording, unrecordedRuns, unrecordedRuns, hstretches, hmore]
    cases last <;> simp
  · rw [failures, leftover_of_decoded hdecoded]
  · rw [hmore, List.getLastD_concat, failing]
    simp

/-- **What one order raises is called for by its fate.** -/
theorem Alert.effect {fate? : Option Fate} (h : Alert most fates r)
    (hmost : r.config.maxConsecutiveDecodeFailures.toNat = most) (hpos : 0 < most)
    (effect : Effect r fate? next) : Alert most (fates ++ fate?.toList) next := by
  cases effect with
  | none failures failing alerts =>
    rw [Option.toList_none, List.append_nil]
    exact ⟨alerts ▸ h.raised, failures ▸ h.failures, failing ▸ h.failing⟩
  | missed few failures failing alerts =>
    rw [hmost] at few
    refine h.undecodable hpos failing (failures.trans (Nat.mod_eq_of_lt few).symm) ?_
    rw [alerts, Nat.div_eq_of_lt few, List.replicate_zero, List.append_nil]
  | alarmed many failures failing alerts =>
    have hfew : r.consecutiveFailures < most := by
      rw [h.failures]
      exact Nat.mod_lt _ hpos
    have hall : r.consecutiveFailures + 1 = most := by omega
    refine h.undecodable hpos failing ?_ ?_
    · rw [failures, hall, Nat.mod_self]
    · rw [alerts, hall, Nat.div_self hpos]
      rfl
  | recorded failures failing alerts => exact h.recorded failures failing alerts
  | lost failures failing alerts => exact h.lost failures failing alerts

/-! ## Runs of orders -/

theorem fates_concat (r : Receiver) (orders : List Order) (order : Order) :
    r.fates (orders ++ [order]) =
      r.fates orders ++ ((r.performAll orders).fate? order).toList := by
  induction orders generalizing r with
  | nil => exact List.append_nil _
  | cons first rest ih =>
    rw [List.cons_append, fates, fates, ih, List.append_assoc]
    rfl

theorem alert_performAll {config : ReceiverConfig}
    (hmost : config.maxConsecutiveDecodeFailures.toNat = most) (hpos : 0 < most)
    (recorder : Recorder) (orders : List Order) :
    let first : Receiver := { config, recorder }
    Alert most (first.fates orders) (first.performAll orders) := by
  intro first
  induction orders using List.reverseRecOn with
  | nil => exact alert_new config recorder
  | append_singleton orders order ih =>
    have hconfig : (first.performAll orders).config = config := config_performAll first orders
    rw [fates_concat, performAll_append]
    exact ih.effect (by rw [hconfig, hmost]) hpos (effect_perform _ order)

/-- **Alerts are raised by runs.** Take a receiver that is to raise an alert for so many failures in
a row to decode, at least one. Between packets it remembers fewer than that. And the alerts that it
has raised, lost ones included, are at every moment those that the runs among the fates so far call
for: after any number of packets, after the final playout, in whatever order streams are played out,
and after each order in between. The fates are those of all frames met, as they arrive, when they are
played, or when their stream is given up. -/
theorem alerts_by_runs (config : ReceiverConfig) (recorder : Recorder)
    (packets : List (Bool × Octets)) (ssrcs : List UInt32)
    (hmost : 1 ≤ config.maxConsecutiveDecodeFailures) :
    let most := config.maxConsecutiveDecodeFailures.toNat
    let first : Receiver := { config, recorder }
    let now := packets.foldl (fun r p => r.take p.1 p.2) first
    let heard := (Streams.takes config {} packets).2
    let orders := (Streams.sessionIn config packets ssrcs).2
    now.consecutiveFailures < most ∧
    RaisedByRuns most (first.fates heard) now.alerts.raised ∧
    RaisedByRuns most (first.fates orders) (now.finishIn ssrcs).alerts.raised ∧
    ∀ done, done <+: orders →
      RaisedByRuns most (first.fates done) (first.performAll done).alerts.raised := by
  intro most first now heard orders
  have hpos : 0 < most := UInt32.le_iff_toNat_le.mp hmost
  have halert (done : List Order) : Alert most (first.fates done) (first.performAll done) :=
    alert_performAll rfl hpos recorder done
  have hnow : now = (first.performAll heard).withSide (Streams.takes config {} packets).1 := by
    rw [← performAll_withSide]
    exact takes_eq first packets
  have hfinish : (now.finishIn ssrcs).alerts = (first.performAll orders).alerts := by
    have hlast : now.finishIn ssrcs = _ := session_eq config recorder packets ssrcs
    rw [hlast]
    rfl
  refine ⟨?_, ?_, ?_, fun done _ => (halert done).raised⟩
  · rw [hnow]
    show (first.performAll heard).consecutiveFailures < most
    rw [(halert heard).failures]
    exact Nat.mod_lt _ hpos
  · rw [hnow]
    exact (halert heard).raised
  · rw [hfinish]
    exact (halert orders).raised

/-- A limit of two, and a recorder that cannot write. After a packet that carries nothing, three
streams wait for the end, the first with a frame that cannot be decoded. Played out first, this frame
is the second of a row; played out between the others, it does not end the row of these. -/
theorem alerts_by_runs_of_three :
    let config : ReceiverConfig := { maxConsecutiveDecodeFailures := 2 }
    let recorder : Recorder := { faults := fun _ _ => some .writing }
    let packet (ssrc : UInt32) (payload : Octets) : Bool × Octets :=
      (true, (Packet.ofFrame ⟨7, 0, ssrc, .l16, payload⟩).encode)
    let packets := [(true, []), packet 1 [0], packet 2 [0, 1], packet 3 [0, 2]]
    let first : Receiver := { config, recorder }
    let now := packets.foldl (fun r p => r.take p.1 p.2) first
    let fates (ssrcs : List UInt32) := first.fates (Streams.sessionIn config packets ssrcs).2
    let raised (ssrcs : List UInt32) := (now.finishIn ssrcs).alerts.raised
    1 ≤ config.maxConsecutiveDecodeFailures ∧
      [1, 2, 3].Perm now.streams.keys ∧ [2, 1, 3].Perm now.streams.keys ∧
      fates [1, 2, 3] = [.undecodable, .undecodable, .unrecorded, .unrecorded] ∧
      raised [1, 2, 3] = [.sustainedDecodeFailure 2, .sink] ∧
      RaisedByRuns 2 (fates [1, 2, 3]) (raised [1, 2, 3]) ∧
      fates [2, 1, 3] = [.undecodable, .unrecorded, .undecodable, .unrecorded] ∧
      raised [2, 1, 3] = [.sink] ∧
      RaisedByRuns 2 (fates [2, 1, 3]) (raised [2, 1, 3]) := by
  intro config recorder packet packets first now fates raised
  have hmost : 1 ≤ config.maxConsecutiveDecodeFailures := by decide
  have hall (ssrcs : List UInt32) : RaisedByRuns 2 (fates ssrcs) (raised ssrcs) :=
    (alerts_by_runs config recorder packets ssrcs hmost).2.2.1
  -- what a buffer releases is found by recursion on its size, which only the kernel unfolds
  refine ⟨hmost, ?_, ?_, ?_, ?_, hall [1, 2, 3], ?_, ?_, hall [2, 1, 3]⟩
  all_goals decide +kernel

end Receiver

end Parley
