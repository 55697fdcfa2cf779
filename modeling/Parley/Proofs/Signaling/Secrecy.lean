import Mathlib.Data.List.Forall2
import Parley.Proofs.Signaling.SourceNews

/-!
# `Parley/Proofs/Signaling/Secrecy.lean` — a machine does not look at its secret

A machine carries the descriptor of its meeting, and with it the join token. It never looks at the
token: under another one each of its reactions leaves the same machine, but for that token, and asks
for the same actions (`Blind`). Only how it happens to go through its sources may show, in the order
in which sources are withdrawn, and where two machines go through them alike not even that.

All reactions are put together of few ways to react, each of which keeps this property, so that it
holds of a step (`blind_step`) and by induction of a run (`agrees_run`).
-/

set_option autoImplicit false

namespace Parley

open Parley.Wire

/-! ## Another token -/

/-- The same meeting and attendee with another secret. -/
def Descriptor.withToken (d : Descriptor) (token : String) : Descriptor :=
  { d with credentials := { d.credentials with joinToken := token } }

/-- Whether two descriptors differ in nothing but their secrets. -/
def Descriptor.SameButToken (d e : Descriptor) : Prop := e = d.withToken e.joinToken

/-- The machine with another secret, and that goes through its sources in other ways. -/
def Machine.disguise (m : Machine) (token : String) (visits : VideoSources.Visits) : Machine :=
  { m with descriptor := m.descriptor.withToken token, visits }

/-! ## The same in another order -/

/-- Whether two events tell the same. The order of the sources that are withdrawn does not count. -/
inductive Event.Alike : Event → Event → Prop where
  | same (e : Event) : Event.Alike e e
  | withdrawn {removed removed' : List VideoSource} (perm : removed.Perm removed') :
      Event.Alike (.videoSourcesUnavailable removed) (.videoSourcesUnavailable removed')

/-- Whether two actions are the same, but for how an event is told. -/
inductive Action.Alike : Action → Action → Prop where
  | same (a : Action) : Action.Alike a a
  | emit {e e' : Event} (told : e.Alike e') : Action.Alike (.emit e) (.emit e')

/-- Two lists agree if they are alike, entry by entry, and in the `common` case the same. -/
structure Agree {α : Type} (alike : α → α → Prop) (common : Prop) (l l' : List α) : Prop where
  alike : List.Forall₂ alike l l'
  same : common → l' = l

namespace Agree

variable {α : Type} {alike : α → α → Prop} {common common' : Prop} {l l' : List α}

theorem nil : Agree alike common [] [] := ⟨.nil, fun _ => rfl⟩

theorem refl (h : ∀ a, alike a a) (l : List α) : Agree alike common l l :=
  ⟨List.forall₂_same.mpr fun a _ => h a, fun _ => rfl⟩

theorem mono (h : Agree alike common l l') (hcommon : common' → common) :
    Agree alike common' l l' :=
  ⟨h.alike, fun hc => h.same (hcommon hc)⟩

theorem cons {a a' : α} (halike : alike a a') (hsame : common → a' = a)
    (h : Agree alike common l l') : Agree alike common (a :: l) (a' :: l') :=
  ⟨.cons halike h.alike, fun hc => by rw [hsame hc, h.same hc]⟩

theorem single {a a' : α} (halike : alike a a') (hsame : common → a' = a) :
    Agree alike common [a] [a'] :=
  nil.cons halike hsame

theorem append {k k' : List α} (h : Agree alike common l l') (h' : Agree alike common k k') :
    Agree alike common (l ++ k) (l' ++ k') :=
  ⟨List.rel_append h.alike h'.alike, fun hc => by rw [h.same hc, h'.same hc]⟩

end Agree

namespace Machine

/-- What a machine does, `r`, and what it does under another token, `s`: what is left and what is
asked for is the same but for the token and, unless the case is `common`, for the ways in which the
sources are gone through. -/
structure Agrees {α : Type} (alike : α → α → Prop) (token : String) (common : Prop)
    (r s : Machine × List α) : Prop where
  next : s.1 = r.1.disguise token s.1.visits
  visits : common → s.1.visits = r.1.visits
  actions : Agree alike common r.2 s.2

/-- Whether a reaction does not depend on the token of the machine. -/
def Blind (react : Machine → Machine × List Action) : Prop :=
  ∀ m token visits,
    Agrees Action.Alike token (visits = m.visits) (react m) (react (m.disguise token visits))

/-! ## Ways to react -/

/-- A reaction does not depend on the token if it does not look at the ways in which the sources are
gone through either. -/
theorem Blind.of_eq {react : Machine → Machine × List Action}
    (h : ∀ m token visits,
      react (m.disguise token visits) = ((react m).1.disguise token visits, (react m).2)) :
    Blind react := by
  intro m token visits
  have hkept : (react m).1.visits = m.visits :=
    congrArg (·.1.visits) (h m m.descriptor.joinToken m.visits)
  rw [h m token visits]
  exact ⟨rfl, fun hsame => hsame.trans hkept.symm, .refl .same _⟩

theorem blind_idle (actions : List Action) : Blind fun m => (m, actions) :=
  .of_eq fun _ _ _ => rfl

theorem move?_disguise (m : Machine) (token : String) (visits : VideoSources.Visits)
    (move : Move) :
    (m.disguise token visits).move? move = (m.move? move).map (·.disguise token visits) := by
  unfold move?
  rw [Option.map_map]
  rfl

theorem Blind.moving {actions : Machine → Machine × List Action} (h : Blind actions)
    (move : Move) : Blind (·.moving move actions) := by
  intro m token visits
  show Agrees _ token _ (m.moving move actions) ((m.disguise token visits).moving move actions)
  have hstate : (m.disguise token visits).state = m.state := rfl
  cases hafter : m.state.after? move with
  | none =>
    rw [moving_of_none hafter, moving_of_none (hstate ▸ hafter)]
    exact blind_idle [] m token visits
  | some state =>
    rw [moving_of_some hafter, moving_of_some (hstate ▸ hafter)]
    exact h { m with state } token visits

/-- A choice that is made without the token. -/
theorem Blind.ite {condition : Machine → Prop} [DecidablePred condition]
    {left right : Machine → Machine × List Action}
    (hcondition : ∀ m token visits, condition (m.disguise token visits) ↔ condition m)
    (hleft : Blind left) (hright : Blind right) :
    Blind fun m => if condition m then left m else right m := by
  intro m token visits
  by_cases hm : condition m
  · have hm' := (hcondition m token visits).mpr hm
    simp only [if_pos hm, if_pos hm']
    exact hleft m token visits
  · have hm' := hm ∘ (hcondition m token visits).mp
    simp only [if_neg hm, if_neg hm']
    exact hright m token visits

theorem Blind.withBody {α : Type} {handle : α → Machine → Machine × List Action}
    (h : ∀ a, Blind (handle a)) (body : Option α) :
    Blind fun m => m.withBody body fun a => handle a m := by
  cases body with
  | none => exact blind_idle []
  | some a => exact h a

/-! ## Moves of the session -/

theorem blind_fail (reason : FailureReason) : Blind (·.fail reason) :=
  (blind_idle _).moving .fail

theorem blind_remoteLeave : Blind remoteLeave := (blind_idle _).moving .remoteLeave

theorem blind_start : Blind start := (blind_idle _).moving .start

theorem blind_join : Blind join := .of_eq fun _ _ _ => rfl

theorem blind_submitJoin : Blind submitJoin := blind_join.moving .joinSent

theorem blind_transportUp : Blind transportUp :=
  .ite (fun _ _ _ => Iff.rfl) (blind_join.moving .transportUp)
    (blind_submitJoin.moving .transportUp)

theorem blind_transportLost : Blind transportLost := by
  refine .ite (fun _ _ _ => Iff.rfl) (Blind.moving ?_ .transportLost) (blind_idle [])
  exact .of_eq fun _ _ _ => rfl

theorem blind_transportClosed (code : Option UInt16) : Blind (·.transportClosed code) := by
  unfold transportClosed
  cases code.bind Refusal.ofCloseCode? with
  | none => exact blind_transportLost
  | some refusal => exact .ite (fun _ _ _ => Iff.rfl) blind_transportLost (blind_fail _)

theorem blind_ping : Blind ping := by
  refine .ite (fun _ _ _ => Iff.rfl) (blind_idle [])
    (.ite (fun _ _ _ => Iff.rfl) blind_transportLost ?_)
  exact .of_eq fun _ _ _ => rfl

theorem blind_requestLeave : Blind requestLeave := by
  -- what is said on leaving depends on the state before the move
  intro m token visits
  exact (blind_idle _).moving .leave m token visits

theorem blind_setMute (muted : Bool) : Blind (·.setMute muted) := by
  refine .ite (fun _ _ _ => Iff.rfl) (blind_idle []) ?_
  exact .of_eq fun _ _ _ => rfl

theorem blind_sendDataMessage (message : OutgoingMessage) : Blind (·.sendDataMessage message) := by
  refine .ite (fun _ _ _ => Iff.rfl) (blind_idle []) ?_
  cases message.validate with
  | ok lifetimeMs => exact blind_idle _
  | error reason => exact blind_idle _

/-- Of its descriptor a subscription names the audio host alone. -/
theorem subscribeFrame_disguise (m : Machine) (token : String) (visits : VideoSources.Visits) :
    (m.disguise token visits).subscribeFrame = m.subscribeFrame := rfl

theorem blind_resubscribe : Blind resubscribe := by
  refine .ite (fun _ _ _ => Iff.rfl) (.of_eq fun m token visits => ?_) (blind_idle [])
  simp only [subscribeFrame_disguise]

/-! ## Messages of the service -/

theorem blind_onJoinAck (ack : Option JoinAckFrame) (now : Instant) :
    Blind (·.onJoinAck ack now) := by
  have admitted : Blind fun m =>
      (m, [.emit (.joined m.codec m.turn), .send m.subscribeFrame]) := by
    refine .of_eq fun m token visits => ?_
    simp only [subscribeFrame_disguise]
    rfl
  have granted (turn : Option TurnAccess) : Blind fun m =>
      { m with turn }.moving .joinAccepted fun m =>
        (m, [.emit (.joined m.codec m.turn), .send m.subscribeFrame]) := by
    intro m token visits
    exact admitted.moving .joinAccepted { m with turn } token visits
  exact .ite (fun _ _ _ => Iff.rfl) (granted _) (blind_idle [])

theorem blind_onLeaveAck : Blind onLeaveAck := by
  refine .of_eq fun m token visits => ?_
  simp only [onLeaveAck, move?_disguise]
  cases m.move? .remoteLeave <;> rfl

/-- Lists of the same sources withdrawn make the same news. -/
theorem agree_sourceNews {common : Prop} (added : List VideoSource)
    {removed removed' : List VideoSource} (perm : removed.Perm removed')
    (hsame : common → removed' = removed) :
    Agree Action.Alike common (sourceNews added removed) (sourceNews added removed') := by
  unfold sourceNews
  refine .append (.refl .same _) ?_
  cases removed with
  | nil =>
    rw [perm.nil_eq]
    exact .refl .same _
  | cons source rest =>
    have hsome : removed' ≠ [] := fun hnil => by
      rw [hnil] at perm
      cases perm.eq_nil
    simp only [List.isEmpty_cons, List.isEmpty_iff, hsome, Bool.false_eq_true, if_false]
    exact .single (.emit (.withdrawn perm)) fun hcommon => by rw [hsame hcommon]

/-- Only when an index withdraws sources does it show how they are gone through. -/
theorem agree_indexNews (m : Machine) (token : String) (visits : VideoSources.Visits)
    (index : IndexFrame) (now : Instant) :
    Agree Action.Alike (visits = m.visits) (m.indexNews index now)
      ((m.disguise token visits).indexNews index now) := by
  have hperm : (m.sources.gone index.sources (m.visits 0)).Perm
      (m.sources.gone index.sources (visits 0)) :=
    (VideoSources.gone_perm ..).trans (VideoSources.gone_perm ..).symm
  have hindexed : (m.disguise token visits).indexed = m.indexed := rfl
  cases indexed : m.indexed with
  | true =>
    simp only [indexNews, hindexed, indexed, if_true]
    exact agree_sourceNews _ hperm fun hsame => by rw [hsame]; rfl
  | false =>
    simp only [indexNews, hindexed, indexed, Bool.false_eq_true, if_false]
    exact .refl .same _

theorem blind_onIndex (index : IndexFrame) (now : Instant) : Blind (·.onIndex index now) := by
  intro m token visits
  show Agrees _ token _ (m.onIndex index now) ((m.disguise token visits).onIndex index now)
  by_cases admits : m.Admits index
  · have admits' : (m.disguise token visits).Admits index := admits
    rw [onIndex_of_admits admits, onIndex_of_admits admits']
    exact ⟨rfl, congrArg VideoSources.Visits.rest, agree_indexNews m token visits index now⟩
  · have admits' : ¬ (m.disguise token visits).Admits index := admits
    rw [onIndex_of_not_admits admits, onIndex_of_not_admits admits']
    exact blind_idle [] m token visits

theorem blind_onSubscribeAck (ack : SubscribeAckFrame) : Blind (·.onSubscribeAck ack) := by
  refine .ite (fun _ _ _ => Iff.rfl) (blind_idle []) ?_
  cases ack.sdpAnswer with
  | none => exact blind_idle []
  | some answer => exact .of_eq fun _ _ _ => rfl

theorem blind_onAudioStatus (status : UInt32) : Blind (·.onAudioStatus status) := by
  have ended : Blind fun m =>
      if Refusal.ofAudioStatus status = .meetingEnded then m.remoteLeave
      else (m, [.emit (.audioStatus status)]) :=
    .ite (fun _ _ _ => Iff.rfl) blind_remoteLeave (blind_idle _)
  refine .ite (fun _ _ _ => Iff.rfl) (blind_idle _) ?_
  intro m token visits
  have hstate : (m.disguise token visits).state = m.state := rfl
  simp only [hstate]
  cases m.state with
  | connected | authenticating => exact blind_fail _ m token visits
  | joined => exact ended m token visits
  | _ => exact blind_idle _ m token visits

theorem blind_onPingPong (f : PingPongFrame) : Blind (·.onPingPong f) := by
  refine .of_eq fun m token visits => ?_
  unfold onPingPong
  cases PingPongKind.ofNumber? f.kind with
  | none => rfl
  | some kind => cases kind <;> rfl

theorem blind_onPresence (take : Presence → Presence × List Event) : Blind (·.onPresence take) :=
  .ite (fun _ _ _ => Iff.rfl) (.of_eq fun _ _ _ => rfl) (blind_idle [])

theorem blind_onFrame (kind : FrameKind) (f : SignalFrame) (now : Instant) :
    Blind (·.onFrame kind f now) := by
  cases kind with
  | joinAck => exact blind_onJoinAck _ now
  | leaveAck => exact blind_onLeaveAck
  | index => exact .withBody (fun index => blind_onIndex index now) _
  | subscribeAck => exact .withBody blind_onSubscribeAck _
  | audioMetadata => exact .withBody (fun _ => blind_onPresence _) _
  | audioStreamIdInfo => exact .withBody (fun _ => blind_onPresence _) _
  | audioStatus => exact .withBody blind_onAudioStatus _
  | dataMessage => exact .withBody (fun _ => blind_idle _) _
  | pingPong => exact .withBody blind_onPingPong _
  | _ => exact blind_idle []

theorem blind_onSignal (f : SignalFrame) (now : Instant) : Blind (·.onSignal f now) := by
  unfold onSignal
  cases FrameKind.ofNumber? f.kind with
  | none => exact blind_idle []
  | some kind => exact .ite (fun _ _ _ => Iff.rfl) (blind_idle []) (blind_onFrame kind f now)

theorem blind_onMessage (message : Octets) (now : Instant) : Blind (·.onMessage message now) := by
  unfold onMessage
  cases Envelope.decode message with
  | error e =>
    exact .ite (fun _ _ _ => Iff.rfl) (blind_fail (.protocol e)) (blind_idle [])
  | ok content =>
    cases content with
    | signal frame => exact blind_onSignal frame now
    | media packet => exact .ite (fun _ _ _ => Iff.rfl) (blind_idle _) (blind_idle [])

/-! ## Runs -/

theorem blind_step (input : Input) : Blind (·.step input) := by
  cases input with
  | start => exact blind_start
  | transportUp => exact blind_transportUp
  | submitJoin => exact blind_submitJoin
  | message bytes now => exact blind_onMessage bytes now
  | ping => exact blind_ping
  | leave => exact blind_requestLeave
  | transportLost => exact blind_transportLost
  | transportClosed code => exact blind_transportClosed code
  | reconnectExhausted attempts => exact blind_fail _
  | setMute muted => exact blind_setMute muted
  | sendDataMessage message => exact blind_sendDataMessage message
  | resubscribe => exact blind_resubscribe

/-- Under another token a run asks for the same actions and ends with the same machine, but for that
token and for the ways in which the sources are gone through. -/
theorem agrees_run (m : Machine) (token : String) (visits : VideoSources.Visits)
    (inputs : List Input) :
    Agrees (List.Forall₂ Action.Alike) token (visits = m.visits) (m.run inputs)
      ((m.disguise token visits).run inputs) := by
  induction inputs generalizing m visits with
  | nil => exact ⟨rfl, id, .nil⟩
  | cons input rest ih =>
    have hstep := blind_step input m token visits
    have hrest := ih (m.step input).1 ((m.disguise token visits).step input).1.visits
    rw [← hstep.next] at hrest
    exact ⟨hrest.next, fun hsame => hrest.visits (hstep.visits hsame),
      (hrest.actions.mono hstep.visits).cons hstep.actions.alike hstep.actions.same⟩

end Machine

end Parley
