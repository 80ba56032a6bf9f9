import Mutgos.CommInterface.ChannelData

/-!
# The kind of data in queues

A channel takes text or takes messages.  Which of them the client has sent is looked at when
the data is handed over at once; when it has to wait it is not looked at, neither then nor when
it is handed over at last.

## Main results

* `SessionWorld.ofKind_iff` — **exactly if nothing else is sent to a channel while it is
  blocked.**
-/

namespace Mutgos.CommInterface

open Channels ClientSession

namespace SessionWorld

/-- What waits in the queue of a channel is data of the kind that the channel takes. -/
def OfKind (w : SessionWorld) : Prop :=
  ∀ info ∈ w.session.activeChannels, ∀ event ∈ w.session.blockedQueue info.id,
    ∃ data, event.data = .data data ∧ (w.channels info.channel).type = data.channelType

theorem Served.ofKind {order : Prop} {w : SessionWorld} (h : Served order True w) : w.OfKind := by
  intro info hinfo event hevent
  obtain ⟨data, hdata⟩ := h.queued.data info.id event hevent
  exact ⟨data, hdata, h.queued.types trivial info hinfo event hevent data hdata⟩

/-- What is put in a queue must be of the kind of the rest. -/
theorem OfKind.sendsKind {w : SessionWorld} {id : ChannelId} {serId : MessageSerialId}
    {data : ClientData} {reaction : List ChannelCall}
    (h : (w.clientData id serId data reaction).OfKind) : w.SendsKind id data := by
  intro info hinfo hout hblocked
  obtain ⟨hmem, rfl⟩ := getChannelInfo_some hinfo
  have hqueued : w.clientData info.id serId data reaction =
      { SessionWorld.receive { w with session := w.session.acknowledgeSoon serId } info.id data with
        session := (w.session.acknowledgeSoon serId).queueData info.id serId data } := by
    rw [SessionWorld.clientData, hinfo]
    dsimp only
    rw [if_neg (by rw [hout]; exact Bool.false_ne_true), if_pos hblocked]
  have hactive : (w.session.acknowledgeSoon serId).activeChannels = w.session.activeChannels := by
    rw [acknowledgeSoon, requestServiceUnlessBlocked]
    split <;> rfl
  rw [hqueued] at h
  obtain ⟨data', hdata, htype⟩ := h info
    (by
      dsimp only
      rw [activeChannels_queueData, hactive]
      exact hmem)
    ⟨serId, 0, .data data⟩
    (by
      dsimp only
      rw [blockedQueue_queueData, Function.update_self]
      exact List.mem_append_right _ (.head []))
  rw [RouterEventData.data.injEq] at hdata
  rw [hdata]
  exact htype

/-- **What waits is of the right kind exactly in the runs in which nothing else is sent to a
channel while it is blocked.** -/
theorem ofKind_iff {w₀ w : SessionWorld} {calls : List SessionCall} (hstarts : w₀.Starts)
    (hrun : run SessionWorld.step w₀ calls = some w) :
    (∀ before call after w₁ w₂, calls = before ++ call :: after →
        run SessionWorld.step w₀ before = some w₁ → w₁.step call = some w₂ →
          w₂.OfKind ∧ w₂.miscast = false) ↔
      Steps SessionWorld.step SendsKinds w₀ calls w := by
  refine steps_iff_forall_step (I := Served False True)
    (P := fun _ _ w' => w'.OfKind ∧ w'.miscast = false) ?_ ?_ hstarts.served hrun
  · intro w call w' hw hkinds hstep
    have hw' := hw.step False.elim (fun _ => hkinds) hstep
    exact ⟨hw', hw'.ofKind, hw'.queued.miscast trivial⟩
  · intro w call w' _ hstep hkinds
    cases call with
    | clientData id serId data reaction =>
      rw [SessionWorld.step.eq_def, Option.ite_none_left_eq_some, Option.some.injEq] at hstep
      obtain ⟨-, rfl⟩ := hstep
      exact hkinds.1.sendsKind
    | _ => exact trivial

instance (w : SessionWorld) (id : ChannelId) (data : ClientData) :
    Decidable (w.SendsKind id data) :=
  decidable_of_iff (∀ info ∈ w.session.getChannelInfo id, info.out = false → info.blocked = true →
    (w.channels info.channel).type = data.channelType) Iff.rfl

instance (w : SessionWorld) : ∀ call, Decidable (SendsKinds w call)
  | .clientData id _ data _ => inferInstanceAs (Decidable (w.SendsKind id data))
  | .setClientConnection _ | .clientDisconnected | .requestDisconnection
  | .processPending _ _ | .clientDataAcknowledge _ | .clientDataAcknowledgeReconnect _
  | .clientUnblocked | .clientRequestChannelClose _ | .channelAdded _ _ | .channelData _ _
  | .channelFlow _ _ | .callChannel _ _ =>
    .isTrue trivial

/-- A message that comes for an open text channel is refused, and text that comes for a blocked
one waits. -/
theorem ofKind_text : ∃ (calls : List SessionCall) (w : SessionWorld), calls.length = 6 ∧
    w.session.needDisconnect = true ∧
    ∀ before call after w₁ w₂, calls = before ++ call :: after →
      run SessionWorld.step (.start 4 .text) before = some w₁ → w₁.step call = some w₂ →
        w₂.OfKind ∧ w₂.miscast = false := by
  obtain ⟨w, hw, heq⟩ := Option.map_eq_some_iff.mp
    (show (run (guarded SessionWorld.step SendsKinds) (.start 4 .text) [.channelAdded 7 false,
      .clientData 1 1 (.text []) [], .clientData 2 2 (.message []) [], .callChannel 7 (.unblock 0),
      .processPending [] [], .clientData 1 3 (.message []) []]).map
        (fun w => w.session.needDisconnect) = some true by decide +kernel)
  have hsteps := steps_of_run_guarded hw
  exact ⟨_, w, rfl, heq, (ofKind_iff (starts_start 4 .text) hsteps.run_eq).mpr hsteps⟩

/-- A message waits for a text channel, and is sent over it as text. -/
theorem ofKind_message :
    (∃ w, run SessionWorld.step (.start 4 .text) [.channelAdded 7 false,
        .clientData 1 1 (.message []) []] = some w ∧ ¬w.OfKind) ∧
      ∃ w, run SessionWorld.step (.start 4 .text) [.channelAdded 7 false,
        .clientData 1 1 (.message []) [], .callChannel 7 (.unblock 0), .processPending [] []] =
          some w ∧ w.miscast = true := by
  constructor
  · obtain ⟨w, hw, heq⟩ := Option.map_eq_some_iff.mp
      (show (run SessionWorld.step (.start 4 .text) [.channelAdded 7 false,
        .clientData 1 1 (.message []) []]).map (fun w => (w.session.activeChannels,
          w.session.blockedQueue 1, (w.channels 7).type)) =
            some ([⟨1, 7, false, false, true⟩], [⟨1, 0, .data (.message [])⟩], .text) by
              decide +kernel)
    simp only [Prod.mk.injEq] at heq
    obtain ⟨hactive, hqueue, htype⟩ := heq
    refine ⟨w, hw, fun hkind => ?_⟩
    obtain ⟨data, hdata, hsame⟩ := hkind ⟨1, 7, false, false, true⟩
      (hactive ▸ List.mem_singleton_self _) ⟨1, 0, .data (.message [])⟩
      (hqueue ▸ List.mem_singleton_self _)
    rw [RouterEventData.data.injEq] at hdata
    rw [htype, ← hdata] at hsame
    cases hsame
  · exact Option.map_eq_some_iff.mp
      (show (run SessionWorld.step (.start 4 .text) [.channelAdded 7 false,
        .clientData 1 1 (.message []) [], .callChannel 7 (.unblock 0), .processPending [] []]).map
          (fun w => w.miscast) = some true by decide +kernel)

end SessionWorld

end Mutgos.CommInterface
