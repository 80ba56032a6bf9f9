import Mutgos.Websocket.WSClientConnection

/-!
# The messages that go out over a websocket connection

What has been accepted is what has been written and what is in the array, in this order, and the
disconnect message comes last.  A connection still accepts messages after `client_disconnect`,
until `do_work`; and when the socket does not take what it is given, that is lost.

## Main results

* `WebsocketOutput.ordered_iff` — **the output is as it should be, all through a run, exactly if
  each step is allowed.**
-/

namespace Mutgos.Websocket

open CommInterface Text List

namespace WebsocketOutput

/-- What there is to write, from the beginning. -/
def toWrite (w : WebsocketOutput) : List OutgoingMessage :=
  w.accepted.map .accepted ++
    if w.connection.clientDisconnectState = .sent then [.disconnect] else []

/-- **What has been accepted is written, in order.** -/
structure Sound (w : WebsocketOutput) : Prop where
  /-- What has been written and what is in the array is what has been accepted. -/
  whole : w.connection.clientConnected = true →
    w.writes.flatten ++ w.connection.outgoingJsonNode = w.toWrite
  /-- Nothing else is written, and nothing after the disconnect message. -/
  ordered : w.writes.flatten <+: w.accepted.map .accepted ++ [.disconnect]
  /-- Where the connection is not blocked, nothing is being written. -/
  unblocked : w.connection.clientConnected = true → w.connection.clientBlocked = false →
    w.raw.writing = none
  /-- Where it is, or something is in the array, it goes on. -/
  moves : w.connection.clientConnected = true →
    w.connection.clientBlocked = true ∨ w.connection.outgoingJsonNode ≠ [] →
    w.raw.writing.isSome = true ∨ w.connection.requestedService = true

/-- What is right about a step: after `client_disconnect`, nothing is accepted. -/
def SoundStep (w w' : WebsocketOutput) : Prop :=
  w'.Sound ∧ (w.connection.clientConnected = true → w.disconnecting = true →
    w'.accepted = w.accepted)

/-- No message that can be saved is sent after `client_disconnect`, unless the connection is
blocked; and there is no exception when something is to be sent. -/
def Allowed (w : WebsocketOutput) : Action → Prop
  | .sendMessageRaw saved =>
    saved.isSome = true → w.connection.clientConnected = true →
      w.connection.clientBlocked = false → w.disconnecting = false
  | .doWork throws =>
    throws = true → w.connection.clientConnected = true → w.connection.clientError = false →
      w.raw.socketBlocked = false → w.connection.clientDisconnectState ≠ .sent →
      w.connection.outgoingJsonNode = [] ∧ w.connection.clientDisconnectState ≠ .requested
  | _ => True

/-! ### The invariant -/

/-- Where something is being written, the connection is blocked. -/
structure Invariant (w : WebsocketOutput) : Prop where
  accepts : w.connection.clientConnected = true →
    w.raw.socketAccepted = true ∧ w.raw.socketConnected = true ∧ w.raw.client = true
  rawBlocked : w.connection.clientConnected = true →
    w.raw.socketBlocked = w.raw.writing.isSome
  writes : w.connection.clientConnected = true → w.raw.writing.isSome = true →
    w.connection.clientBlocked = true
  empty : w.connection.clientConnected = true → w.raw.writing.isSome = true →
    w.connection.outgoingJsonNode = []
  moves : w.connection.clientConnected = true →
    w.connection.clientBlocked = true ∨ w.connection.outgoingJsonNode ≠ [] →
    w.raw.writing.isSome = true ∨ w.connection.requestedService = true
  blocked : w.connection.clientConnected = true → w.connection.clientBlocked = true →
    w.raw.writing.isSome = true ∨ w.connection.outgoingJsonNode ≠ [] ∨
      w.connection.clientDisconnectState ≠ .notRequested
  disconnects : w.connection.clientConnected = true →
    w.connection.clientDisconnectState ≠ .notRequested →
    w.raw.writing.isSome = true ∨ w.connection.requestedService = true
  sent : w.connection.clientConnected = true → w.connection.clientDisconnectState = .sent →
    w.connection.clientBlocked = true
  disconnecting : w.connection.clientConnected = true →
    (w.disconnecting = true ↔ w.connection.clientDisconnectState ≠ .notRequested)
  whole : w.connection.clientConnected = true →
    w.writes.flatten ++ w.connection.outgoingJsonNode = w.toWrite
  ordered : w.writes.flatten <+: w.accepted.map .accepted ++ [.disconnect]

variable {w w' : WebsocketOutput}

theorem Invariant.sound (h : w.Invariant) : w.Sound where
  whole := h.whole
  ordered := h.ordered
  unblocked hconnected hblocked := by
    by_contra hwriting
    have hsome := h.writes hconnected (Option.isSome_iff_ne_none.mpr hwriting)
    exact absurd (hblocked.symm.trans hsome) nofun
  moves := h.moves

/-- Where the connection has ended, only what has been written matters. -/
theorem Invariant.of_disconnected (hconnected : w.connection.clientConnected = false)
    (hordered : w.writes.flatten <+: w.accepted.map .accepted ++ [.disconnect]) :
    w.Invariant where
  accepts h := absurd (h.symm.trans hconnected) nofun
  rawBlocked h := absurd (h.symm.trans hconnected) nofun
  writes h := absurd (h.symm.trans hconnected) nofun
  empty h := absurd (h.symm.trans hconnected) nofun
  moves h := absurd (h.symm.trans hconnected) nofun
  blocked h := absurd (h.symm.trans hconnected) nofun
  disconnects h := absurd (h.symm.trans hconnected) nofun
  sent h := absurd (h.symm.trans hconnected) nofun
  disconnecting h := absurd (h.symm.trans hconnected) nofun
  whole h := absurd (h.symm.trans hconnected) nofun
  ordered := hordered

/-- What has been written is in order. -/
theorem ordered_of_whole {written rest : List OutgoingMessage} (h : written ++ rest = w.toWrite) :
    written <+: w.accepted.map .accepted ++ [.disconnect] := by
  have hstart : written <+: w.toWrite := ⟨rest, h⟩
  refine hstart.trans ?_
  unfold toWrite
  split
  · exact prefix_rfl
  · rw [append_nil]
    exact prefix_append _ _

/-! ### Disconnecting -/

theorem rawDisconnect_cases (w : WebsocketOutput)
    (haccepts : w.connection.clientConnected = true →
      w.raw.socketConnected = true ∧ w.raw.client = true) :
    w.rawDisconnect.connection.clientConnected = false ∧ w.rawDisconnect.writes = w.writes ∧
      w.rawDisconnect.accepted = w.accepted := by
  unfold rawDisconnect rawDisconnected
  cases hconnected : w.connection.clientConnected with
  | true =>
    obtain ⟨hraw, hclient⟩ := haccepts hconnected
    simp [hraw, hclient]
  | false => split_ifs <;> simp_all

theorem Invariant.rawDisconnect (h : w.Invariant) : w.rawDisconnect.Invariant ∧
    w.rawDisconnect.accepted = w.accepted := by
  obtain ⟨hconnected, hwrites, haccepted⟩ :=
    rawDisconnect_cases w fun hconnected => (h.accepts hconnected).2
  refine ⟨.of_disconnected hconnected ?_, haccepted⟩
  rw [hwrites, haccepted]
  exact h.ordered

theorem invariant_disconnectSocket (hconnected : w.connection.clientConnected = true)
    (hordered : w.writes.flatten <+: w.accepted.map .accepted ++ [.disconnect]) :
    w.disconnectSocket.Invariant ∧ w.disconnectSocket.accepted = w.accepted := by
  obtain ⟨hended, hwrites, haccepted⟩ :=
    rawDisconnect_cases (w.update fun c => { c with clientConnected := false }) nofun
  rw [WebsocketOutput.disconnectSocket, if_pos hconnected]
  refine ⟨.of_disconnected hended ?_, haccepted⟩
  dsimp only [update] at hwrites haccepted ⊢
  rw [hwrites, haccepted]
  exact hordered

/-! ### The steps -/

/-- What is in the array is written. -/
theorem invariant_send
    (haccepts : w.raw.socketAccepted = true ∧ w.raw.socketConnected = true ∧ w.raw.client = true)
    (hblocked : w.raw.socketBlocked = false)
    (hdisconnecting : w.disconnecting = true ↔
      w.connection.clientDisconnectState ≠ .notRequested)
    (hwhole : w.writes.flatten ++ w.connection.outgoingJsonNode = w.toWrite) :
    let w' := (w.rawSend w.connection.outgoingJsonNode false).update fun c =>
      { c with clientBlocked := true, outgoingJsonNode := [] }
    w'.Invariant ∧ w'.accepted = w.accepted := by
  have hsend : w.rawSend w.connection.outgoingJsonNode false =
      { w with
        raw :=
          { w.raw with socketBlocked := true, writing := some w.connection.outgoingJsonNode }
        writes := w.writes ++ [w.connection.outgoingJsonNode] } := by
    simp [rawSend, haccepts, hblocked]
  rw [hsend]
  have hwritten : (w.writes ++ [w.connection.outgoingJsonNode]).flatten ++ [] = w.toWrite := by
    rw [append_nil, flatten_append, flatten_singleton, hwhole]
  exact ⟨⟨fun _ => haccepts, fun _ => rfl, fun _ _ => rfl, fun _ _ => rfl,
    fun _ _ => .inl rfl, fun _ _ => .inl rfl, fun _ _ => .inl rfl, fun _ _ => rfl,
    fun _ => hdisconnecting,
    fun _ => hwritten, ordered_of_whole (w := w) hwritten⟩, rfl⟩

theorem Invariant.doWork (h : w.Invariant) {throws : Bool} (hallowed : w.Allowed (.doWork throws)) :
    (w.doWork throws).Invariant ∧ (w.doWork throws).accepted = w.accepted := by
  unfold WebsocketOutput.doWork
  cases hconnected : w.connection.clientConnected with
  | false =>
    simp only [update, hconnected, Bool.not_false, if_true]
    exact ⟨.of_disconnected rfl h.ordered, trivial⟩
  | true =>
    simp only [update, hconnected, Bool.not_true, Bool.false_eq_true, if_false]
    split
    · exact invariant_disconnectSocket rfl h.ordered
    next herror =>
    split
    · exact invariant_disconnectSocket rfl h.ordered
    next hsent =>
    split
    · next hblocked =>
      have hblocked : w.raw.socketBlocked = false := by simpa using hblocked
      have hwriting : w.raw.writing.isSome = false := (h.rawBlocked hconnected).symm.trans hblocked
      have hwhole := h.whole hconnected
      cases hstate : w.connection.clientDisconnectState with
      | sent => exact absurd ⟨hstate, hblocked⟩ hsent
      | requested =>
        have hthrows : throws = false := by
          by_contra hthrows
          exact (hallowed (by simpa using hthrows) hconnected (by simpa using herror) hblocked
            (by simp [hstate])).2 hstate
        have hwhole' : w.writes.flatten ++ (w.connection.outgoingJsonNode ++ [.disconnect]) =
            w.accepted.map .accepted ++ [.disconnect] := by
          rw [← append_assoc, hwhole]
          simp [toWrite, hstate]
        simp only [queueDisconnect, queueMessageToSend, hthrows, append_eq_nil_iff,
          cons_ne_self, and_false, if_true, if_false]
        exact invariant_send (h.accepts hconnected) hblocked
          ((h.disconnecting hconnected).trans (by simp [hstate])) hwhole'
      | notRequested =>
        simp only [queueDisconnect, reduceCtorEq, if_false]
        split
        · next hempty =>
          have hnot : ¬(w.connection.clientBlocked = true ∨
              w.connection.outgoingJsonNode ≠ []) := by
            rintro (htrue | hne)
            · rcases h.blocked hconnected htrue with hsome | hne | hne
              · exact absurd (hwriting.symm.trans hsome) nofun
              · exact hne hempty
              · exact hne hstate
            · exact hne hempty
          exact ⟨⟨fun _ => h.accepts hconnected, fun _ => h.rawBlocked hconnected,
            fun _ => h.writes hconnected, fun _ => h.empty hconnected,
            fun _ hpending => absurd hpending hnot,
            fun _ htrue => absurd (.inl htrue) hnot, fun _ hne => absurd rfl hne, fun _ => nofun,
            fun _ => (h.disconnecting hconnected).trans (by simp [hstate]),
            fun _ => hwhole.trans (by simp [toWrite, hstate]), h.ordered⟩, rfl⟩
        · next houtgoing =>
          have hthrows : throws = false := by
            by_contra hthrows
            exact houtgoing (hallowed (by simpa using hthrows) hconnected (by simpa using herror)
              hblocked (by simp [hstate])).1
          rw [hthrows]
          exact invariant_send (h.accepts hconnected) hblocked
            ((h.disconnecting hconnected).trans (by simp [hstate]))
            (hwhole.trans (by simp [toWrite, hstate]))
    · next hblocked =>
      have hwriting : w.raw.writing.isSome = true := by
        rw [← h.rawBlocked hconnected]
        simpa using hblocked
      exact ⟨⟨fun _ => h.accepts hconnected, fun _ => h.rawBlocked hconnected,
        fun _ => h.writes hconnected, fun _ => h.empty hconnected, fun _ _ => .inl hwriting,
        fun _ _ => .inl hwriting,
        fun _ _ => .inl hwriting, fun _ => h.sent hconnected, fun _ => h.disconnecting hconnected,
        fun _ => h.whole hconnected, h.ordered⟩, rfl⟩

/-- What has been written makes room for more, or for the disconnect message. -/
theorem Invariant.onWriteComplete (h : w.Invariant) (failed : Bool)
    (hwriting : w.raw.writing ≠ none) :
    (w.onWriteComplete failed).Invariant ∧ (w.onWriteComplete failed).accepted = w.accepted := by
  unfold WebsocketOutput.onWriteComplete
  dsimp only
  split
  · obtain ⟨hconnected, hwrites, haccepted⟩ := rawDisconnect_cases
      { w with raw := { w.raw with writing := none } } fun hconnected => (h.accepts hconnected).2
    refine ⟨.of_disconnected hconnected ?_, haccepted⟩
    dsimp only at hwrites haccepted
    rw [hwrites, haccepted]
    exact h.ordered
  · refine ⟨?_, rfl⟩
    cases hconnected : w.connection.clientConnected with
    | false =>
      refine .of_disconnected ?_ h.ordered
      simp only [rawSendComplete, hconnected]
      split <;> simp [hconnected]
    | true =>
      obtain ⟨haccepted, hraw, hclient⟩ := h.accepts hconnected
      have hblocked := h.writes hconnected (Option.isSome_iff_ne_none.mpr hwriting)
      have hwhole := h.whole hconnected
      simp only [hclient, if_true, rawSendComplete, hconnected, Bool.not_true, Bool.false_eq_true,
        if_false]
      split
      · next hstate =>
        exact ⟨fun _ => ⟨haccepted, hraw, rfl⟩, fun _ => rfl, fun _ => nofun, fun _ => nofun,
          fun _ _ => .inr rfl, fun _ _ => .inr (.inr hstate), fun _ _ => .inr rfl,
          fun _ => h.sent hconnected, fun _ => h.disconnecting hconnected, fun _ => hwhole,
          h.ordered⟩
      · next hstate =>
        have hempty := h.empty hconnected (Option.isSome_iff_ne_none.mpr hwriting)
        refine ⟨fun _ => ⟨haccepted, hraw, rfl⟩, fun _ => rfl, fun _ => nofun, fun _ => nofun,
          fun _ hpending => absurd hempty (hpending.resolve_left nofun), fun _ => nofun,
          fun _ hne => absurd hne hstate, fun _ hsent => ?_,
          fun _ => h.disconnecting hconnected, fun _ => hwhole, h.ordered⟩
        rw [not_ne_iff] at hstate
        exact absurd (hstate.symm.trans hsent) nofun

theorem Invariant.clientError (h : w.Invariant) :
    Invariant (w.update fun c => { c with clientError := true, requestedService := true }) :=
  ⟨h.accepts, h.rawBlocked, h.writes, h.empty, fun _ _ => .inr rfl, h.blocked,
    fun _ _ => .inr rfl, h.sent, h.disconnecting, h.whole, h.ordered⟩

theorem Invariant.clientDisconnect (h : w.Invariant) :
    Invariant { w.update WebsocketOutput.clientDisconnect with disconnecting := true } := by
  cases hstate : w.connection.clientDisconnectState with
  | notRequested =>
    have hupdate : WebsocketOutput.clientDisconnect w.connection =
        { w.connection with clientDisconnectState := .requested, requestedService := true } :=
      if_pos hstate
    rw [update, hupdate]
    exact ⟨h.accepts, h.rawBlocked, h.writes, h.empty, fun _ _ => .inr rfl,
      fun _ _ => .inr (.inr nofun), fun _ _ => .inr rfl, fun _ => nofun,
      fun _ => ⟨fun _ => nofun, fun _ => rfl⟩,
      fun hconnected => (h.whole hconnected).trans (by simp [toWrite, hstate]), h.ordered⟩
  | _ =>
    have hupdate : WebsocketOutput.clientDisconnect w.connection = w.connection :=
      if_neg (by simp [hstate])
    rw [update, hupdate]
    exact ⟨h.accepts, h.rawBlocked, h.writes, h.empty, h.moves, h.blocked, h.disconnects, h.sent,
      fun _ => ⟨fun _ => by simp [hstate], fun _ => rfl⟩, h.whole, h.ordered⟩

/-- A message is accepted, or not. -/
theorem sendMessageRaw_cases (c : WSClientConnection) (saved : Option ByteString) :
    (¬((WebsocketOutput.sendMessageRaw c saved).1 = .sendOk ∨
        (WebsocketOutput.sendMessageRaw c saved).1 = .sendOkBlocked) ∧
      (saved.isSome = true → c.clientConnected = true → c.clientBlocked = true) ∧
      ((WebsocketOutput.sendMessageRaw c saved).2 = c ∨
        (WebsocketOutput.sendMessageRaw c saved).2 =
          { c with clientError := true, requestedService := true })) ∨
    ∃ json blocked, saved = some json ∧ c.clientConnected = true ∧ c.clientBlocked = false ∧
      ((WebsocketOutput.sendMessageRaw c saved).1 = .sendOk ∨
        (WebsocketOutput.sendMessageRaw c saved).1 = .sendOkBlocked) ∧
      (WebsocketOutput.sendMessageRaw c saved).2 =
        { c with
          outgoingJsonNode := c.outgoingJsonNode ++ [.accepted json]
          requestedService := true
          clientBlocked := blocked } := by
  unfold WebsocketOutput.sendMessageRaw
  split_ifs with hconnected hblocked
  · exact .inl ⟨by simp, fun _ htrue => by simp [htrue] at hconnected, .inl rfl⟩
  · exact .inl ⟨by simp, fun _ _ => hblocked, .inl rfl⟩
  · have hblocked : c.clientBlocked = false := by simpa using hblocked
    cases saved with
    | none => exact .inl ⟨by simp [queueMessageToSend], nofun, .inr rfl⟩
    | some json =>
      refine .inr ?_
      simp only [queueMessageToSend, Option.map_some]
      split
      · exact ⟨json, true, rfl, by simpa using hconnected, hblocked, .inr rfl, rfl⟩
      · exact ⟨json, false, rfl, by simpa using hconnected, hblocked, .inl rfl, by rw [← hblocked]⟩

theorem Invariant.sendMessageRaw (h : w.Invariant) {saved : Option ByteString}
    (hallowed : w.Allowed (.sendMessageRaw saved))
    (hstep : w.step (.sendMessageRaw saved) = some w') : w'.Invariant ∧
      (w.connection.clientConnected = true → w.disconnecting = true →
        w'.accepted = w.accepted) := by
  rw [WebsocketOutput.step] at hstep
  have hcases := sendMessageRaw_cases w.connection saved
  generalize WebsocketOutput.sendMessageRaw w.connection saved = answered at hcases hstep
  obtain ⟨code, connection⟩ := answered
  dsimp only at hcases hstep
  rcases hcases with ⟨hcode, -, hsame⟩ | ⟨json, blocked, rfl, hconnected, hblocked, hcode, rfl⟩
  · rw [if_neg hcode] at hstep
    obtain rfl := Option.some.inj hstep
    rcases hsame with rfl | rfl
    · exact ⟨h, fun _ _ => rfl⟩
    · exact ⟨h.clientError, fun _ _ => rfl⟩
  · rw [if_pos hcode] at hstep
    obtain rfl := Option.some.inj hstep
    have hdisconnecting := hallowed rfl hconnected hblocked
    have hstate : w.connection.clientDisconnectState = .notRequested := by
      by_contra hstate
      exact absurd (hdisconnecting.symm.trans ((h.disconnecting hconnected).mpr hstate)) nofun
    have hwriting : w.raw.writing.isSome ≠ true := fun hsome =>
      absurd (hblocked.symm.trans (h.writes hconnected hsome)) nofun
    have hwhole : w.writes.flatten ++ (w.connection.outgoingJsonNode ++ [.accepted json]) =
        (w.accepted ++ [json]).map .accepted := by
      rw [← append_assoc, h.whole hconnected]
      simp [toWrite, hstate]
    refine ⟨⟨fun _ => h.accepts hconnected, fun _ => h.rawBlocked hconnected,
      fun _ hsome => absurd hsome hwriting, fun _ hsome => absurd hsome hwriting,
      fun _ _ => .inr rfl, fun _ _ => .inr (.inl (by simp)), fun _ _ => .inr rfl,
      fun _ hsent => absurd (hstate.symm.trans hsent) nofun, fun _ => h.disconnecting hconnected,
      fun _ => hwhole.trans (by simp [toWrite, hstate]), ?_⟩,
      fun _ htrue => absurd (hdisconnecting.symm.trans htrue) nofun⟩
    have hstart : w.writes.flatten <+: (w.accepted ++ [json]).map .accepted := ⟨_, hwhole⟩
    exact hstart.trans (prefix_append _ _)

/-- **Each step keeps what is written in order**, where it is allowed. -/
theorem Invariant.step (h : w.Invariant) {a : Action} (hallowed : w.Allowed a)
    (hstep : w.step a = some w') : w.SoundStep w' ∧ w'.Invariant := by
  cases a with
  | sendMessageRaw saved =>
    obtain ⟨h', haccepted⟩ := h.sendMessageRaw hallowed hstep
    exact ⟨⟨h'.sound, haccepted⟩, h'⟩
  | setWindowSize size =>
    obtain rfl := Option.some.inj hstep
    have h' : Invariant (w.update fun c => { c with clientWindowSize := size }) :=
      ⟨h.accepts, h.rawBlocked, h.writes, h.empty, h.moves, h.blocked, h.disconnects, h.sent,
        h.disconnecting, h.whole, h.ordered⟩
    exact ⟨⟨h'.sound, fun _ _ => rfl⟩, h'⟩
  | clientError =>
    obtain rfl := Option.some.inj hstep
    exact ⟨⟨h.clientError.sound, fun _ _ => rfl⟩, h.clientError⟩
  | clientDisconnect =>
    obtain rfl := Option.some.inj hstep
    refine ⟨⟨h.clientDisconnect.sound, fun _ _ => rfl⟩, h.clientDisconnect⟩
  | doWork throws =>
    obtain rfl := Option.some.inj hstep
    obtain ⟨h', haccepted⟩ := h.doWork hallowed
    exact ⟨⟨h'.sound, fun _ _ => haccepted⟩, h'⟩
  | writeComplete failed =>
    rw [WebsocketOutput.step, Option.ite_none_left_eq_some] at hstep
    obtain ⟨hwriting, hstep⟩ := hstep
    obtain rfl := Option.some.inj hstep
    obtain ⟨h', haccepted⟩ := h.onWriteComplete failed hwriting
    exact ⟨⟨h'.sound, fun _ _ => haccepted⟩, h'⟩
  | rawDisconnect =>
    obtain rfl := Option.some.inj hstep
    obtain ⟨h', haccepted⟩ := h.rawDisconnect
    exact ⟨⟨h'.sound, fun _ _ => haccepted⟩, h'⟩
  | disconnectSocket =>
    obtain rfl := Option.some.inj hstep
    cases hconnected : w.connection.clientConnected with
    | true =>
      obtain ⟨h', haccepted⟩ := invariant_disconnectSocket hconnected h.ordered
      exact ⟨⟨h'.sound, fun _ _ => haccepted⟩, h'⟩
    | false =>
      rw [WebsocketOutput.disconnectSocket, if_neg (by simp [hconnected])]
      exact ⟨⟨h.sound, fun _ _ => rfl⟩, h⟩

/-! ### Steps that are not allowed -/

/-- What the socket does not take is lost. -/
theorem doWork_throws (hconnected : w.connection.clientConnected = true)
    (herror : w.connection.clientError = false) (hblocked : w.raw.socketBlocked = false)
    (hstate : w.connection.clientDisconnectState ≠ .sent)
    (hpending : w.connection.outgoingJsonNode ≠ [] ∨
      w.connection.clientDisconnectState = .requested) :
    (w.doWork true).connection.clientConnected = true ∧
      (w.doWork true).connection.outgoingJsonNode = [] ∧ (w.doWork true).writes = w.writes ∧
      (w.doWork true).toWrite = w.accepted.map .accepted ++
        if w.connection.clientDisconnectState = .requested then [.disconnect] else [] := by
  unfold WebsocketOutput.doWork
  cases hdisconnect : w.connection.clientDisconnectState with
  | sent => exact absurd hdisconnect hstate
  | requested =>
    simp [update, hconnected, herror, hblocked, hdisconnect, queueDisconnect, queueMessageToSend,
      rawSend, toWrite]
  | notRequested =>
    have houtgoing := hpending.resolve_right (by simp [hdisconnect])
    simp [update, hconnected, herror, hblocked, hdisconnect, queueDisconnect, houtgoing, rawSend,
      toWrite]

/-- A step that is right has been allowed. -/
theorem Invariant.allowed_of_soundStep (h : w.Invariant) {a : Action}
    (hstep : w.step a = some w') (hsound : w.SoundStep w') : w.Allowed a := by
  cases a with
  | sendMessageRaw saved =>
    intro hsaved hconnected hblocked
    by_contra hdisconnecting
    rw [WebsocketOutput.step] at hstep
    have hcases := sendMessageRaw_cases w.connection saved
    generalize WebsocketOutput.sendMessageRaw w.connection saved = answered at hcases hstep
    obtain ⟨code, connection⟩ := answered
    dsimp only at hcases hstep
    rcases hcases with ⟨-, hblocks, -⟩ | ⟨json, blocked, rfl, -, -, hcode, rfl⟩
    · exact absurd (hblocked.symm.trans (hblocks hsaved hconnected)) nofun
    · rw [if_pos hcode] at hstep
      obtain rfl := Option.some.inj hstep
      have hsame := hsound.2 hconnected (by simpa using hdisconnecting)
      simp at hsame
  | doWork throws =>
    intro hthrows hconnected herror hblocked hstate
    obtain rfl := Option.some.inj hstep
    rw [hthrows] at hsound
    by_contra hpending
    have hpending : w.connection.outgoingJsonNode ≠ [] ∨
        w.connection.clientDisconnectState = .requested := by
      by_contra hnot
      exact hpending ⟨not_not.mp (not_or.mp hnot).1, (not_or.mp hnot).2⟩
    obtain ⟨hconnected', hempty, hwrites, htoWrite⟩ :=
      doWork_throws hconnected herror hblocked hstate hpending
    have hwhole' := hsound.1.whole hconnected'
    rw [hempty, hwrites, htoWrite, append_nil] at hwhole'
    have hwhole := h.whole hconnected
    rw [hwhole', toWrite, if_neg hstate, append_nil, append_assoc,
      append_right_eq_self, append_eq_nil_iff] at hwhole
    rcases hpending with hne | hrequested
    · exact hne hwhole.2
    · simp [hrequested] at hwhole
  | _ => trivial

theorem invariant_start : start.Invariant :=
  ⟨fun _ => ⟨rfl, rfl, rfl⟩, fun _ => rfl, fun _ => nofun, fun _ => nofun,
    fun _ hpending => absurd rfl (hpending.resolve_left nofun), fun _ => nofun,
    fun _ hne => absurd rfl hne, fun _ => nofun, fun _ => ⟨nofun, fun hne => absurd rfl hne⟩,
    fun _ => rfl, List.nil_prefix⟩

/-- **The output is as it should be, all through a run, exactly if each step is allowed.** -/
theorem ordered_iff {actions : List Action} (h : run step start actions = some w) :
    (∀ as a bs t t', actions = as ++ a :: bs → run step start as = some t → step t a = some t' →
        t.SoundStep t') ↔
      Steps step Allowed start actions w :=
  steps_iff_forall_step (P := fun t _ t' => t.SoundStep t')
    (fun _ _ _ ht hallowed hstep => (ht.step hallowed hstep).symm)
    (fun _ _ _ ht hstep => ht.allowed_of_soundStep hstep) invariant_start h

/-- A message, and a disconnection. -/
theorem ordered_iff_disconnect :
    let actions : List Action := [.setWindowSize 10, .sendMessageRaw (some [123, 125]),
      .clientDisconnect, .doWork false, .writeComplete false, .doWork false]
    ∃ w, run step start actions = some w ∧
      ((∀ as a bs t t', actions = as ++ a :: bs → run step start as = some t →
          step t a = some t' → t.SoundStep t') ↔
        Steps step Allowed start actions w) :=
  ⟨_, rfl, ordered_iff rfl⟩

/-- **A message is accepted after `client_disconnect`**; and a message that the socket does not
take is lost, while the connection stays blocked. -/
theorem accepted_after_disconnect :
    (∃ w w', run step start [.setWindowSize 10, .clientDisconnect] = some w ∧
      w.connection.clientConnected = true ∧ w.disconnecting = true ∧
      step w (.sendMessageRaw (some [123, 125])) = some w' ∧ w'.accepted = [[123, 125]]) ∧
    ∃ w, run step start [.sendMessageRaw (some [123, 125]), .doWork true] = some w ∧
      w.connection.clientConnected = true ∧ w.accepted = [[123, 125]] ∧ w.writes = [] ∧
      w.connection.outgoingJsonNode = [] ∧ w.connection.clientBlocked = true ∧
      w.raw.writing = none ∧ w.connection.requestedService = false :=
  ⟨⟨_, _, rfl, rfl, rfl, rfl, rfl⟩, _, rfl, rfl, rfl, rfl, rfl, rfl, rfl, rfl⟩

end WebsocketOutput

end Mutgos.Websocket
