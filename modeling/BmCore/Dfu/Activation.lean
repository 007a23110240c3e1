import BmCore.Dfu.Intake
import BmCore.Library.Runs

/-!
# Activation

An observer follows a run of the state machine and collects the payloads the client accepts. The
slot is marked for the next boot only when these payloads lie in flash as one image of the
length and checksum announced by the Start frame.
-/
namespace BmCore.Dfu
open Library

/-! ## Receiving an image -/

/-- The client has taken `acc` of the image announced by `start`. -/
structure Receiving (start : BmDfuImgInfo) (acc : List UInt8) (c : DfuClientCtx)
    (flash : Nat → UInt8) : Prop where
  paged : Paged c flash acc
  runningCrc16 : c.runningCrc16 = crc16Ccitt 0 acc
  imageSize : c.imageSize = start.imageSize.toNat
  crc16 : c.crc16 = start.crc16
  numChunks : c.numChunks < 2 ^ 16
  currentChunk : c.currentChunk = 0 ∨ c.currentChunk < c.numChunks
  bound : acc.length ≤ bmDfuMaxChunkSize * c.currentChunk

/-- Everything taken is in flash. -/
structure Flashed (start : BmDfuImgInfo) (acc : List UInt8) (c : DfuClientCtx)
    (flash : Nat → UInt8) : Prop where
  flash : peek flash 0 c.imgFlashOffset = acc
  runningCrc16 : c.runningCrc16 = crc16Ccitt 0 acc
  imageSize : c.imageSize = start.imageSize.toNat
  crc16 : c.crc16 = start.crc16

/-- The image announced by `start` is in flash, and it is `acc`. -/
structure Verified (start : BmDfuImgInfo) (acc : List UInt8) (flash : Nat → UInt8) : Prop where
  length : acc.length = start.imageSize.toNat
  flash : peek flash 0 start.imageSize.toNat = acc
  crc16 : crc16Ccitt 0 acc = start.crc16

variable {env : Env} {start : BmDfuImgInfo} {acc : List UInt8}

theorem Receiving.restart {c : DfuClientCtx} {flash : Nat → UInt8}
    (hsize : c.imageSize = start.imageSize.toNat) (hcrc : c.crc16 = start.crc16)
    (hnum : c.numChunks < 2 ^ 16) : Receiving start [] c.restart flash :=
  ⟨.restart c flash, rfl, hsize, hcrc, hnum, .inl rfl, Nat.zero_le _⟩

/-- The retry counter plays no part. -/
theorem Receiving.retry {c : DfuClientCtx} {flash : Nat → UInt8} (h : Receiving start acc c flash)
    (n : Nat) : Receiving start acc { c with chunkRetryNum := n } flash :=
  ⟨⟨h.paged.bytes, h.paged.counter⟩, h.runningCrc16, h.imageSize, h.crc16, h.numChunks,
    h.currentChunk, h.bound⟩

/-- Where the run function of the Receiving state leaves the client: still receiving, or with
everything in flash and on its way to validation, or on its way to the error state. -/
structure Received (start : BmDfuImgInfo) (acc : List UInt8) (u : World) : Prop where
  staying : u.core.pendingStateChange = false → Receiving start acc u.client u.flash
  validating : u.core.pendingStateChange = true → u.core.newState = .clientValidating →
    Flashed start acc u.client u.flash

theorem Received.of_error {u : World} (hp : u.core.pendingStateChange = true)
    (hn : u.core.newState = .error) : Received start acc u := by
  refine ⟨fun h => ?_, fun _ h => ?_⟩
  · rw [hp] at h
    cases h
  · rw [hn] at h
    cases h

theorem Received.of_receiving {u : World} (h : Receiving start acc u.client u.flash)
    (hn : u.core.pendingStateChange = true → u.core.newState = .error) :
    Received start acc u := by
  refine ⟨fun _ => h, fun hp hv => ?_⟩
  rw [hn hp] at hv
  cases hv

theorem Received.timerErrCheck {call : BmErr × World}
    (h : Receiving start acc call.2.client call.2.flash)
    (hn : call.2.core.pendingStateChange = true → call.2.core.newState = .error) :
    Received start acc (clientTimerErrCheck env call).2 := by
  unfold clientTimerErrCheck
  split
  · exact .of_error (by simp) (by simp)
  · exact .of_receiving h hn

/-- The payload is taken, but not yet counted as a chunk. -/
structure Taken (start : BmDfuImgInfo) (acc : List UInt8) (w : World) : Prop where
  paged : Paged w.client w.flash acc
  runningCrc16 : w.client.runningCrc16 = crc16Ccitt 0 acc
  imageSize : w.client.imageSize = start.imageSize.toNat
  crc16 : w.client.crc16 = start.crc16
  numChunks : w.client.numChunks < 2 ^ 16
  currentChunk : w.client.currentChunk = 0 ∨ w.client.currentChunk < w.client.numChunks
  bound : acc.length ≤ bmDfuMaxChunkSize * (w.client.currentChunk + 1)
  pending : w.core.pendingStateChange = true → w.core.newState = .error

theorem Taken.counted {w : World} (h : Taken start acc w)
    (hlt : (w.client.currentChunk + 1) % 2 ^ 16 < w.client.numChunks) :
    Receiving start acc { w.client with
      currentChunk := (w.client.currentChunk + 1) % 2 ^ 16, chunkRetryNum := 0 } w.flash := by
  have hmod : (w.client.currentChunk + 1) % 2 ^ 16 = w.client.currentChunk + 1 := by
    have := h.numChunks
    rcases h.currentChunk with h0 | h0 <;> omega
  refine ⟨⟨h.paged.bytes, h.paged.counter⟩, h.runningCrc16, h.imageSize, h.crc16, h.numChunks,
    .inr hlt, ?_⟩
  show acc.length ≤ bmDfuMaxChunkSize * ((w.client.currentChunk + 1) % 2 ^ 16)
  rw [hmod]
  exact h.bound

theorem Taken.length_lt {w : World} (h : Taken start acc w) : acc.length < 2 ^ 32 := by
  have hb := h.bound
  have hn := h.numChunks
  simp only [bmDfuMaxChunkSize] at hb
  rcases h.currentChunk with h0 | h0 <;> omega

/-- After a payload is taken, the client counts it and asks for the next one or finishes. -/
theorem clientNextChunk_received (hw : ∀ n, env.flashAreaWrite n = .ok) {w : World}
    (h : Taken start acc w) : Received start acc (clientNextChunk env w).2 := by
  unfold clientNextChunk
  dsimp only
  split
  next hlt => exact .timerErrCheck (h.counted hlt) (by simpa using h.pending)
  next hge =>
    generalize hv : w.withClient { w.client with
      currentChunk := (w.client.currentChunk + 1) % 2 ^ 16, chunkRetryNum := 0 } = v
    have hpaged : Paged v.client v.flash acc := by
      subst hv
      exact ⟨h.paged.bytes, h.paged.counter⟩
    have hframe := bmDfuProcessEnd_frame env v
    obtain ⟨hok, hoff, hflash⟩ := bmDfuProcessEnd_paged hw hpaged h.length_lt
    rw [if_neg (by simp [hok])]
    refine ⟨by simp, fun _ _ => ?_⟩
    subst hv
    refine ⟨?_, ?_, ?_, ?_⟩
    · simpa only [setPending_client, setPending_flash, hoff] using hflash
    · simpa only [setPending_client, hframe.runningCrc16, withClient_client] using h.runningCrc16
    · simpa only [setPending_client, hframe.imageSize, withClient_client] using h.imageSize
    · simpa only [setPending_client, hframe.crc16, withClient_client] using h.crc16

/-- An accepted payload is appended to what was taken. -/
theorem clientAcceptChunk_received (hw : ∀ n, env.flashAreaWrite n = .ok) {w : World}
    {payload : List UInt8} (h : Receiving start acc w.client w.flash)
    (hpend : w.core.pendingStateChange = false) (hlen : payload.length ≤ bmDfuMaxChunkSize) :
    Received start (acc ++ payload) (clientAcceptChunk env payload w).2 := by
  unfold clientAcceptChunk
  dsimp only
  generalize hv : w.withClient { w.client with
    chunkLength := payload.length
    runningCrc16 := crc16Ccitt w.client.runningCrc16 payload } = v
  have hpaged : Paged v.client v.flash acc := by
    subst hv
    exact ⟨h.paged.bytes, h.paged.counter⟩
  have hbound : (acc ++ payload).length ≤ bmDfuMaxChunkSize * (w.client.currentChunk + 1) := by
    have := h.bound
    rw [List.length_append, Nat.mul_succ]
    omega
  have hlt : acc.length + payload.length < 2 ^ 32 := by
    have hn := h.numChunks
    rw [List.length_append] at hbound
    simp only [bmDfuMaxChunkSize] at hbound
    rcases h.currentChunk with h0 | h0 <;> omega
  have hframe := bmDfuProcessPayload_frame env payload v
  have hpay := (bmDfuProcessPayload_paged hw hpaged hlen hlt).2
  apply clientNextChunk_received hw
  have htaken : ∀ u : World, u.client = (bmDfuProcessPayload env payload v).2.client →
      u.flash = (bmDfuProcessPayload env payload v).2.flash →
      (u.core.pendingStateChange = true → u.core.newState = .error) →
      Taken start (acc ++ payload) u := by
    intro u hc hf hp
    subst hv
    refine ⟨by rw [hc, hf]; exact hpay, ?_, ?_, ?_, ?_, ?_, ?_, hp⟩
    · rw [hc, hframe.runningCrc16, crc16Ccitt_append, ← h.runningCrc16]
      rfl
    · rw [hc, hframe.imageSize]
      exact h.imageSize
    · rw [hc, hframe.crc16]
      exact h.crc16
    · rw [hc, hframe.numChunks]
      exact h.numChunks
    · rw [hc, hframe.currentChunk, hframe.numChunks]
      exact h.currentChunk
    · rw [hc, hframe.currentChunk]
      exact hbound
  split
  · exact htaken _ (by simp) (by simp) (by simp)
  · refine htaken _ rfl rfl ?_
    rw [hframe.core]
    subst hv
    simp [hpend]

/-! ## The observer -/

/-- A run of the machine with what an observer of it remembers: the payloads accepted since the
Receiving state was last entered or restarted, and the Start frame accepted in Idle. -/
structure Transfer where
  world : World
  accepted : List UInt8
  start : BmDfuImgInfo

/-- A chunk frame holds as many payload bytes as it says. -/
def WellFormedChunk (env : Env) (evt : BmDfuEvent) : Prop :=
  evt.type = .imageChunk → ∀ buf ∈ evt.buf,
    buf.bytes.length = 19 + payloadLength env.beyond buf.bytes

instance (env : Env) : DecidablePred (WellFormedChunk env) := fun evt =>
  inferInstanceAs (Decidable (evt.type = .imageChunk → ∀ buf ∈ evt.buf, _))

/-- The payload of a chunk frame that is accepted in `w`: it is not too long, and the chunk timer
is stopped. -/
def acceptedPayload (env : Env) (w : World) (evt : BmDfuEvent) : Option (List UInt8) :=
  match w.core.currentState, evt.type, evt.buf with
  | .clientReceiving, .imageChunk, some buf =>
    if payloadLength env.beyond buf.bytes ≤ bmDfuMaxChunkSize ∧ env.timerStop w.log.length = .ok
    then some (buf.bytes.drop 19) else none
  | _, _, _ => none

/-- The image is taken from its first byte again. -/
def restarts (env : Env) (w : World) (evt : BmDfuEvent) : Bool :=
  w.core.currentState = .clientReceiving && evt.type = .receivedUpdateRequest &&
    env.timerStop w.log.length = .ok

def Transfer.step (env : Env) (t : Transfer) (evt : BmDfuEvent) : Transfer :=
  let w := consume env evt t.world
  let entered := t.world.core.currentState ≠ .clientReceiving ∧
    w.core.currentState = .clientReceiving
  { world := w
    accepted :=
      if entered ∨ restarts env t.world evt then []
      else t.accepted ++ (acceptedPayload env t.world evt).getD []
    start :=
      if entered then (evt.buf.map fun buf => imgInfo env.beyond buf.bytes).getD t.start
      else t.start }

/-- The observer of a node that has just been initialised. -/
def Transfer.init (w : World) : Transfer :=
  { world := w, accepted := [], start := ⟨0, 0, 0, 0, 0, 0, 0⟩ }

/-- What the observer knows in each state. -/
structure Transfer.Inv (t : Transfer) : Prop where
  settled : Settled t.world
  receiving : t.world.core.currentState = .clientReceiving →
    Receiving t.start t.accepted t.world.client t.world.flash
  validating : t.world.core.currentState = .clientValidating →
    t.world.core.pendingStateChange = true → t.world.core.newState = .clientRebootReq →
    Verified t.start t.accepted t.world.flash
  verified : t.world.core.currentState ∈ [.clientRebootReq, .clientActivating] →
    Verified t.start t.accepted t.world.flash

theorem Transfer.Inv.init (self : UInt64) (info : RebootClientUpdateInfo) (flash : Nat → UInt8) :
    (Transfer.init (bmDfuInit self info flash)).Inv where
  settled h := by cases h
  receiving h := by cases h
  validating h := by cases h
  verified h := by simp [Transfer.init, bmDfuInit] at h

/-! ## One step -/

/-- What has been taken after `evt`, when the state stays. -/
def acceptedAfter (env : Env) (w : World) (evt : BmDfuEvent) (acc : List UInt8) : List UInt8 :=
  if restarts env w evt then [] else acc ++ (acceptedPayload env w evt).getD []

theorem payloadBuf_eq_drop {beyond : Nat → UInt8} {bs : List UInt8}
    (h : bs.length = 19 + payloadLength beyond bs) :
    payloadBuf beyond bs (payloadLength beyond bs) = bs.drop 19 := by
  rw [payloadBuf, window_eq_slice _ _ (by omega)]
  apply List.take_of_length_le
  rw [List.length_drop]
  omega

theorem receivingRun_chunk_received (hw : ∀ n, env.flashAreaWrite n = .ok) {w : World}
    {buf : BmDfuBuf} (hs : w.core.currentState = .clientReceiving)
    (he : w.core.currentEvent = { type := .imageChunk, buf := some buf })
    (hpend : w.core.pendingStateChange = false) (h : Receiving start acc w.client w.flash)
    (hwf : buf.bytes.length = 19 + payloadLength env.beyond buf.bytes) :
    Received start (acceptedAfter env w w.core.currentEvent acc)
      (sClientReceivingRun env w).2 := by
  have hacc : acceptedAfter env w w.core.currentEvent acc =
      acc ++ (if payloadLength env.beyond buf.bytes ≤ bmDfuMaxChunkSize ∧
        env.timerStop w.log.length = .ok then some (buf.bytes.drop 19) else none).getD [] := by
    simp [acceptedAfter, restarts, acceptedPayload, he, hs]
  rw [receivingRun_imageChunk he, hacc]
  by_cases hlong : payloadLength env.beyond buf.bytes > bmDfuMaxChunkSize
  · rw [if_pos hlong, if_neg (by omega)]
    simpa using Received.of_receiving (u := w) h (by simp [hpend])
  · by_cases hstop : env.timerStop w.log.length = .ok
    · rw [if_neg hlong, if_neg (not_not.mpr hstop), if_pos ⟨by omega, hstop⟩,
        payloadBuf_eq_drop hwf]
      refine clientAcceptChunk_received hw h hpend ?_
      rw [Option.getD_some, List.length_drop]
      omega
    · rw [if_neg hlong, if_pos hstop]
      exact .of_error (by simp) (by simp)

/-- The run function of the Receiving state keeps the invariant or leaves the state. -/
theorem receivingRun_received (hw : ∀ n, env.flashAreaWrite n = .ok) {w : World}
    (hs : w.core.currentState = .clientReceiving)
    (hpend : w.core.pendingStateChange = false) (h : Receiving start acc w.client w.flash)
    (hwf : WellFormedChunk env w.core.currentEvent) :
    Received start (acceptedAfter env w w.core.currentEvent acc)
      (sClientReceivingRun env w).2 := by
  have hsame : Received start acc w := .of_receiving h (by simp [hpend])
  rcases he : w.core.currentEvent with ⟨type, buf⟩
  by_cases hacts : actsInReceiving w.core.currentEvent = false
  · rw [receivingRun_ignored hacts]
    rw [he] at hacts
    cases type <;> cases buf <;>
      simp_all [actsInReceiving, acceptedAfter, restarts, acceptedPayload]
  · rw [he] at hacts
    cases type with
    | imageChunk =>
      cases buf with
      | some buf =>
        rw [← he]
        exact receivingRun_chunk_received hw hs he hpend h (hwf (by rw [he]) buf (by rw [he]; rfl))
      | none => simp [actsInReceiving] at hacts
    | chunkTimeout =>
      have hacc : acceptedAfter env w { type := .chunkTimeout, buf := buf } acc = acc := by
        simp [acceptedAfter, restarts, acceptedPayload, hs]
      rw [hacc, receivingRun_chunkTimeout he]
      unfold clientChunkTimeout
      dsimp only
      split
      · exact .of_error (by simp) (by simp)
      · exact .timerErrCheck (h.retry _) (by simp [hpend])
    | receivedUpdateRequest =>
      rw [receivingRun_updateRequest he]
      split
      · exact .of_error (by simp) (by simp)
      next hstop =>
        have hacc : acceptedAfter env w { type := .receivedUpdateRequest, buf := buf } acc =
            [] := by
          simp [acceptedAfter, restarts, hs, not_not.mp hstop]
        rw [hacc]
        unfold clientResync
        exact .timerErrCheck (.restart h.imageSize h.crc16 h.numChunks) (by simp [hpend])
    | heartbeat =>
      have hacc : acceptedAfter env w { type := .heartbeat, buf := buf } acc = acc := by
        simp [acceptedAfter, restarts, acceptedPayload, hs]
      rw [hacc, receivingRun_heartbeat he]
      exact .timerErrCheck h (by simp [hpend])
    | _ => simp [actsInReceiving] at hacts

/-- Entering the Receiving state from Idle starts a new image. -/
theorem receivingEntry_receiving {w u : World} {buf : BmDfuBuf} (h : StartTaken env buf w u) :
    Receiving (imgInfo env.beyond buf.bytes) [] (sClientReceivingEntry env
      (u.entering .clientReceiving)).2.client
      (sClientReceivingEntry env (u.entering .clientReceiving)).2.flash := by
  have hc : (sClientReceivingEntry env (u.entering .clientReceiving)).2.client =
      u.client.restart := rfl
  rw [hc, h.client]
  exact .restart rfl rfl (Nat.mod_lt _ (by decide))

/-- Validation lets an image through only when it is complete and its checksum is right. -/
theorem validatingEntry_verified {w : World} (h : Flashed start acc w.client w.flash)
    (hp : (sClientValidatingEntry env w).2.core.newState = .clientRebootReq) :
    Verified start acc (sClientValidatingEntry env w).2.flash := by
  unfold sClientValidatingEntry at hp ⊢
  dsimp only at hp ⊢
  split at hp
  · simp at hp
  next hsize =>
    have hsize' : w.client.imgFlashOffset = start.imageSize.toNat := by
      rw [← h.imageSize]
      exact (not_not.mp hsize).symm
    split at hp
    next hcrc =>
      rw [if_neg hsize, if_pos hcrc, setPending_flash]
      have hflash := h.flash
      rw [hsize'] at hflash
      refine ⟨?_, hflash, ?_⟩
      · rw [← hflash, peek_length]
      · rw [← h.runningCrc16, ← h.crc16, hcrc]
    · simp at hp

/-- In the reboot states nothing touches the flash. -/
theorem rebootReqRun_flash (env : Env) (w : World) :
    (sClientRebootReqRun env w).2.flash = w.flash := by
  unfold sClientRebootReqRun
  dsimp only
  split
  · simp
  · rfl
  · split <;> simp
  · rfl

/-- Outside Receiving nothing is accepted. -/
theorem acceptedAfter_of_ne {w : World} (h : w.core.currentState ≠ .clientReceiving)
    (evt : BmDfuEvent) : acceptedAfter env w evt acc = acc := by
  have hr : restarts env w evt = false := by simp [restarts, h]
  have hp : acceptedPayload env w evt = none := by
    unfold acceptedPayload
    split
    next hs _ _ => exact absurd hs h
    · rfl
  simp [acceptedAfter, hr, hp]

/-- A step that does not enter Receiving keeps the Start frame and appends what it accepts. -/
theorem Transfer.step_kept (env : Env) (t : Transfer) (evt : BmDfuEvent)
    (h : t.world.core.currentState = .clientReceiving ∨
      (consume env evt t.world).core.currentState ≠ .clientReceiving) :
    (t.step env evt).accepted = acceptedAfter env t.world evt t.accepted ∧
      (t.step env evt).start = t.start := by
  have hno : ¬ (t.world.core.currentState ≠ .clientReceiving ∧
      (consume env evt t.world).core.currentState = .clientReceiving) := by
    rintro ⟨h₁, h₂⟩
    rcases h with h | h
    · exact h₁ h
    · exact h h₂
  constructor
  · simp only [Transfer.step, hno, false_or, acceptedAfter]
  · simp only [Transfer.step, if_neg hno]

/-- A step without a transition keeps what the observer knows. -/
theorem Transfer.Inv.step_stay (hw : ∀ n, env.flashAreaWrite n = .ok) {t : Transfer} (h : t.Inv)
    {evt : BmDfuEvent} (hwf : WellFormedChunk env evt)
    (hp : (t.world.afterRun env evt).core.pendingStateChange = false)
    (hs : (t.world.afterRun env evt).core.currentState = t.world.core.currentState)
    (hu : consume env evt t.world = t.world.afterRun env evt) : (t.step env evt).Inv := by
  have hkept := Transfer.step_kept env t evt (by
    rw [hu, hs]
    exact em _)
  have hworld : (t.step env evt).world = t.world.afterRun env evt := hu
  refine ⟨by rw [hworld, ← hu]; exact consume_settled env evt h.settled, ?_, ?_, ?_⟩
  · intro hr
    rw [hworld, hs] at hr
    have hrun := receivingRun_received hw (w := t.world.withEvent evt) hr
      (h.settled.pending_eq_false hr (by decide)) (h.receiving hr) hwf
    have hafter : t.world.afterRun env evt =
        (sClientReceivingRun env (t.world.withEvent evt)).2 := by
      simp [World.afterRun, hr, dfuStates]
    rw [hworld, hkept.1, hkept.2, hafter]
    rw [hafter] at hp
    exact hrun.staying hp
  · intro _ hpend
    rw [hworld, hp] at hpend
    cases hpend
  · intro hr
    rw [hworld, hs] at hr
    have hflash : (t.world.afterRun env evt).flash = t.world.flash := by
      simp only [List.mem_cons, List.not_mem_nil, or_false] at hr
      rcases hr with hr | hr
      · simp only [World.afterRun, hr, dfuStates]
        exact rebootReqRun_flash env _
      · simp only [World.afterRun, hr, dfuStates]
        rfl
    have hne : t.world.core.currentState ≠ .clientReceiving := by
      intro he
      simp [he] at hr
    rw [hworld, hkept.1, hkept.2, hflash, acceptedAfter_of_ne hne]
    exact h.verified hr

theorem Transfer.step_moved {t : Transfer} {evt : BmDfuEvent}
    (hu : consume env evt t.world = (t.world.afterRun env evt).moved env) :
    (t.step env evt).world = (t.world.afterRun env evt).moved env ∧
      (t.step env evt).world.core.currentState = (t.world.afterRun env evt).core.newState := by
  have hworld : (t.step env evt).world = (t.world.afterRun env evt).moved env := hu
  exact ⟨hworld, by rw [hworld, moved_currentState]⟩

section Move
variable {t : Transfer} {evt : BmDfuEvent}
  (hp : (t.world.afterRun env evt).core.pendingStateChange = true)
  (hs : (t.world.afterRun env evt).core.currentState = t.world.core.currentState)
  (hnew : (t.world.afterRun env evt).core.newState ∈ nextStates t.world.core.currentState)
  (hu : consume env evt t.world = (t.world.afterRun env evt).moved env)
include hp hs hnew hu

/-- A start message begins a transfer. -/
theorem Transfer.Inv.move_receiving (h : t.Inv)
    (hr : (t.step env evt).world.core.currentState = .clientReceiving) :
    Receiving (t.step env evt).start (t.step env evt).accepted (t.step env evt).world.client
      (t.step env evt).world.flash := by
  obtain ⟨hworld, hstate⟩ := Transfer.step_moved hu
  rw [hstate] at hr
  rw [hr] at hnew
  have hidle := eq_idle_of_receiving hnew
  have hafter : t.world.afterRun env evt = (sIdleRun env (t.world.withEvent evt)).2 := by
    simp [World.afterRun, hidle, dfuStates]
  rw [hafter] at hp hr
  obtain ⟨buf, hevt, -, htaken⟩ := idleRun_toReceiving
    (w := t.world.withEvent evt) (h.settled.pending_eq_false hidle (by decide)) hp hr
  have hmoved : (t.step env evt).world =
      (sClientReceivingEntry env ((t.world.afterRun env evt).entering .clientReceiving)).2 := by
    rw [hworld, moved_eq_entry env (hs.trans hidle) (by decide) (hafter ▸ hr)]
    rfl
  have hentered : t.world.core.currentState ≠ .clientReceiving ∧
      (consume env evt t.world).core.currentState = .clientReceiving := by
    refine ⟨by rw [hidle]; decide, ?_⟩
    rw [hu, moved_currentState, hafter]
    exact hr
  have hacc : (t.step env evt).accepted = [] := by
    simp only [Transfer.step]
    rw [if_pos (.inl hentered)]
  have hstart : (t.step env evt).start = imgInfo env.beyond buf.bytes := by
    have hevt' : evt = { type := .receivedUpdateRequest, buf := some buf } := hevt
    simp only [Transfer.step]
    rw [if_pos hentered, hevt']
    rfl
  rw [hacc, hstart, hmoved, hafter]
  exact receivingEntry_receiving htaken

/-- A transfer that goes on to Validating has stored the image. -/
theorem Transfer.Inv.move_validating (hw : ∀ n, env.flashAreaWrite n = .ok) (h : t.Inv)
    (hwf : WellFormedChunk env evt)
    (hv : (t.step env evt).world.core.currentState = .clientValidating)
    (hreq : (t.step env evt).world.core.newState = .clientRebootReq) :
    Verified (t.step env evt).start (t.step env evt).accepted (t.step env evt).world.flash := by
  obtain ⟨hworld, hstate⟩ := Transfer.step_moved hu
  rw [hstate] at hv
  rw [hv] at hnew
  have hrecv := eq_receiving_of_validating hnew
  have hkept := Transfer.step_kept env t evt (.inl hrecv)
  have hafter : t.world.afterRun env evt =
      (sClientReceivingRun env (t.world.withEvent evt)).2 := by
    simp [World.afterRun, hrecv, dfuStates]
  have hrun := receivingRun_received hw (w := t.world.withEvent evt) hrecv
    (h.settled.pending_eq_false hrecv (by decide)) (h.receiving hrecv) hwf
  rw [← hafter] at hrun
  have hmoved : (t.step env evt).world = (sClientValidatingEntry env
      ((t.world.afterRun env evt).entering .clientValidating)).2 := by
    rw [hworld, moved_eq_entry env (hs.trans hrecv) (by decide) hv]
    rfl
  rw [hmoved] at hreq
  rw [hkept.1, hkept.2, hmoved]
  exact validatingEntry_verified (hrun.validating hp hv) hreq

/-- What was verified stays verified. -/
theorem Transfer.Inv.move_verified (h : t.Inv)
    (hv : (t.step env evt).world.core.currentState ∈ [.clientRebootReq, .clientActivating]) :
    Verified (t.step env evt).start (t.step env evt).accepted (t.step env evt).world.flash := by
  obtain ⟨hworld, hstate⟩ := Transfer.step_moved hu
  rw [hstate] at hv
  simp only [List.mem_cons, List.not_mem_nil, or_false] at hv
  have hkept := Transfer.step_kept env t evt (.inr (by
    rw [hu, moved_currentState]
    rcases hv with hv | hv <;> rw [hv] <;> decide))
  rcases hv with hv | hv
  · rw [hv] at hnew
    have hval := eq_validating_of_rebootReq hnew
    have hafter : t.world.afterRun env evt = t.world.withEvent evt := by
      simp [World.afterRun, hval, dfuStates, sClientValidatingRun]
    rw [hafter] at hp hv
    have hflash : (t.step env evt).world.flash = t.world.flash := by
      rw [hworld, hafter, moved_eq_entry env (u := t.world.withEvent evt) hval (by decide) hv]
      rfl
    rw [hflash, hkept.1, hkept.2, acceptedAfter_of_ne (by rw [hval]; decide)]
    exact h.validating hval hp hv
  · rw [hv] at hnew
    have hreq := eq_rebootReq_of_activating hnew
    have hafter : t.world.afterRun env evt =
        (sClientRebootReqRun env (t.world.withEvent evt)).2 := by
      simp [World.afterRun, hreq, dfuStates]
    have hflash : (t.step env evt).world.flash = t.world.flash := by
      have hr := rebootReqRun_flash env (t.world.withEvent evt)
      rw [← hafter] at hr
      rw [hworld, moved_eq_entry env (hs.trans hreq) (by decide) hv]
      exact hr
    rw [hflash, hkept.1, hkept.2, acceptedAfter_of_ne (by rw [hreq]; decide)]
    exact h.verified (by simp [hreq])

/-- A transition keeps what the observer knows. -/
theorem Transfer.Inv.step_move (hw : ∀ n, env.flashAreaWrite n = .ok) (h : t.Inv)
    (hwf : WellFormedChunk env evt) : (t.step env evt).Inv := by
  have hworld : (t.step env evt).world = (t.world.afterRun env evt).moved env := hu
  exact ⟨by rw [hworld]; exact moved_settled env _, h.move_receiving hp hs hnew hu,
    fun hv _ => h.move_validating hp hs hnew hu hw hwf hv, h.move_verified hp hs hnew hu⟩

end Move

/-- Every step keeps what the observer knows. -/
theorem Transfer.Inv.step (hw : ∀ n, env.flashAreaWrite n = .ok) {t : Transfer} (h : t.Inv)
    {evt : BmDfuEvent} (hwf : WellFormedChunk env evt) : (t.step env evt).Inv := by
  obtain ⟨hs, ⟨hp, hu⟩ | ⟨hp, hnew, hu⟩⟩ := consume_cases env evt h.settled
  · exact h.step_stay hw hwf hp hs hu
  · exact h.step_move hp hs hnew hu hw hwf

/-! ## Whole runs -/

/-- The observer after the machine has consumed `evts`. -/
def Transfer.run (env : Env) (w : World) (evts : List BmDfuEvent) : Transfer :=
  evts.foldl (Transfer.step env) (Transfer.init w)

/-- Consuming `evt` in `w` marks the slot for the next boot. -/
def Activates (env : Env) (w : World) (evt : BmDfuEvent) : Prop :=
  w.log.count .setPendingAndReset < (consume env evt w).log.count .setPendingAndReset

instance (env : Env) (w : World) (evt : BmDfuEvent) : Decidable (Activates env w evt) :=
  inferInstanceAs (Decidable (_ < _))

theorem Transfer.Inv.run (hw : ∀ n, env.flashAreaWrite n = .ok) (self : UInt64)
    (info : RebootClientUpdateInfo) (flash : Nat → UInt8) {evts : List BmDfuEvent}
    (hwf : ∀ evt ∈ evts, WellFormedChunk env evt) :
    (Transfer.run env (bmDfuInit self info flash) evts).Inv := by
  have halong : ∀ (t : Transfer) (evts : List BmDfuEvent), (∀ evt ∈ evts, WellFormedChunk env evt) →
      Along (Transfer.step env) (fun _ evt => WellFormedChunk env evt) t evts := by
    intro t evts
    induction evts generalizing t with
    | nil => exact fun _ => trivial
    | cons evt evts ih =>
      intro hall
      exact ⟨hall evt (by simp), ih _ fun e he => hall e (by simp [he])⟩
  exact foldl_invariant (fun t evt ht hevt => ht.step hw hevt) (.init self info flash)
    (halong _ _ hwf)

theorem rebootReqRun_toActivating {w : World} (hpend : w.core.pendingStateChange = false)
    (hp : (sClientRebootReqRun env w).2.core.pendingStateChange = true)
    (hnew : (sClientRebootReqRun env w).2.core.newState = .clientActivating) :
    w.core.currentEvent.type = .reboot ∧ w.core.currentEvent.buf.isSome := by
  unfold sClientRebootReqRun at hp hnew
  dsimp only [bmDfuGetCurrentEvent] at hp hnew
  split at hp
  next ht hb => exact ⟨ht, by rw [hb]; rfl⟩
  · simp [hpend] at hp
  next ht =>
    rw [ht] at hnew
    dsimp only at hnew
    split at hp
    next hretry =>
      rw [if_pos hretry] at hnew
      simp at hnew
    · simp [hpend] at hp
  · simp [hpend] at hp

/-- In every run from initialisation, the Receiving states hold exactly the accepted payloads,
and the slot is marked for the next boot only by a Reboot frame consumed in RebootReq, with the
flash holding the accepted payloads as an image of the announced length and checksum. -/
theorem activation_safe (env : Env) (hw : ∀ n, env.flashAreaWrite n = .ok) (self : UInt64)
    (info : RebootClientUpdateInfo) (flash : Nat → UInt8) (evts : List BmDfuEvent)
    (hwf : ∀ evt ∈ evts, WellFormedChunk env evt) :
    let t := Transfer.run env (bmDfuInit self info flash) evts
    (t.world.core.currentState = .clientReceiving →
      peek t.world.flash 0 t.world.client.imgFlashOffset ++
          peek t.world.client.imgPageBuf 0 t.world.client.imgPageByteCounter = t.accepted ∧
        t.world.client.imgPageByteCounter < bmImgPageLength ∧
        t.world.client.runningCrc16 = crc16Ccitt 0 t.accepted) ∧
      ∀ evt, Activates env t.world evt →
        peek (consume env evt t.world).flash 0 t.start.imageSize.toNat = t.accepted ∧
          t.accepted.length = t.start.imageSize.toNat ∧
          crc16Ccitt 0 t.accepted = t.start.crc16 ∧
          t.world.core.currentState = .clientRebootReq ∧
          evt.type = .reboot ∧ evt.buf.isSome := by
  intro t
  have hinv : t.Inv := Transfer.Inv.run hw self info flash hwf
  refine ⟨fun hr => ?_, fun evt hact => ?_⟩
  · have h := hinv.receiving hr
    exact ⟨h.paged.bytes, h.paged.counter, h.runningCrc16⟩
  · have hseen : (consume env evt t.world).seen Effect.isActivation ≠
        t.world.seen Effect.isActivation := by
      intro heq
      have hcount : ∀ w : World,
          w.log.count .setPendingAndReset = (w.seen Effect.isActivation).length := by
        intro w
        rw [List.count_eq_length_filter]
        congr 2
        funext e
        cases e <;> rfl
      unfold Activates at hact
      rw [hcount, hcount, heq] at hact
      omega
    obtain ⟨hp, hnew, hreq⟩ := consume_isActivation env evt hinv.settled hseen
    have hafter : t.world.afterRun env evt =
        (sClientRebootReqRun env (t.world.withEvent evt)).2 := by
      simp [World.afterRun, hreq, dfuStates]
    have hver := hinv.verified (by simp [hreq])
    have hflash : (consume env evt t.world).flash = t.world.flash := by
      rcases consume_cases env evt hinv.settled with ⟨hs, ⟨hno, -⟩ | ⟨-, -, hu⟩⟩
      · rw [hp] at hno
        cases hno
      · have hr := rebootReqRun_flash env (t.world.withEvent evt)
        rw [← hafter] at hr
        rw [hu, moved_eq_entry env (hs.trans hreq) (by decide) hnew]
        exact hr
    rw [hafter] at hp hnew
    have hevt := rebootReqRun_toActivating (w := t.world.withEvent evt)
      (hinv.settled.pending_eq_false hreq (by decide)) hp hnew
    exact ⟨by rw [hflash]; exact hver.flash, hver.length, hver.crc16, hreq, hevt.1, hevt.2⟩

/-- The Reboot frame of `oneByteUpdate`. -/
def oneByteReboot : BmDfuEvent := .ofFrame .reboot (frameHeader bcmpDFURebootMessage 9 7)

theorem activation_safe_oneByte :
    let env := Env.steady 1 4096 []
    let t := Transfer.run env (bmDfuInit 7 .zero fun _ => 0) oneByteUpdate
    Activates env t.world oneByteReboot ∧ t.accepted = [0xAB] ∧
      peek (consume env oneByteReboot t.world).flash 0 t.start.imageSize.toNat = t.accepted := by
  refine ⟨by decide +kernel, by decide +kernel, ?_⟩
  exact ((activation_safe _ (fun _ => rfl) 7 .zero (fun _ => 0) oneByteUpdate
    (by decide +kernel)).2 oneByteReboot (by decide +kernel)).1

end BmCore.Dfu
