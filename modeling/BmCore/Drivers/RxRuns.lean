import BmCore.Drivers.OaStateMachine

/-!
# Frames received

What the chunks mean that the MAC sends is `Reassembly.step`, but for a frame that is given up at
its end. `dataValid` follows that meaning: its clients are called for just the frames received, in
order.
-/
namespace BmCore.Drivers
open Library

/-- The chunk that a footer describes. -/
def footerChunk (footer : OaRxFooter) (payload : List UInt8) : Chunk Nat UInt8 :=
  { tag := footer.vs
    start := if footer.sv then some (footer.swo * 4) else none
    stop := if footer.ev then some footer.ebo else none
    payload }

/-- What a chunk with data means. A frame that ends with `FD` is given up. -/
def dataMeans (s : Reassembly Nat UInt8) (footer : OaRxFooter) (payload : List UInt8) :
    Reassembly Nat UInt8 :=
  if footer.ev ∧ footer.fd then
    { s with opened := if footer.sv then some (footer.vs, payload.drop (footer.swo * 4)) else none }
  else s.step (footerChunk footer payload)

/-- The FCS behind a frame is right. -/
def fcsRight (frame : List UInt8) : Prop :=
  halFcsCalculate (frame.take (frame.length - fcsSize)) =
    UInt32.ofNat (leNat (frame.drop (frame.length - fcsSize)))

instance (frame : List UInt8) : Decidable (fcsRight frame) :=
  inferInstanceAs (Decidable (_ = _))

/-- The frames have addresses and an FCS, which is right if it is to be checked, and the buffers are
large enough for them. -/
structure Sound (bufSize : Nat) (fcsCheckEn : Bool) (s : Reassembly Nat UInt8) : Prop where
  records : ∀ f ∈ s.records, 12 + fcsSize ≤ f.2.length ∧ f.2.length ≤ bufSize ∧
    (fcsCheckEn = true → fcsRight f.2)
  opened : ∀ f ∈ s.opened, f.2.length ≤ bufSize

instance (bufSize : Nat) (fcsCheckEn : Bool) (s : Reassembly Nat UInt8) :
    Decidable (Sound bufSize fcsCheckEn s) :=
  decidable_of_iff ((∀ f ∈ s.records, 12 + fcsSize ≤ f.2.length ∧ f.2.length ≤ bufSize ∧
      (fcsCheckEn = true → fcsRight f.2)) ∧ ∀ f ∈ s.opened, f.2.length ≤ bufSize)
    ⟨fun h => ⟨h.1, h.2⟩, fun h => ⟨h.1, h.2⟩⟩

/-- The chunk may come next. It carries no timestamp. A frame that is given up may end where none is
open, but does not start in the chunk it ends in: the driver hands such a frame over, whatever `FD`
says. -/
structure Conforms (bufSize : Nat) (fcsCheckEn : Bool) (s : Reassembly Nat UInt8)
    (footer : OaRxFooter) (payload : List UInt8) : Prop where
  noTimestamp : footer.rtsa = false
  fits : if footer.ev ∧ footer.fd then
      footer.sv = true → footer.ebo ≤ footer.swo * 4 ∧ footer.swo * 4 < payload.length
    else s.Fits (footerChunk footer payload)
  sound : Sound bufSize fcsCheckEn (dataMeans s footer payload)

instance (bufSize : Nat) (fcsCheckEn : Bool) (s : Reassembly Nat UInt8) (footer : OaRxFooter)
    (payload : List UInt8) : Decidable (Conforms bufSize fcsCheckEn s footer payload) :=
  decidable_of_iff (footer.rtsa = false ∧ (if footer.ev ∧ footer.fd then
      footer.sv = true → footer.ebo ≤ footer.swo * 4 ∧ footer.swo * 4 < payload.length
      else s.Fits (footerChunk footer payload)) ∧
      Sound bufSize fcsCheckEn (dataMeans s footer payload))
    ⟨fun h => ⟨h.1, h.2.1, h.2.2⟩, fun h => ⟨h.1, h.2, h.3⟩⟩

/-- The calls for a frame that has been received. -/
def frameCalls (f : Nat × List UInt8) : List RxCall :=
  [.dynTblUpdate 0 (f.1 &&& 1) ((f.2.drop 6).take 6),
    .receive 0 ((f.1 &&& 1) + 1) (f.2.take (f.2.length - fcsSize))]

namespace RxSide

/-- A frame is being received, and `f` is what has come of it. -/
structure Holds (r : RxSide) (t : Nat) (f : List UInt8) : Prop where
  flag : r.oaValidFlag = .flagStart
  offset : r.oaRxCurBufByteOffset = f.length
  bytes : peek r.tailDesc.pBuf 0 f.length = f
  port : r.tailDesc.port = t &&& 1

/-- The driver has received what the chunks mean. -/
structure Receives (bufSize : Nat) (fcsCheckEn : Bool) (r : RxSide) (s : Reassembly Nat UInt8) :
    Prop where
  ready : r.Ready
  room : ∀ d ∈ r.buffers, bufSize ≤ (r.descs d).bufSize
  split : r.oaTimestampSplit = false
  fcs : r.fcsCheckEn = fcsCheckEn
  calls : r.calls = s.records.flatMap frameCalls
  opened : ∀ f ∈ s.opened, r.Holds f.1 f.2

variable {r r' : RxSide} {s : Reassembly Nat UInt8} {bufSize : Nat} {fcsCheckEn : Bool}
  {footer : OaRxFooter} {chunk : Nat → UInt8} {t : Nat} {f : List UInt8}

theorem Receives.room_of_keeps (h : r.Receives bufSize fcsCheckEn s) (hkeeps : Keeps r r') :
    ∀ d ∈ r'.buffers, bufSize ≤ (r'.descs d).bufSize := by
  intro d hd
  rw [hkeeps.bufSize]
  exact h.room d (hkeeps.buffers.mem_iff.mp hd)

theorem Receives.tail_room (h : r.Receives bufSize fcsCheckEn s) : bufSize ≤ r.tailDesc.bufSize :=
  h.room _ h.ready.tailBuf_mem

/-- A part of what a buffer starts with. -/
theorem peek_part {m : Nat → UInt8} (h : peek m 0 f.length = f) {a n : Nat}
    (hle : a + n ≤ f.length) : peek m a n = (f.drop a).take n := by
  conv_rhs => rw [← h]
  rw [peek_drop _ (by omega), peek_take _ (by omega), Nat.zero_add]

/-- The frame in front of its FCS. -/
theorem peek_frame {m : Nat → UInt8} (h : peek m 0 f.length = f) :
    peek m 0 (f.length - fcsSize) = f.take (f.length - fcsSize) := by
  rw [peek_part h (by omega), List.drop_zero]

/-- The calls for the frame in the buffer at the tail. -/
theorem finish_calls (h : r.Ready) (hbytes : peek r.tailDesc.pBuf 0 f.length = f)
    (htrx : r.tailDesc.trxSize = f.length - fcsSize) (hport : r.tailDesc.port = t &&& 1)
    (hlen : 12 + fcsSize ≤ f.length) :
    (r.finish 0 true).calls = r.calls ++ frameCalls (t, f) := by
  have haddr : peek r.tailDesc.pBuf 6 6 = (f.drop 6).take 6 := peek_part hbytes (by omega)
  rw [h.finish_eq]
  simp only [frameCalls, if_true, haddr, hport, htrx, peek_frame hbytes]
  rfl

/-- With the right FCS behind the frame nothing is reported. -/
theorem fcsEvent_eq (hbytes : peek r.tailDesc.pBuf 0 f.length = f)
    (htrx : r.tailDesc.trxSize = f.length - fcsSize) (hlen : fcsSize ≤ f.length)
    (hright : r.fcsCheckEn = true → fcsRight f) : r.fcsEvent 0 = 0 := by
  have hfcs : peek r.tailDesc.pBuf (f.length - fcsSize) fcsSize = f.drop (f.length - fcsSize) := by
    rw [peek_part hbytes (by omega), List.take_of_length_le]
    rw [List.length_drop]
    omega
  simp only [fcsEvent, htrx, peek_frame hbytes, hfcs]
  exact if_neg fun hboth => hboth.2 (hright hboth.1)

/-- A frame ends in the chunk: its clients are called. -/
theorem endFrame_receives (h : r.Receives bufSize fcsCheckEn s) (hopened : s.opened = some (t, f))
    (hfd : footer.fd = false) (hwhole : footer.sv = true → footer.ebo ≤ footer.swo * 4)
    {last : List UInt8} (hlast : peek chunk 0 (footer.ebo + 1) = last)
    (hlen : 12 + fcsSize ≤ (f ++ last).length) (hsize : (f ++ last).length ≤ bufSize)
    (hsmall : bufSize < 0x100000000)
    (hright : fcsCheckEn = true → fcsRight (f ++ last)) :
    (r.endFrame 0 footer chunk).2 = 0 ∧
      (r.endFrame 0 footer chunk).1.Receives bufSize fcsCheckEn (s.close last) := by
  have hholds := h.opened (t, f) hopened
  have hlastlen : last.length = footer.ebo + 1 := by rw [← hlast, peek_length]
  have hlength : (f ++ last).length = f.length + footer.ebo + 1 := by
    rw [List.length_append, hlastlen, Nat.add_assoc]
  have hkeeps := endFrame_keeps h.ready 0 footer chunk
  have hroom := h.room_of_keeps hkeeps
  have hready := hkeeps.ready h.ready
  have hfits : ¬ f.length + footer.ebo + 1 > r.tailDesc.bufSize := by
    have := h.tail_room
    omega
  have htrx : sub32 (f.length + footer.ebo + 1) fcsSize = (f ++ last).length - fcsSize := by
    rw [sub32_eq (by omega) (by omega), hlength]
  obtain ⟨r₁, hr₁⟩ : ∃ r₁, r₁ = r.setTail { r.tailDesc with
    pBuf := blit r.tailDesc.pBuf f.length last
    trxSize := (f ++ last).length - fcsSize } := ⟨_, rfl⟩
  have hready₁ : r₁.Ready := by
    have hcopy : Keeps r r₁ := by
      rw [hr₁]
      refine (Keeps.refl h.ready).write h.ready rfl rfl rfl (fun i hi => blit_beyond ?_ hi) rfl
      omega
    exact hcopy.ready h.ready
  have hbytes : peek r₁.tailDesc.pBuf 0 (f ++ last).length = f ++ last := by
    have hextend := peek_blit_extend r.tailDesc.pBuf f.length last
    rw [hholds.bytes] at hextend
    rw [hr₁, tailDesc_setTail, List.length_append, hextend]
  have htrx₁ : r₁.tailDesc.trxSize = (f ++ last).length - fcsSize := by
    rw [hr₁, tailDesc_setTail]
  have hport : r₁.tailDesc.port = t &&& 1 := by
    rw [hr₁, tailDesc_setTail]
    exact hholds.port
  have hevent : r₁.fcsEvent 0 = 0 :=
    fcsEvent_eq hbytes htrx₁ (by omega) fun hen => hright (by rw [← h.fcs, ← hen, hr₁]; rfl)
  have hcalls := finish_calls hready₁ hbytes htrx₁ hport hlen
  have heq : r.endFrame 0 footer chunk =
      ({ r₁.finish 0 true with oaRxCurBufByteOffset := 0, oaValidFlag := .flagEnd }, 0) := by
    have hwhole' : ¬ (footer.sv = true ∧ footer.ebo > footer.swo * 4) := by
      intro hboth
      have := hwhole hboth.1
      omega
    simp only [endFrame, hfd, Bool.false_eq_true, if_false, hwhole', hholds.flag, hholds.offset,
      hfits, hlast, htrx, ne_eq, not_true_eq_false]
    rw [← hr₁, hevent]
  rw [heq] at hkeeps hroom hready ⊢
  refine ⟨rfl, hready, hroom, ?_, ?_, ?_, ?_⟩
  · change (r₁.finish 0 true).oaTimestampSplit = _
    rw [hready₁.finish_eq, hr₁]
    exact h.split
  · change (r₁.finish 0 true).fcsCheckEn = _
    rw [hready₁.finish_eq, hr₁]
    exact h.fcs
  · change (r₁.finish 0 true).calls = _
    rw [hcalls, hr₁]
    simp [Reassembly.close, hopened, h.calls, setTail]
  · simp [Reassembly.close]

variable (chunk) in
/-- The rest of a chunk is the start of a frame. -/
theorem takeFrame_spec (h : r.Ready) (hfits : footer.Fits) (hrtsa : footer.rtsa = false)
    (hstart : footer.swo * 4 < 64) (l : RxLocals) :
    ∃ r', r.takeFrame l footer chunk 64 = (r', l) ∧ Keeps r r' ∧
      r'.oaRxCurBufByteOffset = 64 - footer.swo * 4 ∧
      peek r'.tailDesc.pBuf 0 (64 - footer.swo * 4) =
        peek chunk (footer.swo * 4) (64 - footer.swo * 4) ∧
      r'.tailDesc.port = footer.vs &&& 1 ∧ r'.oaTimestampSplit = r.oaTimestampSplit ∧
      r'.calls = r.calls ∧ r'.fcsCheckEn = r.fcsCheckEn := by
  have hkeeps := takeFrame_keeps h hfits l chunk
  have hsub : sub32 64 (footer.swo * 4) = 64 - footer.swo * 4 := sub32_eq (by omega) hstart.le
  obtain ⟨r₁, hr₁⟩ : ∃ r₁, r₁ = r.setTail { r.tailDesc with
    prio := (footer.vs &&& 2) >>> 1, port := footer.vs &&& 1 } := ⟨_, rfl⟩
  obtain ⟨r₂, hr₂⟩ : ∃ r₂, r₂ = r₁.setTail { r₁.tailDesc with timestampValid := false } :=
    ⟨_, rfl⟩
  have htimestamp : r₁.timestamp l footer chunk 64 = (r₂, l, footer.swo * 4) := by
    rw [hr₂]
    simp [timestamp, hrtsa]
  have hport : r₂.tailDesc.port = footer.vs &&& 1 := by
    rw [hr₂, tailDesc_setTail, hr₁, tailDesc_setTail]
  have hsame : r₂.oaTimestampSplit = r.oaTimestampSplit ∧ r₂.calls = r.calls ∧
      r₂.fcsCheckEn = r.fcsCheckEn := by
    rw [hr₂, hr₁]
    exact ⟨rfl, rfl, rfl⟩
  refine ⟨(r.takeFrame l footer chunk 64).1, ?_, hkeeps, ?_⟩
  · simp only [takeFrame, ← hr₁, htimestamp]
  · simp only [takeFrame, ← hr₁, htimestamp, hsub, peek_length]
    refine ⟨trivial, ?_, ?_, hsame⟩
    · change peek (r₂.setTail _).tailDesc.pBuf _ _ = _
      rw [tailDesc_setTail]
      exact peek_blit_of_length r₂.tailDesc.pBuf 0 (peek_length _ _ _)
    · change (r₂.setTail _).tailDesc.port = _
      rw [tailDesc_setTail]
      exact hport

variable (chunk) in
/-- A frame starts in the chunk: the rest of the chunk is received, and the count of errors may
change. -/
theorem startFrame_spec (h : r.Ready) (hfits : footer.Fits) (hrtsa : footer.rtsa = false)
    (hstart : footer.swo * 4 < 64) (l : RxLocals) :
    ∃ r', Keeps r r' ∧ r'.oaRxCurBufByteOffset = 64 - footer.swo * 4 ∧
      peek r'.tailDesc.pBuf 0 (64 - footer.swo * 4) = (peek chunk 0 64).drop (footer.swo * 4) ∧
      r'.tailDesc.port = footer.vs &&& 1 ∧ r'.oaTimestampSplit = r.oaTimestampSplit ∧
      r'.calls = r.calls ∧ r'.fcsCheckEn = r.fcsCheckEn ∧
      r.startFrame l footer chunk 64 =
        if holdsFrame footer then
          let size := sub32 (sub32 (footer.ebo + 1) (footer.swo * 4)) fcsSize
          let r' := r'.setTail { r'.tailDesc with trxSize := size }
          ({ r'.finish (r'.fcsEvent l.event) true with
              oaRxCurBufByteOffset := 0, oaValidFlag := .flagEnd },
            { l with event := r'.fcsEvent l.event })
        else ({ r' with oaValidFlag := .flagStart }, l) := by
  obtain ⟨r₁, hr₁⟩ : ∃ r₁, r₁ = if r.oaValidFlag = .flagStart then
      { r with oaErrorStats := { r.oaErrorStats with
        invalidSvCount := r.oaErrorStats.invalidSvCount + 1 } } else r := ⟨_, rfl⟩
  have hsame : Keeps r r₁ ∧ r₁.oaTimestampSplit = r.oaTimestampSplit ∧ r₁.calls = r.calls ∧
      r₁.fcsCheckEn = r.fcsCheckEn := by
    rw [hr₁]
    split_ifs
    · exact ⟨(Keeps.refl h).of_eq rfl rfl rfl, rfl, rfl, rfl⟩
    · exact ⟨.refl h, rfl, rfl, rfl⟩
  obtain ⟨hkeeps₁, hsplit₁, hcalls₁, hfcs₁⟩ := hsame
  have hready₁ := hkeeps₁.ready h
  obtain ⟨r', htake, hkeeps, hoff, hbytes, hport, hsplit, hcalls, hfcs⟩ :=
    takeFrame_spec chunk hready₁ hfits hrtsa hstart l
  refine ⟨r', hkeeps₁.trans hkeeps, hoff, ?_, hport, hsplit.trans hsplit₁, hcalls.trans hcalls₁,
    hfcs.trans hfcs₁, ?_⟩
  · rw [hbytes, peek_drop _ hstart.le, Nat.zero_add]
  · simp only [startFrame, ← hr₁, htake, hready₁.not_empty, Bool.false_eq_true, if_false]

variable (chunk) in
/-- A frame that goes on beyond the chunk starts in it. -/
theorem startFrame_receives (h : r.Receives bufSize fcsCheckEn s) (hfits : footer.Fits)
    (hrtsa : footer.rtsa = false) (hstart : footer.swo * 4 < 64)
    (hwhole : holdsFrame footer = false) (l : RxLocals) :
    (r.startFrame l footer chunk 64).2 = l ∧
      (r.startFrame l footer chunk 64).1.Receives bufSize fcsCheckEn { s with
        opened := some (footer.vs, (peek chunk 0 64).drop (footer.swo * 4)) } := by
  obtain ⟨r', hkeeps, hoff, hbytes, hport, hsplit, hcalls, hfcs, heq⟩ :=
    startFrame_spec chunk h.ready hfits hrtsa hstart l
  have hlength : ((peek chunk 0 64).drop (footer.swo * 4)).length = 64 - footer.swo * 4 := by simp
  have hall := startFrame_keeps h.ready hfits l chunk
  have hready := hall.ready h.ready
  have hroom := h.room_of_keeps hall
  rw [heq, hwhole] at hready hroom ⊢
  refine ⟨rfl, hready, hroom, hsplit.trans h.split, hfcs.trans h.fcs, hcalls.trans h.calls, ?_⟩
  intro f hf
  obtain rfl : (footer.vs, (peek chunk 0 64).drop (footer.swo * 4)) = f := by simpa using hf
  exact ⟨rfl, hoff.trans hlength.symm, by rw [hlength]; exact hbytes, hport⟩

/-- A frame lies in the chunk from its first byte to its last: its clients are called. -/
theorem startFrame_whole (h : r.Receives bufSize fcsCheckEn s) (hfits : footer.Fits)
    (hrtsa : footer.rtsa = false) (hstart : footer.swo * 4 < 64) (hwhole : holdsFrame footer = true)
    {l : RxLocals} (hl : l.event = 0) {last : List UInt8}
    (hlast : ((peek chunk 0 64).take (footer.ebo + 1)).drop (footer.swo * 4) = last)
    (hlen : 12 + fcsSize ≤ last.length) (hright : fcsCheckEn = true → fcsRight last) :
    (r.startFrame l footer chunk 64).2.event = 0 ∧
      (r.startFrame l footer chunk 64).1.Receives bufSize fcsCheckEn
        { records := s.records ++ [(footer.vs, last)], opened := none } := by
  obtain ⟨r', hkeeps, hoff, hbytes, hport, hsplit, hcalls, hfcs, heq⟩ :=
    startFrame_spec chunk h.ready hfits hrtsa hstart l
  have hebo : footer.ebo < 2 ^ 6 := hfits.2.1
  have hlength : last.length = footer.ebo + 1 - footer.swo * 4 := by
    rw [← hlast, List.length_drop, List.length_take, peek_length]
    omega
  have htrx : sub32 (sub32 (footer.ebo + 1) (footer.swo * 4)) fcsSize =
      last.length - fcsSize := by
    have hsize : sub32 (footer.ebo + 1) (footer.swo * 4) = last.length := by
      rw [sub32_eq (by omega) (by omega), hlength]
    rw [hsize, sub32_eq (by omega) (by omega)]
  obtain ⟨r₁, hr₁⟩ : ∃ r₁, r₁ = r'.setTail { r'.tailDesc with
    trxSize := last.length - fcsSize } := ⟨_, rfl⟩
  have hkeeps₁ : Keeps r r₁ := by
    rw [hr₁]
    exact hkeeps.write h.ready rfl rfl rfl (fun _ _ => rfl) rfl
  have hready₁ := hkeeps₁.ready h.ready
  have hbytes₁ : peek r₁.tailDesc.pBuf 0 last.length = last := by
    rw [hr₁, tailDesc_setTail]
    have htaken := congrArg (List.take last.length) hbytes
    rw [peek_take _ (by omega)] at htaken
    rw [htaken, hlength, ← List.drop_take]
    exact hlast
  have htrx₁ : r₁.tailDesc.trxSize = last.length - fcsSize := by
    rw [hr₁, tailDesc_setTail]
  have hport₁ : r₁.tailDesc.port = footer.vs &&& 1 := by
    rw [hr₁, tailDesc_setTail]
    exact hport
  have hevent : r₁.fcsEvent 0 = 0 :=
    fcsEvent_eq hbytes₁ htrx₁ (by omega) fun hen =>
      hright (by rw [← h.fcs, ← hfcs, ← hen, hr₁]; rfl)
  have hcalls₁ := finish_calls hready₁ hbytes₁ htrx₁ hport₁ hlen
  have hall := startFrame_keeps h.ready hfits l chunk
  have hready := hall.ready h.ready
  have hroom := h.room_of_keeps hall
  rw [heq, hwhole] at hready hroom ⊢
  simp only [if_true, htrx, ← hr₁, hl, hevent] at hready hroom ⊢
  refine ⟨trivial, hready, hroom, ?_, ?_, ?_, by simp⟩
  · change (r₁.finish 0 true).oaTimestampSplit = _
    rw [hready₁.finish_eq, hr₁]
    exact hsplit.trans h.split
  · change (r₁.finish 0 true).fcsCheckEn = _
    rw [hready₁.finish_eq, hr₁]
    exact hfcs.trans h.fcs
  · change (r₁.finish 0 true).calls = _
    rw [hcalls₁, hr₁]
    change r'.calls ++ _ = _
    rw [hcalls, h.calls, List.flatMap_append, List.flatMap_singleton]

/-- A frame goes on: the whole chunk is received. -/
theorem moreOfFrame_receives (h : r.Receives bufSize fcsCheckEn s)
    (hopened : s.opened = some (t, f)) (hsize : f.length + 64 ≤ bufSize) :
    (r.moreOfFrame 0 0 chunk 64).2 = 0 ∧
      (r.moreOfFrame 0 0 chunk 64).1.Receives bufSize fcsCheckEn
        { s with opened := some (t, f ++ peek chunk 0 64) } := by
  have hholds := h.opened (t, f) hopened
  have hall := moreOfFrame_keeps h.ready 0 (Nat.zero_le 64) chunk
  have hready := hall.ready h.ready
  have hroom := h.room_of_keeps hall
  have hfits : ¬ f.length + 64 > r.tailDesc.bufSize := by
    have := h.tail_room
    omega
  have heq : r.moreOfFrame 0 0 chunk 64 = ({ r.setTail { r.tailDesc with
      pBuf := blit r.tailDesc.pBuf f.length (peek chunk 0 64) } with
      oaRxCurBufByteOffset := f.length + 64 }, 0) := by
    simp [moreOfFrame, hholds.flag, hholds.offset, hfits, sub32_eq]
  rw [heq] at hready hroom ⊢
  refine ⟨rfl, hready, hroom, h.split, h.fcs, h.calls, ?_⟩
  intro g hg
  obtain rfl : (t, f ++ peek chunk 0 64) = g := by simpa using hg
  have hextend := peek_blit_extend r.tailDesc.pBuf f.length (peek chunk 0 64)
  rw [hholds.bytes] at hextend
  refine ⟨hholds.flag, by simp, ?_, ?_⟩
  · change peek (r.setTail _).tailDesc.pBuf 0 _ = _
    rw [tailDesc_setTail, List.length_append, hextend]
  · change (r.setTail _).tailDesc.port = _
    rw [tailDesc_setTail]
    exact hholds.port

variable (chunk) in
/-- A frame is given up where it ends. -/
theorem endFrame_drop (h : r.Receives bufSize fcsCheckEn s) (hfd : footer.fd = true) :
    (r.endFrame 0 footer chunk).2 = 0 ∧
      (r.endFrame 0 footer chunk).1.Receives bufSize fcsCheckEn { s with opened := none } := by
  have hall := endFrame_keeps h.ready 0 footer chunk
  have hready := hall.ready h.ready
  have hroom := h.room_of_keeps hall
  simp only [endFrame, hfd, if_true] at hready hroom ⊢
  exact ⟨trivial, hready, hroom, h.split, h.fcs, h.calls, by simp⟩

/-- The driver receives what a chunk means. -/
theorem dataValid_receives (h : r.Receives bufSize fcsCheckEn s) (hfits : footer.Fits)
    (hconforms : Conforms bufSize fcsCheckEn s footer (peek chunk 0 64))
    (hsmall : bufSize < 0x100000000) {l : RxLocals} (hl : l.event = 0) :
    (r.dataValid l footer chunk 64).2.event = 0 ∧
      (r.dataValid l footer chunk 64).1.Receives bufSize fcsCheckEn
        (dataMeans s footer (peek chunk 0 64)) := by
  obtain ⟨hrtsa, hnext, hsound⟩ := hconforms
  have hbytes (n : Nat) (hn : n ≤ 64) : peek chunk 0 n = (peek chunk 0 64).take n :=
    (peek_take _ hn).symm
  have hebo : footer.ebo < 64 := hfits.2.1
  simp only [dataValid, restOfTimestamp, h.split, Bool.false_eq_true, if_false, hl]
  by_cases hdrop : footer.ev = true ∧ footer.fd = true
  · -- the frame that ends here is given up
    obtain ⟨hev, hfd⟩ := hdrop
    obtain ⟨hevent, hended⟩ := endFrame_drop chunk h hfd
    rw [if_pos ⟨hev, hfd⟩] at hnext
    simp only [dataMeans, hev, hfd, if_true, true_and, hevent] at hsound ⊢
    split_ifs with hsv
    · obtain ⟨hle, hlt⟩ := hnext hsv
      have hwhole : holdsFrame footer = false := by simpa [holdsFrame, hev] using hle
      have hstart := startFrame_receives chunk hended hfits hrtsa
        (by simpa using hlt) hwhole { l with event := 0 }
      exact ⟨by rw [hstart.1], hstart.2⟩
    · exact ⟨rfl, hended⟩
  · rw [if_neg hdrop] at hnext
    rw [dataMeans, if_neg hdrop] at hsound ⊢
    have hfd (hev : footer.ev = true) : footer.fd = false := by
      simpa [hev] using hdrop
    cases hev : footer.ev with
    | false =>
      have hwhole : holdsFrame footer = false := by simp [holdsFrame, hev]
      cases hsv : footer.sv with
      | false =>
        simp only [footerChunk, hsv, hev, Reassembly.Fits, Reassembly.step, Bool.false_eq_true,
          if_false] at hnext hsound ⊢
        obtain ⟨⟨t, f⟩, hopened⟩ := Option.isSome_iff_exists.mp hnext
        rw [hopened] at hsound ⊢
        have hlen := hsound.opened _ rfl
        rw [List.length_append, peek_length] at hlen
        exact moreOfFrame_receives h hopened hlen
      | true =>
        simp only [footerChunk, hsv, hev, Reassembly.Fits, Reassembly.step, Bool.false_eq_true,
          if_false, if_true, peek_length] at hnext hsound ⊢
        have hstart := startFrame_receives chunk h hfits hrtsa hnext.2 hwhole
          { l with event := 0 }
        exact ⟨by rw [hstart.1], hstart.2⟩
    | true =>
      cases hsv : footer.sv with
      | false =>
        simp only [footerChunk, hsv, hev, Reassembly.Fits, Reassembly.step, Bool.false_eq_true,
          if_false, if_true, peek_length] at hnext hsound ⊢
        obtain ⟨⟨t, f⟩, hopened⟩ := Option.isSome_iff_exists.mp hnext.1
        have hrecord := hsound.records (t, f ++ (peek chunk 0 64).take (footer.ebo + 1))
          (by simp [Reassembly.close, hopened])
        have hended := endFrame_receives h hopened (hfd hev) (by simp [hsv]) (hbytes _ hebo)
          hrecord.1 hrecord.2.1 hsmall hrecord.2.2
        exact ⟨hended.1, hended.2⟩
      | true =>
        simp only [footerChunk, hsv, hev, Reassembly.Fits, Reassembly.step, if_true,
          peek_length] at hnext hsound ⊢
        obtain ⟨hstart, -, hopened⟩ := hnext
        by_cases hle : footer.swo * 4 ≤ footer.ebo
        · -- a frame that starts and ends here
          rw [if_pos hle] at hsound hopened ⊢
          have hrecord := hsound.records (footer.vs,
            ((peek chunk 0 64).take (footer.ebo + 1)).drop (footer.swo * 4)) (by simp)
          have hlt : footer.ebo > footer.swo * 4 := by
            have hlen := hrecord.1
            rw [List.length_drop, List.length_take, peek_length] at hlen
            simp only [fcsSize] at hlen
            omega
          have hskip : r.endFrame 0 footer chunk = (r, 0) := by
            simp [endFrame, hfd hev, hsv, hlt]
          rw [hskip]
          exact startFrame_whole h hfits hrtsa hstart (by simp [holdsFrame, hev, hlt]) rfl rfl
            hrecord.1 hrecord.2.2
        · -- the end of one frame and the start of the next
          rw [if_neg hle] at hsound hopened ⊢
          obtain ⟨⟨t, f⟩, hopened⟩ := Option.isSome_iff_exists.mp hopened
          have hrecord := hsound.records (t, f ++ (peek chunk 0 64).take (footer.ebo + 1))
            (by simp [Reassembly.close, hopened])
          have hended := endFrame_receives h hopened (hfd hev) (fun _ => by omega)
            (hbytes _ hebo) hrecord.1 hrecord.2.1 hsmall hrecord.2.2
          have hwhole : holdsFrame footer = false := by
            simp only [holdsFrame, decide_eq_false_iff_not, not_and]
            omega
          have hnext := startFrame_receives chunk hended.2 hfits hrtsa hstart hwhole
            { l with event := 0 }
          rw [hended.1]
          exact ⟨by rw [hnext.1], hnext.2⟩

end RxSide

/-! ## Runs -/

/-- A chunk that has been received, and the word behind it. -/
structure RxChunk where
  word : UInt32
  bytes : Nat → UInt8

namespace RxChunk

def footer (c : RxChunk) : OaRxFooter := OaRxFooter.ofValue32 c.word

/-- The chunk carries data, and its footer is right. -/
def HasData (c : RxChunk) : Prop := checkFooter c.word = .good ∧ c.footer.dv = true

instance (c : RxChunk) : Decidable c.HasData := inferInstanceAs (Decidable (_ ∧ _))

/-- What the chunk means. One without data, or with a footer that is not right, means nothing. -/
def means (s : Reassembly Nat UInt8) (c : RxChunk) : Reassembly Nat UInt8 :=
  if c.HasData then dataMeans s c.footer (peek c.bytes 0 64) else s

/-- The chunk may come next if it means something. -/
def MayFollow (bufSize : Nat) (fcsCheckEn : Bool) (s : Reassembly Nat UInt8) (c : RxChunk) : Prop :=
  c.HasData → Conforms bufSize fcsCheckEn s c.footer (peek c.bytes 0 64)

instance (bufSize : Nat) (fcsCheckEn : Bool) (s : Reassembly Nat UInt8) (c : RxChunk) :
    Decidable (c.MayFollow bufSize fcsCheckEn s) :=
  inferInstanceAs (Decidable (_ → _))

end RxChunk

namespace RxSide
variable {r : RxSide} {s : Reassembly Nat UInt8} {bufSize : Nat} {fcsCheckEn : Bool}

/-- The driver with the chunks of a transaction. -/
def receive (r : RxSide) (l : RxLocals) (cs : List RxChunk) : RxSide × RxLocals :=
  cs.foldl (fun s c => s.1.footerEnd s.2 c.word c.bytes 64) (r, l)

theorem footerEnd_keeps (h : r.Ready) (l : RxLocals) (c : RxChunk) :
    Keeps r (r.footerEnd l c.word c.bytes 64).1 := by
  fun_cases footerEnd r l c.word c.bytes 64 with
  | case1 | case2 | case3 => exact (Keeps.refl h).of_eq rfl rfl rfl
  | case4 => exact dataValid_keeps h (OaRxFooter.fits_ofValue32 _) l c.bytes
  | case5 => exact .refl h

theorem receive_keeps (h : r.Ready) (l : RxLocals) (cs : List RxChunk) :
    Keeps r (r.receive l cs).1 := by
  unfold receive
  induction cs generalizing r l with
  | nil => exact .refl h
  | cons c cs ih =>
    have hc := footerEnd_keeps h l c
    exact hc.trans (ih (hc.ready h) _)

theorem footerEnd_receives (h : r.Receives bufSize fcsCheckEn s) (hsmall : bufSize < 0x100000000)
    {c : RxChunk} (hc : c.MayFollow bufSize fcsCheckEn s) {l : RxLocals} (hl : l.event = 0) :
    (r.footerEnd l c.word c.bytes 64).2.event = 0 ∧
      (r.footerEnd l c.word c.bytes 64).1.Receives bufSize fcsCheckEn (c.means s) := by
  have hcount {stats : OaErrorStats} :
      { r with oaErrorStats := stats }.Receives bufSize fcsCheckEn s :=
    ⟨(Keeps.of_eq (.refl h.ready) rfl rfl rfl :
        Keeps r { r with oaErrorStats := stats }).ready h.ready,
      h.room, h.split, h.fcs, h.calls, fun f hf => ⟨(h.opened f hf).flag, (h.opened f hf).offset,
        (h.opened f hf).bytes, (h.opened f hf).port⟩⟩
  have hbad (hne : checkFooter c.word ≠ .good) : c.means s = s := if_neg fun hboth => hne hboth.1
  fun_cases footerEnd r l c.word c.bytes 64 with
  | case1 stats hcheck => exact ⟨hl, by rw [hbad (by simp [hcheck])]; exact hcount⟩
  | case2 stats hcheck => exact ⟨hl, by rw [hbad (by simp [hcheck])]; exact hcount⟩
  | case3 stats hcheck => exact ⟨hl, by rw [hbad (by simp [hcheck])]; exact hcount⟩
  | case4 hcheck footer hdv =>
    have hdata : c.HasData := ⟨hcheck, hdv⟩
    rw [RxChunk.means, if_pos hdata]
    exact dataValid_receives h (OaRxFooter.fits_ofValue32 _) (hc hdata) hsmall hl
  | case5 hcheck footer hdv =>
    rw [RxChunk.means, if_neg fun hdata => hdv hdata.2]
    exact ⟨hl, h⟩

theorem receive_receives (h : r.Receives bufSize fcsCheckEn s) (hsmall : bufSize < 0x100000000)
    {cs : List RxChunk} (hcs : Along RxChunk.means (RxChunk.MayFollow bufSize fcsCheckEn) s cs)
    {l : RxLocals} (hl : l.event = 0) :
    (r.receive l cs).1.Receives bufSize fcsCheckEn (cs.foldl RxChunk.means s) := by
  unfold receive
  induction cs generalizing r l s with
  | nil => exact h
  | cons c cs ih =>
    obtain ⟨hevent, hnext⟩ := footerEnd_receives h hsmall hcs.1 hl
    exact ih hnext hcs.2 hevent

/-- Buffers queue up in the order in which they are submitted. -/
theorem foldl_submitRxBuffer (hqueue : r.pRxQueue.Inv) (hempty : r.pRxQueue.entries = [])
    (hroom : ∀ d, 64 ≤ (r.descs d).bufSize) {n : Nat} (hn : n < r.pRxQueue.numEntries) :
    ∃ q, (List.range n).foldl submitRxBuffer r = { r with pRxQueue := q } ∧ q.Inv ∧
      q.entries.map (·.pBufDesc) = List.range n ∧ q.numEntries = r.pRxQueue.numEntries := by
  induction n with
  | zero => exact ⟨r.pRxQueue, rfl, hqueue, by rw [hempty]; rfl, rfl⟩
  | succ n ih =>
    obtain ⟨q, heq, hq, hbuffers, hsize⟩ := ih (Nat.lt_of_succ_lt hn)
    have hcount : q.queueCount = n := by
      have hlength := congrArg List.length hbuffers
      simpa using hlength
    have hfull : q.queueIsFull = false := by
      simp only [MacQueue.queueIsFull, decide_eq_false_iff_not]
      omega
    refine ⟨q.put ⟨0, n⟩, ?_, MacQueue.inv_put hq _, ?_, hsize⟩
    · rw [List.range_succ, List.foldl_append, heq]
      simp [submitRxBuffer, Nat.not_lt.mpr (hroom n), minFrameSize, fcsSize, hfull]
    · rw [MacQueue.entries_put hq hfull, List.map_append, hbuffers, List.range_succ]
      rfl

theorem init_receives (memory : Nat → Nat → UInt8) :
    (init memory).Receives maxFrameBufSize false Reassembly.init ∧
      (init memory).buffers = List.range rxQueueNumEntries ∧
      ∀ i, (init memory).descs i =
        { pBuf := memory i, bufSize := maxFrameBufSize, trxSize := 0 } := by
  obtain ⟨q, heq, hq, hbuffers, -⟩ := foldl_submitRxBuffer (n := rxQueueNumEntries)
    (r := { pRxQueue := MacQueue.init (rxQueueNumEntries + 1)
            descs := fun i => { pBuf := memory i, bufSize := maxFrameBufSize, trxSize := 0 } })
    (MacQueue.init_inv (by decide)) (MacQueue.init_entries _)
    (fun _ => (by decide : 64 ≤ 1518 + 4 + 2)) (Nat.lt_succ_self _)
  have hqueued : (init memory).buffers = List.range rxQueueNumEntries := by
    rw [init, heq]
    exact hbuffers
  rw [init, heq] at hqueued ⊢
  refine ⟨⟨⟨hq, ?_, ?_, ?_⟩, ?_, rfl, rfl, rfl, by simp [Reassembly.init]⟩, hqueued, fun _ => rfl⟩
  · rw [hqueued]
    decide
  · rw [hqueued]
    exact List.nodup_range
  · exact fun _ _ => (by decide : 64 ≤ 1518 + 4 + 2)
  · exact fun _ _ => Nat.le_refl _

end RxSide

namespace MacDevice
variable {d : MacDevice}

/-- The chunks of a transaction that has ended. -/
def received (d : MacDevice) (spiRxBuf : Nat → UInt8) (n : Nat) : List RxChunk :=
  (List.range n).map fun i =>
    { word := hton32Word (peek spiRxBuf (i * d.chunkStep + d.chunkSize) 4)
      bytes := fun j => spiRxBuf (i * d.chunkStep + j) }

theorem chunkEnd_rx (hcps : d.oaCps = 6) (l : OaLocals) (spiRxBuf : Nat → UInt8) (i : Nat) :
    (d.chunkEnd l spiRxBuf i).1.oaCps = 6 ∧
      ((d.chunkEnd l spiRxBuf i).1.rx, (d.chunkEnd l spiRxBuf i).2.rx) =
        d.rx.footerEnd l.rx (hton32Word (peek spiRxBuf (i + 64) 4))
          (fun j => spiRxBuf (i + j)) 64 := by
  have hsize : d.chunkSize = 64 := by simp [chunkSize, hcps]
  simp only [chunkEnd, hsize]
  split_ifs <;> exact ⟨hcps, rfl⟩

theorem chunksEnd_rx (hcps : d.oaCps = 6) (l : OaLocals) (spiRxBuf : Nat → UInt8) (n : Nat) :
    (d.chunksEnd l spiRxBuf n).1.oaCps = 6 ∧
      ((d.chunksEnd l spiRxBuf n).1.rx, (d.chunksEnd l spiRxBuf n).2.rx) =
        d.rx.receive l.rx (d.received spiRxBuf n) := by
  induction n with
  | zero => exact ⟨hcps, rfl⟩
  | succ n ih =>
    obtain ⟨hcps', hrx⟩ := ih
    have hsize : d.chunkSize = 64 := by simp [chunkSize, hcps]
    have hreceive : d.rx.receive l.rx (d.received spiRxBuf (n + 1)) =
        (d.rx.receive l.rx (d.received spiRxBuf n)).1.footerEnd
          (d.rx.receive l.rx (d.received spiRxBuf n)).2
          (hton32Word (peek spiRxBuf (n * d.chunkStep + 64) 4))
          (fun j => spiRxBuf (n * d.chunkStep + j)) 64 := by
      simp only [RxSide.receive, received, List.range_succ, List.map_append, List.foldl_append,
        List.map_cons, List.map_nil, List.foldl_cons, List.foldl_nil, hsize]
    rw [chunksEnd_succ, hreceive, ← hrx]
    exact chunkEnd_rx hcps' _ spiRxBuf _

/-- The receive side and the size of a chunk are as they were. -/
def SameRx (d d' : MacDevice) : Prop := d'.rx = d.rx ∧ d'.oaCps = d.oaCps

theorem dataStart_sameRx (d : MacDevice) : SameRx d d.dataStart := by
  fun_cases dataStart d with
  | case1 | case2 => exact ⟨rfl, rfl⟩

theorem submitEnd_sameRx (d : MacDevice) : SameRx d d.submitEnd := by
  fun_cases submitEnd d with
  | case1 =>
    fun_cases processTxQueue d with
    | case1 => exact dataStart_sameRx _
    | case2 | case3 => exact ⟨rfl, rfl⟩
  | case2 => exact ⟨rfl, rfl⟩

theorem submitTxBuffer_sameRx (d : MacDevice) (header : UInt16) (pBufDesc : Nat) :
    SameRx d (d.submitTxBuffer header pBufDesc).2 := by
  fun_cases submitTxBuffer d header pBufDesc with
  | case1 | case2 | case3 => exact submitEnd_sameRx d
  | case4 => exact submitEnd_sameRx _

/-- A transaction that has ended is what the receive side sees of a run. -/
theorem dataEnd_rx (hcps : d.oaCps = 6) (spiRxBuf timestampBytes : Nat → UInt8) :
    (d.dataEnd spiRxBuf timestampBytes).oaCps = 6 ∧
      (d.dataEnd spiRxBuf timestampBytes).rx =
        (d.rx.receive { timestampBytes } (d.received spiRxBuf d.trxChunks)).1 := by
  obtain ⟨hcps', hrx⟩ :=
    chunksEnd_rx hcps { rx := { timestampBytes } } spiRxBuf d.trxChunks
  have hfst := congrArg Prod.fst hrx
  unfold dataEnd
  simp only
  split_ifs
  · exact ⟨hcps', hfst⟩
  · exact ⟨hcps', hfst⟩
  · exact ⟨hcps', hfst⟩

/-- The chunks that are received with an event. -/
def heardAt (d : MacDevice) : Event → List RxChunk
  | .dataDone spiRxBuf _ => if d.state = .dataEnd then d.received spiRxBuf d.trxChunks else []
  | _ => []

/-- The chunks that are received in a run. -/
def heard (d : MacDevice) : List Event → List RxChunk
  | [] => []
  | event :: events => d.heardAt event ++ (d.step event).heard events

/-- An event takes the receive side through the chunks received with it. -/
theorem step_rx (hcps : d.oaCps = 6) (event : Event) :
    (d.step event).oaCps = 6 ∧
      ∃ l : RxLocals, l.event = 0 ∧ (d.step event).rx = (d.rx.receive l (d.heardAt event)).1 := by
  have hsame {d' : MacDevice} (h : SameRx d d') : d'.oaCps = 6 ∧
      ∃ l : RxLocals, l.event = 0 ∧ d'.rx = (d.rx.receive l []).1 := by
    obtain ⟨hrx, hcps'⟩ := h
    exact ⟨hcps'.trans hcps, {}, rfl, hrx⟩
  cases event with
  | submit header pBufDesc desc => exact hsame (submitTxBuffer_sameRx _ header pBufDesc)
  | interrupt =>
    simp only [step, oaIrqHandler]
    split_ifs <;> exact hsame ⟨rfl, rfl⟩
  | dataDone spiRxBuf timestampBytes =>
    simp only [step, heardAt]
    split_ifs
    · obtain ⟨hcps', hrx⟩ := dataEnd_rx hcps spiRxBuf timestampBytes
      exact ⟨hcps', { timestampBytes }, rfl, hrx⟩
    · exact hsame ⟨rfl, rfl⟩
  | ctrlDone more =>
    simp only [step, heardAt]
    cases d.state with
    | dataStart => exact hsame (dataStart_sameRx d)
    | ready | controlEnd | dataEnd | irqStart | readStatus | readPhyRegister =>
      exact hsame ⟨rfl, rfl⟩
  | reg event =>
    obtain ⟨state, spiState, irq, pendingCtrl, accesses, heq⟩ := d.regStep_eq event
    have hreg : SameRx d (d.regStep event) := by
      rw [heq]
      exact ⟨rfl, rfl⟩
    exact hsame hreg

/-- Whatever is received, the same buffers stay queued and nothing is written but into them. -/
theorem foldl_keeps (hcps : d.oaCps = 6) (hready : d.rx.Ready) (events : List Event) :
    d.rx.Keeps (events.foldl step d).rx := by
  induction events generalizing d with
  | nil => exact .refl hready
  | cons event events ih =>
    obtain ⟨hcps', l, -, hrx⟩ := step_rx hcps event
    have hkeeps : d.rx.Keeps (d.step event).rx := by
      rw [hrx]
      exact RxSide.receive_keeps hready l _
    exact hkeeps.trans (ih hcps' (hkeeps.ready hready))

/-- The driver receives what the chunks of a run mean. -/
theorem foldl_receives {bufSize : Nat} {fcsCheckEn : Bool} {s : Reassembly Nat UInt8}
    (hcps : d.oaCps = 6) (h : d.rx.Receives bufSize fcsCheckEn s) (hsmall : bufSize < 0x100000000)
    {events : List Event} (hheard : Along RxChunk.means (RxChunk.MayFollow bufSize fcsCheckEn) s
      (d.heard events)) :
    (events.foldl step d).rx.Receives bufSize fcsCheckEn
      ((d.heard events).foldl RxChunk.means s) := by
  induction events generalizing d s with
  | nil => exact h
  | cons event events ih =>
    obtain ⟨hcps', l, hl, hrx⟩ := step_rx hcps event
    obtain ⟨hnow, hlater⟩ := along_append.mp hheard
    have hreceives : (d.step event).rx.Receives bufSize fcsCheckEn
        ((d.heardAt event).foldl RxChunk.means s) := by
      rw [hrx]
      exact RxSide.receive_receives h hsmall hnow hl
    rw [heard, List.foldl_append]
    exact ih hcps' hreceives hlater

theorem init_rx (memory : Nat → Nat → UInt8) : (init memory).rx = RxSide.init memory := by
  simp only [init]

theorem init_oaCps (memory : Nat → Nat → UInt8) : (init memory).oaCps = 6 := rfl

/-- Whatever events happen, and whatever the chunks are that are received, the eight buffers stay
queued, no other descriptor changes and nothing is written behind the end of a buffer. -/
theorem buffers_run (memory : Nat → Nat → UInt8) (events : List Event) :
    (run memory events).rx.buffers.Perm (List.range rxQueueNumEntries) ∧
    (∀ d, rxQueueNumEntries ≤ d →
      (run memory events).rx.descs d = ((init memory).rx.descs d)) ∧
    ∀ d i, maxFrameBufSize ≤ i → ((run memory events).rx.descs d).pBuf i = memory d i := by
  obtain ⟨hreceives, hbuffers, hdescs⟩ := RxSide.init_receives memory
  rw [← init_rx] at hreceives hbuffers hdescs
  have hkeeps := foldl_keeps (init_oaCps memory) hreceives.ready events
  unfold run
  generalize (init memory).rx = r at hbuffers hdescs hkeeps ⊢
  generalize events.foldl step (init memory) = d' at hkeeps ⊢
  refine ⟨?_, fun d hd => ?_, fun d i hi => ?_⟩
  · rw [← hbuffers]
    exact hkeeps.buffers
  · apply hkeeps.others
    rw [hbuffers, List.mem_range]
    omega
  · rw [hkeeps.beyond d i (by rw [hdescs]; exact hi), hdescs]

/-- When the chunks received may follow each other, without timestamps and without a frame that is
given up whole in one chunk, the clients of the driver are called for just the frames that the
chunks mean, in order: each with its port and without its FCS. -/
theorem received_run (memory : Nat → Nat → UInt8) (events : List Event)
    (h : Along RxChunk.means (RxChunk.MayFollow maxFrameBufSize false) Reassembly.init
      ((init memory).heard events)) :
    (run memory events).rx.calls =
      (((init memory).heard events).foldl RxChunk.means Reassembly.init).records.flatMap
        frameCalls := by
  have hreceives := (RxSide.init_receives memory).1
  rw [← init_rx] at hreceives
  exact (foldl_receives (init_oaCps memory) hreceives (by decide) h).calls

/-- A frame of 60 bytes arrives in one chunk. -/
theorem received_run_one : (run (fun _ _ => 0) [.interrupt,
    .dataDone (blit (fun _ => 1) 64 [32, 48, 127, 62]) fun _ => 0]).rx.calls =
      [.dynTblUpdate 0 0 (List.replicate 6 1), .receive 0 1 (List.replicate 60 1)] := by
  have hheard : Along RxChunk.means (RxChunk.MayFollow maxFrameBufSize false) Reassembly.init
      ((init fun _ _ => 0).heard [.interrupt,
        .dataDone (blit (fun _ => 1) 64 [32, 48, 127, 62]) fun _ => 0]) := by
    decide +kernel
  exact (received_run _ _ hheard).trans (by decide +kernel)

end MacDevice

end BmCore.Drivers
