import BmCore.Drivers.RxRuns
import BmCore.Drivers.TxRuns
import Mathlib.Data.List.Induction

/-!
# Two drivers on one cable

The frames that one driver sends go over the cable to the MAC of another one, which cuts them into
chunks again, each frame with its FCS. The clients of the second driver get the frames that clients
of the first one have queued, in order, none of them twice and none changed.
-/
namespace BmCore.Drivers
open Library

/-- A frame that is received, in front of its FCS. -/
def withoutFcs (frame : List UInt8) : List UInt8 := frame.take (frame.length - fcsSize)

/-- The cable carries some of the frames, each with an FCS behind it. -/
structure Carries (sent carried : List (List UInt8)) : Prop where
  frames : (carried.map withoutFcs).Sublist sent
  fcs : ∀ g ∈ carried, fcsSize ≤ g.length

/-- The frame that a client is called for. -/
def RxCall.frame : RxCall → Option (List UInt8)
  | .receive _ _ frame => some frame
  | .dynTblUpdate _ _ _ => none

theorem filterMap_frameCalls (records : List (Nat × List UInt8)) :
    (records.flatMap frameCalls).filterMap RxCall.frame =
      (records.map Prod.snd).map withoutFcs := by
  induction records with
  | nil => rfl
  | cons f records ih =>
    simp only [List.flatMap_cons, List.filterMap_append, ih, List.map_cons]
    rfl

namespace RxChunk

/-- What a chunk with data carries. -/
def chunk (c : RxChunk) : Chunk Nat UInt8 := footerChunk c.footer (peek c.bytes 0 64)

/-- The chunk has no timestamp in it, and no frame is given up at its end. -/
structure Plain (c : RxChunk) : Prop where
  noTimestamp : c.footer.rtsa = false
  kept : ¬(c.footer.ev = true ∧ c.footer.fd = true)

instance (c : RxChunk) : Decidable c.Plain :=
  decidable_of_iff (c.footer.rtsa = false ∧ ¬(c.footer.ev = true ∧ c.footer.fd = true))
    ⟨fun h => ⟨h.1, h.2⟩, fun h => ⟨h.1, h.2⟩⟩

end RxChunk

/-- Frames that are sent in part, or whole, are sound while all of them are. -/
theorem Sound.of_progress {bufSize : Nat} {fcsCheckEn : Bool} {all pending : List (List UInt8)}
    {s : Reassembly Nat UInt8} {off : Nat} (h : Progress all s pending off)
    (hall : ∀ f ∈ all, 12 + fcsSize ≤ f.length ∧ f.length ≤ bufSize ∧
      (fcsCheckEn = true → fcsRight f)) : Sound bufSize fcsCheckEn s := by
  refine ⟨fun f hf => hall f.2 ?_, fun f hf => ?_⟩
  · rw [← h.sent]
    exact List.mem_append_left _ (List.mem_map_of_mem hf)
  · have hopened := h.opened
    rw [Option.mem_def.mp hf, Option.map_some] at hopened
    split_ifs at hopened
    obtain ⟨g, hg, heq⟩ := Option.map_eq_some_iff.mp hopened.symm
    have hmem : g ∈ all := by
      rw [← h.sent]
      exact List.mem_append_right _ (List.mem_of_mem_head? hg)
    have hlength := congrArg List.length heq
    rw [List.length_take] at hlength
    have hle := (hall g hmem).2.1
    omega

/-- Chunks that frames have been cut into may follow each other, and mean the frames. -/
theorem RxChunk.means_cuts {bufSize : Nat} {fcsCheckEn : Bool} {all pending : List (List UInt8)}
    {off : Nat}
    (hall : ∀ f ∈ all, 12 + fcsSize ≤ f.length ∧ f.length ≤ bufSize ∧
      (fcsCheckEn = true → fcsRight f)) {heard : List RxChunk}
    (hplain : ∀ c ∈ heard, c.HasData → c.Plain)
    (hcuts : Cuts all 0 ((heard.filter (·.HasData)).map chunk) pending off) :
    Progress all (heard.foldl means Reassembly.init) pending off ∧
      Along means (MayFollow bufSize fcsCheckEn) Reassembly.init heard := by
  induction heard using List.reverseRecOn generalizing pending off with
  | nil =>
    generalize hcs : (([] : List RxChunk).filter (·.HasData)).map chunk = cs at hcuts
    cases hcuts with
    | nil => exact ⟨.start all, trivial⟩
    | snoc => simp at hcs
  | append_singleton heard c ih =>
    have hplain' : ∀ c ∈ heard, c.HasData → c.Plain :=
      fun c hc => hplain c (List.mem_append_left _ hc)
    rw [List.foldl_append, along_append]
    by_cases hdata : c.HasData
    · rw [List.filter_append, List.filter_singleton, decide_eq_true hdata, List.map_append] at hcuts
      obtain ⟨pending₁, off₁, hcuts₁, hcut⟩ := hcuts.of_concat
      obtain ⟨hprogress, halong⟩ := ih hplain' hcuts₁
      obtain ⟨hrtsa, hkept⟩ := hplain c (by simp) hdata
      have hmeans (s : Reassembly Nat UInt8) : c.means s = s.step c.chunk := by
        rw [means, if_pos hdata, dataMeans, if_neg hkept, chunk]
      have hstep := hprogress.step hcut
      refine ⟨?_, halong, fun _ => ⟨hrtsa, ?_, ?_⟩, trivial⟩
      · simpa [hmeans] using hstep
      · rw [if_neg hkept]
        exact hprogress.fits hcut
      · rw [dataMeans, if_neg hkept]
        exact .of_progress hstep hall
    · rw [List.filter_append, List.filter_singleton, decide_eq_false hdata] at hcuts
      obtain ⟨hprogress, halong⟩ := ih hplain' (by simpa using hcuts)
      refine ⟨?_, halong, fun h => absurd h hdata, trivial⟩
      simpa [means, hdata] using hprogress

theorem parityOk_of_good {word : UInt32} (h : checkFooter word = .good) : parityOk word = true := by
  unfold checkFooter at h
  split_ifs at h with hbad hparity hsync
  simpa using hparity

/-- The error of a footer whose parity is wrong is counted, as one of the header that the MAC has
got if the footer is the word for that. -/
def RxSide.countParity (r : RxSide) (word : UInt32) : RxSide :=
  let stats := r.oaErrorStats
  if word = oaHeaderBad then
    { r with oaErrorStats := { stats with hdrParityErrorCount := stats.hdrParityErrorCount + 1 } }
  else
    { r with oaErrorStats := { stats with ftrParityErrorCount := stats.ftrParityErrorCount + 1 } }

/-- From a footer whose parity is wrong the driver takes nothing. -/
theorem RxSide.footerEnd_of_parity (r : RxSide) (l : RxLocals) {word : UInt32}
    (hparity : parityOk word = false) (chunk : Nat → UInt8) (chunkSize : Nat) :
    r.footerEnd l word chunk chunkSize = (r.countParity word, l) := by
  have hcheck : checkFooter word = if word = oaHeaderBad then .headerBad else .parityBad := by
    simp only [checkFooter, hparity, Bool.not_false, if_true]
  unfold footerEnd countParity
  rw [hcheck]
  split_ifs <;> rfl

/-- Whatever the bit is that has been flipped in a header or in a footer: the MAC takes no chunk
from such a header, and the driver takes nothing from such a footer, neither data nor credit nor the
end of a frame that it has sent, but counts it as one error. -/
theorem single_bit_error {i : Nat} (hi : i < 32) (h : OaTxHeader) (payload : List UInt8)
    (d : MacDevice) (l : OaLocals) (spiRxBuf : Nat → UInt8) (chunkStart : Nat) {word : UInt32}
    (hgood : checkFooter word = .good)
    (hflipped : hton32Word (peek spiRxBuf (chunkStart + d.chunkSize) 4) =
      UInt32.ofNat (word.toNat ^^^ 2 ^ i)) :
    macChunk (hton32Bytes (UInt32.ofNat (h.setParity.value32.toNat ^^^ 2 ^ i)) ++ payload) = none ∧
    d.chunkEnd l spiRxBuf chunkStart =
      ({ d with rx := d.rx.countParity (UInt32.ofNat (word.toNat ^^^ 2 ^ i)) },
        { l with sync := (OaRxFooter.ofValue32 (UInt32.ofNat (word.toNat ^^^ 2 ^ i))).sync }) := by
  have hheader := parityOk_flip h.parityOk_setParity hi
  have hfooter := parityOk_flip (parityOk_of_good hgood) hi
  generalize UInt32.ofNat (h.setParity.value32.toNat ^^^ 2 ^ i) = header at hheader ⊢
  generalize UInt32.ofNat (word.toNat ^^^ 2 ^ i) = footer at hfooter hflipped ⊢
  constructor
  · have htake : (hton32Bytes header ++ payload).take adiSpiHeaderSize = hton32Bytes header :=
      List.take_left' (hton32Bytes_length header)
    rw [macChunk, htake, hton32Word_bytes, hheader, if_neg (by simp)]
  · have hbad : checkFooter footer ≠ .good := by
      intro hok
      rw [parityOk_of_good hok] at hfooter
      cases hfooter
    simp only [MacDevice.chunkEnd, hflipped, if_neg hbad, RxSide.footerEnd_of_parity _ _ hfooter]

/-- The top bit is flipped in the header of a chunk that holds a frame and in a footer that says
that a frame has come and that there is room. -/
theorem single_bit_error_top :
    macChunk (hton32Bytes (UInt32.ofNat ((OaTxHeader.setParity
      { dnc := true, dv := true, sv := true, ev := true, ebo := 59 }).value32.toNat ^^^ 2 ^ 31)) ++
        List.replicate 64 1) = none ∧
    ∀ d', d' = ((MacDevice.init fun _ _ => 0).chunkEnd {} (blit (fun _ => 1) 64
        [160, 48, 127, 62]) 0).1 →
      d'.rx.oaErrorStats.ftrParityErrorCount = 1 ∧ d'.rx.calls = [] ∧ d'.oaTxc = 31 := by
  have hgood : checkFooter 540049214 = .good := by decide +kernel
  have hflipped : hton32Word (peek (blit (fun _ => 1) 64 [160, 48, 127, 62])
      (0 + (MacDevice.init fun _ _ => 0).chunkSize) 4) =
        UInt32.ofNat ((540049214 : UInt32).toNat ^^^ 2 ^ 31) := by decide +kernel
  obtain ⟨hheader, hfooter⟩ := single_bit_error (i := 31) (by decide)
    { dnc := true, dv := true, sv := true, ev := true, ebo := 59 } (List.replicate 64 1)
    (MacDevice.init fun _ _ => 0) {} (blit (fun _ => 1) 64 [160, 48, 127, 62]) 0 hgood hflipped
  refine ⟨hheader, ?_⟩
  rintro _ rfl
  rw [hfooter]
  decide +kernel

namespace MacDevice
variable {d : MacDevice}

theorem dataStart_queued (d : MacDevice) : d.dataStart.queued = d.queued := by
  fun_cases dataStart d with
  | case1 | case2 => rfl

theorem chunkEnd_queued (d : MacDevice) (l : OaLocals) (spiRxBuf : Nat → UInt8) (i : Nat) :
    (d.chunkEnd l spiRxBuf i).1.queued = d.queued := by
  simp only [chunkEnd, txDone]
  split_ifs <;> rfl

theorem dataEnd_queued (d : MacDevice) (spiRxBuf timestampBytes : Nat → UInt8) :
    (d.dataEnd spiRxBuf timestampBytes).queued = d.queued := by
  have hchunks (n : Nat) (l : OaLocals) : (d.chunksEnd l spiRxBuf n).1.queued = d.queued := by
    induction n with
    | zero => rfl
    | succ n ih =>
      rw [chunksEnd_succ, chunkEnd_queued]
      exact ih
  simp only [dataEnd]
  split_ifs <;> exact hchunks _ _

theorem submitEnd_queued (d : MacDevice) : d.submitEnd.queued = d.queued := by
  fun_cases submitEnd d with
  | case1 =>
    fun_cases processTxQueue d with
    | case1 => exact dataStart_queued _
    | case2 | case3 => rfl
  | case2 => rfl

/-- With an event at most one frame is queued. -/
theorem step_queued (d : MacDevice) (event : Event) :
    (d.step event).queued = d.queued ∨
      ∃ f, (d.step event).queued = d.queued ++ [f] ∧ minFrameSize ≤ f.length ∧
        (d.rx.fcsCheckEn = false → f.length ≤ maxFrameSize) := by
  cases event with
  | submit header pBufDesc desc =>
    unfold step
    simp only
    fun_cases submitTxBuffer { d with tx := { d.tx with
      descs := Function.update d.tx.descs pBufDesc desc } } header pBufDesc with
    | case1 | case2 | case3 => exact .inl (submitEnd_queued _)
    | case4 desc' hsize hfcs hroom fcs desc'' =>
      refine .inr ⟨desc''.frame, submitEnd_queued _, ?_⟩
      rw [BufDesc.frame_length]
      simp only [desc'', fcsSize]
      split_ifs with hen
      · simp only [hen, Bool.true_eq_false, false_implies, and_true]
        omega
      · exact ⟨by omega, fun _ => by omega⟩
  | interrupt =>
    simp only [step, oaIrqHandler]
    split_ifs <;> exact .inl rfl
  | dataDone spiRxBuf timestampBytes =>
    simp only [step]
    split_ifs
    · exact .inl (dataEnd_queued _ _ _)
    · exact .inl rfl
  | ctrlDone more =>
    simp only [step]
    cases d.state with
    | dataStart => exact .inl (dataStart_queued d)
    | ready | controlEnd | dataEnd | irqStart | readStatus | readPhyRegister => exact .inl rfl
  | reg event =>
    obtain ⟨state, spiState, irq, pendingCtrl, accesses, heq⟩ := d.regStep_eq event
    refine .inl ?_
    change (d.regStep event).queued = _
    rw [heq]

/-- Every frame that is queued has the size of one without its FCS. -/
theorem queued_sizes (memory : Nat → Nat → UInt8) (events : List Event) :
    ∀ f ∈ (run memory events).queued, minFrameSize ≤ f.length ∧ f.length ≤ maxFrameSize := by
  have hstep : ∀ (d : MacDevice) (event : Event),
      (d.oaCps = 6 ∧ d.rx.Ready ∧ d.rx.fcsCheckEn = false ∧
        ∀ f ∈ d.queued, minFrameSize ≤ f.length ∧ f.length ≤ maxFrameSize) → True →
      (d.step event).oaCps = 6 ∧ (d.step event).rx.Ready ∧ (d.step event).rx.fcsCheckEn = false ∧
        ∀ f ∈ (d.step event).queued, minFrameSize ≤ f.length ∧ f.length ≤ maxFrameSize := by
    rintro d event ⟨hcps, hready, hfcs, hsizes⟩ -
    obtain ⟨hcps', l, -, hrx⟩ := step_rx hcps event
    have hkeeps := RxSide.receive_keeps hready l (d.heardAt event)
    rw [← hrx] at hkeeps
    refine ⟨hcps', hkeeps.ready hready, hkeeps.fcsCheckEn.trans hfcs, ?_⟩
    rcases step_queued d event with hsame | ⟨g, hqueued, hmin, hmax⟩
    · rwa [hsame]
    · intro f hf
      rw [hqueued, List.mem_append, List.mem_singleton] at hf
      rcases hf with hf | rfl
      · exact hsizes f hf
      · exact ⟨hmin, hmax hfcs⟩
  have hreceives := (RxSide.init_receives memory).1
  have hqueued : (init memory).queued = [] := rfl
  rw [← init_rx] at hreceives
  have hinit : (init memory).oaCps = 6 ∧ (init memory).rx.Ready ∧
      (init memory).rx.fcsCheckEn = false ∧
      ∀ f ∈ (init memory).queued, minFrameSize ≤ f.length ∧ f.length ≤ maxFrameSize := by
    refine ⟨init_oaCps memory, hreceives.ready, hreceives.fcs, ?_⟩
    rw [hqueued]
    simp
  exact (foldl_invariant hstep hinit (along_of_forall (fun _ _ => trivial) _ events)).2.2.2

/-- Whatever else happens to the two drivers: while the chunks of the first one are accepted and no
descriptor is changed in its queue, the cable carries some of the frames that it has sent, and the
second one hears chunks that these have been cut into, the clients of the second one are called for
the frames that have arrived, in order; each of them has been queued by a client of the first
one. -/
theorem link_run (memory memory' : Nat → Nat → UInt8) (events events' : List Event)
    (h : Conforming memory events) {carried pending : List (List UInt8)} {off : Nat}
    (hcarried : Carries ((Reassembly.decode
      ((run memory events).wire.filterMap macChunk)).records.map Prod.snd) carried)
    (hplain : ∀ c ∈ (init memory').heard events', c.HasData → c.Plain)
    (hcuts : Cuts carried 0 ((((init memory').heard events').filter (·.HasData)).map RxChunk.chunk)
      pending off) :
    ((run memory' events').rx.calls.filterMap RxCall.frame) ++ pending.map withoutFcs =
        carried.map withoutFcs ∧
      ((run memory' events').rx.calls.filterMap RxCall.frame).Sublist
        (run memory events).queued := by
  have hsent := (run_good memory events h).sent.progress.sent
  have hqueued := queued_sizes memory events
  have hsizes : ∀ g ∈ carried, 12 + fcsSize ≤ g.length ∧ g.length ≤ maxFrameBufSize ∧
      (false = true → fcsRight g) := by
    intro g hg
    have hmem := hcarried.frames.mem (List.mem_map_of_mem hg)
    have hsize := hqueued (withoutFcs g) (by rw [← hsent]; exact List.mem_append_left _ hmem)
    have hfcs := hcarried.fcs g hg
    simp only [withoutFcs, List.length_take, minFrameSize, maxFrameSize, fcsSize] at hsize hfcs
    refine ⟨?_, ?_, by simp⟩
    · simp only [fcsSize]
      omega
    · simp only [maxFrameBufSize]
      omega
  obtain ⟨hprogress, halong⟩ := RxChunk.means_cuts hsizes hplain hcuts
  have hreceives := (RxSide.init_receives memory').1
  rw [← init_rx] at hreceives
  have hcalls := (foldl_receives (init_oaCps memory') hreceives (by decide) halong).calls
  have hframes : (run memory' events').rx.calls.filterMap RxCall.frame ++ pending.map withoutFcs =
      carried.map withoutFcs := by
    rw [run, hcalls, filterMap_frameCalls, ← List.map_append, hprogress.sent]
  refine ⟨hframes, ?_⟩
  rw [← hsent]
  refine .trans ?_ ((hcarried.frames).trans (List.sublist_append_left _ _))
  rw [← hframes]
  exact List.sublist_append_left _ _

/-- A frame of 60 bytes goes from one client to the other in one chunk. -/
theorem link_run_one : (run (fun _ _ => 0) [.interrupt,
    .dataDone (blit (fun _ => 1) 64 [32, 48, 127, 62]) fun _ => 0]).rx.calls.filterMap
      RxCall.frame = [List.replicate 60 1] := by
  have hconforming : Conforming (fun _ _ => 0)
      [.submit 0 0 { pBuf := fun _ => 1, bufSize := 60, trxSize := 60 }] :=
    ⟨.inl (by simp [init]), trivial⟩
  have hcarried : Carries ((Reassembly.decode ((run (fun _ _ => 0)
      [.submit 0 0 { pBuf := fun _ => 1, bufSize := 60, trxSize := 60 }]).wire.filterMap
        macChunk)).records.map Prod.snd) [List.replicate 64 1] :=
    ⟨by decide +kernel, by decide +kernel⟩
  have hplain : ∀ c ∈ (init fun _ _ => 0).heard [.interrupt,
      .dataDone (blit (fun _ => 1) 64 [32, 48, 127, 62]) fun _ => 0], c.HasData → c.Plain := by
    decide +kernel
  have hchunks : (((init fun _ _ => 0).heard [.interrupt,
      .dataDone (blit (fun _ => 1) 64 [32, 48, 127, 62]) fun _ => 0]).filter (·.HasData)).map
        RxChunk.chunk = [⟨0, some 0, some 63, List.replicate 64 1⟩] := by
    decide +kernel
  have hcuts : Cuts [List.replicate 64 1] 0 ((((init fun _ _ => 0).heard [.interrupt,
      .dataDone (blit (fun _ => 1) 64 [32, 48, 127, 62]) fun _ => 0]).filter (·.HasData)).map
        RxChunk.chunk) [] 0 := by
    rw [hchunks]
    exact .snoc .nil (.whole rfl rfl (by decide) (by decide) (by decide) (by decide))
  exact (List.append_nil _).symm.trans
    (link_run _ _ _ _ hconforming hcarried hplain hcuts).1

end MacDevice

end BmCore.Drivers
