import BmCore.Bcmp.Packet
import BmCore.Library.Runs

/-!
# Requests and their callbacks

The threads of a node around the sequence list: senders that add requests, the receiving thread
that looks a request up in one section and takes it out in another, and the timer that expires
requests. A run is any interleaving of the sections. Every request is numbered, and its number
stands for its callback, so that the calls say which request they are for.

As long as the timer does not expire the request that the receiving thread has found, the callback
of every request is called once by the time the request is gone.
-/
namespace BmCore.Bcmp
open Library LL

variable {Handler : Type}

/-- The receiving thread: outside `process_received_message`, or behind one of its sections. -/
inductive Receiver (Handler : Type) where
  | idle
  | found (element : Nat) (cfg : BcmpPacketCfg Handler) (data : BcmpProcessData)
  | took (cb : Option Nat) (cfg : BcmpPacketCfg Handler) (data : BcmpProcessData)

/-- The packet module of a node, with the calls it has made and the requests with a callback that
were added to the sequence list. -/
structure System (Handler : Type) where
  packet : PacketInfo Handler Nat
  receiver : Receiver Handler
  calls : List (Call Handler Nat)
  requests : Nat
  added : List Nat

/-- A section of one of the threads. -/
inductive Action where
  | serialize (taken : Bool) (node : Option Nat) (now : UInt32) (packet : Packet)
      (data : List UInt8) (type : UInt16) (seqNum : UInt32) (withCb : Bool)
  | receive (taken : Bool) (packet : Packet) (size : Nat)
  | take (taken : Bool)
  | call
  | timer (taken : Bool) (now : BcmpRequestElement Nat → UInt32)

/-- `serialize` of this type puts a request into the sequence list. -/
def addsRequest (p : PacketInfo Handler Nat) (taken : Bool) (node : Option Nat)
    (type : UInt16) : Bool :=
  match p.packetList.getItem type.toUInt32 with
  | some (some cfg) =>
    p.initialized && !cfg.sequencedReply && cfg.sequencedRequest && taken && node.isSome
  | _ => false

/-- One section; without a result a pointer was followed to memory that is no longer in use. -/
def System.step (s : System Handler) : Action → Option (System Handler)
  | .serialize taken node now packet data type seqNum withCb => do
    let (p, _, _) ← Bcmp.serialize s.packet taken node now packet data type seqNum
      (if withCb then some s.requests else none)
    let added := if addsRequest s.packet taken node type && withCb then s.added ++ [s.requests]
      else s.added
    some { s with packet := p, requests := s.requests + 1, added }
  | .receive taken packet size =>
    match s.receiver, Bcmp.receive s.packet packet size with
    | .idle, .ok data => do
      match ← s.packet.packetList.getItem data.type.toUInt32 with
      | none => some s
      | some cfg =>
        if cfg.isReply then do
          match ← sequenceListFindMessage s.packet taken data.seqNum with
          | some element => some { s with receiver := .found element cfg data }
          | none => some { s with receiver := .took none cfg data }
        else some { s with receiver := .took none cfg data }
    | _, _ => some s
  | .take taken =>
    match s.receiver with
    | .found element cfg data => do
      let (p, cb) ← takeMessage s.packet taken element data.seqNum
      some { s with packet := p, receiver := .took cb cfg data }
    | _ => some s
  | .call =>
    match s.receiver with
    | .took cb cfg data =>
      some { s with receiver := .idle, calls := s.calls ++ (deliver cfg cb data).toList }
    | _ => some s
  | .timer taken now => do
    let (p, calls) ← sequenceListTimerCallback s.packet taken now
    some { s with packet := p, calls := s.calls ++ calls }

def runStep (s : Option (System Handler)) (a : Action) : Option (System Handler) :=
  s.bind (·.step a)

def System.init (p : PacketInfo Handler Nat) : System Handler := ⟨p, .idle, [], 0, []⟩

/-- Without other threads in between, the sections of the receiving thread are
`process_received_message`. -/
theorem process_sections (s : System Handler) (hidle : s.receiver = .idle)
    (takenFind takenTake : Bool) (packet : Packet) (size : Nat) :
    [Action.receive takenFind packet size, .take takenTake, .call].foldl runStep (some s) =
      (processReceivedMessage s.packet takenFind takenTake packet size).map fun (p, _, call) =>
        { s with packet := p, calls := s.calls ++ call.toList } := by
  obtain ⟨p, receiver, calls, requests, added⟩ := s
  obtain rfl : receiver = .idle := hidle
  simp only [List.foldl_cons, List.foldl_nil, runStep, Option.bind_some, System.step,
    processReceivedMessage]
  cases receive p packet size with
  | error err => simp
  | ok data =>
    simp only [dispatch]
    cases p.packetList.getItem data.type.toUInt32 with
    | none => simp
    | some cfg =>
      simp only [Option.bind_eq_bind, Option.bind_some]
      cases cfg with
      | none => simp
      | some cfg =>
        cases hreply : cfg.isReply with
        | false => simp [hreply]
        | true =>
          cases hfind : sequenceListFindMessage p takenFind data.seqNum with
          | none => simp [hreply]
          | some element =>
            cases element with
            | none => simp [hreply]
            | some element =>
              cases htake : takeMessage p takenTake element data.seqNum with
              | none => simp [hreply, htake]
              | some r => simp [hreply, htake]

/-! ## What the runs must not do -/

/-- Address, number and element of a pending request. -/
abbrev Pending := Nat × UInt32 × BcmpRequestElement Nat

/-- The list without the first item that has the number. -/
def removed (ll : LL (BcmpRequestElement Nat)) (seqNum : UInt32) : LL (BcmpRequestElement Nat) :=
  ((ll.remove seqNum).map Prod.fst).getD ll

/-- The numbers of the elements the timer expires, in the order of the list. -/
def expiredNums (now : BcmpRequestElement Nat → UInt32) (pending : List Pending) : List UInt32 :=
  (pending.filter fun v => v.2.2.expired (now v.2.2)).map (·.2.1)

/-- The timer runs without making a stale back pointer the tail of the list. -/
def TimerLinksOk (ll : LL (BcmpRequestElement Nat)) (now : BcmpRequestElement Nat → UInt32) :
    Prop :=
  Along removed (fun ll seqNum => ll.backPointerOk seqNum = true) { ll with cursor := none }
    (expiredNums now (ll.entries.map view))

instance (ll : LL (BcmpRequestElement Nat)) (now : BcmpRequestElement Nat → UInt32) :
    Decidable (TimerLinksOk ll now) := inferInstanceAs (Decidable (Along _ _ _ _))

/-- The element that the receiving thread has found is not expired by this run of the timer. -/
def sparesFound (s : System Handler) (now : BcmpRequestElement Nat → UInt32) : Bool :=
  match s.receiver with
  | .found element _ _ =>
    (s.packet.sequenceList.heap.lookup element).all fun item => !item.data.expired (now item.data)
  | _ => true

/-- The condition on a section: a request is allocated in unused memory and its number is not
pending, the timer does not expire the element that the receiving thread has found, and no removal
makes a stale back pointer the tail of the list. -/
def stepOk (s : System Handler) : Action → Bool
  | .serialize taken node _ _ _ type _ _ => !addsRequest s.packet taken node type ||
    (node.all fun n => (s.packet.sequenceList.heap.lookup n).isNone) &&
      s.packet.sequenceList.getPtr s.packet.messageCount == some none
  | .take taken =>
    match s.receiver with
    | .found _ _ data => !taken || s.packet.sequenceList.backPointerOk data.seqNum
    | _ => true
  | .timer taken now =>
    !taken || sparesFound s now && decide (TimerLinksOk s.packet.sequenceList now)
  | _ => true

/-- The condition on a section of a run. -/
def RunOk (s : Option (System Handler)) (a : Action) : Prop := s.all (stepOk · a) = true

instance (s : Option (System Handler)) (a : Action) : Decidable (RunOk s a) :=
  inferInstanceAs (Decidable (_ = _))

/-! ## The invariant -/

/-- The request a call is for. -/
def Call.requester : Call Handler Nat → Option Nat
  | .process _ _ => none
  | .reply cb _ => some cb
  | .expired cb => some cb

/-- The callback that the receiving thread is about to call. -/
def Receiver.held : Receiver Handler → Option Nat
  | .took cb _ _ => cb
  | _ => none

/-- Requests that were called, that are about to be called and that are pending. -/
def System.accounted (s : System Handler) (pending : List Pending) : List Nat :=
  s.calls.filterMap Call.requester ++ s.receiver.held.toList ++ pending.filterMap (·.2.2.cb)

structure System.Inv (s : System Handler) (pending : List Pending) : Prop where
  packets : ∃ ps, Linked s.packet.packetList ps
  linked : ∃ es, Linked s.packet.sequenceList es ∧ es.map view = pending
  nums : (pending.map (·.2.1)).Nodup
  keyed : ∀ v ∈ pending, v.2.1 = v.2.2.seqNum
  found : ∀ element cfg data, s.receiver = .found element cfg data →
    ∃ v ∈ pending, v.1 = element ∧ v.2.1 = data.seqNum
  perm : (s.accounted pending).Perm s.added
  fresh : ∀ n ∈ s.added, n < s.requests
  nodup : s.added.Nodup

/-! ## The timer -/

/-- The calls of the timer. -/
def expiredCalls (now : BcmpRequestElement Nat → UInt32) (pending : List Pending) :
    List (Call Handler Nat) :=
  (pending.filter fun v => v.2.2.expired (now v.2.2)).flatMap fun v =>
  (v.2.2.cb.map .expired).toList

/-- The requests the timer leaves. -/
def survivors (now : BcmpRequestElement Nat → UInt32) (pending : List Pending) : List Pending :=
  pending.filter fun v => !v.2.2.expired (now v.2.2)

section Timer
variable {now : BcmpRequestElement Nat → UInt32} {ll : LL (BcmpRequestElement Nat)}

theorem expiredNums_cons (v : Pending) (rest : List Pending) : expiredNums now (v :: rest) =
    (if v.2.2.expired (now v.2.2) then [v.2.1] else []) ++ expiredNums now rest := by
  unfold expiredNums
  rw [List.filter_cons]
  split <;> rfl

theorem expiredCalls_cons (v : Pending) (rest : List Pending) :
    (expiredCalls now (v :: rest) : List (Call Handler Nat)) =
      (if v.2.2.expired (now v.2.2) then (v.2.2.cb.map .expired).toList else []) ++
        expiredCalls now rest := by
  unfold expiredCalls
  rw [List.filter_cons]
  split <;> simp

theorem survivors_cons (v : Pending) (rest : List Pending) : survivors now (v :: rest) =
    (if v.2.2.expired (now v.2.2) then [] else [v]) ++ survivors now rest := by
  unfold survivors
  rw [List.filter_cons]
  cases v.2.2.expired (now v.2.2) <;> rfl

/-- The links stay in order along the removals `nums`. -/
def LinksOk (ll : LL (BcmpRequestElement Nat)) (nums : List UInt32) : Prop :=
  Along removed (fun ll seqNum => ll.backPointerOk seqNum = true) { ll with cursor := none } nums

/-- One request: it is kept, or called and removed. -/
theorem timerRound {es : List (Entry (BcmpRequestElement Nat))} {seen : List Pending} {v : Pending}
    {rest : List Pending} (h : Linked ll es) (hes : es.map view = seen ++ v :: rest)
    (hnums : ((seen ++ v :: rest).map (·.2.1)).Nodup)
    (hkeyed : ∀ u ∈ seen ++ v :: rest, u.2.1 = u.2.2.seqNum)
    (hat : (ll.cursor <|> ll.head) = some v.1)
    (hok : LinksOk ll (expiredNums now (v :: rest))) (calls : List (Call Handler Nat)) :
    ∃ ll₁ ll' es', ll.advanceCursor = some (ll₁, some v.2.2) ∧
      timerTraverseCb now ll₁ calls v.2.2 = some (.ok, ll', calls ++
        if v.2.2.expired (now v.2.2) then (v.2.2.cb.map .expired).toList else []) ∧
      ll'.cursor = rest.head?.map Prod.fst ∧ Linked ll' es' ∧
      es'.map view = (seen ++ if v.2.2.expired (now v.2.2) then [] else [v]) ++ rest ∧
      LinksOk ll' (expiredNums now rest) := by
  obtain ⟨pre, es₂, rfl, hpre, hes₂⟩ := List.map_eq_append_iff.mp hes
  obtain ⟨e, post, rfl, rfl, hpost⟩ := List.map_eq_cons_iff.mp hes₂
  have hcursor : post.head?.map Prod.fst = rest.head?.map Prod.fst := by
    rw [← hpost]
    cases post <;> rfl
  have hadvance := advanceCursor_at h.walkable hat
  have hlinked₁ := h.withCursor (post.head?.map Prod.fst)
  generalize hll₁ : ({ ll with cursor := post.head?.map Prod.fst } : LL _) =
    ll₁ at hadvance hlinked₁
  have hcur₁ : ll₁.cursor = rest.head?.map Prod.fst := by
    rw [← hll₁]
    exact hcursor
  cases hexp : (view e).2.2.expired (now (view e).2.2) with
  | false =>
    refine ⟨ll₁, ll₁, _, hadvance, ?_, hcur₁, hlinked₁, ?_, ?_⟩
    · rw [timerTraverseCb, if_neg (by simpa using hexp)]
      simp
    · simp [hpre, hpost]
    · rw [expiredNums_cons, hexp] at hok
      rw [← hll₁]
      exact hok
  | true =>
    rw [expiredNums_cons, hexp] at hok
    have hnum : (view e).2.1 = (view e).2.2.seqNum := hkeyed _ (by simp)
    have hid : ∀ f ∈ pre, f.2.id ≠ (view e).2.1 := by
      intro f hf heq
      rw [List.map_append, ← hpre] at hnums
      refine (List.nodup_append.mp hnums).2.2 f.2.id ?_ (view e).2.1 (by simp) heq
      exact List.mem_map.mpr ⟨view f, List.mem_map_of_mem hf, rfl⟩
    have hback : ll₁.backPointerOk (view e).2.1 = true := by
      rw [← hll₁]
      exact hok.1
    obtain ⟨ll', hremove, hcur, hlinked'⟩ := remove_found hlinked₁ hid rfl
    obtain ⟨es', hlinked', hview⟩ := hlinked' hback
    refine ⟨ll₁, ll', es', hadvance, ?_, hcur.trans hcur₁, hlinked', ?_, ?_⟩
    · rw [timerTraverseCb, if_pos hexp, ← hnum, hremove]
      simp
    · rw [hview]
      simp [hpre, hpost]
    · have hnext : removed { ll with cursor := none } (view e).2.1 =
          { ll' with cursor := none } := by
        have hbase : ({ ll with cursor := none } : LL _) = { ll₁ with cursor := none } := by
          rw [← hll₁]
        rw [hbase, removed, remove_withCursor, hremove]
        rfl
      have hrest := hok.2
      rw [hnext] at hrest
      exact hrest

/-- From a request on, the timer expires what is due and keeps the rest. -/
theorem timerLoop {es : List (Entry (BcmpRequestElement Nat))} {seen : List Pending} {v : Pending}
    {rest : List Pending} (h : Linked ll es) (hes : es.map view = seen ++ v :: rest)
    (hnums : ((seen ++ v :: rest).map (·.2.1)).Nodup)
    (hkeyed : ∀ u ∈ seen ++ v :: rest, u.2.1 = u.2.2.seqNum)
    (hat : (ll.cursor <|> ll.head) = some v.1)
    (hok : LinksOk ll (expiredNums now (v :: rest)))
    {fuel : Nat} (hfuel : rest.length < fuel) (calls : List (Call Handler Nat)) :
    ∃ ret ll' es', traverseLoop (timerTraverseCb now) fuel ll calls =
        some (ret, ll', calls ++ expiredCalls now (v :: rest)) ∧ Linked ll' es' ∧
      es'.map view = seen ++ survivors now (v :: rest) := by
  induction rest generalizing ll es seen v fuel calls with
  | nil =>
    obtain ⟨fuel, rfl⟩ := Nat.exists_eq_succ_of_ne_zero (Nat.ne_of_gt hfuel)
    obtain ⟨ll₁, ll', es', hadvance, hround, hcursor, hlinked, hview, -⟩ :=
      timerRound h hes hnums hkeyed hat hok calls
    refine ⟨.ok, ll', es', ?_, hlinked, ?_⟩
    · rw [traverseLoop, hadvance, expiredCalls_cons]
      simp only [Option.bind_eq_bind, Option.bind_some, hround, hcursor]
      simp [expiredCalls]
    · rw [hview, survivors_cons]
      simp [survivors]
  | cons w rest ih =>
    obtain ⟨fuel, rfl⟩ := Nat.exists_eq_succ_of_ne_zero (Nat.ne_of_gt (Nat.zero_lt_of_lt hfuel))
    obtain ⟨ll₁, ll', es', hadvance, hround, hcursor, hlinked, hview, hlinks⟩ :=
      timerRound h hes hnums hkeyed hat hok calls
    have hsub : ((seen ++ if v.2.2.expired (now v.2.2) then [] else [v]) ++ w :: rest).Sublist
        (seen ++ v :: w :: rest) := by
      split <;> simp
    have hat' : (ll'.cursor <|> ll'.head) = some w.1 := by
      rw [hcursor]
      rfl
    obtain ⟨ret, ll'', es'', hloop, hlinked'', hview''⟩ :=
      ih hlinked hview ((hsub.map _).nodup hnums)
      (fun u hu => hkeyed u (hsub.subset hu)) hat' hlinks
        (Nat.lt_of_succ_lt_succ hfuel) _
    refine ⟨ret, ll'', es'', ?_, hlinked'', ?_⟩
    · rw [traverseLoop, hadvance, expiredCalls_cons, ← List.append_assoc, ← hloop]
      simp only [Option.bind_eq_bind, Option.bind_some, hround, hcursor]
      simp
    · rw [hview'', survivors_cons v, List.append_assoc]

/-- The timer expires what is due and keeps the rest. -/
theorem timerCallback_expires {p : PacketInfo Handler Nat}
    {es : List (Entry (BcmpRequestElement Nat))} {pending : List Pending}
    (h : Linked p.sequenceList es) (hes : es.map view = pending)
    (hnums : (pending.map (·.2.1)).Nodup) (hkeyed : ∀ v ∈ pending, v.2.1 = v.2.2.seqNum)
    (hok : TimerLinksOk p.sequenceList now) :
    ∃ ll' es', sequenceListTimerCallback p true now =
        some ({ p with sequenceList := ll' }, expiredCalls now pending) ∧ Linked ll' es' ∧
      es'.map view = survivors now pending := by
  unfold TimerLinksOk at hok
  rw [h.entries_eq, hes] at hok
  unfold sequenceListTimerCallback LL.traverse
  cases pending with
  | nil =>
    obtain rfl : es = [] := by simpa using hes
    have hhead : p.sequenceList.head = none := h.chain
    refine ⟨{ p.sequenceList with cursor := none }, [], ?_, h.withCursor none, rfl⟩
    simp [traverseLoop, advanceCursor, hhead, expiredCalls]
  | cons v rest =>
    have hhead : p.sequenceList.head = some v.1 := by
      obtain ⟨e, es, rfl, rfl, -⟩ := List.map_eq_cons_iff.mp hes
      exact h.chain.1
    have hlen := h.walkable.length_le
    have hsame : es.length = rest.length + 1 := by
      simpa using congrArg List.length hes
    have hseen : es.map view = [] ++ v :: rest := hes
    obtain ⟨ret, ll', es', hloop, hlinked, hview⟩ :=
      timerLoop (h.withCursor none) hseen hnums hkeyed hhead hok
        (by omega : rest.length < p.sequenceList.fuel + 1) []
    refine ⟨ll', es', ?_, hlinked, hview⟩
    rw [if_pos rfl, hloop]
    simp

end Timer

/-! ## The steps keep the invariant -/

theorem serialize_of_sequence {p p' : PacketInfo Handler Nat} {cfg : BcmpPacketCfg Handler}
    {taken : Bool} {node : Option Nat} {now : UInt32} {type : UInt16} {cb : Option Nat}
    (hinit : p.initialized = true) (hcfg : p.packetList.getItem type.toUInt32 = some (some cfg))
    (hseq : serializeSequence p cfg taken node now type cb = some p') (packet : Packet)
    (data : List UInt8) (seqNum : UInt32) :
    ∃ packet', serialize p taken node now packet data type seqNum cb =
      some (p', packet', .ok) := by
  unfold serialize
  rw [if_neg (by simp [hinit]), hcfg]
  simp only [Option.bind_eq_bind, Option.bind_some, hseq]
  exact ⟨_, rfl⟩

/-- `serialize` leaves the sequence list alone, or adds the request behind the others. -/
theorem serialize_sequence {p : PacketInfo Handler Nat} (hpackets : ∃ ps, Linked p.packetList ps)
    (taken : Bool) (node : Option Nat) (now : UInt32) (packet : Packet) (data : List UInt8)
    (type : UInt16) (seqNum : UInt32) (cb : Option Nat) :
    (addsRequest p taken node type = false ∧ ∃ p' packet' err,
      serialize p taken node now packet data type seqNum cb = some (p', packet', err) ∧
      p'.sequenceList = p.sequenceList ∧ p'.packetList = p.packetList) ∨
    (addsRequest p taken node type = true ∧ ∃ n, node = some n ∧ ∀ ll',
      p.sequenceList.itemAdd n p.messageCount
        ⟨type, now, defaultMessageTimeoutMs, p.messageCount, cb⟩ = some ll' →
      ∃ p' packet' err,
        serialize p taken node now packet data type seqNum cb = some (p', packet', err) ∧
        p'.sequenceList = ll' ∧ p'.packetList = p.packetList) := by
  obtain ⟨ps, hlinked⟩ := hpackets
  have hget : ∃ found, p.packetList.getItem type.toUInt32 = some found := by
    rcases split_at_id ps type.toUInt32 with hnone | ⟨pre, e, post, rfl, hpre, he⟩
    · exact ⟨_, getItem_absent hlinked.walkable hnone⟩
    · exact ⟨_, getItem_found hlinked.walkable hpre he⟩
  obtain ⟨found, hget⟩ := hget
  unfold addsRequest
  rw [hget]
  cases hinit : p.initialized with
  | false =>
    exact .inl ⟨by cases found <;> rfl, p, packet, .einval, by simp [serialize, hinit], rfl, rfl⟩
  | true =>
    rcases found with _ | cfg
    · exact .inl ⟨rfl, p, packet, .enodev, by simp [serialize, hinit, hget], rfl, rfl⟩
    have hser := fun p' (hseq : serializeSequence p cfg taken node now type cb = some p') =>
      serialize_of_sequence hinit hget hseq packet data seqNum
    simp only [Bool.true_and]
    cases hreply : cfg.sequencedReply with
    | true =>
      obtain ⟨packet', h⟩ := hser p (by simp [serializeSequence, hreply])
      exact .inl ⟨by simp, p, packet', .ok, h, rfl, rfl⟩
    | false =>
      cases hrequest : cfg.sequencedRequest with
      | false =>
        obtain ⟨packet', h⟩ := hser p (by simp [serializeSequence, hreply, hrequest])
        exact .inl ⟨by simp, p, packet', .ok, h, rfl, rfl⟩
      | true =>
        simp only [serializeSequence, hreply, hrequest, Bool.false_eq_true, if_false, if_true,
          sequenceListAddMessage] at hser
        rcases taken with _ | _
        · obtain ⟨packet', h⟩ := hser { p with messageCount := p.messageCount + 1 } rfl
          exact .inl ⟨by simp, _, packet', .ok, h, rfl, rfl⟩
        rcases node with _ | n
        · obtain ⟨packet', h⟩ := hser { p with messageCount := p.messageCount + 1 } rfl
          exact .inl ⟨by simp, _, packet', .ok, h, rfl, rfl⟩
        refine .inr ⟨by simp, n, rfl, fun ll' hadd => ?_⟩
        obtain ⟨packet', h⟩ :=
          hser { p with messageCount := p.messageCount + 1, sequenceList := ll' } (by simp [hadd])
        exact ⟨_, packet', .ok, h, rfl, rfl⟩

section Steps
variable {s : System Handler} {pending : List Pending}

/-- The numbers of pending requests are looked up. -/
theorem System.Inv.getPtr_none (h : s.Inv pending) {num : UInt32}
    (hnone : s.packet.sequenceList.getPtr num = some none) : ∀ v ∈ pending, v.2.1 ≠ num := by
  obtain ⟨es, hlinked, rfl⟩ := h.linked
  intro v hv heq
  rcases split_at_id es num with habsent | ⟨pre, e, post, rfl, hpre, he⟩
  · obtain ⟨e, he, rfl⟩ := List.mem_map.mp hv
    exact habsent e he heq
  · rw [getPtr_found hlinked.walkable hpre he] at hnone
    exact absurd hnone (by simp)

/-- A request joins the pending ones. -/
theorem inv_add (h : s.Inv pending) {p : PacketInfo Handler Nat} {v : Pending}
    {ll : LL (BcmpRequestElement Nat)} {es : List (Entry (BcmpRequestElement Nat))}
    (hp : p.sequenceList = ll) (hpackets : p.packetList = s.packet.packetList)
    (hlinked : Linked ll es) (hview : es.map view = pending ++ [v])
    (hnum : ∀ u ∈ pending, u.2.1 ≠ v.2.1) (hkey : v.2.1 = v.2.2.seqNum) (withCb : Bool)
    (hcb : v.2.2.cb = if withCb then some s.requests else none) :
    ({ s with
        packet := p, requests := s.requests + 1,
        added := if withCb then s.added ++ [s.requests] else s.added } : System Handler).Inv
      (pending ++ [v]) := by
  refine ⟨?_, ⟨es, hp ▸ hlinked, hview⟩, ?_, ?_, ?_, ?_, ?_, ?_⟩
  · rw [hpackets]
    exact h.packets
  · rw [List.map_append]
    refine List.nodup_append.mpr ⟨h.nums, by simp, ?_⟩
    rintro x hx y hy rfl
    obtain ⟨u, hu, rfl⟩ := List.mem_map.mp hx
    exact hnum u hu (by simpa using hy)
  · intro u hu
    rcases List.mem_append.mp hu with hu | hu
    · exact h.keyed u hu
    · rw [List.mem_singleton.mp hu]
      exact hkey
  · intro element cfg data hrecv
    obtain ⟨u, hu, hrest⟩ := h.found element cfg data hrecv
    exact ⟨u, List.mem_append_left _ hu, hrest⟩
  · have hperm := h.perm
    unfold System.accounted at hperm ⊢
    cases withCb with
    | false => simpa [hcb] using hperm
    | true =>
      rw [List.filterMap_append, ← List.append_assoc]
      simpa [hcb] using hperm.append_right [s.requests]
  · intro n hn
    cases withCb with
    | false => exact Nat.lt_succ_of_lt (h.fresh n hn)
    | true =>
      rcases List.mem_append.mp hn with hn | hn
      · exact Nat.lt_succ_of_lt (h.fresh n hn)
      · rw [List.mem_singleton.mp hn]
        exact Nat.lt_succ_self _
  · cases withCb with
    | false => exact h.nodup
    | true =>
      refine List.nodup_append.mpr ⟨h.nodup, by simp, ?_⟩
      rintro x hx y hy rfl
      rw [List.mem_singleton.mp hy] at hx
      exact absurd (h.fresh _ hx) (Nat.lt_irrefl _)

theorem step_serialize (h : s.Inv pending) {taken : Bool} {node : Option Nat} {now : UInt32}
    {packet : Packet} {data : List UInt8} {type : UInt16} {seqNum : UInt32} {withCb : Bool}
    (hok : stepOk s (.serialize taken node now packet data type seqNum withCb) = true) :
    ∃ t pending', s.step (.serialize taken node now packet data type seqNum withCb) = some t ∧
      t.Inv pending' := by
  rcases serialize_sequence h.packets taken node now packet data type seqNum
    (if withCb then some s.requests else none) with
    ⟨hadds, p', packet', err, hser, hseq, hpk⟩ | ⟨hadds, n, rfl, hser⟩
  · refine ⟨{ s with packet := p', requests := s.requests + 1 }, pending, ?_, ?_⟩
    · simp [System.step, hser, hadds]
    · refine ⟨hpk ▸ h.packets, hseq ▸ h.linked, h.nums, h.keyed, h.found, h.perm, ?_, h.nodup⟩
      intro n hn
      exact Nat.lt_succ_of_lt (h.fresh n hn)
  · obtain ⟨hfresh, hnum⟩ : n ∉ s.packet.sequenceList.heap ∧
        s.packet.sequenceList.getPtr s.packet.messageCount = some none := by
      simpa [stepOk, hadds, AList.lookup_eq_none] using hok
    obtain ⟨es, hlinked, hes⟩ := h.linked
    generalize hmsg : (⟨type, now, defaultMessageTimeoutMs, s.packet.messageCount,
      if withCb then some s.requests else none⟩ : BcmpRequestElement Nat) = message at hser
    obtain ⟨ll', es', hadd, hlinked', hview, -⟩ :=
      itemAdd_linked hlinked hfresh s.packet.messageCount message
    obtain ⟨p', packet', err, hser, hseq, hpk⟩ := hser ll' hadd
    have hinv := inv_add h (v := (n, s.packet.messageCount, message)) hseq hpk hlinked'
      (by rw [List.map_append, hview, hes]; rfl) (h.getPtr_none hnum) (by rw [← hmsg]) withCb
      (by rw [← hmsg])
    refine ⟨_, _, ?_, hinv⟩
    simp [System.step, hser, hadds]

/-- The receiving thread moves on without a callback in hand. -/
theorem inv_receiver (h : s.Inv pending) {receiver : Receiver Handler}
    (hheld : receiver.held = s.receiver.held)
    (hfound : ∀ element cfg data, receiver = .found element cfg data →
      ∃ v ∈ pending, v.1 = element ∧ v.2.1 = data.seqNum) :
    ({ s with receiver } : System Handler).Inv pending := by
  refine ⟨h.packets, h.linked, h.nums, h.keyed, hfound, ?_, h.fresh, h.nodup⟩
  have hperm := h.perm
  unfold System.accounted at hperm ⊢
  rw [hheld]
  exact hperm

theorem step_receive (h : s.Inv pending) (taken : Bool) (packet : Packet) (size : Nat) :
    ∃ t pending', s.step (.receive taken packet size) = some t ∧ t.Inv pending' := by
  unfold System.step
  dsimp only
  split
  next data hidle hrecv =>
    have hnone : s.receiver.held = none := by rw [hidle]; rfl
    obtain ⟨ps, hps⟩ := h.packets
    rcases split_at_id ps data.type.toUInt32 with hnot | ⟨pre, e, post, rfl, hpre, he⟩
    · rw [getItem_absent hps.walkable hnot]
      exact ⟨s, pending, rfl, h⟩
    rw [getItem_found hps.walkable hpre he]
    simp only [Option.bind_eq_bind, Option.bind_some]
    have htook : ({ s with receiver := .took none e.2.data data } : System Handler).Inv pending :=
      inv_receiver h hnone.symm (by simp)
    split
    · obtain ⟨es, hlinked, rfl⟩ := h.linked
      cases taken with
      | false => exact ⟨_, _, rfl, htook⟩
      | true =>
        rcases split_at_id es data.seqNum with hnot | ⟨pre', f, post', rfl, hpre', hf⟩
        · exact ⟨_, _, by simp [sequenceListFindMessage, getPtr_absent hlinked.walkable hnot],
            htook⟩
        · refine ⟨{ s with receiver := .found f.1 e.2.data data }, (pre' ++ f :: post').map view,
            by simp [sequenceListFindMessage, getPtr_found hlinked.walkable hpre' hf], ?_⟩
          refine inv_receiver h hnone.symm ?_
          rintro element cfg data' heq
          injection heq with hel _ hdata
          subst hel hdata
          exact ⟨view f, by simp, rfl, hf⟩
    · exact ⟨_, _, rfl, htook⟩
  next => exact ⟨s, pending, rfl, h⟩

/-- The element that was found is taken out of the list. -/
theorem inv_take (h : s.Inv pending) {element : Nat} {cfg : BcmpPacketCfg Handler}
    {data : BcmpProcessData} (hrecv : s.receiver = .found element cfg data)
    (hback : s.packet.sequenceList.backPointerOk data.seqNum = true) :
    ∃ t pending', s.step (.take true) = some t ∧ t.Inv pending' := by
  obtain ⟨es, hlinked, rfl⟩ := h.linked
  obtain ⟨v, hv, hel, hnum⟩ := h.found element cfg data hrecv
  obtain ⟨e, he, rfl⟩ := List.mem_map.mp hv
  obtain ⟨pre, post, rfl⟩ := List.append_of_mem he
  have hread := hlinked.lookup he
  have hsplit : ((pre.map view).map (·.2.1) ++ e.2.id :: (post.map view).map (·.2.1)).Nodup := by
    simpa [view, payload] using h.nums
  have hid : ∀ f ∈ pre, f.2.id ≠ data.seqNum := by
    intro f hf heq
    refine (List.nodup_append.mp hsplit).2.2 f.2.id ?_ e.2.id (by simp) (heq.trans hnum.symm)
    exact List.mem_map.mpr ⟨view f, List.mem_map_of_mem hf, rfl⟩
  obtain ⟨ll', hremove, -, hlinked'⟩ := remove_found hlinked hid hnum
  obtain ⟨es', hlinked', hview⟩ := hlinked' hback
  have htake : takeMessage s.packet true element data.seqNum =
      some ({ s.packet with sequenceList := ll' }, e.2.data.cb) := by
    rw [takeMessage, if_pos rfl, ← hel]
    have hread' : s.packet.sequenceList.heap.lookup (view e).1 = some e.2 := hread
    simp [hread', hremove]
  have hsub : ((pre ++ post).map view).Sublist ((pre ++ e :: post).map view) :=
    List.Sublist.map _ (List.Sublist.append_left (List.sublist_cons_self _ _) _)
  refine ⟨{ s with
      packet := { s.packet with sequenceList := ll' }, receiver := .took e.2.data.cb cfg data },
    (pre ++ post).map view, by simp [System.step, hrecv, htake], h.packets, ⟨es', hlinked', hview⟩,
    (hsub.map _).nodup h.nums, fun v hv => h.keyed v (hsub.subset hv), by simp, ?_, h.fresh,
    h.nodup⟩
  -- the callback goes from the pending ones into the hand of the receiving thread
  refine List.Perm.trans ?_ h.perm
  unfold System.accounted
  rw [hrecv]
  simp only [Receiver.held, Option.toList_none, List.append_nil, List.map_append, List.map_cons,
    List.filterMap_append, List.append_assoc]
  refine List.Perm.append_left _ ?_
  have hcb : (view e).2.2.cb = e.2.data.cb := rfl
  cases hc : e.2.data.cb with
  | none => simp [hcb, hc]
  | some cb =>
    simp only [Option.toList_some, List.filterMap_cons, hcb, hc, List.singleton_append]
    exact List.perm_middle.symm

theorem step_take (h : s.Inv pending) {taken : Bool} (hok : stepOk s (.take taken) = true) :
    ∃ t pending', s.step (.take taken) = some t ∧ t.Inv pending' := by
  cases hrecv : s.receiver with
  | found element cfg data =>
    cases taken with
    | true =>
      simp only [stepOk, hrecv, Bool.not_true, Bool.false_or] at hok
      exact inv_take h hrecv hok
    | false =>
      refine ⟨{ s with receiver := .took none cfg data }, pending,
        by simp [System.step, hrecv, takeMessage], inv_receiver h ?_ (by simp)⟩
      rw [hrecv]
      rfl
  | idle => exact ⟨s, pending, by simp [System.step, hrecv], h⟩
  | took cb cfg data => exact ⟨s, pending, by simp [System.step, hrecv], h⟩

/-- Exactly the callback in hand is called. -/
theorem deliver_requester (cfg : BcmpPacketCfg Handler) (cb : Option Nat)
    (data : BcmpProcessData) :
    (deliver cfg cb data).toList.filterMap Call.requester = cb.toList := by
  cases cb with
  | some cb => rfl
  | none =>
    unfold deliver
    cases cfg.process <;> rfl

theorem step_call (h : s.Inv pending) :
    ∃ t pending', s.step .call = some t ∧ t.Inv pending' := by
  cases hrecv : s.receiver with
  | took cb cfg data =>
    refine ⟨{ s with receiver := .idle, calls := s.calls ++ (deliver cfg cb data).toList }, pending,
      by simp [System.step, hrecv], h.packets, h.linked, h.nums, h.keyed, by simp, ?_, h.fresh,
      h.nodup⟩
    have hperm := h.perm
    unfold System.accounted at hperm ⊢
    rw [hrecv] at hperm
    rw [List.filterMap_append, deliver_requester]
    simpa [Receiver.held] using hperm
  | idle => exact ⟨s, pending, by simp [System.step, hrecv], h⟩
  | found element cfg data => exact ⟨s, pending, by simp [System.step, hrecv], h⟩

/-- What is expired is called; what is not stays pending. -/
theorem expired_survivors_perm (now : BcmpRequestElement Nat → UInt32) (pending : List Pending) :
    ((expiredCalls now pending : List (Call Handler Nat)).filterMap Call.requester ++
      (survivors now pending).filterMap (·.2.2.cb)).Perm (pending.filterMap (·.2.2.cb)) := by
  induction pending with
  | nil => rfl
  | cons v pending ih =>
    rw [expiredCalls_cons, survivors_cons]
    cases v.2.2.expired (now v.2.2) with
    | true =>
      cases hcb : v.2.2.cb with
      | none => simpa [List.filterMap_cons, hcb] using ih
      | some cb => simpa [List.filterMap_cons, hcb, Call.requester] using ih.cons cb
    | false =>
      cases hcb : v.2.2.cb with
      | none => simpa [List.filterMap_cons, hcb] using ih
      | some cb =>
        simp only [Bool.false_eq_true, if_false, List.nil_append, List.singleton_append,
          List.filterMap_cons, hcb]
        exact List.perm_middle.trans (ih.cons cb)

theorem step_timer (h : s.Inv pending) {taken : Bool} {now : BcmpRequestElement Nat → UInt32}
    (hok : stepOk s (.timer taken now) = true) :
    ∃ t pending', s.step (.timer taken now) = some t ∧ t.Inv pending' := by
  cases taken with
  | false =>
    refine ⟨s, pending, ?_, h⟩
    simp [System.step, sequenceListTimerCallback]
  | true =>
    obtain ⟨hspares, hlinks⟩ :
        sparesFound s now = true ∧ TimerLinksOk s.packet.sequenceList now := by
      simpa [stepOk] using hok
    obtain ⟨es, hlinked, hes⟩ := h.linked
    obtain ⟨ll', es', htimer, hlinked', hview⟩ :=
      timerCallback_expires hlinked hes h.nums h.keyed hlinks
    have hsub : (survivors now pending).Sublist pending := List.filter_sublist
    refine ⟨{ s with
        packet := { s.packet with sequenceList := ll' }, calls :=
        s.calls ++ expiredCalls now pending },
      survivors now pending, by simp [System.step, htimer], h.packets, ⟨es', hlinked', hview⟩,
      (hsub.map _).nodup h.nums, fun v hv => h.keyed v (hsub.subset hv), ?_, ?_, h.fresh, h.nodup⟩
    · -- the element that was found has not expired
      intro element cfg data hrecv
      obtain ⟨v, hv, hel, hnum⟩ := h.found element cfg data hrecv
      refine ⟨v, ?_, hel, hnum⟩
      rw [← hes] at hv
      obtain ⟨e, he, rfl⟩ := List.mem_map.mp hv
      have hread : s.packet.sequenceList.heap.lookup element = some e.2 := by
        rw [← hel]
        exact hlinked.lookup he
      have hrecv' : s.receiver = .found element cfg data := hrecv
      simp only [sparesFound, hrecv', hread, Option.all_some] at hspares
      rw [hes] at hv
      exact List.mem_filter.mpr ⟨hv, hspares⟩
    · refine List.Perm.trans ?_ h.perm
      unfold System.accounted
      rw [List.filterMap_append, List.append_assoc, List.append_assoc, List.append_assoc]
      refine List.Perm.append_left _ ?_
      refine (List.perm_append_comm_assoc _ _ _).trans ?_
      exact List.Perm.append_left _ (expired_survivors_perm now pending)

end Steps

theorem step_inv {s : System Handler} {pending : List Pending} (h : s.Inv pending) {a : Action}
    (hok : stepOk s a = true) : ∃ t pending', s.step a = some t ∧ t.Inv pending' := by
  cases a with
  | serialize taken node now packet data type seqNum withCb => exact step_serialize h hok
  | receive taken packet size => exact step_receive h taken packet size
  | take taken => exact step_take h hok
  | call => exact step_call h
  | timer taken now => exact step_timer h hok

/-! ## Runs -/

/-- How often the callback of a request was called. -/
def System.callsTo (s : System Handler) (n : Nat) : Nat :=
  (s.calls.filterMap Call.requester).count n

/-- The request is in the sequence list. -/
def System.isPending (s : System Handler) (n : Nat) : Bool :=
  s.packet.sequenceList.entries.any fun e => e.2.data.cb == some n

/-- The callback of every request that was added has been called once if the request is gone and
the receiving thread is not about to call it, and not at all before. -/
def ExactlyOnce (s : System Handler) : Prop :=
  ∀ n ∈ s.added,
    s.callsTo n = if s.isPending n = true ∨ s.receiver.held = some n then 0 else 1

theorem System.Inv.exactlyOnce {s : System Handler} {pending : List Pending} (h : s.Inv pending) :
    ExactlyOnce s := by
  intro n hn
  have hone : (s.accounted pending).count n = 1 := by
    rw [h.perm.count_eq]
    exact List.count_eq_one_of_mem h.nodup hn
  have hpending : s.isPending n = true ↔ n ∈ pending.filterMap (·.2.2.cb) := by
    obtain ⟨es, hlinked, rfl⟩ := h.linked
    unfold System.isPending
    rw [hlinked.entries_eq]
    simp [view, payload]
  have hheld : s.receiver.held = some n ↔ n ∈ s.receiver.held.toList := by simp
  rw [← List.count_pos_iff] at hpending hheld
  simp only [System.accounted, List.count_append] at hone
  unfold System.callsTo
  split
  next hor =>
    rcases hor with hp | hh
    · have := hpending.mp hp
      omega
    · have := hheld.mp hh
      omega
  next hnot =>
    have hp : ¬ 0 < (pending.filterMap (·.2.2.cb)).count n :=
      fun hpos => hnot (.inl (hpending.mpr hpos))
    have hh : ¬ 0 < s.receiver.held.toList.count n := fun hpos => hnot (.inr (hheld.mpr hpos))
    omega

theorem init_inv (p : PacketInfo Handler Nat) (hseq : p.sequenceList = .empty)
    (hpackets : ∃ ps, Linked p.packetList ps) : (System.init p).Inv [] := by
  refine ⟨hpackets, ⟨[], ?_, rfl⟩, by simp, by simp, by simp [System.init], by
    simp [System.accounted, System.init, Receiver.held], by simp [System.init], by
    simp [System.init]⟩
  simp only [System.init, hseq]
  exact Linked.empty

/-- The invariant along a run. -/
def RunInv (s : Option (System Handler)) : Prop := ∃ t pending, s = some t ∧ t.Inv pending

theorem RunInv.step {s : Option (System Handler)} {a : Action} (h : RunInv s) (hok : RunOk s a) :
    RunInv (runStep s a) := by
  obtain ⟨t, pending, rfl, hinv⟩ := h
  obtain ⟨u, pending', hu, hinv'⟩ := step_inv hinv hok
  exact ⟨u, pending', hu, hinv'⟩

/-- In every run of sections that meet the condition, no freed element is read, and the callback of
every request is called exactly once. -/
theorem callback_exactly_once (p : PacketInfo Handler Nat) (hseq : p.sequenceList = .empty)
    (hpackets : ∃ ps, Linked p.packetList ps) (actions : List Action)
    (hok : Along runStep RunOk (some (System.init p)) actions) :
    ∃ s, actions.foldl runStep (some (System.init p)) = some s ∧ ExactlyOnce s := by
  have hinit : RunInv (some (System.init p)) := ⟨_, _, rfl, init_inv p hseq hpackets⟩
  obtain ⟨s, pending, hs, hinv⟩ := foldl_invariant (fun s a h hok => h.step hok) hinit hok
  exact ⟨s, hs, hinv.exactlyOnce⟩

/-- A module with a request of type 0xA4 and its reply 0xA5, and a sum of bytes for a checksum. -/
def requestModule : PacketInfo Unit Nat where
  checksum packet size := .ofNat ((packet.src ++ packet.dst ++ packet.data.take size).map
    UInt8.toNat).sum
  initialized := true
  sequenceList := .empty
  packetList := ((LL.empty.itemAdd 1 0xA4 ⟨false, true, some ()⟩).bind
    (·.itemAdd 2 0xA5 ⟨true, false, some ()⟩)).getD .empty
  messageCount := 0

theorem requestModule_packets : ∃ ps, Linked requestModule.packetList ps := by
  obtain ⟨ll₁, es₁, hadd₁, hlinked₁, hview₁, -⟩ := itemAdd_linked Linked.empty
    (by simp [LL.empty, AList.notMem_empty] : 1 ∉ (LL.empty : LL (BcmpPacketCfg Unit)).heap)
    0xA4 ⟨false, true, some ()⟩
  have hnode : 2 ∉ ll₁.heap := by
    intro hmem
    have hlist := (hlinked₁.owned 2).mp hmem
    rw [List.map_append, map_fst_of_view hview₁] at hlist
    simp at hlist
  obtain ⟨ll₂, es₂, hadd₂, hlinked₂, -⟩ :=
    itemAdd_linked hlinked₁ hnode 0xA5 ⟨true, false, some ()⟩
  have hlist : requestModule.packetList = ll₂ := by
    simp [requestModule, hadd₁, hadd₂]
  exact ⟨_, hlist ▸ hlinked₂⟩

/-- A request with a callback, sent at 100 ms. -/
def sendRequest : Action := .serialize true (some 1) 100 ⟨[], [], []⟩ [] 0xA4 0 true

/-- The reply to request 0. -/
def replyPacket : Packet := ⟨[], [], header 0xA5 0xA5 0⟩

theorem callback_exactly_once_replied :
    ∃ s, [sendRequest, .receive true replyPacket 0, .timer true fun _ => 120, .take true,
        .call].foldl runStep (some (System.init requestModule)) = some s ∧ ExactlyOnce s :=
  callback_exactly_once requestModule rfl requestModule_packets
    [sendRequest, .receive true replyPacket 0, .timer true fun _ => 120, .take true, .call]
    (by decide +kernel)

/-- The request expires when its reply has been found: its callback is called, and then read from
the freed element. -/
theorem expired_request_read :
    (([sendRequest, .receive true replyPacket 0, .timer true fun _ => 200].foldl runStep
      (some (System.init requestModule))).map fun s => (s.callsTo 0, s.isPending 0)) =
        some (1, false) ∧
    ¬ ∃ s, [sendRequest, .receive true replyPacket 0, .timer true fun _ => 200, .take true].foldl
      runStep (some (System.init requestModule)) = some s ∧ ExactlyOnce s := by
  refine ⟨by decide +kernel, ?_⟩
  rintro ⟨s, hs, -⟩
  have hnone : ([sendRequest, .receive true replyPacket 0, .timer true fun _ => 200,
      .take true].foldl runStep (some (System.init requestModule))).isNone = true := by
    decide +kernel
  rw [hs] at hnone
  exact absurd hnone (by simp)

end BmCore.Bcmp
