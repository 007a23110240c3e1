import BmCore.Bcmp.Packet

/-!
# One pass of the request timer

`sequence_list_timer_callback` traverses the sequence list and removes what has expired while the
cursor is on its way: the cursor has already moved on when an element is looked at. It does not
matter where the tail and the back pointers of the list are. -/
namespace BmCore.Bcmp
open Library LL

variable {Handler Callback : Type}

/-- `timer_traverse_cb`, with a record of the elements it is called with. -/
def visitingCb (now : UInt32) (sequenceList : LL (BcmpRequestElement Callback))
    (s : List (BcmpRequestElement Callback) × List (Call Handler Callback))
    (element : BcmpRequestElement Callback) :
    Option (BmErr × LL (BcmpRequestElement Callback) ×
      List (BcmpRequestElement Callback) × List (Call Handler Callback)) :=
  (timerTraverseCb (fun _ => now) sequenceList s.2 element).map fun (err, sequenceList, calls) =>
    (err, sequenceList, s.1 ++ [element], calls)

/-- The elements stand under their sequence numbers, no two of which are equal. -/
structure Numbered (es : List (Entry (BcmpRequestElement Callback))) : Prop where
  nodup : (es.map fun e => e.2.data.seqNum).Nodup
  keyed : ∀ e ∈ es, e.2.id = e.2.data.seqNum

/-- `cb(NULL)` for the elements that have expired and have a callback. -/
def expiryCalls (now : UInt32) (elements : List (BcmpRequestElement Callback)) :
    List (Call Handler Callback) :=
  (elements.filter (·.expired now)).filterMap fun element => element.cb.map .expired

/-- Address, identifier and element of an item. -/
abbrev Request (Callback : Type) := Nat × UInt32 × BcmpRequestElement Callback

/-- The items that a pass keeps. -/
def kept (now : UInt32) (items : List (Request Callback)) : List (Request Callback) :=
  items.filter fun v => !v.2.2.expired now

/-! ## One element -/

section Round
variable {now : UInt32} {ll : LL (BcmpRequestElement Callback)}
  {es : List (Entry (BcmpRequestElement Callback))} {seen rest : List (Request Callback)}
  {v : Request Callback}

theorem expiryCalls_cons (element : BcmpRequestElement Callback)
    (elements : List (BcmpRequestElement Callback)) :
    (expiryCalls now (element :: elements) : List (Call Handler Callback)) =
      (if element.expired now then (element.cb.map .expired).toList else []) ++
        expiryCalls now elements := by
  unfold expiryCalls
  cases hexp : element.expired now <;> cases hcb : element.cb <;> simp [hexp, hcb]

theorem kept_cons (v : Request Callback) (rest : List (Request Callback)) :
    kept now (v :: rest) = (if v.2.2.expired now then [] else [v]) ++ kept now rest := by
  unfold kept
  cases hexp : v.2.2.expired now <;> simp [hexp]

/-- An element is kept, or called and removed; the cursor is behind it. -/
theorem visitingCb_round (h : Walkable ll es) (hes : es.map view = seen ++ v :: rest)
    (hnums : ((seen ++ v :: rest).map (·.2.1)).Nodup) (hkeyed : v.2.1 = v.2.2.seqNum)
    (hat : (ll.cursor <|> ll.head) = some v.1)
    (s : List (BcmpRequestElement Callback) × List (Call Handler Callback)) :
    ∃ ll₁ ll' es', ll.advanceCursor = some (ll₁, some v.2.2) ∧
      visitingCb now ll₁ s v.2.2 = some (.ok, ll', s.1 ++ [v.2.2], s.2 ++
        if v.2.2.expired now then (v.2.2.cb.map .expired).toList else []) ∧
      ll'.cursor = rest.head?.map Prod.fst ∧ Walkable ll' es' ∧
      es'.map view = (seen ++ if v.2.2.expired now then [] else [v]) ++ rest ∧
      ∀ a, a ∈ ll'.heap ↔ a ∈ ll.heap ∧ (v.2.2.expired now → a ≠ v.1) := by
  obtain ⟨pre, es₂, rfl, rfl, hes₂⟩ := List.map_eq_append_iff.mp hes
  obtain ⟨e, post, rfl, rfl, rfl⟩ := List.map_eq_cons_iff.mp hes₂
  have hcursor : (post.map view).head?.map Prod.fst = post.head?.map Prod.fst := by
    cases post <;> rfl
  have hadvance := advanceCursor_at h hat
  have hwalk := h.withCursor (post.head?.map Prod.fst)
  rw [hcursor]
  cases hexp : (view e).2.2.expired now with
  | false =>
    refine ⟨_, _, _, hadvance, ?_, rfl, hwalk, by simp, fun a => by simp⟩
    simp [visitingCb, timerTraverseCb, hexp]
  | true =>
    have hid : ∀ f ∈ pre, f.2.id ≠ (view e).2.1 := by
      intro f hf heq
      rw [List.map_append] at hnums
      refine (List.nodup_append.mp hnums).2.2 f.2.id ?_ (view e).2.1 (by simp) heq
      exact List.mem_map.mpr ⟨view f, List.mem_map_of_mem hf, rfl⟩
    obtain ⟨ll', es', hremove, hcur, hwalk', hview, hheap⟩ := remove_found_walkable hwalk hid rfl
    refine ⟨_, ll', es', hadvance, ?_, hcur, hwalk', by simpa using hview, fun a => ?_⟩
    · simp [visitingCb, timerTraverseCb, hexp, ← hkeyed, hremove]
    · rw [hheap a, and_comm]
      simp [view]

end Round

/-! ## The pass -/

section Pass
variable {now : UInt32}

/-- From an element on, the pass visits every element and removes what has expired. -/
theorem visitingLoop {ll : LL (BcmpRequestElement Callback)}
    {es : List (Entry (BcmpRequestElement Callback))} {seen : List (Request Callback)}
    {v : Request Callback} {rest : List (Request Callback)} (h : Walkable ll es)
    (hes : es.map view = seen ++ v :: rest)
    (hnums : ((seen ++ v :: rest).map (·.2.1)).Nodup)
    (hkeyed : ∀ u ∈ v :: rest, u.2.1 = u.2.2.seqNum)
    (hat : (ll.cursor <|> ll.head) = some v.1) {fuel : Nat} (hfuel : rest.length < fuel)
    (s : List (BcmpRequestElement Callback) × List (Call Handler Callback)) :
    ∃ ll' es', traverseLoop (visitingCb now) fuel ll s = some (.ok, ll',
        s.1 ++ (v :: rest).map (·.2.2), s.2 ++ expiryCalls now ((v :: rest).map (·.2.2))) ∧
      Walkable ll' es' ∧ es'.map view = seen ++ kept now (v :: rest) ∧
      ∀ a, a ∈ ll'.heap ↔ a ∈ ll.heap ∧ ∀ u ∈ v :: rest, u.2.2.expired now → a ≠ u.1 := by
  induction rest generalizing ll es seen v fuel s with
  | nil =>
    obtain ⟨fuel, rfl⟩ := Nat.exists_eq_succ_of_ne_zero (Nat.ne_of_gt hfuel)
    obtain ⟨ll₁, ll', es', hadvance, hround, hcursor, hwalk, hview, hheap⟩ :=
      visitingCb_round h hes hnums (hkeyed v (by simp)) hat s
    refine ⟨ll', es', ?_, hwalk, ?_, by simpa using hheap⟩
    · rw [traverseLoop, hadvance]
      simp only [Option.bind_eq_bind, Option.bind_some, hround, hcursor, List.map_cons,
        List.map_nil, expiryCalls_cons]
      simp [expiryCalls]
    · rw [hview, kept_cons]
      simp [kept]
  | cons w rest ih =>
    obtain ⟨fuel, rfl⟩ := Nat.exists_eq_succ_of_ne_zero (Nat.ne_of_gt (Nat.zero_lt_of_lt hfuel))
    obtain ⟨ll₁, ll', es', hadvance, hround, hcursor, hwalk, hview, hheap⟩ :=
      visitingCb_round h hes hnums (hkeyed v (by simp)) hat s
    have hsub : ((seen ++ if v.2.2.expired now then [] else [v]) ++ w :: rest).Sublist
        (seen ++ v :: w :: rest) := by
      split <;> simp
    have hat' : (ll'.cursor <|> ll'.head) = some w.1 := by
      rw [hcursor]
      rfl
    obtain ⟨ll'', es'', hloop, hwalk'', hview'', hheap''⟩ :=
      ih hwalk hview ((hsub.map _).nodup hnums) (fun u hu => hkeyed u (List.mem_cons_of_mem v hu))
        hat' (Nat.lt_of_succ_lt_succ hfuel) (s.1 ++ [v.2.2], s.2 ++ _)
    refine ⟨ll'', es'', ?_, hwalk'', ?_, fun a => ?_⟩
    · rw [List.map_cons, expiryCalls_cons, ← List.append_assoc, List.append_cons, ← hloop,
        traverseLoop, hadvance]
      simp only [Option.bind_eq_bind, Option.bind_some, hround, hcursor]
      simp
    · rw [hview'', kept_cons v, List.append_assoc]
    · rw [hheap'', hheap, and_assoc]
      simp only [List.forall_mem_cons]

/-- The recorded elements do not matter to the traversal. -/
theorem traverseLoop_visitingCb (now : UInt32) (fuel : Nat) (ll : LL (BcmpRequestElement Callback))
    (s : List (BcmpRequestElement Callback) × List (Call Handler Callback)) :
    traverseLoop (timerTraverseCb fun _ => now) fuel ll s.2 =
      (traverseLoop (visitingCb now) fuel ll s).map fun r => (r.1, r.2.1, r.2.2.2) := by
  induction fuel generalizing ll s with
  | zero => rfl
  | succ fuel ih =>
    rw [traverseLoop, traverseLoop]
    cases ll.advanceCursor with
    | none => rfl
    | some r =>
      obtain ⟨ll, _ | data⟩ := r
      · rfl
      simp only [Option.bind_eq_bind, Option.bind_some, visitingCb]
      cases timerTraverseCb (fun _ => now) ll s.2 data with
      | none => rfl
      | some r =>
        obtain ⟨ret, ll, calls⟩ := r
        simp only [Option.map_some, Option.bind_some]
        split
        · exact ih ll (s.1 ++ [data], calls)
        · rfl

/-- One pass of the timer at a time: every element is looked at once, those that have expired are
called and freed, and the others stay linked in their order. -/
theorem sequence_expiry_pass (p : PacketInfo Handler Callback)
    (es : List (Entry (BcmpRequestElement Callback))) (now : UInt32)
    (h : Walkable p.sequenceList es) (hnums : Numbered es) : ∃ err sequenceList es',
    p.sequenceList.traverse (visitingCb now) ([], []) = some (err, sequenceList,
      es.map (·.2.data), (expiryCalls now (es.map (·.2.data)) : List (Call Handler Callback))) ∧
    sequenceListTimerCallback p true (fun _ => now) =
      some ({ p with sequenceList }, expiryCalls now (es.map (·.2.data))) ∧
    Walkable sequenceList es' ∧
    es'.map view = (es.filter fun e => !e.2.data.expired now).map view ∧
    ∀ a, a ∈ sequenceList.heap ↔
      a ∈ p.sequenceList.heap ∧ a ∉ (es.filter (·.2.data.expired now)).map Prod.fst := by
  have hpass : ∃ err sequenceList es', p.sequenceList.traverse (visitingCb now) ([], []) =
      some (err, sequenceList, es.map (·.2.data),
        (expiryCalls now (es.map (·.2.data)) : List (Call Handler Callback))) ∧
      Walkable sequenceList es' ∧ es'.map view = kept now (es.map view) ∧
      ∀ a, a ∈ sequenceList.heap ↔ a ∈ p.sequenceList.heap ∧
        ∀ u ∈ es.map view, u.2.2.expired now → a ≠ u.1 := by
    cases es with
    | nil =>
      have hhead : p.sequenceList.head = none := h.chain
      refine ⟨.enodev, { p.sequenceList with cursor := none }, [], ?_, h.withCursor none, rfl,
        by simp⟩
      simp [LL.traverse, traverseLoop, advanceCursor, hhead, expiryCalls]
    | cons e es =>
      have hids : ((e :: es).map (·.2.id)).Nodup := by
        rw [List.map_congr_left fun f hf => hnums.keyed f hf]
        exact hnums.nodup
      have hkeyed : ∀ u ∈ (e :: es).map view, u.2.1 = u.2.2.seqNum := by
        intro u hu
        obtain ⟨f, hf, rfl⟩ := List.mem_map.mp hu
        exact hnums.keyed f hf
      have hlen := h.length_le
      have hat : (none <|> p.sequenceList.head) = some e.1 := h.chain.1
      obtain ⟨ll', es', hloop, hwalk, hview, hheap⟩ :=
        visitingLoop (h.withCursor none) (List.nil_append _).symm
          (by simpa [view, payload, Function.comp_def] using hids) hkeyed hat
          (by simp at hlen ⊢; omega : (es.map view).length < p.sequenceList.fuel + 1) ([], [])
      refine ⟨.ok, ll', es', hloop.trans ?_, hwalk, hview, hheap⟩
      simp [view, payload, Function.comp_def]
  obtain ⟨err, ll', es', hloop, hwalk, hview, hheap⟩ := hpass
  have hforget := traverseLoop_visitingCb now (p.sequenceList.fuel + 1)
    { p.sequenceList with cursor := none } (([], []) : _ × List (Call Handler Callback))
  refine ⟨err, ll', es', hloop, ?_, hwalk, ?_, fun a => ?_⟩
  · rw [sequenceListTimerCallback, if_pos rfl, LL.traverse, hforget]
    exact (by rw [show traverseLoop _ _ _ _ = _ from hloop]; rfl)
  · rw [hview, kept, List.filter_map]
    rfl
  · rw [hheap]
    refine and_congr_right fun _ => ⟨fun hall hmem => ?_, fun hnot u hu hexp hau => ?_⟩
    · obtain ⟨e, he, rfl⟩ := List.mem_map.mp hmem
      obtain ⟨he, hexp⟩ := List.mem_filter.mp he
      exact hall (view e) (List.mem_map_of_mem he) hexp rfl
    · obtain ⟨e, he, rfl⟩ := List.mem_map.mp hu
      exact hnot (List.mem_map.mpr ⟨e, List.mem_filter.mpr ⟨he, hexp⟩, hau.symm⟩)

/-- Three requests, of which the first and the last have waited for too long. The back pointer of
the last one is stale. -/
def threeRequests : List (Entry (BcmpRequestElement Nat)) :=
  [(1, ⟨some 2, none, ⟨0x02, 0xFFFFFFF0, 24, 5, some 70⟩, 5⟩),
    (2, ⟨some 3, some 1, ⟨0x02, 20, 24, 6, some 71⟩, 6⟩),
    (3, ⟨none, some 9, ⟨0x06, 0, 24, 7, none⟩, 7⟩)]

def threePacket : PacketInfo Unit Nat where
  checksum _ _ := 0
  initialized := true
  sequenceList :=
    ⟨(threeRequests.map fun e => (⟨e.1, e.2⟩ : Sigma fun _ : Nat => LLItem _)).toAList,
      some 1, some 3, none⟩
  packetList := LL.empty
  messageCount := 8

theorem sequence_expiry_pass_three : ∃ sequenceList es',
    sequenceListTimerCallback threePacket true (fun _ => 30) =
      some ({ threePacket with sequenceList }, [.expired 70]) ∧
    Walkable sequenceList es' ∧ es'.map (·.2.data.seqNum) = [6] := by
  have hwalk : Walkable threePacket.sequenceList threeRequests :=
    ⟨by decide, rfl, rfl, rfl, rfl, rfl, rfl, rfl⟩
  obtain ⟨-, ll', es', -, htimer, hwalk', hview, -⟩ := sequence_expiry_pass threePacket
    threeRequests 30 hwalk ⟨by decide, by decide⟩
  have hnums := congrArg (List.map (·.2.2.seqNum)) hview
  rw [List.map_map] at hnums
  exact ⟨ll', es', htimer, hwalk', hnums⟩

end Pass

end BmCore.Bcmp
