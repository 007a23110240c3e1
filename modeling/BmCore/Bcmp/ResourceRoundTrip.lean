import BmCore.Bcmp.ResourceReplies
import Mathlib.Data.List.Nodup

/-!
# Resource table replies, written and read

One loop sizes a reply, one copies the resources into it and one, on the node that has asked, walks
over them. With 32 bits for the offset of the copy and 64 for the others, the three agree on where
each resource stands as long as all resources together stay below 2^32 bytes. -/
namespace BmCore.Bcmp
open Library

/-! ## Writing -/

namespace ReplyTask

/-- The sections of a reply over a table that does not change, each with its lock taken. -/
def build (kind : ReplyKind) (t : ResourceTable) : ReplyTask := (advance t true)^[5] { kind }

/-- The buffer of a reply, over what its memory held. The fields of `BcmpResourceTableReply` lie in
front of all resources. -/
def buffer (nodeId : UInt64) (memory : Nat → UInt8) (task : ReplyTask) : Nat → UInt8 :=
  task.writes.foldl (fun m w => blit m w.1 w.2) (blit memory 0
    (leBytes 8 nodeId.toNat ++ leBytes 2 task.numPubs.toNat ++ leBytes 2 task.numSubs.toNat))

end ReplyTask

/-! ## Reading -/

/-- A loop of `bcmp_process_resource_discovery_reply`: the names it prints and the offset at its
end. The offset has the 64 bits of a `size_t`, which 2 * 65535 resources do not exhaust. -/
def walkResources (memory : Nat → UInt8) : Nat → Nat → List (List UInt8) × Nat
  | 0, offset => ([], offset)
  | count + 1, offset =>
    let resourceLen := leNat (peek memory (replyHeaderSize + offset) 2)
    let (names, last) := walkResources memory count (offset + (2 + resourceLen))
    (peek memory (replyHeaderSize + offset + 2) resourceLen :: names, last)

/-- `bcmp_process_resource_discovery_reply` for a request without a callback: the publishers, the
subscribers and the offset behind them. -/
def walkReply (memory : Nat → UInt8) : List (List UInt8) × List (List UInt8) × Nat :=
  let (pubs, offset) := walkResources memory (leNat (peek memory 8 2)) 0
  let (subs, offset) := walkResources memory (leNat (peek memory 10 2)) offset
  (pubs, subs, offset)

/-- Each list counts its resources, and each resource holds its length in 16 bits. -/
structure ResourceTable.WellFormed (t : ResourceTable) : Prop where
  counted : t.Counted
  short : ∀ type, ∀ r ∈ (t.get type).resources, r.length < 2 ^ 16

/-- A reply is read as it was written, whatever its memory held, and both the copy and the walk end
where the computed length says. -/
structure ReplyRoundTrips (kind : ReplyKind) (t : ResourceTable) : Prop where
  walk : ∀ nodeId memory, walkReply ((ReplyTask.build kind t).buffer nodeId memory) =
    (t.pub.resources, t.sub.resources, (ReplyTask.build kind t).msgLen - replyHeaderSize)
  copy : replyHeaderSize + (ReplyTask.build kind t).dataOffset.toNat =
    (ReplyTask.build kind t).msgLen

/-! ## The buffer -/

/-- Copies leave what lies in front of them all. -/
theorem peek_foldl_before {writes : List (Nat × List UInt8)} {a b : Nat}
    (h : ∀ w ∈ writes, a + b ≤ w.1) (m : Nat → UInt8) :
    peek (writes.foldl (fun m w => blit m w.1 w.2) m) a b = peek m a b := by
  induction writes generalizing m with
  | nil => rfl
  | cons w writes ih =>
    rw [List.foldl_cons, ih (fun v hv => h v (by simp [hv])),
      peek_blit_before m w.2 (h w (by simp))]

theorem le_of_mem_layout {offset : Nat} {rs : List (List UInt8)} {w : Nat × List UInt8}
    (hw : w ∈ layout offset rs) : offset ≤ w.1 := by
  induction rs generalizing offset with
  | nil => simp [layout] at hw
  | cons r rs ih =>
    rcases List.mem_cons.mp hw with rfl | hw
    · exact le_refl _
    · exact (Nat.le_add_right _ _).trans (ih hw)

/-- Resources that are laid out end to end read back end to end. -/
theorem peek_foldl_layout (rs : List (List UInt8)) (offset : Nat) (m : Nat → UInt8) :
    peek ((layout offset rs).foldl (fun m w => blit m w.1 w.2) m) offset (listSize rs) =
      rs.flatMap resourceBytes := by
  induction rs generalizing offset m with
  | nil => rfl
  | cons r rs ih =>
    have hfirst : peek (blit m offset (resourceBytes r)) offset (2 + r.length) =
        resourceBytes r := by
      rw [← resourceBytes_length]
      exact peek_blit_self m offset (resourceBytes r)
    have hbehind : ∀ w ∈ layout (offset + (2 + r.length)) rs, offset + (2 + r.length) ≤ w.1 :=
      fun w hw => le_of_mem_layout hw
    rw [listSize_cons, layout, List.foldl_cons, peek_add, peek_foldl_before hbehind, hfirst, ih,
      List.flatMap_cons]

theorem resourceBytes_flatMap_length (rs : List (List UInt8)) :
    (rs.flatMap resourceBytes).length = listSize rs := by
  simp [List.length_flatMap, listSize, resourceBytes_length]

/-- A walk over resources that stand end to end finds them all. -/
theorem walkResources_eq {memory : Nat → UInt8} {rs : List (List UInt8)} {offset : Nat}
    (hshort : ∀ r ∈ rs, r.length < 2 ^ 16)
    (hbytes : peek memory (replyHeaderSize + offset) (listSize rs) = rs.flatMap resourceBytes) :
    walkResources memory rs.length offset = (rs, offset + listSize rs) := by
  induction rs generalizing offset with
  | nil => rfl
  | cons r rs ih =>
    have hr : r.length < 2 ^ 16 := hshort r (by simp)
    rw [listSize_cons, Nat.add_assoc 2, peek_add, peek_add, List.flatMap_cons, resourceBytes,
      List.append_assoc] at hbytes
    obtain ⟨hlen, hbytes⟩ := List.append_inj hbytes (by simp)
    obtain ⟨hname, hrest⟩ := List.append_inj hbytes (by simp)
    have hvalue : leNat (peek memory (replyHeaderSize + offset) 2) = r.length := by
      rw [hlen, leNat_leBytes hr]
    have hnext : walkResources memory rs.length (offset + (2 + r.length)) =
        (rs, offset + (2 + r.length) + listSize rs) :=
      ih (fun s hs => hshort s (by simp [hs])) (by simpa only [Nat.add_assoc] using hrest)
    rw [List.length_cons, walkResources, hvalue, hnext, hname, listSize_cons, Nat.add_assoc offset]

/-- The first name that a walk finds stands behind its length. -/
theorem walkResources_first {memory : Nat → UInt8} {count offset : Nat} {r : List UInt8}
    {rs : List (List UInt8)} (h : (walkResources memory count offset).1 = r :: rs) :
    peek memory (replyHeaderSize + offset + 2) r.length = r := by
  cases count with
  | zero => simp [walkResources] at h
  | succ count =>
    obtain ⟨hname, -⟩ := List.cons.inj h
    rw [← hname, peek_length]

/-! ## The copy -/

theorem copyResources_offset (rs : List (List UInt8)) (offset : UInt32) :
    (copyResources rs offset).1 = offset + UInt32.ofNat (listSize rs) := by
  induction rs generalizing offset with
  | nil => simp [copyResources, listSize]
  | cons r rs ih =>
    rw [copyResources, ih, listSize_cons, UInt32.ofNat_add (2 + r.length), UInt32.add_assoc]

/-- No resource is copied into the header. -/
theorem copyResources_behind {rs : List (List UInt8)} {offset : UInt32} {w : Nat × List UInt8}
    (hw : w ∈ (copyResources rs offset).2) : replyHeaderSize ≤ w.1 := by
  induction rs generalizing offset with
  | nil => simp [copyResources] at hw
  | cons r rs ih =>
    rcases List.mem_cons.mp hw with rfl | hw
    · exact Nat.le_add_right _ _
    · exact ih hw

/-- The resource that is copied last. -/
theorem copyResources_concat (rs : List (List UInt8)) (r : List UInt8) (offset : UInt32) :
    (copyResources (rs ++ [r]) offset).2 = (copyResources rs offset).2 ++
      [(replyHeaderSize + (offset + UInt32.ofNat (listSize rs)).toNat, resourceBytes r)] := by
  induction rs generalizing offset with
  | nil => simp [copyResources, listSize]
  | cons s rs ih =>
    have hnext := ih (offset + UInt32.ofNat (2 + s.length))
    rw [UInt32.add_assoc, ← UInt32.ofNat_add, ← listSize_cons] at hnext
    simp only [List.cons_append, copyResources, hnext]

/-! ## A reply -/

section Reply
variable {t : ResourceTable} (kind : ReplyKind) (nodeId : UInt64) (memory : Nat → UInt8)

theorem build_msgLen (t : ResourceTable) : (ReplyTask.build kind t).msgLen =
    replyHeaderSize + listSize t.pub.resources + listSize t.sub.resources := rfl

theorem build_writes (t : ResourceTable) : (ReplyTask.build kind t).writes =
    (copyResources t.pub.resources 0).2 ++
      (copyResources t.sub.resources (copyResources t.pub.resources 0).1).2 := rfl

theorem build_dataOffset (t : ResourceTable) : (ReplyTask.build kind t).dataOffset =
    UInt32.ofNat (listSize t.pub.resources + listSize t.sub.resources) := by
  have hoffset : (ReplyTask.build kind t).dataOffset =
      (copyResources t.sub.resources (copyResources t.pub.resources 0).1).1 := rfl
  rw [hoffset, copyResources_offset, copyResources_offset, UInt32.zero_add, UInt32.ofNat_add]

/-- The counts in the buffer are those of the lists. -/
theorem buffer_counts (ht : t.Counted) :
    leNat (peek ((ReplyTask.build kind t).buffer nodeId memory) 8 2) = t.pub.resources.length ∧
    leNat (peek ((ReplyTask.build kind t).buffer nodeId memory) 10 2) =
      t.sub.resources.length := by
  have hfront : ∀ w ∈ (ReplyTask.build kind t).writes, replyHeaderSize ≤ w.1 := by
    intro w hw
    rw [build_writes] at hw
    rcases List.mem_append.mp hw with hw | hw
    · exact copyResources_behind hw
    · exact copyResources_behind hw
  have hheader := peek_blit_self memory 0 (leBytes 8 nodeId.toNat ++
    leBytes 2 t.pub.numResources.toNat ++ leBytes 2 t.sub.numResources.toNat)
  simp only [List.length_append, leBytes_length, peek_add, Nat.zero_add] at hheader
  obtain ⟨hpubs, hsubs⟩ := List.append_inj hheader (by simp)
  obtain ⟨-, hpubs⟩ := List.append_inj hpubs (by simp)
  unfold ReplyTask.buffer
  rw [peek_foldl_before (a := 8) fun w hw => (by decide : 8 + 2 ≤ 12).trans (hfront w hw),
    peek_foldl_before (a := 10) fun w hw => hfront w hw]
  refine ⟨?_, ?_⟩
  · exact (congrArg leNat hpubs).trans ((leNat_leBytes (UInt16.toNat_lt _)).trans (ht .pub))
  · exact (congrArg leNat hsubs).trans ((leNat_leBytes (UInt16.toNat_lt _)).trans (ht .sub))

/-- Below 2^32 bytes the resources stand end to end in the buffer. -/
theorem buffer_resources (h : listSize t.pub.resources + listSize t.sub.resources < 2 ^ 32) :
    peek ((ReplyTask.build kind t).buffer nodeId memory) replyHeaderSize
      (listSize (t.pub.resources ++ t.sub.resources)) =
      (t.pub.resources ++ t.sub.resources).flatMap resourceBytes := by
  have hstart : 0 + listSize t.pub.resources < 2 ^ 32 := by omega
  have hpub : copyResources t.pub.resources 0 = _ := copyResources_eq hstart
  have hwrites : (ReplyTask.build kind t).writes =
      layout replyHeaderSize (t.pub.resources ++ t.sub.resources) := by
    rw [build_writes, hpub, Nat.zero_add, copyResources_eq h, layout_append, Nat.add_zero]
  rw [ReplyTask.buffer, hwrites, peek_foldl_layout]

/-- A reply is read as it was written exactly if its resources stay below 2^32 bytes. -/
theorem replyRoundTrips_iff (ht : t.WellFormed) : ReplyRoundTrips kind t ↔
    listSize t.pub.resources + listSize t.sub.resources < 2 ^ 32 := by
  constructor
  · intro h
    have hcopy := h.copy
    rw [build_msgLen, Nat.add_assoc, Nat.add_left_cancel_iff] at hcopy
    rw [← hcopy]
    exact UInt32.toNat_lt _
  · intro hlimit
    refine ⟨fun nodeId memory => ?_, ?_⟩
    · obtain ⟨hpubs, hsubs⟩ := buffer_counts kind nodeId memory ht.counted
      have hbytes := buffer_resources kind nodeId memory hlimit
      rw [listSize_append, peek_add, List.flatMap_append] at hbytes
      obtain ⟨hpub, hsub⟩ := List.append_inj hbytes
        (by rw [peek_length, resourceBytes_flatMap_length])
      have hwalkPub : walkResources _ t.pub.resources.length 0 = _ :=
        walkResources_eq (ht.short .pub) hpub
      have hwalkSub : walkResources _ t.sub.resources.length (listSize t.pub.resources) = _ :=
        walkResources_eq (ht.short .sub) hsub
      have hsize : listSize t.pub.resources + listSize t.sub.resources =
          (ReplyTask.build kind t).msgLen - replyHeaderSize := by
        rw [build_msgLen, Nat.add_assoc, Nat.add_sub_cancel_left]
      simp only [walkReply, hpubs, hsubs, hwalkPub, Nat.zero_add, hwalkSub, hsize]
    · rw [build_dataOffset, UInt32.toNat_ofNat_of_lt' hlimit, build_msgLen, Nat.add_assoc]

variable {kind nodeId memory} in
theorem ReplyRoundTrips.pubs (h : ReplyRoundTrips kind t) :
    (walkReply ((ReplyTask.build kind t).buffer nodeId memory)).1 = t.pub.resources := by
  rw [h.walk]

/-- A publisher and two subscribers. -/
theorem replyRoundTrips_small : ReplyRoundTrips .request
    ⟨⟨[[0x61, 0x62]], 1⟩, ⟨[[0x63], [0x64, 0x65, 0x66]], 2⟩⟩ :=
  (replyRoundTrips_iff .request ⟨fun type => by cases type <;> rfl,
    fun type => by cases type <;> decide⟩).mpr (by decide)

end Reply

/-! ## A table that is too large -/

section Overfull

/-- A name of 65535 bytes that begins with its number. -/
def longName (i : Nat) : List UInt8 := leBytes 2 i ++ List.replicate 65533 0

/-- Long topics are published, and the topics `a` and `b` subscribed to. -/
def overfullCalls (count : Nat) : List ResourceCall :=
  (List.range count).map (fun i => .add (longName i) .pub fun _ _ => 0) ++
    [.add [0x61] .sub fun _ _ => 0, .add [0x62] .sub fun _ _ => 0]

/-- Names that are added for a type leave the other as it is. -/
theorem namesAdded_other {type other : ResourceType} (h : type ≠ other)
    (calls : List ResourceCall) (names : List (List UInt8)) (beyond : Nat → Nat → UInt8) :
    namesAdded other (calls ++ names.map (.add · type beyond)) = namesAdded other calls := by
  induction names using List.reverseRecOn with
  | nil => simp
  | append_singleton names r ih =>
    rw [List.map_append, List.map_singleton, ← List.append_assoc, namesAdded_add,
      if_neg fun hboth => h hboth.1, ih]

/-- Names of one length are told from each other. -/
theorem recorded_adds {names : List (List UInt8)} {n : Nat} {type : ResourceType}
    {calls : List ResourceCall} (h : Recorded calls) (hfresh : namesAdded type calls = [])
    (hnodup : names.Nodup) (hlength : ∀ r ∈ names, r.length = n) (hcount : names.length < 2 ^ 16)
    (beyond : Nat → Nat → UInt8) : Recorded (calls ++ names.map (.add · type beyond)) ∧
      namesAdded type (calls ++ names.map (.add · type beyond)) = names := by
  induction names using List.reverseRecOn with
  | nil => simpa using ⟨h, hfresh⟩
  | append_singleton names r ih =>
    obtain ⟨hnodup, hnew⟩ : names.Nodup ∧ r ∉ names := by
      simpa [List.nodup_append, ← List.forall_mem_ne', eq_comm] using hnodup
    have hshort : names.length + 1 < 2 ^ 16 := by simpa using hcount
    obtain ⟨hrec, hnames⟩ := ih hnodup (fun s hs => hlength s (by simp [hs])) (by omega)
    have hequal : ∀ s ∈ names, r.length = s.length := fun s hs =>
      (hlength r (by simp)).trans (hlength s (by simp [hs])).symm
    rw [List.map_append, List.map_singleton, ← List.append_assoc]
    refine ⟨hrec.step ⟨?_, ?_, ?_⟩, ?_⟩
    · intro s hs
      have hs := (List.takeWhile_sublist _).subset hs
      exact (hequal s (hnames ▸ hs)).le
    · rintro ⟨s, hs, hbegins⟩
      rw [show r = s from hbegins.eq_of_length (hequal s (hnames ▸ hs))]
      exact hs
    · rintro _ _ _ ⟨⟩ -
      exact (congrArg (·.length + 1 < 2 ^ 16) hnames).mpr hshort
    · rw [namesAdded_add, hnames, if_pos ⟨rfl, hnew⟩]

theorem longName_length (i : Nat) : (longName i).length = 65535 := by
  rw [longName, List.length_append, leBytes_length, List.length_replicate]

theorem longNames_nodup {count : Nat} (h : count < 2 ^ 16) :
    ((List.range count).map longName).Nodup := by
  refine List.nodup_range.map_on fun i hi j hj hij => ?_
  have hnat := congrArg leNat (List.append_inj_left hij (by simp))
  rw [List.mem_range] at hi hj
  rwa [leNat_leBytes (by omega), leNat_leBytes (by omega)] at hnat

/-- The table that the calls leave. -/
theorem overfull_table {count : Nat} (hcount : count < 2 ^ 16) :
    (ResourceTable.after (overfullCalls count)).WellFormed ∧
    (ResourceTable.after (overfullCalls count)).pub.resources =
      (List.range count).map longName ∧
    (ResourceTable.after (overfullCalls count)).sub.resources = [[0x61], [0x62]] := by
  have hlong : ∀ r ∈ (List.range count).map longName, r.length = 65535 := by
    intro r hr
    obtain ⟨i, -, rfl⟩ := List.mem_map.mp hr
    exact longName_length i
  have hshort : ∀ r ∈ [[(0x61 : UInt8)], [0x62]], r.length = 1 := by decide
  have hother : ResourceType.pub ≠ .sub := by decide
  have hnone : namesAdded .pub [] = [] := rfl
  obtain ⟨hrec, hpubs⟩ := recorded_adds recorded_nil hnone (longNames_nodup hcount) hlong
    (by simpa using hcount) fun _ _ => 0
  obtain ⟨hrec, hsubs⟩ := recorded_adds hrec (namesAdded_other hother [] _ _) (by decide) hshort
    (by decide) fun _ _ => 0
  have hpubs := (namesAdded_other hother.symm _ [[0x61], [0x62]] fun _ _ => 0).trans hpubs
  have hcalls : overfullCalls count = [] ++ ((List.range count).map longName).map
      (.add · .pub fun _ _ => 0) ++ [[0x61], [0x62]].map (.add · .sub fun _ _ => 0) := by
    rw [overfullCalls, List.map_map]
    rfl
  rw [← hcalls] at hrec hpubs hsubs
  have hpub := (hrec .pub).1.trans hpubs
  have hsub := (hrec .sub).1.trans hsubs
  refine ⟨⟨fun type => by rw [(hrec type).1, (hrec type).2], ?_⟩, hpub, hsub⟩
  intro type r hr
  cases type with
  | pub => exact (hlong r (hpub ▸ hr)).trans_lt (by decide)
  | sub => exact (hshort r (hsub ▸ hr)).trans_lt (by decide)

theorem listSize_longNames (count : Nat) :
    listSize ((List.range count).map longName) = count * 65537 := by
  induction count with
  | zero => rfl
  | succ count ih =>
    rw [List.range_succ, List.map_append, listSize_append, ih, List.map_singleton, listSize_cons,
      longName_length, Nat.succ_mul]
    rfl

/-- When `b` is copied, the offset has passed 2^32 by 2 and is 2: the copy goes between the length
and the name of the first publisher. -/
theorem overfull_misread (count : Nat) (hcount : count < 2 ^ 16)
    (hsize : count * 65537 + 3 = 2 ^ 32 + 2) (kind : ReplyKind) (nodeId : UInt64)
    (memory : Nat → UInt8) :
    (walkReply ((ReplyTask.build kind (ResourceTable.after (overfullCalls count))).buffer
      nodeId memory)).1 ≠ (ResourceTable.after (overfullCalls count)).pub.resources := by
  obtain ⟨-, hpub, hsub⟩ := overfull_table hcount
  generalize ResourceTable.after (overfullCalls count) = t at *
  have hlast : listSize t.pub.resources + listSize [[0x61]] = 2 ^ 32 + 2 := by
    rw [hpub, listSize_longNames]
    exact hsize
  have hwrites : ∃ writes, (ReplyTask.build kind t).writes =
      writes ++ [(replyHeaderSize + 2, resourceBytes [0x62])] := by
    have hconcat := copyResources_concat [[0x61]] [0x62]
      (0 + UInt32.ofNat (listSize t.pub.resources))
    rw [UInt32.zero_add, ← UInt32.ofNat_add, hlast] at hconcat
    rw [build_writes, hsub, copyResources_offset, UInt32.zero_add]
    exact ⟨_, (congrArg (_ ++ ·) hconcat).trans (List.append_assoc _ _ _).symm⟩
  obtain ⟨writes, hwrites⟩ := hwrites
  have hbyte : (ReplyTask.build kind t).buffer nodeId memory (replyHeaderSize + 2) = 1 := by
    rw [ReplyTask.buffer, hwrites, List.foldl_append]
    rfl
  intro hwalk
  obtain ⟨n, rfl⟩ : ∃ n, count = n + 1 := ⟨count - 1, by omega⟩
  obtain ⟨names, hnames⟩ : ∃ names, t.pub.resources = longName 0 :: names :=
    ⟨_, by rw [hpub, List.range_succ_eq_map, List.map_cons]⟩
  have hfirst := congrArg (·[0]?) (walkResources_first (hwalk.trans hnames))
  rw [longName_length] at hfirst
  simp only [peek, List.getElem?_map, Nat.add_zero] at hfirst
  rw [List.getElem?_range (by decide), Option.map_some, Nat.add_zero, hbyte] at hfirst
  exact absurd hfirst (by decide)

/-- Of 65535 publishers with names of 65535 bytes, and two subscribers, the reply is not read as it
was meant. -/
theorem not_replyRoundTrips_overfull :
    (ResourceTable.after (overfullCalls 65535)).WellFormed ∧
    ¬ ReplyRoundTrips .request (ResourceTable.after (overfullCalls 65535)) ∧
    (walkReply ((ReplyTask.build .request (ResourceTable.after (overfullCalls 65535))).buffer 1
      fun _ => 0)).1 ≠ (ResourceTable.after (overfullCalls 65535)).pub.resources := by
  have hmisread := overfull_misread 65535 (by omega) (by omega) .request 1 fun _ => 0
  exact ⟨(overfull_table (by omega)).1, fun h => hmisread h.pubs, hmisread⟩

end Overfull

end BmCore.Bcmp
