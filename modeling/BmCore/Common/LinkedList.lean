import BmCore.Common.Util
import BmCore.Library.Chain
import Mathlib.Data.List.AList
import Mathlib.Data.List.Perm.Subperm

/-!
# The linked list

`common/ll.c`: a doubly linked list of items found by their identifier. The memory holds the items
of the list. An item comes into it when it is added and leaves it when it is removed, since it is
then freed, or handed back to its owner if it was not allocated dynamically. An operation that
touches an address outside the memory has no result, nor has a walk that never ends.
-/
namespace BmCore
open Library

/-- `LLItem` -/
structure LLItem (α : Type) where
  next : Option Nat
  previous : Option Nat
  data : α
  id : UInt32

/-- `LL`, with the memory of its items. -/
structure LL (α : Type) where
  heap : AList fun _ : Nat => LLItem α
  head : Option Nat
  tail : Option Nat
  cursor : Option Nat

namespace LL
variable {α S : Type}

def empty : LL α := ⟨∅, none, none, none⟩

/-- No walk meets more items than the memory holds. -/
def fuel (ll : LL α) : Nat := ll.heap.keys.length

/-- `ll_item_add` of an item at `node`. -/
def itemAdd (ll : LL α) (node : Nat) (id : UInt32) (data : α) : Option (LL α) :=
  match ll.head with
  | some _ => do
    let heap := ll.heap.insert node ⟨none, ll.tail, data, id⟩
    let tail ← ll.tail
    let last ← heap.lookup tail
    let heap := heap.insert tail { last with next := some node }
    let item ← heap.lookup node
    some { ll with heap := heap.insert node { item with next := none }, tail := some node }
  | none =>
    some { ll with
      heap := ll.heap.insert node ⟨none, none, data, id⟩
      head := some node
      tail := some node }

/-- The loop of `ll_get_item` and `ll_remove`: the item with the identifier, and the one before
it. -/
def walk (heap : AList fun _ : Nat => LLItem α) (id : UInt32) :
    Nat → Option Nat → Option Nat → Option (Option Nat × Option Nat)
  | _, previous, none => some (previous, none)
  | 0, _, some _ => none
  | fuel + 1, previous, some current => do
    let item ← heap.lookup current
    if item.id ≠ id then walk heap id fuel (some current) item.next
    else some (previous, some current)

/-- The pointer `ll_get_item` hands out, named by the address of the item it belongs to; without
one the error is `BmENODEV`. -/
def getPtr (ll : LL α) (id : UInt32) : Option (Option Nat) :=
  (walk ll.heap id ll.fuel none ll.head).map Prod.snd

/-- The items from a pointer on. -/
def entriesFrom (heap : AList fun _ : Nat => LLItem α) : Nat → Option Nat → List (Nat × LLItem α)
  | fuel + 1, some current =>
    match heap.lookup current with
    | some item => (current, item) :: entriesFrom heap fuel item.next
    | none => []
  | _, _ => []

/-- The items that are reachable from the head, with their addresses. -/
def entries (ll : LL α) : List (Nat × LLItem α) := entriesFrom ll.heap ll.fuel ll.head

/-- `ll_get_item`, with what the pointer points to. -/
def getItem (ll : LL α) (id : UInt32) : Option (Option α) := do
  match ← ll.getPtr id with
  | some current => do
    let item ← ll.heap.lookup current
    some (some item.data)
  | none => some none

/-- `ll_remove` -/
def remove (ll : LL α) (id : UInt32) : Option (LL α × BmErr) := do
  let (previous, current) ← walk ll.heap id ll.fuel none ll.head
  match current with
  | some current => do
    let item ← ll.heap.lookup current
    let ll ← if ll.head = some current then
        some { ll with
          head := item.next
          tail := if ll.tail = some current then none else ll.tail }
      else do
        let tail := if ll.tail = some current then item.previous else ll.tail
        let previous ← previous
        let before ← ll.heap.lookup previous
        some { ll with
          heap := ll.heap.insert previous { before with next := item.next }
          tail }
    some ({ ll with heap := ll.heap.erase current }, .ok)
  | none => some (ll, .enodev)

/-- The item to be removed is the first, or not the last, or points back to the one before it: the
tail is right after its removal. -/
def backPointerOk (ll : LL α) (id : UInt32) : Bool :=
  match walk ll.heap id ll.fuel none ll.head with
  | some (some previous, some current) =>
    ll.tail != some current || (ll.heap.lookup current).bind LLItem.previous == some previous
  | _ => true

/-- `ll_advance_cursor`; without data the error is `BmENODEV`. -/
def advanceCursor (ll : LL α) : Option (LL α × Option α) :=
  match ll.cursor <|> ll.head with
  | some cursor => do
    let item ← ll.heap.lookup cursor
    some ({ ll with cursor := item.next }, some item.data)
  | none => some ({ ll with cursor := none }, none)

/-- The loop of `ll_traverse`. The callback sees the list, which it may change, and its own
state. -/
def traverseLoop (cb : LL α → S → α → Option (BmErr × LL α × S)) :
    Nat → LL α → S → Option (BmErr × LL α × S)
  | 0, _, _ => none
  | fuel + 1, ll, s => do
    let (ll, data) ← ll.advanceCursor
    match data with
    | none => some (.enodev, ll, s)
    | some data => do
      let (ret, ll, s) ← cb ll s data
      if ll.cursor.isSome ∧ ret = .ok then traverseLoop cb fuel ll s else some (ret, ll, s)

/-- `ll_traverse`, with a callback that adds no item. -/
def traverse (cb : LL α → S → α → Option (BmErr × LL α × S)) (ll : LL α) (s : S) :
    Option (BmErr × LL α × S) :=
  traverseLoop cb (ll.fuel + 1) { ll with cursor := none } s

/-! ## The list in memory -/

/-- An address with the item it holds. -/
abbrev Entry (α : Type) := Nat × LLItem α

/-- What the users of the list see of an item. -/
def payload (e : Entry α) : UInt32 × α := (e.2.id, e.2.data)

/-- The same with the address of the item. -/
def view (e : Entry α) : Nat × UInt32 × α := (e.1, payload e)

theorem map_fst_of_view {es fs : List (Entry α)} (h : es.map view = fs.map view) :
    es.map Prod.fst = fs.map Prod.fst := by
  simpa [view, Function.comp_def] using congrArg (List.map Prod.fst) h

theorem map_payload_of_view {es fs : List (Entry α)} (h : es.map view = fs.map view) :
    es.map payload = fs.map payload := by
  simpa [view, Function.comp_def] using congrArg (List.map Prod.snd) h

/-- From the head on a walk meets the items of `es` and ends. -/
structure Walkable (ll : LL α) (es : List (Entry α)) : Prop where
  nodup : (es.map Prod.fst).Nodup
  chain : Chain ll.heap.lookup LLItem.next ll.head es none

namespace Walkable
variable {ll : LL α} {es : List (Entry α)}

theorem lookup (h : Walkable ll es) {e : Entry α} (he : e ∈ es) :
    ll.heap.lookup e.1 = some e.2 :=
  h.chain.cell he

theorem mem_heap (h : Walkable ll es) {a : Nat} (ha : a ∈ es.map Prod.fst) : a ∈ ll.heap := by
  obtain ⟨e, he, rfl⟩ := List.mem_map.mp ha
  exact AList.lookup_isSome.mp (by simp [h.lookup he])

theorem length_le (h : Walkable ll es) : es.length ≤ ll.fuel := by
  have hsub : (es.map Prod.fst).Subperm ll.heap.keys :=
    List.Nodup.subperm h.nodup fun a ha => AList.mem_keys.mp (h.mem_heap ha)
  have hle := hsub.length_le
  rwa [List.length_map] at hle

end Walkable

/-- The memory holds the items of `es`, linked from head to tail. -/
structure Linked (ll : LL α) (es : List (Entry α)) : Prop where
  nodup : (es.map Prod.fst).Nodup
  chain : Chain ll.heap.lookup LLItem.next ll.head es none
  tail : ll.tail = lastAddr none es
  owned : ∀ a, a ∈ ll.heap ↔ a ∈ es.map Prod.fst

namespace Linked
variable {ll : LL α} {es : List (Entry α)}

theorem walkable (h : Linked ll es) : Walkable ll es := ⟨h.nodup, h.chain⟩

theorem lookup (h : Linked ll es) {e : Entry α} (he : e ∈ es) : ll.heap.lookup e.1 = some e.2 :=
  h.walkable.lookup he

theorem empty : Linked (empty : LL α) [] :=
  ⟨List.nodup_nil, rfl, rfl, fun a => by simp [LL.empty, AList.notMem_empty]⟩

end Linked

theorem entriesFrom_chain {heap : AList fun _ : Nat => LLItem α} {es : List (Entry α)}
    {p : Option Nat} (h : Chain heap.lookup LLItem.next p es none) {fuel : Nat}
    (hfuel : es.length ≤ fuel) : entriesFrom heap fuel p = es := by
  induction es generalizing p fuel with
  | nil =>
    obtain rfl : p = none := h
    cases fuel <;> rfl
  | cons e es ih =>
    obtain ⟨rfl, hcell, hrest⟩ := h
    have hread : heap.lookup e.1 = some e.2 := hcell
    obtain ⟨fuel, rfl⟩ := Nat.exists_eq_succ_of_ne_zero (Nat.ne_of_gt (Nat.lt_of_lt_of_le
      (Nat.succ_pos _) hfuel))
    rw [entriesFrom, hread]
    simp only [ih hrest (Nat.le_of_succ_le_succ hfuel)]

theorem Linked.entries_eq {ll : LL α} {es : List (Entry α)} (h : Linked ll es) :
    ll.entries = es :=
  entriesFrom_chain h.chain h.walkable.length_le

theorem walk_none (heap : AList fun _ : Nat => LLItem α) (id : UInt32) (fuel : Nat)
    (previous : Option Nat) : walk heap id fuel previous none = some (previous, none) := by
  cases fuel <;> rfl

/-- The walk passes the items with other identifiers. -/
theorem walk_pass {heap : AList fun _ : Nat => LLItem α} {id : UInt32} {es : List (Entry α)}
    {p q : Option Nat} (hchain : Chain heap.lookup LLItem.next p es q)
    (hid : ∀ e ∈ es, e.2.id ≠ id) (fuel : Nat) (previous : Option Nat) :
    walk heap id (es.length + fuel) previous p = walk heap id fuel (lastAddr previous es) q := by
  induction es generalizing p previous with
  | nil =>
    obtain rfl : p = q := hchain
    simp
  | cons e es ih =>
    obtain ⟨rfl, hcell, hrest⟩ := hchain
    have hread : heap.lookup e.1 = some e.2 := hcell
    have hne : e.2.id ≠ id := hid e List.mem_cons_self
    have hlen : (e :: es).length + fuel = (es.length + fuel) + 1 := by
      simp only [List.length_cons]
      omega
    rw [hlen, walk, hread]
    simp only [Option.bind_eq_bind, Option.bind_some, if_pos hne]
    exact ih hrest (fun f hf => hid f (List.mem_cons_of_mem _ hf)) _

/-- More fuel than items. -/
theorem walk_absent {ll : LL α} {es : List (Entry α)} (h : Walkable ll es) {id : UInt32}
    (hid : ∀ e ∈ es, e.2.id ≠ id) :
    walk ll.heap id ll.fuel none ll.head = some (lastAddr none es, none) := by
  obtain ⟨n, hn⟩ := Nat.exists_eq_add_of_le h.length_le
  rw [hn, walk_pass h.chain hid, walk_none]

theorem walk_found {ll : LL α} {pre post : List (Entry α)} {e : Entry α}
    (h : Walkable ll (pre ++ e :: post)) {id : UInt32} (hid : ∀ f ∈ pre, f.2.id ≠ id)
    (he : e.2.id = id) :
    walk ll.heap id ll.fuel none ll.head = some (lastAddr none pre, some e.1) := by
  obtain ⟨m, hpre, hrest⟩ := chain_append.mp h.chain
  obtain ⟨rfl, hcell, -⟩ := hrest
  have hread : ll.heap.lookup e.1 = some e.2 := hcell
  have hlen := h.length_le
  rw [List.length_append, List.length_cons] at hlen
  obtain ⟨n, hn⟩ := Nat.exists_eq_add_of_le hlen
  have hfuel : ll.fuel = pre.length + (post.length + n + 1) := by omega
  rw [hfuel, walk_pass hpre hid, walk, hread]
  simp [he]

/-- The first item with an identifier. -/
theorem split_at_id (es : List (Entry α)) (id : UInt32) :
    (∀ e ∈ es, e.2.id ≠ id) ∨
      ∃ pre e post, es = pre ++ e :: post ∧ (∀ f ∈ pre, f.2.id ≠ id) ∧ e.2.id = id := by
  induction es with
  | nil => exact .inl fun e he => absurd he List.not_mem_nil
  | cons e es ih =>
    by_cases he : e.2.id = id
    · exact .inr ⟨[], e, es, rfl, fun f hf => absurd hf List.not_mem_nil, he⟩
    · rcases ih with hnone | ⟨pre, f, post, rfl, hpre, hf⟩
      · exact .inl (by simpa [he] using hnone)
      · exact .inr ⟨e :: pre, f, post, rfl, by simpa [he] using hpre, hf⟩

/-! ## The operations on a linked list -/

section Operations
variable {ll : LL α} {es pre post : List (Entry α)} {e : Entry α} {id : UInt32}

theorem getPtr_absent (h : Walkable ll es) (hid : ∀ e ∈ es, e.2.id ≠ id) :
    ll.getPtr id = some none := by
  rw [getPtr, walk_absent h hid]
  rfl

theorem getPtr_found (h : Walkable ll (pre ++ e :: post)) (hid : ∀ f ∈ pre, f.2.id ≠ id)
    (he : e.2.id = id) : ll.getPtr id = some (some e.1) := by
  rw [getPtr, walk_found h hid he]
  rfl

theorem getItem_absent (h : Walkable ll es) (hid : ∀ e ∈ es, e.2.id ≠ id) :
    ll.getItem id = some none := by
  unfold getItem
  rw [getPtr_absent h hid]
  rfl

theorem getItem_found (h : Walkable ll (pre ++ e :: post)) (hid : ∀ f ∈ pre, f.2.id ≠ id)
    (he : e.2.id = id) : ll.getItem id = some (some e.2.data) := by
  unfold getItem
  rw [getPtr_found h hid he]
  simp [h.lookup (e := e) (by simp)]

theorem getItem_find (h : Walkable ll es) (id : UInt32) :
    ll.getItem id = some (((es.map payload).find? (·.1 == id)).map Prod.snd) := by
  rcases split_at_id es id with hnone | ⟨pre, e, post, rfl, hpre, he⟩
  · have hfind : (es.map payload).find? (·.1 == id) = none := by simpa [payload] using hnone
    rw [getItem_absent h hnone, hfind]
    rfl
  · have hfind : ((pre ++ e :: post).map payload).find? (·.1 == id) = some (payload e) := by
      have hpre' : (pre.map payload).find? (·.1 == id) = none := by simpa [payload] using hpre
      rw [List.map_append, List.find?_append, hpre']
      simp [payload, he]
    rw [getItem_found h hpre he, hfind]
    rfl

theorem remove_absent (h : Walkable ll es) (hid : ∀ e ∈ es, e.2.id ≠ id) :
    ll.remove id = some (ll, .enodev) := by
  unfold remove
  rw [walk_absent h hid]
  rfl

/-- An item is added behind the others. -/
theorem itemAdd_linked (h : Linked ll es) {node : Nat} (hnode : node ∉ ll.heap) (id : UInt32)
    (data : α) : ∃ ll' es', ll.itemAdd node id data = some ll' ∧
      Linked ll' (es' ++ [(node, ⟨none, lastAddr none es, data, id⟩)]) ∧
      es'.map view = es.map view ∧ es'.map (·.2.previous) = es.map (·.2.previous) := by
  have hfresh : node ∉ es.map Prod.fst := fun hmem => hnode ((h.owned node).mpr hmem)
  rcases List.eq_nil_or_concat es with rfl | ⟨fs, f, rfl⟩
  · have hhead : ll.head = none := h.chain
    refine ⟨_, [], by rw [itemAdd, hhead], ⟨by simp, ?_, by simp [lastAddr], ?_⟩, rfl, rfl⟩
    · exact ⟨rfl, by simp, rfl⟩
    · intro a
      have hempty := h.owned a
      simp only [List.map_nil, List.not_mem_nil, iff_false] at hempty
      simp [AList.mem_insert, hempty]
  · rw [List.concat_eq_append] at *
    obtain ⟨m, hpre, rfl, hcell, hend⟩ := chain_append.mp h.chain
    have hread : ll.heap.lookup f.1 = some f.2 := hcell
    have htail : ll.tail = some f.1 := by rw [h.tail, lastAddr_concat]
    have hhead : ∃ a, ll.head = some a := by
      cases fs with
      | nil => exact ⟨_, hpre⟩
      | cons g fs => exact ⟨_, hpre.1⟩
    obtain ⟨a, ha⟩ := hhead
    have hne : f.1 ≠ node := by
      rintro rfl
      exact hfresh (by simp)
    have hadd : ll.itemAdd node id data = some { ll with
        heap := ((ll.heap.insert node ⟨none, ll.tail, data, id⟩).insert f.1
          { f.2 with next := some node }).insert node ⟨none, ll.tail, data, id⟩
        tail := some node } := by
      unfold itemAdd
      rw [ha]
      simp [htail, AList.lookup_insert_ne hne, AList.lookup_insert_ne hne.symm, hread]
    refine ⟨_, fs ++ [(f.1, { f.2 with next := some node })], hadd, ⟨?_, ?_, ?_, ?_⟩, ?_, ?_⟩
    · have hnodup := h.nodup
      simp only [List.map_append, List.map_cons, List.map_nil] at hnodup hfresh ⊢
      exact List.nodup_append.mpr ⟨hnodup, by simp, by
        rintro x hx y hy rfl
        rw [List.mem_singleton.mp hy] at hx
        exact hfresh hx⟩
    · rw [List.append_assoc, chain_append]
      have hsplit : (fs.map Prod.fst ++ [f.1]).Nodup := by simpa using h.nodup
      refine ⟨some f.1, hpre.frame ?_, rfl, ?_, rfl, ?_, rfl⟩
      · intro b hb
        have hbf : b ≠ f.1 := by
          rintro rfl
          exact (List.nodup_append.mp hsplit).2.2 _ hb _ (by simp) rfl
        have hbn : b ≠ node := by
          rintro rfl
          exact hfresh (by simp only [List.map_append, List.mem_append]; exact .inl hb)
        simp [AList.lookup_insert_ne hbn, AList.lookup_insert_ne hbf]
      · simp [AList.lookup_insert_ne hne]
      · simp [htail]
    · dsimp only
      rw [lastAddr_concat]
    · intro b
      have hb := h.owned b
      simp only [AList.mem_insert, List.map_append, List.map_cons, List.map_nil, List.mem_append,
        List.mem_singleton] at hb ⊢
      rw [hb]
      grind
    · simp [view, payload]
    · simp

/-- Where the tail is astray the item is linked behind another one, or behind none. -/
theorem itemAdd_walkable (h : Walkable ll es) {node : Nat} (hnode : node ∉ ll.heap) {id : UInt32}
    {data : α} {ll' : LL α} (hadd : ll.itemAdd node id data = some ll') :
    ∃ es', Walkable ll' es' := by
  have hfresh : node ∉ es.map Prod.fst := fun hmem => hnode (h.mem_heap hmem)
  unfold itemAdd at hadd
  cases hhead : ll.head with
  | none =>
    rw [hhead] at hadd
    obtain rfl := Option.some.inj hadd
    refine ⟨[(node, ⟨none, none, data, id⟩)], by simp, rfl, by simp, rfl⟩
  | some first =>
    rw [hhead] at hadd
    simp only [Option.bind_eq_bind, Option.bind_eq_some_iff, Option.some.injEq] at hadd
    obtain ⟨tail, -, last, hlast, item, hitem, rfl⟩ := hadd
    by_cases htail : tail ∈ es.map Prod.fst
    · obtain ⟨e, he, rfl⟩ := List.mem_map.mp htail
      obtain ⟨pre, post, rfl⟩ := List.append_of_mem he
      have hne : e.1 ≠ node := by
        rintro rfl
        exact hfresh htail
      have hnodup : (pre.map Prod.fst ++ e.1 :: post.map Prod.fst).Nodup := by
        simpa using h.nodup
      obtain ⟨hnpre, -, hdisj⟩ := List.nodup_append.mp hnodup
      obtain ⟨m, hpre, rfl, -, -⟩ := chain_append.mp h.chain
      have hpfresh : node ∉ pre.map Prod.fst := fun hmem => hfresh (by
        rw [List.map_append, List.mem_append]
        exact .inl hmem)
      refine ⟨pre ++ [(e.1, { last with next := some node }), (node, { item with next := none })],
        ?_, chain_append.mpr ⟨some e.1, hhead ▸ hpre.frame ?_, rfl, ?_, rfl, by simp, rfl⟩⟩
      · simp only [List.map_append, List.map_cons, List.map_nil]
        refine List.nodup_append.mpr ⟨hnpre, by simpa using hne, ?_⟩
        intro a ha b hb
        rcases List.mem_cons.mp hb with rfl | hb
        · exact hdisj a ha e.1 (by simp)
        · rw [List.mem_singleton.mp hb]
          rintro rfl
          exact hpfresh ha
      · intro a ha
        have hae : a ≠ e.1 := hdisj a ha e.1 (by simp)
        have han : a ≠ node := by
          rintro rfl
          exact hpfresh ha
        simp [AList.lookup_insert_ne hae, AList.lookup_insert_ne han]
      · simp [AList.lookup_insert_ne hne]
    · refine ⟨es, h.nodup, hhead ▸ h.chain.frame ?_⟩
      intro a ha
      have han : a ≠ node := by
        rintro rfl
        exact hfresh ha
      have hat : a ≠ tail := by
        rintro rfl
        exact htail ha
      simp [AList.lookup_insert_ne han, AList.lookup_insert_ne hat]

/-- The list without its first item. -/
def unlinkHead (ll : LL α) (e : Entry α) : LL α :=
  { ll with
    heap := ll.heap.erase e.1
    head := e.2.next
    tail := if ll.tail = some e.1 then none else ll.tail }

/-- The list without the item `e` behind `p`. -/
def unlinkInner (ll : LL α) (p e : Entry α) : LL α :=
  { ll with
    heap := (ll.heap.insert p.1 { p.2 with next := e.2.next }).erase e.1
    tail := if ll.tail = some e.1 then e.2.previous else ll.tail }

theorem remove_head_walkable (h : Walkable ll (e :: post)) (he : e.2.id = id) :
    ll.remove id = some (ll.unlinkHead e, .ok) ∧ Walkable (ll.unlinkHead e) post := by
  obtain ⟨hhead, hcell, hrest⟩ := h.chain
  have hread : ll.heap.lookup e.1 = some e.2 := hcell
  have hsplit : Walkable ll ([] ++ e :: post) := h
  have hfound := walk_found hsplit (by simp) he
  have hnodup := List.nodup_cons.mp h.nodup
  refine ⟨?_, hnodup.2, ?_⟩
  · unfold remove unlinkHead
    rw [hfound]
    simp [hread, hhead]
  · refine Chain.frame hrest ?_
    intro a ha
    refine AList.lookup_erase_ne ?_
    rintro rfl
    exact hnodup.1 ha

/-- The first item is unlinked. -/
theorem remove_head (h : Linked ll (e :: post)) (he : e.2.id = id) :
    ll.remove id = some (ll.unlinkHead e, .ok) ∧ Linked (ll.unlinkHead e) post := by
  obtain ⟨hremove, hwalk⟩ := remove_head_walkable h.walkable he
  have hnodup := List.nodup_cons.mp h.nodup
  refine ⟨hremove, hwalk.nodup, hwalk.chain, ?_, ?_⟩
  · simp only [unlinkHead, h.tail]
    cases post with
    | nil => simp [lastAddr]
    | cons f post =>
      have hlast : lastAddr none (e :: f :: post) = lastAddr none (f :: post) := rfl
      rw [hlast, if_neg]
      intro htail
      exact hnodup.1 (lastAddr_mem htail (by simp))
  · intro a
    have ha := h.owned a
    simp only [unlinkHead, AList.mem_erase, List.map_cons, List.mem_cons] at ha ⊢
    rw [ha]
    constructor
    · rintro ⟨hne, rfl | hmem⟩
      · exact absurd rfl hne
      · exact hmem
    · intro hmem
      refine ⟨?_, .inr hmem⟩
      rintro rfl
      exact hnodup.1 hmem

theorem remove_inner_walkable {p : Entry α} (h : Walkable ll (pre ++ p :: e :: post))
    (hid : ∀ f ∈ pre ++ [p], f.2.id ≠ id) (he : e.2.id = id) :
    ll.remove id = some (ll.unlinkInner p e, .ok) ∧
      Walkable (ll.unlinkInner p e) (pre ++ (p.1, { p.2 with next := e.2.next }) :: post) := by
  have hsplit : Walkable ll ((pre ++ [p]) ++ e :: post) := by simpa using h
  have hfound := walk_found hsplit hid he
  rw [lastAddr_concat] at hfound
  obtain ⟨m, hpre, rfl, hp, hnext, hcell, hrest⟩ := chain_append.mp h.chain
  have hreadp : ll.heap.lookup p.1 = some p.2 := hp
  have hread : ll.heap.lookup e.1 = some e.2 := hcell
  have hnodup : (pre.map Prod.fst ++ p.1 :: e.1 :: post.map Prod.fst).Nodup := by
    simpa using h.nodup
  obtain ⟨-, hntail, hdisj⟩ := List.nodup_append.mp hnodup
  obtain ⟨hpfresh, hntail'⟩ := List.nodup_cons.mp hntail
  have hefresh := (List.nodup_cons.mp hntail').1
  have hne : p.1 ≠ e.1 := fun heq => hpfresh (by simp [heq])
  have hhead : ll.head ≠ some e.1 := by
    intro heq
    cases pre with
    | nil => exact hne (Option.some.inj (hpre.symm.trans heq))
    | cons f pre =>
      have hf : f.1 = e.1 := Option.some.inj (hpre.1.symm.trans heq)
      exact hdisj f.1 (by simp) e.1 (by simp) hf
  have hsame : ∀ a, a ≠ p.1 → a ≠ e.1 →
      (ll.unlinkInner p e).heap.lookup a = ll.heap.lookup a := by
    intro a hap hae
    rw [unlinkInner, AList.lookup_erase_ne hae, AList.lookup_insert_ne hap]
  refine ⟨?_, ?_, chain_append.mpr ⟨some p.1, hpre.frame ?_, rfl, ?_, hrest.frame ?_⟩⟩
  · unfold remove unlinkInner
    rw [hfound]
    simp [hread, hreadp, hhead]
  · have hsub : (pre.map Prod.fst ++ p.1 :: post.map Prod.fst).Sublist
        (pre.map Prod.fst ++ p.1 :: e.1 :: post.map Prod.fst) :=
      List.Sublist.append_left (List.Sublist.cons_cons _ (List.sublist_cons_self _ _)) _
    simpa using hsub.nodup hnodup
  · intro a ha
    exact hsame a (hdisj a ha p.1 (by simp)) (hdisj a ha e.1 (by simp))
  · simp [unlinkInner, AList.lookup_erase_ne hne]
  · intro a ha
    refine hsame a ?_ ?_
    · rintro rfl
      exact hpfresh (List.mem_cons_of_mem _ ha)
    · rintro rfl
      exact hefresh ha

/-- A later item is unlinked. The tail is the item before it only if that is where it points
back to. -/
theorem remove_inner {p : Entry α} (h : Linked ll (pre ++ p :: e :: post))
    (hid : ∀ f ∈ pre ++ [p], f.2.id ≠ id) (he : e.2.id = id)
    (hback : post ≠ [] ∨ e.2.previous = some p.1) :
    Linked (ll.unlinkInner p e) (pre ++ (p.1, { p.2 with next := e.2.next }) :: post) := by
  obtain ⟨-, hwalk⟩ := remove_inner_walkable h.walkable hid he
  have hnodup : (pre.map Prod.fst ++ p.1 :: e.1 :: post.map Prod.fst).Nodup := by
    simpa using h.nodup
  obtain ⟨-, hntail, hdisj⟩ := List.nodup_append.mp hnodup
  obtain ⟨hpfresh, hntail'⟩ := List.nodup_cons.mp hntail
  have hefresh := (List.nodup_cons.mp hntail').1
  refine ⟨hwalk.nodup, hwalk.chain, ?_, ?_⟩
  · simp only [unlinkInner]
    rw [h.tail, lastAddr_append, lastAddr_append]
    rcases List.eq_nil_or_concat post with rfl | ⟨qs, q, rfl⟩
    · have hprev := hback.resolve_left (by simp)
      simp [lastAddr, hprev]
    · have hqe : q.1 ≠ e.1 := by
        intro heq
        refine hefresh ?_
        rw [← heq]
        simp
      simp [lastAddr, hqe]
  · intro a
    have ha := h.owned a
    simp only [unlinkInner, AList.mem_erase, AList.mem_insert, List.map_append, List.map_cons,
      List.mem_append, List.mem_cons] at ha ⊢
    rw [ha]
    constructor
    · grind
    · intro hmem
      refine ⟨?_, by grind⟩
      intro hae
      rw [hae] at hmem
      rcases hmem with hmem | hmem | hmem
      · exact hdisj _ hmem e.1 (by simp) rfl
      · exact hpfresh (by simp [hmem])
      · exact hefresh hmem

/-- An item that is found is removed, and the others stay as they are. -/
theorem remove_found (h : Linked ll (pre ++ e :: post)) (hid : ∀ f ∈ pre, f.2.id ≠ id)
    (he : e.2.id = id) : ∃ ll', ll.remove id = some (ll', .ok) ∧ ll'.cursor = ll.cursor ∧
      (ll.backPointerOk id = true →
        ∃ es', Linked ll' es' ∧ es'.map view = (pre ++ post).map view) := by
  rcases List.eq_nil_or_concat pre with rfl | ⟨ps, p, rfl⟩
  · obtain ⟨hremove, hlinked⟩ := remove_head h he
    exact ⟨_, hremove, rfl, fun _ => ⟨post, hlinked, rfl⟩⟩
  · rw [List.concat_eq_append] at *
    have hsplit : Linked ll (ps ++ p :: e :: post) := by simpa using h
    obtain ⟨hremove, -⟩ := remove_inner_walkable hsplit.walkable hid he
    refine ⟨_, hremove, rfl, fun hok => ⟨_, remove_inner hsplit hid he ?_, by
      simp [view, payload]⟩⟩
    by_cases hpost : post = []
    · right
      subst hpost
      have htail : ll.tail = some e.1 := by rw [h.tail, lastAddr_concat]
      have hwalk := walk_found h.walkable hid he
      rw [lastAddr_concat] at hwalk
      simpa [backPointerOk, hwalk, htail, h.lookup (e := e) (by simp)] using hok
    · exact .inl hpost

/-- The item that the tail points to is the last one. -/
theorem last_of_tail (h : Linked ll (pre ++ e :: post)) (htail : ll.tail = some e.1) :
    post = [] := by
  rcases List.eq_nil_or_concat post with rfl | ⟨qs, q, rfl⟩
  · rfl
  · rw [List.concat_eq_append] at h
    have hsplit : pre ++ e :: (qs ++ [q]) = (pre ++ e :: qs) ++ [q] := by simp
    rw [hsplit] at h
    have hlast : some q.1 = some e.1 := by rw [← htail, h.tail, lastAddr_concat]
    have hnodup := h.nodup
    rw [List.map_append] at hnodup
    exact absurd (Option.some.inj hlast).symm
      ((List.nodup_append.mp hnodup).2.2 e.1 (by simp) q.1 (by simp))

/-- An added item points back to the last one. -/
theorem backsUp_add (h : BacksUp LLItem.previous [] es) (hnodup : (es.map Prod.fst).Nodup)
    {es' : List (Entry α)} (hview : es'.map view = es.map view)
    (hprev : es'.map (·.2.previous) = es.map (·.2.previous)) {item : Entry α}
    (hitem : item.2.previous = lastAddr none es) :
    BacksUp LLItem.previous [] (es' ++ [item]) := by
  have haddr := map_fst_of_view hview
  refine backsUp_append.mpr ⟨h.congr haddr hprev, ?_⟩
  rw [haddr]
  rcases List.eq_nil_or_concat es with rfl | ⟨fs, f, rfl⟩
  · trivial
  · rw [List.concat_eq_append] at hnodup hitem ⊢
    rw [lastAddr_concat] at hitem
    have hfresh : f.1 ∉ (fs.map Prod.fst).reverse := by
      intro hmem
      rw [List.map_append] at hnodup
      exact (List.nodup_append.mp hnodup).2.2 f.1 (List.mem_reverse.mp hmem) f.1 (by simp) rfl
    simpa [BacksUp, hitem] using hfresh

theorem backsUp_remove_head (h : BacksUp LLItem.previous [] (e :: post)) :
    BacksUp LLItem.previous [] post :=
  BacksUp.mono (h : BacksUp LLItem.previous [e.1] post) (List.nil_subset _) (List.nil_subset _)

theorem backsUp_remove_inner {p : Entry α} {next : Option Nat}
    (h : BacksUp LLItem.previous [] (pre ++ p :: e :: post)) :
    BacksUp LLItem.previous [] (pre ++ (p.1, { p.2 with next }) :: post) := by
  have hsplit : pre ++ p :: e :: post = (pre ++ [p]) ++ e :: post := by simp
  rw [hsplit] at h
  obtain ⟨hpre, hpost⟩ := backsUp_append.mp h
  have hsplit' : pre ++ (p.1, { p.2 with next }) :: post =
      (pre ++ [(p.1, { p.2 with next })]) ++ post := by simp
  rw [hsplit']
  refine backsUp_append.mpr ⟨hpre.congr (by simp) (by simp), ?_⟩
  simp only [List.map_append, List.map_cons, List.map_nil, List.reverse_append,
    List.reverse_cons, List.reverse_nil, List.nil_append, List.append_nil, List.cons_append]
    at hpost ⊢
  exact hpost.2.mono (List.subset_cons_self _ _) (List.subset_cons_self _ _)

/-- A removal keeps a list whose items point back to no item but the one before them, or it leaves
a tail that points to freed memory. -/
theorem remove_found_backsUp (h : Linked ll (pre ++ e :: post))
    (hback : BacksUp LLItem.previous [] (pre ++ e :: post)) (hid : ∀ f ∈ pre, f.2.id ≠ id)
    (he : e.2.id = id) : ∃ ll', ll.remove id = some (ll', .ok) ∧
      (ll.backPointerOk id = true → ∃ es', Linked ll' es' ∧ BacksUp LLItem.previous [] es' ∧
        es'.map view = (pre ++ post).map view) ∧
      (ll.backPointerOk id = false → ∃ a, ll'.tail = some a ∧ a ∉ ll'.heap) := by
  rcases List.eq_nil_or_concat pre with rfl | ⟨ps, p, rfl⟩
  · obtain ⟨hremove, hlinked⟩ := remove_head h he
    have hok : ll.backPointerOk id = true := by
      rw [backPointerOk, walk_found h.walkable hid he]
      rfl
    refine ⟨_, hremove, fun _ => ⟨post, hlinked, backsUp_remove_head hback, rfl⟩, fun hbad => ?_⟩
    rw [hok] at hbad
    cases hbad
  · rw [List.concat_eq_append] at *
    have hwalk := walk_found h.walkable hid he
    rw [lastAddr_concat] at hwalk
    have hread : ll.heap.lookup e.1 = some e.2 := h.lookup (by simp)
    obtain ⟨⟨a, hprev, hseen⟩, -⟩ : BacksUp LLItem.previous (p.1 :: (ps.map Prod.fst).reverse)
        (e :: post) := by simpa using (backsUp_append.mp hback).2
    have hsplit : ps ++ [p] ++ e :: post = ps ++ p :: e :: post := by simp
    rw [hsplit] at h hback
    obtain ⟨hremove, -⟩ := remove_inner_walkable h.walkable hid he
    refine ⟨_, hremove, fun hok => ?_, fun hbad => ?_⟩
    · refine ⟨_, remove_inner h hid he ?_, backsUp_remove_inner hback, by simp [view, payload]⟩
      by_cases hpost : post = []
      · subst hpost
        have htail : ll.tail = some e.1 := by rw [h.tail, ← hsplit, lastAddr_concat]
        exact .inr (by simpa [backPointerOk, hwalk, htail, hread] using hok)
      · exact .inl hpost
    · -- the last item points back to one that was taken out
      obtain ⟨htail, hne⟩ : ll.tail = some e.1 ∧ a ≠ p.1 := by
        simpa [backPointerOk, hwalk, hread, hprev] using hbad
      obtain rfl : post = [] := last_of_tail (hsplit.symm ▸ h) htail
      refine ⟨a, by simp [unlinkInner, htail, hprev], fun hmem => ?_⟩
      have howned := h.owned a
      simp only [unlinkInner, AList.mem_erase, AList.mem_insert] at hmem
      simp only [List.map_append, List.map_cons, List.mem_append, List.mem_cons,
        List.mem_reverse] at howned hseen
      grind

/-- An item that is found is removed and freed, wherever the tail and the back pointers are, and the
others stay as they are. -/
theorem remove_found_walkable (h : Walkable ll (pre ++ e :: post))
    (hid : ∀ f ∈ pre, f.2.id ≠ id) (he : e.2.id = id) :
    ∃ ll' es', ll.remove id = some (ll', .ok) ∧ ll'.cursor = ll.cursor ∧ Walkable ll' es' ∧
      es'.map view = (pre ++ post).map view ∧ ∀ a, a ∈ ll'.heap ↔ a ≠ e.1 ∧ a ∈ ll.heap := by
  rcases List.eq_nil_or_concat pre with rfl | ⟨ps, p, rfl⟩
  · obtain ⟨hremove, hwalk⟩ := remove_head_walkable h he
    exact ⟨_, _, hremove, rfl, hwalk, rfl, fun a => AList.mem_erase⟩
  · rw [List.concat_eq_append] at *
    have hsplit : Walkable ll (ps ++ p :: e :: post) := by simpa using h
    obtain ⟨hremove, hwalk⟩ := remove_inner_walkable hsplit hid he
    have hp : p.1 ∈ ll.heap := hsplit.mem_heap (by simp)
    refine ⟨_, _, hremove, rfl, hwalk, by simp [view, payload], fun a => ?_⟩
    simp only [unlinkInner, AList.mem_erase, AList.mem_insert]
    refine and_congr_right fun _ => ⟨?_, .inr⟩
    rintro (rfl | ha)
    · exact hp
    · exact ha

/-- A removal leaves a list that can be walked. -/
theorem remove_walkable (h : Walkable ll es) (id : UInt32) : ∃ ll' es' err,
    ll.remove id = some (ll', err) ∧ Walkable ll' es' := by
  rcases split_at_id es id with hnone | ⟨pre, e, post, rfl, hpre, he⟩
  · exact ⟨ll, es, _, remove_absent h hnone, h⟩
  · obtain ⟨ll', es', hremove, -, hwalk, -⟩ := remove_found_walkable h hpre he
    exact ⟨ll', es', _, hremove, hwalk⟩

/-- A removal does not look at the cursor. -/
theorem remove_withCursor (ll : LL α) (cursor : Option Nat) (id : UInt32) :
    { ll with cursor }.remove id =
      (ll.remove id).map fun r => ({ r.1 with cursor }, r.2) := by
  unfold remove fuel
  dsimp only
  cases walk ll.heap id ll.heap.keys.length none ll.head with
  | none => rfl
  | some found =>
    obtain ⟨previous, _ | current⟩ := found
    · rfl
    simp only [Option.bind_eq_bind, Option.bind_some]
    cases ll.heap.lookup current with
    | none => rfl
    | some item =>
      simp only [Option.bind_some]
      split
      · rfl
      cases previous with
      | none => rfl
      | some previous =>
        simp only [Option.bind_some]
        cases ll.heap.lookup previous <;> rfl

/-- What a callback that leaves the list alone sees: every item in turn, up to the first error. -/
def visit (f : S → α → BmErr × S) : S → List α → BmErr × S
  | s, [] => (.enodev, s)
  | s, data :: rest =>
    if rest ≠ [] ∧ (f s data).1 = .ok then visit f (f s data).2 rest else f s data

theorem Linked.withCursor (h : Linked ll es) (cursor : Option Nat) :
    Linked { ll with cursor } es :=
  ⟨h.nodup, h.chain, h.tail, h.owned⟩

theorem Walkable.withCursor (h : Walkable ll es) (cursor : Option Nat) :
    Walkable { ll with cursor } es :=
  ⟨h.nodup, h.chain⟩

/-- The cursor is moved behind the item it is at. -/
theorem advanceCursor_at (h : Walkable ll (pre ++ e :: post))
    (hat : (ll.cursor <|> ll.head) = some e.1) :
    ll.advanceCursor = some ({ ll with cursor := post.head?.map Prod.fst }, some e.2.data) := by
  obtain ⟨m, -, rfl, hcell, hrest⟩ := chain_append.mp h.chain
  have hread : ll.heap.lookup e.1 = some e.2 := hcell
  have hnext : e.2.next = post.head?.map Prod.fst := by
    cases post with
    | nil => exact hrest
    | cons f post => exact hrest.1
  unfold advanceCursor
  rw [hat]
  simp [hread, hnext]

/-- From an item on the loop visits the rest of the list. -/
theorem traverseLoop_visit {f : S → α → BmErr × S} (h : Linked ll (pre ++ e :: post))
    (hat : (ll.cursor <|> ll.head) = some e.1) {fuel : Nat} (hfuel : post.length < fuel) (s : S) :
    ∃ cursor, traverseLoop (fun ll s data => some ((f s data).1, ll, (f s data).2)) fuel ll s =
      some ((visit f s ((e :: post).map (·.2.data))).1, { ll with cursor },
        (visit f s ((e :: post).map (·.2.data))).2) := by
  induction post generalizing ll pre e s fuel with
  | nil =>
    obtain ⟨fuel, rfl⟩ := Nat.exists_eq_succ_of_ne_zero (Nat.ne_of_gt hfuel)
    refine ⟨none, ?_⟩
    rw [traverseLoop, advanceCursor_at h.walkable hat]
    simp [visit]
  | cons g post ih =>
    obtain ⟨fuel, rfl⟩ := Nat.exists_eq_succ_of_ne_zero (Nat.ne_of_gt (Nat.zero_lt_of_lt hfuel))
    rw [traverseLoop, advanceCursor_at h.walkable hat]
    by_cases hok : (f s e.2.data).1 = .ok
    · have hsplit : pre ++ e :: g :: post = (pre ++ [e]) ++ g :: post := by simp
      have hlt : post.length < fuel := Nat.lt_of_succ_lt_succ hfuel
      obtain ⟨cursor, hloop⟩ :=
        ih ((hsplit ▸ h).withCursor (some g.1)) rfl hlt (f s e.2.data).2
      refine ⟨cursor, ?_⟩
      simpa [visit, hok] using hloop
    · refine ⟨some g.1, ?_⟩
      simp [visit, hok]

/-- A traversal changes nothing but the cursor. -/
theorem traverse_visit (h : Linked ll es) (f : S → α → BmErr × S) (s : S) :
    ∃ cursor, ll.traverse (fun ll s data => some ((f s data).1, ll, (f s data).2)) s =
      some ((visit f s (es.map (·.2.data))).1, { ll with cursor },
        (visit f s (es.map (·.2.data))).2) := by
  unfold traverse
  cases es with
  | nil =>
    have hhead : ll.head = none := h.chain
    refine ⟨none, ?_⟩
    rw [traverseLoop]
    simp [advanceCursor, hhead, visit]
  | cons e es =>
    have hlen := h.walkable.length_le
    rw [List.length_cons] at hlen
    have hsplit : Linked { ll with cursor := none } ([] ++ e :: es) := h.withCursor none
    exact traverseLoop_visit hsplit h.chain.1 (by omega) s

end Operations

/-! ## What every item of the memory satisfies -/

/-- The list can be walked, and every item in memory satisfies `P`, on the list or not. -/
structure Holds (P : UInt32 → α → Prop) (ll : LL α) : Prop where
  walk : ∃ es, Walkable ll es
  cells : ∀ a item, ll.heap.lookup a = some item → P item.id item.data

namespace Holds
variable {P : UInt32 → α → Prop} {ll ll' : LL α} {id : UInt32} {data : α}

theorem empty : Holds P (LL.empty : LL α) := by
  refine ⟨⟨[], Linked.empty.walkable⟩, ?_⟩
  intro a item h
  simp [LL.empty] at h

theorem withCursor (h : Holds P ll) (cursor : Option Nat) : Holds P { ll with cursor } := by
  obtain ⟨es, hwalk⟩ := h.walk
  exact ⟨⟨es, hwalk.nodup, hwalk.chain⟩, h.cells⟩

theorem mono {Q : UInt32 → α → Prop} (h : Holds P ll) (himp : ∀ id data, P id data → Q id data) :
    Holds Q ll :=
  ⟨h.walk, fun a item hread => himp _ _ (h.cells a item hread)⟩

/-- A write that keeps identifier and data of an item. -/
theorem cells_insert {heap : AList fun _ : Nat => LLItem α} {a : Nat} {new : LLItem α}
    (h : ∀ b item, heap.lookup b = some item → P item.id item.data) (hnew : P new.id new.data)
    {b : Nat} {item : LLItem α} (hread : (heap.insert a new).lookup b = some item) :
    P item.id item.data := by
  by_cases hb : b = a
  · subst hb
    rw [AList.lookup_insert] at hread
    rwa [← Option.some.inj hread]
  · rw [AList.lookup_insert_ne hb] at hread
    exact h b item hread

theorem cells_erase {heap : AList fun _ : Nat => LLItem α} {a : Nat}
    (h : ∀ b item, heap.lookup b = some item → P item.id item.data)
    {b : Nat} {item : LLItem α} (hread : (heap.erase a).lookup b = some item) :
    P item.id item.data := by
  by_cases hb : b = a
  · subst hb
    rw [AList.lookup_erase] at hread
    exact absurd hread (by simp)
  · rw [AList.lookup_erase_ne hb] at hread
    exact h b item hread

theorem itemAdd (h : Holds P ll) {node : Nat} (hnode : node ∉ ll.heap) (hnew : P id data)
    (hadd : ll.itemAdd node id data = some ll') : Holds P ll' := by
  obtain ⟨es, hwalk⟩ := h.walk
  refine ⟨itemAdd_walkable hwalk hnode hadd, ?_⟩
  unfold LL.itemAdd at hadd
  cases hhead : ll.head with
  | none =>
    rw [hhead] at hadd
    obtain rfl := Option.some.inj hadd
    exact fun a item => cells_insert h.cells hnew
  | some first =>
    rw [hhead] at hadd
    simp only [Option.bind_eq_bind, Option.bind_eq_some_iff, Option.some.injEq] at hadd
    obtain ⟨tail, -, last, hlast, item, hitem, rfl⟩ := hadd
    have h₁ : ∀ a item, (ll.heap.insert node ⟨none, ll.tail, data, id⟩).lookup a = some item →
        P item.id item.data := fun a item => cells_insert h.cells hnew
    have hlast' : P { last with next := some node }.id { last with next := some node }.data :=
      h₁ tail last hlast
    have h₂ : ∀ a item, ((ll.heap.insert node ⟨none, ll.tail, data, id⟩).insert tail
        { last with next := some node }).lookup a = some item → P item.id item.data :=
      fun a item => cells_insert h₁ hlast'
    have hitem' : P { item with next := none }.id { item with next := none }.data :=
      h₂ node item hitem
    exact fun a other => cells_insert h₂ hitem'

theorem remove (h : Holds P ll) {err : BmErr} (hremove : ll.remove id = some (ll', err)) :
    Holds P ll' := by
  obtain ⟨es, hwalk⟩ := h.walk
  obtain ⟨ll'', es', err', hremove', hwalk'⟩ := remove_walkable hwalk id
  obtain ⟨rfl, -⟩ := Prod.mk.inj (Option.some.inj (hremove'.symm.trans hremove))
  refine ⟨⟨es', hwalk'⟩, ?_⟩
  unfold LL.remove at hremove
  simp only [Option.bind_eq_bind, Option.bind_eq_some_iff] at hremove
  obtain ⟨⟨previous, current⟩, -, hremove⟩ := hremove
  cases current with
  | none =>
    obtain ⟨rfl, -⟩ := Prod.mk.inj (Option.some.inj hremove)
    exact h.cells
  | some current =>
    simp only [Option.bind_eq_some_iff] at hremove
    obtain ⟨item, hitem, hremove⟩ := hremove
    split at hremove
    · obtain ⟨rfl, -⟩ := Prod.mk.inj (Option.some.inj hremove)
      exact fun a other => cells_erase h.cells
    · simp only [Option.bind_eq_some_iff] at hremove
      obtain ⟨before, -, last, hlast, unlinked, hunlinked, hremove⟩ := hremove
      obtain rfl := Option.some.inj hunlinked
      obtain ⟨rfl, -⟩ := Prod.mk.inj (Option.some.inj hremove)
      have hlast' : P { last with next := item.next }.id { last with next := item.next }.data :=
        h.cells before last hlast
      exact fun a other => cells_erase fun a other => cells_insert h.cells hlast'

/-- A pointer that is handed out leads to an item with the identifier. -/
theorem getPtr (h : Holds P ll) (id : UInt32) : ∃ found, ll.getPtr id = some found ∧
    ∀ a ∈ found, ∃ item, ll.heap.lookup a = some item ∧ item.id = id ∧ P id item.data := by
  obtain ⟨es, hwalk⟩ := h.walk
  rcases split_at_id es id with hnone | ⟨pre, e, post, rfl, hpre, rfl⟩
  · exact ⟨none, getPtr_absent hwalk hnone, by simp⟩
  · refine ⟨some e.1, getPtr_found hwalk hpre rfl, ?_⟩
    have hread := hwalk.lookup (e := e) (by simp)
    rintro a ⟨⟩
    exact ⟨e.2, hread, rfl, h.cells _ _ hread⟩

/-- A traversal keeps what its callback keeps. -/
theorem traverse {cb : LL α → S → α → Option (BmErr × LL α × S)}
    (hcb : ∀ ll s data ret ll' s', Holds P ll → cb ll s data = some (ret, ll', s') → Holds P ll')
    (h : Holds P ll) {s s' : S} {ret : BmErr} (htraverse : ll.traverse cb s = some (ret, ll', s')) :
    Holds P ll' := by
  have hloop : ∀ fuel (ll : LL α) (s : S), Holds P ll →
      traverseLoop cb fuel ll s = some (ret, ll', s') → Holds P ll' := by
    intro fuel
    induction fuel with
    | zero =>
      intro ll s _ hnone
      exact absurd hnone (by simp [traverseLoop])
    | succ fuel ih =>
      intro ll s h hrun
      rw [traverseLoop] at hrun
      simp only [Option.bind_eq_bind, Option.bind_eq_some_iff] at hrun
      obtain ⟨⟨ll₁, seen⟩, hadvance, hrun⟩ := hrun
      have h₁ : Holds P ll₁ := by
        unfold advanceCursor at hadvance
        split at hadvance
        · simp only [Option.bind_eq_bind, Option.bind_eq_some_iff, Option.some.injEq,
            Prod.mk.injEq] at hadvance
          obtain ⟨item, -, rfl, -⟩ := hadvance
          exact h.withCursor _
        · obtain ⟨rfl, -⟩ := Prod.mk.inj (Option.some.inj hadvance)
          exact h.withCursor _
      cases seen with
      | none =>
        obtain ⟨-, rfl, -⟩ : _ ∧ ll₁ = ll' ∧ s = s' := by simpa using hrun
        exact h₁
      | some seen =>
        simp only [Option.bind_eq_some_iff] at hrun
        obtain ⟨⟨ret₂, ll₂, s₂⟩, hcall, hrun⟩ := hrun
        have h₂ : Holds P ll₂ := hcb _ _ _ _ _ _ h₁ hcall
        dsimp only at hrun
        split at hrun
        · exact ih ll₂ s₂ h₂ hrun
        · obtain ⟨-, rfl, -⟩ : _ ∧ ll₂ = ll' ∧ s₂ = s' := by simpa using hrun
          exact h₂
  exact hloop _ _ _ (h.withCursor none) htraverse

end Holds

end LL
end BmCore
