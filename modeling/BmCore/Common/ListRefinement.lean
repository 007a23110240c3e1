import BmCore.Common.LinkedList
import BmCore.Library.Runs
import Mathlib.Data.List.TakeWhile

/-!
# The linked list as a list

Runs of the operations of `ll.c` beside the same operations on a plain list. `ll_remove` does not
rewrite the back pointer of the item behind the one it takes out, so the two agree on everything,
back pointers included, exactly as long as only last items are removed.
-/
namespace BmCore.LL
open Library

variable {α : Type}

/-- A call of one of the operations. A callback of `ll_traverse` decides from the items it has
seen and the one it is at. -/
inductive Op (α : Type) where
  | add (node : Nat) (id : UInt32) (data : α)
  | get (id : UInt32)
  | remove (id : UInt32)
  | traverse (cb : List α → α → BmErr)

/-- What a call returns, and what a traversal has seen. -/
inductive Out (α : Type) where
  | err (ret : BmErr)
  | got (data : Option α)
  | visited (ret : BmErr) (datas : List α)

def exec (ll : LL α) : Op α → Option (LL α × Out α)
  | .add node id data => (ll.itemAdd node id data).map (·, .err .ok)
  | .get id => (ll.getItem id).map (ll, .got ·)
  | .remove id => (ll.remove id).map fun (ll, ret) => (ll, .err ret)
  | .traverse cb =>
    (ll.traverse (fun ll seen data => some (cb seen data, ll, seen ++ [data])) []).map
      fun (ret, ll, seen) => (ll, .visited ret seen)

/-! ## The plain list -/

/-- The same operation on a list of identifiers and data: append, find the first, remove the
first, visit in order. -/
def spec (items : List (UInt32 × α)) : Op α → List (UInt32 × α) × Out α
  | .add _ id data => (items ++ [(id, data)], .err .ok)
  | .get id => (items, .got ((items.find? (·.1 == id)).map Prod.snd))
  | .remove id =>
    (items.eraseP (·.1 == id), .err (if items.any (·.1 == id) then .ok else .enodev))
  | .traverse cb =>
    let visited := visit (fun seen data => (cb seen data, seen ++ [data])) [] (items.map Prod.snd)
    (items, .visited visited.1 visited.2)

/-- Head, tail, next and previous hold the items in order. -/
def Consistent (ll : LL α) (items : List (UInt32 × α)) : Prop :=
  ∃ es, Linked ll es ∧ Backlinked LLItem.previous none es ∧ items = es.map payload

/-! ## Runs -/

/-- The list in memory beside the plain list; no list once an operation has gone astray. -/
structure ListRun (α : Type) where
  ll : Option (LL α)
  items : List (UInt32 × α)

def ListRun.init : ListRun α := ⟨some .empty, []⟩

def ListRun.step (r : ListRun α) (op : Op α) : ListRun α :=
  ⟨r.ll.bind fun ll => (ll.exec op).map Prod.fst, (spec r.items op).1⟩

/-- An item to be added is not in the list. -/
def freshNode (r : ListRun α) : Op α → Bool
  | .add node _ _ => r.ll.all fun ll => (ll.heap.lookup node).isNone
  | _ => true

/-- The call returns what it returns on the plain list, touches nothing but the items, and leaves
them linked as the plain list has them. -/
def Agrees (r : ListRun α) (op : Op α) : Prop :=
  ∃ ll ll' out, r.ll = some ll ∧ ll.exec op = some (ll', out) ∧ out = (spec r.items op).2 ∧
    Consistent ll' (spec r.items op).1

/-- No item that others follow is removed. -/
def removesLast (items : List (UInt32 × α)) : Op α → Bool
  | .remove id => (items.dropWhile (·.1 != id)).length ≤ 1
  | _ => true

/-! ## One operation -/

section Step
variable {ll : LL α} {items : List (UInt32 × α)}

theorem find?_payload {es : List (Entry α)} {id : UInt32} (h : ∀ e ∈ es, e.2.id ≠ id) :
    (es.map payload).find? (·.1 == id) = none := by
  simp only [List.find?_eq_none, List.mem_map, forall_exists_index, and_imp]
  rintro x e he rfl
  simpa [payload] using h e he

theorem exec_add (h : Consistent ll items) {node : Nat} (hnode : node ∉ ll.heap) (id : UInt32)
    (data : α) : ∃ ll', ll.exec (.add node id data) = some (ll', .err .ok) ∧
      Consistent ll' (items ++ [(id, data)]) := by
  obtain ⟨es, hlinked, hback, rfl⟩ := h
  obtain ⟨ll', es', hadd, hlinked', hview, hprev⟩ := itemAdd_linked hlinked hnode id data
  have haddr := map_fst_of_view hview
  refine ⟨ll', by simp [exec, hadd], _, hlinked', ?_, ?_⟩
  · refine backlinked_append.mpr ⟨hback.congr haddr hprev, ?_, trivial⟩
    exact lastAddr_congr haddr.symm
  · rw [List.map_append, map_payload_of_view hview]
    rfl

theorem exec_get (h : Consistent ll items) (id : UInt32) :
    ll.exec (.get id) = some (ll, .got ((items.find? (·.1 == id)).map Prod.snd)) := by
  obtain ⟨es, hlinked, -, rfl⟩ := h
  rcases split_at_id es id with hnone | ⟨pre, e, post, rfl, hpre, he⟩
  · simp [exec, getItem_absent hlinked.walkable hnone, find?_payload hnone]
  · simp [exec, getItem_found hlinked.walkable hpre he, find?_payload hpre, payload, he]

theorem exec_traverse (h : Consistent ll items) (cb : List α → α → BmErr) :
    ∃ ll', ll.exec (.traverse cb) = some (ll', (spec items (.traverse cb)).2) ∧
      Consistent ll' items := by
  obtain ⟨es, hlinked, hback, rfl⟩ := h
  obtain ⟨cursor, htraverse⟩ :=
    traverse_visit hlinked (fun seen data => (cb seen data, seen ++ [data])) []
  refine ⟨{ ll with cursor }, ?_, es, hlinked.withCursor cursor, hback, rfl⟩
  have hdata : (es.map payload).map Prod.snd = es.map (·.2.data) := by
    simp [payload]
  simp only [exec, spec, hdata]
  rw [htraverse]
  rfl

/-- Items before the first one with an identifier. -/
theorem payload_ne {pre : List (Entry α)} {id : UInt32} (h : ∀ f ∈ pre, f.2.id ≠ id) :
    ∀ x ∈ pre.map payload, x.1 ≠ id := by
  intro x hx
  obtain ⟨f, hf, rfl⟩ := List.mem_map.mp hx
  exact h f hf

theorem spec_remove_absent {es : List (Entry α)} {id : UInt32} (h : ∀ e ∈ es, e.2.id ≠ id) :
    spec (es.map payload) (.remove id) = (es.map payload, .err .enodev) := by
  have hne := payload_ne h
  have herase : (es.map payload).eraseP (·.1 == id) = es.map payload :=
    List.eraseP_of_forall_not fun x hx => by simpa using hne x hx
  have hany : (es.map payload).any (·.1 == id) = false := by
    rw [List.any_eq_false]
    intro x hx
    simpa using hne x hx
  simp [spec, herase, hany]

theorem spec_remove_found {pre post : List (Entry α)} {e : Entry α} {id : UInt32}
    (h : ∀ f ∈ pre, f.2.id ≠ id) (he : e.2.id = id) :
    spec ((pre ++ e :: post).map payload) (.remove id) =
      ((pre ++ post).map payload, .err .ok) := by
  have hne := payload_ne h
  have herase : ((pre ++ e :: post).map payload).eraseP (·.1 == id) =
      (pre ++ post).map payload := by
    rw [List.map_append, List.eraseP_append_right _ fun x hx => by simpa using hne x hx]
    simp [payload, he]
  have hany : ((pre ++ e :: post).map payload).any (·.1 == id) = true := by
    rw [List.any_eq_true]
    exact ⟨payload e, by simp, by simp [payload, he]⟩
  simp only [spec, herase, hany, if_true]

theorem removesLast_found {pre post : List (Entry α)} {e : Entry α} {id : UInt32}
    (h : ∀ f ∈ pre, f.2.id ≠ id) (he : e.2.id = id) :
    removesLast ((pre ++ e :: post).map payload) (.remove id) = true ↔ post = [] := by
  have hdrop : ((pre ++ e :: post).map payload).dropWhile (·.1 != id) =
      (e :: post).map payload := by
    rw [List.map_append, List.dropWhile_append_of_pos]
    · simp [payload, he]
    · intro x hx
      simpa using payload_ne h x hx
  rw [removesLast, hdrop]
  simp

/-- A removal agrees with the plain list exactly when it takes the last item, or none. -/
theorem exec_remove (h : Consistent ll items) (id : UInt32) :
    (∃ ll' out, ll.exec (.remove id) = some (ll', out) ∧ out = (spec items (.remove id)).2 ∧
      Consistent ll' (spec items (.remove id)).1) ↔ removesLast items (.remove id) = true := by
  obtain ⟨es, hlinked, hback, rfl⟩ := h
  rcases split_at_id es id with hnone | ⟨pre, e, post, rfl, hpre, he⟩
  · have hdrop : removesLast (es.map payload) (.remove id) = true := by
      have : (es.map payload).dropWhile (·.1 != id) = [] := by
        rw [List.dropWhile_eq_nil_iff]
        intro x hx
        simpa using payload_ne hnone x hx
      simp [removesLast, this]
    rw [spec_remove_absent hnone]
    refine iff_of_true ⟨ll, .err .enodev, ?_, rfl, es, hlinked, hback, rfl⟩ hdrop
    simp [exec, remove_absent hlinked.walkable hnone]
  rw [removesLast_found hpre he, spec_remove_found hpre he]
  obtain ⟨hbpre, hbe, hbpost⟩ := backlinked_append.mp hback
  rcases List.eq_nil_or_concat pre with rfl | ⟨ps, p, rfl⟩
  · obtain ⟨hremove, hlinked'⟩ := remove_head hlinked he
    constructor
    · rintro ⟨ll'', out, hexec, -, fs, hlinked'', hback'', -⟩
      obtain rfl : ll.unlinkHead e = ll'' := by
        simpa [exec, hremove] using congrArg (Option.map Prod.fst) hexec
      rw [← hlinked'.chain.unique hlinked''.chain] at hback''
      cases post with
      | nil => rfl
      | cons f post => exact absurd (hbpost.1.symm.trans hback''.1) (by simp)
    · rintro rfl
      exact ⟨_, .err .ok, by simp [exec, hremove], rfl, [], hlinked', trivial, rfl⟩
  · rw [List.concat_eq_append] at *
    have hsplit : ps ++ [p] ++ e :: post = ps ++ p :: e :: post := by simp
    have hlinked' : Linked ll (ps ++ p :: e :: post) := hsplit ▸ hlinked
    obtain ⟨hremove, hwalk⟩ := remove_inner_walkable hlinked'.walkable hpre he
    constructor
    · rintro ⟨ll'', out, hexec, -, fs, hlinked'', hback'', -⟩
      obtain rfl : ll.unlinkInner p e = ll'' := by
        simpa [exec, hremove] using congrArg (Option.map Prod.fst) hexec
      rw [← hwalk.chain.unique hlinked''.chain] at hback''
      cases post with
      | nil => rfl
      | cons f post =>
        -- the item behind points back to the removed one
        have hold : f.2.previous = some e.1 := hbpost.1
        have hnew : f.2.previous = some p.1 := ((backlinked_append.mp hback'').2).2.1
        have hpe : p.1 = e.1 := Option.some.inj (hnew.symm.trans hold)
        have hnodup := hlinked.nodup
        rw [hsplit, List.map_append] at hnodup
        have hcons := (List.nodup_append.mp hnodup).2.1
        exact absurd (by simp [hpe]) (List.nodup_cons.mp hcons).1
    · rintro rfl
      rw [lastAddr_concat] at hbe
      refine ⟨_, .err .ok, by simp [exec, hremove], rfl, _,
        remove_inner hlinked' hpre he (.inr hbe), ?_, ?_⟩
      · refine hbpre.congr ?_ ?_ <;> simp
      · simp [payload]

end Step

/-- One step of a consistent run agrees with the plain list exactly when it removes no item that
others follow. -/
theorem agrees_iff {r : ListRun α} {ll : LL α} (hll : r.ll = some ll)
    (h : Consistent ll r.items) {op : Op α} (hfresh : freshNode r op = true) :
    Agrees r op ↔ removesLast r.items op = true := by
  cases op with
  | add node id data =>
    have hnode : node ∉ ll.heap := by
      simpa [freshNode, hll, AList.lookup_eq_none] using hfresh
    obtain ⟨ll', hexec, hcons⟩ := exec_add h hnode id data
    exact iff_of_true ⟨ll, ll', _, hll, hexec, rfl, hcons⟩ rfl
  | get id => exact iff_of_true ⟨ll, ll, _, hll, exec_get h id, rfl, h⟩ rfl
  | remove id =>
    rw [← exec_remove h id]
    constructor
    · rintro ⟨ll₀, ll', out, hll', hrest⟩
      obtain rfl : ll = ll₀ := Option.some.inj (hll.symm.trans hll')
      exact ⟨ll', out, hrest⟩
    · rintro ⟨ll', out, hrest⟩
      exact ⟨ll, ll', out, hll, hrest⟩
  | traverse cb =>
    obtain ⟨ll', hexec, hcons⟩ := exec_traverse h cb
    exact iff_of_true ⟨ll, ll', _, hll, hexec, rfl, hcons⟩ rfl

theorem agrees_runs {r : ListRun α} {ll : LL α} (hll : r.ll = some ll)
    (h : Consistent ll r.items) {ops : List (Op α)}
    (hfresh : Along ListRun.step (fun r op => freshNode r op = true) r ops) :
    Along ListRun.step Agrees r ops ↔
      Along ListRun.step (fun r op => removesLast r.items op = true) r ops := by
  induction ops generalizing r ll with
  | nil => exact Iff.rfl
  | cons op ops ih =>
    have hstep := agrees_iff hll h hfresh.1
    have hrest : Agrees r op → (Along ListRun.step Agrees (r.step op) ops ↔
        Along ListRun.step (fun r op => removesLast r.items op = true) (r.step op) ops) := by
      rintro ⟨ll₀, ll', out, hll', hexec, -, hcons⟩
      have hnext : (r.step op).ll = some ll' := by simp [ListRun.step, hll', hexec]
      exact ih hnext hcons hfresh.2
    constructor
    · rintro ⟨hag, hall⟩
      exact ⟨hstep.mp hag, (hrest hag).mp hall⟩
    · rintro ⟨hlast, hall⟩
      have hag := hstep.mpr hlast
      exact ⟨hag, (hrest hag).mpr hall⟩

/-- From an empty list on, every call agrees with the plain list exactly when no call removes an
item that others follow. -/
theorem ll_refines_list_iff (ops : List (Op α))
    (hfresh : Along ListRun.step (fun r op => freshNode r op = true) ListRun.init ops) :
    Along ListRun.step Agrees ListRun.init ops ↔
      Along ListRun.step (fun r op => removesLast r.items op = true) ListRun.init ops :=
  agrees_runs rfl ⟨[], Linked.empty, trivial, rfl⟩ hfresh

theorem ll_refines_list_lastRemoved : Along ListRun.step Agrees ListRun.init
    [.add 1 7 10, .add 2 8 20, .remove 8, .add 2 9 30, .get 7, .traverse fun _ _ => .ok] :=
  (ll_refines_list_iff [.add 1 7 10, .add 2 8 20, .remove 8, .add 2 9 30, .get 7,
    .traverse fun _ _ => .ok] (by decide +kernel)).mpr (by decide +kernel)

/-- Items 1, 2 and 3; the second and then the third are removed, and the tail is the freed second
one. The next item is written behind it and lost. -/
def strayRun : List (Op Nat) :=
  [.add 1 7 10, .add 2 8 20, .add 3 9 30, .remove 8, .remove 9, .add 4 5 40]

theorem strayRun_not_list :
    Along ListRun.step (fun r op => freshNode r op = true) ListRun.init strayRun ∧
      (strayRun.foldl ListRun.step ListRun.init).ll.isNone = true ∧
      (strayRun.foldl ListRun.step ListRun.init).items = [(7, 10), (5, 40)] ∧
      ¬ Along ListRun.step Agrees ListRun.init strayRun := by
  have hfresh : Along ListRun.step (fun r op => freshNode r op = true) ListRun.init strayRun := by
    decide +kernel
  refine ⟨hfresh, by decide +kernel, by decide +kernel, ?_⟩
  intro hag
  have hlast := (agrees_runs rfl ⟨[], Linked.empty, trivial, rfl⟩ hfresh).mp hag
  exact absurd hlast (by decide +kernel)

end BmCore.LL
