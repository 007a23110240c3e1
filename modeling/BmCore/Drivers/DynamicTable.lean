import Mathlib.Algebra.Group.Nat.Defs
import Mathlib.Data.Finset.Card
import Mathlib.Data.Finset.Range
import Mathlib.Logic.Function.Basic

/-!
# The dynamic forwarding table

The table in `drivers/adin2111/adin2111.c` that remembers behind which port an address was heard.
Entries age with every tick. An address that is heard again is refreshed, and when the table is full
a new one takes the place of the entry at `dynamicTableReplaceLoc`. `Heard` is what a table without
bounds would remember.
-/
namespace BmCore.Drivers

/-- `adin2111_TxPort_e` -/
inductive TxPort where
  | port1 | port2 | auto | flood
  deriving DecidableEq, Repr

/-- `ADIN2111_DYNAMIC_TABLE_SIZE` -/
def dynamicTableSize : Nat := 16

/-- `ADIN2111_DYNAMIC_TABLE_MAX_AGE` -/
def dynamicTableMaxAge : Nat := 16

/-- `adin2111_DynamicTableEntry_t` -/
structure DynamicTableEntry where
  age : Nat := 0
  fromPort : TxPort := .port1
  /-- the six bytes of the address -/
  macAddress : List UInt8 := []
  refresh : Bool := false

/-- What a tick does to an entry. -/
def DynamicTableEntry.tick (e : DynamicTableEntry) : DynamicTableEntry :=
  if e.refresh then { e with age := dynamicTableMaxAge, refresh := false }
  else { e with age := e.age - 1 }

/-- `dynamicTable` and `dynamicTableReplaceLoc` of `adin2111_DeviceStruct_t` -/
structure DynamicTable where
  entries : Nat → DynamicTableEntry
  replaceLoc : Nat

namespace DynamicTable

/-- `adin2111_ClearDynamicTable` -/
def clear (t : DynamicTable) : DynamicTable :=
  { t with entries := fun i => { t.entries i with age := 0, refresh := false } }

/-- `adin2111_AgeTick` -/
def ageTick (t : DynamicTable) : DynamicTable :=
  { t with entries := fun i => (t.entries i).tick }

/-- The entry of an address that has not aged out. -/
def find (t : DynamicTable) (macAddress : List UInt8) : Option Nat :=
  (List.range dynamicTableSize).find? fun i =>
    (t.entries i).age ≠ 0 ∧ (t.entries i).macAddress = macAddress

/-- `dynamicTableLookup` -/
def lookup (t : DynamicTable) (macAddress : List UInt8) : TxPort :=
  match t.find macAddress with
  | some i => (t.entries i).fromPort
  | none => .flood

/-- The entry that has aged out first in the table. -/
def firstEmpty (t : DynamicTable) : Option Nat :=
  (List.range dynamicTableSize).find? fun i => (t.entries i).age = 0

/-- `dynamicTableLearn` -/
def learn (t : DynamicTable) (port : TxPort) (macAddress : List UInt8) : DynamicTable :=
  match t.find macAddress with
  | some i =>
    let e := { t.entries i with fromPort := port, refresh := true }
    { t with entries := Function.update t.entries i e }
  | none =>
    let e : DynamicTableEntry := { age := dynamicTableMaxAge, fromPort := port, macAddress }
    match t.firstEmpty with
    | some i => { t with entries := Function.update t.entries i e }
    | none =>
      { entries := Function.update t.entries t.replaceLoc e
        replaceLoc := if t.replaceLoc + 1 ≥ dynamicTableSize then 0 else t.replaceLoc + 1 }

/-- What happens to the table. -/
inductive Op where
  | learn (port : TxPort) (macAddress : List UInt8)
  | ageTick
  | clear

def step (t : DynamicTable) : Op → DynamicTable
  | .learn port macAddress => t.learn port macAddress
  | .ageTick => t.ageTick
  | .clear => t.clear

/-- The table after `adin2111_Init`. -/
def init : DynamicTable := { entries := fun _ => {}, replaceLoc := 0 }

def run (ops : List Op) : DynamicTable := ops.foldl step init

end DynamicTable

open DynamicTable

/-- The port that an address was last heard from, and how many ticks ago. -/
abbrev Heard := List UInt8 → Option (TxPort × Nat)

namespace Heard

def step (m : Heard) : Op → Heard
  | .learn port macAddress => Function.update m macAddress (some (port, 0))
  | .ageTick => fun a => (m a).map fun h => (h.1, h.2 + 1)
  | .clear => fun _ => none

def run (ops : List Op) : Heard := ops.foldl step fun _ => none

end Heard

/-- The addresses that are heard. -/
def addresses (ops : List Op) : List (List UInt8) :=
  ops.filterMap fun
    | .learn _ macAddress => some macAddress
    | _ => none

namespace DynamicTable

/-- An entry says what was heard. One that is to be refreshed was heard since the last tick; another
one has as many ticks left as have not passed, and one more if it has been refreshed before. -/
def Entry.Agrees (e : DynamicTableEntry) (m : Heard) : Prop :=
  ∃ n, m e.macAddress = some (e.fromPort, n) ∧ e.age ≤ dynamicTableMaxAge ∧
    if e.refresh then n = 0
    else e.age + n = dynamicTableMaxAge ∨ e.age + n = dynamicTableMaxAge + 1

/-- The table agrees with what was heard. -/
structure Agrees (t : DynamicTable) (m : Heard) : Prop where
  replaceLoc : t.replaceLoc < dynamicTableSize
  refresh : ∀ i, (t.entries i).refresh = true → (t.entries i).age ≠ 0
  unique : ∀ i j, i < dynamicTableSize → j < dynamicTableSize → (t.entries i).age ≠ 0 →
    (t.entries j).age ≠ 0 → (t.entries i).macAddress = (t.entries j).macAddress → i = j
  entries : ∀ i, i < dynamicTableSize → (t.entries i).age ≠ 0 → Entry.Agrees (t.entries i) m

variable {t : DynamicTable} {m : Heard} {a : List UInt8} {port : TxPort}

theorem find_some {i : Nat} (h : t.find a = some i) :
    i < dynamicTableSize ∧ (t.entries i).age ≠ 0 ∧ (t.entries i).macAddress = a := by
  have hmem := List.mem_of_find?_eq_some h
  have hsome := List.find?_some h
  exact ⟨List.mem_range.mp hmem, by simpa using hsome⟩

theorem find_none (h : t.find a = none) {i : Nat} (hi : i < dynamicTableSize)
    (hage : (t.entries i).age ≠ 0) : (t.entries i).macAddress ≠ a := by
  intro heq
  have hnone := List.find?_eq_none.mp h i (List.mem_range.mpr hi)
  simp [hage, heq] at hnone

theorem firstEmpty_some {i : Nat} (h : t.firstEmpty = some i) :
    i < dynamicTableSize ∧ (t.entries i).age = 0 := by
  have hmem := List.mem_of_find?_eq_some h
  have hsome := List.find?_some h
  exact ⟨List.mem_range.mp hmem, by simpa using hsome⟩

theorem firstEmpty_none (h : t.firstEmpty = none) {i : Nat} (hi : i < dynamicTableSize) :
    (t.entries i).age ≠ 0 := by
  have hnone := List.find?_eq_none.mp h i (List.mem_range.mpr hi)
  simpa using hnone

/-- An address that is in the table is found where it is. -/
theorem Agrees.find_eq (h : t.Agrees m) {i : Nat} (hi : i < dynamicTableSize)
    (hage : (t.entries i).age ≠ 0) (hmac : (t.entries i).macAddress = a) : t.find a = some i := by
  cases hfind : t.find a with
  | none => exact absurd hmac (find_none hfind hi hage)
  | some j =>
    obtain ⟨hj, hagej, hmacj⟩ := find_some hfind
    rw [h.unique j i hj hi hagej hage (hmacj.trans hmac.symm)]

theorem init_agrees : init.Agrees fun _ => none :=
  ⟨by decide, by simp [init], by simp [init], by simp [init]⟩

theorem clear_agrees (h : t.Agrees m) : t.clear.Agrees fun _ => none :=
  ⟨h.replaceLoc, by simp [clear], by simp [clear], by simp [clear]⟩

@[simp] theorem tick_macAddress (e : DynamicTableEntry) : e.tick.macAddress = e.macAddress := by
  unfold DynamicTableEntry.tick
  split_ifs <;> rfl

@[simp] theorem tick_fromPort (e : DynamicTableEntry) : e.tick.fromPort = e.fromPort := by
  unfold DynamicTableEntry.tick
  split_ifs <;> rfl

@[simp] theorem tick_refresh (e : DynamicTableEntry) : e.tick.refresh = false := by
  unfold DynamicTableEntry.tick
  split_ifs with hrefresh
  · rfl
  · simpa using hrefresh

/-- An entry that is there after a tick has been there before. -/
theorem age_of_tick {e : DynamicTableEntry} (h : e.refresh = true → e.age ≠ 0)
    (hage : e.tick.age ≠ 0) : e.age ≠ 0 := by
  unfold DynamicTableEntry.tick at hage
  split_ifs at hage with hrefresh
  · exact h hrefresh
  · intro hzero
    simp [hzero] at hage

theorem tick_agrees {e : DynamicTableEntry} (h : Entry.Agrees e m) (hage : e.tick.age ≠ 0) :
    Entry.Agrees e.tick (m.step .ageTick) := by
  obtain ⟨n, hn, hmax, hleft⟩ := h
  refine ⟨n + 1, by simp [Heard.step, hn], ?_⟩
  rw [tick_refresh, if_neg Bool.false_ne_true]
  unfold DynamicTableEntry.tick at hage ⊢
  split_ifs at hage hleft ⊢
  · subst hleft
    exact ⟨Nat.le_refl _, .inr rfl⟩
  · simp only at hage ⊢
    omega

theorem ageTick_agrees (h : t.Agrees m) : t.ageTick.Agrees (m.step .ageTick) := by
  refine ⟨h.replaceLoc, by simp [ageTick], ?_, ?_⟩
  · intro i j hi hj hagei hagej heq
    refine h.unique i j hi hj (age_of_tick (h.refresh i) hagei) (age_of_tick (h.refresh j) hagej) ?_
    simpa [ageTick] using heq
  · intro i hi hage
    exact tick_agrees (h.entries i hi (age_of_tick (h.refresh i) hage)) hage

/-- An entry is written for an address that is in no other one. -/
theorem write_agrees (h : t.Agrees m) {i loc : Nat} (hi : i < dynamicTableSize)
    (hloc : loc < dynamicTableSize) {e : DynamicTableEntry}
    (hother : ∀ j, j < dynamicTableSize → j ≠ i → (t.entries j).age ≠ 0 →
      (t.entries j).macAddress ≠ e.macAddress)
    (hage : e.age ≠ 0) (hmax : e.age ≤ dynamicTableMaxAge)
    (hfresh : e.refresh = false → e.age = dynamicTableMaxAge) :
    DynamicTable.Agrees { entries := Function.update t.entries i e, replaceLoc := loc }
      (m.step (.learn e.fromPort e.macAddress)) := by
  refine ⟨hloc, ?_, ?_, ?_⟩
  · intro j hj
    rcases eq_or_ne j i with rfl | hne
    · simpa using hage
    · simp only [Function.update_of_ne hne] at hj ⊢
      exact h.refresh j hj
  · intro j k hj hk hagej hagek heq
    rcases eq_or_ne j i with rfl | hnej
    · rcases eq_or_ne k j with rfl | hnek
      · rfl
      · simp only [Function.update_self, Function.update_of_ne hnek] at hagek heq
        exact absurd heq.symm (hother k hk hnek hagek)
    · rcases eq_or_ne k i with rfl | hnek
      · simp only [Function.update_self, Function.update_of_ne hnej] at hagej heq
        exact absurd heq (hother j hj hnej hagej)
      · simp only [Function.update_of_ne hnej, Function.update_of_ne hnek] at hagej hagek heq
        exact h.unique j k hj hk hagej hagek heq
  · intro j hj hagej
    rcases eq_or_ne j i with rfl | hne
    · simp only [Function.update_self]
      refine ⟨0, by simp [Heard.step], hmax, ?_⟩
      split_ifs with hrefresh
      · rfl
      · exact .inl (hfresh (by simpa using hrefresh))
    · simp only [Function.update_of_ne hne] at hagej ⊢
      obtain ⟨n, hn, hrest⟩ := h.entries j hj hagej
      refine ⟨n, ?_, hrest⟩
      rw [Heard.step, Function.update_of_ne (hother j hj hne hagej), hn]

theorem learn_agrees (h : t.Agrees m) (port : TxPort) (a : List UInt8) :
    (t.learn port a).Agrees (m.step (.learn port a)) := by
  fun_cases learn t port a with
  | case1 i hfind e =>
    obtain ⟨hi, hage, hmac⟩ := find_some hfind
    obtain ⟨n, hn, hmax, hleft⟩ := h.entries i hi hage
    have hother (j : Nat) (hj : j < dynamicTableSize) (hne : j ≠ i) (hagej : (t.entries j).age ≠ 0)
        (heq : (t.entries j).macAddress = (t.entries i).macAddress) : False :=
      hne (h.unique j i hj hi hagej hage heq)
    have hwrite := write_agrees h hi h.replaceLoc (e := e) hother hage hmax (by simp [e])
    rwa [show e.macAddress = a from hmac] at hwrite
  | case2 hfind e i hempty =>
    exact write_agrees h (firstEmpty_some hempty).1 h.replaceLoc (e := e)
      (fun j hj _ hagej => find_none hfind hj hagej) (Nat.succ_ne_zero 15) (Nat.le_refl _)
      fun _ => rfl
  | case3 hfind e hfull =>
    refine write_agrees h h.replaceLoc ?_ (e := e) (fun j hj _ hagej => find_none hfind hj hagej)
      (Nat.succ_ne_zero 15) (Nat.le_refl _) fun _ => rfl
    have hloc := h.replaceLoc
    split_ifs <;> omega

theorem step_agrees (h : t.Agrees m) (op : Op) : (t.step op).Agrees (m.step op) := by
  cases op with
  | learn port macAddress => exact learn_agrees h port macAddress
  | ageTick => exact ageTick_agrees h
  | clear => exact clear_agrees h

/-! ## Runs -/

/-- The addresses in the table are among `known`, and each address heard in less than a lifetime is
there. -/
structure Holds (known : Finset (List UInt8)) (t : DynamicTable) (m : Heard) : Prop where
  agrees : t.Agrees m
  known : ∀ a, m a ≠ none → a ∈ known
  holds : ∀ a port n, m a = some (port, n) → n < dynamicTableMaxAge →
    ∃ i, i < dynamicTableSize ∧ (t.entries i).age ≠ 0 ∧ (t.entries i).macAddress = a

/-- While as many addresses are known as the table has entries, a new one finds an entry. -/
theorem Holds.firstEmpty_ne_none {known : Finset (List UInt8)} (h : t.Holds known m)
    (hcard : known.card ≤ dynamicTableSize) (ha : a ∈ known) (hfind : t.find a = none) :
    t.firstEmpty ≠ none := by
  intro hfull
  have hmaps : ∀ i ∈ Finset.range dynamicTableSize, (t.entries i).macAddress ∈ known.erase a := by
    intro i hi
    have hage := firstEmpty_none hfull (Finset.mem_range.mp hi)
    obtain ⟨n, hn, -⟩ := h.agrees.entries i (Finset.mem_range.mp hi) hage
    refine Finset.mem_erase.mpr ⟨find_none hfind (Finset.mem_range.mp hi) hage, h.known _ ?_⟩
    rw [hn]
    exact Option.some_ne_none _
  have hlt : (known.erase a).card < (Finset.range dynamicTableSize).card := by
    rw [Finset.card_erase_of_mem ha, Finset.card_range]
    have hpos := Finset.card_pos.mpr ⟨a, ha⟩
    omega
  obtain ⟨i, hi, j, hj, hne, heq⟩ := Finset.exists_ne_map_eq_of_card_lt_of_maps_to hlt hmaps
  exact hne (h.agrees.unique i j (Finset.mem_range.mp hi) (Finset.mem_range.mp hj)
    (firstEmpty_none hfull (Finset.mem_range.mp hi))
    (firstEmpty_none hfull (Finset.mem_range.mp hj)) heq)

/-- What is heard is remembered, and what else was known is kept. -/
theorem Holds.learn {known : Finset (List UInt8)} (h : t.Holds known m)
    (hcard : known.card ≤ dynamicTableSize) (port : TxPort) (ha : a ∈ known) :
    (t.learn port a).Holds known (m.step (.learn port a)) := by
  refine ⟨learn_agrees h.agrees port a, ?_, ?_⟩
  · intro b hb
    rcases eq_or_ne b a with rfl | hne
    · exact ha
    · exact h.known b (by simpa [Heard.step, hne] using hb)
  · intro b p n hb hn
    have hkept (hne : b ≠ a) : ∃ i, i < dynamicTableSize ∧ (t.entries i).age ≠ 0 ∧
        (t.entries i).macAddress = b :=
      h.holds b p n (by simpa [Heard.step, hne] using hb) hn
    fun_cases DynamicTable.learn t port a with
    | case1 i hfind e =>
      obtain ⟨hi, hage, hmac⟩ := find_some hfind
      rcases eq_or_ne b a with rfl | hne
      · exact ⟨i, hi, by simpa [e] using hage, by simpa [e] using hmac⟩
      · obtain ⟨j, hj, hagej, hmacj⟩ := hkept hne
        have hij : j ≠ i := fun heq => hne (by rw [← hmacj, heq, hmac])
        exact ⟨j, hj, by simpa [hij] using hagej, by simpa [hij] using hmacj⟩
    | case2 hfind e i hempty =>
      obtain ⟨hi, hdead⟩ := firstEmpty_some hempty
      rcases eq_or_ne b a with rfl | hne
      · exact ⟨i, hi, by simp [e, dynamicTableMaxAge], by simp [e]⟩
      · obtain ⟨j, hj, hagej, hmacj⟩ := hkept hne
        have hij : j ≠ i := fun heq => hagej (heq ▸ hdead)
        exact ⟨j, hj, by simpa [hij] using hagej, by simpa [hij] using hmacj⟩
    | case3 hfind e hfull => exact absurd hfull (h.firstEmpty_ne_none hcard ha hfind)

theorem Holds.ageTick {known : Finset (List UInt8)} (h : t.Holds known m) :
    t.ageTick.Holds known (m.step .ageTick) := by
  refine ⟨ageTick_agrees h.agrees, ?_, ?_⟩
  · intro a ha
    exact h.known a fun hnone => ha (by simp [Heard.step, hnone])
  · intro a port n hn hlt
    obtain ⟨⟨port', n'⟩, hn', heq⟩ := Option.map_eq_some_iff.mp hn
    obtain ⟨rfl, rfl⟩ := Prod.mk.inj heq
    obtain ⟨i, hi, hage, hmac⟩ := h.holds a port' n' hn' (by omega)
    refine ⟨i, hi, ?_, by simpa [DynamicTable.ageTick] using hmac⟩
    obtain ⟨k, hk, -, hleft⟩ := h.agrees.entries i hi hage
    rw [hmac, hn', Option.some.injEq, Prod.mk.injEq] at hk
    obtain ⟨-, rfl⟩ := hk
    simp only [DynamicTable.ageTick, DynamicTableEntry.tick]
    split_ifs at hleft ⊢
    · exact Nat.succ_ne_zero 15
    · simp only
      omega

theorem Holds.clear {known : Finset (List UInt8)} (h : t.Holds known m) :
    t.clear.Holds known (m.step .clear) :=
  ⟨clear_agrees h.agrees, fun a ha => absurd rfl ha, fun a port n hn => by simp [Heard.step] at hn⟩

theorem run_agrees (ops : List Op) : (run ops).Agrees (Heard.run ops) := by
  unfold run Heard.run
  suffices h : ∀ (t : DynamicTable) (m : Heard), t.Agrees m →
      (ops.foldl step t).Agrees (ops.foldl Heard.step m) from h _ _ init_agrees
  induction ops with
  | nil => exact fun _ _ h => h
  | cons op ops ih => exact fun t m h => ih _ _ (step_agrees h op)

theorem run_holds (ops : List Op) (hcard : (addresses ops).toFinset.card ≤ dynamicTableSize) :
    (run ops).Holds (addresses ops).toFinset (Heard.run ops) := by
  unfold run Heard.run
  suffices h : ∀ (ops' : List Op) (t : DynamicTable) (m : Heard),
      addresses ops' ⊆ addresses ops → t.Holds (addresses ops).toFinset m →
      (ops'.foldl step t).Holds (addresses ops).toFinset (ops'.foldl Heard.step m) from
    h ops _ _ (List.Subset.refl _) ⟨init_agrees, by simp, by simp⟩
  intro ops'
  induction ops' with
  | nil => exact fun _ _ _ h => h
  | cons op ops' ih =>
    intro t m hsub h
    refine ih _ _ (fun a ha => hsub ?_) ?_
    · exact (List.Sublist.filterMap _ (List.sublist_cons_self op ops')).subset ha
    · cases op with
      | learn port macAddress =>
        have hmem : macAddress ∈ addresses ops := hsub (by simp [addresses])
        exact h.learn hcard port (List.mem_toFinset.mpr hmem)
      | ageTick => exact h.ageTick
      | clear => exact h.clear

/-- In every run a lookup that does not flood gives the port that the address was last heard from,
at most a lifetime ago. With no more addresses than entries, every address heard less than a
lifetime ago is found. -/
theorem lookup_run (ops : List Op) (a : List UInt8) :
    ((run ops).lookup a ≠ .flood →
      ∃ n, n ≤ dynamicTableMaxAge ∧ Heard.run ops a = some ((run ops).lookup a, n)) ∧
    ((addresses ops).toFinset.card ≤ dynamicTableSize →
      ∀ port n, Heard.run ops a = some (port, n) → n < dynamicTableMaxAge →
        (run ops).lookup a = port) := by
  have hagrees := run_agrees ops
  have hfound {i : Nat} (hfind : (run ops).find a = some i) :
      ∃ n, n ≤ dynamicTableMaxAge ∧ Heard.run ops a = some ((run ops).lookup a, n) := by
    obtain ⟨hi, hage, hmac⟩ := find_some hfind
    obtain ⟨n, hn, hmax, hleft⟩ := hagrees.entries i hi hage
    refine ⟨n, ?_, ?_⟩
    · split_ifs at hleft <;> omega
    · rw [← hmac, hn, lookup, hmac, hfind]
  refine ⟨fun hne => ?_, fun hcard port n hn hlt => ?_⟩
  · cases hfind : (run ops).find a with
    | none => exact absurd (by rw [lookup, hfind]) hne
    | some i => exact hfound hfind
  · obtain ⟨i, hi, hage, hmac⟩ := (run_holds ops hcard).holds a port n hn hlt
    obtain ⟨n', -, hn'⟩ := hfound (hagrees.find_eq hi hage hmac)
    rw [hn, Option.some.injEq, Prod.mk.injEq] at hn'
    exact hn'.1.symm

end DynamicTable

end BmCore.Drivers
