import HelperHandoff.Proofs.Counter.Scope

set_option autoImplicit false

namespace HelperHandoff.Counter

open Completion (Hand)

namespace Waiter

variable {a b : Waiter} {id j : Int}

theorem stage_told_congr (ha : a.counter = id) (hb : b.counter = j) (h : a.stage = b.stage)
    (cell : Option Int32) : (a.told id cell).stage = (b.told j cell).stage := by
  cases cell with
  | none => by_cases hp : b.stage = .parked <;> simp [told, release, ha, hb, h, hp]
  | some v =>
    by_cases hv : v = 0
    · simp [told, hv, h]
    · by_cases hp : b.stage = .parked <;> simp [told, release, ha, hb, h, hv, hp]

theorem stage_call_congr (h : a.stage = b.stage) (v : Option Int32) :
    (a.call v).stage = (b.call v).stage := by
  cases v <;> cases hb : b.stage <;> simp [call, h, hb]

theorem stage_interrupt_congr (h : a.stage = b.stage) :
    a.interrupt.stage = b.interrupt.stage := by
  by_cases hp : b.stage = .parked <;> simp [interrupt, h, hp]

end Waiter

namespace Store

theorem set_of_nonneg {s : Store} {id : Int} (h : 0 ≤ id) (n : Int32) :
    s.set id n = if ¬ InRange n then (some .outOfRange, s)
      else if s.live id then (none, s.settle id (some n)) else (some .invalidArgument, s) := by
  rw [set, if_neg (Int.not_lt.mpr h)]
  rfl

def Twins (s : Store) (id : Int) (t : Store) (j : Int) (w v : Nat) : Prop :=
  ∃ a b, s.waiters[w]? = some a ∧ t.waiters[v]? = some b ∧
    a.counter = id ∧ b.counter = j ∧ a.stage = b.stage

/-- The counters `id` and `j` with the threads that wait for them cannot be told apart. -/
structure Alike (s : Store) (id : Int) (w : Option Nat) (t : Store) (j : Int) (v : Option Nat) :
    Prop where
  left : 0 ≤ id
  right : 0 ≤ j
  value : s.value? id = t.value? j
  waiter : Option.Rel (Twins s id t j) w v

variable {s t : Store} {id j : Int} {w v : Option Nat}

theorem Twins.symm {w v : Nat} (h : Twins s id t j w v) : Twins t j s id v w := by
  obtain ⟨a, b, ha, hb, hai, hbj, hs⟩ := h
  exact ⟨b, a, hb, ha, hbj, hai, hs.symm⟩

theorem Twins.stage? {w v : Nat} (h : Twins s id t j w v) : s.stage? w = t.stage? v := by
  obtain ⟨a, b, ha, hb, -, -, hs⟩ := h
  simp [Store.stage?, ha, hb, hs]

theorem Twins.settle {w v : Nat} (h : Twins s id t j w v) (cell : Option Int32) :
    Twins (s.settle id cell) id (t.settle j cell) j w v := by
  obtain ⟨a, b, ha, hb, hai, hbj, hs⟩ := h
  refine ⟨a.told id cell, b.told j cell, ?_, ?_, ?_, ?_, ?_⟩
  · rw [waiters_settle, ha, Option.map_some]
  · rw [waiters_settle, hb, Option.map_some]
  · rw [a.counter_told, hai]
  · rw [b.counter_told, hbj]
  · exact Waiter.stage_told_congr hai hbj hs cell

theorem Twins.of_about {u : Store} {k : Int} {w v : Nat} (h : Twins s id t j w v)
    (hu : s.About k u) (hk : id ≠ k) : Twins u id t j w v := by
  obtain ⟨a, b, ha, hb, hai, hbj, hs⟩ := h
  obtain ⟨c, hc, -, he⟩ := hu.waiter w a ha
  obtain rfl := he (by rwa [hai])
  exact ⟨c, b, hc, hb, hai, hbj, hs⟩

namespace Alike

theorem symm (h : s.Alike id w t j v) : t.Alike j v s id w where
  left := h.right
  right := h.left
  value := h.value.symm
  waiter := by
    obtain ⟨-, -, -, hr⟩ := h
    cases hr with
    | none => exact .none
    | some hr => exact .some hr.symm

theorem live (h : s.Alike id w t j v) : s.live id = t.live j := by
  rw [Store.live, Store.live, h.value]

theorem read (h : s.Alike id w t j v) : s.read id = t.read j := by
  rw [Store.read, Store.read, h.value]

theorem forget (h : s.Alike id w t j v) : s.Alike id none t j none :=
  ⟨h.left, h.right, h.value, .none⟩

/-- Nothing that is done to a third counter is seen. -/
theorem of_about {u : Store} {k : Int} (h : s.Alike id w t j v) (hu : s.About k u) (hk : id ≠ k) :
    u.Alike id w t j v where
  left := h.left
  right := h.right
  value := (hu.value id hk).trans h.value
  waiter := by
    obtain ⟨-, -, -, hr⟩ := h
    cases hr with
    | none => exact .none
    | some hr => exact .some (hr.of_about hu hk)

theorem settle (h : s.Alike id w t j v) (hl : s.live id) (cell : Option Int32) :
    (s.settle id cell).Alike id w (t.settle j cell) j v where
  left := h.left
  right := h.right
  value := by
    have hm : t.live j = true := h.live.symm.trans hl
    rw [value?_settle_self hl, value?_settle_self hm]
  waiter := by
    obtain ⟨-, -, -, hr⟩ := h
    cases hr with
    | none => exact .none
    | some hr => exact .some (hr.settle cell)

/-! ### Each act -/

theorem set (h : s.Alike id w t j v) (n : Int32) :
    (s.set id n).1 = (t.set j n).1 ∧ (s.set id n).2.Alike id w (t.set j n).2 j v := by
  rw [set_of_nonneg h.left, set_of_nonneg h.right, ← h.live]
  split
  · exact ⟨rfl, h⟩
  · split
    · next hl => exact ⟨rfl, h.settle hl (some n)⟩
    · exact ⟨rfl, h⟩

theorem hand (h : s.Alike id w t j v) (hand : Hand) :
    (hand.act id s).1 = (hand.act j t).1 ∧ (hand.act id s).2.Alike id w (hand.act j t).2 j v := by
  cases hand with
  | publish code =>
    cases he : ExitCode.encode? code with
    | none =>
      simp only [Hand.act, publish, he]
      exact ⟨trivial, h⟩
    | some n =>
      simp only [Hand.act, publish, he]
      exact h.set n
  | set n => exact h.set n
  | remove =>
    by_cases hl : s.live id = true
    · rw [Hand.act, Hand.act, remove_of_live hl, remove_of_live (h.live.symm.trans hl)]
      exact ⟨rfl, h.settle hl none⟩
    · have hm : ¬ t.live j = true := by rwa [← h.live]
      rw [Hand.act, Hand.act, remove_of_gone (not_live_iff.mp hl),
        remove_of_gone (not_live_iff.mp hm)]
      exact ⟨rfl, h⟩

theorem destroy {a b : Guard} (h : s.Alike a.counter w t b.counter v)
    (hr : a.removed = b.removed) :
    (a.destroy s).failure = (b.destroy t).failure ∧
      (a.destroy s).store.Alike a.counter w (b.destroy t).store b.counter v := by
  cases hb : b.removed with
  | true => simp [Guard.destroy, hr, hb, h]
  | false =>
    rw [Guard.destroy_of_held hb, Guard.destroy_of_held (hr.trans hb)]
    exact h.hand .remove

theorem enter (h : s.Alike id w t j v) :
    (s.enter id).2.Alike id (some (s.enter id).1) (t.enter j).2 j (some (t.enter j).1) where
  left := h.left
  right := h.right
  value := h.value
  waiter := .some ⟨⟨id, .calling⟩, ⟨j, .calling⟩, by simp [Store.enter], by simp [Store.enter], rfl,
    rfl, rfl⟩

theorem twins {a b : Nat} (h : s.Alike id (some a) t j (some b)) : Twins s id t j a b := by
  obtain ⟨-, -, -, hr⟩ := h
  cases hr with
  | some hr => exact hr

theorem call {a b : Nat} (h : s.Alike id (some a) t j (some b)) :
    (s.call a).Alike id (some a) (t.call b) j (some b) where
  left := h.left
  right := h.right
  value := by rw [value?_call, value?_call, h.value]
  waiter := by
    obtain ⟨x, y, hx, hy, hxi, hyj, hs⟩ := h.twins
    refine .some ⟨_, _, waiters_call hx, waiters_call hy, ?_, ?_, ?_⟩
    · rw [x.counter_call, hxi]
    · rw [y.counter_call, hyj]
    · rw [hxi, hyj, h.value]
      exact Waiter.stage_call_congr hs _

theorem interrupt {a b : Nat} (h : s.Alike id (some a) t j (some b)) :
    (s.interrupt a).Alike id (some a) (t.interrupt b) j (some b) where
  left := h.left
  right := h.right
  value := h.value
  waiter := by
    obtain ⟨x, y, hx, hy, hxi, hyj, hs⟩ := h.twins
    refine .some ⟨_, _, waiters_interrupt hx, waiters_interrupt hy, ?_, ?_, ?_⟩
    · rw [x.counter_interrupt, hxi]
    · rw [y.counter_interrupt, hyj]
    · exact Waiter.stage_interrupt_congr hs

end Alike

end Store

end HelperHandoff.Counter
