import HelperHandoff.Completion
import HelperHandoff.Proofs.ExitCode

set_option autoImplicit false

namespace HelperHandoff.Counter

open Completion (Hand)

def Waiter.told (id : Int) (cell : Option Int32) (w : Waiter) : Waiter :=
  match cell with
  | none => w.release id (some .identifierRemoved)
  | some v => if v = 0 then w else w.release id none

theorem Waiter.counter_told (id : Int) (cell : Option Int32) (w : Waiter) :
    (w.told id cell).counter = w.counter := by
  unfold told release
  split <;> split <;> (try split) <;> rfl

theorem Waiter.counter_call (v : Option Int32) (w : Waiter) : (w.call v).counter = w.counter := by
  unfold call
  split <;> rfl

theorem Waiter.counter_interrupt (w : Waiter) : w.interrupt.counter = w.counter := by
  unfold interrupt
  split <;> rfl

namespace Store

/-- A counter gets another content, and those who sleep at it hear of that. -/
def settle (s : Store) (id : Int) (cell : Option Int32) : Store :=
  match cell with
  | none => (s.put id none).release id (some .identifierRemoved)
  | some v => if v = 0 then s.put id (some v) else (s.put id (some v)).release id none

theorem cells_settle (s : Store) (id : Int) (cell : Option Int32) :
    (s.settle id cell).cells = (s.put id cell).cells := by
  unfold settle
  split
  · rfl
  · split <;> rfl

theorem value?_congr {s t : Store} (h : s.cells = t.cells) (id : Int) :
    s.value? id = t.value? id := by
  simp [value?, h]

theorem value?_settle_self {s : Store} {id : Int} (h : s.live id) (cell : Option Int32) :
    (s.settle id cell).value? id = cell := by
  rw [value?_congr (s.cells_settle id cell)]
  exact value?_put_self s h cell

theorem value?_settle_ne {s : Store} {id j : Int} (h : 0 ≤ id) (hj : j ≠ id)
    (cell : Option Int32) : (s.settle id cell).value? j = s.value? j := by
  rw [value?_congr (s.cells_settle id cell)]
  exact value?_put_ne s h hj cell

theorem waiters_settle (s : Store) (id : Int) (cell : Option Int32) (w : Nat) :
    (s.settle id cell).waiters[w]? = s.waiters[w]?.map (Waiter.told id cell) := by
  cases cell with
  | none =>
    have ht : Waiter.told id none = Waiter.release id (some .identifierRemoved) := rfl
    simp [settle, release, put, ht]
  | some v =>
    by_cases hv : v = 0
    · subst hv
      have ht : Waiter.told id (some 0) = fun t => t := rfl
      simp [settle, put, ht]
    · have ht : Waiter.told id (some v) = Waiter.release id none := by
        funext t
        simp [Waiter.told, hv]
      simp [settle, release, put, hv, ht]

theorem live_iff {s : Store} {id : Int} : s.live id ↔ ∃ v, s.value? id = some v := by
  rw [live, Option.isSome_iff_exists]

theorem not_live_iff {s : Store} {id : Int} : ¬ s.live id ↔ s.value? id = none := by
  simp [live]

theorem nonneg_of_live {s : Store} {id : Int} (h : s.live id) : 0 ≤ id := by
  by_cases hn : id < 0
  · simp [live, value?_of_neg s hn] at h
  · omega

/-! ### What an act comes to -/

theorem set_cases (s : Store) (id : Int) (v : Int32) :
    (∃ e, s.set id v = (some e, s)) ∨
      s.live id ∧ InRange v ∧ s.set id v = (none, s.settle id (some v)) := by
  by_cases hn : id < 0
  · exact .inl ⟨.invalidArgument, by simp [set, hn]⟩
  by_cases hr : InRange v
  · by_cases hl : s.live id = true
    · exact .inr ⟨hl, hr, by simp [set, hn, hr, hl, settle]⟩
    · exact .inl ⟨.invalidArgument, by simp [set, hn, hr, hl]⟩
  · exact .inl ⟨.outOfRange, by simp [set, hn, hr]⟩

theorem set_of_live {s : Store} {id : Int} {v : Int32} (hl : s.live id) (hr : InRange v) :
    s.set id v = (none, s.settle id (some v)) := by
  have hn := nonneg_of_live hl
  simp [set, hr, hl, settle, Int.not_lt.mpr hn]

theorem remove_of_live {s : Store} {id : Int} (h : s.live id) :
    s.remove id = (none, s.settle id none) := by
  simp [remove, h, settle]

theorem remove_of_gone {s : Store} {id : Int} (h : s.value? id = none) :
    s.remove id = (some .invalidArgument, s) := by
  simp [remove, not_live_iff.mpr h]

theorem value?_remove_self (s : Store) (id : Int) : (s.remove id).2.value? id = none := by
  by_cases hl : s.live id = true
  · rw [remove_of_live hl]
    exact value?_settle_self hl none
  · have hn := not_live_iff.mp hl
    rw [remove_of_gone hn]
    exact hn

theorem value?_remove_ne (s : Store) {id j : Int} (hj : j ≠ id) :
    (s.remove id).2.value? j = s.value? j := by
  by_cases hl : s.live id = true
  · rw [remove_of_live hl]
    exact value?_settle_ne (nonneg_of_live hl) hj none
  · rw [remove_of_gone (not_live_iff.mp hl)]

/-! ### New counters -/

theorem value?_of_new (s : Store) : s.value? s.create.1 = none := by
  simp [value?, create]

theorem value?_create_ne (s : Store) {j : Int} (hj : j ≠ s.create.1) :
    s.create.2.value? j = s.value? j := by
  by_cases hn : j < 0
  · rw [value?_of_neg _ hn, value?_of_neg _ hn]
  · have hne : j.toNat ≠ s.cells.length := by
      have hid : s.create.1 = s.cells.length := rfl
      omega
    simp only [value?, hn, if_false, create, List.getElem?_append]
    split
    · rfl
    · rw [List.getElem?_eq_none (by simp; omega), List.getElem?_eq_none (by omega)]

theorem publish_of_accepted {s : Store} {id : Int} {code : Int32} (hl : s.live id)
    (hc : ExitCode.Accepted code) : (s.publish id code).1 = none := by
  obtain ⟨v, he, hr⟩ := hc.encode?
  simp [publish, he, set_of_live hl hr]

end Store

end HelperHandoff.Counter

namespace HelperHandoff.Completion

open Counter (InRange Store)

def Hand.cell? : Hand → Option Int32
  | .publish code => ExitCode.encode? code
  | .set v => some v
  | .remove => none

/-- A hand is refused and changes nothing, or it has its way with a counter that exists. -/
theorem Hand.act_cases (h : Hand) (id : Int) (s : Store) :
    (∃ e, h.act id s = (some e, s)) ∨
      s.live id ∧ h.act id s = (none, s.settle id h.cell?) ∧
        (∀ v, h.cell? = some v → InRange v) ∧ (h.cell? = none ↔ h = .remove) := by
  cases h with
  | publish code =>
    cases he : ExitCode.encode? code with
    | none => exact .inl ⟨.outOfRange, by simp [act, Store.publish, he]⟩
    | some v =>
      obtain ⟨e, hs⟩ | ⟨hl, hr, hs⟩ := s.set_cases id v
      · exact .inl ⟨e, by simp [act, Store.publish, he, hs]⟩
      · exact .inr ⟨hl, by simp [act, Store.publish, he, hs, cell?], by simp [cell?, he, hr],
          by simp [cell?, he]⟩
  | set v =>
    obtain ⟨e, hs⟩ | ⟨hl, hr, hs⟩ := s.set_cases id v
    · exact .inl ⟨e, hs⟩
    · exact .inr ⟨hl, hs, by simp [cell?, hr], by simp [cell?]⟩
  | remove =>
    by_cases hl : s.live id = true
    · exact .inr ⟨hl, Store.remove_of_live hl, by simp [cell?], by simp [cell?]⟩
    · exact .inl ⟨_, Store.remove_of_gone (Store.not_live_iff.mp hl)⟩

theorem Hand.value?_act_ne (h : Hand) {id j : Int} (hj : j ≠ id) (s : Store) :
    (h.act id s).2.value? j = s.value? j := by
  obtain ⟨e, ha⟩ | ⟨hl, ha, -⟩ := h.act_cases id s
  · rw [ha]
  · rw [ha]
    exact Store.value?_settle_ne (Store.nonneg_of_live hl) hj _

theorem Hand.value?_actAll_ne (hands : List Hand) {id j : Int} (hj : j ≠ id) (s : Store) :
    (actAll id hands s).2.value? j = s.value? j := by
  induction hands generalizing s with
  | nil => rfl
  | cons h rest ih => exact (ih (h.act id s).2).trans (h.value?_act_ne hj s)

theorem Hand.act_of_gone (h : Hand) {id : Int} {s : Store} (hg : s.value? id = none) :
    ∃ e, h.act id s = (some e, s) := by
  obtain hf | ⟨hl, -⟩ := h.act_cases id s
  · exact hf
  · exact absurd hl (Store.not_live_iff.mpr hg)

theorem Hand.act_of_done {h : Hand} {id : Int} {s : Store} (hd : (h.act id s).1 = none) :
    (h.act id s).2.value? id = h.cell? ∧ (h.cell? = none ↔ h = .remove) := by
  obtain ⟨e, he⟩ | ⟨hl, hs, -, hc⟩ := h.act_cases id s
  · rw [he] at hd
    cases hd
  · rw [hs]
    exact ⟨Store.value?_settle_self hl _, hc⟩

theorem Hand.act_of_failed {h : Hand} {id : Int} {s : Store} {e : Errno}
    (hf : (h.act id s).1 = some e) : (h.act id s).2 = s := by
  obtain ⟨e', he⟩ | ⟨-, hs, -⟩ := h.act_cases id s
  · rw [he]
  · rw [hs] at hf
    cases hf

theorem Hand.inRange_of_act {h : Hand} {id j : Int} {s : Store} {v : Int32}
    (hv : (h.act id s).2.value? j = some v) : s.value? j = some v ∨ InRange v := by
  obtain ⟨e, he⟩ | ⟨hl, hs, hrange, -⟩ := h.act_cases id s
  · exact .inl (by rwa [he] at hv)
  · rw [hs] at hv
    by_cases hj : j = id
    · rw [hj, Store.value?_settle_self hl] at hv
      exact .inr (hrange v hv)
    · exact .inl (by rwa [Store.value?_settle_ne (Store.nonneg_of_live hl) hj] at hv)

end HelperHandoff.Completion

namespace HelperHandoff.Counter.Store

open Completion (Hand)

/-! ### Owners -/

theorem inRange_of_create {s : Store} {id : Int} {v : Int32} (h : s.create.2.value? id = some v) :
    s.value? id = some v ∨ InRange v := by
  by_cases hid : id = s.create.1
  · rw [hid, s.value?_create] at h
    obtain rfl := Option.some.inj h
    exact .inr (by decide)
  · exact .inl (by rwa [s.value?_create_ne hid] at h)

theorem value?_destroy {g : Guard} {s : Store}
    (h : g.removed = true → s.value? g.counter = none) :
    (g.destroy s).store.value? g.counter = none := by
  cases hg : g.removed with
  | true => simpa [Guard.destroy, hg] using h hg
  | false =>
    rw [Guard.destroy_of_held hg]
    exact s.value?_remove_self g.counter

theorem value?_of_destroy {g : Guard} {s : Store} {id : Int} {v : Int32}
    (h : (g.destroy s).store.value? id = some v) : s.value? id = some v := by
  cases hg : g.removed with
  | true => simpa [Guard.destroy, hg] using h
  | false =>
    rw [Guard.destroy_of_held hg] at h
    by_cases hid : id = g.counter
    · simp only [hid, value?_remove_self] at h
      cases h
    · rwa [value?_remove_ne s hid] at h

theorem destroy_of_failed {g : Guard} {s : Store} {e : Errno}
    (h : (g.destroy s).failure = some e) : (g.destroy s).store = s := by
  cases hg : g.removed with
  | true => simp [Guard.destroy, hg]
  | false =>
    rw [Guard.destroy_of_held hg] at h ⊢
    exact Hand.act_of_failed (h := .remove) h

end HelperHandoff.Counter.Store
