import HelperHandoff.Proofs.Counter.Store

set_option autoImplicit false

namespace HelperHandoff.Counter

/-- The waiter at place `w` waits for the counter `id`. That the counter has been seen at another
value than the resting one is `signaled`, whatever that means to whoever asks. -/
structure Store.Watched (s : Store) (id : Int) (w : Nat) (signaled : Prop) : Prop where
  counter : s.waiters[w]?.map Waiter.counter = some id
  rests : s.stage? w = some .parked → s.value? id = some 0
  gone : ∀ e, s.stage? w = some (.returned (some e)) → s.value? id = none
  admitted : s.stage? w = some (.returned none) → signaled

namespace Store

theorem cells_call (s : Store) (w : Nat) : (s.call w).cells = s.cells := by
  unfold call
  split <;> rfl

theorem value?_call (s : Store) (w : Nat) (id : Int) : (s.call w).value? id = s.value? id :=
  value?_congr (s.cells_call w) id

theorem value?_interrupt (s : Store) (w : Nat) (id : Int) :
    (s.interrupt w).value? id = s.value? id := rfl

theorem waiters_call {s : Store} {w : Nat} {t : Waiter} (h : s.waiters[w]? = some t) :
    (s.call w).waiters[w]? = some (t.call (s.value? t.counter)) := by
  have hw : w < s.waiters.length := (List.getElem?_eq_some_iff.mp h).1
  simp only [call, h]
  simp [hw]

theorem waiters_interrupt {s : Store} {w : Nat} {t : Waiter} (h : s.waiters[w]? = some t) :
    (s.interrupt w).waiters[w]? = some t.interrupt := by
  simp [interrupt, h]

namespace Watched

variable {s : Store} {id : Int} {w : Nat} {p q : Prop}

theorem exists_waiter (h : s.Watched id w p) :
    ∃ t, s.waiters[w]? = some t ∧ t.counter = id ∧ s.stage? w = some t.stage := by
  obtain ⟨t, ht, hid⟩ := Option.map_eq_some_iff.mp h.counter
  exact ⟨t, ht, hid, by simp [stage?, ht]⟩

theorem mono (h : s.Watched id w p) (hpq : p → q) : s.Watched id w q :=
  ⟨h.counter, h.rests, h.gone, fun ha => hpq (h.admitted ha)⟩

theorem enter (s : Store) (id : Int) : (s.enter id).2.Watched id (s.enter id).1 p where
  counter := by simp [Store.enter]
  rests := by simp [Store.enter, stage?]
  gone := by simp [Store.enter, stage?]
  admitted := by simp [Store.enter, stage?]

theorem call (h : s.Watched id w p) (hp : ∀ v, s.value? id = some v → v ≠ 0 → p) :
    (s.call w).Watched id w p := by
  obtain ⟨t, ht, hid, hs⟩ := h.exists_waiter
  have hc := waiters_call ht
  have hstage : (s.call w).stage? w = some (t.call (s.value? id)).stage := by
    simp [stage?, hc, hid]
  have hcounter : (s.call w).waiters[w]?.map Waiter.counter = some id := by
    simp [hc, Waiter.counter_call, hid]
  -- Only a thread that was about to call hears something new, and it hears what the counter holds.
  cases hst : t.stage with
  | calling =>
    cases hv : s.value? id with
    | none =>
      rw [hv] at hstage
      simp only [Waiter.call, hst] at hstage
      exact ⟨hcounter, by simp [hstage], by simp [value?_call, hv], by simp [hstage]⟩
    | some v =>
      rw [hv] at hstage
      simp only [Waiter.call, hst] at hstage
      by_cases hz : v = 0
      · rw [if_pos hz] at hstage
        exact ⟨hcounter, by simp [value?_call, hv, hz], by simp [hstage], by simp [hstage]⟩
      · rw [if_neg hz] at hstage
        exact ⟨hcounter, by simp [hstage], by simp [hstage], fun _ => hp v hv hz⟩
  | parked | returned f =>
    have hsame : (s.call w).stage? w = s.stage? w := by
      rw [hstage, hs]
      simp [Waiter.call, hst]
    exact ⟨hcounter, by rw [hsame, value?_call]; exact h.rests,
      by rw [hsame, value?_call]; exact h.gone, by rw [hsame]; exact h.admitted⟩

theorem interrupt (h : s.Watched id w p) : (s.interrupt w).Watched id w p := by
  obtain ⟨t, ht, hid, hs⟩ := h.exists_waiter
  have hi := waiters_interrupt ht
  have hstage : (s.interrupt w).stage? w = some t.interrupt.stage := by simp [stage?, hi]
  have hcounter : (s.interrupt w).waiters[w]?.map Waiter.counter = some id := by
    simp [hi, Waiter.counter_interrupt, hid]
  by_cases hst : t.stage = .parked
  · have hnow : t.interrupt.stage = .calling := by simp [Waiter.interrupt, hst]
    rw [hnow] at hstage
    exact ⟨hcounter, by simp [hstage], by simp [hstage], by simp [hstage]⟩
  · have hsame : (s.interrupt w).stage? w = s.stage? w := by
      rw [hstage, hs]
      simp [Waiter.interrupt, hst]
    exact ⟨hcounter, by rw [hsame]; exact h.rests, by rw [hsame]; exact h.gone,
      by rw [hsame]; exact h.admitted⟩

theorem settle (h : s.Watched id w p) {cell : Option Int32} (hl : s.live id)
    (hp : ∀ v, cell = some v → v ≠ 0 → p) : (s.settle id cell).Watched id w p := by
  obtain ⟨t, ht, hid, hs⟩ := h.exists_waiter
  have hw : (s.settle id cell).waiters[w]? = some (t.told id cell) := by
    rw [waiters_settle, ht, Option.map_some]
  have hstage : (s.settle id cell).stage? w = some (t.told id cell).stage := by simp [stage?, hw]
  have hcounter : (s.settle id cell).waiters[w]?.map Waiter.counter = some id := by
    simp [hw, Waiter.counter_told, hid]
  have hnow := value?_settle_self hl cell
  obtain ⟨u, hu⟩ := live_iff.mp hl
  cases hst : t.stage with
  | calling =>
    have hc : (t.told id cell).stage = .calling := by
      cases cell <;> simp [Waiter.told, Waiter.release, hst]
    rw [hc] at hstage
    exact ⟨hcounter, by simp [hstage], by simp [hstage], by simp [hstage]⟩
  | parked =>
    cases cell with
    | none =>
      have hc : (t.told id none).stage = .returned (some .identifierRemoved) := by
        simp [Waiter.told, Waiter.release, hst, hid]
      rw [hc] at hstage
      exact ⟨hcounter, by simp [hstage], fun _ _ => hnow, by simp [hstage]⟩
    | some v =>
      by_cases hz : v = 0
      · have hc : (t.told id (some v)).stage = .parked := by simp [Waiter.told, hz, hst]
        rw [hc] at hstage
        exact ⟨hcounter, fun _ => by rw [hnow, hz], by simp [hstage], by simp [hstage]⟩
      · have hc : (t.told id (some v)).stage = .returned none := by
          simp [Waiter.told, Waiter.release, hz, hst, hid]
        rw [hc] at hstage
        exact ⟨hcounter, by simp [hstage], by simp [hstage], fun _ => hp v rfl hz⟩
  | returned f =>
    have hc : (t.told id cell).stage = .returned f := by
      cases cell <;> simp [Waiter.told, Waiter.release, hst]
    have hsame : (s.settle id cell).stage? w = s.stage? w := by rw [hstage, hs, hc, hst]
    refine ⟨hcounter, by simp [hstage, hc], fun e he => ?_, by rw [hsame]; exact h.admitted⟩
    -- A failure would have come from a counter that is gone, but this one exists.
    rw [hsame] at he
    have := h.gone e he
    simp [hu] at this

end Watched

end Store

end HelperHandoff.Counter
