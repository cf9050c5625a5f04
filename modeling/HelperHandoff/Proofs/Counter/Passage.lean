import HelperHandoff.Proofs.Counter.Scope

/-!
How a thread that waits for a counter fares through one act of anybody. It gets through without a
failure only where the counter holds something else than the resting value, and with one only where
the counter is not there; a signal sends it back to its call and no further; and a thread that is
through stays where it is.
-/

set_option autoImplicit false

namespace HelperHandoff.Counter

/-- From one stage to another, while the store changes from `s` to `t`. -/
inductive Fares (s t : Store) (id : Int) : Stage → Stage → Prop where
  | stays {a : Stage} (rests : a = .parked → s.value? id = some 0 → t.value? id = some 0) :
      Fares s t id a a
  | sleeps (rests : t.value? id = some 0) : Fares s t id .calling .parked
  | interrupted : Fares s t id .parked .calling
  | passes {a : Stage} {v : Int32} (under : a = .calling ∨ a = .parked) (ne : v ≠ 0)
      (held : s.value? id = some v ∨ t.value? id = some v) : Fares s t id a (.returned none)
  | fails {a : Stage} {e : Errno} (under : a = .calling ∨ a = .parked)
      (gone : s.value? id = none ∨ t.value? id = none) : Fares s t id a (.returned (some e))

namespace Fares

variable {s t : Store} {id : Int} {a b : Stage}

theorem eq_of_returned {f : Option Errno} (h : Fares s t id (.returned f) b) : b = .returned f := by
  cases h with
  | stays => rfl
  | passes hu | fails hu => simp at hu

theorem of_fresh {u : Store} (before : s.value? id = none) (rest : u.value? id = some 0)
    (after : t.value? id = none) (h : Fares u t id a b) : Fares s t id a b := by
  cases h with
  | stays => exact .stays fun _ h => absurd (before.symm.trans h) (by simp)
  | sleeps h => exact absurd (after.symm.trans h) (by simp)
  | interrupted => exact .interrupted
  | passes hu hv hheld =>
    rcases hheld with hheld | hheld
    · exact absurd (Option.some.inj (rest.symm.trans hheld)).symm hv
    · exact absurd (after.symm.trans hheld) (by simp)
  | fails hu => exact .fails hu (.inl before)

end Fares

/-- The thread at place `w` stays with its counter and fares like this. -/
def Passage (s t : Store) (w : Nat) (a : Waiter) : Prop :=
  ∃ b, t.waiters[w]? = some b ∧ b.counter = a.counter ∧ Fares s t a.counter a.stage b.stage

section

variable {s t : Store} {w : Nat} {a : Waiter}

theorem Passage.of_same (ha : t.waiters[w]? = some a)
    (hv : s.value? a.counter = some 0 → t.value? a.counter = some 0) : Passage s t w a :=
  ⟨a, ha, rfl, .stays fun _ h => hv h⟩

theorem Passage.refl (ha : s.waiters[w]? = some a) : Passage s s w a := .of_same ha fun h => h

theorem Store.About.passage {k : Int} (h : s.About k t) (ha : s.waiters[w]? = some a)
    (hk : a.counter ≠ k) : Passage s t w a := by
  obtain ⟨b, hb, -, he⟩ := h.waiter w a ha
  obtain rfl := he hk
  exact .of_same hb fun hv => by rw [h.value _ hk, hv]

theorem Passage.settle (ha : s.waiters[w]? = some a) (hl : s.live a.counter)
    (cell : Option Int32) : Passage s (s.settle a.counter cell) w a := by
  have hb : (s.settle a.counter cell).waiters[w]? = some (a.told a.counter cell) := by
    rw [Store.waiters_settle, ha, Option.map_some]
  have hnow := Store.value?_settle_self hl cell
  refine ⟨_, hb, a.counter_told _ _, ?_⟩
  by_cases hp : a.stage = .parked
  · cases cell with
    | none =>
      have hst : (a.told a.counter none).stage = .returned (some .identifierRemoved) := by
        simp [Waiter.told, Waiter.release, hp]
      rw [hst]
      exact .fails (.inr hp) (.inr hnow)
    | some v =>
      by_cases hv : v = 0
      · have hst : (a.told a.counter (some v)).stage = a.stage := by simp [Waiter.told, hv]
        rw [hst]
        exact .stays fun _ _ => by rw [hnow, hv]
      · have hst : (a.told a.counter (some v)).stage = .returned none := by
          simp [Waiter.told, Waiter.release, hv, hp]
        rw [hst]
        exact .passes (.inr hp) hv (.inr hnow)
  · have hst : (a.told a.counter cell).stage = a.stage := by
      cases cell <;> simp [Waiter.told, Waiter.release, hp]
    rw [hst]
    exact .stays fun h => absurd h hp

theorem Passage.hand (ha : s.waiters[w]? = some a) (h : Completion.Hand) :
    Passage s (h.act a.counter s).2 w a := by
  obtain ⟨e, he⟩ | ⟨hl, hs, -⟩ := h.act_cases a.counter s
  · rw [he]
    exact .refl ha
  · rw [hs]
    exact .settle ha hl _

theorem Passage.destroy (ha : s.waiters[w]? = some a) {g : Guard} (hg : g.counter = a.counter) :
    Passage s (g.destroy s).store w a := by
  cases hr : g.removed with
  | true =>
    have hs : (g.destroy s).store = s := by simp [Guard.destroy, hr]
    rw [hs]
    exact .refl ha
  | false =>
    rw [Guard.destroy_of_held hr, hg]
    exact .hand ha .remove

theorem Passage.enter (ha : s.waiters[w]? = some a) (id : Int) : Passage s (s.enter id).2 w a := by
  have hw := (List.getElem?_eq_some_iff.mp ha).1
  refine .of_same ?_ fun h => h
  rw [Store.enter, List.getElem?_append_left hw, ha]

theorem waiters_call_ne {v : Nat} (hv : w ≠ v) : (s.call v).waiters[w]? = s.waiters[w]? := by
  unfold Store.call
  split
  · exact List.getElem?_set_ne (Ne.symm hv)
  · rfl

theorem Passage.call (ha : s.waiters[w]? = some a) (v : Nat) : Passage s (s.call v) w a := by
  by_cases hw : w = v
  · subst hw
    refine ⟨_, Store.waiters_call ha, a.counter_call _, ?_⟩
    have hsame := s.value?_call w a.counter
    cases hst : a.stage with
    | calling =>
      cases hc : s.value? a.counter with
      | none =>
        simp only [Waiter.call, hst]
        exact .fails (.inl rfl) (.inl hc)
      | some n =>
        by_cases hn : n = 0
        · simp only [Waiter.call, hst, hn, if_true]
          exact .sleeps (by rw [hsame, hc, hn])
        · simp only [Waiter.call, hst, hn, if_false]
          exact .passes (.inl rfl) hn (.inl hc)
    | parked | returned f =>
      have hs : (a.call (s.value? a.counter)).stage = a.stage := by simp [Waiter.call, hst]
      rw [hs, hst]
      exact .stays fun _ h => by rw [hsame, h]
  · refine .of_same ?_ fun h => by rw [Store.value?_call, h]
    rw [waiters_call_ne hw, ha]

theorem Passage.interrupt (ha : s.waiters[w]? = some a) (v : Nat) :
    Passage s (s.interrupt v) w a := by
  by_cases hw : w = v
  · subst hw
    refine ⟨_, Store.waiters_interrupt ha, a.counter_interrupt, ?_⟩
    by_cases hp : a.stage = .parked
    · have hs : a.interrupt.stage = .calling := by simp [Waiter.interrupt, hp]
      rw [hs, hp]
      exact .interrupted
    · have hs : a.interrupt = a := by simp [Waiter.interrupt, hp]
      rw [hs]
      exact .stays fun h => absurd h hp
  · refine .of_same ?_ fun h => h
    simp [Store.interrupt, ha, Ne.symm hw]

theorem Passage.create (ha : s.waiters[w]? = some a) : Passage s s.create.2 w a := by
  refine .of_same ha fun h => ?_
  have hne : a.counter ≠ s.create.1 := by
    intro hc
    rw [hc, s.value?_of_new] at h
    cases h
  rw [s.value?_create_ne hne, h]

theorem Passage.abandon (ha : s.waiters[w]? = some a) : Passage s (Guard.abandon s).2 w a := by
  by_cases hc : a.counter = s.create.1
  · obtain ⟨b, hb, hbc, hf⟩ :=
      Passage.destroy (s := s.create.2) (g := ⟨s.create.1, false⟩) ha hc.symm
    have hbefore : s.value? a.counter = none := by rw [hc, s.value?_of_new]
    have hrest : s.create.2.value? a.counter = some 0 := by rw [hc, s.value?_create]
    have hafter : (Guard.abandon s).2.value? a.counter = none := by
      rw [hc]
      exact Store.value?_destroy (g := ⟨s.create.1, false⟩) fun hr => by cases hr
    exact ⟨b, hb, hbc, hf.of_fresh hbefore hrest hafter⟩
  · exact (Store.about_abandon s).passage ha hc

end

/-! ### Calls and signals that make no difference -/

namespace Store

variable {s : Store} {w : Nat}

theorem call_of_ne_calling (h : s.stage? w ≠ some .calling) : s.call w = s := by
  unfold call
  cases ht : s.waiters[w]? with
  | none => rfl
  | some t =>
    have hst : t.stage ≠ .calling := by simpa [stage?, ht] using h
    have hc : t.call (s.value? t.counter) = t := by
      unfold Waiter.call
      split
      · next h _ => exact absurd h hst
      · next h _ => exact absurd h hst
      · rfl
    obtain ⟨hl, rfl⟩ := List.getElem?_eq_some_iff.mp ht
    simp only [hc, List.set_getElem_self]

theorem interrupt_of_ne_parked (h : s.stage? w ≠ some .parked) : s.interrupt w = s := by
  have hw : s.waiters.modify w Waiter.interrupt = s.waiters := by
    refine List.ext_getElem? fun k => ?_
    rw [List.getElem?_modify]
    split
    · next hk =>
      subst hk
      cases ht : s.waiters[w]? with
      | none => rfl
      | some t =>
        have hst : t.stage ≠ .parked := by simpa [stage?, ht] using h
        simp [Waiter.interrupt, hst]
    · simp
  rw [interrupt, hw]

theorem stage?_interrupt (s : Store) (w v : Nat) :
    (s.interrupt w).stage? v =
      if v = w ∧ s.stage? w = some .parked then some .calling else s.stage? v := by
  by_cases hk : s.stage? w = some .parked
  · by_cases hv : v = w
    · subst hv
      rw [if_pos ⟨rfl, hk⟩]
      obtain ⟨t, ht, hst⟩ := Option.map_eq_some_iff.mp hk
      simp [stage?, waiters_interrupt ht, Waiter.interrupt, hst]
    · simp [stage?, interrupt, hv, Ne.symm hv]
  · rw [interrupt_of_ne_parked hk, if_neg fun h => hk h.2]

end Store

end HelperHandoff.Counter
