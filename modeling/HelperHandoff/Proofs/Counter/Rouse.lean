import HelperHandoff.Proofs.Counter.Passage

/-!
A thread that a signal has sent back to its call. As long as it has not called, whatever others do
goes on as if the thread were where it was, since nobody's act looks at where another thread stands.
-/

set_option autoImplicit false

namespace HelperHandoff.Counter

open Completion (Client Hand Move)

def Waiter.rouse (a : Waiter) : Waiter := { a with stage := .calling }

theorem Waiter.release_rouse (a : Waiter) (id : Int) (f : Option Errno) :
    a.rouse.release id f = a.rouse := by
  simp [release, rouse]

theorem Waiter.rouse_release (a : Waiter) (id : Int) (f : Option Errno) :
    (a.release id f).rouse = a.rouse := by
  unfold release
  split <;> rfl

namespace Store

variable {s t : Store} {w v : Nat}

theorem ext_waiters (hc : s.cells = t.cells) (hw : ∀ k : Nat, s.waiters[k]? = t.waiters[k]?) :
    s = t := by
  obtain ⟨cells, waiters⟩ := s
  obtain rfl : cells = t.cells := hc
  obtain rfl : waiters = t.waiters := List.ext_getElem? hw
  rfl

/-- The thread at place `w` is back at its call. -/
def rouse (w : Nat) (s : Store) : Store := { s with waiters := s.waiters.modify w Waiter.rouse }

@[simp] theorem value?_rouse (w : Nat) (s : Store) (id : Int) :
    (s.rouse w).value? id = s.value? id := rfl

@[simp] theorem live_rouse (w : Nat) (s : Store) (id : Int) :
    (s.rouse w).live id = s.live id := rfl

@[simp] theorem read_rouse (w : Nat) (s : Store) (id : Int) :
    (s.rouse w).read id = s.read id := rfl

theorem getElem?_rouse_self {a : Waiter} (ha : s.waiters[w]? = some a) :
    (s.rouse w).waiters[w]? = some a.rouse := by
  simp [rouse, ha]

theorem getElem?_rouse_ne (h : v ≠ w) : (s.rouse w).waiters[v]? = s.waiters[v]? := by
  simp [rouse, Ne.symm h]

theorem stage?_rouse_self (h : (s.stage? w).isSome) : (s.rouse w).stage? w = some .calling := by
  obtain ⟨a, ha⟩ := Option.isSome_iff_exists.mp (Option.isSome_map ▸ h)
  simp [stage?, getElem?_rouse_self ha, Waiter.rouse]

theorem stage?_rouse_ne (h : v ≠ w) : (s.rouse w).stage? v = s.stage? v := by
  rw [stage?, getElem?_rouse_ne h, stage?]

/-! ### The acts of others -/

theorem put_rouse (w : Nat) (s : Store) (id : Int) (cell : Option Int32) :
    (s.rouse w).put id cell = (s.put id cell).rouse w := rfl

theorem release_rouse (w : Nat) (s : Store) (id : Int) (f : Option Errno) :
    (s.rouse w).release id f = (s.release id f).rouse w := by
  refine ext_waiters rfl fun k => ?_
  simp only [release, rouse, List.getElem?_map, List.getElem?_modify]
  cases s.waiters[k]? with
  | none => rfl
  | some a => by_cases hk : w = k <;> simp [hk, a.release_rouse, a.rouse_release]

theorem set_rouse (w : Nat) (s : Store) (id : Int) (n : Int32) :
    (s.rouse w).set id n = ((s.set id n).1, (s.set id n).2.rouse w) := by
  by_cases hn : id < 0
  · simp [set, hn]
  by_cases hr : InRange n
  · by_cases hl : s.live id = true
    · simp only [set, hn, hr, hl, live_rouse, put_rouse]
      by_cases hz : n = 0 <;> simp [hz, release_rouse]
    · simp [set, hn, hr, hl]
  · simp [set, hn, hr]

theorem publish_rouse (w : Nat) (s : Store) (id : Int) (code : Int32) :
    (s.rouse w).publish id code = ((s.publish id code).1, (s.publish id code).2.rouse w) := by
  cases he : ExitCode.encode? code with
  | none => simp [publish, he]
  | some n => simp [publish, he, set_rouse]

theorem remove_rouse (w : Nat) (s : Store) (id : Int) :
    (s.rouse w).remove id = ((s.remove id).1, (s.remove id).2.rouse w) := by
  by_cases hl : s.live id = true
  · simp [remove, hl, put_rouse, release_rouse]
  · simp [remove, hl]

theorem act_rouse (w : Nat) (s : Store) (id : Int) (h : Hand) :
    h.act id (s.rouse w) = ((h.act id s).1, (h.act id s).2.rouse w) := by
  cases h with
  | publish code => exact publish_rouse w s id code
  | set n => exact set_rouse w s id n
  | remove => exact remove_rouse w s id

theorem destroy_rouse (w : Nat) (s : Store) (g : Guard) :
    g.destroy (s.rouse w) = { g.destroy s with store := (g.destroy s).store.rouse w } := by
  cases hr : g.removed with
  | true => simp [Guard.destroy, hr]
  | false => simp [Guard.destroy_of_held hr, remove_rouse]

theorem enter_rouse (h : w < s.waiters.length) (id : Int) :
    (s.rouse w).enter id = ((s.enter id).1, (s.enter id).2.rouse w) := by
  have hs : ((s.rouse w).enter id).2 = (s.enter id).2.rouse w := by
    refine ext_waiters rfl fun k => ?_
    simp only [enter, rouse, List.getElem?_append, List.getElem?_modify, List.length_modify]
    by_cases hk : k < s.waiters.length
    · simp [hk]
    · simp [hk, show w ≠ k by omega]
  rw [← hs]
  simp [enter, rouse]

theorem call_rouse_ne (h : v ≠ w) : (s.rouse w).call v = (s.call v).rouse w := by
  refine ext_waiters ?_ fun k => ?_
  · rw [cells_call]
    exact (cells_call s v).symm
  by_cases hw : k = w
  · subst hw
    rw [waiters_call_ne (Ne.symm h)]
    simp [rouse, waiters_call_ne (Ne.symm h)]
  rw [getElem?_rouse_ne hw]
  by_cases hv : k = v
  · subst hv
    have hk := getElem?_rouse_ne (s := s) hw
    cases ha : s.waiters[k]? with
    | none => simp [call, hk, ha]
    | some a => rw [waiters_call (hk.trans ha), waiters_call ha, value?_rouse]
  · rw [waiters_call_ne hv, getElem?_rouse_ne hw, waiters_call_ne hv]

theorem interrupt_rouse_ne (h : v ≠ w) :
    (s.rouse w).interrupt v = (s.interrupt v).rouse w := by
  refine ext_waiters rfl fun k => ?_
  simp only [interrupt, rouse, List.getElem?_modify]
  by_cases hk : w = k
  · have hv : v ≠ k := fun hv => h (hv.trans hk.symm)
    simp [hk, hv]
  · simp [hk]

theorem clientStep_rouse {c : Client} (h : c.monitor ≠ w) (m : Move) (s : Store) :
    c.step m (s.rouse w) = (c.step m s).map fun (t, c') => (t.rouse w, c') := by
  have hs := stage?_rouse_ne (s := s) h
  cases m with
  | monitorCalls | monitorInterrupted | monitorSends =>
    simp only [Client.step, hs, call_rouse_ne h, interrupt_rouse_ne h]
    split <;> rfl
  | receive | deadline | read | join =>
    simp only [Client.step, read_rouse]
    split <;> rfl
  | remove =>
    simp only [Client.step, destroy_rouse]
    split
    · split <;> rfl
    · rfl

/-! ### Who is about to call -/

theorem calling_of_settle {id : Int} {cell : Option Int32}
    (h : (s.settle id cell).stage? w = some .calling) : s.stage? w = some .calling := by
  rw [stage?, waiters_settle, Option.map_map] at h
  obtain ⟨a, ha, hst⟩ := Option.map_eq_some_iff.mp h
  have hcalling : a.stage = .calling := by
    unfold Function.comp Waiter.told Waiter.release at hst
    grind
  rw [stage?, ha, Option.map_some, hcalling]

theorem calling_of_hand {id : Int} {h : Hand} (hx : (h.act id s).2.stage? w = some .calling) :
    s.stage? w = some .calling := by
  obtain ⟨e, he⟩ | ⟨-, hs, -⟩ := h.act_cases id s
  · rwa [he] at hx
  · rw [hs] at hx
    exact calling_of_settle hx

theorem calling_of_destroy {g : Guard} (h : (g.destroy s).store.stage? w = some .calling) :
    s.stage? w = some .calling := by
  cases hr : g.removed with
  | true => simpa [Guard.destroy, hr] using h
  | false =>
    rw [Guard.destroy_of_held hr] at h
    exact calling_of_hand (h := .remove) h

theorem stage?_enter (hw : w < s.waiters.length) (id : Int) :
    (s.enter id).2.stage? w = s.stage? w := by
  rw [stage?, enter, List.getElem?_append_left hw, stage?]

theorem stage?_call_ne (h : w ≠ v) : (s.call v).stage? w = s.stage? w := by
  rw [stage?, waiters_call_ne h, stage?]

theorem stage?_interrupt_ne (h : w ≠ v) : (s.interrupt v).stage? w = s.stage? w := by
  rw [stage?_interrupt, if_neg fun hw => h hw.1]

/-! ### The call after a signal -/

/-- The kernel has answered the thread as it would now. -/
def Answered (s : Store) (w : Nat) : Prop :=
  ∃ a v, s.waiters[w]? = some a ∧ s.value? a.counter = some v ∧
    a.stage = if v = 0 then .parked else .returned none

theorem Answered.call_rouse (h : s.Answered w) : (s.rouse w).call w = s := by
  obtain ⟨a, v, ha, hv, hst⟩ := h
  refine ext_waiters (cells_call _ w) fun k => ?_
  by_cases hk : k = w
  · subst hk
    rw [waiters_call (getElem?_rouse_self ha), value?_rouse, ha]
    simp [Waiter.rouse, Waiter.call, hv, ← hst]
  · rw [waiters_call_ne hk, getElem?_rouse_ne hk]

theorem Answered.ne_calling (h : s.Answered w) : s.stage? w ≠ some .calling := by
  obtain ⟨a, v, ha, -, hst⟩ := h
  by_cases hz : v = 0 <;> simp [stage?, ha, hst, hz]

/-- That stays so as long as the counter keeps its value or gets one that lets all pass. -/
theorem Answered.passage {a : Waiter} (h : s.Answered w) (ha : s.waiters[w]? = some a)
    (hp : Passage s t w a) (hn : t.stage? w ≠ some .calling)
    (hk : t.value? a.counter = s.value? a.counter ∨ ∃ u, t.value? a.counter = some u ∧ u ≠ 0) :
    t.Answered w := by
  obtain ⟨a', v, ha', hv, hst⟩ := h
  obtain rfl : a' = a := Option.some.inj (ha'.symm.trans ha)
  obtain ⟨b, hb, hbc, hf⟩ := hp
  have hbs : t.stage? w = some b.stage := by simp [stage?, hb]
  rw [hbs] at hn
  rw [hst] at hf
  rw [hv] at hk
  generalize hnow : b.stage = now at hf hn
  by_cases hz : v = 0
  · subst hz
    rw [if_pos rfl] at hf
    cases hf with
    | stays hrests => exact ⟨b, 0, hb, hbc ▸ hrests rfl hv, hnow⟩
    | interrupted => exact absurd rfl hn
    | @passes _ u _ hu hheld =>
      rcases hheld with hheld | hheld
      · exact absurd (Option.some.inj (hheld.symm.trans hv)) hu
      · exact ⟨b, u, hb, hbc ▸ hheld, by rw [hnow, if_neg hu]⟩
    | fails _ hgone => simp_all
  · rw [if_neg hz] at hf
    have hb' (u : Int32) (hu : t.value? a'.counter = some u) (hne : u ≠ 0) : t.Answered w :=
      ⟨b, u, hb, hbc ▸ hu, by rw [hnow, hf.eq_of_returned, if_neg hne]⟩
    rcases hk with hk | ⟨u, hu, hne⟩
    · exact hb' v hk hz
    · exact hb' u hu hne

theorem interrupt_eq_rouse (h : s.stage? w = some .parked) : s.interrupt w = s.rouse w := by
  obtain ⟨a, ha, hst⟩ := Option.map_eq_some_iff.mp h
  refine ext_waiters rfl fun k => ?_
  by_cases hk : k = w
  · subst hk
    rw [waiters_interrupt ha, getElem?_rouse_self ha]
    simp [Waiter.interrupt, Waiter.rouse, hst]
  · rw [getElem?_rouse_ne hk]
    simp [interrupt, Ne.symm hk]

end Store

end HelperHandoff.Counter
