import HelperHandoff.Proofs.Counter.Waiter

set_option autoImplicit false

namespace HelperHandoff.Counter

namespace Store

/-- A number that has been given out is not given out again. -/
structure Later (s t : Store) : Prop where
  length : s.cells.length ≤ t.cells.length
  gone : ∀ j : Int, j < s.cells.length → s.value? j = none → t.value? j = none

theorem Later.refl (s : Store) : s.Later s := ⟨Nat.le_refl _, fun _ _ h => h⟩

theorem Later.trans {s t u : Store} (h : s.Later t) (k : t.Later u) : s.Later u where
  length := Nat.le_trans h.length k.length
  gone j hj hn := k.gone j (Int.lt_of_lt_of_le hj (Int.ofNat_le.mpr h.length)) (h.gone j hj hn)

/-- Between the two moments something has been done to the counter `id`, and to no other. -/
structure About (id : Int) (s t : Store) : Prop extends Later s t where
  value : ∀ j, j ≠ id → t.value? j = s.value? j
  waiter : ∀ (w : Nat) (x : Waiter), s.waiters[w]? = some x →
    ∃ y, t.waiters[w]? = some y ∧ y.counter = x.counter ∧ (x.counter ≠ id → y = x)

namespace About

variable {id : Int} {s t u : Store}

theorem refl (id : Int) (s : Store) : s.About id s :=
  ⟨.refl s, fun _ _ => rfl, fun _ x h => ⟨x, h, rfl, fun _ => rfl⟩⟩

theorem trans (h : s.About id t) (k : t.About id u) : s.About id u where
  toLater := h.toLater.trans k.toLater
  value j hj := (k.value j hj).trans (h.value j hj)
  waiter w x hx := by
    obtain ⟨y, hy, hc, he⟩ := h.waiter w x hx
    obtain ⟨z, hz, hd, hf⟩ := k.waiter w y hy
    refine ⟨z, hz, hd.trans hc, fun hn => ?_⟩
    rw [hf (by rwa [hc]), he hn]

theorem counter_waiter (h : s.About id t) {w : Nat} {j : Int}
    (hw : s.waiters[w]?.map Waiter.counter = some j) :
    t.waiters[w]?.map Waiter.counter = some j := by
  obtain ⟨x, hx, rfl⟩ := Option.map_eq_some_iff.mp hw
  obtain ⟨y, hy, hc, -⟩ := h.waiter w x hx
  rw [hy, Option.map_some, hc]

theorem stage?_of_ne (h : s.About id t) {w : Nat} {j : Int} (hj : j ≠ id)
    (hw : s.waiters[w]?.map Waiter.counter = some j) : t.stage? w = s.stage? w := by
  obtain ⟨x, hx, rfl⟩ := Option.map_eq_some_iff.mp hw
  obtain ⟨y, hy, -, he⟩ := h.waiter w x hx
  obtain rfl := he hj
  rw [stage?, stage?, hx, hy]

end About

theorem lt_length_create (s : Store) : s.create.1 < s.create.2.cells.length := by
  simp only [create, List.length_append, List.length_singleton]
  omega

theorem lt_length_of_value? {s : Store} {id : Int} {v : Int32} (h : s.value? id = some v) :
    0 ≤ id ∧ id < s.cells.length := by
  have hn := nonneg_of_live (live_iff.mpr ⟨v, h⟩)
  have hl : id.toNat < s.cells.length := by
    rw [value?, if_neg (Int.not_lt.mpr hn)] at h
    exact (List.getElem?_eq_some_iff.mp (Option.join_eq_some_iff.mp h)).1
  omega

theorem value?_of_read {s : Store} {id : Int} {v : Int32} (h : s.read id = .ok v) :
    s.value? id = some v := by
  unfold read at h
  split at h
  · next hx => rw [hx, Except.ok.inj h]
  · cases h

theorem publish_of_gone {s : Store} {id : Int} {code : Int32} (h : s.value? id = none)
    (hc : ExitCode.Accepted code) : s.publish id code = (some .invalidArgument, s) := by
  obtain ⟨v, he, hr⟩ := hc.encode?
  have hl := not_live_iff.mpr h
  simp [publish, he, set, hr, hl]

theorem length_put (s : Store) (id : Int) (cell : Option Int32) :
    (s.put id cell).cells.length = s.cells.length := by
  simp [put]

/-! ### Each act -/

theorem about_settle {s : Store} {id : Int} (h : s.live id) (cell : Option Int32) :
    s.About id (s.settle id cell) where
  value j hj := value?_settle_ne (nonneg_of_live h) hj cell
  waiter w x hx := by
    refine ⟨x.told id cell, by rw [waiters_settle, hx, Option.map_some],
      x.counter_told id cell, fun hn => ?_⟩
    cases cell <;> simp [Waiter.told, Waiter.release, hn]
  length := Nat.le_of_eq (by rw [cells_settle, length_put])
  gone j _ hn := by
    have hj : j ≠ id := by
      rintro rfl
      exact not_live_iff.mpr hn h
    rw [value?_settle_ne (nonneg_of_live h) hj, hn]

theorem about_hand (s : Store) (id : Int) (h : Completion.Hand) : s.About id (h.act id s).2 := by
  obtain ⟨e, he⟩ | ⟨hl, hs, -⟩ := h.act_cases id s
  · rw [he]
    exact .refl id s
  · rw [hs]
    exact about_settle hl _

theorem about_destroy (g : Guard) (s : Store) : s.About g.counter (g.destroy s).store := by
  cases hg : g.removed with
  | true =>
    have hs : (g.destroy s).store = s := by simp [Guard.destroy, hg]
    rw [hs]
    exact .refl g.counter s
  | false =>
    rw [Guard.destroy_of_held hg]
    exact about_hand s g.counter .remove

theorem about_enter (s : Store) (id : Int) : s.About id (s.enter id).2 where
  value _ _ := rfl
  waiter w x hx := by
    have hw := (List.getElem?_eq_some_iff.mp hx).1
    refine ⟨x, ?_, rfl, fun _ => rfl⟩
    rw [enter, List.getElem?_append_left hw, hx]
  length := Nat.le_refl _
  gone _ _ h := h

theorem about_call {s : Store} {id : Int} {w : Nat}
    (h : s.waiters[w]?.map Waiter.counter = some id) : s.About id (s.call w) where
  value j _ := s.value?_call w j
  waiter v x hx := by
    obtain ⟨t, ht, rfl⟩ := Option.map_eq_some_iff.mp h
    by_cases hv : v = w
    · subst hv
      obtain rfl := Option.some.inj (ht.symm.trans hx)
      exact ⟨_, waiters_call ht, t.counter_call _, fun hn => absurd rfl hn⟩
    · refine ⟨x, ?_, rfl, fun _ => rfl⟩
      simp only [call, ht]
      rw [List.getElem?_set_ne (Ne.symm hv), hx]
  length := by
    unfold call
    split <;> exact Nat.le_refl _
  gone j _ hn := by rw [s.value?_call w j, hn]

theorem about_interrupt {s : Store} {id : Int} {w : Nat}
    (h : s.waiters[w]?.map Waiter.counter = some id) : s.About id (s.interrupt w) where
  value _ _ := rfl
  waiter v x hx := by
    obtain ⟨t, ht, rfl⟩ := Option.map_eq_some_iff.mp h
    by_cases hv : v = w
    · subst hv
      obtain rfl := Option.some.inj (ht.symm.trans hx)
      exact ⟨_, waiters_interrupt ht, t.counter_interrupt, fun hn => absurd rfl hn⟩
    · refine ⟨x, ?_, rfl, fun _ => rfl⟩
      simp [interrupt, hx, Ne.symm hv]
  length := Nat.le_refl _
  gone _ _ h := h

theorem about_create (s : Store) : s.About s.create.1 s.create.2 where
  value _ hj := s.value?_create_ne hj
  waiter _ x hx := ⟨x, hx, rfl, fun _ => rfl⟩
  length := by simp [create]
  gone j hj hn := by
    have hne : j ≠ s.create.1 := Int.ne_of_lt hj
    rw [s.value?_create_ne hne, hn]

theorem about_abandon (s : Store) : s.About s.create.1 (Guard.abandon s).2 :=
  (about_create s).trans (about_destroy ⟨s.create.1, false⟩ s.create.2)

end Store

end HelperHandoff.Counter
