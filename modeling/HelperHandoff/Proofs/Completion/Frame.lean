import HelperHandoff.Proofs.Completion.Cleanup

set_option autoImplicit false

namespace HelperHandoff

namespace Counter

/-- A counter is gone, and nothing else about the counters has changed. -/
structure Store.Cleared (id : Int) (s t : Store) : Prop where
  gone : t.value? id = none
  others : ∀ j, j ≠ id → t.value? j = s.value? j

theorem Store.Cleared.after {id : Int} {s t u : Store} (h : t.Cleared id u)
    (hst : ∀ j, j ≠ id → t.value? j = s.value? j) : s.Cleared id u :=
  ⟨h.gone, fun j hj => (h.others j hj).trans (hst j hj)⟩

theorem Store.Cleared.of_create {s t : Store} (h : s.create.2.Cleared s.create.1 t) (j : Int) :
    t.value? j = s.value? j := by
  by_cases hj : j = s.create.1
  · subst hj
    rw [h.gone, s.value?_of_new]
  · rw [h.others j hj, s.value?_create_ne hj]

theorem Guard.cleared_drop {g : Guard} (hg : g.removed = false) (s : Store) :
    s.Cleared g.counter (g.drop s).2 := by
  rw [drop, destroy_of_held hg]
  exact ⟨s.value?_remove_self _, fun j hj => s.value?_remove_ne hj⟩

theorem Guard.value?_destroy_ne (g : Guard) (s : Store) {j : Int} (hj : j ≠ g.counter) :
    (g.destroy s).store.value? j = s.value? j := by
  unfold destroy
  split
  · rfl
  · exact s.value?_remove_ne hj

end Counter

namespace Completion

open Counter (Guard Store)

namespace Race

theorem Steps.value?_ne {turn : Turn} {r r' : Race} (h : Steps turn r r') {j : Int}
    (hj : j ≠ r.id) : r'.store.value? j = r.store.value? j := by
  cases h with
  | calls _ => exact Store.value?_call _ _ _
  | removes _ _ | misses _ _ => exact r.client.guard.value?_destroy_ne r.store hj
  | acts hand => exact hand.value?_act_ne hj r.store
  | _ => rfl

theorem value?_run_ne {r : Race} {j : Int} (hj : j ≠ r.id) (turns : List Turn) :
    (r.run turns).store.value? j = r.store.value? j := by
  suffices h : (r.run turns).id = r.id ∧ (r.run turns).store.value? j = r.store.value? j from h.2
  refine run_induction (P := fun r' => r'.id = r.id ∧ r'.store.value? j = r.store.value? j)
    ⟨rfl, rfl⟩ turns fun _ _ r₁ r₂ hs h => ⟨hs.later.id.trans h.1, ?_⟩
  rw [hs.value?_ne (h.1 ▸ hj), h.2]

/-- Whoever waits for a counter of its own has cleared it when it returns. -/
theorem cleared_of_returned {g : Guard} {s : Store} (hg : g.removed = false)
    (k : Kept g.counter [] s) (early : List Hand) (timeoutMs : Nat) (turns : List Turn)
    {o : Outcome} (h : ((startAfter early g timeoutMs s).run turns).result? = some o) :
    s.Cleared g.counter ((startAfter early g timeoutMs s).run turns).store where
  gone := by
    have hs := run_sound (sound_startAfter hg k early timeoutMs) turns
    have hid := (run_later turns (startAfter early g timeoutMs s)).id
    have hgone := hs.gone (by simp [stage_of_result? h, Stage.isOver])
    rwa [hid] at hgone
  others j hj := by
    have hstart : (startAfter early g timeoutMs s).store.value? j = s.value? j :=
      Hand.value?_actAll_ne early hj s
    exact (value?_run_ne hj turns).trans hstart

end Race

end Completion

end HelperHandoff
