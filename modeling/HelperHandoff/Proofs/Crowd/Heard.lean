import HelperHandoff.Proofs.Counter.Passage
import HelperHandoff.Proofs.Crowd.Soundness

set_option autoImplicit false

namespace HelperHandoff.Crowd

open Completion (Client Hand)
open Counter (Answer Fares Guard InRange Passage Stage Store Waiter)

variable {ι : Type}

/-! ### One turn -/

section

variable {d : Deal} {p : Party} {s : Store} {x : Reply} {w : Nat} {a : Waiter}

theorem passage_clientStep {c c' : Client} {t : Store} {m : Completion.Move}
    (h : c.step m s = some (t, c')) (ha : s.waiters[w]? = some a)
    (hc : c.guard.counter = a.counter) : Passage s t w a := by
  cases steps_of_clientStep h with
  | calls _ => exact .call ha _
  | interrupted _ => exact .interrupt ha _
  | removes _ _ | misses _ _ => exact .destroy ha hc
  | _ => exact .refl ha

theorem Party.Acts.passage (h : Acts d p s x) (hp : p.Fits s) (ha : s.waiters[w]? = some a) :
    Passage s x.store w a := by
  by_cases hc : a.counter = p.counter
  · have hguard : ∀ g, p.guard? = some g → g.counter = a.counter := fun g hg =>
      (hp.guard g hg).1.trans hc.symm
    cases h with
    | reads => exact .refl ha
    | hands h =>
      rw [← hc]
      exact .hand ha h
    | destroys ht | drops ht | ends ht => exact .destroy ha (hguard _ (by simp [guard?, ht]))
    | enters ht | awaits ht => exact .enter ha _
    | calls ht => exact .call ha _
    | interrupted ht => exact .interrupt ha _
    | moves ht hm => exact passage_clientStep hm ha (hguard _ (by simp [guard?, ht]))
  · exact (h.about hp).passage ha hc

theorem Arrives.passage (h : Arrives d s x) (ha : s.waiters[w]? = some a) :
    Passage s x.store w a := by
  cases h with
  | creates => exact .create ha
  | abandons e => exact .abandon ha
  | learns id => exact .refl ha

theorem Sound.passage {r : Crowd ι} (hr : Sound r) {t : Turn ι} (h : r.reply? t = some x)
    (ha : r.store.waiters[w]? = some a) : Passage r.store x.store w a := by
  rcases reply?_cases h with ⟨-, hx⟩ | ⟨p, hp, hx⟩
  · exact hx.passage ha
  · exact hx.passage (hr.fits _ p hp) ha

theorem Arrives.waiter?_eq_none (h : Arrives d s x) : x.party.waiter? = none := by
  cases h <;> rfl

end

/-! ### What a thread has heard -/

variable [DecidableEq ι]

theorem Sound.stage?_run {r : Crowd ι} (hr : Sound r) {w : Nat} {f : Option Errno}
    (h : r.store.stage? w = some (.returned f)) (later : List (Turn ι)) :
    (r.run later).store.stage? w = some (.returned f) := by
  have hall : Sound (r.run later) ∧ (r.run later).store.stage? w = some (.returned f) := by
    refine run_induction (P := fun r => Sound r ∧ r.store.stage? w = some (.returned f)) ⟨hr, h⟩
      later ?_
    rintro t - r x hx ⟨hr, h⟩
    obtain ⟨a, ha, hst⟩ := Option.map_eq_some_iff.mp h
    obtain ⟨b, hb, -, hf⟩ := hr.passage hx ha
    rw [hst] at hf
    refine ⟨hr.settle hx, ?_⟩
    simp [Store.stage?, hb, hf.eq_of_returned]
  exact hall.2

theorem ne_returned_of_isPrefix {s : Store} {before turns : List (Turn ι)} {w : Nat}
    (hb : before <+: turns) (h : ∀ f, ((start s).run turns).store.stage? w ≠ some (.returned f))
    (f : Option Errno) : ((start s).run before).store.stage? w ≠ some (.returned f) := by
  obtain ⟨after, rfl⟩ := hb
  intro hf
  have hl := (run_sound s before).stage?_run hf after
  rw [← run_append] at hl
  exact h f hl

/-- There was a moment of the run at which the thread of the party `i` was in its call, at place
`w`, or had just got through, and the counter was like this. -/
def InCall (s : Store) (turns : List (Turn ι)) (i : ι) (w : Nat)
    (like : Option Int32 → Prop) : Prop :=
  ∃ before q, before <+: turns ∧ ((start s).run before).party i = some q ∧ q.waiter? = some w ∧
    (∀ earlier f, earlier <+: before → earlier ≠ before →
      ((start s).run earlier).store.stage? w ≠ some (.returned f)) ∧
    like (((start s).run before).store.value? q.counter)

section

variable {s : Store} {turns : List (Turn ι)} {i : ι} {w : Nat} {q : Party}
  {like : Option Int32 → Prop}

theorem InCall.concat (h : InCall s turns i w like) (t : Turn ι) :
    InCall s (turns ++ [t]) i w like := by
  obtain ⟨before, q, hb, hq⟩ := h
  exact ⟨before, q, hb.trans (List.prefix_append _ _), hq⟩

theorem InCall.now (hq : ((start s).run turns).party i = some q) (hw : q.waiter? = some w)
    (hf : ∀ f, ((start s).run turns).store.stage? w ≠ some (.returned f))
    (h : like (((start s).run turns).store.value? q.counter)) : InCall s turns i w like :=
  ⟨turns, q, List.prefix_refl _, hq, hw, fun _ f he _ => ne_returned_of_isPrefix he hf f, h⟩

theorem InCall.next {t : Turn ι} (hq : ((start s).run (turns ++ [t])).party i = some q)
    (hw : q.waiter? = some w)
    (hf : ∀ f, ((start s).run turns).store.stage? w ≠ some (.returned f))
    (h : like (((start s).run (turns ++ [t])).store.value? q.counter)) :
    InCall s (turns ++ [t]) i w like := by
  refine ⟨turns ++ [t], q, List.prefix_refl _, hq, hw, fun earlier f he hne => ?_, h⟩
  rcases List.prefix_concat_iff.mp he with rfl | he
  · exact absurd rfl hne
  · exact ne_returned_of_isPrefix he hf f

end

def Signaled (cell : Option Int32) : Prop := ∃ v, cell = some v ∧ v ≠ 0

structure Heard (s : Store) (turns : List (Turn ι)) (i : ι) (w : Nat) (counter : Int) : Prop where
  rests : ((start s).run turns).store.stage? w = some .parked →
    ((start s).run turns).store.value? counter = some 0
  passed : ((start s).run turns).store.stage? w = some (.returned none) →
    InCall s turns i w Signaled
  failed : ∀ e, ((start s).run turns).store.stage? w = some (.returned (some e)) →
    InCall s turns i w (· = none)

theorem Heard.concat {s : Store} {turns : List (Turn ι)} {i : ι} {w : Nat} {p q : Party}
    (h : Heard s turns i w q.counter) {t : Turn ι}
    (hq : ((start s).run turns).party i = some q) (hqw : q.waiter? = some w)
    (hp : ((start s).run (turns ++ [t])).party i = some p) (hpw : p.waiter? = some w)
    (hc : p.counter = q.counter) {x : Reply}
    (hx : ((start s).run turns).reply? t = some x) : Heard s (turns ++ [t]) i w p.counter := by
  have hr := run_sound s turns
  have hrun : ((start s).run (turns ++ [t])).store = x.store := by
    rw [run_concat, step, hx]
    rfl
  obtain ⟨a, ha, hac⟩ := Option.map_eq_some_iff.mp ((hr.fits i q hq).waiter w hqw)
  obtain ⟨b, hb, -, hf⟩ := hr.passage hx ha
  have hbefore : ((start s).run turns).store.stage? w = some a.stage := by simp [Store.stage?, ha]
  have hafter : ((start s).run (turns ++ [t])).store.stage? w = some b.stage := by
    rw [hrun]
    simp [Store.stage?, hb]
  rw [hac, ← hrun] at hf
  obtain ⟨hrests, hpassed, hfailed⟩ := h
  rw [hbefore] at hrests hpassed hfailed
  rw [← hc] at hf hrests
  generalize a.stage = before at *
  generalize b.stage = after at *
  -- Whatever the thread hears of is so before the turn or after it.
  have hnow {like : Option Int32 → Prop} (hu : before = .calling ∨ before = .parked)
      (h : like (((start s).run turns).store.value? p.counter) ∨
        like (((start s).run (turns ++ [t])).store.value? p.counter)) :
      InCall s (turns ++ [t]) i w like := by
    have hf : ∀ f, ((start s).run turns).store.stage? w ≠ some (.returned f) := by
      rcases hu with rfl | rfl <;> simp [hbefore]
    rcases h with h | h
    · rw [hc] at h
      exact (InCall.now hq hqw hf h).concat t
    · exact InCall.next hp hpw hf h
  cases hf with
  | stays hs =>
    exact
      { rests := fun hst => hs (Option.some.inj (hafter.symm.trans hst))
          (hrests (hafter.symm.trans hst))
        passed := fun hst => (hpassed (hafter.symm.trans hst)).concat t
        failed := fun e hst => (hfailed e (hafter.symm.trans hst)).concat t }
  | sleeps hs => exact ⟨fun _ => hs, by simp [hafter], by simp [hafter]⟩
  | interrupted => exact ⟨by simp [hafter], by simp [hafter], by simp [hafter]⟩
  | @passes _ v hu hv hheld =>
    refine ⟨by simp [hafter], fun _ => hnow hu ?_, by simp [hafter]⟩
    exact hheld.imp (fun h => ⟨v, h, hv⟩) fun h => ⟨v, h, hv⟩
  | fails hu hgone => exact ⟨by simp [hafter], by simp [hafter], fun _ _ => hnow hu hgone⟩

theorem run_heard (s : Store) (turns : List (Turn ι)) {i : ι} {p : Party} {w : Nat}
    (hp : ((start s).run turns).party i = some p) (hw : p.waiter? = some w) :
    Heard s turns i w p.counter := by
  induction turns using List.reverseRecOn generalizing p with
  | nil => cases hp
  | append_singleton turns t ih =>
    cases hx : ((start s).run turns).reply? t with
    | none =>
      have hsame : (start s).run (turns ++ [t]) = (start s).run turns := by
        rw [run_concat, step, hx]
        rfl
      rw [hsame] at hp
      obtain ⟨hrests, hpassed, hfailed⟩ := ih hp hw
      rw [← hsame] at hrests hpassed hfailed
      exact ⟨hrests, fun h => (hpassed h).concat t, fun e h => (hfailed e h).concat t⟩
    | some x =>
      have hrun : (start s).run (turns ++ [t]) = ((start s).run turns).settle t x := by
        rw [run_concat, step, hx]
        rfl
      have hnow := hp
      rw [hrun] at hp
      rcases party_settle_cases hp with ⟨rfl, rfl⟩ | ⟨-, hq⟩
      · rcases reply?_cases hx with ⟨-, hx'⟩ | ⟨q, hq, hx'⟩
        · exact absurd (hx'.waiter?_eq_none.symm.trans hw) (by simp)
        · have hfits := (run_sound s turns).fits _ q hq
          rcases hx'.waiter?_cases hfits hw with hqw | hnew
          · exact (ih hq hqw).concat hq hqw hnow hw hx'.counter hx
          · -- A thread that has just come to wait has heard nothing.
            have hst : ((start s).run (turns ++ [t])).store.stage? w = some .calling := by
              obtain ⟨rfl, hs⟩ := Prod.ext_iff.mp hnew
              simp only at hs
              rw [hrun, store_settle, hs]
              simp [Store.enter, Store.stage?]
            exact ⟨by simp [hst], by simp [hst], by simp [hst]⟩
      · exact (ih hq hw).concat hq hw hnow hw rfl hx

end HelperHandoff.Crowd
