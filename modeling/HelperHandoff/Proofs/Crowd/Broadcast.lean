import HelperHandoff.Proofs.Counter.Request
import HelperHandoff.Proofs.Crowd.Ledger
import HelperHandoff.Proofs.Crowd.Signals

/-!
What waits for a counter come to, any number of them in any crowd. A value that is stored ends the
wait of all who sleep at that moment, whatever comes after, and a wait leaves no trace at any
counter. A signal ends nobody's wait, but whoever it has woken has to call again, and what passes at
the counter before that it misses.
-/

set_option autoImplicit false

namespace HelperHandoff.Crowd

open Completion (Client Hand)
open Counter (Answer InRange Stage Store Waiter)

variable {ι : Type} [DecidableEq ι]

/-! ### Any crowd -/

def Deal.isWait : Deal → Bool
  | .wait | .call | .interrupt | .move .monitorCalls | .move .monitorInterrupted => true
  | _ => false

theorem Party.Acts.value?_of_isWait {d : Deal} {p : Party} {s : Store} {x : Reply}
    (h : p.Acts d s x) (hd : d.isWait = true) (id : Int) : x.store.value? id = s.value? id := by
  cases h with
  | enters ht | interrupted ht => rfl
  | calls ht => exact s.value?_call _ id
  | @moves _ _ _ _ _ m ht hm =>
    cases steps_of_clientStep hm with
    | calls _ => exact s.value?_call _ id
    | interrupted _ => rfl
    | _ => cases hd
  | _ => cases hd

/-- What waits come to after any turns, `r` being the crowd then. -/
structure Broadcast (turns : List (Turn ι)) (r : Crowd ι) : Prop where
  passed : ∀ i p w, r.party i = some p → p.waiter? = some w →
    r.store.stage? w = some (.returned none) → InCall .empty turns i w Signaled
  failed : ∀ i p w e, r.party i = some p → p.waiter? = some w →
    r.store.stage? w = some (.returned (some e)) → InCall .empty turns i w (· = none)
  /-- As long as a thread is not through, what it hears depends on what the counter holds, and not on
  whether a signal has woken it. -/
  calls : ∀ i p w, r.party i = some p → p.tenure = .waits w →
    (∀ f, r.store.stage? w ≠ some (.returned f)) → ∃ x, r.reply? ⟨i, .call⟩ = some x ∧
      match r.store.value? p.counter with
      | none => x.answer = .failed .invalidArgument
      | some v => x.answer = (if v = 0 then .blocked else .done) ∧
        x.store.stage? w = some (Counter.attempt v.toInt Counter.takeAndGive).stage
  told : ∀ i p w f, r.party i = some p → p.tenure = .waits w →
    r.store.stage? w = some (.returned f) →
      r.reply? ⟨i, .call⟩ = some ⟨.ofFailure f, p, r.store⟩
  lasts : ∀ w f later, r.store.stage? w = some (.returned f) →
    (r.run later).store.stage? w = some (.returned f)
  traceless : ∀ i p d x, r.party i = some p → d.isWait = true → r.reply? ⟨i, d⟩ = some x →
    ∀ id, x.store.value? id = r.store.value? id
  interrupted : ∀ i p w, r.party i = some p → p.tenure = .waits w →
    ∃ x, r.reply? ⟨i, .interrupt⟩ = some x ∧ x.answer = .stillWaiting ∧ x.party = p ∧
      ∀ v, x.store.stage? v =
        if v = w ∧ r.store.stage? w = some .parked then some .calling else r.store.stage? v
  /-- Signals in any number at any moments make no difference to a thread that has been asleep, as
  long as nobody puts the counter back to rest or takes it away before the thread has called again;
  once it has, nobody can tell, then or later. -/
  unmoved : ∀ i p w more later, r.party i = some p → p.tenure = .waits w →
    r.store.stage? w ≠ some .calling → Undisturbed w p.counter r more →
      Abreast w (r.run more) (r.run (quiet i more)) ∧
        ((r.run more).store.stage? w ≠ some .calling →
          Matches (r.run (more ++ later)) (r.run (quiet i more ++ later)))
  /-- All who sleep at a counter when a value is stored are through, and remain so. -/
  released : ∀ i h v x w later, r.reply? ⟨i, .hand h⟩ = some x → x.answer = .done →
    h.cell? = some v → v ≠ 0 → r.store.Sleeps x.party.counter w →
      (r.run (⟨i, .hand h⟩ :: later)).store.stage? w = some (.returned none)
  /-- In whatever order the kernel tries the sleepers, it comes to the same. -/
  tried : ∀ i h v x (order : List Nat), r.reply? ⟨i, .hand h⟩ = some x → x.answer = .done →
    h.cell? = some v → (∀ w, r.store.Sleeps x.party.counter w → w ∈ order) →
      x.store = order.foldl (Store.retry x.party.counter) (r.store.put x.party.counter (some v))

omit [DecidableEq ι] in
theorem calls_of_range {r : Crowd ι} (hr : Sound r)
    (hrange : ∀ id v, r.store.value? id = some v → InRange v) {i : ι} {p : Party} {w : Nat}
    (hp : r.party i = some p) (ht : p.tenure = .waits w)
    (hrests : r.store.stage? w = some .parked → r.store.value? p.counter = some 0)
    (hs : ∀ f, r.store.stage? w ≠ some (.returned f)) :
    ∃ x, r.reply? ⟨i, .call⟩ = some x ∧
      match r.store.value? p.counter with
      | none => x.answer = .failed .invalidArgument
      | some v => x.answer = (if v = 0 then .blocked else .done) ∧
        x.store.stage? w = some (Counter.attempt v.toInt Counter.takeAndGive).stage := by
  have hw := (hr.fits i p hp).waiter w (by simp [Party.waiter?, ht])
  obtain ⟨a, ha, hac⟩ := Option.map_eq_some_iff.mp hw
  have hstage : r.store.stage? w = some a.stage := by simp [Store.stage?, ha]
  have hnow : (r.store.call w).stage? w = some (a.call (r.store.value? p.counter)).stage := by
    simp [Store.stage?, Store.waiters_call ha, hac]
  refine ⟨_, reply?_of_acts hp (.calls ht), ?_⟩
  cases hst : a.stage with
  | returned f => exact absurd (hst ▸ hstage) (hs f)
  | parked =>
    -- A sleeper is not heard of before the counter has another value.
    have hv := hrests (hst ▸ hstage)
    rw [hv] at hnow ⊢
    simp only [Waiter.call, hst] at hnow
    exact ⟨by simp [hnow, answerOf], hnow⟩
  | calling =>
    cases hv : r.store.value? p.counter with
    | none =>
      rw [hv] at hnow
      simp [hnow, Waiter.call, hst, answerOf, Answer.ofFailure]
    | some v =>
      rw [hv, Waiter.stage_call_of_inRange hst (hrange _ v hv)] at hnow
      refine ⟨?_, hnow⟩
      simp only [hnow, Counter.attempt_of_inRange (hrange _ v hv)]
      by_cases hz : v = 0 <;> simp [hz, Counter.Attempt.stage, answerOf, Answer.ofFailure]

omit [DecidableEq ι] in
theorem told_of_returned {r : Crowd ι} {i : ι} {p : Party} {w : Nat} {f : Option Errno}
    (hp : r.party i = some p) (ht : p.tenure = .waits w)
    (hs : r.store.stage? w = some (.returned f)) :
    r.reply? ⟨i, .call⟩ = some ⟨.ofFailure f, p, r.store⟩ := by
  have hx := reply?_of_acts (t := ⟨i, .call⟩) hp (.calls ht)
  have hc := Store.call_of_ne_calling (s := r.store) (w := w) (by simp [hs])
  rw [hc, hs] at hx
  exact hx

omit [DecidableEq ι] in
theorem stored_of_hand {r : Crowd ι} {i : ι} {h : Hand} {x : Reply}
    (hx : r.reply? ⟨i, .hand h⟩ = some x) (ha : x.answer = .done) :
    r.store.live x.party.counter ∧ x.store = r.store.settle x.party.counter h.cell? ∧
      ∀ v, h.cell? = some v → InRange v := by
  rcases reply?_cases hx with ⟨-, hy⟩ | ⟨p, -, hy⟩
  · cases hy
  · cases hy with
    | hands =>
      rcases h.act_cases p.counter r.store with ⟨e, he⟩ | ⟨hl, hs, hr, -⟩
      · rw [he] at ha
        cases ha
      · exact ⟨hl, by rw [hs], hr⟩

theorem released_of_stored {r : Crowd ι} (hr : Sound r) {i : ι} {h : Hand} {v : Int32} {x : Reply}
    {w : Nat} (hx : r.reply? ⟨i, .hand h⟩ = some x) (ha : x.answer = .done)
    (hc : h.cell? = some v) (hv : v ≠ 0) (hw : r.store.Sleeps x.party.counter w)
    (later : List (Turn ι)) :
    (r.run (⟨i, .hand h⟩ :: later)).store.stage? w = some (.returned none) := by
  obtain ⟨-, hs, -⟩ := stored_of_hand hx ha
  obtain ⟨⟨a, hwa, hac⟩, hst⟩ := hw.imp_left Option.map_eq_some_iff.mp
  have hp : a.stage = .parked := by simpa [Store.stage?, hwa] using hst
  have hnow : x.store.stage? w = some (.returned none) := by
    rw [hs, hc, Store.stage?, Store.waiters_settle, hwa]
    simp [Waiter.told, Waiter.release, hv, hac, hp]
  rw [run_cons, step_of_reply? hx]
  exact (hr.settle hx).stage?_run hnow later

/-- Waits for a counter are over for all sleepers at once, tell what has been so, and leave no
trace, whatever the turns. -/
theorem waits_broadcast (turns : List (Turn ι)) : Broadcast turns ((start .empty).run turns) := by
  have hr := run_sound .empty turns
  exact
    { passed := fun i p w hp hw => (run_heard .empty turns hp hw).passed
      failed := fun i p w e hp hw => (run_heard .empty turns hp hw).failed e
      calls := fun i p w hp ht hs => by
        have hw : p.waiter? = some w := by simp [Party.waiter?, ht]
        exact calls_of_range hr (run_inRange turns) hp ht (run_heard .empty turns hp hw).rests hs
      told := fun i p w f hp ht hs => told_of_returned hp ht hs
      lasts := fun w f later h => hr.stage?_run h later
      traceless := fun i p d x hp hd hx => by
        rcases reply?_cases hx with ⟨hn, -⟩ | ⟨q, -, ha⟩
        · exact absurd (hp.symm.trans hn) (by simp)
        · exact ha.value?_of_isWait hd
      interrupted := fun i p w hp ht =>
        ⟨_, reply?_of_acts hp (.interrupted ht), rfl, rfl, Store.stage?_interrupt _ _⟩
      unmoved := fun i p w more later hp ht hs hu => by
        have ha := run_abreast .empty turns hp ht hs hu
        refine ⟨ha, fun hsettled => ?_⟩
        rw [run_append, run_append]
        exact (ha.matches_of_ne_calling hsettled).run later
      released := fun i h v x w later hx ha hc hv hw => released_of_stored hr hx ha hc hv hw later
      tried := fun i h v x order hx ha hc ho => by
        obtain ⟨hl, hs, hrange⟩ := stored_of_hand hx ha
        rw [hs, hc]
        exact Store.settle_eq_foldl_retry hl (hrange v hc) ho }

def asleep : List (Turn (Fin 2)) := [⟨0, .create⟩, ⟨1, .know 0⟩, ⟨1, .wait⟩, ⟨1, .call⟩]

/-- The counter is set and put back to rest. The sleeper gets through; one whom a signal has woken
comes too late and sleeps on. So it is with a removal, of which such a one is told otherwise. -/
theorem signaled_before_pulse :
    let woken := asleep ++ [⟨1, .interrupt⟩]
    let pulse : List (Turn (Fin 2)) :=
      [⟨0, .hand (.set 5)⟩, ⟨0, .hand (.set 0)⟩, ⟨1, .call⟩]
    let removal : List (Turn (Fin 2)) := [⟨0, .hand .remove⟩, ⟨1, .call⟩]
    ((start .empty).run (asleep ++ pulse)).store.stage? 0 = some (.returned none) ∧
      ((start .empty).run (woken ++ pulse)).store.stage? 0 = some .parked ∧
      ((start .empty).run (asleep ++ removal)).store.stage? 0 =
        some (.returned (some .identifierRemoved)) ∧
      ((start .empty).run (woken ++ removal)).store.stage? 0 =
        some (.returned (some .invalidArgument)) :=
  ⟨rfl, rfl, rfl, rfl⟩

end HelperHandoff.Crowd
