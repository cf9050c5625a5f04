import HelperHandoff.Proofs.Counter.Scope
import Mathlib.Data.List.Basic

/-!
A wait as a request to the kernel: take one from the counter and give it back. The kernel makes the
changes of a request together or not at all. While one of them cannot be made the thread sleeps,
and when the counter gets another value the kernel tries the requests of the sleepers again, one
after the other, each at the value that those before it have left. Because a wait gives back what
it takes, no sleeper is in the way of another, and the order they are tried in makes no difference.
-/

set_option autoImplicit false

namespace HelperHandoff.Counter

/-- What comes of changes to a value. -/
inductive Attempt where
  | made (v : Int)
  | sleeps
  | refused
  deriving DecidableEq, Repr

def attempt (v : Int) : List Int → Attempt
  | [] => .made v
  | change :: rest =>
    if v + change < 0 then .sleeps
    else if ceiling < v + change then .refused
    else attempt (v + change) rest

def takeAndGive : List Int := [-1, 1]

theorem attempt_takeAndGive {v : Int} (hv : 0 ≤ v) (hc : v ≤ ceiling) :
    attempt v takeAndGive = if v = 0 then .sleeps else .made v := by
  unfold ceiling at hc
  by_cases hz : v = 0
  · subst hz
    rfl
  · have hlow : ¬ v + -1 < 0 := by omega
    have hhigh : ¬ ceiling < v + -1 := by unfold ceiling; omega
    have hback : v + -1 + 1 = v := by omega
    have hlow' : ¬ v < 0 := by omega
    have hhigh' : ¬ ceiling < v := by unfold ceiling; omega
    simp [takeAndGive, attempt, hlow, hhigh, hback, hlow', hhigh', hz]

theorem attempt_of_inRange {v : Int32} (hr : InRange v) :
    attempt v.toInt takeAndGive = if v = 0 then .sleeps else .made v.toInt := by
  have hz : v.toInt = 0 ↔ v = 0 := by
    rw [← Int32.toInt_inj]
    rfl
  simp only [attempt_takeAndGive hr.1 hr.2, hz]

def Attempt.stage : Attempt → Stage
  | .made _ => .returned none
  | .sleeps => .parked
  | .refused => .returned (some .outOfRange)

theorem Waiter.stage_call_of_inRange {t : Waiter} (ht : t.stage = .calling) {v : Int32}
    (hr : InRange v) : (t.call (some v)).stage = (attempt v.toInt takeAndGive).stage := by
  rw [attempt_of_inRange hr]
  by_cases hv : v = 0 <;> simp [call, ht, hv, Attempt.stage]

namespace Store

def Sleeps (s : Store) (id : Int) (w : Nat) : Prop :=
  s.waiters[w]?.map Waiter.counter = some id ∧ s.stage? w = some .parked

/-- The kernel tries the request of one sleeper of the counter again. -/
def retry (id : Int) (s : Store) (w : Nat) : Store :=
  match s.value? id, s.waiters[w]? with
  | some v, some t =>
    if t.counter = id ∧ t.stage = .parked then
      match attempt v.toInt takeAndGive with
      | .made n =>
        { s.put id (some (Int32.ofInt n)) with
          waiters := s.waiters.set w { t with stage := .returned none } }
      | .sleeps => s
      | .refused =>
        { s with waiters := s.waiters.set w { t with stage := .returned (some .outOfRange) } }
    else s
  | _, _ => s

theorem put_self {s : Store} {id : Int} {v : Int32} (h : s.value? id = some v) :
    s.put id (some v) = s := by
  have hn : ¬ id < 0 := by
    have hp := (lt_length_of_value? h).1
    omega
  rw [value?, if_neg hn] at h
  obtain ⟨hl, hc⟩ := List.getElem?_eq_some_iff.mp (Option.join_eq_some_iff.mp h)
  rw [put, ← hc, List.set_getElem_self]

theorem retry_of_rest {s : Store} {id : Int} (h : s.value? id = some 0) (w : Nat) :
    s.retry id w = s := by
  have ha : attempt (0 : Int32).toInt takeAndGive = .sleeps := rfl
  unfold retry
  rw [h]
  cases s.waiters[w]? with
  | none => rfl
  | some t => simp only [ha, ite_self]

theorem retry_of_signaled {s : Store} {id : Int} {v : Int32} (h : s.value? id = some v)
    (hv : v ≠ 0) (hr : InRange v) (w : Nat) :
    s.retry id w = { s with waiters := s.waiters.modify w (Waiter.release id none) } := by
  have ha : attempt v.toInt takeAndGive = .made v.toInt := by
    rw [attempt_of_inRange hr, if_neg hv]
  have hput : s.put id (some (Int32.ofInt v.toInt)) = s := by
    rw [Int32.ofInt_toInt, put_self h]
  unfold retry
  rw [h]
  cases ht : s.waiters[w]? with
  | none =>
    have hw : s.waiters.length ≤ w := List.getElem?_eq_none_iff.mp ht
    rw [List.modify_eq_self hw]
  | some t =>
    have hm : s.waiters.modify w (Waiter.release id none) =
        s.waiters.set w (t.release id none) := by
      rw [List.modify_eq_set_getElem?, ht]
      rfl
    by_cases hp : t.counter = id ∧ t.stage = .parked
    · simp only [hp, ha, hput, hm, Waiter.release, and_self, if_true]
    · have hs : s.waiters.set w t = s.waiters := by
        obtain ⟨hl, rfl⟩ := List.getElem?_eq_some_iff.mp ht
        exact List.set_getElem_self hl
      simp only [hp, hm, Waiter.release, if_false, hs]

theorem foldl_retry_of_rest {s : Store} {id : Int} (h : s.value? id = some 0) (order : List Nat) :
    order.foldl (retry id) s = s := by
  induction order with
  | nil => rfl
  | cons w rest ih => rw [List.foldl_cons, retry_of_rest h, ih]

theorem foldl_retry_of_signaled {s : Store} {id : Int} {v : Int32} (h : s.value? id = some v)
    (hv : v ≠ 0) (hr : InRange v) (order : List Nat) :
    order.foldl (retry id) s =
      { s with waiters := order.foldl (fun ws w => ws.modify w (Waiter.release id none)) s.waiters }
    := by
  induction order generalizing s with
  | nil => rfl
  | cons w rest ih =>
    rw [List.foldl_cons, retry_of_signaled h hv hr]
    exact ih h

theorem release_release (id : Int) (failure : Option Errno) (t : Waiter) :
    (t.release id failure).release id failure = t.release id failure := by
  by_cases hp : t.counter = id ∧ t.stage = .parked
  · simp [Waiter.release, hp]
  · simp [Waiter.release, hp]

theorem getElem?_foldl_release (id : Int) (order : List Nat) (ws : List Waiter) (k : Nat) :
    (order.foldl (fun ws w => ws.modify w (Waiter.release id none)) ws)[k]? =
      if k ∈ order then ws[k]?.map (Waiter.release id none) else ws[k]? := by
  induction order generalizing ws with
  | nil => rfl
  | cons w rest ih =>
    rw [List.foldl_cons, ih, List.getElem?_modify]
    by_cases hk : k = w
    · subst hk
      cases ws[k]? <;> simp [release_release]
    · simp [hk, Ne.symm hk]

/-- Whatever the order in which the sleepers are tried, a value that is stored does to them what the
trials one by one do. -/
theorem settle_eq_foldl_retry {s : Store} {id : Int} {v : Int32} (hl : s.live id)
    (hr : InRange v) {order : List Nat} (ho : ∀ w, s.Sleeps id w → w ∈ order) :
    s.settle id (some v) = order.foldl (retry id) (s.put id (some v)) := by
  have hput := value?_put_self s hl (some v)
  by_cases hv : v = 0
  · subst hv
    rw [foldl_retry_of_rest hput]
    rfl
  · rw [foldl_retry_of_signaled hput hv hr, settle, if_neg hv]
    have hw : s.waiters.map (Waiter.release id none) =
        order.foldl (fun ws w => ws.modify w (Waiter.release id none)) s.waiters := by
      refine List.ext_getElem? fun k => ?_
      rw [getElem?_foldl_release, List.getElem?_map]
      split
      · rfl
      · next hk =>
        cases ht : s.waiters[k]? with
        | none => rfl
        | some t =>
          have hp : ¬ (t.counter = id ∧ t.stage = .parked) := by
            rintro ⟨hc, hs⟩
            exact hk (ho k ⟨by simp [ht, hc], by simp [stage?, ht, hs]⟩)
          simp [Waiter.release, hp]
    exact congrArg (Store.mk (s.put id (some v)).cells) hw

end Store

end HelperHandoff.Counter
