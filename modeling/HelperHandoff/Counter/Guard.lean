import HelperHandoff.Act
import HelperHandoff.Counter.Store

set_option autoImplicit false

namespace HelperHandoff.Counter

structure Guard where
  counter : Int
  /-- A removal has been asked for. -/
  removed : Bool
  deriving DecidableEq, Repr

/-- What an owner's request came to: the failure if there was one, what was done, the owner and
the counters after it. -/
structure Removal where
  failure : Option Errno
  acts : List Act
  guard : Guard
  store : Store

namespace Guard

def create (s : Store) : Guard × List Act × Store :=
  let (id, t) := s.create
  (⟨id, false⟩, [.createCounter none, .report (.counterCreated id)], t)

def destroy (g : Guard) (s : Store) : Removal :=
  if g.removed then ⟨none, [], g, s⟩
  else
    let (failure, t) := s.remove g.counter
    let acts : List Act := [.report (.counterRemoved g.counter),
      .removeCounter g.counter (failure.map .system)]
    ⟨failure, acts, { g with removed := true }, t⟩

def drop (g : Guard) (s : Store) : List Act × Store :=
  let r := g.destroy s
  (r.acts, r.store)

/-- A new counter that cannot be set to rest is removed again. -/
def abandon (s : Store) : List Act × Store :=
  let (id, t) := s.create
  let (acts, u) := (Guard.mk id false).drop t
  (.createCounter none :: acts, u)

@[simp] theorem removed_destroy (g : Guard) (s : Store) : (g.destroy s).guard.removed = true := by
  unfold destroy
  split <;> simp_all

@[simp] theorem counter_destroy (g : Guard) (s : Store) :
    (g.destroy s).guard.counter = g.counter := by
  unfold destroy
  split <;> rfl

theorem destroy_of_held {g : Guard} (h : g.removed = false) (s : Store) :
    g.destroy s =
      ⟨(s.remove g.counter).1,
        [.report (.counterRemoved g.counter),
          .removeCounter g.counter ((s.remove g.counter).1.map .system)],
        { g with removed := true }, (s.remove g.counter).2⟩ := by
  simp [destroy, h]

theorem destroy_destroy (g : Guard) (s t : Store) :
    (g.destroy s).guard.destroy t = ⟨none, [], (g.destroy s).guard, t⟩ := by
  simp [destroy.eq_def ((g.destroy s).guard) t]

end Guard

end HelperHandoff.Counter
