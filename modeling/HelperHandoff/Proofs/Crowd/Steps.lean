import HelperHandoff.Crowd
import HelperHandoff.Proofs.Completion.Cleanup
import HelperHandoff.Proofs.Counter.Scope

/-!
What one turn in a crowd can do. `Party.Acts` lists the turns of a party with what has to be so for
each of them; all of them are about the party's own counter, and each leaves every value alone, or
is somebody's hand on the counter, or is the removal by its owner.
-/

set_option autoImplicit false

namespace HelperHandoff.Crowd

open Completion (Client Hand Move Race)
open Counter (Answer Guard Store Waiter)

namespace Party

def guard? (p : Party) : Option Guard :=
  match p.tenure with
  | .knows | .waits _ => none
  | .owns g => some g
  | .completes c => some c.guard
  | .parted g _ => some g

def waiter? (p : Party) : Option Nat :=
  match p.tenure with
  | .waits w => some w
  | .completes c => some c.monitor
  | _ => none

inductive Acts : Deal → Party → Store → Reply → Prop where
  | reads {p : Party} {s : Store} : Acts .value p s ⟨answerOfRead (s.read p.counter), p, s⟩
  | hands {p : Party} {s : Store} (h : Hand) :
      Acts (.hand h) p s ⟨.ofFailure (h.act p.counter s).1, p, (h.act p.counter s).2⟩
  | destroys {p : Party} {s : Store} {g : Guard} (ht : p.tenure = .owns g) :
      Acts .destroy p s ⟨.ofFailure (g.destroy s).failure,
        { p with tenure := .owns (g.destroy s).guard, acts := p.acts ++ (g.destroy s).acts },
        (g.destroy s).store⟩
  | drops {p : Party} {s : Store} {g : Guard} (ht : p.tenure = .owns g) :
      Acts .drop p s ⟨.done,
        { p with
          tenure := .parted (g.destroy s).guard none
          acts := p.acts ++ (g.destroy s).acts },
        (g.destroy s).store⟩
  | ends {p : Party} {s : Store} {c : Client} (ht : p.tenure = .completes c) :
      Acts .drop p s ⟨.done,
        { p with
          tenure := .parted (c.guard.destroy s).guard c.result?
          acts := p.acts ++ (c.acts ++ (c.guard.destroy s).acts) },
        (c.guard.destroy s).store⟩
  | enters {p : Party} {s : Store} (ht : p.tenure = .knows) :
      Acts .wait p s ⟨.done, { p with tenure := .waits (s.enter p.counter).1 },
        (s.enter p.counter).2⟩
  | calls {p : Party} {s : Store} {w : Nat} (ht : p.tenure = .waits w) :
      Acts .call p s ⟨answerOf ((s.call w).stage? w), p, s.call w⟩
  | interrupted {p : Party} {s : Store} {w : Nat} (ht : p.tenure = .waits w) :
      Acts .interrupt p s ⟨.stillWaiting, p, s.interrupt w⟩
  | awaits {p : Party} {s : Store} {g : Guard} {timeoutMs : Nat} (ht : p.tenure = .owns g) :
      Acts (.await timeoutMs) p s ⟨.done,
        { p with tenure := .completes (Client.start g timeoutMs s).2 },
        (Client.start g timeoutMs s).1⟩
  | moves {p : Party} {s t : Store} {c c' : Client} {m : Move} (ht : p.tenure = .completes c)
      (hm : c.step m s = some (t, c')) :
      Acts (.move m) p s ⟨.done, { p with tenure := .completes c' }, t⟩

theorem acts_of_act {d : Deal} {p : Party} {s : Store} {x : Reply} (h : p.act d s = some x) :
    Acts d p s x := by
  unfold act at h
  split at h
  · cases h; exact .reads
  · cases h; exact .hands _
  · next ht => cases h; exact .destroys ht
  · next ht => cases h; exact .drops ht
  · next ht => cases h; exact .ends ht
  · next ht => cases h; exact .enters ht
  · next ht => cases h; exact .calls ht
  · next ht => cases h; exact .interrupted ht
  · next ht => cases h; exact .awaits ht
  · next ht =>
    obtain ⟨⟨t, c⟩, hm, rfl⟩ := Option.map_eq_some_iff.mp h
    exact .moves ht hm
  · cases h

theorem act_of_acts {d : Deal} {p : Party} {s : Store} {x : Reply} (h : Acts d p s x) :
    p.act d s = some x := by
  cases h <;> simp_all [act]

end Party

/-! ### Removals -/

theorem removals_append (a b : List Act) :
    Act.removals (a ++ b) = Act.removals a ++ Act.removals b := List.filterMap_append

theorem removals_judgeActs (id : Int) (woken : Bool) (o : Completion.Outcome) :
    Act.removals (Completion.judgeActs id woken o) = [] := by
  cases o with
  | error e => rfl
  | ok code => cases woken <;> rfl

theorem removals_destroy (g : Guard) (s : Store) :
    (Act.removals (g.destroy s).acts).map Prod.fst = if g.removed then [] else [g.counter] := by
  cases hg : g.removed with
  | true => simp [Guard.destroy, hg, Act.removals]
  | false =>
    rw [Guard.destroy_of_held hg]
    rfl

/-! ### Moves of a completion -/

section Client

variable {c c' : Client} {s t : Store} {m : Move}

theorem steps_of_clientStep (h : c.step m s = some (t, c')) :
    Race.Steps (.own m) ⟨s, c, []⟩ ⟨t, c', []⟩ := by
  apply Race.steps_of_step
  simp [Race.step, h]

theorem about_clientStep (h : c.step m s = some (t, c'))
    (hw : s.waiters[c.monitor]?.map Waiter.counter = some c.guard.counter) :
    s.About c.guard.counter t := by
  cases steps_of_clientStep h with
  | calls _ => exact Store.about_call hw
  | interrupted _ => exact Store.about_interrupt hw
  | removes _ _ | misses _ _ => exact Store.about_destroy c.guard s
  | _ => exact .refl _ s

theorem clientStep_cases (h : c.step m s = some (t, c')) :
    ((∀ id, t.value? id = s.value? id) ∧ c'.guard = c.guard ∧
      Act.removals c'.acts = Act.removals c.acts) ∨
    t = (c.guard.destroy s).store ∧ c'.guard = (c.guard.destroy s).guard ∧
      Act.removals c'.acts =
        Act.removals c.acts ++ Act.removals (c.guard.destroy s).acts := by
  cases steps_of_clientStep h with
  | calls _ => exact .inl ⟨s.value?_call c.monitor, rfl, rfl⟩
  | interrupted _ => exact .inl ⟨fun _ => rfl, rfl, rfl⟩
  | reads _ =>
    refine .inl ⟨fun _ => rfl, rfl, ?_⟩
    rw [removals_append, removals_judgeActs, List.append_nil]
  | removes _ _ => exact .inr ⟨rfl, rfl, removals_append _ _⟩
  | misses _ _ =>
    -- The report of the failure comes on top; it asks for nothing.
    refine .inr ⟨rfl, rfl, ?_⟩
    rw [removals_append, removals_append]
    simp [Act.removals, Act.removal?]
  | _ => exact .inl ⟨fun _ => rfl, rfl, rfl⟩

end Client

/-! ### What a turn does to the counter -/

namespace Party

def spent (p : Party) : Bool := p.guard?.any Guard.removed

/-- A turn leaves every value alone, or it is somebody's hand on the counter, or it is the removal
by the owner, which comes to nothing if it has been asked for before. -/
inductive Effect (d : Deal) (p : Party) (s : Store) (x : Reply) : Prop where
  | idle (value : ∀ id, x.store.value? id = s.value? id) (spent : x.party.spent = p.spent)
      (removals : Act.removals x.party.history = Act.removals p.history)
  | handed (h : Hand) (deal : d = .hand h)
      (answer : x.answer = .ofFailure (h.act p.counter s).1)
      (store : x.store = (h.act p.counter s).2) (party : x.party = p)
  | removed (g : Guard) (guard : p.guard? = some g)
      (answer : x.answer = .done ∨ x.answer = .ofFailure (g.destroy s).failure)
      (store : x.store = (g.destroy s).store)
      (after : x.party.guard? = some (g.destroy s).guard)
      (removals : Act.removals x.party.history =
        Act.removals p.history ++ Act.removals (g.destroy s).acts)

variable {d : Deal} {p : Party} {s : Store} {x : Reply}

theorem Acts.effect (h : Acts d p s x) : Effect d p s x := by
  cases h with
  | reads => exact .idle (fun _ => rfl) rfl rfl
  | hands h => exact .handed h rfl rfl rfl rfl
  | destroys ht =>
    refine .removed _ (by simp [guard?, ht]) (.inr rfl) rfl rfl ?_
    simp [history, ht, removals_append]
  | drops ht =>
    refine .removed _ (by simp [guard?, ht]) (.inl rfl) rfl rfl ?_
    simp [history, ht, removals_append]
  | ends ht =>
    refine .removed _ (by simp [guard?, ht]) (.inl rfl) rfl rfl ?_
    simp [history, ht, removals_append]
  | enters ht => exact .idle (fun _ => rfl) (by simp [spent, guard?, ht]) (by simp [history, ht])
  | calls ht => exact .idle (s.value?_call _) rfl rfl
  | interrupted ht => exact .idle (fun _ => rfl) rfl rfl
  | awaits ht =>
    refine .idle (fun _ => rfl) (by simp [spent, guard?, ht, Client.start]) ?_
    simp [history, ht, Client.start]
  | moves ht hm =>
    obtain ⟨hv, hg, hr⟩ | ⟨hs, hg, hr⟩ := clientStep_cases hm
    · refine .idle hv (by simp [spent, guard?, ht, hg]) ?_
      simp [history, ht, removals_append, hr]
    · refine .removed _ (by simp [guard?, ht]) (.inl rfl) hs (by simp [guard?, hg]) ?_
      simp [history, ht, removals_append, hr]

/-- What a party says of itself is so. -/
structure Fits (s : Store) (p : Party) : Prop where
  guard : ∀ g, p.guard? = some g →
    g.counter = p.counter ∧ 0 ≤ p.counter ∧ p.counter < s.cells.length
  waiter : ∀ w, p.waiter? = some w → s.waiters[w]?.map Waiter.counter = some p.counter
  gone : p.spent = true → s.value? p.counter = none
  removals : (Act.removals p.history).map Prod.fst = if p.spent then [p.counter] else []

theorem Acts.counter (h : Acts d p s x) : x.party.counter = p.counter := by
  cases h <;> rfl

theorem Acts.about (h : Acts d p s x) (hp : p.Fits s) : s.About p.counter x.store := by
  cases h with
  | reads => exact .refl _ s
  | hands h => exact Store.about_hand s _ h
  | destroys ht | drops ht | ends ht =>
    rw [← (hp.guard _ (by simp [guard?, ht]; rfl)).1]
    exact Store.about_destroy _ s
  | enters ht => exact Store.about_enter s _
  | calls ht => exact Store.about_call (hp.waiter _ (by simp [waiter?, ht]))
  | interrupted ht => exact Store.about_interrupt (hp.waiter _ (by simp [waiter?, ht]))
  | awaits ht =>
    rw [← (hp.guard _ (by simp [guard?, ht]; rfl)).1]
    exact Store.about_enter s _
  | moves ht hm =>
    have hc := (hp.guard _ (by simp [guard?, ht]; rfl)).1
    have hw := hp.waiter _ (by simp [waiter?, ht]; rfl)
    rw [← hc] at hw ⊢
    exact about_clientStep hm hw

end Party

/-! ### Parties that come -/

inductive Arrives : Deal → Store → Reply → Prop where
  | creates {s : Store} :
      Arrives .create s ⟨.done,
        ⟨s.create.1, .owns ⟨s.create.1, false⟩,
          [.createCounter none, .report (.counterCreated s.create.1)], []⟩, s.create.2⟩
  | abandons {s : Store} (e : Errno) :
      Arrives (.abandon e) s ⟨.failed e,
        ⟨s.create.1, .parted ⟨s.create.1, true⟩ none, (Guard.abandon s).1, []⟩,
        (Guard.abandon s).2⟩
  | learns {s : Store} (id : Int) : Arrives (.know id) s ⟨.done, ⟨id, .knows, [], []⟩, s⟩

theorem arrives_of_arrive {d : Deal} {s : Store} {x : Reply} (h : arrive d s = some x) :
    Arrives d s x := by
  unfold arrive at h
  split at h <;> cases h
  · exact .creates
  · exact .abandons _
  · exact .learns _

theorem arrive_of_arrives {d : Deal} {s : Store} {x : Reply} (h : Arrives d s x) :
    arrive d s = some x := by
  cases h <;> rfl

theorem Arrives.about {d : Deal} {s : Store} {x : Reply} (h : Arrives d s x) :
    s.About x.party.counter x.store := by
  cases h with
  | creates => exact Store.about_create s
  | abandons e => exact Store.about_abandon s
  | learns id => exact .refl id s

end HelperHandoff.Crowd
