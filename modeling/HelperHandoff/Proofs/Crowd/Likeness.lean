import HelperHandoff.Proofs.Counter.Likeness
import HelperHandoff.Proofs.Crowd.Soundness

set_option autoImplicit false

namespace HelperHandoff.Completion.Client

open Counter (Guard Store)

/-- Two clients that stand at the same place; what they have done may name other counters. -/
structure Alike (c d : Client) : Prop where
  removed : c.guard.removed = d.guard.removed
  timeoutMs : c.timeoutMs = d.timeoutMs
  sent : c.sent = d.sent
  inbox : c.inbox = d.inbox
  stage : c.stage = d.stage

theorem Alike.symm {c d : Client} (h : c.Alike d) : d.Alike c :=
  ⟨h.removed.symm, h.timeoutMs.symm, h.sent.symm, h.inbox.symm, h.stage.symm⟩

theorem step_of_steps {m : Move} {s t : Store} {c c' : Client}
    (h : Race.Steps (.own m) ⟨s, c, []⟩ ⟨t, c', []⟩) : c.step m s = some (t, c') := by
  have hs := Race.step_of_steps h
  obtain ⟨⟨u, d⟩, hc, he⟩ := Option.map_eq_some_iff.mp hs
  cases he
  exact hc

theorem Alike.step {s s' t : Store} {c c' d : Client} {m : Move} (h : c.Alike d)
    (hst : s.Alike c.guard.counter (some c.monitor) t d.guard.counter (some d.monitor))
    (hm : c.step m s = some (s', c')) :
    ∃ t' d', d.step m t = some (t', d') ∧ c'.Alike d' ∧
      s'.Alike c'.guard.counter (some c'.monitor) t' d'.guard.counter (some d'.monitor) := by
  have hstage := hst.twins.stage?
  have hdestroy := hst.destroy h.removed
  cases Crowd.steps_of_clientStep hm with
  | calls hc =>
    exact ⟨_, _, step_of_steps (s := t) (.calls (hstage.symm.trans hc)), h, hst.call⟩
  | interrupted hp =>
    exact ⟨_, _, step_of_steps (s := t) (.interrupted (hstage.symm.trans hp)), h, hst.interrupt⟩
  | sends hr hs =>
    have hx := step_of_steps (s := t) (.sends (hstage.symm.trans hr) (h.sent.symm.trans hs))
    exact ⟨_, _, hx, ⟨h.removed, h.timeoutMs, rfl, rfl, h.stage⟩, hst⟩
  | wakes hs hi =>
    have hx := step_of_steps (s := t) (.wakes (h.stage.symm.trans hs) (h.inbox.symm.trans hi))
    exact ⟨_, _, hx, ⟨h.removed, h.timeoutMs, h.sent, rfl, rfl⟩, hst⟩
  | hears hs hi =>
    have hx := step_of_steps (s := t) (.hears (h.stage.symm.trans hs) (h.inbox.symm.trans hi))
    exact ⟨_, _, hx, ⟨h.removed, h.timeoutMs, h.sent, rfl, rfl⟩, hst⟩
  | expires hs hi =>
    have hx := step_of_steps (s := t) (.expires (h.stage.symm.trans hs) (h.inbox.symm.trans hi))
    exact ⟨_, _, hx, ⟨h.removed, h.timeoutMs, h.sent, h.inbox, rfl⟩, hst⟩
  | reads hs =>
    have hx := step_of_steps (s := t) (.reads (h.stage.symm.trans hs))
    refine ⟨_, _, hx, ⟨h.removed, h.timeoutMs, h.sent, h.inbox, ?_⟩, hst⟩
    simp only [Race.id, h.timeoutMs, hst.read]
  | removes hs hf =>
    have hx := step_of_steps (s := t)
      (.removes (h.stage.symm.trans hs) (hdestroy.1.symm.trans hf))
    refine ⟨_, _, hx, ⟨?_, h.timeoutMs, h.sent, h.inbox, rfl⟩, ?_⟩
    · rw [Guard.removed_destroy, Guard.removed_destroy]
    · rw [Guard.counter_destroy, Guard.counter_destroy]
      exact hdestroy.2
  | misses hs hf =>
    have hx := step_of_steps (s := t)
      (.misses (h.stage.symm.trans hs) (hdestroy.1.symm.trans hf))
    refine ⟨_, _, hx, ⟨?_, h.timeoutMs, h.sent, h.inbox, rfl⟩, ?_⟩
    · rw [Guard.removed_destroy, Guard.removed_destroy]
    · rw [Guard.counter_destroy, Guard.counter_destroy]
      exact hdestroy.2
  | joins hs hj =>
    have hx := step_of_steps (s := t) (.joins (h.stage.symm.trans hs) (h.sent.symm.trans hj))
    exact ⟨_, _, hx, ⟨h.removed, h.timeoutMs, h.sent, h.inbox, rfl⟩, hst⟩

end HelperHandoff.Completion.Client

namespace HelperHandoff.Crowd

open Completion (Client)
open Counter (Guard Store)

/-! ### Parties -/

namespace Tenure

inductive Alike : Tenure → Tenure → Prop where
  | owns {a b : Guard} (h : a.removed = b.removed) : Alike (.owns a) (.owns b)
  | completes {c d : Client} (h : c.Alike d) : Alike (.completes c) (.completes d)
  | parted {a b : Guard} {o : Option Completion.Outcome} : Alike (.parted a o) (.parted b o)

variable {x y : Tenure}

theorem Alike.symm (h : x.Alike y) : y.Alike x := by
  cases h with
  | owns h => exact .owns h.symm
  | completes h => exact .completes h.symm
  | parted => exact .parted

theorem Alike.of_owns {a : Guard} (h : Alike (.owns a) y) :
    ∃ b, y = .owns b ∧ a.removed = b.removed := by
  cases h with
  | owns h => exact ⟨_, rfl, h⟩

theorem Alike.of_completes {c : Client} (h : Alike (.completes c) y) :
    ∃ d, y = .completes d ∧ c.Alike d := by
  cases h with
  | completes h => exact ⟨_, rfl, h⟩

end Tenure

namespace Party

/-- Two owners, each among its own counters, that cannot be told apart but for the number. -/
structure Alike (s : Store) (p : Party) (t : Store) (q : Party) : Prop where
  store : s.Alike p.counter p.waiter? t q.counter q.waiter?
  tenure : p.tenure.Alike q.tenure
  log : p.log = q.log

variable {d : Deal} {s t : Store} {p q : Party} {x : Reply}

theorem Alike.symm (h : Alike s p t q) : Alike t q s p :=
  ⟨h.store.symm, h.tenure.symm, h.log.symm⟩

theorem Alike.result? (h : Alike s p t q) : p.result? = q.result? := by
  have ht := h.tenure
  unfold Party.result?
  generalize p.tenure = a at ht ⊢
  generalize q.tenure = b at ht ⊢
  cases ht with
  | owns h | parted => rfl
  | completes h => simp only [Client.result?, h.stage]

theorem Fits.alike_destroy {a b : Guard} {w v : Option Nat} (hp : p.Fits s) (hq : q.Fits t)
    (ha : p.guard? = some a) (hb : q.guard? = some b) (hr : a.removed = b.removed)
    (h : s.Alike p.counter w t q.counter v) :
    (a.destroy s).failure = (b.destroy t).failure ∧
      (a.destroy s).store.Alike p.counter w (b.destroy t).store q.counter v := by
  rw [← (hp.guard a ha).1, ← (hq.guard b hb).1] at h ⊢
  exact h.destroy hr

theorem Alike.acts (h : Alike s p t q) (hp : p.Fits s) (hq : q.Fits t) (hx : Acts d p s x) :
    ∃ y, Acts d q t y ∧ y.answer = x.answer ∧ Alike x.store x.party y.store y.party := by
  obtain ⟨hs, ht, hl⟩ := h
  cases hx with
  | reads => exact ⟨_, .reads, by rw [hs.read], hs, ht, hl⟩
  | hands h =>
    obtain ⟨hf, hs'⟩ := hs.hand h
    exact ⟨_, .hands h, by rw [hf], hs', ht, hl⟩
  | @destroys _ _ a hpt =>
    rw [hpt] at ht
    obtain ⟨b, hqt, hr⟩ := ht.of_owns
    obtain ⟨hf, hs'⟩ := hp.alike_destroy hq (a := a) (b := b) (by simp [guard?, hpt])
      (by simp [guard?, hqt]) hr hs.forget
    exact ⟨_, .destroys hqt, by rw [hf], hs', .owns (by simp), hl⟩
  | @drops _ _ a hpt =>
    rw [hpt] at ht
    obtain ⟨b, hqt, hr⟩ := ht.of_owns
    obtain ⟨-, hs'⟩ := hp.alike_destroy hq (a := a) (b := b) (by simp [guard?, hpt])
      (by simp [guard?, hqt]) hr hs.forget
    exact ⟨_, .drops hqt, rfl, hs', .parted, hl⟩
  | @ends _ _ c hpt =>
    rw [hpt] at ht
    obtain ⟨c', hqt, hc⟩ := ht.of_completes
    obtain ⟨-, hs'⟩ := hp.alike_destroy hq (a := c.guard) (b := c'.guard) (by simp [guard?, hpt])
      (by simp [guard?, hqt]) hc.removed hs.forget
    have hres : c.result? = c'.result? := by simp only [Client.result?, hc.stage]
    refine ⟨_, .ends hqt, rfl, hs', ?_, hl⟩
    rw [hres]
    exact .parted
  | @awaits _ _ a n hpt =>
    rw [hpt] at ht
    obtain ⟨b, hqt, hr⟩ := ht.of_owns
    have ha := (hp.guard a (by simp [guard?, hpt])).1
    have hb := (hq.guard b (by simp [guard?, hqt])).1
    refine ⟨_, .awaits hqt, rfl, ?_, .completes ⟨hr, rfl, rfl, rfl, rfl⟩, hl⟩
    simp only [Client.start, ha, hb]
    exact hs.enter
  | @moves _ _ s' c c' m hpt hm =>
    rw [hpt] at ht
    obtain ⟨e, hqt, hc⟩ := ht.of_completes
    have ha := (hp.guard c.guard (by simp [guard?, hpt])).1
    have hb := (hq.guard e.guard (by simp [guard?, hqt])).1
    have hw : p.waiter? = some c.monitor := by simp [waiter?, hpt]
    have hv : q.waiter? = some e.monitor := by simp [waiter?, hqt]
    rw [hw, hv, ← ha, ← hb] at hs
    obtain ⟨t', e', hm', hc', hs'⟩ := hc.step hs hm
    -- A move may change the guard, but not its counter.
    have hac : c'.guard.counter = c.guard.counter := (steps_of_clientStep hm).later.id
    have hbc : e'.guard.counter = e.guard.counter := (steps_of_clientStep hm').later.id
    rw [hac, hbc, ha, hb] at hs'
    exact ⟨_, .moves hqt hm', rfl, hs', .completes hc', hl⟩
  | enters hpt | calls hpt | interrupted hpt =>
    rw [hpt] at ht
    cases ht

end Party

end HelperHandoff.Crowd
