import HelperHandoff.Proofs.Crowd.Soundness

/-!
The books of the counters, over any turns of any parties. A counter starts at rest and holds a value
a counter can hold until it is removed for good; only a hand that succeeds gives it another one. An
owner asks for the removal once, and its counter does not outlive it.
-/

set_option autoImplicit false

namespace HelperHandoff.Crowd

open Completion (Client Hand)
open Counter (Answer Guard InRange Store)

variable {ι : Type}

/-- What a turn may do to the counters, and what it has to answer. -/
structure Regular (t : Turn ι) (r : Crowd ι) (x : Reply) : Prop where
  starts : t.deal = .create →
    r.store.value? x.party.counter = none ∧ x.store.value? x.party.counter = some 0
  own : ∀ p, r.party t.who = some p → x.party.counter = p.counter
  others : ∀ id, id ≠ x.party.counter → x.store.value? id = r.store.value? id
  changes : ∀ id v, r.store.value? id = some v →
    x.store.value? id = some v ∨
      (∃ h, t.deal = .hand h ∧ x.answer = .done ∧ x.store.value? id = h.cell?) ∨
      x.party.spent = true ∧ x.store.value? id = none
  publishes : ∀ code, t.deal = .hand (.publish code) → x.answer = .done →
    ∃ v, x.store.value? x.party.counter = some v ∧ v ≠ 0 ∧ v.toInt = code.toInt + 1000
  looks : t.deal = .value ∨ t.deal = .wait ∨ t.deal = .call ∨ t.deal = .interrupt →
    ∀ id, x.store.value? id = r.store.value? id
  fails : ∀ e, x.answer = .failed e → ∀ id, x.store.value? id = r.store.value? id
  asks : t.deal = .destroy ∨ t.deal = .drop → x.store.value? x.party.counter = none
  first : ∀ p, r.party t.who = some p → t.deal = .destroy → p.spent = false →
    x.answer = if r.store.live p.counter then .done else .failed .invalidArgument
  again : ∀ p, r.party t.who = some p → t.deal = .destroy ∨ t.deal = .drop → p.spent = true →
    x.answer = .done ∧ x.store = r.store ∧ x.party.history = p.history

/-- What is so at any time, and of any turn that could be next. -/
structure Ledger (r : Crowd ι) : Prop where
  inRange : ∀ id v, r.store.value? id = some v → 0 ≤ v.toInt ∧ v.toInt ≤ 32767
  removals : ∀ i p, r.party i = some p →
    (Act.removals p.history).map Prod.fst = if p.spent then [p.counter] else []
  asked : ∀ i p a, r.party i = some p → (.destroy, a) ∈ p.log ∨ (.drop, a) ∈ p.log →
    p.spent = true
  gone : ∀ i p, r.party i = some p → p.spent = true → r.store.value? p.counter = none
  /-- Nobody reads, sets, publishes to or removes a counter that is not there. -/
  refuses : ∀ i p d, r.party i = some p → r.store.value? p.counter = none →
    d = .value ∨ (∃ h, d = .hand h) → ∃ e, r.reply? ⟨i, d⟩ = some ⟨.failed e, p, r.store⟩
  destroys : ∀ i p g, r.party i = some p → p.tenure = .owns g → (r.reply? ⟨i, .destroy⟩).isSome
  drops : ∀ i p, r.party i = some p →
    (∃ g, p.tenure = .owns g) ∨ (∃ c, p.tenure = .completes c) → (r.reply? ⟨i, .drop⟩).isSome
  regular : ∀ t x, r.reply? t = some x → Regular t r x

/-! ### Answers -/

theorem ofFailure_eq_done {f : Option Errno} (h : Answer.ofFailure f = .done) : f = none := by
  cases f with
  | none => rfl
  | some e => cases h

theorem ofFailure_eq_failed {f : Option Errno} {e : Errno} (h : Answer.ofFailure f = .failed e) :
    f = some e := by
  cases f with
  | none => cases h
  | some e' => cases h; rfl

/-! ### A turn of a party that is there -/

namespace Party.Acts

variable {d : Deal} {p : Party} {s : Store} {x : Reply}

theorem changes (h : Acts d p s x) (hp : p.Fits s) {v : Int32}
    (hv : s.value? p.counter = some v) :
    x.store.value? p.counter = some v ∨
      (∃ h, d = .hand h ∧ x.answer = .done ∧ x.store.value? p.counter = h.cell?) ∨
      x.party.spent = true ∧ x.store.value? p.counter = none := by
  cases h.effect with
  | idle hs _ _ => exact .inl (by rw [hs, hv])
  | handed h' hd ha hs _ =>
    rw [hs, ha]
    cases hf : (h'.act p.counter s).1 with
    | none => exact .inr (.inl ⟨h', hd, rfl, (Hand.act_of_done hf).1⟩)
    | some e =>
      rw [Hand.act_of_failed hf]
      exact .inl hv
  | removed g hg _ _ hafter _ =>
    have hspent : x.party.spent = true := by
      rw [spent_of_guard? hafter, Guard.removed_destroy]
    have hgone := (h.fits hp).gone hspent
    rw [h.counter] at hgone
    exact .inr (.inr ⟨hspent, hgone⟩)

theorem publishes {code : Int32} (h : Acts (.hand (.publish code)) p s x)
    (ha : x.answer = .done) :
    ∃ v, x.store.value? p.counter = some v ∧ v ≠ 0 ∧ v.toInt = code.toInt + 1000 := by
  cases h with
  | hands =>
    obtain ⟨hv, hc⟩ := Hand.act_of_done (ofFailure_eq_done ha)
    cases he : ExitCode.encode? code with
    | none => simp [Hand.cell?, he] at hc
    | some v =>
      exact ⟨v, hv.trans he, ExitCode.ne_zero_of_encode? he, ExitCode.toInt_of_encode? he⟩

theorem looks (h : Acts d p s x)
    (hd : d = .value ∨ d = .wait ∨ d = .call ∨ d = .interrupt) (id : Int) :
    x.store.value? id = s.value? id := by
  cases h with
  | reads | enters ht | interrupted ht => rfl
  | calls ht => exact s.value?_call _ id
  | _ => simp at hd

theorem fails (h : Acts d p s x) {e : Errno} (ha : x.answer = .failed e) (id : Int) :
    x.store.value? id = s.value? id := by
  cases h with
  | reads => rfl
  | hands h => rw [Hand.act_of_failed (ofFailure_eq_failed ha)]
  | destroys ht => rw [Store.destroy_of_failed (ofFailure_eq_failed ha)]
  | calls ht => exact s.value?_call _ id
  | _ => cases ha

theorem first (h : Acts .destroy p s x) (hp : p.Fits s) (hs : p.spent = false) :
    x.answer = if s.live p.counter then .done else .failed .invalidArgument := by
  cases h with
  | @destroys _ _ g ht =>
    have hg : p.guard? = some g := by simp [guard?, ht]
    rw [spent_of_guard? hg] at hs
    rw [Guard.destroy_of_held hs, (hp.guard g hg).1]
    by_cases hl : s.live p.counter = true
    · rw [if_pos hl, Store.remove_of_live hl]
      rfl
    · rw [if_neg hl, Store.remove_of_gone (Store.not_live_iff.mp hl)]
      rfl

theorem again (h : Acts d p s x) (hd : d = .destroy ∨ d = .drop) (hs : p.spent = true) :
    x.answer = .done ∧ x.store = s ∧ x.party.history = p.history := by
  have hnoop {g : Guard} (hg : p.guard? = some g) : g.destroy s = ⟨none, [], g, s⟩ := by
    rw [spent_of_guard? hg] at hs
    simp [Guard.destroy, hs]
  cases h with
  | destroys ht | drops ht | ends ht =>
    have hr := hnoop (by simp [guard?, ht]; rfl)
    simp [hr, history, ht, Answer.ofFailure]
  | _ => simp at hd

end Party.Acts

/-! ### Any turn -/

theorem Party.Acts.regular {t : Turn ι} {r : Crowd ι} {x : Reply} {p : Party}
    (hr : Sound r) (hp : r.party t.who = some p) (h : p.Acts t.deal r.store x) : Regular t r x where
  starts hd := by
    rw [hd] at h
    cases h
  own q hq := by
    obtain rfl := Option.some.inj (hp.symm.trans hq)
    exact h.counter
  others := by
    rw [h.counter]
    exact (h.about (hr.fits _ p hp)).value
  changes id v hv := by
    have hf := hr.fits _ p hp
    by_cases hid : id = p.counter
    · subst hid
      exact h.changes hf hv
    · exact .inl (by rw [(h.about hf).value id hid, hv])
  publishes code hd ha := by
    rw [h.counter]
    rw [hd] at h
    exact h.publishes ha
  looks hd := h.looks hd
  fails e ha := h.fails ha
  asks hd := by
    have hf := h.fits (hr.fits _ p hp)
    exact hf.gone (h.spent_of_asked hd)
  first q hq hd hs := by
    obtain rfl := Option.some.inj (hp.symm.trans hq)
    rw [hd] at h
    exact h.first (hr.fits _ p hp) hs
  again q hq hd hs := by
    obtain rfl := Option.some.inj (hp.symm.trans hq)
    exact h.again hd hs

theorem Arrives.keeps {d : Deal} {s : Store} {x : Reply} (h : Arrives d s x) {id : Int} {v : Int32}
    (hv : s.value? id = some v) : x.store.value? id = some v := by
  have hne : id ≠ s.create.1 := by
    rintro rfl
    rw [s.value?_of_new] at hv
    cases hv
  cases h with
  | creates => rw [s.value?_create_ne hne, hv]
  | abandons e => rw [(s.about_abandon).value id hne, hv]
  | learns j => exact hv

theorem Arrives.fails {d : Deal} {s : Store} {x : Reply} (h : Arrives d s x) {e : Errno}
    (ha : x.answer = .failed e) (id : Int) : x.store.value? id = s.value? id := by
  have hf := h.fits
  have hv := h.about.value id
  cases h with
  | creates | learns j => cases ha
  | abandons e =>
    by_cases hid : id = s.create.1
    · subst hid
      rw [hf.gone rfl, s.value?_of_new]
    · exact hv hid

theorem Arrives.regular {t : Turn ι} {r : Crowd ι} {x : Reply} (hp : r.party t.who = none)
    (h : Arrives t.deal r.store x) : Regular t r x where
  starts hd := by
    rw [hd] at h
    cases h
    exact ⟨r.store.value?_of_new, r.store.value?_create⟩
  own q hq := by
    rw [hp] at hq
    cases hq
  others := h.about.value
  changes id v hv := .inl (h.keeps hv)
  publishes code hd := by
    rw [hd] at h
    cases h
  looks hd := by
    obtain hd | hd | hd | hd := hd <;> rw [hd] at h <;> cases h
  fails e ha := h.fails ha
  asks hd := by
    have hne := h.ne_asked
    simp [hne.1, hne.2] at hd
  first q hq := by
    rw [hp] at hq
    cases hq
  again q hq := by
    rw [hp] at hq
    cases hq

theorem Sound.regular {r : Crowd ι} (hr : Sound r) {t : Turn ι} {x : Reply}
    (h : r.reply? t = some x) : Regular t r x := by
  obtain ⟨hp, ha⟩ | ⟨p, hp, ha⟩ := reply?_cases h
  · exact ha.regular hp
  · exact ha.regular hr hp

theorem refused {r : Crowd ι} {i : ι} {p : Party} {d : Deal} (hp : r.party i = some p)
    (hv : r.store.value? p.counter = none) (hd : d = .value ∨ (∃ h, d = .hand h)) :
    ∃ e, r.reply? ⟨i, d⟩ = some ⟨.failed e, p, r.store⟩ := by
  obtain rfl | ⟨h, rfl⟩ := hd
  · exact ⟨.invalidArgument, by simp [reply?, hp, Party.act, Store.read, hv, answerOfRead]⟩
  · obtain ⟨e, he⟩ := h.act_of_gone hv
    exact ⟨e, by simp [reply?, hp, Party.act, he, Answer.ofFailure]⟩

/-! ### Values -/

section

variable {d : Deal} {s : Store} {x : Reply} {id : Int} {v : Int32}

theorem Arrives.inRange (h : Arrives d s x) (hv : x.store.value? id = some v) :
    s.value? id = some v ∨ InRange v := by
  cases h with
  | creates => exact Store.inRange_of_create hv
  | abandons e =>
    have hv' : s.create.2.value? id = some v :=
      Store.value?_of_destroy (g := ⟨s.create.1, false⟩) hv
    exact Store.inRange_of_create hv'
  | learns j => exact .inl hv

theorem Party.Acts.inRange {p : Party} (h : p.Acts d s x) (hv : x.store.value? id = some v) :
    s.value? id = some v ∨ InRange v := by
  cases h.effect with
  | idle hs _ _ => exact .inl (by rwa [hs] at hv)
  | handed h' _ _ hs _ => exact Hand.inRange_of_act (by rwa [hs] at hv)
  | removed g _ _ hs _ _ => exact .inl (Store.value?_of_destroy (by rwa [hs] at hv))

end

/-! ### Runs -/

variable [DecidableEq ι]

theorem run_inRange (turns : List (Turn ι)) (id : Int) (v : Int32)
    (hv : ((start .empty : Crowd ι).run turns).store.value? id = some v) : InRange v := by
  refine run_induction (P := fun r => ∀ v, r.store.value? id = some v → InRange v) ?_ turns ?_ v hv
  · intro v hv
    simp [start, Store.empty, Store.value?] at hv
  · intro t _ r x h hr v hv
    have hnow : r.store.value? id = some v ∨ InRange v := by
      obtain ⟨-, ha⟩ | ⟨p, -, ha⟩ := reply?_cases h
      · exact ha.inRange hv
      · exact ha.inRange hv
    exact hnow.elim (hr v) fun hv => hv

theorem Sound.later_run {r : Crowd ι} (hr : Sound r) (later : List (Turn ι)) :
    r.store.Later (r.run later).store := by
  have hall : Sound (r.run later) ∧ r.store.Later (r.run later).store := by
    refine run_induction (P := fun r' => Sound r' ∧ r.store.Later r'.store) ⟨hr, .refl _⟩ later ?_
    rintro t - r' x h ⟨hr', hl⟩
    exact ⟨hr'.settle h, hl.trans (hr'.about h).toLater⟩
  exact hall.2

theorem run_ledger (turns : List (Turn ι)) : Ledger ((start .empty).run turns) := by
  have hr := run_sound .empty turns
  exact
    { inRange := run_inRange turns
      removals := fun i p hp => (hr.fits i p hp).removals
      asked := hr.spent
      gone := fun i p hp => (hr.fits i p hp).gone
      refuses := fun i p d hp hv hd => refused hp hv hd
      destroys := fun i p g hp ht => by simp [reply?, hp, Party.act, ht]
      drops := fun i p hp ht => by
        obtain ⟨g, ht⟩ | ⟨c, ht⟩ := ht <;> simp [reply?, hp, Party.act, ht]
      regular := fun t x h => hr.regular h }

/-- The counters are kept in order whatever the parties do, and a removal is for good. -/
theorem counters_in_order (turns : List (Turn ι)) :
    Ledger ((start .empty).run turns) ∧
      ∀ before id v, before <+: turns → ((start .empty).run before).store.value? id = some v →
        ((start .empty).run turns).store.value? id = none →
        ∀ later, ((start .empty).run (turns ++ later)).store.value? id = none := by
  refine ⟨run_ledger turns, ?_⟩
  rintro before id v ⟨after, rfl⟩ hv hn later
  have hid := (Store.lt_length_of_value? hv).2
  have hl := ((run_sound .empty before).later_run after).length
  rw [← run_append] at hl
  rw [run_append]
  exact ((run_sound .empty _).later_run later).gone id (by omega) hn

/-- Somebody who knows the number publishes and removes; the owner hears of it once. -/
theorem counters_in_order_removed :
    let turns : List (Turn Nat) := [⟨0, .create⟩, ⟨1, .know 0⟩, ⟨1, .hand (.publish 7)⟩,
      ⟨1, .value⟩, ⟨1, .hand .remove⟩, ⟨0, .destroy⟩, ⟨0, .destroy⟩, ⟨0, .drop⟩]
    (((start .empty).run turns).party 0).map Party.log = some [(.create, .done),
      (.destroy, .failed .invalidArgument), (.destroy, .done), (.drop, .done)] ∧
    Ledger ((start .empty).run turns) ∧
      ∀ later, ((start .empty).run (turns ++ later)).store.value? 0 = none :=
  ⟨rfl, (counters_in_order _).1,
    (counters_in_order _).2 [⟨0, .create⟩] 0 0 (by decide) rfl rfl⟩

end HelperHandoff.Crowd
