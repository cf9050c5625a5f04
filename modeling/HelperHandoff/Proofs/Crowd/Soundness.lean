import HelperHandoff.Proofs.Crowd.Steps
import Mathlib.Data.List.Induction

/-!
What is so of a crowd after any turns: what each party says of itself holds of the counters, and no
two owners have the same counter. An owner that has been asked to remove its counter or has come to
its end has asked for one removal, and the counter is gone.
-/

set_option autoImplicit false

namespace HelperHandoff.Crowd

open Completion (Client Hand Move Race)
open Counter (Answer Guard Store Waiter)

namespace Party

variable {d : Deal} {p : Party} {s t : Store} {x : Reply}

/-! ### One party -/

theorem spent_of_guard? {g : Guard} (h : p.guard? = some g) : p.spent = g.removed := by
  simp [spent, h]

theorem guard?_of_spent (h : p.spent = true) : ∃ g, p.guard? = some g ∧ g.removed = true := by
  simpa [spent, Option.any_eq_true] using h

theorem Acts.map_guard? (h : Acts d p s x) :
    x.party.guard?.map Guard.counter = p.guard?.map Guard.counter := by
  cases h with
  | destroys ht | drops ht | ends ht => simp [guard?, ht]
  | enters ht | awaits ht => simp [guard?, ht, Client.start]
  | moves ht hm =>
    obtain ⟨-, hg, -⟩ | ⟨-, hg, -⟩ := clientStep_cases hm <;> simp [guard?, ht, hg]
  | _ => rfl

theorem Acts.waiter?_cases (h : Acts d p s x) (hp : p.Fits s) {w : Nat}
    (hw : x.party.waiter? = some w) :
    p.waiter? = some w ∨ (w, x.store) = s.enter p.counter := by
  cases h with
  | destroys ht | drops ht | ends ht => simp [waiter?] at hw
  | enters ht =>
    obtain rfl := Option.some.inj hw
    exact .inr rfl
  | awaits ht =>
    obtain rfl := Option.some.inj hw
    rw [← (hp.guard _ (by simp [guard?, ht]; rfl)).1]
    exact .inr rfl
  | moves ht hm =>
    have hl := (steps_of_clientStep hm).later.monitor
    obtain rfl := Option.some.inj hw
    refine .inl ?_
    simp only [waiter?, ht]
    exact congrArg some hl.symm
  | _ => exact .inl hw

theorem Fits.mono (h : p.Fits s) {id : Int} (k : s.About id t) : p.Fits t where
  guard g hg := by
    obtain ⟨hc, hl, hu⟩ := h.guard g hg
    exact ⟨hc, hl, Int.lt_of_lt_of_le hu (Int.ofNat_le.mpr k.length)⟩
  waiter w hw := k.counter_waiter (h.waiter w hw)
  gone hs := by
    obtain ⟨g, hg, -⟩ := guard?_of_spent hs
    exact k.gone _ (h.guard g hg).2.2 (h.gone hs)
  removals := h.removals

theorem Acts.fits (h : Acts d p s x) (hp : p.Fits s) : x.party.Fits x.store := by
  have hc := h.counter
  have ha := h.about hp
  have hm := hp.mono ha
  refine { guard := fun g hg => ?_, waiter := fun w hw => ?_, gone := ?_, removals := ?_ }
  · have hmap := h.map_guard?
    rw [hg, Option.map_some] at hmap
    obtain ⟨g', hg', he⟩ := Option.map_eq_some_iff.mp hmap.symm
    rw [hc, ← he]
    exact hm.guard g' hg'
  · rw [hc]
    obtain hw | hw := h.waiter?_cases hp hw
    · exact hm.waiter w hw
    · obtain ⟨rfl, hs⟩ := Prod.ext_iff.mp hw
      simp only at hs
      simp [hs, Store.enter]
  · rw [hc]
    intro hs
    cases h.effect with
    | idle _ hsp _ => exact hm.gone (hsp.symm.trans hs)
    | handed _ _ _ _ hx => exact hm.gone (hx ▸ hs)
    | removed g hg _ hst _ _ =>
      have hgc := (hp.guard g hg).1
      rw [hst, ← hgc]
      refine Store.value?_destroy fun hr => ?_
      rw [hgc]
      exact hp.gone (by rw [spent_of_guard? hg, hr])
  · rw [hc]
    cases h.effect with
    | idle _ hsp hr => rw [hr, hsp, hp.removals]
    | handed _ _ _ _ hx => rw [hx, hp.removals]
    | removed g hg _ _ hafter hr =>
      -- The removal is asked for only if it has not been asked for before.
      have hgc := (hp.guard g hg).1
      rw [hr, List.map_append, hp.removals, removals_destroy, spent_of_guard? hg,
        spent_of_guard? hafter, Guard.removed_destroy, hgc]
      cases g.removed <;> rfl

theorem mem_log_note {p : Party} {d e : Deal} {a b : Answer} :
    (d, a) ∈ (p.note e b).log ↔ (d, a) ∈ p.log ∨ d = e ∧ a = b := by
  simp [note]

theorem Acts.log (h : Acts d p s x) : x.party.log = p.log := by
  cases h <;> rfl

theorem Acts.spent_mono (h : Acts d p s x) (hs : p.spent = true) : x.party.spent = true := by
  cases h.effect with
  | idle _ hsp _ => rw [hsp, hs]
  | handed _ _ _ _ hx => rw [hx, hs]
  | removed g _ _ _ hafter _ => rw [spent_of_guard? hafter, Guard.removed_destroy]

theorem Acts.spent_of_asked (h : Acts d p s x) (hd : d = .destroy ∨ d = .drop) :
    x.party.spent = true := by
  cases h with
  | destroys ht | drops ht | ends ht => simp [spent, guard?]
  | _ => simp at hd

end Party

theorem Arrives.log {d : Deal} {s : Store} {x : Reply} (h : Arrives d s x) : x.party.log = [] := by
  cases h <;> rfl

theorem Arrives.ne_asked {d : Deal} {s : Store} {x : Reply} (h : Arrives d s x) :
    d ≠ .destroy ∧ d ≠ .drop := by
  cases h <;> simp

theorem Arrives.counter_eq {d : Deal} {s : Store} {x : Reply} (h : Arrives d s x)
    (hg : x.party.guard?.isSome) : x.party.counter = s.create.1 := by
  cases h with
  | creates | abandons e => rfl
  | learns id => cases hg

theorem Arrives.fits {d : Deal} {s : Store} {x : Reply} (h : Arrives d s x) :
    x.party.Fits x.store := by
  cases h with
  | creates =>
    refine
      { guard := fun g hg => ?_
        waiter := fun _ hw => by cases hw
        gone := fun hs => by cases hs
        removals := rfl }
    obtain rfl := Option.some.inj hg
    exact ⟨rfl, Int.natCast_nonneg _, s.lt_length_create⟩
  | abandons e =>
    have ha := Store.about_destroy ⟨s.create.1, false⟩ s.create.2
    refine
      { guard := fun g hg => ?_
        waiter := fun _ hw => by cases hw
        gone := fun _ => Store.value?_destroy (g := ⟨s.create.1, false⟩) fun hr => by cases hr
        removals := removals_destroy ⟨s.create.1, false⟩ s.create.2 }
    obtain rfl := Option.some.inj hg
    exact ⟨rfl, Int.natCast_nonneg _,
      Int.lt_of_lt_of_le s.lt_length_create (Int.ofNat_le.mpr ha.length)⟩
  | learns id =>
    exact
      { guard := fun _ hg => by cases hg
        waiter := fun _ hw => by cases hw
        gone := fun hs => by cases hs
        removals := rfl }

/-! ### The crowd -/

variable {ι : Type}

theorem reply?_cases {t : Turn ι} {r : Crowd ι} {x : Reply} (h : r.reply? t = some x) :
    r.party t.who = none ∧ Arrives t.deal r.store x ∨
      ∃ p, r.party t.who = some p ∧ p.Acts t.deal r.store x := by
  unfold reply? at h
  split at h
  · next hn => exact .inl ⟨hn, arrives_of_arrive h⟩
  · next p hp => exact .inr ⟨p, hp, Party.acts_of_act h⟩

theorem reply?_of_arrives {t : Turn ι} {r : Crowd ι} {x : Reply} (hp : r.party t.who = none)
    (h : Arrives t.deal r.store x) : r.reply? t = some x := by
  simp only [reply?, hp, arrive_of_arrives h]

theorem reply?_of_acts {t : Turn ι} {r : Crowd ι} {p : Party} {x : Reply}
    (hp : r.party t.who = some p) (h : p.Acts t.deal r.store x) : r.reply? t = some x := by
  simp only [reply?, hp, Party.act_of_acts h]

/-- What the parties say of themselves is so, and each owner has a counter of its own. -/
structure Sound (r : Crowd ι) : Prop where
  fits : ∀ i p, r.party i = some p → p.Fits r.store
  apart : ∀ i j p q, r.party i = some p → r.party j = some q →
    p.guard?.isSome → q.guard?.isSome → p.counter = q.counter → i = j
  /-- An owner that has made one of these turns has asked for the removal. -/
  spent : ∀ i p a, r.party i = some p → (.destroy, a) ∈ p.log ∨ (.drop, a) ∈ p.log →
    p.spent = true

theorem sound_start (s : Store) : Sound (start s : Crowd ι) where
  fits _ _ h := by cases h
  apart _ _ _ _ h := by cases h
  spent _ _ _ h := by cases h

theorem Sound.about {r : Crowd ι} (hr : Sound r) {t : Turn ι} {x : Reply}
    (h : r.reply? t = some x) : r.store.About x.party.counter x.store := by
  obtain ⟨-, ha⟩ | ⟨p, hp, ha⟩ := reply?_cases h
  · exact ha.about
  · rw [ha.counter]
    exact ha.about (hr.fits _ p hp)

theorem Sound.counter_ne {r : Crowd ι} (hr : Sound r) {t : Turn ι} {x : Reply}
    (h : r.reply? t = some x) (hx : x.party.guard?.isSome) {j : ι} {q : Party} (hj : j ≠ t.who)
    (hq : r.party j = some q) (hg : q.guard?.isSome) : q.counter ≠ x.party.counter := by
  obtain ⟨-, ha⟩ | ⟨p, hp, ha⟩ := reply?_cases h
  · obtain ⟨g, hg⟩ := Option.isSome_iff_exists.mp hg
    rw [ha.counter_eq hx]
    exact Int.ne_of_lt ((hr.fits j q hq).guard g hg).2.2
  · have hpg : p.guard?.isSome := by
      rw [← Option.isSome_map (f := Guard.counter), ← ha.map_guard?, Option.isSome_map]
      exact hx
    rw [ha.counter]
    exact fun hc => hj (hr.apart j t.who q p hq hp hg hpg hc)

variable [DecidableEq ι]

@[simp] theorem store_settle (t : Turn ι) (r : Crowd ι) (x : Reply) :
    (r.settle t x).store = x.store := rfl

@[simp] theorem party_settle_self (t : Turn ι) (r : Crowd ι) (x : Reply) :
    (r.settle t x).party t.who = some (x.party.note t.deal x.answer) := by
  simp [settle]

theorem party_settle_ne (t : Turn ι) (r : Crowd ι) (x : Reply) {j : ι} (hj : j ≠ t.who) :
    (r.settle t x).party j = r.party j := by
  simp [settle, hj]

theorem party_settle_cases {t : Turn ι} {r : Crowd ι} {x : Reply} {i : ι} {p : Party}
    (hp : (r.settle t x).party i = some p) :
    i = t.who ∧ p = x.party.note t.deal x.answer ∨ i ≠ t.who ∧ r.party i = some p := by
  by_cases hi : i = t.who
  · subst hi
    rw [party_settle_self] at hp
    exact .inl ⟨rfl, (Option.some.inj hp).symm⟩
  · rw [party_settle_ne _ _ _ hi] at hp
    exact .inr ⟨hi, hp⟩

theorem step_of_reply? {r : Crowd ι} {t : Turn ι} {x : Reply} (h : r.reply? t = some x) :
    (r.step t).getD r = r.settle t x := by
  rw [step, h]
  rfl

/-- What holds at the start and is kept by each turn that can be made holds after each run. -/
theorem run_induction {P : Crowd ι → Prop} {r : Crowd ι} (start : P r) (turns : List (Turn ι))
    (kept : ∀ t ∈ turns, ∀ r x, r.reply? t = some x → P r → P (r.settle t x)) :
    P (r.run turns) := by
  induction turns using List.reverseRecOn with
  | nil => exact start
  | append_singleton turns t ih =>
    have hp := ih fun t ht => kept t (List.mem_append_left _ ht)
    rw [run_concat, step]
    cases hx : (r.run turns).reply? t with
    | none => exact hp
    | some x => exact kept t (by simp) _ x hx hp

theorem Sound.fits_settle {r : Crowd ι} (hr : Sound r) {t : Turn ι} {x : Reply}
    (h : r.reply? t = some x) {i : ι} {p : Party} (hp : (r.settle t x).party i = some p) :
    p.Fits x.store := by
  obtain ⟨rfl, rfl⟩ | ⟨-, hp⟩ := party_settle_cases hp
  · have hx : x.party.Fits x.store := by
      obtain ⟨-, ha⟩ | ⟨q, hq, ha⟩ := reply?_cases h
      · exact ha.fits
      · exact ha.fits (hr.fits _ q hq)
    exact ⟨hx.guard, hx.waiter, hx.gone, hx.removals⟩
  · exact (hr.fits i p hp).mono (hr.about h)

theorem Sound.settle {r : Crowd ι} (hr : Sound r) {t : Turn ι} {x : Reply}
    (h : r.reply? t = some x) : Sound (r.settle t x) where
  fits _ _ hp := hr.fits_settle h hp
  apart i j p q hp hq hpg hqg hc := by
    obtain ⟨rfl, rfl⟩ | ⟨hi, hp⟩ := party_settle_cases hp <;>
      obtain ⟨rfl, rfl⟩ | ⟨hj, hq⟩ := party_settle_cases hq
    -- Only where one of the two has made the turn is there something new to compare.
    · rfl
    · exact absurd hc.symm (hr.counter_ne h hpg hj hq hqg)
    · exact absurd hc (hr.counter_ne h hqg hi hp hpg)
    · exact hr.apart i j p q hp hq hpg hqg hc
  spent i p a hp ha := by
    obtain ⟨rfl, rfl⟩ | ⟨-, hp⟩ := party_settle_cases hp
    · obtain ⟨-, hx⟩ | ⟨q, hq, hx⟩ := reply?_cases h
      · have hne := hx.ne_asked
        simp [Party.mem_log_note, hx.log, Ne.symm hne.1, Ne.symm hne.2] at ha
      · rw [Party.mem_log_note, Party.mem_log_note, hx.log] at ha
        obtain (ho | ⟨hd, -⟩) | ho | ⟨hd, -⟩ := ha
        · exact hx.spent_mono (hr.spent _ q a hq (.inl ho))
        · exact hx.spent_of_asked (.inl hd.symm)
        · exact hx.spent_mono (hr.spent _ q a hq (.inr ho))
        · exact hx.spent_of_asked (.inr hd.symm)
    · exact hr.spent i p a hp ha

theorem run_sound (s : Store) (turns : List (Turn ι)) : Sound ((start s).run turns) :=
  run_induction (sound_start s) turns fun _ _ _ _ h hr => hr.settle h

end HelperHandoff.Crowd
