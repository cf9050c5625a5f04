import HelperHandoff.Proofs.Counter.Rouse
import HelperHandoff.Proofs.Crowd.Heard
import HelperHandoff.Proofs.Crowd.Memory

/-!
A waiting thread that signals hit, beside the same thread without them. The one is where the other
is, or is about to call and the kernel would tell it what it has told the other; that is so until
somebody puts the counter to rest again, or takes it away, before the thread has called.
-/

set_option autoImplicit false

namespace HelperHandoff.Crowd

open Completion (Client)
open Counter (Guard Passage Store Waiter)

variable {ι : Type}

def Reply.rouse (w : Nat) (x : Reply) : Reply := { x with store := x.store.rouse w }

def rouse (w : Nat) (r : Crowd ι) : Crowd ι := { r with store := r.store.rouse w }

/-! ### The turns of others -/

theorem arrive_rouse (w : Nat) (d : Deal) (s : Store) :
    arrive d (s.rouse w) = (arrive d s).map (Reply.rouse w) := by
  cases d with
  | abandon e =>
    have hs : s.create.2.rouse w = (s.rouse w).create.2 := rfl
    simp only [arrive, Guard.abandon, Guard.drop, ← hs, Store.destroy_rouse]
    rfl
  | _ => rfl

namespace Party

def Spares (w : Nat) (d : Deal) (p : Party) : Prop :=
  p.waiter? = some w → p.tenure = .waits w ∧ d ≠ .call ∧ d ≠ .interrupt

variable {d : Deal} {p : Party} {s : Store} {w : Nat} {x : Reply}

theorem act_rouse (h : p.Spares w d) (hw : w < s.waiters.length) :
    p.act d (s.rouse w) = (p.act d s).map (Reply.rouse w) := by
  obtain ⟨counter, tenure, acts, log⟩ := p
  cases d with
  | value => rfl
  | hand h => simp [act, Store.act_rouse, Reply.rouse]
  | destroy => cases tenure <;> simp [act, Store.destroy_rouse, Reply.rouse]
  | drop => cases tenure <;> simp [act, Store.destroy_rouse, Reply.rouse]
  | wait => cases tenure <;> simp [act, Store.enter_rouse hw, Reply.rouse]
  | await timeoutMs =>
    cases tenure <;> simp [act, Client.start, Store.enter_rouse hw, Reply.rouse]
  | call =>
    cases tenure with
    | waits v =>
      have hv : v ≠ w := fun hv => (h (congrArg some hv)).2.1 rfl
      simp [act, Store.call_rouse_ne hv, Store.stage?_rouse_ne hv, Reply.rouse]
    | _ => rfl
  | interrupt =>
    cases tenure with
    | waits v =>
      have hv : v ≠ w := fun hv => (h (congrArg some hv)).2.2 rfl
      simp [act, Store.interrupt_rouse_ne hv, Reply.rouse]
    | _ => rfl
  | move m =>
    cases tenure with
    | completes c =>
      have hv : c.monitor ≠ w := fun hv => by cases (h (congrArg some hv)).1
      simp [act, Store.clientStep_rouse hv, Reply.rouse, Function.comp_def]
    | _ => rfl
  | _ => rfl

theorem Acts.calling_of_spares (h : Acts d p s x) (hd : p.Spares w d) (hw : w < s.waiters.length)
    (hx : x.store.stage? w = some .calling) : s.stage? w = some .calling := by
  cases h with
  | reads => exact hx
  | hands h => exact Store.calling_of_hand hx
  | destroys ht | drops ht | ends ht => exact Store.calling_of_destroy hx
  | enters ht | awaits ht => rwa [← Store.stage?_enter hw]
  | @calls _ _ v ht =>
    have hv : w ≠ v := fun hv => (hd (by simp [waiter?, ht, hv])).2.1 rfl
    rwa [Store.stage?_call_ne hv] at hx
  | @interrupted _ _ v ht =>
    have hv : w ≠ v := fun hv => (hd (by simp [waiter?, ht, hv])).2.2 rfl
    rwa [Store.stage?_interrupt_ne hv] at hx
  | @moves _ _ t c c' m ht hm =>
    have hv : w ≠ c.monitor := fun hv => by
      have hwaits := (hd (by simp [waiter?, ht, hv])).1
      rw [ht] at hwaits
      cases hwaits
    cases steps_of_clientStep hm with
    | calls _ => rwa [Store.stage?_call_ne hv] at hx
    | interrupted _ => rwa [Store.stage?_interrupt_ne hv] at hx
    | removes _ _ | misses _ _ => exact Store.calling_of_destroy hx
    | _ => exact hx

end Party

theorem Arrives.calling {d : Deal} {s : Store} {x : Reply} {w : Nat} (h : Arrives d s x)
    (hx : x.store.stage? w = some .calling) : s.stage? w = some .calling := by
  cases h with
  | creates | learns id => exact hx
  | abandons e => exact Store.calling_of_destroy (s := s.create.2) (g := ⟨s.create.1, false⟩) hx

/-! ### One turn of others -/

section

variable {r r' : Crowd ι} {t : Turn ι} {w : Nat}

/-- The turn is not one of the thread at place `w`, whoever makes it. -/
def Spares (w : Nat) (r : Crowd ι) (t : Turn ι) : Prop :=
  ∀ p, r.party t.who = some p → p.Spares w t.deal

theorem Spares.reply?_rouse (h : Spares w r t) (hw : w < r.store.waiters.length) :
    (r.rouse w).reply? t = (r.reply? t).map (Reply.rouse w) := by
  have hp : (r.rouse w).party t.who = r.party t.who := rfl
  unfold reply?
  rw [hp]
  cases hq : r.party t.who with
  | none => exact arrive_rouse w t.deal r.store
  | some p => exact Party.act_rouse (h p hq) hw

theorem Spares.calling (h : Spares w r t) (hw : w < r.store.waiters.length) {x : Reply}
    (hx : r.reply? t = some x) (hc : x.store.stage? w = some .calling) :
    r.store.stage? w = some .calling := by
  obtain ⟨-, ha⟩ | ⟨p, hp, ha⟩ := reply?_cases hx
  · exact ha.calling hc
  · exact ha.calling_of_spares (h p hp) hw hc

variable [DecidableEq ι]

theorem Spares.step_rouse (h : Spares w r t) (hw : w < r.store.waiters.length) :
    ((r.rouse w).step t).getD (r.rouse w) = ((r.step t).getD r).rouse w := by
  unfold step
  rw [h.reply?_rouse hw]
  cases r.reply? t <;> rfl

end

/-! ### With signals and without -/

/-- Between a signal and the thread's next call the turn leaves the counter's value alone or gives it
another than the resting one. -/
def Keeps [DecidableEq ι] (w : Nat) (id : Int) (r : Crowd ι) (t : Turn ι) : Prop :=
  r.store.stage? w = some .calling →
    ((r.step t).getD r).store.value? id = r.store.value? id ∨
      Signaled (((r.step t).getD r).store.value? id)

/-- The crowd `r`, where signals hit the thread at place `w`, and the crowd `r'`, where none do. -/
inductive Abreast (w : Nat) (r r' : Crowd ι) : Prop where
  | level (same : Matches r r') (settled : r.store.stage? w ≠ some .calling)
  /-- The thread is about to call, and would be told what the other has been told. -/
  | behind (same : Matches r (r'.rouse w)) (answered : r'.store.Answered w)

namespace Abreast

variable {r r' : Crowd ι} {w : Nat}

theorem value? (h : Abreast w r r') (id : Int) : r.store.value? id = r'.store.value? id := by
  cases h with
  | level same _ => rw [same.store]
  | behind same _ =>
    rw [same.store]
    rfl

theorem calling_of_behind (same : Matches r (r'.rouse w)) (answered : r'.store.Answered w) :
    r.store.stage? w = some .calling := by
  obtain ⟨a, -, ha, -⟩ := answered
  rw [same.store]
  exact Store.stage?_rouse_self (by simp [Store.stage?, ha])

theorem matches_of_ne_calling (h : Abreast w r r') (hs : r.store.stage? w ≠ some .calling) :
    Matches r r' := by
  cases h with
  | level same _ => exact same
  | behind same answered => exact absurd (calling_of_behind same answered) hs

theorem of_matches {q : Crowd ι} (h : Abreast w r r') (k : Matches q r) : Abreast w q r' := by
  cases h with
  | level same settled => exact .level (k.trans same) (by rwa [k.store])
  | behind same answered => exact .behind (k.trans same) answered

variable [DecidableEq ι]

theorem step {t : Turn ι} {id : Int} (h : Abreast w r r') (hr : Sound r')
    (hid : r'.store.waiters[w]?.map Waiter.counter = some id) (hs : Spares w r t)
    (hs' : Spares w r' t) (hk : Keeps w id r t) :
    Abreast w ((r.step t).getD r) ((r'.step t).getD r') := by
  obtain ⟨a, ha, rfl⟩ := Option.map_eq_some_iff.mp hid
  have hw := (List.getElem?_eq_some_iff.mp ha).1
  cases h with
  | level same settled =>
    refine .level (same.step t) ?_
    cases hx : r.reply? t with
    | none => simpa [Crowd.step, hx] using settled
    | some x =>
      rw [step_of_reply? hx]
      exact fun hc => settled (hs.calling (same.store ▸ hw) hx hc)
  | behind same answered =>
    have hnext := same.step t
    rw [hs'.step_rouse hw] at hnext
    have hkept := hk (calling_of_behind same answered)
    rw [hnext.store, same.store] at hkept
    refine .behind hnext ?_
    cases hx : r'.reply? t with
    | none => simpa [Crowd.step, hx] using answered
    | some x =>
      rw [step_of_reply? hx] at hkept ⊢
      refine answered.passage ha (hr.passage hx ha) ?_ hkept
      exact fun hn => answered.ne_calling (hs'.calling hw hx hn)

theorem interrupt {i : ι} {p : Party} (h : Abreast w r r') (hp : r.party i = some p)
    (ht : p.tenure = .waits w) (hrests : r.store.stage? w = some .parked → r.store.Answered w) :
    Abreast w ((r.step ⟨i, .interrupt⟩).getD r) r' := by
  have hx := reply?_of_acts (t := ⟨i, .interrupt⟩) hp (.interrupted ht)
  have hnow := matches_settle (t := ⟨i, .interrupt⟩)
    (x := ⟨.stillWaiting, p, r.store.interrupt w⟩) hp
  rw [step_of_reply? hx]
  refine of_matches ?_ hnow
  by_cases hk : r.store.stage? w = some .parked
  · cases h with
    | level same _ =>
      refine .behind ⟨?_, same.party⟩ (same.store ▸ hrests hk)
      show r.store.interrupt w = r'.store.rouse w
      rw [Store.interrupt_eq_rouse hk, same.store]
    | behind same answered => cases (calling_of_behind same answered).symm.trans hk
  · rw [Store.interrupt_of_ne_parked hk]
    exact h

theorem call {i : ι} {p : Party} (h : Abreast w r r') (hp : r.party i = some p)
    (ht : p.tenure = .waits w) : Abreast w ((r.step ⟨i, .call⟩).getD r) r' := by
  have hx := reply?_of_acts (t := ⟨i, .call⟩) hp (.calls ht)
  have hnow := matches_settle (t := ⟨i, .call⟩)
    (x := ⟨answerOf ((r.store.call w).stage? w), p, r.store.call w⟩) hp
  rw [step_of_reply? hx]
  refine of_matches ?_ hnow
  cases h with
  | level same settled =>
    rw [Store.call_of_ne_calling settled]
    exact .level same settled
  | behind same answered =>
    have hs : r.store.call w = r'.store := by rw [same.store]; exact answered.call_rouse
    rw [hs]
    exact .level ⟨rfl, same.party⟩ answered.ne_calling

end Abreast

/-! ### Any turns -/

theorem Sound.waited {r : Crowd ι} (hr : Sound r) {t : Turn ι} {x : Reply}
    (hx : r.reply? t = some x) {w : Nat} (hw : x.party.waiter? = some w) {j : ι} {q : Party}
    (hq : r.party j = some q) (hqw : q.waiter? = some w) :
    ∃ p, r.party t.who = some p ∧ p.waiter? = some w := by
  rcases reply?_cases hx with ⟨-, ha⟩ | ⟨p, hp, ha⟩
  · cases ha.waiter?_eq_none.symm.trans hw
  · rcases ha.waiter?_cases (hr.fits _ p hp) hw with hpw | hnew
    · exact ⟨p, hp, hpw⟩
    · obtain ⟨a, ha, -⟩ := Option.map_eq_some_iff.mp ((hr.fits j q hq).waiter w hqw)
      have hlt := (List.getElem?_eq_some_iff.mp ha).1
      obtain rfl : w = r.store.waiters.length := congrArg Prod.fst hnew
      exact absurd hlt (Nat.lt_irrefl _)

variable [DecidableEq ι]

/-- No two parties wait at one place. -/
theorem run_places (s : Store) (turns : List (Turn ι)) {i j : ι} {p q : Party} {w : Nat}
    (hp : ((start s).run turns).party i = some p) (hq : ((start s).run turns).party j = some q)
    (hpw : p.waiter? = some w) (hqw : q.waiter? = some w) : i = j := by
  suffices h : Sound ((start s).run turns) ∧ ∀ i j p q w, ((start s).run turns).party i = some p →
      ((start s).run turns).party j = some q → p.waiter? = some w → q.waiter? = some w → i = j from
    h.2 i j p q w hp hq hpw hqw
  refine run_induction (P := fun r => Sound r ∧ ∀ i j p q w, r.party i = some p →
    r.party j = some q → p.waiter? = some w → q.waiter? = some w → i = j)
    ⟨sound_start s, fun _ _ _ _ _ h => by cases h⟩ turns ?_
  rintro t - r x hx ⟨hr, hone⟩
  refine ⟨hr.settle hx, fun i j p q w hp hq hpw hqw => ?_⟩
  obtain ⟨rfl, rfl⟩ | ⟨-, hp⟩ := party_settle_cases hp <;>
    obtain ⟨rfl, rfl⟩ | ⟨-, hq⟩ := party_settle_cases hq
  · rfl
  · obtain ⟨p, hp, hpw⟩ := hr.waited hx hpw hq hqw
    exact hone _ j p q w hp hq hpw hqw
  · obtain ⟨q, hq, hqw⟩ := hr.waited hx hqw hp hpw
    exact hone i _ p q w hp hq hpw hqw
  · exact hone i j p q w hp hq hpw hqw

theorem Party.Acts.of_waits {d : Deal} {p : Party} {s : Store} {x : Reply} {w : Nat}
    (h : Acts d p s x) (ht : p.tenure = .waits w) : x.party = p := by
  cases h with
  | reads | hands h | calls _ | interrupted _ => rfl
  | destroys hs | drops hs | ends hs | enters hs | awaits hs | moves hs _ => cases ht.symm.trans hs

theorem waits_run {r : Crowd ι} {i : ι} {p : Party} {w : Nat} (hp : r.party i = some p)
    (ht : p.tenure = .waits w) (turns : List (Turn ι)) :
    ∃ q, (r.run turns).party i = some q ∧ q.tenure = .waits w ∧ q.counter = p.counter := by
  refine run_induction (P := fun r => ∃ q, r.party i = some q ∧ q.tenure = .waits w ∧
    q.counter = p.counter) ⟨p, hp, ht, rfl⟩ turns ?_
  rintro t - r x hx ⟨q, hq, hqt, hqc⟩
  by_cases hi : i = t.who
  · subst hi
    rcases reply?_cases hx with ⟨hn, -⟩ | ⟨q', hq', ha⟩
    · cases hn.symm.trans hq
    · obtain rfl : q' = q := Option.some.inj (hq'.symm.trans hq)
      rw [party_settle_self]
      exact ⟨_, rfl, by rw [ha.of_waits hqt]; exact hqt, ha.counter.trans hqc⟩
  · exact ⟨q, by rw [party_settle_ne _ _ _ hi, hq], hqt, hqc⟩

def Turn.Stirs (i : ι) (t : Turn ι) : Prop := t.who = i ∧ (t.deal = .call ∨ t.deal = .interrupt)

instance (i : ι) (t : Turn ι) : Decidable (t.Stirs i) := inferInstanceAs (Decidable (_ ∧ _))

/-- The turns without the signals for the thread of a party, and without its calls. -/
def quiet (i : ι) (turns : List (Turn ι)) : List (Turn ι) := turns.filter fun t => ¬ t.Stirs i

/-- From each signal to the thread's next call nobody puts the counter back to rest or takes it
away. -/
def Undisturbed (w : Nat) (id : Int) (r : Crowd ι) (turns : List (Turn ι)) : Prop :=
  ∀ before t, before ++ [t] <+: turns → Keeps w id (r.run before) t

theorem answered_of_parked {s : Store} {turns : List (Turn ι)} {i : ι} {p : Party} {w : Nat}
    (hp : ((start s).run turns).party i = some p) (hw : p.waiter? = some w)
    (hk : ((start s).run turns).store.stage? w = some .parked) :
    ((start s).run turns).store.Answered w := by
  have hwaits := ((run_sound s turns).fits i p hp).waiter w hw
  obtain ⟨a, ha, hac⟩ := Option.map_eq_some_iff.mp hwaits
  have hst : a.stage = .parked := by simpa [Store.stage?, ha] using hk
  have hv := (run_heard s turns hp hw).rests hk
  exact ⟨a, 0, ha, by rw [hac, hv], by rw [hst, if_pos rfl]⟩

theorem spares_of_not_own {s : Store} {turns : List (Turn ι)} {i : ι} {p : Party} {w : Nat}
    {t : Turn ι} (hp : ((start s).run turns).party i = some p) (ht : p.tenure = .waits w)
    (hown : ¬ t.Stirs i) :
    Spares w ((start s).run turns) t := by
  intro q hq hqw
  obtain rfl : t.who = i := run_places s turns hq hp hqw (by simp [Party.waiter?, ht])
  obtain rfl : q = p := Option.some.inj (hq.symm.trans hp)
  exact ⟨ht, fun hc => hown ⟨rfl, .inl hc⟩, fun hc => hown ⟨rfl, .inr hc⟩⟩

/-- The thread that signals hit keeps abreast of the one that is left alone. -/
theorem run_abreast (s : Store) (turns : List (Turn ι)) {i : ι} {p : Party} {w : Nat}
    (hp : ((start s).run turns).party i = some p) (ht : p.tenure = .waits w)
    (hs : ((start s).run turns).store.stage? w ≠ some .calling) {more : List (Turn ι)}
    (hu : Undisturbed w p.counter ((start s).run turns) more) :
    Abreast w (((start s).run turns).run more) (((start s).run turns).run (quiet i more)) := by
  induction more using List.reverseRecOn with
  | nil => exact .level (.refl _) hs
  | append_singleton more t ih =>
    have ih := ih fun before t hb => hu before t (hb.trans (List.prefix_append _ _))
    have hkeeps := hu more t (List.prefix_refl _)
    obtain ⟨q, hq, hqt, hqc⟩ := waits_run hp ht more
    obtain ⟨q', hq', hqt', hqc'⟩ := waits_run hp ht (quiet i more)
    have hqw : q.waiter? = some w := by simp [Party.waiter?, hqt]
    have hqw' : q'.waiter? = some w := by simp [Party.waiter?, hqt']
    rw [run_concat]
    have hrun (ts : List (Turn ι)) :
        ((start s).run turns).run ts = (start s).run (turns ++ ts) := (run_append _ _ _).symm
    by_cases hown : t.Stirs i
    · have hquiet : quiet i (more ++ [t]) = quiet i more := by
        rw [quiet, List.filter_append, List.filter_cons_of_neg (by simpa using hown)]
        simp [quiet]
      rw [hquiet]
      obtain ⟨who, deal⟩ := t
      obtain ⟨rfl, rfl | rfl⟩ := hown
      · exact ih.call hq hqt
      · refine ih.interrupt hq hqt fun hk => ?_
        rw [hrun] at hq hk ⊢
        exact answered_of_parked hq hqw hk
    · have hquiet : quiet i (more ++ [t]) = quiet i more ++ [t] := by
        rw [quiet, List.filter_append, List.filter_cons_of_pos (by simpa using hown)]
        rfl
      rw [hquiet, run_concat]
      rw [hrun] at hq hq' ih hkeeps ⊢
      rw [hrun] at ih ⊢
      have hw' := ((run_sound s (turns ++ quiet i more)).fits i q' hq').waiter w hqw'
      rw [hqc'] at hw'
      exact ih.step (run_sound s _) hw' (spares_of_not_own hq hqt hown)
        (spares_of_not_own hq' hqt' hown) hkeeps

end HelperHandoff.Crowd
