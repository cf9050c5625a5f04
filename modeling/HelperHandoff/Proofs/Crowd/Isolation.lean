import HelperHandoff.Proofs.Crowd.Ledger
import HelperHandoff.Proofs.Crowd.Likeness

/-!
Owners do not notice each other. In a crowd in which everybody has a counter of its own, what
becomes of one of them depends on the turns about its own counter and not on the others, however the
turns of all of them are mixed; a code that it returns has been published to its own counter. What a
helper does to a counter is a turn of the party that owns it.
-/

set_option autoImplicit false

namespace HelperHandoff.Crowd

open Completion (Client Hand Move Race)
open Counter (Answer Guard Store Waiter)

/-- The first turn of a party that has only heard of a number. -/
def Deal.isForeign : Deal → Bool
  | .know _ => true
  | _ => false

variable {ι : Type}

/-! ### Owners -/

/-- Everybody who is there has made a counter. -/
def Owned (r : Crowd ι) : Prop := ∀ i p, r.party i = some p → p.guard?.isSome

theorem owned_start (s : Store) : Owned (start s : Crowd ι) := fun _ _ h => nomatch h

theorem isSome_guard?_of_reply? {r : Crowd ι} (hr : Owned r) {t : Turn ι} {x : Reply}
    (ht : t.deal.isForeign = false) (h : r.reply? t = some x) : x.party.guard?.isSome := by
  obtain ⟨-, ha⟩ | ⟨p, hp, ha⟩ := reply?_cases h
  · generalize t.deal = d at ht ha
    cases ha with
    | creates | abandons e => rfl
    | learns id => cases ht
  · rw [← Option.isSome_map (f := Guard.counter), ha.map_guard?, Option.isSome_map]
    exact hr _ p hp

theorem Sound.unseen {r : Crowd ι} (hr : Sound r) (ho : Owned r) {t : Turn ι} {x : Reply}
    (ht : t.deal.isForeign = false) (h : r.reply? t = some x) {j : ι} {q : Party}
    (hj : j ≠ t.who) (hq : r.party j = some q) :
    x.store.value? q.counter = r.store.value? q.counter ∧
      ∀ w, q.waiter? = some w → x.store.stage? w = r.store.stage? w := by
  have hne := hr.counter_ne h (isSome_guard?_of_reply? ho ht h) hj hq (ho j q hq)
  have ha := hr.about h
  exact ⟨ha.value _ hne, fun w hw => ha.stage?_of_ne hne ((hr.fits j q hq).waiter w hw)⟩

section Runs

variable [DecidableEq ι]

theorem Owned.settle {r : Crowd ι} (hr : Owned r) {t : Turn ι} {x : Reply}
    (ht : t.deal.isForeign = false) (h : r.reply? t = some x) : Owned (r.settle t x) := by
  intro i p hp
  obtain ⟨rfl, rfl⟩ | ⟨-, hp⟩ := party_settle_cases hp
  · exact isSome_guard?_of_reply? hr ht h
  · exact hr i p hp

theorem run_owned (s : Store) (turns : List (Turn ι))
    (own : ∀ t ∈ turns, t.deal.isForeign = false) : Owned ((start s).run turns) :=
  run_induction (P := Owned) (owned_start s) turns fun t ht _ _ h hr =>
    hr.settle (own t ht) h

end Runs

/-! ### Two crowds -/

/-- The party `i` is not there in either crowd, or is the same in both but for its number. -/
def Alike (i : ι) (r r' : Crowd ι) : Prop :=
  Option.Rel (fun p q => Party.Alike r.store p r'.store q) (r.party i) (r'.party i)

theorem Alike.symm {i : ι} {r r' : Crowd ι} (h : Alike i r r') : Alike i r' r := by
  unfold Alike at h ⊢
  generalize r.party i = a at h ⊢
  generalize r'.party i = b at h ⊢
  cases h with
  | none => exact .none
  | some h => exact .some h.symm

theorem Alike.of_none {i : ι} {r r' : Crowd ι} (h : Alike i r r') (hn : r.party i = none) :
    r'.party i = none := by
  unfold Alike at h
  rw [hn] at h
  generalize r'.party i = b at h ⊢
  cases h
  rfl

theorem Alike.of_some {i : ι} {r r' : Crowd ι} (h : Alike i r r') {p : Party}
    (hp : r.party i = some p) : ∃ q, r'.party i = some q ∧ Party.Alike r.store p r'.store q := by
  unfold Alike at h
  rw [hp] at h
  generalize r'.party i = b at h ⊢
  cases h with
  | some h => exact ⟨_, rfl, h⟩

def log? (r : Crowd ι) (i : ι) : Option (List (Deal × Answer)) := (r.party i).map Party.log

def value? (r : Crowd ι) (i : ι) : Option Int32 :=
  (r.party i).bind fun p => r.store.value? p.counter

theorem Alike.seen {i : ι} {r r' : Crowd ι} (h : Alike i r r') :
    r.result? i = r'.result? i ∧ r.log? i = r'.log? i ∧ r.value? i = r'.value? i := by
  unfold Crowd.result? log? value?
  cases hp : r.party i with
  | none =>
    rw [h.of_none hp]
    exact ⟨rfl, rfl, rfl⟩
  | some p =>
    obtain ⟨q, hq, hpq⟩ := h.of_some hp
    rw [hq]
    exact ⟨hpq.result?, congrArg some hpq.log, hpq.store.value⟩

theorem Arrives.alike {d : Deal} {s : Store} {x : Reply} (h : Arrives d s x)
    (hd : d.isForeign = false) (t : Store) :
    ∃ y, Arrives d t y ∧ y.answer = x.answer ∧ Party.Alike x.store x.party y.store y.party := by
  cases h with
  | creates =>
    refine ⟨_, .creates, rfl, ⟨Int.natCast_nonneg _, Int.natCast_nonneg _, ?_, .none⟩, .owns rfl,
      rfl⟩
    rw [s.value?_create, t.value?_create]
  | abandons e =>
    have hy : Arrives (.abandon e) t _ := .abandons e
    have hs := (Arrives.abandons (s := s) e).fits.gone rfl
    have ht := hy.fits.gone rfl
    refine ⟨_, hy, rfl, ⟨Int.natCast_nonneg _, Int.natCast_nonneg _, ?_, .none⟩, .parted, rfl⟩
    exact hs.trans ht.symm
  | learns id => cases hd

theorem Alike.reply? {r r' : Crowd ι} (hr : Sound r) (hr' : Sound r') {t : Turn ι}
    (h : Alike t.who r r') (ht : t.deal.isForeign = false) {x : Reply} (hx : r.reply? t = some x) :
    ∃ y, r'.reply? t = some y ∧ y.answer = x.answer ∧
      Party.Alike x.store x.party y.store y.party := by
  obtain ⟨hn, ha⟩ | ⟨p, hp, ha⟩ := reply?_cases hx
  · have hn' := h.of_none hn
    obtain ⟨y, hy, hrest⟩ := ha.alike ht r'.store
    exact ⟨y, reply?_of_arrives hn' hy, hrest⟩
  · obtain ⟨q, hq, hpq⟩ := h.of_some hp
    obtain ⟨y, hy, hrest⟩ := hpq.acts (hr.fits _ p hp) (hr'.fits _ q hq) ha
    exact ⟨y, reply?_of_acts hq hy, hrest⟩

section Runs

variable [DecidableEq ι]

theorem Alike.settle_own {r r' : Crowd ι} {t : Turn ι} {x y : Reply}
    (ha : y.answer = x.answer) (h : Party.Alike x.store x.party y.store y.party) :
    Alike t.who (r.settle t x) (r'.settle t y) := by
  unfold Alike
  rw [party_settle_self, party_settle_self, ha]
  refine .some ⟨h.store, h.tenure, ?_⟩
  simp only [Party.note, h.log]

theorem Alike.step_own {r r' : Crowd ι} (hr : Sound r) (hr' : Sound r') {t : Turn ι}
    (h : Alike t.who r r') (ht : t.deal.isForeign = false) :
    Alike t.who ((r.step t).getD r) ((r'.step t).getD r') := by
  unfold step
  cases hx : r.reply? t with
  | some x =>
    obtain ⟨y, hy, ha, hxy⟩ := h.reply? hr hr' ht hx
    rw [hy]
    exact Alike.settle_own ha hxy
  | none =>
    cases hy : r'.reply? t with
    | none => exact h
    | some y =>
      -- Otherwise the turn could be made in the first crowd too.
      obtain ⟨x, hx', -⟩ := h.symm.reply? hr' hr ht hy
      rw [hx] at hx'
      cases hx'

theorem Alike.step_other {r r' : Crowd ι} (hr : Sound r) (ho : Owned r) {t : Turn ι} {i : ι}
    (h : Alike i r r') (ht : t.deal.isForeign = false) (hi : i ≠ t.who) :
    Alike i ((r.step t).getD r) r' := by
  unfold step
  cases hx : r.reply? t with
  | none => exact h
  | some x =>
    unfold Alike
    cases hp : r.party i with
    | none =>
      rw [Option.map_some, Option.getD_some, party_settle_ne _ _ _ hi, hp, h.of_none hp]
      exact .none
    | some p =>
      obtain ⟨q, hq, hpq⟩ := h.of_some hp
      rw [Option.map_some, Option.getD_some, party_settle_ne _ _ _ hi, hp, hq]
      have hne := hr.counter_ne hx (isSome_guard?_of_reply? ho ht hx) hi hp (ho i p hp)
      exact .some ⟨hpq.store.of_about (hr.about hx) hne, hpq.tenure, hpq.log⟩

/-- A party fares among all as it does with its own turns alone. -/
theorem run_alike (s : Store) (turns : List (Turn ι))
    (own : ∀ t ∈ turns, t.deal.isForeign = false) (i : ι) :
    Alike i ((start s).run turns) ((start s).run (turns.filter fun t => t.who = i)) := by
  induction turns using List.reverseRecOn with
  | nil => exact .none
  | append_singleton turns t ih =>
    have hown : ∀ t ∈ turns, t.deal.isForeign = false := fun t ht =>
      own t (List.mem_append_left _ ht)
    have ht := own t (by simp)
    have h := ih hown
    rw [List.filter_append, run_concat]
    by_cases hi : t.who = i
    · subst hi
      rw [List.filter_cons_of_pos (by simp), List.filter_nil, run_concat]
      exact h.step_own (run_sound s _) (run_sound s _) ht
    · rw [List.filter_cons_of_neg (by simp [hi]), List.filter_nil, List.append_nil]
      exact h.step_other (run_sound s _) (run_owned s turns hown) ht (Ne.symm hi)

end Runs

/-! ### Codes -/

namespace Party

def outcome? (p : Party) : Option Completion.Outcome :=
  match p.tenure with
  | .completes c => c.stage.outcome?
  | .parted _ outcome => outcome
  | _ => none

/-- One of the party's turns has put this into the counter. -/
def Put (p : Party) (v : Int32) : Prop := ∃ h, (.hand h, .done) ∈ p.log ∧ h.cell? = some v

/-- The counter holds what has been put into it, and so does a code that has been settled on. -/
structure Told (s : Store) (p : Party) : Prop where
  value : ∀ v, s.value? p.counter = some v → v ≠ 0 → p.Put v
  outcome : ∀ code, p.outcome? = some (.ok code) →
    ∃ v, p.Put v ∧ ExitCode.decode? v = some code

variable {d : Deal} {p : Party} {s t : Store} {x : Reply}

theorem Told.congr (h : p.Told s) (hv : t.value? p.counter = s.value? p.counter) : p.Told t :=
  ⟨fun v ht => h.value v (hv ▸ ht), h.outcome⟩

theorem Acts.outcome? (h : Acts d p s x) (hp : p.Fits s) {code : Int32}
    (ho : x.party.outcome? = some (.ok code)) :
    p.outcome? = some (.ok code) ∨
      ∃ v, s.value? p.counter = some v ∧ ExitCode.decode? v = some code := by
  cases h with
  | reads | hands h | calls ht | interrupted ht => exact .inl ho
  | destroys ht | drops ht | enters ht | awaits ht => cases ho
  | @ends _ _ c ht =>
    have hr : c.result? = some (.ok code) := ho
    simp only [Party.outcome?, ht]
    exact .inl (Race.outcome?_of_result? (r := ⟨s, c, []⟩) hr)
  | @moves _ _ s' c c' m ht hm =>
    have hc := (hp.guard c.guard (by simp [guard?, ht])).1
    have ho' : c'.stage.outcome? = some (.ok code) := ho
    simp only [Party.outcome?, ht]
    cases steps_of_clientStep hm with
    | reads hs =>
      obtain ⟨v, hv, hd⟩ := Race.judge_ok (Option.some.inj ho')
      rw [← hc]
      exact .inr ⟨v, Store.value?_of_read hv, hd⟩
    | wakes hs _ | expires hs _ => cases ho'
    | hears hs _ => cases ho'
    | calls _ | interrupted _ | sends _ _ => exact .inl ho'
    | removes hs _ | misses hs _ | joins hs _ =>
      have hs' : c.stage = _ := hs
      exact .inl (by rw [hs']; exact ho')

theorem Put.note {v : Int32} (h : p.Put v) (hl : x.party.log = p.log) (d : Deal) (a : Answer) :
    (x.party.note d a).Put v := by
  obtain ⟨h, hm, hc⟩ := h
  exact ⟨h, mem_log_note.mpr (.inl (hl ▸ hm)), hc⟩

theorem Acts.value (h : Acts d p s x) (ht : p.Told s) {v : Int32}
    (hv : x.store.value? p.counter = some v) (hz : v ≠ 0) :
    (x.party.note d x.answer).Put v := by
  have hkeeps (hs : s.value? p.counter = some v) : (x.party.note d x.answer).Put v :=
    (ht.value v hs hz).note h.log d x.answer
  cases h.effect with
  | idle hs _ _ => exact hkeeps (by rwa [hs] at hv)
  | handed h' hd ha hs _ =>
    rw [hs] at hv
    cases hf : (h'.act p.counter s).1 with
    | some e => exact hkeeps (by rwa [Hand.act_of_failed hf] at hv)
    | none =>
      rw [(Hand.act_of_done hf).1] at hv
      rw [hf] at ha
      exact ⟨h', mem_log_note.mpr (.inr ⟨hd.symm, ha.symm⟩), hv⟩
  | removed g _ _ hs _ _ => exact hkeeps (Store.value?_of_destroy (by rwa [hs] at hv))

theorem Acts.told (h : Acts d p s x) (hp : p.Fits s) (ht : p.Told s) :
    (x.party.note d x.answer).Told x.store where
  value v hv hz := by
    have hc : (x.party.note d x.answer).counter = p.counter := h.counter
    rw [hc] at hv
    exact h.value ht hv hz
  outcome code ho := by
    obtain ho | ⟨v, hv, hd⟩ := h.outcome? hp ho
    · obtain ⟨v, hput, hd⟩ := ht.outcome code ho
      exact ⟨v, hput.note h.log d x.answer, hd⟩
    · have hz : v ≠ 0 := by
        rintro rfl
        cases hd
      exact ⟨v, (ht.value v hv hz).note h.log d x.answer, hd⟩

end Party

theorem Arrives.told {d : Deal} {s : Store} {x : Reply} (h : Arrives d s x)
    (hd : d.isForeign = false) : (x.party.note d x.answer).Told x.store := by
  have hgone := h.fits.gone
  cases h with
  | creates =>
    refine ⟨fun v hv hz => ?_, fun code ho => by cases ho⟩
    have hv' : s.create.2.value? s.create.1 = some v := hv
    rw [s.value?_create] at hv'
    exact absurd (Option.some.inj hv').symm hz
  | abandons e =>
    refine ⟨fun v hv hz => ?_, fun code ho => by cases ho⟩
    have hg : (Guard.abandon s).2.value? s.create.1 = none := hgone rfl
    have hv' : (Guard.abandon s).2.value? s.create.1 = some v := hv
    rw [hg] at hv'
    cases hv'
  | learns id => cases hd

section Runs

variable [DecidableEq ι]

theorem run_told (s : Store) (turns : List (Turn ι))
    (own : ∀ t ∈ turns, t.deal.isForeign = false) (i : ι) (p : Party)
    (hp : ((start s).run turns).party i = some p) : p.Told ((start s).run turns).store := by
  have hall : Sound ((start s).run turns) ∧ Owned ((start s).run turns) ∧
      ∀ i p, ((start s).run turns).party i = some p → p.Told ((start s).run turns).store := by
    refine run_induction
      (P := fun r : Crowd ι => Sound r ∧ Owned r ∧ ∀ i p, r.party i = some p → p.Told r.store)
      ⟨sound_start s, owned_start s, fun _ _ h => nomatch h⟩ turns ?_
    rintro t ht r x h ⟨hr, ho, htold⟩
    refine ⟨hr.settle h, ho.settle (own t ht) h, fun i p hp => ?_⟩
    obtain ⟨rfl, rfl⟩ | ⟨hi, hp⟩ := party_settle_cases hp
    · obtain ⟨-, ha⟩ | ⟨q, hq, ha⟩ := reply?_cases h
      · exact ha.told (own t ht)
      · exact ha.told (hr.fits _ q hq) (htold _ q hq)
    · exact (htold i p hp).congr (hr.unseen ho (own t ht) h hi hp).1
  exact hall.2.2 i p hp

theorem run_logged (s : Store) (turns : List (Turn ι)) (i : ι) (p : Party)
    (hp : ((start s).run turns).party i = some p) {d : Deal} {a : Answer} (hd : (d, a) ∈ p.log) :
    ⟨i, d⟩ ∈ turns := by
  refine run_induction (P := fun r : Crowd ι => ∀ i p d a, r.party i = some p → (d, a) ∈ p.log →
    ⟨i, d⟩ ∈ turns) (fun _ _ _ _ h => by cases h) turns ?_ i p d a hp hd
  intro t ht r x h hr i p d a hp hd
  obtain ⟨rfl, rfl⟩ | ⟨-, hp⟩ := party_settle_cases hp
  · rw [Party.mem_log_note] at hd
    obtain ⟨-, ha⟩ | ⟨q, hq, ha⟩ := reply?_cases h <;> rw [ha.log] at hd
    · obtain hd | ⟨rfl, -⟩ := hd
      · cases hd
      · exact ht
    · obtain hd | ⟨rfl, -⟩ := hd
      · exact hr _ q d a hq hd
      · exact ht
  · exact hr i p d a hp hd

/-! ### The whole -/

theorem outcome?_of_result? (s : Store) {p : Party} {o : Completion.Outcome}
    (h : p.result? = some o) : p.outcome? = some o := by
  cases ht : p.tenure with
  | completes c =>
    simp only [Party.result?, ht] at h
    simp only [Party.outcome?, ht]
    exact Race.outcome?_of_result? (r := ⟨s, c, []⟩) h
  | parted g outcome =>
    simp only [Party.result?, ht] at h
    simp only [Party.outcome?, ht, h]
  | _ => simp [Party.result?, ht] at h

/-- How the party `i` fares in a run of all turns. -/
structure Isolated (s : Store) (turns : List (Turn ι)) (i : ι) : Prop where
  result? : ((start s).run turns).result? i =
    ((start s).run (turns.filter fun t => t.who = i)).result? i
  log : ((start s).run turns).log? i =
    ((start s).run (turns.filter fun t => t.who = i)).log? i
  value : ((start s).run turns).value? i =
    ((start s).run (turns.filter fun t => t.who = i)).value? i
  published : (∀ v, ⟨i, .hand (.set v)⟩ ∉ turns) → ∀ code,
    ((start s).run turns).result? i = some (.ok code) →
      ∃ p, ((start s).run turns).party i = some p ∧ (.hand (.publish code), .done) ∈ p.log
  late : ∀ p code, ((start s).run turns).party i = some p →
    ((start s).run turns).store.value? p.counter = none → ExitCode.Accepted code →
      ((start s).run turns).reply? ⟨i, .hand (.publish code)⟩ =
        some ⟨.failed .invalidArgument, p, ((start s).run turns).store⟩
  /-- Whatever another party does, its removal among it, is not seen. -/
  unseen : ∀ t x p, t.who ≠ i → t.deal.isForeign = false →
    ((start s).run turns).reply? t = some x → ((start s).run turns).party i = some p →
      (((start s).run turns).settle t x).party i = some p ∧
      x.store.value? p.counter = ((start s).run turns).store.value? p.counter ∧
      ∀ w, p.waiter? = some w → x.store.stage? w = ((start s).run turns).store.stage? w

/-- Owners are isolated from each other, in any number and whatever the order of their turns. -/
theorem owners_isolated (s : Store) (turns : List (Turn ι))
    (own : ∀ t ∈ turns, t.deal.isForeign = false) (i : ι) : Isolated s turns i := by
  obtain ⟨hresult, hlog, hvalue⟩ := (run_alike s turns own i).seen
  have hr := run_sound s turns
  refine
    { result? := hresult
      log := hlog
      value := hvalue
      published := fun hset code h => ?_
      late := fun p code hp hv hc => ?_
      unseen := fun t x p hi ht hx hp => ?_ }
  · obtain ⟨p, hp, hres⟩ := Option.bind_eq_some_iff.mp h
    have htold := run_told s turns own i p hp
    obtain ⟨v, ⟨hand, hlog, hcell⟩, hd⟩ := htold.outcome code (outcome?_of_result? s hres)
    refine ⟨p, hp, ?_⟩
    cases hand with
    | publish code' =>
      have he := ExitCode.decode?_of_encode? hcell
      rw [hd] at he
      rwa [Option.some.inj he]
    | set v' => exact absurd (run_logged s turns i p hp hlog) (hset v')
    | remove => cases hcell
  · simp only [Crowd.reply?, hp, Party.act, Hand.act, Store.publish_of_gone hv hc]
    rfl
  · rw [party_settle_ne _ _ _ (Ne.symm hi)]
    exact ⟨hp, hr.unseen (run_owned s turns own) ht hx (Ne.symm hi) hp⟩

/-- One client gives up before its code comes; the other hears of its own code only. -/
theorem owners_isolated_late :
    let turns : List (Turn Nat) := [⟨0, .create⟩, ⟨1, .create⟩, ⟨0, .await 5⟩, ⟨1, .await 100⟩,
      ⟨1, .move .monitorCalls⟩, ⟨0, .move .deadline⟩, ⟨0, .move .read⟩, ⟨1, .hand (.publish 9)⟩,
      ⟨0, .move .remove⟩, ⟨0, .hand (.publish 3)⟩, ⟨1, .move .monitorSends⟩,
      ⟨0, .move .monitorCalls⟩, ⟨1, .move .receive⟩, ⟨0, .move .monitorSends⟩, ⟨1, .move .read⟩,
      ⟨1, .move .remove⟩, ⟨0, .move .join⟩, ⟨1, .move .join⟩]
    ((start .empty).run turns).result? 0 = some (.error (.waitTimeout 5)) ∧
      ((start .empty).run turns).result? 1 = some (.ok 9) ∧
      Isolated .empty turns 0 ∧ Isolated .empty turns 1 :=
  ⟨rfl, rfl, owners_isolated .empty _ (by decide) 0, owners_isolated .empty _ (by decide) 1⟩

end Runs

end HelperHandoff.Crowd
