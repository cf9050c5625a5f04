import HelperHandoff.Proofs.Crowd.Ledger

/-!
A session is a crowd. The owner of each slot is a party, and so is each thread that somebody has
left waiting for the slot's counter; a completion is the owner's wait with all moves of its race. So
what holds in any crowd holds in any session.
-/

set_option autoImplicit false

namespace HelperHandoff.Crowd

open Completion (Client Hand Race)
open Counter (Guard InRange Session Slot Step Store)

variable {ι : Type}

def Party.owner? (p : Party) : Option Guard :=
  match p.tenure with
  | .owns g => some g
  | _ => none

/-! ### Races -/

theorem reply?_await {i : ι} {r : Crowd ι} {p : Party} {g : Guard} (hp : r.party i = some p)
    (ht : p.tenure = .owns g) (timeoutMs : Nat) :
    ∃ x, r.reply? ⟨i, .await timeoutMs⟩ = some x ∧ x.party.counter = p.counter ∧
      x.party.tenure = .completes (Race.start g timeoutMs r.store).client ∧
      x.store = (Race.start g timeoutMs r.store).store :=
  ⟨_, reply?_of_acts hp (.awaits ht), rfl, rfl, rfl⟩

theorem reply?_drop {i : ι} {r : Crowd ι} {p : Party} {c : Client} (hp : r.party i = some p)
    (ht : p.tenure = .completes c) :
    ∃ x, r.reply? ⟨i, .drop⟩ = some x ∧ x.party.counter = p.counter ∧
      x.party.tenure = .parted (c.guard.destroy r.store).guard c.result? ∧
      x.store = (c.guard.destroy r.store).store :=
  ⟨_, reply?_of_acts hp (.ends ht), rfl, rfl, rfl⟩

variable [DecidableEq ι]

def ofRace (i : ι) : Completion.Turn → Turn ι
  | .own m => ⟨i, .move m⟩
  | .other h => ⟨i, .hand h⟩

/-- The completion of the party `i` stands where the race stands. -/
def InRace (i : ι) (r : Crowd ι) (race : Race) : Prop :=
  r.store = race.store ∧
    ∃ p, r.party i = some p ∧ p.tenure = .completes race.client ∧ p.counter = race.id

theorem InRace.step {i : ι} {r : Crowd ι} {race : Race} (h : InRace i r race)
    (turn : Completion.Turn) :
    InRace i ((r.step (ofRace i turn)).getD r) ((race.step turn).getD race) ∧
      ∀ j, j ≠ i → ((r.step (ofRace i turn)).getD r).party j = r.party j := by
  obtain ⟨hs, p, hp, ht, hc⟩ := h
  cases turn with
  | other hand =>
    have hx := reply?_of_acts (t := ⟨i, .hand hand⟩) hp (.hands hand)
    rw [ofRace, step_of_reply? hx]
    refine ⟨⟨?_, _, party_settle_self _ _ _, ht, hc⟩, fun j hj => party_settle_ne _ _ _ hj⟩
    rw [store_settle, hs, hc]
    rfl
  | own m =>
    rw [ofRace]
    cases hm : race.client.step m race.store with
    | none =>
      have hx : (r.step ⟨i, .move m⟩).getD r = r := by
        simp [Crowd.step, reply?, hp, Party.act, ht, hs, hm]
      have hrace : (race.step (.own m)).getD race = race := by simp [Race.step, hm]
      rw [hx, hrace]
      exact ⟨⟨hs, p, hp, ht, hc⟩, fun _ _ => rfl⟩
    | some next =>
      obtain ⟨t, c⟩ := next
      have hx := reply?_of_acts (t := ⟨i, .move m⟩) hp (.moves ht (hs ▸ hm))
      have hid : c.guard.counter = race.client.guard.counter :=
        (steps_of_clientStep hm).later.id
      have hrace : (race.step (.own m)).getD race = { race with store := t, client := c } := by
        simp [Race.step, hm]
      rw [step_of_reply? hx, hrace]
      exact ⟨⟨rfl, _, party_settle_self _ _ _, rfl, hc.trans hid.symm⟩,
        fun j hj => party_settle_ne _ _ _ hj⟩

theorem InRace.run {i : ι} {r : Crowd ι} {race : Race} (h : InRace i r race)
    (turns : List Completion.Turn) :
    InRace i (r.run (turns.map (ofRace i))) (race.run turns) ∧
      ∀ j, j ≠ i → (r.run (turns.map (ofRace i))).party j = r.party j := by
  induction turns generalizing r race with
  | nil => exact ⟨h, fun _ _ => rfl⟩
  | cons turn turns ih =>
    obtain ⟨hstep, hothers⟩ := h.step turn
    obtain ⟨hrun, hrest⟩ := ih hstep
    exact ⟨hrun, fun j hj => (hrest j hj).trans (hothers j hj)⟩

/-- An owner waits for the exit code in a race, and comes to its end. -/
theorem run_race {i : ι} {r : Crowd ι} {p : Party} {g : Guard} (hp : r.party i = some p)
    (ht : p.tenure = .owns g) (hc : g.counter = p.counter) (timeoutMs : Nat)
    (turns : List Completion.Turn) :
    let race := (Race.start g timeoutMs r.store).run turns
    let r' := r.run (⟨i, .await timeoutMs⟩ :: turns.map (ofRace i) ++ [⟨i, .drop⟩])
    r'.store = (race.client.guard.drop race.store).2 ∧
      (∃ q, r'.party i = some q ∧ q.counter = p.counter ∧ q.owner? = none) ∧
      r'.result? i = race.result? ∧ ∀ j, j ≠ i → r'.party j = r.party j := by
  intro race r'
  obtain ⟨x, hawait, hxc, hxt, hxs⟩ := reply?_await hp ht timeoutMs
  have hstart : InRace i (r.settle ⟨i, .await timeoutMs⟩ x) (Race.start g timeoutMs r.store) :=
    ⟨hxs, _, party_settle_self ⟨i, .await timeoutMs⟩ r x, hxt, hxc.trans hc.symm⟩
  obtain ⟨⟨hs, q, hq, hqt, hqc⟩, hothers⟩ := hstart.run turns
  obtain ⟨y, hdrop, hyc, hyt, hys⟩ := reply?_drop hq hqt
  have hrun : r' = ((r.settle ⟨i, .await timeoutMs⟩ x).run (turns.map (ofRace i))).settle
      ⟨i, .drop⟩ y := by
    simp only [r', run_concat, run_cons, step_of_reply? hawait, step_of_reply? hdrop]
  have hid := (Race.run_later turns (Race.start g timeoutMs r.store)).id
  have hparty : r'.party i = some (y.party.note .drop y.answer) := by
    rw [hrun]
    exact party_settle_self ⟨i, .drop⟩ _ y
  have hyt' : (y.party.note .drop y.answer).tenure = _ := hyt
  rw [hs] at hys
  refine ⟨by rw [hrun]; exact hys, ⟨_, hparty, ?_, ?_⟩, ?_, fun j hj => ?_⟩
  · exact hyc.trans (hqc.trans (hid.trans hc))
  · simp only [Party.owner?, hyt']
  · simp only [Crowd.result?, hparty, Option.bind_some, Party.result?, hyt']
    rfl
  · rw [hrun, party_settle_ne _ _ _ hj, hothers j hj, party_settle_ne _ _ _ hj]

/-! ### Slots -/

/-- The crowd stands where the session stands. The first party of a slot is its owner or knows its
number, the others are the threads that were left waiting. -/
structure Mirrors (s : Session) (r : Crowd (Nat × Nat)) : Prop where
  store : r.store = s.store
  slot : ∀ i t, s.slots[i]? = some t →
    ∃ p, r.party (i, 0) = some p ∧ p.counter = t.counter ∧ p.owner? = t.guard
  waiter : ∀ i t w, s.slots[i]? = some t → t.waiter = some w →
    ∃ k p, r.party (i, k + 1) = some p ∧ p.tenure = .waits w
  closed : ∀ i k, s.slots.length ≤ i → r.party (i, k) = none
  room : ∀ i, ∃ n, ∀ k, n ≤ k → r.party (i, k + 1) = none

theorem mirrors_empty : Mirrors .empty (start .empty) where
  store := rfl
  slot i t h := by cases h
  waiter i t w h := by cases h
  closed _ _ _ := rfl
  room _ := ⟨0, fun _ _ => rfl⟩

variable {s : Session} {r r' : Crowd (Nat × Nat)} {i : Nat} {t : Slot}

theorem slot_of_concat {slots : List Slot} {u : Slot} (h : (slots ++ [t])[i]? = some u) :
    slots[i]? = some u ∨ i = slots.length ∧ u = t := by
  rw [List.getElem?_append] at h
  split at h
  · exact .inl h
  · have hi : i - slots.length = 0 := by
      have := (List.getElem?_eq_some_iff.mp h).1
      simpa using this
    rw [hi] at h
    exact .inr ⟨by omega, (Option.some.inj h).symm⟩

theorem Mirrors.opened (h : Mirrors s r) {d : Deal} {x : Reply} (hx : Arrives d r.store x)
    (hc : x.party.counter = t.counter) (hg : x.party.owner? = t.guard) (hw : t.waiter = none) :
    Mirrors ⟨x.store, s.slots ++ [t]⟩ (r.run [⟨(s.slots.length, 0), d⟩]) := by
  have hnone := h.closed s.slots.length 0 (Nat.le_refl _)
  rw [run_cons, run_nil, step_of_reply? (reply?_of_arrives hnone hx)]
  refine
    { store := rfl
      slot := fun i u hu => ?_
      waiter := fun i u w hu huw => ?_
      closed := fun i k hi => ?_
      room := fun i => ?_ }
  · obtain hu | ⟨rfl, rfl⟩ := slot_of_concat hu
    · have hlt := (List.getElem?_eq_some_iff.mp hu).1
      rw [party_settle_ne _ _ _ (by simp; omega)]
      exact h.slot i u hu
    · exact ⟨_, party_settle_self ⟨(s.slots.length, 0), d⟩ r x, hc, hg⟩
  · obtain hu | ⟨rfl, rfl⟩ := slot_of_concat hu
    · obtain ⟨k, p, hk, hkw⟩ := h.waiter i u w hu huw
      exact ⟨k, p, (party_settle_ne _ _ _ (by simp)).trans hk, hkw⟩
    · rw [hw] at huw
      cases huw
  · have hlt : s.slots.length < i := by
      have hlen : (s.slots ++ [t]).length ≤ i := hi
      rw [List.length_append, List.length_singleton] at hlen
      omega
    rw [party_settle_ne _ _ _ (by simp; omega)]
    exact h.closed i k (Nat.le_of_lt hlt)
  · obtain ⟨n, hn⟩ := h.room i
    exact ⟨n, fun k hk => (party_settle_ne _ _ _ (by simp)).trans (hn k hk)⟩

theorem Mirrors.changed (h : Mirrors s r) (hi : s.slots[i]? = some t) {store : Store} {u : Slot}
    (hs : r'.store = store)
    (hp : ∃ p, r'.party (i, 0) = some p ∧ p.counter = u.counter ∧ p.owner? = u.guard)
    (hw : ∀ w, u.waiter = some w → ∃ k p, r'.party (i, k + 1) = some p ∧ p.tenure = .waits w)
    (hroom : ∃ n, ∀ k, n ≤ k → r'.party (i, k + 1) = none)
    (hothers : ∀ j, j.1 ≠ i → r'.party j = r.party j) :
    Mirrors ({ s with store := store }.setSlot i u) r' := by
  have hlt := (List.getElem?_eq_some_iff.mp hi).1
  have hself : (s.slots.set i u)[i]? = some u := List.getElem?_set_self hlt
  refine
    { store := hs
      slot := fun j v hv => ?_
      waiter := fun j v w hv hvw => ?_
      closed := fun j k hj => ?_
      room := fun j => ?_ }
  · by_cases hj : j = i
    · subst hj
      obtain rfl := Option.some.inj (hself.symm.trans hv)
      exact hp
    · rw [hothers (j, 0) hj]
      exact h.slot j v ((List.getElem?_set_ne (Ne.symm hj)).symm.trans hv)
  · by_cases hj : j = i
    · subst hj
      obtain rfl := Option.some.inj (hself.symm.trans hv)
      exact hw w hvw
    · obtain ⟨k, p, hk, hkw⟩ :=
        h.waiter j v w ((List.getElem?_set_ne (Ne.symm hj)).symm.trans hv) hvw
      exact ⟨k, p, (hothers (j, k + 1) hj).trans hk, hkw⟩
  · have hle : s.slots.length ≤ j := by simpa [Session.setSlot] using hj
    rw [hothers (j, k) (by simp; omega)]
    exact h.closed j k hle
  · by_cases hj : j = i
    · subst hj
      exact hroom
    · obtain ⟨n, hn⟩ := h.room j
      exact ⟨n, fun k hk => (hothers (j, k + 1) hj).trans (hn k hk)⟩

theorem Mirrors.acted (h : Mirrors s r) (hi : s.slots[i]? = some t) {store : Store}
    {guard : Option Guard} (hs : r'.store = store)
    (hp : ∃ p, r'.party (i, 0) = some p ∧ p.counter = t.counter ∧ p.owner? = guard)
    (hothers : ∀ j, j ≠ (i, 0) → r'.party j = r.party j) :
    Mirrors ({ s with store := store }.setSlot i { t with guard := guard }) r' := by
  have hwaiting (k : Nat) : r'.party (i, k + 1) = r.party (i, k + 1) := hothers _ (by simp)
  refine h.changed hi hs hp (fun w hw => ?_) ?_ fun j hj => hothers j fun he => hj (by rw [he])
  · obtain ⟨k, p, hk, hkw⟩ := h.waiter i t w hi hw
    exact ⟨k, p, (hwaiting k).trans hk, hkw⟩
  · obtain ⟨n, hn⟩ := h.room i
    exact ⟨n, fun k hk => (hwaiting k).trans (hn k hk)⟩

theorem Mirrors.waited (h : Mirrors s r) (hi : s.slots[i]? = some t) {store : Store}
    {waiter : Option Nat} {k : Nat} (hs : r'.store = store)
    (hw : ∀ w, waiter = some w → ∃ k p, r'.party (i, k + 1) = some p ∧ p.tenure = .waits w)
    (hothers : ∀ j, j ≠ (i, k + 1) → r'.party j = r.party j) :
    Mirrors ({ s with store := store }.setSlot i { t with waiter := waiter }) r' := by
  obtain ⟨p, hp, hc, hg⟩ := h.slot i t hi
  obtain ⟨n, hn⟩ := h.room i
  refine h.changed hi hs ⟨p, (hothers _ (by simp)).trans hp, hc, hg⟩ hw ⟨max n (k + 1), ?_⟩ ?_
  · intro m hm
    rw [hothers (i, m + 1) (by simp; omega)]
    exact hn m (by omega)
  · exact fun j hj => hothers j fun he => hj (by rw [he])

theorem setSlot_self (hi : s.slots[i]? = some t) (store : Store) :
    ({ s with store := store } : Session).setSlot i t = { s with store := store } := by
  obtain ⟨hlt, rfl⟩ := List.getElem?_eq_some_iff.mp hi
  simp [Session.setSlot]

/-! ### Waiting threads -/

section Waiting

variable {ι : Type} [DecidableEq ι] {r : Crowd ι} {j : ι}

theorem run_wait (hj : r.party j = none) (id : Int) :
    let r' := r.run [⟨j, .know id⟩, ⟨j, .wait⟩, ⟨j, .call⟩]
    r'.store = (r.store.enter id).2.call (r.store.enter id).1 ∧
      (∃ p, r'.party j = some p ∧ p.tenure = .waits (r.store.enter id).1) ∧
      ∀ k, k ≠ j → r'.party k = r.party k := by
  have hknow : (r.step ⟨j, .know id⟩).getD r = r.settle ⟨j, .know id⟩ _ :=
    step_of_reply? (reply?_of_arrives hj (.learns id))
  have hwait (q : Party) (hq : q.tenure = .knows) (r : Crowd ι) (hr : r.party j = some q) :
      (r.step ⟨j, .wait⟩).getD r = r.settle ⟨j, .wait⟩ _ :=
    step_of_reply? (reply?_of_acts hr (.enters hq))
  have hcall (q : Party) (w : Nat) (hq : q.tenure = .waits w) (r : Crowd ι)
      (hr : r.party j = some q) : (r.step ⟨j, .call⟩).getD r = r.settle ⟨j, .call⟩ _ :=
    step_of_reply? (reply?_of_acts hr (.calls hq))
  simp only [run_cons, run_nil, hknow]
  rw [hwait _ rfl _ (party_settle_self _ _ _), hcall _ _ rfl _ (party_settle_self _ _ _)]
  refine ⟨rfl, ⟨_, party_settle_self _ _ _, rfl⟩, fun k hk => ?_⟩
  rw [party_settle_ne _ _ _ hk, party_settle_ne _ _ _ hk, party_settle_ne _ _ _ hk]

theorem run_interrupt {p : Party} {w : Nat} (hp : r.party j = some p) (ht : p.tenure = .waits w) :
    let r' := r.run [⟨j, .interrupt⟩, ⟨j, .call⟩]
    r'.store = (r.store.interrupt w).call w ∧
      (∃ q, r'.party j = some q ∧ q.tenure = .waits w) ∧
      ∀ k, k ≠ j → r'.party k = r.party k := by
  have hsignal : (r.step ⟨j, .interrupt⟩).getD r = r.settle ⟨j, .interrupt⟩ _ :=
    step_of_reply? (reply?_of_acts hp (.interrupted ht))
  have hcall (q : Party) (hq : q.tenure = .waits w) (r : Crowd ι) (hr : r.party j = some q) :
      (r.step ⟨j, .call⟩).getD r = r.settle ⟨j, .call⟩ _ :=
    step_of_reply? (reply?_of_acts hr (.calls hq))
  simp only [run_cons, run_nil, hsignal]
  rw [hcall _ (by exact ht) _ (party_settle_self _ _ _)]
  refine ⟨rfl, ⟨_, party_settle_self _ _ _, ht⟩, fun k hk => ?_⟩
  rw [party_settle_ne _ _ _ hk, party_settle_ne _ _ _ hk]

end Waiting

/-! ### Steps -/

theorem Party.tenure_of_owner? {p : Party} {g : Guard} (h : p.owner? = some g) :
    p.tenure = .owns g := by
  unfold owner? at h
  split at h
  · next ht => rw [ht, Option.some.inj h]
  · cases h

/-- The first party of the slot `i` can make the turn. It is answered as the session answers, and
the crowd then stands where the session stands. -/
def Echoed (r : Crowd (Nat × Nat)) (i : Nat) (d : Deal) (o : Counter.Outcome) : Prop :=
  ∃ x, r.reply? ⟨(i, 0), d⟩ = some x ∧ x.answer = o.answer ∧
    Mirrors o.session (r.run [⟨(i, 0), d⟩])

theorem Mirrors.single (h : Mirrors s r) (hi : s.slots[i]? = some t) {d : Deal} {x : Reply}
    (hx : r.reply? ⟨(i, 0), d⟩ = some x) (hc : x.party.counter = t.counter) :
    Mirrors ({ s with store := x.store }.setSlot i { t with guard := x.party.owner? })
      (r.run [⟨(i, 0), d⟩]) := by
  rw [run_cons, run_nil, step_of_reply? hx]
  exact h.acted hi rfl ⟨_, party_settle_self ⟨(i, 0), d⟩ r x, hc, rfl⟩
    fun j hj => party_settle_ne _ _ _ hj

theorem Mirrors.value (h : Mirrors s r) (hi : s.slots[i]? = some t) (n : Nat) :
    Echoed r i .value (s.onSlot i t (.value n)) := by
  obtain ⟨p, hp, hc, hg⟩ := h.slot i t hi
  have hx := reply?_of_acts (t := ⟨(i, 0), .value⟩) hp .reads
  have hm := h.single hi hx hc
  simp only [hg, setSlot_self hi, h.store] at hm
  refine ⟨_, hx, ?_, ?_⟩
  · simp only [Session.onSlot, ← hc, ← h.store]
    cases r.store.read p.counter <;> rfl
  · simp only [Session.onSlot]
    split <;> exact hm

theorem Mirrors.hand (h : Mirrors s r) (hi : s.slots[i]? = some t) (n : Nat) (hand : Hand) :
    Echoed r i (.hand hand) (s.onSlot i t (.hand n hand)) := by
  obtain ⟨p, hp, hc, hg⟩ := h.slot i t hi
  have hx := reply?_of_acts (t := ⟨(i, 0), .hand hand⟩) hp (.hands hand)
  have hm := h.single hi hx hc
  simp only [hg, setSlot_self hi] at hm
  refine ⟨_, hx, ?_, ?_⟩ <;> simp only [Session.onSlot, ← hc, ← h.store]
  exact hm

theorem Mirrors.destroy (h : Mirrors s r) (hi : s.slots[i]? = some t) (n : Nat) {g : Guard}
    (ht : t.guard = some g) : Echoed r i .destroy (s.onSlot i t (.destroy n)) := by
  obtain ⟨p, hp, hc, hg⟩ := h.slot i t hi
  have hx := reply?_of_acts (t := ⟨(i, 0), .destroy⟩) hp
    (.destroys (Party.tenure_of_owner? (hg.trans ht)))
  have hm := h.single hi hx hc
  refine ⟨_, hx, ?_, ?_⟩ <;> simp only [Session.onSlot, ht, ← h.store]
  exact hm

theorem Mirrors.drop (h : Mirrors s r) (hi : s.slots[i]? = some t) (n : Nat) {g : Guard}
    (ht : t.guard = some g) : Echoed r i .drop (s.onSlot i t (.drop n)) := by
  obtain ⟨p, hp, hc, hg⟩ := h.slot i t hi
  have hx := reply?_of_acts (t := ⟨(i, 0), .drop⟩) hp
    (.drops (Party.tenure_of_owner? (hg.trans ht)))
  have hm := h.single hi hx hc
  refine ⟨_, hx, ?_, ?_⟩ <;> simp only [Session.onSlot, ht, ← h.store]
  exact hm

theorem Mirrors.wait (h : Mirrors s r) (hi : s.slots[i]? = some t) (n : Nat) :
    ∃ k, r.party (i, k + 1) = none ∧
      let r' := r.run [⟨(i, k + 1), .know t.counter⟩, ⟨(i, k + 1), .wait⟩, ⟨(i, k + 1), .call⟩]
      Mirrors (s.onSlot i t (.wait n)).session r' ∧
        (s.onSlot i t (.wait n)).answer =
          answerOf (r'.store.stage? (s.store.enter t.counter).1) := by
  obtain ⟨k, hk⟩ := h.room i
  have hfree := hk k (Nat.le_refl k)
  obtain ⟨hs, ⟨q, hq, hqt⟩, hothers⟩ := run_wait hfree t.counter
  refine ⟨k, hfree, ?_, ?_⟩
  · simp only [Session.onSlot, ← h.store]
    split
    · -- The thread that was left waiting before, if any, is another one.
      rw [← setSlot_self hi]
      refine h.waited hi hs (fun w hw => ?_) hothers
      obtain ⟨l, p, hl, hlt⟩ := h.waiter i t w hi hw
      have hne : l ≠ k := by
        rintro rfl
        rw [hfree] at hl
        cases hl
      exact ⟨l, p, (hothers _ (by simpa using hne)).trans hl, hlt⟩
    · exact h.waited hi hs (fun w hw => ⟨k, q, hq, hqt.trans (by rw [Option.some.inj hw])⟩) hothers
  · rw [hs]
    simp only [Session.onSlot, ← h.store]
    generalize Store.stage? _ _ = stage
    cases stage with
    | none => rfl
    | some stage => cases stage <;> rfl

theorem Mirrors.interrupt (h : Mirrors s r) (hi : s.slots[i]? = some t) (n : Nat) :
    ∃ turns, Mirrors (s.onSlot i t (.interrupt n)).session (r.run turns) := by
  cases hw : t.waiter with
  | none => exact ⟨[], by simp only [Session.onSlot, hw]; exact h⟩
  | some w =>
    obtain ⟨k, q, hq, hqt⟩ := h.waiter i t w hi hw
    obtain ⟨hs, ⟨q', hq', hqt'⟩, hothers⟩ := run_interrupt hq hqt
    by_cases hst : s.store.stage? w = some .parked
    · refine ⟨[⟨(i, k + 1), .interrupt⟩, ⟨(i, k + 1), .call⟩], ?_⟩
      simp only [Session.onSlot, hw, hst, if_true]
      rw [h.store] at hs
      have hm : Mirrors (({ s with store := _ } : Session).setSlot i t) _ :=
        h.waited hi hs (fun v hv => ⟨k, q', hq', hqt'.trans
          (by rw [Option.some.inj (hw.symm.trans hv)])⟩) hothers
      rwa [setSlot_self hi] at hm
    · exact ⟨[], by simp only [Session.onSlot, hw, hst, if_false]; exact h⟩

theorem Mirrors.join (h : Mirrors s r) (hi : s.slots[i]? = some t) (n : Nat) :
    Mirrors (s.onSlot i t (.join n)).session r := by
  simp only [Session.onSlot]
  split
  · exact h.waited (k := 0) hi h.store (fun w hw => by cases hw) fun _ _ => rfl
  · exact h
  · exact h

theorem Mirrors.complete (h : Mirrors s r) (hr : Sound r) (hi : s.slots[i]? = some t)
    (n timeoutMs : Nat) (later : Option Hand) {g : Guard} (ht : t.guard = some g) :
    let o := s.onSlot i t (.complete n timeoutMs later)
    let r' := r.run (⟨(i, 0), .await timeoutMs⟩ ::
      (Session.turns timeoutMs later).map (ofRace (i, 0)) ++ [⟨(i, 0), .drop⟩])
    Mirrors o.session r' ∧ ∃ reply, o.answer = .completed (r'.result? (i, 0)) reply := by
  obtain ⟨p, hp, hc, hg⟩ := h.slot i t hi
  have hpt := Party.tenure_of_owner? (hg.trans ht)
  have hgc := ((hr.fits _ p hp).guard g (by simp [Party.guard?, hpt])).1
  obtain ⟨hs, ⟨q, hq, hqc, hqo⟩, hresult, hothers⟩ :=
    run_race hp hpt hgc timeoutMs (Session.turns timeoutMs later)
  simp only [Session.onSlot, ht, Session.complete, ← h.store, hresult]
  exact ⟨h.acted hi hs ⟨q, hq, hqc.trans hc, hqo⟩ hothers, _, rfl⟩

theorem Mirrors.onSlot (h : Mirrors s r) (hr : Sound r) (hi : s.slots[i]? = some t) (st : Step) :
    ∃ turns, Mirrors (s.onSlot i t st).session (r.run turns) := by
  -- A step that needs an owner leaves everything alone where there is none.
  cases st with
  | create | foreign id => exact ⟨[], h⟩
  | value n =>
    obtain ⟨x, -, -, hm⟩ := h.value hi n
    exact ⟨_, hm⟩
  | hand n hand =>
    obtain ⟨x, -, -, hm⟩ := h.hand hi n hand
    exact ⟨_, hm⟩
  | destroy n =>
    cases ht : t.guard with
    | none => exact ⟨[], by simp only [Session.onSlot, ht]; exact h⟩
    | some g =>
      obtain ⟨x, -, -, hm⟩ := h.destroy hi n ht
      exact ⟨_, hm⟩
  | drop n =>
    cases ht : t.guard with
    | none => exact ⟨[], by simp only [Session.onSlot, ht]; exact h⟩
    | some g =>
      obtain ⟨x, -, -, hm⟩ := h.drop hi n ht
      exact ⟨_, hm⟩
  | wait n =>
    obtain ⟨k, -, hm, -⟩ := h.wait hi n
    exact ⟨_, hm⟩
  | interrupt n => exact h.interrupt hi n
  | join n => exact ⟨[], h.join hi n⟩
  | complete n timeoutMs later =>
    cases ht : t.guard with
    | none => exact ⟨[], by simp only [Session.onSlot, ht]; exact h⟩
    | some g => exact ⟨_, (h.complete hr hi n timeoutMs later ht).1⟩

theorem Mirrors.step (h : Mirrors s r) (hr : Sound r) (st : Step) :
    ∃ turns, Mirrors (s.step st).session (r.run turns) := by
  cases hs : Session.Step.slot? st with
  | none =>
    cases st with
    | create =>
      have hm := h.opened (t := ⟨r.store.create.1, some ⟨r.store.create.1, false⟩, none⟩)
        .creates rfl rfl rfl
      rw [h.store] at hm
      exact ⟨_, hm⟩
    | foreign id =>
      have hm := h.opened (t := ⟨id, none, none⟩) (.learns id) rfl rfl rfl
      rw [h.store] at hm
      exact ⟨_, hm⟩
    | _ => cases hs
  | some i =>
    cases hi : s.slots[i]? with
    | none =>
      have hstep : s.step st = ⟨.noOwner, [], s⟩ := by
        cases st <;> cases hs <;> simp [Session.step, Session.Step.slot?, hi]
      exact ⟨[], by rw [hstep]; exact h⟩
    | some t =>
      have hstep : s.step st = s.onSlot i t st := by
        cases st <;> cases hs <;> simp [Session.step, Session.Step.slot?, hi]
      rw [hstep]
      exact h.onSlot hr hi st

theorem Mirrors.run {turns : List (Turn (Nat × Nat))} (h : Mirrors s ((start .empty).run turns))
    (steps : List Step) {o : Counter.Outcome} (ho : o ∈ s.run steps) :
    ∃ turns, Mirrors o.session ((start .empty).run turns) := by
  induction steps generalizing s turns with
  | nil => cases ho
  | cons st rest ih =>
    obtain ⟨more, hm⟩ := h.step (run_sound .empty turns) st
    rw [← run_append] at hm
    obtain rfl | ho := List.mem_cons.mp ho
    · exact ⟨turns ++ more, hm⟩
    · exact ih hm ho

/-- Wherever a session stands, a crowd can stand. -/
theorem exists_run_of_session (steps : List Step) {o : Counter.Outcome}
    (ho : o ∈ Session.empty.run steps) :
    ∃ turns, Mirrors o.session ((start .empty).run turns) := by
  have h : Mirrors .empty ((start .empty).run []) := mirrors_empty
  exact h.run steps ho

/-- So a session never shows a value that no counter can hold. -/
theorem inRange_of_session (steps : List Step) {o : Counter.Outcome}
    (ho : o ∈ Session.empty.run steps) {v : Int32} (hv : some v ∈ o.session.state) :
    InRange v := by
  obtain ⟨turns, h⟩ := exists_run_of_session steps ho
  obtain ⟨t, -, ht⟩ := List.mem_map.mp hv
  rw [← h.store] at ht
  exact run_inRange turns t.counter v ht

end HelperHandoff.Crowd
