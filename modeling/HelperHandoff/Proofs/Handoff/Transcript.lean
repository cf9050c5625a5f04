import HelperHandoff.Handoff
import HelperHandoff.Proofs.Completion.Cleanup
import HelperHandoff.Proofs.Locator

/-!
The order of what a handoff reports. It goes through the phases of its path one after the other, as
far as it gets, and ends in one terminal phase; which of them it has gone through, which it ends in
and what it returns are one and the same information. What else it reports has its place between
two phases: a search lies behind `locating`, a counter is created right before it is announced, the
message is sent right before it is, and whoever has created a counter removes it before the end.
-/

set_option autoImplicit false

namespace HelperHandoff

/-- The phases on the way of a handoff, in order. -/
def Phase.path : List Phase := [.locating, .connected, .counterAllocated, .sent, .waiting]

def Event.isPhase (e : Event) : Bool := e.name == "handoff_phase"

theorem Event.isPhase_of_isAttempt {e : Event} (h : e.isAttempt = true) : e.isPhase = false := by
  cases e <;> simp [isAttempt] at h <;> rfl

namespace Handoff

open Completion (Hand Judged Kept Outcome Race parting)
open Counter (Guard Store)

/-! ### The grammar -/

/-- How far along the path a handoff has come that ends so. -/
def passed : Outcome → Nat
  | .error (.setup _ _) => 0
  | .error (.bootstrap _ _) | .error (.connectTimeout _ _) => 1
  | .error (.counterAlloc _) => 2
  | .error (.encode _) | .error (.transport _) | .error (.partialSend _ _) => 3
  | .error (.waitTimeout _) | .error (.counterLost _) | .ok _ => 5

def terminal : Outcome → Phase
  | .ok _ => .done
  | .error e => e.phase

def closing : Outcome → Event
  | .ok code => .completed code.toInt
  | .error e => .failed e

theorem phase?_closing (o : Outcome) : (closing o).phase? = some (terminal o) := by
  cases o <;> rfl

/-- The phases that were entered and the outcome tell the same. -/
structure Corresponds (entered : List Phase) (o : Outcome) : Prop where
  unopened : entered = [] ↔ ∃ what source, o = .error (.setup what source)
  unfound : entered = [.locating] ↔
    (∃ program source, o = .error (.bootstrap program source)) ∨
      ∃ socket attempts, o = .error (.connectTimeout socket attempts)
  unallocated : entered = [.locating, .connected] ↔ ∃ source, o = .error (.counterAlloc source)
  unsent : entered = [.locating, .connected, .counterAllocated] ↔
    (∃ text, o = .error (.encode text)) ∨ (∃ source, o = .error (.transport source)) ∨
      ∃ sent expected, o = .error (.partialSend sent expected)
  complete : entered = Phase.path ↔
    (∃ waitedMs, o = .error (.waitTimeout waitedMs)) ∨
      (∃ source, o = .error (.counterLost source)) ∨ ∃ code, o = .ok code

theorem corresponds_passed (o : Outcome) : Corresponds (Phase.path.take (passed o)) o := by
  cases o with
  | ok code => constructor <;> simp [passed, Phase.path]
  | error e => cases e <;> constructor <;> simp [passed, Phase.path]

def found (tries : List Event) (attempt : Nat) : List Event :=
  .entered .locating :: tries ++ [.helperConnected attempt, .entered .connected]

def allocated (id : Int) : List Event := [.counterCreated id, .entered .counterAllocated]

def delivered (bytes : Nat) : List Event :=
  [.handoffSent bytes Protocol.descriptorCount, .entered .sent, .entered .waiting]

/-- What is reported of a wait: the code that was there when the deadline passed, if it was, the
removal, and that it has failed, if it has. -/
def Farewell (id : Int) (o : Outcome) (events : List Event) : Prop :=
  ∃ raced refused, events = raced ++ .counterRemoved id :: refused ∧
    (raced = [] ∨ ∃ code, o = .ok code ∧ raced = [.racedDeadline id code.toInt]) ∧
    (refused = [] ∨ ∃ e, refused = [.counterRemoveFailed id e])

/-- What a handoff reports before its last event, with the counter `id` if it gets to one. -/
inductive Transcript (id : Int) (o : Outcome) : List Event → Prop where
  | unopened (hp : passed o = 0) : Transcript id o []
  | unfound {tries : List Event} (hp : passed o = 1) (ht : ∀ x ∈ tries, x.isAttempt = true) :
      Transcript id o (.entered .locating :: tries)
  /-- A counter that was created and could not be set to rest has been removed. -/
  | unallocated {tries left : List Event} {attempt : Nat} (hp : passed o = 2)
      (ht : ∀ x ∈ tries, x.isAttempt = true) (hl : left = [] ∨ left = [.counterRemoved id]) :
      Transcript id o (found tries attempt ++ left)
  | unsent {tries : List Event} {attempt : Nat} (hp : passed o = 3)
      (ht : ∀ x ∈ tries, x.isAttempt = true) :
      Transcript id o (found tries attempt ++ (allocated id ++ [.counterRemoved id]))
  | awaited {tries farewell : List Event} {attempt bytes : Nat} (hp : passed o = 5)
      (ht : ∀ x ∈ tries, x.isAttempt = true) (hf : Farewell id o farewell) :
      Transcript id o (found tries attempt ++ (allocated id ++ (delivered bytes ++ farewell)))

/-! ### The phases in a transcript -/

theorem phases_of_attempts {tries : List Event} (h : ∀ x ∈ tries, x.isAttempt = true) :
    tries.filter Event.isPhase = [] :=
  List.filter_eq_nil_iff.mpr fun x hx => by simp [Event.isPhase_of_isAttempt (h x hx)]

theorem Farewell.phases {id : Int} {o : Outcome} {events : List Event}
    (h : Farewell id o events) : events.filter Event.isPhase = [] := by
  obtain ⟨raced, refused, rfl, hr, hf⟩ := h
  obtain rfl | ⟨code, -, rfl⟩ := hr <;> obtain rfl | ⟨e, rfl⟩ := hf <;> rfl

theorem phases_located {tries : List Event} (h : ∀ x ∈ tries, x.isAttempt = true) :
    (Event.entered .locating :: tries).filter Event.isPhase = [.entered .locating] := by
  rw [List.filter_cons_of_pos rfl, phases_of_attempts h]

theorem phases_found {tries : List Event} (h : ∀ x ∈ tries, x.isAttempt = true) (attempt : Nat) :
    (found tries attempt).filter Event.isPhase = [.entered .locating, .entered .connected] := by
  rw [found, List.filter_append, phases_located h]
  rfl

theorem Transcript.phases {id : Int} {o : Outcome} {body : List Event} (t : Transcript id o body) :
    body.filter Event.isPhase = (Phase.path.take (passed o)).map .entered := by
  cases t with
  | unopened hp =>
    rw [hp]
    rfl
  | unfound hp ht =>
    rw [phases_located ht, hp]
    rfl
  | unallocated hp ht hl =>
    rw [List.filter_append, phases_found ht, hp]
    obtain rfl | rfl := hl <;> rfl
  | unsent hp ht =>
    rw [List.filter_append, phases_found ht, hp]
    rfl
  | awaited hp ht hf =>
    simp only [List.filter_append, phases_found ht, hf.phases, hp]
    rfl

/-! ### The steps of a handoff -/

variable {σ κ φ : Type}

theorem events_after (acts : List Act) (r : Report σ κ φ) :
    Act.events (r.after acts).acts = Act.events acts ++ Act.events r.acts := by
  simp [Report.after]

theorem events_drop {g : Guard} (hg : g.removed = false) (s : Store) :
    Act.events (g.drop s).1 = [.counterRemoved g.counter] := by
  rw [Guard.drop, Guard.destroy_of_held hg]
  rfl

theorem events_abandon (s : Store) :
    Act.events (Guard.abandon s).1 = [.counterRemoved (Guard.create s).1.counter] := by
  simp only [Guard.abandon, Act.events_cons, events_drop]
  rfl

theorem events_giveUp (e : HandoffError) (acts : List Act) (conn : κ) (message : Message φ)
    (early : List Hand) {g : Guard} (hg : g.removed = false) (state : σ) (store : Store) :
    Act.events (giveUp e acts conn message early g state store).acts =
      Act.events acts ++ [.counterRemoved g.counter] := by
  simp [giveUp, events_drop hg]

theorem events_judged {id : Int} {o : Outcome} {judged : List Act} (h : Judged id o judged) :
    Act.events judged = [] ∨
      ∃ code, o = .ok code ∧ Act.events judged = [.racedDeadline id code.toInt] := by
  obtain rfl | ⟨code, ho, rfl⟩ := h
  · exact .inl rfl
  · exact .inr ⟨code, ho, rfl⟩

theorem farewell_of_judged {id : Int} {o : Outcome} {judged : List Act} (h : Judged id o judged)
    (foreign : Bool) : Farewell id o (Act.events (judged ++ parting id foreign)) := by
  rw [Act.events_append]
  cases foreign with
  | false => exact ⟨_, [], rfl, events_judged h, .inl rfl⟩
  | true => exact ⟨_, _, rfl, events_judged h, .inr ⟨_, rfl⟩⟩

theorem passed_of_settled {r : Race} {turns : List Completion.Turn} {o : Outcome}
    (h : r.Settled turns o) : passed o = 5 := by
  obtain ⟨before, woken, -, rfl⟩ | ⟨before, e, -, rfl⟩ := h
  · cases hv : (r.run before).verdict woken with
    | ok code => rfl
    | error e =>
      obtain rfl | ⟨source, rfl⟩ := Race.judge_error hv <;> rfl
  · rfl

theorem await_transcript (W : World σ κ φ) (config : Config) (conn : κ) (message : Message φ)
    (early : List Hand) {g : Guard} (state : σ) {store : Store} (hg : g.removed = false)
    (k : Kept g.counter [] store) {o : Outcome}
    (h : (await W config conn message early g state store).result? = some o) :
    passed o = 5 ∧ ∃ farewell, Farewell g.counter o farewell ∧
      Act.events (await W config conn message early g state store).acts =
        .entered .waiting :: farewell := by
  cases hm : W.monitorRefusal state with
  | some e =>
    simp only [await, hm] at h ⊢
    obtain rfl := Option.some.inj h
    exact ⟨rfl, [.counterRemoved g.counter], ⟨[], [], rfl, .inl rfl, .inl rfl⟩,
      events_giveUp _ _ _ _ _ hg _ _⟩
  | none =>
    simp only [await, hm] at h ⊢
    have hs := Race.run_sound (Race.sound_startAfter hg k early config.waitMs)
      (W.turns conn message state)
    obtain ⟨judged, hj, ha⟩ := hs.acts_of_returned h
    have hid := (Race.run_later (W.turns conn message state)
      (Race.startAfter early g config.waitMs store)).id
    rw [hid] at hj ha
    refine ⟨passed_of_settled (Race.run_settled rfl _ (Race.outcome?_of_result? h)),
      _, ?_, Act.events_report _ _⟩
    rw [ha]
    exact farewell_of_judged hj _

def SendReported (s : Transport.Sending φ) : Prop :=
  match s.result? with
  | none => True
  | some (.error e) => passed (.error e) = 3 ∧ Act.events s.acts = []
  | some (.ok ()) => ∃ n, Act.events s.acts = [.handoffSent n Protocol.descriptorCount]

theorem sendReported_send (payload : Bytes) (bundle : Bundle φ) (answers : List Transmission) :
    SendReported (Transport.send payload bundle answers) := by
  induction answers with
  | nil => trivial
  | cons answer later ih =>
    cases answer with
    | interrupted => exact ih
    | refused e => exact ⟨rfl, rfl⟩
    | accepted n =>
      by_cases hn : n = payload.length
      · simp only [Transport.send, if_pos hn]
        exact ⟨_, rfl⟩
      · simp only [Transport.send, if_neg hn]
        exact ⟨rfl, rfl⟩

def Sent (id : Int) (o : Outcome) (events : List Event) : Prop :=
  (passed o = 3 ∧ events = [.counterRemoved id]) ∨
    passed o = 5 ∧ ∃ bytes farewell, Farewell id o farewell ∧ events = delivered bytes ++ farewell

theorem deliver_transcript (W : World σ κ φ) (config : Config) (i : Invocation) (bundle : Bundle φ)
    (conn : κ) {g : Guard} (state : σ) {store : Store} (hg : g.removed = false)
    (k : Kept g.counter [] store) {o : Outcome}
    (h : (deliver W config i bundle conn g state store).result? = some o) :
    Sent g.counter o (Act.events (deliver W config i bundle conn g state store).acts) := by
  have hsend := sendReported_send (i.payload (Int32.ofInt g.counter)).bytes bundle
    (W.answers conn ⟨(i.payload (Int32.ofInt g.counter)).bytes, bundle.files⟩ state)
  simp only [deliver] at h ⊢
  -- From here on all that matters of the sending is its report.
  generalize Transport.send _ _ _ = s at hsend h ⊢
  obtain ⟨result?, acts, message⟩ := s
  match result? with
  | none => cases h
  | some (.error e) =>
    obtain rfl := Option.some.inj h
    obtain ⟨hp, ha⟩ := hsend
    refine .inl ⟨hp, ?_⟩
    simp only [events_giveUp _ _ _ _ _ hg]
    rw [ha]
    rfl
  | some (.ok ()) =>
    obtain ⟨n, ha⟩ := hsend
    obtain ⟨hp, farewell, hf, he⟩ := await_transcript W config conn message _ state hg k h
    refine .inr ⟨hp, n, farewell, hf, ?_⟩
    simp only [events_after, Act.events_append, he]
    rw [ha]
    rfl

theorem allocate_transcript (W : World σ κ φ) (config : Config) (i : Invocation)
    (bundle : Bundle φ) (conn : κ) (state : σ) (store : Store) {o : Outcome}
    (h : (allocate W config i bundle conn state store).result? = some o) {tries : List Event}
    (ht : ∀ x ∈ tries, x.isAttempt = true) (attempt : Nat) :
    Transcript (Guard.create store).1.counter o
      (found tries attempt ++ Act.events (allocate W config i bundle conn state store).acts) := by
  simp only [allocate] at h ⊢
  cases hc : W.counterRefusal state with
  | some e =>
    simp only [hc] at h ⊢
    obtain rfl := Option.some.inj h
    exact .unallocated rfl ht (.inl rfl)
  | none =>
    cases hr : W.restRefusal state with
    | some e =>
      simp only [hc, hr] at h ⊢
      obtain rfl := Option.some.inj h
      exact .unallocated rfl ht (.inr (events_abandon store))
    | none =>
      simp only [hc, hr] at h ⊢
      rw [events_after]
      obtain ⟨hp, he⟩ | ⟨hp, bytes, farewell, hf, he⟩ :=
        deliver_transcript W config i bundle conn state rfl (Completion.kept_create store) h
      · rw [he]
        exact .unsent hp ht
      · rw [he]
        exact .awaited hp ht hf

theorem endpoint_attempts (W : World σ κ φ) (program socket : Bytes)
    (spawnEnv : List (Bytes × Bytes)) (t : σ) :
    ∀ x ∈ ((endpoint W program socket spawnEnv).spawn t).2.1, x.isAttempt = true := by
  simp only [endpoint]
  obtain ⟨started, u⟩ := W.spawn (Command.helper program socket spawnEnv) t
  cases started <;> simp [Event.isAttempt]

theorem passed_of_isUnfound {e : HandoffError} (h : e.isUnfound = true) :
    passed (.error e) = 1 := by
  cases e <;> simp [HandoffError.isUnfound] at h <;> rfl

theorem search_transcript (W : World σ κ φ) (config : Config) (i : Invocation) (bundle : Bundle φ)
    (state : σ) (store : Store) {o : Outcome}
    (h : (search W config i bundle state store).result? = some o) :
    Transcript (Guard.create store).1.counter o
      (Act.events (search W config i bundle state store).acts) := by
  have hr := Endpoint.reported_locate (endpoint W config.helperProgram config.socketPath i.spawnEnv)
    config.connect state (endpoint_attempts W _ _ _)
  simp only [search] at h ⊢
  generalize Endpoint.locate _ _ _ = s at hr h ⊢
  obtain ⟨result, acts, state'⟩ := s
  cases result with
  | error e =>
    obtain rfl := Option.some.inj h
    exact .unfound (passed_of_isUnfound hr.1) hr.2
  | ok conn =>
    obtain ⟨tries, attempt, he, ht⟩ := hr
    have ha := allocate_transcript W config i bundle conn state' store h ht attempt
    simpa [events_after, found, he] using ha

theorem steps_transcript (W : World σ κ φ) (config : Config) (i : Invocation) (state : σ)
    (store : Store) {o : Outcome} (h : (steps W config i state store).result? = some o) :
    Transcript (Guard.create store).1.counter o (Act.events (steps W config i state store).acts) := by
  simp only [steps] at h ⊢
  cases hd : W.openDirectory i.cwd state with
  | error e =>
    simp only [hd] at h ⊢
    obtain rfl := Option.some.inj h
    exact .unopened rfl
  | ok cwd =>
    simp only [hd] at h ⊢
    have hs := search_transcript W config i _ state store h
    simpa [events_after, Act.events_cons, Act.event?] using hs

theorem closed_of_result? {r : Report σ κ φ} {o : Outcome} (h : r.closed.result? = some o) :
    r.result? = some o ∧ Act.events r.closed.acts = Act.events r.acts ++ [closing o] := by
  unfold Report.closed at h ⊢
  cases hr : r.result? with
  | none => simp [hr] at h
  | some o' =>
    cases o' with
    | ok code =>
      simp only [hr] at h ⊢
      obtain rfl := Option.some.inj h
      exact ⟨rfl, Act.events_append _ _⟩
    | error e =>
      simp only [hr] at h ⊢
      obtain rfl := Option.some.inj h
      exact ⟨rfl, Act.events_append _ _⟩

/-! ### The whole -/

def hangingUp : World Nat Unit Unit where
  stdin := ()
  stdout := ()
  stderr := ()
  openDirectory _ _ := .ok ()
  connect _ n := if n = 0 then (.error (.system .connectionRefused), 1) else (.ok (), n + 1)
  spawn _ n := (.ok 7, n)
  counterRefusal _ := none
  restRefusal _ := none
  answers _ _ _ := [.interrupted, .refused (.system .brokenPipe)]
  meanwhile _ _ _ := [.publish 3]
  monitorRefusal _ := none
  turns _ _ _ := []

end Handoff

end HelperHandoff
