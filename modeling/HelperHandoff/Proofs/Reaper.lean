import HelperHandoff.Reaper.Course
import Mathlib.Data.List.Induction
import Mathlib.Data.List.Count
import Mathlib.Data.List.Perm.Basic

/-!
No helper is lost and none is reported twice. Whatever the order of events, each helper that has
been handed over is in the queue, in the list or among the collected; it leaves the list at a pass
that finds it ended or finds that somebody else has waited for it, and only in the first case there
is a report of it, one report, with its own status and socket.
-/

set_option autoImplicit false

namespace HelperHandoff

namespace Reaper

theorem Poll.keeps_eq_false_iff {a : Poll} :
    a.keeps = false ↔ (∃ status, a = .ended status) ∨ a = .failed .noChild := by
  cases a <;> simp [keeps]

/-! ### One pass -/

/-- A helper that the watch has let go of, and what the system said of it then. -/
structure Departure where
  helper : SpawnedHelper
  answer : Poll
  deriving DecidableEq, Repr

def Departure.report? (d : Departure) : Option Report := reportOf d.helper d.answer

def departures (poll : Nat → Poll) (held : List SpawnedHelper) : List Departure :=
  (leaving poll held).map fun h => ⟨h, poll h.pid⟩

section Pass

variable (poll : Nat → Poll) (held : List SpawnedHelper)

theorem map_helper_departures :
    (departures poll held).map Departure.helper = leaving poll held := by
  simp [departures, Function.comp_def]

theorem mem_departures {d : Departure} (hd : d ∈ departures poll held) :
    d.helper ∈ held ∧ d.answer = poll d.helper.pid ∧ d.answer.keeps = false := by
  obtain ⟨h, hh, rfl⟩ := List.mem_map.mp hd
  obtain ⟨hm, hk⟩ := List.mem_filter.mp hh
  exact ⟨hm, rfl, by simpa using hk⟩

theorem reportOf_of_keeps (h : SpawnedHelper) {a : Poll} (ha : a.keeps = true) :
    reportOf h a = none := by
  cases a with
  | ended status => cases ha
  | running | failed e => rfl

theorem reports_eq_departures :
    reports poll held = (departures poll held).filterMap Departure.report? := by
  rw [departures, List.filterMap_map, leaving, List.filterMap_filter, reports]
  refine List.filterMap_congr fun h _ => ?_
  cases hk : (poll h.pid).keeps with
  | true => simp [reportOf_of_keeps h hk]
  | false => simp [Departure.report?]

theorem count_staying_add_count_leaving (h : SpawnedHelper) :
    (staying poll held).count h + (leaving poll held).count h = held.count h := by
  have hp : (staying poll held ++ leaving poll held).Perm held :=
    List.filter_append_perm _ held
  rw [← List.count_append, hp.count_eq]

theorem length_staying : (staying poll held).length = held.countP fun h => (poll h.pid).keeps :=
  List.countP_eq_length_filter.symm

theorem staying_eq_nil_iff : staying poll held = [] ↔ ∀ h ∈ held, (poll h.pid).keeps = false := by
  simp [staying]

end Pass

/-! ### One turn -/

end Reaper

namespace ReaperWatch

open Reaper (Poll)

def adopt (w : ReaperWatch) : ReaperWatch :=
  match w.queue with
  | h :: rest => { w with queue := rest, held := w.held ++ [h] }
  | [] => w

theorem turn_of_finished {w : ReaperWatch} (h : w.finished = true) (poll : Nat → Poll) :
    w.turn poll = w := by
  simp [turn, h]

theorem turn_of_not_finished {w : ReaperWatch} (h : w.finished = false) (poll : Nat → Poll) :
    w.turn poll = { w.adopt.sweep poll with
      finished := !w.isOpen && w.queue.isEmpty && (w.adopt.sweep poll).held.isEmpty } := by
  cases hq : w.queue with
  | cons a rest => simp [turn, adopt, sweep, h, hq]
  | nil =>
    cases ho : w.isOpen with
    | true => simp [turn, adopt, collect, sweep, h, hq, ho]
    | false =>
      have he : decide ((Reaper.staying poll w.held).length = 0) =
          (Reaper.staying poll w.held).isEmpty := by
        rw [Bool.eq_iff_iff]
        simp
      simp [turn, adopt, collect, sweep, h, hq, ho, ← he]

end ReaperWatch

namespace Reaper

/-! ### Events -/

theorem handedOver_concat (events : List Event) (e : Event) :
    handedOver (events ++ [e]) =
      handedOver events ++ if Event.close ∈ events then [] else handedOver [e] := by
  induction events with
  | nil => simp [handedOver]
  | cons a rest ih => cases a <;> simp [handedOver, ih]

/-- Of all that the system has said of the child, this was the last. -/
def SaidLast (events : List Event) (pid : Nat) (answer : Poll) : Prop :=
  ∃ before after, events = before ++ .becomes pid answer :: after ∧
    ∀ a, Event.becomes pid a ∉ after

theorem SaidLast.concat {events : List Event} {pid : Nat} {answer : Poll}
    (h : SaidLast events pid answer) {e : Event} (he : ∀ a, e ≠ .becomes pid a) :
    SaidLast (events ++ [e]) pid answer := by
  obtain ⟨before, after, rfl, ha⟩ := h
  refine ⟨before, after ++ [e], by simp, fun a hm => ?_⟩
  rcases List.mem_append.mp hm with hm | hm
  · exact ha a hm
  · exact he a (List.mem_singleton.mp hm).symm

namespace Course

theorem poll_step (c : Course) (e : Event) (pid : Nat) :
    (c.step e).poll pid = c.poll pid ∧ (∀ a, e ≠ .becomes pid a) ∨
      e = .becomes pid ((c.step e).poll pid) := by
  cases e with
  | becomes n a =>
    by_cases hn : pid = n
    · subst hn
      exact .inr (by simp [step])
    · exact .inl ⟨by simp [step, hn], fun b hb => hn (by cases hb; rfl)⟩
  | _ => exact .inl ⟨rfl, fun a ha => by cases ha⟩

theorem saidLast_of_poll {events : List Event} {pid : Nat} (h : (run events).poll pid ≠ .running) :
    SaidLast events pid ((run events).poll pid) := by
  induction events using List.reverseRecOn with
  | nil => exact absurd rfl h
  | append_singleton events e ih =>
    rw [run_concat] at h ⊢
    rcases (run events).poll_step e pid with ⟨hs, he⟩ | he
    · rw [hs] at h ⊢
      exact (ih h).concat he
    · exact ⟨events, [], by rw [← he], by simp⟩

theorem isOpen_turn (w : ReaperWatch) (poll : Nat → Poll) : (w.turn poll).isOpen = w.isOpen := by
  cases hf : w.finished with
  | true => rw [ReaperWatch.turn_of_finished hf]
  | false =>
    rw [ReaperWatch.turn_of_not_finished hf]
    unfold ReaperWatch.adopt
    cases w.queue <;> rfl

theorem isOpen_run (events : List Event) :
    (run events).watch.isOpen = !decide (Event.close ∈ events) := by
  induction events using List.reverseRecOn with
  | nil => rfl
  | append_singleton events e ih =>
    rw [run_concat]
    cases e with
    | handOver h =>
      have hs : ((run events).watch.handOver h).isOpen = (run events).watch.isOpen := by
        unfold ReaperWatch.handOver
        split <;> rfl
      simp [step, hs, ih]
    | close => simp [step, ReaperWatch.close]
    | becomes n a => simp [step, ih]
    | turn => simp [step, isOpen_turn, ih]
    | pass => simp [step, ReaperWatch.collect, ReaperWatch.sweep, ih]

end Course

theorem handedOver_of_asks {events : List Event} {e : Event} (he : e.asks = true) :
    handedOver (events ++ [e]) = handedOver events := by
  cases e with
  | turn | pass => simp [handedOver_concat, handedOver]
  | _ => cases he

/-- The helper has left at a pass, with what the system had last said of it by then. -/
structure Left (events : List Event) (d : Departure) : Prop where
  pass : ∃ before e, before ++ [e] <+: events ∧ e.asks = true ∧
    d.helper ∈ handedOver before ∧ SaidLast before d.helper.pid d.answer
  answer : (∃ status, d.answer = .ended status) ∨ d.answer = .failed .noChild

theorem Left.concat {events : List Event} {d : Departure} (h : Left events d) (e : Event) :
    Left (events ++ [e]) d := by
  obtain ⟨⟨before, a, hp, ha⟩, hd⟩ := h
  exact ⟨⟨before, a, hp.trans (List.prefix_append _ _), ha⟩, hd⟩

/-- The helpers that have come to the list and those that have left it, each in its order. -/
structure Books (events : List Event) (c : Course) (adopted : List SpawnedHelper)
    (departed : List Departure) : Prop where
  handed : handedOver events = adopted ++ c.watch.queue
  order : c.watch.held.Sublist adopted
  places : ∀ h, c.watch.held.count h + c.watch.collected.count h = adopted.count h
  collected : c.watch.collected = departed.map Departure.helper
  reports : c.watch.reports = departed.filterMap Departure.report?
  left : ∀ d ∈ departed, Left events d
  finished : c.watch.finished = true →
    c.watch.isOpen = false ∧ c.watch.queue = [] ∧ c.watch.held = []

namespace Books

variable {events : List Event} {c : Course} {adopted : List SpawnedHelper}
  {departed : List Departure}

theorem start : Books [] .start [] [] where
  handed := rfl
  order := List.Sublist.refl _
  places _ := rfl
  collected := rfl
  reports := rfl
  left _ hd := by cases hd
  finished h := by cases h

theorem concat (b : Books events c adopted departed) {e : Event}
    (he : handedOver (events ++ [e]) = handedOver events) :
    Books (events ++ [e]) c adopted departed :=
  { b with handed := he.trans b.handed, left := fun d hd => (b.left d hd).concat e }

theorem adopt (b : Books events c adopted departed) :
    ∃ adopted', Books events { c with watch := c.watch.adopt } adopted' departed := by
  cases hq : c.watch.queue with
  | nil =>
    have hw : c.watch.adopt = c.watch := by simp [ReaperWatch.adopt, hq]
    exact ⟨adopted, by rw [hw]; exact b⟩
  | cons h rest =>
    have hw : c.watch.adopt = { c.watch with queue := rest, held := c.watch.held ++ [h] } := by
      simp [ReaperWatch.adopt, hq]
    refine ⟨adopted ++ [h], ?_⟩
    rw [hw]
    exact
      { handed := by simp [b.handed, hq]
        order := b.order.append_right [h]
        places := fun k => by
          have hp := b.places k
          simp only [List.count_append]
          omega
        collected := b.collected
        reports := b.reports
        left := b.left
        finished := fun hf => by
          have hn := (b.finished hf).2.1
          rw [hq] at hn
          cases hn }

theorem sweep (b : Books events c adopted departed) (hs : c.poll = (Course.run events).poll)
    {e : Event} (he : e.asks = true) :
    Books (events ++ [e]) { c with watch := c.watch.sweep c.poll } adopted
      (departed ++ departures c.poll c.watch.held) where
  handed := (handedOver_of_asks he).trans b.handed
  order := List.filter_sublist.trans b.order
  places h := by
    have hp := b.places h
    have hh := count_staying_add_count_leaving c.poll c.watch.held h
    simp only [ReaperWatch.sweep, List.count_append]
    omega
  collected := by
    rw [List.map_append, map_helper_departures, ← b.collected]
    rfl
  reports := by
    rw [List.filterMap_append, ← reports_eq_departures, ← b.reports]
    rfl
  left d hd := by
    rcases List.mem_append.mp hd with hd | hd
    · exact (b.left d hd).concat e
    · obtain ⟨hm, ha, hk⟩ := mem_departures _ _ hd
      have hh : d.helper ∈ handedOver events := by
        rw [b.handed]
        exact List.mem_append_left _ (b.order.subset hm)
      have hr : (Course.run events).poll d.helper.pid ≠ .running := by
        intro hr
        rw [ha, hs, hr] at hk
        cases hk
      have hl := Course.saidLast_of_poll hr
      rw [← hs, ← ha] at hl
      exact ⟨⟨events, e, List.prefix_refl _, he, hh, hl⟩, Poll.keeps_eq_false_iff.mp hk⟩
  finished hf := by
    obtain ⟨ho, hq, hh⟩ := b.finished hf
    exact ⟨ho, hq, by simp [ReaperWatch.sweep, staying, hh]⟩

theorem turn (b : Books events c adopted departed) (hs : c.poll = (Course.run events).poll) :
    ∃ adopted' departed', Books (events ++ [.turn]) (c.step .turn) adopted' departed' := by
  cases hf : c.watch.finished with
  | true =>
    refine ⟨adopted, departed, ?_⟩
    rw [Course.step, ReaperWatch.turn_of_finished hf]
    exact b.concat (handedOver_of_asks rfl)
  | false =>
    obtain ⟨adopted', ha⟩ := b.adopt
    have hb := ha.sweep hs (e := .turn) rfl
    refine ⟨adopted', departed ++ departures c.poll c.watch.adopt.held, ?_⟩
    rw [Course.step, ReaperWatch.turn_of_not_finished hf]
    refine { hb with finished := fun he => ?_ }
    simp only [Bool.and_eq_true, Bool.not_eq_true', List.isEmpty_iff] at he
    obtain ⟨⟨ho, hq⟩, hh⟩ := he
    have hw : c.watch.adopt = c.watch := by simp [ReaperWatch.adopt, hq]
    rw [hw] at hh ⊢
    exact ⟨ho, hq, hh⟩

theorem handOver (b : Books events c adopted departed) (h : SpawnedHelper)
    (ho : c.watch.isOpen = !decide (Event.close ∈ events)) :
    Books (events ++ [.handOver h]) (c.step (.handOver h)) adopted departed := by
  by_cases hc : Event.close ∈ events
  · have hw : c.step (.handOver h) = c := by simp [Course.step, ReaperWatch.handOver, ho, hc]
    rw [hw]
    exact b.concat (by simp [handedOver_concat, hc])
  · have hw : c.step (.handOver h) =
        { c with watch := { c.watch with queue := c.watch.queue ++ [h] } } := by
      simp [Course.step, ReaperWatch.handOver, ho, hc]
    rw [hw]
    exact
      { b with
        handed := by simp [handedOver_concat, hc, handedOver, b.handed]
        left := fun d hd => (b.left d hd).concat _
        finished := fun hf => by
          have hn := (b.finished hf).1
          simp [ho, hc] at hn }

end Books

theorem exists_books (events : List Event) :
    ∃ adopted departed, Books events (Course.run events) adopted departed := by
  induction events using List.reverseRecOn with
  | nil => exact ⟨[], [], .start⟩
  | append_singleton events e ih =>
    obtain ⟨adopted, departed, b⟩ := ih
    rw [Course.run_concat]
    cases e with
    | handOver h => exact ⟨adopted, departed, b.handOver h (Course.isOpen_run events)⟩
    | close =>
      have hb := b.concat (e := .close) (by simp [handedOver_concat, handedOver])
      exact ⟨adopted, departed,
        { hb with finished := fun hf => ⟨rfl, (b.finished hf).2⟩ }⟩
    | becomes n a =>
      have hb := b.concat (e := .becomes n a) (by simp [handedOver_concat, handedOver])
      exact ⟨adopted, departed, { hb with }⟩
    | turn => exact b.turn rfl
    | pass => exact ⟨adopted, _, b.sweep rfl rfl⟩

/-- Where the helpers are, and what has been reported of them. -/
structure Accounted (events : List Event) (c : Course) : Prop where
  /-- A helper is as often in the three places together as it has been handed over. -/
  places : ∀ h, c.watch.queue.count h + c.watch.held.count h + c.watch.collected.count h =
    (handedOver events).count h
  order : ∃ adopted, handedOver events = adopted ++ c.watch.queue ∧
    c.watch.held.Sublist adopted
  departures : ∃ departed : List Departure,
    c.watch.collected = departed.map Departure.helper ∧
      c.watch.reports = departed.filterMap Departure.report? ∧ ∀ d ∈ departed, Left events d
  passes : ∀ n w, c.watch.collect c.poll = (n, w) →
    n = w.held.length ∧ n = c.watch.held.countP (fun h => (c.poll h.pid).keeps) ∧
      ∀ h ∈ w.held, (c.poll h.pid).keeps = true
  turns : c.watch.finished = false →
    ∀ h ∈ (c.step .turn).watch.held, (c.poll h.pid).keeps = true
  ends : (c.step .turn).watch.finished = true ↔ c.watch.finished = true ∨
    Event.close ∈ events ∧ c.watch.queue = [] ∧ ∀ h ∈ c.watch.held, (c.poll h.pid).keeps = false
  finished : c.watch.finished = true → Event.close ∈ events ∧
    ∀ h, c.watch.collected.count h = (handedOver events).count h

theorem keeps_of_mem_staying {poll : Nat → Poll} {held : List SpawnedHelper} {h : SpawnedHelper}
    (hm : h ∈ staying poll held) : (poll h.pid).keeps = true :=
  (List.mem_filter.mp hm).2

theorem finished_turn_iff (w : ReaperWatch) (poll : Nat → Poll) :
    (w.turn poll).finished = true ↔ w.finished = true ∨
      w.isOpen = false ∧ w.queue = [] ∧ ∀ h ∈ w.held, (poll h.pid).keeps = false := by
  cases hf : w.finished with
  | true => simp [ReaperWatch.turn_of_finished hf, hf]
  | false =>
    rw [ReaperWatch.turn_of_not_finished hf]
    cases hq : w.queue with
    | cons a rest => simp
    | nil =>
      have hw : w.adopt = w := by simp [ReaperWatch.adopt, hq]
      have hs := staying_eq_nil_iff poll w.held
      simp [hw, ReaperWatch.sweep, hs]

/-- One helper ends and is reported; somebody else waits for the other. -/
example :
    (Course.run [.handOver ⟨7, []⟩, .turn, .handOver ⟨8, []⟩, .becomes 7 (.ended (.exited 3)),
      .turn, .becomes 8 (.failed .noChild), .close, .turn]).watch =
        ⟨[], false, [], [⟨7, []⟩, ⟨8, []⟩], [⟨7, .exited 3, []⟩], true⟩ := by
  decide

end Reaper

end HelperHandoff
