import HelperHandoff.Proofs.Completion.Progress

/-!
What a completion leaves behind, whatever others do to the counter meanwhile. The counter is gone,
its owner has asked for one removal and no more, no thread sleeps at it, and a code that is returned
was in the counter when the client looked.
-/

set_option autoImplicit false

namespace HelperHandoff

def Act.removal? : Act → Option (Int × Option IoError)
  | .removeCounter semid failure => some (semid, failure)
  | _ => none

def Act.removals (acts : List Act) : List (Int × Option IoError) := acts.filterMap removal?

def Act.eventsNamed (name : String) (acts : List Act) : List Event :=
  (events acts).filter (·.name == name)

namespace Completion

def tooLate (deeds : List Deed) : Option IoError :=
  if Removed deeds then some (.system .invalidArgument) else none

theorem removals_judged {id : Int} {o : Outcome} {judged : List Act} (h : Judged id o judged)
    (deeds : List Deed) :
    Act.removals (judged ++ parting id (decide (Removed deeds))) = [(id, tooLate deeds)] := by
  obtain rfl | ⟨code, -, rfl⟩ := h <;> by_cases hr : Removed deeds <;>
    simp [parting, tooLate, hr] <;> rfl

theorem removed_judged {id : Int} {o : Outcome} {judged : List Act} (h : Judged id o judged)
    (foreign : Bool) :
    Act.eventsNamed "counter_removed" (judged ++ parting id foreign) = [.counterRemoved id] := by
  obtain rfl | ⟨code, -, rfl⟩ := h <;> cases foreign <;> rfl

theorem removeFailed_judged {id : Int} {o : Outcome} {judged : List Act} (h : Judged id o judged)
    (deeds : List Deed) :
    Act.eventsNamed "counter_remove_failed" (judged ++ parting id (decide (Removed deeds))) =
      (tooLate deeds).toList.map (.counterRemoveFailed id) := by
  obtain rfl | ⟨code, -, rfl⟩ := h <;> by_cases hr : Removed deeds <;>
    simp [parting, tooLate, hr] <;> rfl

namespace Race

/-- All that the owner of the counter has done once its life has ended as well. -/
def history (r : Race) : List Act := r.client.acts ++ (r.client.guard.drop r.store).1

/-- What has become of everything once a client has returned this outcome. -/
structure CleanedUp (start : Race) (turns : List Turn) (outcome : Outcome) : Prop where
  gone : ∀ later, (start.run (turns ++ later)).store.value? start.id = none
  /-- One removal has been asked for; it has failed exactly if others have removed the counter. -/
  removals : Act.removals (start.run turns).history =
    [(start.id, tooLate (start.run turns).deeds)]
  removed : Act.eventsNamed "counter_removed" (start.run turns).history =
    [.counterRemoved start.id]
  removeFailed : Act.eventsNamed "counter_remove_failed" (start.run turns).history =
    (tooLate (start.run turns).deeds).toList.map (.counterRemoveFailed start.id)
  /-- The monitor does not sleep, and does not fall asleep again. -/
  awake : ∀ later, (start.run (turns ++ later)).store.stage? start.client.monitor ≠ some .parked
  /-- The client was never held up at the join: the monitor had only to take its turns. -/
  joins : ∀ before o, before <+: turns → (start.run before).client.stage = .joining o →
    (start.run (before ++ parted)).result? = some o
  code : ∀ code, outcome = .ok code → ∃ before woken v, start.ReadsAfter turns before woken ∧
    (start.run before).store.value? start.id = some v ∧ v ≠ 0 ∧ v.toInt = code.toInt + 1000
  error : ∀ e, outcome = .error e →
    e = .waitTimeout start.client.timeoutMs ∨ ∃ source, e = .counterLost source

variable {r : Race} {o : Outcome}

theorem stage_of_result? (h : r.result? = some o) : r.client.stage = .returned o := by
  unfold result? Client.result? at h
  cases hs : r.client.stage with
  | returned o' =>
    simp only [hs] at h
    rw [Option.some.inj h]
  | _ => simp [hs] at h

theorem Sound.acts_of_returned (h : Sound r) (hr : r.result? = some o) :
    ∃ judged, Judged r.id o judged ∧
      r.client.acts = judged ++ parting r.id (decide (Removed r.deeds)) := by
  have ht := h.told
  rw [stage_of_result? hr] at ht
  exact ht

theorem Sound.history_of_returned (h : Sound r) (hr : r.result? = some o) :
    r.history = r.client.acts := by
  have hg : r.client.guard.removed = true := by simp [h.guard, stage_of_result? hr, Stage.isOver]
  simp [history, Counter.Guard.drop, Counter.Guard.destroy, hg]

theorem isOver_run_append {r : Race} {turns : List Turn} {o : Outcome}
    (h : (r.run turns).result? = some o) (later : List Turn) :
    (r.run (turns ++ later)).client.stage.isOver = true := by
  rw [run_append]
  apply Stage.isOver_iff.mpr
  have hs : 3 ≤ (r.run turns).rank := by simp [rank, stage_of_result? h, Stage.rank]
  exact Nat.le_trans hs (rank_le_run later _)

/-! ### Reading -/

theorem judge_ok {timeoutMs : Nat} {woken : Bool} {value : Except Errno Int32} {code : Int32}
    (h : judge timeoutMs woken value = .ok code) :
    ∃ v, value = .ok v ∧ ExitCode.decode? v = some code := by
  cases value with
  | error e => cases woken <;> simp [judge] at h
  | ok v =>
    cases hd : ExitCode.decode? v with
    | none => cases woken <;> simp [judge, hd] at h
    | some c =>
      refine ⟨v, rfl, ?_⟩
      cases woken <;> simpa [judge, hd] using h

theorem judge_error {timeoutMs : Nat} {woken : Bool} {value : Except Errno Int32}
    {e : HandoffError} (h : judge timeoutMs woken value = .error e) :
    e = .waitTimeout timeoutMs ∨ ∃ source, e = .counterLost source := by
  unfold judge at h
  split at h
  · split at h <;> simp at h
    exact .inr ⟨_, h.symm⟩
  · simp at h
    exact .inr ⟨_, h.symm⟩
  · split at h <;> simp at h
    exact .inl h.symm
  · simp at h
    exact .inl h.symm

theorem Sound.value_of_verdict (h : Sound r) {woken : Bool}
    (hs : r.client.stage = .reading woken) {code : Int32} (hv : r.verdict woken = .ok code) :
    ∃ v, r.store.value? r.id = some v ∧ v ≠ 0 ∧ v.toInt = code.toInt + 1000 := by
  obtain ⟨v, hread, hd⟩ := judge_ok hv
  have hval : r.store.value? r.id = some v := by
    unfold Counter.Store.read at hread
    split at hread
    · next hx => rw [hx, Except.ok.inj hread]
    · cases hread
  have hr := (h.kept (by simp [hs, Stage.isOver])).range v hval
  exact ⟨v, hval, ExitCode.toInt_of_decode? hr hd⟩

/-! ### The whole -/

/-- Whatever others do to a fresh counter, a completion that returns has cleaned up. -/
theorem cleanedUp_of_returned (early : List Hand) (timeoutMs : Nat) (s : Counter.Store)
    (turns : List Turn) (outcome : Outcome)
    (h : ((fresh early timeoutMs s).run turns).result? = some outcome) :
    CleanedUp (fresh early timeoutMs s) turns outcome := by
  have hstart := sound_fresh early timeoutMs s
  have hsound := run_sound hstart
  have hid (turns) : ((fresh early timeoutMs s).run turns).id = (fresh early timeoutMs s).id :=
    (run_later turns _).id
  obtain ⟨judged, hj, hh⟩ := (hsound turns).acts_of_returned h
  rw [← (hsound turns).history_of_returned h, hid] at hh
  rw [hid] at hj
  -- The outcome stems from a reading or from the monitor; this gives the last two fields.
  have hsettled := run_settled rfl turns (outcome?_of_result? h)
  refine
    { gone := fun later => ?_
      removals := hh ▸ removals_judged hj _
      removed := hh ▸ removed_judged hj _
      removeFailed := hh ▸ removeFailed_judged hj _
      awake := fun later => ?_
      joins := fun before o _ hs => ?_
      code := ?_
      error := ?_ }
  · have hg := (hsound (turns ++ later)).gone (isOver_run_append h later)
    rwa [hid] at hg
  · have hp := (hsound (turns ++ later)).not_parked (isOver_run_append h later)
    rwa [(run_later (turns ++ later) _).monitor] at hp
  · have hj : ((fresh early timeoutMs s).run before).client.stage.outcome? = some o := by
      simp [hs, Stage.outcome?]
    have hp := (hsound before).parted (by simp [hs, Stage.isOver])
    rw [run_append]
    exact result?_of_outcome? ((run_later parted _).outcome? o hj) hp
  · rintro code rfl
    obtain ⟨before, woken, hr, ho⟩ | ⟨before, e, -, ho⟩ := hsettled
    · obtain ⟨v, hv⟩ := (hsound before).value_of_verdict hr.stage ho.symm
      rw [hid] at hv
      exact ⟨before, woken, v, hr, hv⟩
    · cases ho
  · rintro e rfl
    obtain ⟨before, woken, -, ho⟩ | ⟨before, f, -, ho⟩ := hsettled
    · rw [← (run_later before (fresh early timeoutMs s)).timeoutMs]
      exact judge_error ho.symm
    · exact .inr ⟨_, Except.error.inj ho⟩

/-- The counter is removed by somebody else between the reading and the owner's removal. -/
theorem cleanedUp_removed_by_others :
    let turns : List Turn := [.own .monitorCalls, .other (.publish 7), .own .monitorSends,
      .own .receive, .own .read, .other .remove, .own .remove]
    ((fresh [] 100 .empty).run turns).result? = some (.ok 7) ∧
      CleanedUp (fresh [] 100 .empty) turns (.ok 7) :=
  ⟨rfl, cleanedUp_of_returned [] 100 .empty _ _ rfl⟩

end Race

end Completion

end HelperHandoff
