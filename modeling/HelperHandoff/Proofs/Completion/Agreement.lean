import HelperHandoff.Counter.Session
import HelperHandoff.Proofs.Completion.Delivery

/-!
What the two sides of a completion learn. A helper that publishes a code once is told whether it is
stored, and the client returns a code or a timeout. They agree unless the helper comes between the
client's reading, which was too early for the code, and the client's removal, which is too late to
refuse it.
-/

set_option autoImplicit false

namespace HelperHandoff.Completion.Race

open Counter (Session Store)

/-- The code is published when the client has read the counter and has not removed it yet. -/
def Late (r : Race) (turns : List Turn) (code : Int32) : Prop :=
  ∃ before o, before ++ [.other (.publish code)] <+: turns ∧
    (r.run before).client.stage = .removing o

theorem ReadsAfter.rank_le {r : Race} {turns before : List Turn} {woken : Bool}
    (h : r.ReadsAfter turns before woken) : 2 ≤ (r.run (before ++ [.own .read])).rank := by
  rw [run_append]
  exact rank_read (by simp [rank, h.stage, Stage.rank])

theorem rank_le_of_isPrefix {r : Race} {a b : List Turn} (h : a <+: b) :
    (r.run a).rank ≤ (r.run b).rank := by
  obtain ⟨c, rfl⟩ := h
  rw [run_append]
  exact rank_le_run c _

theorem isPrefix_of_rank_lt {r : Race} {a b turns : List Turn} (ha : a <+: turns)
    (hb : b <+: turns) (h : (r.run a).rank < (r.run b).rank) : a <+: b := by
  obtain hab | hba := List.prefix_or_prefix_of_prefix ha hb
  · exact hab
  · have hle := rank_le_of_isPrefix (r := r) hba
    omega

theorem eq_singleton_of_map_hand {deeds : List Deed} {h : Hand}
    (hm : deeds.map Deed.hand = [h]) : ∃ failure, deeds = [⟨h, failure⟩] := by
  obtain ⟨d, rfl, rfl⟩ := List.map_eq_singleton_iff.mp hm
  exact ⟨d.failure, rfl⟩

theorem exists_turn_after {early : List Hand} {turns before : List Turn} {h : Hand} {m : Move}
    (hp : before ++ [.own m] <+: turns) (hm : h ∈ early ++ Turn.hands turns)
    (hn : h ∉ early ++ Turn.hands before) :
    ∃ place, before ++ [.own m] <+: place ∧ place ++ [.other h] <+: turns := by
  obtain ⟨rest, rfl⟩ := hp
  have hrest : h ∈ Turn.hands rest := by
    have hown : Turn.hands [.own m] = [] := rfl
    simp only [Turn.hands_append, hown, List.append_nil, List.mem_append, not_or] at hm hn
    obtain hm | hm | hm := hm
    · exact absurd hm hn.1
    · exact absurd hm hn.2
    · exact hm
  obtain ⟨mid, hmid⟩ := Turn.exists_of_mem_hands hrest
  refine ⟨before ++ [.own m] ++ mid, List.prefix_append _ _, ?_⟩
  rw [List.append_assoc]
  exact (List.prefix_append_right_inj _).mpr hmid

section OnePublish

variable {early : List Hand} {timeoutMs : Nat} {s : Store} {turns before : List Turn}
  {code : Int32} {woken : Bool} {failure : Option Errno}

theorem honest_of_one_publish (hh : early ++ Turn.hands turns = [.publish code]) :
    ∀ hand ∈ early ++ Turn.hands turns, hand = .publish code := by
  simp [hh]

theorem deeds_before_publish (hh : early ++ Turn.hands turns = [.publish code])
    (hb : before ++ [.other (.publish code)] <+: turns) :
    ((fresh early timeoutMs s).run before).deeds = [] := by
  obtain ⟨after, rfl⟩ := hb
  have hd := hands_fresh early timeoutMs s before
  have hl := congrArg List.length hh
  simp only [Turn.hands_append, List.length_append] at hl
  have hone : (Turn.hands [.other (.publish code)]).length = 1 := rfl
  have hnone : (early ++ Turn.hands before).length = 0 := by
    rw [List.length_append]
    simp only [List.length_singleton] at hl
    omega
  rw [List.length_eq_zero_iff.mp hnone] at hd
  exact List.map_eq_nil_iff.mp hd

theorem failure_eq_none_iff (ha : ExitCode.Accepted code)
    (hh : early ++ Turn.hands turns = [.publish code])
    (hd : ((fresh early timeoutMs s).run turns).deeds = [⟨.publish code, failure⟩])
    (hb : before ++ [.other (.publish code)] <+: turns) :
    failure = none ↔ ((fresh early timeoutMs s).run before).client.stage.isOver = false := by
  have hserved := served_before ha (honest_of_one_publish hh) timeoutMs s
    ((List.prefix_append before _).trans hb)
  have hlater := (run_later_of_isPrefix hb (fresh early timeoutMs s)).deeds
  rw [deeds_run_other, deeds_before_publish hh hb, hd] at hlater
  have he := (List.singleton_inj.mp (List.IsPrefix.eq_of_length hlater rfl))
  rw [← hserved.publish_failure ha, (Deed.mk.inj he).2]

theorem failure_of_late (ha : ExitCode.Accepted code)
    (hh : early ++ Turn.hands turns = [.publish code])
    (hd : ((fresh early timeoutMs s).run turns).deeds = [⟨.publish code, failure⟩])
    (hl : (fresh early timeoutMs s).Late turns code) : failure = none := by
  obtain ⟨before, o, hb, hs⟩ := hl
  exact (failure_eq_none_iff ha hh hd hb).mpr (by simp [hs, Stage.isOver])

theorem not_late_of_published (hh : early ++ Turn.hands turns = [.publish code])
    (hr : (fresh early timeoutMs s).ReadsAfter turns before woken)
    (hp : Published code ((fresh early timeoutMs s).run before).deeds) :
    ¬ (fresh early timeoutMs s).Late turns code := by
  rintro ⟨place, o, hb, hs⟩
  have hlt : ((fresh early timeoutMs s).run before).rank <
      ((fresh early timeoutMs s).run place).rank := by
    simp [rank, hs, hr.stage, Stage.rank]
  have hpre := isPrefix_of_rank_lt hr.before_isPrefix ((List.prefix_append place _).trans hb) hlt
  have hmem := (run_later_of_isPrefix hpre (fresh early timeoutMs s)).deeds.subset hp
  rw [deeds_before_publish hh hb] at hmem
  cases hmem

theorem late_of_not_published (ha : ExitCode.Accepted code)
    (hh : early ++ Turn.hands turns = [.publish code])
    (hr : (fresh early timeoutMs s).ReadsAfter turns before woken)
    (hd : ((fresh early timeoutMs s).run turns).deeds = [⟨.publish code, none⟩])
    (hp : ¬ Published code ((fresh early timeoutMs s).run before).deeds) :
    (fresh early timeoutMs s).Late turns code := by
  have hread := served_before ha (honest_of_one_publish hh) timeoutMs s hr.before_isPrefix
  have hnot := (published_iff_mem_hands hread (by simp [hr.stage, Stage.isOver])).not.mp hp
  obtain ⟨place, hpre, hb⟩ := exists_turn_after hr.isPrefix (by simp [hh]) hnot
  -- The client has read by then, and the counter is still there.
  have hrank : 2 ≤ ((fresh early timeoutMs s).run place).rank :=
    Nat.le_trans hr.rank_le (rank_le_of_isPrefix hpre)
  have hopen := (failure_eq_none_iff ha hh hd hb).mp rfl
  cases hs : ((fresh early timeoutMs s).run place).client.stage with
  | removing o => exact ⟨place, o, hb, hs⟩
  | receiving | reading => simp [rank, hs, Stage.rank] at hrank
  | joining | returned => simp [hs, Stage.isOver] at hopen

end OnePublish

/-- One code is published. A client that returns it leaves a helper that was told so; a client that
times out leaves a helper that was refused, or one that came after the reading. -/
theorem agreement_of_one_publish (early : List Hand) (timeoutMs : Nat) (s : Store)
    (turns : List Turn) (code : Int32) (outcome : Outcome) (ha : ExitCode.Accepted code)
    (hh : early ++ Turn.hands turns = [.publish code])
    (h : ((fresh early timeoutMs s).run turns).result? = some outcome) :
    ∃ failure, ((fresh early timeoutMs s).run turns).deeds = [⟨.publish code, failure⟩] ∧
      (outcome = .ok code ∨ outcome = .error (.waitTimeout timeoutMs)) ∧
      (outcome = .ok code ↔ failure = none ∧ ¬ (fresh early timeoutMs s).Late turns code) ∧
      ((fresh early timeoutMs s).Late turns code → failure = none) := by
  have ho := outcome?_of_result? h
  have hserved {b : List Turn} (hb : b <+: turns) :=
    served_before ha (honest_of_one_publish hh) timeoutMs s hb
  obtain ⟨failure, hd⟩ := eq_singleton_of_map_hand
    ((hands_fresh early timeoutMs s turns).trans hh)
  obtain ⟨before, woken, hr⟩ := exists_readsAfter rfl (fun _ hb => hserved hb) ho
  have hb := hserved hr.before_isPrefix
  have hv := (hr.outcome ho).trans (hb.verdict ha hr.stage)
  refine ⟨failure, hd, ?_, ?_, failure_of_late ha hh hd⟩
  · rw [(run_later before _).timeoutMs] at hv
    split at hv
    · exact .inl hv
    · exact .inr hv
  · by_cases hp : Published code ((fresh early timeoutMs s).run before).deeds
    · rw [if_pos hp] at hv
      have hmem := (run_later_of_isPrefix hr.before_isPrefix
        (fresh early timeoutMs s)).deeds.subset hp
      rw [hd] at hmem
      have hf : failure = none := by simpa using (List.mem_singleton.mp hmem).symm
      exact iff_of_true hv ⟨hf, not_late_of_published hh hr hp⟩
    · rw [if_neg hp] at hv
      refine iff_of_false (by simp [hv]) ?_
      rintro ⟨rfl, hn⟩
      exact hn (late_of_not_published ha hh hr hd hp)

/-- The helper comes when the client has removed the counter. -/
theorem agreement_after_removal :
    let turns : List Turn := [.own .deadline, .own .read, .own .remove, .other (.publish 5),
      .own .monitorCalls, .own .monitorSends, .own .join]
    ((fresh [] 0 .empty).run turns).result? = some (.error (.waitTimeout 0)) ∧
      ∃ failure, ((fresh [] 0 .empty).run turns).deeds = [⟨.publish 5, failure⟩] ∧
        ¬ (failure = none ∧ ¬ (fresh [] 0 .empty).Late turns 5) := by
  refine ⟨rfl, ?_⟩
  obtain ⟨failure, hd, -, hi, -⟩ := agreement_of_one_publish [] 0 .empty
    [.own .deadline, .own .read, .own .remove, .other (.publish 5), .own .monitorCalls,
      .own .monitorSends, .own .join] 5 (.error (.waitTimeout 0)) (by decide) rfl rfl
  exact ⟨failure, hd, hi.not.mp nofun⟩

set_option maxRecDepth 2000 in
/-- A code that is stored is not always returned: the helper may come when the client has read the
counter for the last time. A client that has removed its counter before it waits misses the code
as well. -/
theorem stored_and_not_returned :
    let turns : List Turn := [.own .deadline, .own .read, .other (.publish 5), .own .remove,
      .own .monitorCalls, .own .monitorSends, .own .join]
    let r := (fresh [] 0 .empty).run turns
    (r.deeds = [⟨.publish 5, none⟩] ∧ r.result? = some (.error (.waitTimeout 0)) ∧
        ¬ (Published 5 r.deeds ↔ r.result? = some (.ok 5))) ∧
      (Session.empty.run [.create, .hand 0 (.publish 5), .destroy 0, .complete 0 10000 none]).map
          (·.answer) =
        [.done, .done, .done,
          .completed (some (.error (.counterLost (.system .invalidArgument)))) none] := by
  refine ⟨⟨rfl, rfl, fun h => ?_⟩, rfl⟩
  -- The code is stored, so it would have been returned.
  have hr := h.mp (List.mem_singleton.mpr rfl)
  cases hr

end HelperHandoff.Completion.Race
